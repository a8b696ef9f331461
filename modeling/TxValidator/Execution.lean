import TxValidator.Validate
import TxValidator.Lib.Trace

/-! The execution of the validator, operation by operation: the same functions as programs that
record each operation with a precondition, in the order in which the code reaches it. -/

namespace TxValidator

/-- An operation that panics, wraps or is undefined outside its precondition. -/
inductive Operation (G : GameCore)
  | hash (input : List UInt64)
  | packBalanceFields (balance allowance : UInt64)
  | add (a b : UInt64)
  | debugAssert (cond : Bool)
  | dicePayout (mode : G.DiceMode)
  | kenoPayout (risk : UInt8) (picks : List UInt8)
  | plinkoPayout (sector : UInt8) (rows : UInt32) (isExtreme : Bool)
  | coinflipPayout (prediction : UInt8)
  | replayFull (actions : List UInt8)

/-- The precondition of an operation: canonical elements for a hash, an allowance with a
representation for the packed fields, no overflow, and the arguments that the game library takes. -/
def Operation.Safe {G : GameCore} : Operation G → Prop
  | hash input => allCanonical input = true
  | packBalanceFields _ allowance => allowance ≤ providerAllowanceMax
  | add a b => a.toNat + b.toNat < 2 ^ 64
  | debugAssert cond => cond = true
  | dicePayout mode => ∃ code, G.diceModeFromU8 code = some mode
  | kenoPayout risk picks => picks.Pairwise (· ≤ ·) ∧ G.kenoValidateSelected picks = true ∧
      risk ≤ 2 ∧ (G.kenoMultiplierTable risk (UInt8.ofNat picks.length)).isSome = true
  | plinkoPayout sector rows isExtreme => G.plinkoIsValidConfig sector rows isExtreme = true
  | coinflipPayout prediction => prediction ≤ 1
  | replayFull actions => ∀ a ∈ actions, 1 ≤ a ∧ a ≤ 6

/-- A run of a part of the validator. -/
abbrev Exec (G : GameCore) := Traced (Operation G) SlotRejection

namespace Execution

open Checked Traced

variable (P : Poseidon2Hash) {G : GameCore}

/-! ### Hashes -/

def poseidon2 (input : List UInt64) : Exec G Digest := do
  emit (.hash input)
  return TxValidator.poseidon2 P input

def balanceLeaf (balance : UInt64) (seedHash : Vector UInt64 3) (credit nonce allowance : UInt64) :
    Exec G Digest := do
  emit (.packBalanceFields balance allowance)
  poseidon2 P (balanceLeafPreimage balance seedHash credit nonce allowance)

def mainLeaf (balanceHash pkHash addressHash : Digest) : Exec G Digest :=
  poseidon2 P (mainLeafPreimage balanceHash pkHash addressHash)

def twoToOne (left right : Digest) : Exec G Digest := poseidon2 P (twoToOnePreimage left right)

def addressHash (userAddress : Vector UInt8 20) : Exec G Digest :=
  poseidon2 P (userAddress.toList.map UInt8.toUInt64)

def randomIhb (serverSeed : Vector UInt64 8) (userSeed : Vector UInt64 4) : Exec G Digest :=
  poseidon2 P (serverSeed.toList ++ userSeed.toList)

def seedHashTruncated (serverSeed : Vector UInt64 8) : Exec G (Vector UInt64 3) := do
  let h ← poseidon2 P serverSeed.toList
  return truncated h

def userSeedBinding (gameId betFull : UInt64) (predictionHash : Digest)
    (userSecret : Vector UInt64 4) : Exec G Digest :=
  poseidon2 P (userSeedBindingPreimage gameId betFull predictionHash userSecret)

def slotH (random : Vector UInt64 4) (betFull winFull gameId : UInt64) (predictionHash : Digest) :
    Exec G Digest :=
  poseidon2 P (slotHPreimage random betFull winFull gameId predictionHash)

def predictionHashStandard (gameId p0 p1 p2 : UInt64) : Exec G Digest :=
  poseidon2 P (predictionHashStandardPreimage gameId p0 p1 p2)

def predictionHashKeno (gameId risk pickCount : UInt64) (selected : List UInt8) : Exec G Digest :=
  poseidon2 P (predictionHashKenoPreimage gameId risk pickCount selected)

def rootFromLeaf (leaf : Digest) (siblings : Vector Digest treeDepth) (userId : UInt32) :
    Exec G Digest :=
  siblings.toList.zipIdx.foldlM (fun current (sibling, level) =>
    let bit := (userId >>> UInt32.ofNat level) &&& 1 == 1
    let (left, right) := if bit then (sibling, current) else (current, sibling)
    twoToOne P left right) leaf

def computeRoot (balanceHash pkHash addressHash : Digest) (siblings : Vector Digest treeDepth)
    (userId : UInt32) : Exec G Digest := do
  let leaf ← mainLeaf P balanceHash pkHash addressHash
  rootFromLeaf P leaf siblings userId

/-! ### Identity -/

def buildAddress (input : SlotInput) (flags : TxFlags) : Exec G AddressEffects := do
  let isNewPkProvided := !allZero input.newPkHash.toList
  let isKeySetter := flags.isKeyRegisterOnly && isNewPkProvided
  let newPkHash := if isKeySetter then input.newPkHash else input.oldPkHash
  let isAddrAllZero := allZero input.oldAddressHash.toList
  let isDepositFirst := flags.isDeposit && isAddrAllZero
  let isKeySetterFirst := isKeySetter && isAddrAllZero
  let isAddressSetter := isDepositFirst || isKeySetterFirst
  let isDepRedeposit := flags.isDeposit && !isAddrAllZero
  let newAddressHash ← (
    if isAddressSetter then
      addressHash P input.userAddress
    else if isDepRedeposit then do
      let computed ← addressHash P input.userAddress
      lift (failIf (computed != input.oldAddressHash) .addressHashMismatch)
      return input.oldAddressHash
    else
      return input.oldAddressHash)
  return { newPkHash, newAddressHash, isKeySetter }

def recipientAddrHashFor (txType : UInt8) (userAddress : Vector UInt8 20) :
    Exec G (Vector UInt64 2) :=
  if txType == txWithdrawal then do
    let h ← addressHash P userAddress
    return committed h
  else
    return zeroLimbs

def checkRecipientBinding (input : SlotInput) (flags : TxFlags) : Exec G Unit := do
  emit (.debugAssert (flags.isWithdrawal == (input.txType == txWithdrawal)))
  let expected ← recipientAddrHashFor P input.txType input.userAddress
  lift (failIf (input.recipientAddrHash != expected) .recipientAddrHashMismatch)

def computeNewNonce (oldNonce : UInt64) (isGameBump isAccountBump : Bool) : Exec G UInt64 := do
  lift (failIf (oldNonce ≥ 1 <<< (gameLaneBits + accountLaneBits)) .nonceLaneOverflow)
  let (accountLane, gameLane) := splitNonce oldNonce
  lift (failIf (isGameBump && gameLane == gameLaneMax) .nonceLaneOverflow)
  lift (failIf (isAccountBump && accountLane == accountLaneMax) .nonceLaneOverflow)
  emit (.add oldNonce isGameBump.toUInt64)
  emit (.add (oldNonce + isGameBump.toUInt64) (isAccountBump.toUInt64 * accountLaneUnit))
  return oldNonce + isGameBump.toUInt64 + isAccountBump.toUInt64 * accountLaneUnit

/-! ### Games -/

def unfoldShoe (serverSeed : Vector UInt64 8) (userSecretRandom : Vector UInt64 4) :
    Exec G (Vector UInt8 G.maxCards) := do
  let mix ← poseidon2 P (serverSeed.toList ++ userSecretRandom.toList)
  let swapRandom ← Vector.ofFnM fun k => do
    let h ← poseidon2 P (mix.toList ++ [UInt64.ofNat k])
    return swapWord h
  return G.dealShoe swapRandom

def blackjackComputePayout (serverSeed : Vector UInt64 8) (userSecretRandom : Vector UInt64 4)
    (predictionLo predictionHi : UInt32) (baseBet : UInt64) : Exec G (Option BlackjackResult) :=
  let actions := G.unpackActions predictionLo predictionHi
  if actions.any fun a => a < G.actionHit || a > G.actionInsuranceDecline then
    return none
  else do
    let drawn ← unfoldShoe P serverSeed userSecretRandom
    emit (.replayFull actions)
    return some (G.replayFull drawn actions baseBet)

variable (G) in
def verifyPredictionHash (input : SlotInput) : Exec G Unit := do
  let gid := input.gameId.toUInt64
  let expected ← (
    if input.gameId == G.kenoGameId then do
      let sorted ← lift (sortedKenoPicks G input)
      predictionHashKeno P gid input.gameMode.toUInt64 (UInt64.ofNat sorted.length) sorted
    else
      predictionHashStandard P gid input.gameMode.toUInt64 input.predictionLo.toUInt64
        input.predictionHi.toUInt64)
  lift (failIf (expected != input.predictionHash) .payoutMismatch)

variable (G) in
def dispatchPayout (input : SlotInput) (random : Vector UInt64 4) : Exec G UInt64 :=
  let bet := input.amount
  if input.gameId == G.crashGameId then
    return (G.crashPayout random bet input.predictionLo).winAmount
  else if input.gameId == G.limboGameId then
    return (G.limboPayout random bet input.predictionLo).winAmount
  else if input.gameId == G.diceGameId then do
    let mode ← lift (okOr (G.diceModeFromU8 input.gameMode.toUInt8) .payoutMismatch)
    emit (.dicePayout mode)
    let bounds := diceBounds input.predictionLo input.predictionHi
    return (G.dicePayout random bet mode bounds).winAmount
  else if input.gameId == G.kenoGameId then do
    let sorted ← lift (sortedKenoPicks G input)
    emit (.kenoPayout input.gameMode.toUInt8 sorted)
    return (G.kenoPayout random bet input.gameMode.toUInt8 sorted).winAmount
  else if input.gameId == G.plinkoGameId then do
    let sector := input.gameMode.toUInt8
    let rows := input.predictionLo
    let isExtreme := input.predictionHi != 0
    lift (failIf (!G.plinkoIsValidConfig sector rows isExtreme) .payoutMismatch)
    emit (.plinkoPayout sector rows isExtreme)
    return (G.plinkoPayout random bet sector rows isExtreme).winAmount
  else if input.gameId == G.coinflipGameId then do
    let prediction := input.predictionLo.toUInt8
    lift (failIf (prediction > 1) .payoutMismatch)
    emit (.coinflipPayout prediction)
    return (G.coinflipPayout random bet prediction).winAmount
  else if input.gameId == G.blackjackGameId then do
    let played ← blackjackComputePayout P input.serverSeed input.userSecretRandom
      input.predictionLo input.predictionHi input.baseBet
    let result ← lift (okOr played .payoutMismatch)
    lift (failIf (result.totalStaked != bet) .payoutMismatch)
    return result.payout.winAmount
  else
    lift (.error .payoutMismatch)

variable (G) in
def verifyPayout (input : SlotInput) (random : Vector UInt64 4) : Exec G Unit := do
  let expectedWin ← dispatchPayout P G input random
  lift (failIf (expectedWin != input.winAmount) .payoutMismatch)

/-! ### Fairness -/

/-- The hash of the server seed against a commitment that must be checked. -/
def checkSeedHash (checked : Bool) (serverSeed : Vector UInt64 8) (seedHash : Vector UInt64 3)
    (rejection : SlotRejection) : Exec G Unit :=
  if checked then do
    let computed ← seedHashTruncated P serverSeed
    lift (failIf (computed != seedHash) rejection)
  else
    return ()

/-- The house commitment is checked only when the caller supplies it. -/
def checkCrashCommit (input : SlotInput) (flags : TxFlags) : Exec G Unit :=
  match input.crashSeedHash with
  | some seedHash =>
    checkSeedHash P flags.isCrashSettle input.serverSeed seedHash .crashSeedCommitMismatch
  | none => return ()

def checkUserSeed (input : SlotInput) (flags : TxFlags) : Exec G Unit :=
  if flags.isInHouseBet then do
    let computed ← userSeedBinding P input.gameId.toUInt64 input.amount input.predictionHash
      input.userSecretRandom
    lift (failIf (computed != input.userSeed) .userSeedBindingMismatch)
  else
    return ()

variable (G) in
def checkFairness (input : SlotInput) (flags : TxFlags) : Exec G FairnessEffects := do
  emit (.debugAssert flags.isIhbOrCrash)
  checkSeedHash P flags.isInHouseBet input.serverSeed input.oldSeedHash .seedChainBreak
  checkCrashCommit P input flags
  checkUserSeed P input flags
  let random ← (
    if flags.isInHouseBet then randomIhb P input.serverSeed input.userSeed
    else return randomCrash input.serverSeed)
  verifyPredictionHash P G input
  verifyPayout P G input random
  let computedSlotH ← slotH P random input.amount input.winAmount input.gameId.toUInt64
    input.predictionHash
  let newSeedHash := if flags.isInHouseBet then input.nextServerSeedHash else input.oldSeedHash
  return { random, slotH := computedSlotH, newSeedHash }

/-! ### Slots -/

def verifyCurrentRoot (input : SlotInput) : Exec G Unit := do
  let oldBalanceHash ← balanceLeaf P input.oldBalance input.oldSeedHash input.oldDepositCredit
    input.oldNonce input.oldProviderAllowance
  let computed ← computeRoot P oldBalanceHash input.oldPkHash input.oldAddressHash
    input.mainSiblings input.userId
  lift (if computed = input.currentRoot then .ok () else .error .merkleRootMismatch)

def computeNewRoot (newBalance : UInt64) (newSeedHash : Vector UInt64 3)
    (newCredit newNonce newAllowance : UInt64) (newPkHash newAddressHash : Digest)
    (siblings : Vector Digest treeDepth) (userId : UInt32) : Exec G Digest := do
  let newBalanceHash ← balanceLeaf P newBalance newSeedHash newCredit newNonce newAllowance
  computeRoot P newBalanceHash newPkHash newAddressHash siblings userId

variable (G) in
def computeEffects (input : SlotInput) : Exec G SlotEffects := do
  let flags := TxFlags.fromTxType input.txType
  lift (failIf (flags.isSetInitSeedHash && input.userId != 0) .setInitSeedNotAccountZero)
  lift (failIf (flags.isInHouseBet && input.userId == 0) .inHouseBetOnAccountZero)
  let bal ← lift (buildBalanceChanges input flags)
  let newProviderAllowance ← lift (computeNewAllowance input flags)
  lift (failIf (flags.isRiskReject && bal.newBalance < input.oldDepositCredit)
    .riskRejectBelowCredit)
  let addr ← buildAddress P input flags
  checkRecipientBinding P input flags
  let auth ← lift (checkAuth input flags)
  let isAccountBump := auth.isAccountLane || addr.isKeySetter
  let newNonce ← computeNewNonce input.oldNonce auth.isGameLane isAccountBump
  let (newAccountNonce, newGameNonce) := splitNonce newNonce
  let fairnessResult ← (
    if flags.isIhbOrCrash then some <$> checkFairness P G input flags else return none)
  let isFirstRegistration := flags.isKeyRegisterOnly && allZero input.oldSeedHash.toList
  let isNeedsNewSeed := flags.isInHouseBet || flags.isSetInitSeedHash || isFirstRegistration
  lift (failIf (isNeedsNewSeed && allZero input.nextServerSeedHash.toList) .zeroSeedCommit)
  let newSeedHash := match fairnessResult with
    | some fe => fe.newSeedHash
    | none =>
      if flags.isSetInitSeedHash || isFirstRegistration then input.nextServerSeedHash
      else input.oldSeedHash
  let newTotalLiability ← lift (computeNewTl input.oldTotalLiability bal.addFull bal.subFull)
  let newRoot ← computeNewRoot P bal.newBalance newSeedHash bal.newCredit newNonce
    newProviderAllowance addr.newPkHash addr.newAddressHash input.mainSiblings input.userId
  return {
    newBalance := bal.newBalance
    newCredit := bal.newCredit
    newSeedHash
    newNonce
    newGameNonce
    newAccountNonce
    newProviderAllowance
    newPkHash := addr.newPkHash
    newAddressHash := addr.newAddressHash
    newRoot
    newTotalLiability
    random := (fairnessResult.map FairnessEffects.random).getD zeroDigest
    slotH := (fairnessResult.map FairnessEffects.slotH).getD zeroDigest
    isMultisetSlot := fairnessResult.isSome }

variable (G) in
def validateSlot (input : SlotInput) : Exec G SlotEffects := do
  lift (checkTxType input)
  lift (checkFieldCanonicity input)
  lift (checkAmountCanonicity input)
  lift (checkStoredAllowanceRange input)
  lift (checkUserIdRange input)
  verifyCurrentRoot P input
  lift (failIf (input.oldTotalLiability != input.currentTl) .tlOverflow)
  computeEffects P G input

end Execution

end TxValidator
