import TxValidator.Field

/-! The candidate slot that the validator reads, the effects and rejections that it returns, the
transaction types with their one-hot flags, and the two lanes of an account's nonce. -/

namespace TxValidator

/-- A Poseidon2 digest: four field elements carried as words. -/
abbrev Digest := Vector UInt64 4

/-- A hash slot that holds nothing. -/
def zeroDigest : Digest := #v[0, 0, 0, 0]

/-- The seed commitment of an account that has none. -/
def zeroSeed : Vector UInt64 3 := #v[0, 0, 0]

/-- The depth of the state tree. -/
def treeDepth : Nat := 28

/-- The highest valid transaction type. -/
def maxTxType : UInt8 := 13

def txNoop : UInt8 := 0
def txDeposit : UInt8 := 1
def txBet : UInt8 := 2
def txWin : UInt8 := 3
def txBonus : UInt8 := 4
def txInHouseBet : UInt8 := 5
def txWithdrawal : UInt8 := 6
def txRiskReject : UInt8 := 7
def txSetInitSeedHash : UInt8 := 8
def txKeyRegisterOnly : UInt8 := 9
def txTransfer : UInt8 := 10
def txReferral : UInt8 := 11
def txCrashSettle : UInt8 := 12
def txSetProviderAllowance : UInt8 := 13

/-- The full candidate witness for one slot, with the block state that it is checked against and
the game parameters that only the payout layer reads. -/
structure SlotInput where
  txType : UInt8 := 0
  userId : UInt32 := 0
  amount : UInt64 := 0
  winAmount : UInt64 := 0
  oldBalance : UInt64 := 0
  oldDepositCredit : UInt64 := 0
  oldNonce : UInt64 := 0
  oldProviderAllowance : UInt64 := 0
  mainSiblings : Vector Digest treeDepth := Vector.replicate treeDepth (Vector.replicate 4 0)
  serverSeed : Vector UInt64 8 := Vector.replicate 8 0
  userSeed : Vector UInt64 4 := Vector.replicate 4 0
  oldSeedHash : Vector UInt64 3 := Vector.replicate 3 0
  nextServerSeedHash : Vector UInt64 3 := Vector.replicate 3 0
  oldPkHash : Digest := Vector.replicate 4 0
  newPkHash : Digest := Vector.replicate 4 0
  userAddress : Vector UInt8 20 := Vector.replicate 20 0
  oldAddressHash : Digest := Vector.replicate 4 0
  recipientAddrHash : Vector UInt64 2 := Vector.replicate 2 0
  oldTotalLiability : UInt64 := 0
  gameId : UInt8 := 0
  predictionHash : Digest := Vector.replicate 4 0
  userSecretRandom : Vector UInt64 4 := Vector.replicate 4 0
  currentRoot : Digest := Vector.replicate 4 0
  currentTl : UInt64 := 0
  gameMode : UInt32 := 0
  predictionLo : UInt32 := 0
  predictionHi : UInt32 := 0
  baseBet : UInt64 := 0
  kenoSelected : List UInt8 := []
  crashSeedHash : Option (Vector UInt64 3) := none

/-- The state after an accepted slot. -/
@[ext] structure SlotEffects where
  newBalance : UInt64
  newCredit : UInt64
  newSeedHash : Vector UInt64 3
  newNonce : UInt64
  newGameNonce : UInt64
  newAccountNonce : UInt64
  newProviderAllowance : UInt64
  newPkHash : Digest
  newAddressHash : Digest
  newRoot : Digest
  newTotalLiability : UInt64
  random : Vector UInt64 4
  slotH : Digest
  isMultisetSlot : Bool
  deriving DecidableEq

/-- Why a candidate slot is rejected. -/
inductive SlotRejection
  | badTxType
  | amountLimbOverflow
  | fieldNotCanonical
  | amountNotCanonical
  | addressByteOverflow
  | userIdOutOfRange
  | merkleRootMismatch
  | insufficientBalance
  | tlOverflow
  | creditCapMismatch
  | signedWithoutPk
  | setInitSeedNotAccountZero
  | inHouseBetOnAccountZero
  | seedChainBreak
  | zeroSeedCommit
  | userSeedBindingMismatch
  | addressHashMismatch
  | recipientAddrHashMismatch
  | riskRejectBelowCredit
  | payoutMismatch
  | crashSeedCommitMismatch
  | nonceLaneOverflow
  | providerAllowanceExceeded
  | providerAllowanceOverflow
  deriving DecidableEq

/-! ### Transaction flags -/

/-- The one-hot decode of a transaction type. -/
structure TxFlags where
  isNoop : Bool := false
  isDeposit : Bool := false
  isBet : Bool := false
  isWin : Bool := false
  isBonus : Bool := false
  isInHouseBet : Bool := false
  isWithdrawal : Bool := false
  isRiskReject : Bool := false
  isSetInitSeedHash : Bool := false
  isKeyRegisterOnly : Bool := false
  isTransfer : Bool := false
  isReferral : Bool := false
  isCrashSettle : Bool := false
  isSetProviderAllowance : Bool := false

namespace TxFlags

def fromTxType (txType : UInt8) : TxFlags where
  isNoop := txType == txNoop
  isDeposit := txType == txDeposit
  isBet := txType == txBet
  isWin := txType == txWin
  isBonus := txType == txBonus
  isInHouseBet := txType == txInHouseBet
  isWithdrawal := txType == txWithdrawal
  isRiskReject := txType == txRiskReject
  isSetInitSeedHash := txType == txSetInitSeedHash
  isKeyRegisterOnly := txType == txKeyRegisterOnly
  isTransfer := txType == txTransfer
  isReferral := txType == txReferral
  isCrashSettle := txType == txCrashSettle
  isSetProviderAllowance := txType == txSetProviderAllowance

/-- The two slots that pay out a game. -/
def isIhbOrCrash (flags : TxFlags) : Bool := flags.isInHouseBet || flags.isCrashSettle

/-- The slots that sign, and bump, the game lane of the nonce. -/
def isGameLane (flags : TxFlags) : Bool := flags.isIhbOrCrash || flags.isSetProviderAllowance

end TxFlags

/-- The decode of the slot's own type. -/
abbrev SlotInput.flags (input : SlotInput) : TxFlags := TxFlags.fromTxType input.txType

/-! ### Nonce lanes -/

/-- The width of the game lane. -/
def gameLaneBits : UInt64 := 40

/-- The width of the account lane. -/
def accountLaneBits : UInt64 := 23

/-- The highest storable value of the game lane. -/
def gameLaneMax : UInt64 := (1 <<< gameLaneBits) - 1

/-- The highest storable value of the account lane. -/
def accountLaneMax : UInt64 := (1 <<< accountLaneBits) - 1

/-- One step of the account lane in a packed nonce. -/
def accountLaneUnit : UInt64 := 1 <<< gameLaneBits

/-- The account lane and the game lane of a packed nonce. -/
def splitNonce (nonce : UInt64) : UInt64 × UInt64 :=
  (nonce >>> gameLaneBits, nonce &&& gameLaneMax)

theorem splitNonce_toNat (nonce : UInt64) :
    (splitNonce nonce).1.toNat = nonce.toNat / 2 ^ 40 ∧
      (splitNonce nonce).2.toNat = nonce.toNat % 2 ^ 40 := by
  constructor
  · rw [splitNonce, UInt64.toNat_shiftRight]
    exact Nat.shiftRight_eq_div_pow nonce.toNat 40
  · rw [splitNonce, UInt64.toNat_and]
    exact Nat.and_two_pow_sub_one_eq_mod nonce.toNat 40

theorem gameLaneMax_toNat : gameLaneMax.toNat = 2 ^ 40 - 1 := by decide

theorem accountLaneMax_toNat : accountLaneMax.toNat = 2 ^ 23 - 1 := by decide

/-- The packed nonce of an account lane and a game lane. -/
def joinNonce (accountLane gameLane : UInt64) : UInt64 :=
  (accountLane <<< gameLaneBits) ||| gameLane

theorem joinNonce_toNat {accountLane gameLane : UInt64} (haccount : accountLane.toNat < 2 ^ 24)
    (hgame : gameLane.toNat < 2 ^ 40) :
    (joinNonce accountLane gameLane).toNat = accountLane.toNat * 2 ^ 40 + gameLane.toNat :=
  shiftLeft_or_toNat accountLane gameLane (k := gameLaneBits) (by decide) hgame
    (show accountLane.toNat * 2 ^ 40 < 2 ^ 64 by omega)

/-- The lanes of a nonce make it up again. -/
theorem joinNonce_splitNonce (nonce : UInt64) :
    joinNonce (splitNonce nonce).1 (splitNonce nonce).2 = nonce := by
  obtain ⟨haccount, hgame⟩ := splitNonce_toNat nonce
  have hlt := nonce.toNat_lt
  apply UInt64.toNat_inj.mp
  rw [joinNonce_toNat (by omega) (by omega), haccount, hgame]
  exact Nat.div_add_mod' nonce.toNat (2 ^ 40)

/-- Lanes within their widths are the lanes of their nonce. -/
theorem splitNonce_joinNonce {accountLane gameLane : UInt64}
    (haccount : accountLane ≤ accountLaneMax) (hgame : gameLane ≤ gameLaneMax) :
    splitNonce (joinNonce accountLane gameLane) = (accountLane, gameLane) := by
  rw [UInt64.le_iff_toNat_le, accountLaneMax_toNat] at haccount
  rw [UInt64.le_iff_toNat_le, gameLaneMax_toNat] at hgame
  obtain ⟨haccount', hgame'⟩ := splitNonce_toNat (joinNonce accountLane gameLane)
  rw [joinNonce_toNat (by omega) (by omega)] at haccount' hgame'
  have hdiv : (accountLane.toNat * 2 ^ 40 + gameLane.toNat) / 2 ^ 40 = accountLane.toNat := by
    omega
  have hmod : (accountLane.toNat * 2 ^ 40 + gameLane.toNat) % 2 ^ 40 = gameLane.toNat := by
    omega
  exact Prod.ext (UInt64.toNat_inj.mp (haccount'.trans hdiv))
    (UInt64.toNat_inj.mp (hgame'.trans hmod))

end TxValidator
