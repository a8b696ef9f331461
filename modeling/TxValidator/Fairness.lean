import Mathlib.Data.List.Sort
import TxValidator.Hash
import TxValidator.Lib.Checked

/-! The fairness and payout layer of `in_house_bet` and `crash_settle`.  The games themselves are
outside the repository: their identifiers, payouts and validity tests are the fields of
`GameCore`. -/

namespace TxValidator

open Checked

structure Payout where
  winAmount : UInt64

structure BlackjackResult where
  totalStaked : UInt64
  payout : Payout

/-- The external game library: what the payout layer calls. -/
structure GameCore where
  crashGameId : UInt8
  limboGameId : UInt8
  diceGameId : UInt8
  kenoGameId : UInt8
  plinkoGameId : UInt8
  coinflipGameId : UInt8
  blackjackGameId : UInt8
  crashPayout (random : Vector UInt64 4) (bet : UInt64) (cashoutX100 : UInt32) : Payout
  limboPayout (random : Vector UInt64 4) (bet : UInt64) (predictionX100 : UInt32) : Payout
  DiceMode : Type
  diceModeFromU8 : UInt8 → Option DiceMode
  dicePayout (random : Vector UInt64 4) (bet : UInt64) (mode : DiceMode)
    (prediction : Vector UInt32 2) : Payout
  MultiplierTable : Type
  kenoMultiplierTable (risk pickCount : UInt8) : Option MultiplierTable
  kenoValidateSelected : List UInt8 → Bool
  kenoPayout (random : Vector UInt64 4) (bet : UInt64) (risk : UInt8) (picks : List UInt8) : Payout
  plinkoIsValidConfig (sector : UInt8) (rows : UInt32) (isExtreme : Bool) : Bool
  plinkoPayout (random : Vector UInt64 4) (bet : UInt64) (sector : UInt8) (rows : UInt32)
    (isExtreme : Bool) : Payout
  coinflipPayout (random : Vector UInt64 4) (bet : UInt64) (prediction : UInt8) : Payout
  actionHit : UInt8
  actionInsuranceDecline : UInt8
  maxCards : Nat
  dealShoe : Vector UInt64 maxCards → Vector UInt8 maxCards
  unpackActions (lo hi : UInt32) : List UInt8
  replayFull (drawn : Vector UInt8 maxCards) (actions : List UInt8) (baseBet : UInt64) :
    BlackjackResult

section Layer

variable (P : Poseidon2Hash) (G : GameCore)

/-! ### Blackjack -/

/-- The dealt cards: a shuffle seeded by the server seed and the player's secret. -/
def unfoldShoe (serverSeed : Vector UInt64 8) (userSecretRandom : Vector UInt64 4) :
    Vector UInt8 G.maxCards :=
  let mix := poseidon2 P (serverSeed.toList ++ userSecretRandom.toList)
  let swapRandom : Vector UInt64 G.maxCards := Vector.ofFn fun k =>
    (poseidon2 P (mix.toList ++ [UInt64.ofNat k])).head &&& 0xFFFFFFFF
  G.dealShoe swapRandom

/-- The outcome of a blackjack round, or nothing when an action code is invalid. -/
def blackjackComputePayout (serverSeed : Vector UInt64 8) (userSecretRandom : Vector UInt64 4)
    (predictionLo predictionHi : UInt32) (baseBet : UInt64) : Option BlackjackResult :=
  let actions := G.unpackActions predictionLo predictionHi
  if actions.any fun a => a < G.actionHit || a > G.actionInsuranceDecline then
    none
  else
    let drawn := unfoldShoe P G serverSeed userSecretRandom
    some (G.replayFull drawn actions baseBet)

/-! ### Prediction and payout -/

/-- The keno picks in ascending order, with what the payout would panic on rejected. -/
def sortedKenoPicks (input : SlotInput) : Except SlotRejection (List UInt8) :=
  let sorted := input.kenoSelected.insertionSort (· ≤ ·)
  let risk := input.gameMode.toUInt8
  if input.gameMode > 2 || !G.kenoValidateSelected sorted ||
      (G.kenoMultiplierTable risk (UInt8.ofNat sorted.length)).isNone then
    .error .payoutMismatch
  else
    .ok sorted

def verifyPredictionHash (input : SlotInput) (_flags : TxFlags) : Except SlotRejection Unit := do
  let gid := input.gameId.toUInt64
  let expected ← (
    if input.gameId == G.kenoGameId then do
      let sorted ← sortedKenoPicks G input
      return predictionHashKeno P gid input.gameMode.toUInt64 (UInt64.ofNat sorted.length) sorted
    else
      .ok (predictionHashStandard P gid input.gameMode.toUInt64 input.predictionLo.toUInt64
        input.predictionHi.toUInt64))
  failIf (expected != input.predictionHash) .payoutMismatch

/-- The win that the game named by `gameId` pays. -/
def dispatchPayout (input : SlotInput) (random : Vector UInt64 4) :
    Except SlotRejection UInt64 :=
  let bet := input.amount
  if input.gameId == G.crashGameId then
    .ok (G.crashPayout random bet input.predictionLo).winAmount
  else if input.gameId == G.limboGameId then
    .ok (G.limboPayout random bet input.predictionLo).winAmount
  else if input.gameId == G.diceGameId then do
    let mode ← okOr (G.diceModeFromU8 input.gameMode.toUInt8) .payoutMismatch
    return (G.dicePayout random bet mode #v[input.predictionLo, input.predictionHi]).winAmount
  else if input.gameId == G.kenoGameId then do
    let sorted ← sortedKenoPicks G input
    return (G.kenoPayout random bet input.gameMode.toUInt8 sorted).winAmount
  else if input.gameId == G.plinkoGameId then do
    let sector := input.gameMode.toUInt8
    let rows := input.predictionLo
    let isExtreme := input.predictionHi != 0
    failIf (!G.plinkoIsValidConfig sector rows isExtreme) .payoutMismatch
    return (G.plinkoPayout random bet sector rows isExtreme).winAmount
  else if input.gameId == G.coinflipGameId then do
    let prediction := input.predictionLo.toUInt8
    failIf (prediction > 1) .payoutMismatch
    return (G.coinflipPayout random bet prediction).winAmount
  else if input.gameId == G.blackjackGameId then do
    let result ← okOr (blackjackComputePayout P G input.serverSeed input.userSecretRandom
      input.predictionLo input.predictionHi input.baseBet) .payoutMismatch
    failIf (result.totalStaked != bet) .payoutMismatch
    return result.payout.winAmount
  else
    .error .payoutMismatch

/-- The two bounds of a dice prediction. -/
def diceBounds (lo hi : UInt32) : Vector UInt32 2 := #v[lo, hi]

/-- The swap randomness in a hash: the low word of its first element. -/
def swapWord (d : Digest) : UInt64 := d.head &&& 0xFFFFFFFF

def verifyPayout (input : SlotInput) (_flags : TxFlags) (random : Vector UInt64 4) :
    Except SlotRejection Unit := do
  let expectedWin ← dispatchPayout P G input random
  failIf (expectedWin != input.winAmount) .payoutMismatch

/-! ### The layer -/

structure FairnessEffects where
  random : Vector UInt64 4
  slotH : Digest
  newSeedHash : Vector UInt64 3

def checkFairness (input : SlotInput) (flags : TxFlags) : Except SlotRejection FairnessEffects := do
  failIf (flags.isInHouseBet && seedHashTruncated P input.serverSeed != input.oldSeedHash)
    .seedChainBreak
  -- The house commitment is checked only when the caller supplies it.
  failIf (flags.isCrashSettle && match input.crashSeedHash with
    | some seedHash => seedHashTruncated P input.serverSeed != seedHash
    | none => false) .crashSeedCommitMismatch
  failIf (flags.isInHouseBet && userSeedBinding P input.gameId.toUInt64 input.amount
    input.predictionHash input.userSecretRandom != input.userSeed) .userSeedBindingMismatch
  let random := if flags.isInHouseBet then randomIhb P input.serverSeed input.userSeed
    else randomCrash input.serverSeed
  verifyPredictionHash P G input flags
  verifyPayout P G input flags random
  let computedSlotH := slotH P random input.amount input.winAmount input.gameId.toUInt64
    input.predictionHash
  let newSeedHash := if flags.isInHouseBet then input.nextServerSeedHash else input.oldSeedHash
  return { random, slotH := computedSlotH, newSeedHash }

end Layer

/-! ### What an accepted game slot satisfies -/

variable {P : Poseidon2Hash} {G : GameCore} {input : SlotInput}

/-- The prediction preimage that the code builds for a game other than keno. -/
def SlotInput.standardPreimage (input : SlotInput) : List UInt64 :=
  predictionHashStandardPreimage input.gameId.toUInt64 input.gameMode.toUInt64
    input.predictionLo.toUInt64 input.predictionHi.toUInt64

/-- The prediction preimage that the code builds for keno. -/
def SlotInput.kenoPreimage (input : SlotInput) : List UInt64 :=
  let sorted := input.kenoSelected.insertionSort (· ≤ ·)
  predictionHashKenoPreimage input.gameId.toUInt64 input.gameMode.toUInt64
    (UInt64.ofNat sorted.length) sorted

/-- The prediction preimage of a slot. -/
def SlotInput.predictionPreimage (G : GameCore) (input : SlotInput) : List UInt64 :=
  if input.gameId = G.kenoGameId then input.kenoPreimage else input.standardPreimage

/-- The user-seed preimage of a slot. -/
def SlotInput.bindingPreimage (input : SlotInput) : List UInt64 :=
  userSeedBindingPreimage input.gameId.toUInt64 input.amount input.predictionHash
    input.userSecretRandom

/-- Sorting is a canonical form: two pick lists sort alike when they are one list up to order. -/
theorem sortedPicks_eq_iff {picks1 picks2 : List UInt8} :
    picks1.insertionSort (· ≤ ·) = picks2.insertionSort (· ≤ ·) ↔ picks1.Perm picks2 := by
  have hperm1 := List.perm_insertionSort (· ≤ ·) picks1
  have hperm2 := List.perm_insertionSort (· ≤ ·) picks2
  constructor
  · intro h
    rw [h] at hperm1
    exact hperm1.symm.trans hperm2
  · intro h
    exact List.Perm.eq_of_pairwise' (List.pairwise_insertionSort (· ≤ ·) picks1)
      (List.pairwise_insertionSort (· ≤ ·) picks2) (hperm1.trans (h.trans hperm2.symm))

theorem sortedKenoPicks_eq_ok {picks : List UInt8} :
    sortedKenoPicks G input = .ok picks ↔
      picks = input.kenoSelected.insertionSort (· ≤ ·) ∧ input.gameMode ≤ 2 ∧
        G.kenoValidateSelected picks = true ∧
        (G.kenoMultiplierTable input.gameMode.toUInt8 (UInt8.ofNat picks.length)).isSome =
          true := by
  simp only [sortedKenoPicks, Bool.or_eq_true, decide_eq_true_eq, Bool.not_eq_true',
    Option.isNone_iff_eq_none, gt_iff_lt]
  constructor
  · intro h
    split at h
    · cases h
    · rename_i hgood
      cases h
      simp only [not_or, UInt32.not_lt, Bool.not_eq_false] at hgood
      obtain ⟨⟨hmode, hvalid⟩, htable⟩ := hgood
      exact ⟨rfl, hmode, hvalid, Option.isSome_iff_ne_none.mpr htable⟩
  · rintro ⟨rfl, hmode, hvalid, htable⟩
    rw [if_neg]
    rintro ((h | h) | h)
    · exact absurd hmode (UInt32.not_le.mpr h)
    · rw [hvalid] at h
      cases h
    · exact Option.isSome_iff_ne_none.mp htable h

theorem verifyPredictionHash_eq_ok {flags : TxFlags} :
    verifyPredictionHash P G input flags = .ok () ↔
      (input.gameId = G.kenoGameId → ∃ picks, sortedKenoPicks G input = .ok picks) ∧
        poseidon2 P (input.predictionPreimage G) = input.predictionHash := by
  simp only [verifyPredictionHash, bind_eq_ok, failIf_eq_ok, bne_eq_false_iff_eq, beq_iff_eq,
    exists_eq_right, SlotInput.predictionPreimage]
  split
  · constructor
    · intro h
      obtain ⟨picks, hpicks, h⟩ := bind_eq_ok.mp h
      obtain ⟨rfl, -⟩ := sortedKenoPicks_eq_ok.mp hpicks
      exact ⟨fun _ => ⟨_, hpicks⟩, Except.ok.inj h⟩
    · rintro ⟨hpicks, h⟩
      obtain ⟨picks, hpicks⟩ := hpicks ‹_›
      refine bind_eq_ok.mpr ⟨picks, hpicks, ?_⟩
      obtain ⟨rfl, -⟩ := sortedKenoPicks_eq_ok.mp hpicks
      rw [← h]
      rfl
  · rename_i hkeno
    constructor
    · intro h
      exact ⟨fun hk => absurd hk hkeno, Except.ok.inj h⟩
    · rintro ⟨-, h⟩
      rw [← h]
      rfl

theorem verifyPayout_eq_ok {flags : TxFlags} {random : Vector UInt64 4} :
    verifyPayout P G input flags random = .ok () ↔
      dispatchPayout P G input random = .ok input.winAmount := by
  simp only [verifyPayout, bind_eq_ok, failIf_eq_ok, bne_eq_false_iff_eq, exists_eq_right]

/-- What the fairness layer requires of a game slot, and what it returns. -/
structure FairnessSpec (P : Poseidon2Hash) (G : GameCore) (input : SlotInput)
    (fe : FairnessEffects) : Prop where
  seedChain : input.txType = txInHouseBet →
    seedHashTruncated P input.serverSeed = input.oldSeedHash
  crashCommit : input.txType = txCrashSettle → ∀ seedHash, input.crashSeedHash = some seedHash →
    seedHashTruncated P input.serverSeed = seedHash
  userSeed : input.txType = txInHouseBet → poseidon2 P input.bindingPreimage = input.userSeed
  random : fe.random = if input.txType = txInHouseBet then
    randomIhb P input.serverSeed input.userSeed else randomCrash input.serverSeed
  kenoPicks : input.gameId = G.kenoGameId → ∃ picks, sortedKenoPicks G input = .ok picks
  prediction : poseidon2 P (input.predictionPreimage G) = input.predictionHash
  payout : dispatchPayout P G input fe.random = .ok input.winAmount
  slotH : fe.slotH = slotH P fe.random input.amount input.winAmount input.gameId.toUInt64
    input.predictionHash
  newSeedHash : fe.newSeedHash =
    if input.txType = txInHouseBet then input.nextServerSeedHash else input.oldSeedHash

theorem checkFairness_eq_ok {fe : FairnessEffects} :
    checkFairness P G input input.flags = .ok fe ↔ FairnessSpec P G input fe := by
  have hcommit : (input.txType == txCrashSettle && match input.crashSeedHash with
      | some seedHash => seedHashTruncated P input.serverSeed != seedHash
      | none => false) = false ↔ (input.txType = txCrashSettle → ∀ seedHash,
        input.crashSeedHash = some seedHash → seedHashTruncated P input.serverSeed = seedHash) := by
    rw [Bool.and_eq_false_imp, beq_iff_eq]
    cases input.crashSeedHash <;> simp
  simp only [checkFairness, TxFlags.fromTxType, unit_bind_eq_ok, failIf_eq_ok, hcommit,
    verifyPredictionHash_eq_ok, verifyPayout_eq_ok, Bool.and_eq_false_imp, beq_iff_eq,
    bne_eq_false_iff_eq]
  constructor
  · rintro ⟨hseed, hcrash, huser, ⟨hkeno, hpred⟩, hpay, h⟩
    cases h
    exact ⟨hseed, hcrash, huser, rfl, hkeno, hpred, hpay, rfl, rfl⟩
  · intro h
    obtain ⟨random, slotH, newSeedHash⟩ := fe
    obtain ⟨hseed, hcrash, huser, hrandom, hkeno, hpred, hpay, hslotH, hnew⟩ := h
    dsimp only at hrandom hpay hslotH hnew
    subst hrandom hslotH hnew
    exact ⟨hseed, hcrash, huser, ⟨hkeno, hpred⟩, hpay, rfl⟩

/-- A game library to run the model with: every game pays twice the bet. -/
def evenCore : GameCore where
  crashGameId := 6
  limboGameId := 1
  diceGameId := 2
  kenoGameId := 4
  plinkoGameId := 3
  coinflipGameId := 5
  blackjackGameId := 7
  crashPayout _ bet _ := ⟨bet + bet⟩
  limboPayout _ bet _ := ⟨bet + bet⟩
  DiceMode := Bool
  diceModeFromU8 m := if m = 0 then some false else if m = 1 then some true else none
  dicePayout _ bet _ _ := ⟨bet + bet⟩
  MultiplierTable := Unit
  kenoMultiplierTable _ pickCount := if 1 ≤ pickCount ∧ pickCount ≤ 10 then some () else none
  kenoValidateSelected picks := 1 ≤ picks.length ∧ picks.length ≤ 10
  kenoPayout _ bet _ _ := ⟨bet + bet⟩
  plinkoIsValidConfig _ _ _ := true
  plinkoPayout _ bet _ _ _ := ⟨bet + bet⟩
  coinflipPayout _ bet _ := ⟨bet + bet⟩
  actionHit := 1
  actionInsuranceDecline := 6
  maxCards := 30
  dealShoe _ := Vector.replicate 30 0
  unpackActions _ _ := []
  replayFull _ _ baseBet := ⟨baseBet, ⟨baseBet + baseBet⟩⟩

end TxValidator
