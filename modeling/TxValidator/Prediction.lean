import TxValidator.Ledger
import Mathlib.Data.Nat.Digits.Lemmas

/-! The prediction that a game slot commits and the parameters that its payout is computed from.
The prediction hash reads the full `gameMode`, `predictionLo` and `predictionHi`; the dispatch to
the payout narrows some of them and ignores others, so the parameters determine the prediction only
up to what it drops. -/

namespace TxValidator

open Checked

/-- The parameters that a game's payout is computed from. -/
inductive GameParams (G : GameCore)
  | crash (cashoutX100 : UInt32)
  | limbo (predictionX100 : UInt32)
  | dice (mode : G.DiceMode) (lo hi : UInt32)
  | keno (risk : UInt8) (picks : List UInt8)
  | plinko (sector : UInt8) (rows : UInt32) (isExtreme : Bool)
  | coinflip (prediction : UInt8)
  | blackjack (actions : List UInt8)

section Parts

variable (P : Poseidon2Hash) (G : GameCore)

/-- The parameters that the dispatch passes to the game named by `gameId`. -/
def passedParams (input : SlotInput) : Except SlotRejection (GameParams G) :=
  if input.gameId == G.crashGameId then
    .ok (.crash input.predictionLo)
  else if input.gameId == G.limboGameId then
    .ok (.limbo input.predictionLo)
  else if input.gameId == G.diceGameId then do
    let mode ← okOr (G.diceModeFromU8 input.gameMode.toUInt8) .payoutMismatch
    return .dice mode input.predictionLo input.predictionHi
  else if input.gameId == G.kenoGameId then do
    let sorted ← sortedKenoPicks G input
    return .keno input.gameMode.toUInt8 sorted
  else if input.gameId == G.plinkoGameId then
    .ok (.plinko input.gameMode.toUInt8 input.predictionLo (input.predictionHi != 0))
  else if input.gameId == G.coinflipGameId then
    .ok (.coinflip input.predictionLo.toUInt8)
  else if input.gameId == G.blackjackGameId then
    .ok (.blackjack (G.unpackActions input.predictionLo input.predictionHi))
  else
    .error .payoutMismatch

/-- The win that the game pays on its parameters. -/
def GameParams.pay (input : SlotInput) (random : Vector UInt64 4) :
    GameParams G → Except SlotRejection UInt64
  | .crash cashoutX100 => .ok (G.crashPayout random input.amount cashoutX100).winAmount
  | .limbo predictionX100 => .ok (G.limboPayout random input.amount predictionX100).winAmount
  | .dice mode lo hi => .ok (G.dicePayout random input.amount mode (diceBounds lo hi)).winAmount
  | .keno risk picks => .ok (G.kenoPayout random input.amount risk picks).winAmount
  | .plinko sector rows isExtreme => do
    failIf (!G.plinkoIsValidConfig sector rows isExtreme) .payoutMismatch
    return (G.plinkoPayout random input.amount sector rows isExtreme).winAmount
  | .coinflip prediction => do
    failIf (prediction > 1) .payoutMismatch
    return (G.coinflipPayout random input.amount prediction).winAmount
  | .blackjack actions => do
    let result ← okOr (
      if actions.any fun a => a < G.actionHit || a > G.actionInsuranceDecline then none
      else some (G.replayFull (unfoldShoe P G input.serverSeed input.userSecretRandom) actions
        input.baseBet)) .payoutMismatch
    failIf (result.totalStaked != input.amount) .payoutMismatch
    return result.payout.winAmount

/-- What the dispatch drops of `gameMode`, `predictionLo` and `predictionHi`. -/
def droppedParams (input : SlotInput) : List UInt32 :=
  if input.gameId == G.crashGameId || input.gameId == G.limboGameId then
    [input.gameMode, input.predictionHi]
  else if input.gameId == G.diceGameId then
    [input.gameMode >>> 8]
  else if input.gameId == G.plinkoGameId then
    [input.gameMode >>> 8, input.predictionHi]
  else if input.gameId == G.coinflipGameId then
    [input.gameMode, input.predictionLo >>> 8, input.predictionHi]
  else
    [input.gameMode]

end Parts

variable {P : Poseidon2Hash} {G : GameCore} {input a b : SlotInput} {ea eb : SlotEffects}

/-- The payout reads the prediction through the passed parameters only. -/
theorem dispatchPayout_eq_pay (random : Vector UInt64 4) : dispatchPayout P G input random =
    passedParams G input >>= GameParams.pay P G input random := by
  unfold dispatchPayout passedParams
  split
  · rfl
  split
  · rfl
  split
  · rw [bind_assoc]
    rfl
  split
  · rw [bind_assoc]
    rfl
  split
  · rfl
  split
  · rfl
  split
  · rfl
  · rfl

/-- An accepted game slot passes parameters to its game. -/
theorem exists_passedParams (h : validateSlot P G input = .ok ea) (hgame : input.isGame = true) :
    ∃ params, passedParams G input = .ok params := by
  have hpay := ((validateSlot_eq_ok.mp h).2.game hgame).payout
  rw [dispatchPayout_eq_pay] at hpay
  obtain ⟨params, hparams, -⟩ := bind_eq_ok.mp hpay
  exact ⟨params, hparams⟩

/-- The low byte and the bits above it make a word. -/
theorem toUInt8_shiftRight_injective {v w : UInt32} (hlow : v.toUInt8 = w.toUInt8)
    (hhigh : v >>> 8 = w >>> 8) : v = w := by
  have hlow' := congrArg UInt8.toNat hlow
  have hhigh' := congrArg UInt32.toNat hhigh
  have hshift : ∀ x : UInt32, (x >>> 8).toNat = x.toNat / 2 ^ 8 := fun x => by
    rw [UInt32.toNat_shiftRight]
    exact Nat.shiftRight_eq_div_pow x.toNat 8
  rw [UInt32.toNat_toUInt8, UInt32.toNat_toUInt8] at hlow'
  rw [hshift, hshift] at hhigh'
  apply UInt32.toNat_inj.mp
  omega

/-- What the decoders of the game library keep apart: a dice mode has one code, and an action list
one packing. -/
structure GameCore.Decodes (G : GameCore) : Prop where
  diceMode : ∀ m m' mode, G.diceModeFromU8 m = some mode → G.diceModeFromU8 m' = some mode → m = m'
  actions : ∀ lo hi lo' hi', G.unpackActions lo hi = G.unpackActions lo' hi' → lo = lo' ∧ hi = hi'

/-- The prediction of a slot. -/
def SlotInput.prediction (input : SlotInput) : UInt32 × UInt32 × UInt32 :=
  (input.gameMode, input.predictionLo, input.predictionHi)

/-- The slot passes these parameters: where each comes from, and what the dispatch drops beside
them. -/
def GameParams.PassedBy (input : SlotInput) : GameParams G → Prop
  | .crash target | .limbo target => input.predictionLo = target ∧
      droppedParams G input = [input.gameMode, input.predictionHi]
  | .dice mode lo hi => G.diceModeFromU8 input.gameMode.toUInt8 = some mode ∧
      input.predictionLo = lo ∧ input.predictionHi = hi ∧
      droppedParams G input = [input.gameMode >>> 8]
  | .keno _ _ => input.gameId = G.kenoGameId
  | .plinko sector rows _ => input.gameMode.toUInt8 = sector ∧ input.predictionLo = rows ∧
      droppedParams G input = [input.gameMode >>> 8, input.predictionHi]
  | .coinflip prediction => input.predictionLo.toUInt8 = prediction ∧
      droppedParams G input = [input.gameMode, input.predictionLo >>> 8, input.predictionHi]
  | .blackjack actions => G.unpackActions input.predictionLo input.predictionHi = actions ∧
      droppedParams G input = [input.gameMode]

theorem passedBy_of_passedParams {params : GameParams G} (h : passedParams G input = .ok params) :
    params.PassedBy input := by
  unfold passedParams at h
  by_cases hcrash : input.gameId == G.crashGameId
  · rw [if_pos hcrash] at h
    cases h
    exact ⟨rfl, by rw [droppedParams, hcrash]; rfl⟩
  rw [if_neg hcrash] at h
  by_cases hlimbo : input.gameId == G.limboGameId
  · rw [if_pos hlimbo] at h
    cases h
    exact ⟨rfl, by rw [droppedParams, hlimbo, Bool.or_true]; rfl⟩
  rw [if_neg hlimbo] at h
  by_cases hdice : input.gameId == G.diceGameId
  · rw [if_pos hdice] at h
    obtain ⟨mode, hmode, h⟩ := bind_eq_ok.mp h
    cases h
    exact ⟨okOr_eq_ok.mp hmode, rfl, rfl, by simp [droppedParams, hcrash, hlimbo, hdice]⟩
  rw [if_neg hdice] at h
  by_cases hkeno : input.gameId == G.kenoGameId
  · rw [if_pos hkeno] at h
    obtain ⟨sorted, -, h⟩ := bind_eq_ok.mp h
    cases h
    exact beq_iff_eq.mp hkeno
  rw [if_neg hkeno] at h
  by_cases hplinko : input.gameId == G.plinkoGameId
  · rw [if_pos hplinko] at h
    cases h
    exact ⟨rfl, rfl, by simp [droppedParams, hcrash, hlimbo, hdice, hplinko]⟩
  rw [if_neg hplinko] at h
  by_cases hcoinflip : input.gameId == G.coinflipGameId
  · rw [if_pos hcoinflip] at h
    cases h
    exact ⟨rfl, by simp [droppedParams, hcrash, hlimbo, hdice, hplinko, hcoinflip]⟩
  rw [if_neg hcoinflip] at h
  by_cases hblackjack : input.gameId == G.blackjackGameId
  · rw [if_pos hblackjack] at h
    cases h
    exact ⟨rfl, by simp [droppedParams, hcrash, hlimbo, hdice, hplinko, hcoinflip]⟩
  · rw [if_neg hblackjack] at h
    cases h

/-- Equal predictions are equal in every part. -/
theorem SlotInput.prediction_inj (h : a.prediction = b.prediction) : a.gameMode = b.gameMode ∧
    a.predictionLo = b.predictionLo ∧ a.predictionHi = b.predictionHi := by
  rw [SlotInput.prediction, SlotInput.prediction, Prod.mk.injEq, Prod.mk.injEq] at h
  exact h

/-- The passed parameters and what the dispatch drops make up the prediction. -/
theorem prediction_of_params (hG : G.Decodes) {params : GameParams G}
    (hkeno : a.gameId ≠ G.kenoGameId) (ha : params.PassedBy a) (hb : params.PassedBy b)
    (hdropped : droppedParams G a = droppedParams G b) : a.prediction = b.prediction := by
  cases params with
  | crash target | limbo target =>
    obtain ⟨hlo, hd⟩ := ha
    obtain ⟨hlo', hd'⟩ := hb
    rw [hd, hd', List.cons.injEq, List.cons.injEq] at hdropped
    obtain ⟨hgameMode, hhi, -⟩ := hdropped
    rw [SlotInput.prediction, SlotInput.prediction, hgameMode, hlo, hlo', hhi]
  | dice mode lo hi =>
    obtain ⟨hmode, hlo, hhi, hd⟩ := ha
    obtain ⟨hmode', hlo', hhi', hd'⟩ := hb
    rw [hd, hd', List.cons.injEq] at hdropped
    have hgameMode := toUInt8_shiftRight_injective (hG.diceMode _ _ _ hmode hmode') hdropped.1
    rw [SlotInput.prediction, SlotInput.prediction, hgameMode, hlo, hhi, hlo', hhi']
  | keno risk picks => exact absurd ha hkeno
  | plinko sector rows isExtreme =>
    obtain ⟨hsector, hrows, hd⟩ := ha
    obtain ⟨hsector', hrows', hd'⟩ := hb
    rw [hd, hd', List.cons.injEq, List.cons.injEq] at hdropped
    have hgameMode := toUInt8_shiftRight_injective (hsector.trans hsector'.symm) hdropped.1
    rw [SlotInput.prediction, SlotInput.prediction, hgameMode, hrows, hrows', hdropped.2.1]
  | coinflip prediction =>
    obtain ⟨hlow, hd⟩ := ha
    obtain ⟨hlow', hd'⟩ := hb
    rw [hd, hd', List.cons.injEq, List.cons.injEq, List.cons.injEq] at hdropped
    obtain ⟨hgameMode, hhigh, hhi, -⟩ := hdropped
    have hlo := toUInt8_shiftRight_injective (hlow.trans hlow'.symm) hhigh
    rw [SlotInput.prediction, SlotInput.prediction, hgameMode, hlo, hhi]
  | blackjack actions =>
    obtain ⟨hactions, hd⟩ := ha
    obtain ⟨hactions', hd'⟩ := hb
    rw [hd, hd', List.cons.injEq] at hdropped
    obtain ⟨hlo, hhi⟩ := hG.actions _ _ _ _ (hactions.trans hactions'.symm)
    rw [SlotInput.prediction, SlotInput.prediction, hdropped.1, hlo, hhi]

/-- Equal predictions of one game drop the same. -/
theorem droppedParams_congr (hid : a.gameId = b.gameId) (h : a.prediction = b.prediction) :
    droppedParams G a = droppedParams G b := by
  obtain ⟨hmode, hlo, hhi⟩ := SlotInput.prediction_inj h
  rw [droppedParams, droppedParams, hid, hmode, hlo, hhi]

/-- Equal predictions of one game other than keno have one hash. -/
theorem predictionHash_congr (ha : validateSlot P G a = .ok ea) (hb : validateSlot P G b = .ok eb)
    (hgame : a.isGame = true) (htype : a.txType = b.txType) (hid : a.gameId = b.gameId)
    (hkeno : a.gameId ≠ G.kenoGameId) (h : a.prediction = b.prediction) :
    a.predictionHash = b.predictionHash := by
  have hgame' : b.isGame = true := by
    rwa [SlotInput.isGame, htype] at hgame
  have hhash := ((validateSlot_eq_ok.mp ha).2.game hgame).prediction
  have hhash' := ((validateSlot_eq_ok.mp hb).2.game hgame').prediction
  rw [SlotInput.predictionPreimage, if_neg hkeno] at hhash
  rw [SlotInput.predictionPreimage, ← hid, if_neg hkeno] at hhash'
  obtain ⟨hmode, hlo, hhi⟩ := SlotInput.prediction_inj h
  rw [← hhash, ← hhash', SlotInput.standardPreimage, SlotInput.standardPreimage, hid, hmode, hlo,
    hhi]

/-- Two accepted game slots of one type and one game other than keno, whose payouts are computed
from the same parameters, commit the same prediction, and so carry the same prediction hash, exactly
when they agree in what the dispatch drops. -/
theorem paid_prediction_committed_iff (hG : G.Decodes) (ha : validateSlot P G a = .ok ea)
    (hb : validateSlot P G b = .ok eb) (hgame : a.isGame = true) (htype : a.txType = b.txType)
    (hid : a.gameId = b.gameId) (hkeno : a.gameId ≠ G.kenoGameId)
    (hparams : passedParams G a = passedParams G b) :
    (a.prediction = b.prediction ∧ a.predictionHash = b.predictionHash) ↔
      droppedParams G a = droppedParams G b := by
  constructor
  · rintro ⟨h, -⟩
    exact droppedParams_congr hid h
  · intro hdropped
    obtain ⟨params, hpassed⟩ := exists_passedParams ha hgame
    have hprediction := prediction_of_params hG hkeno (passedBy_of_passedParams hpassed)
      (passedBy_of_passedParams (hparams ▸ hpassed)) hdropped
    exact ⟨hprediction, predictionHash_congr ha hb hgame htype hid hkeno hprediction⟩

/-! ### One payout under two predictions -/

/-- A game library whose action lists are the base-8 digits of the packed words. -/
def packedCore : GameCore :=
  { evenCore with
    unpackActions := fun lo hi =>
      (Nat.digits 8 (lo.toNat + hi.toNat * 2 ^ 32)).map UInt8.ofNat }

theorem packedCore_actions {lo hi lo' hi' : UInt32}
    (h : packedCore.unpackActions lo hi = packedCore.unpackActions lo' hi') :
    lo = lo' ∧ hi = hi' := by
  have hdigits : ∀ n, ((Nat.digits 8 n).map UInt8.ofNat).map UInt8.toNat = Nat.digits 8 n := by
    intro n
    rw [List.map_map]
    refine (List.map_congr_left fun d hd => ?_).trans (List.map_id _)
    have hlt := Nat.digits_lt_base (by decide : 1 < 8) hd
    exact Nat.mod_eq_of_lt (show d < 2 ^ 8 by omega)
  have hmap := congrArg (List.map UInt8.toNat) h
  change ((Nat.digits 8 _).map UInt8.ofNat).map UInt8.toNat =
    ((Nat.digits 8 _).map UInt8.ofNat).map UInt8.toNat at hmap
  rw [hdigits, hdigits] at hmap
  have hsum := Nat.digits_inj_iff.mp hmap
  have hlo := lo.toNat_lt
  have hlo' := lo'.toNat_lt
  constructor
  · apply UInt32.toNat_inj.mp
    omega
  · apply UInt32.toNat_inj.mp
    omega

theorem packedCore_decodes : packedCore.Decodes where
  diceMode m m' (mode : Bool) hm hm' := by
    have hdecode : ∀ {k : UInt8}, packedCore.diceModeFromU8 k = some mode →
        k = if mode then 1 else 0 := by
      intro k hk
      change (if k = 0 then some false else if k = 1 then some true else none) = some mode at hk
      split at hk
      · cases hk
        assumption
      split at hk
      · cases hk
        assumption
      · cases hk
    exact (hdecode hm).trans (hdecode hm').symm
  actions _ _ _ _ h := packedCore_actions h

theorem limboBet_ok_packed : ∃ e, validateSlot sumHash packedCore limboBet = .ok e :=
  exists_of_isOk (by decide +kernel)

/-- The limbo bet for another stake. -/
def raisedBet : SlotInput := SlotInput.commit sumHash {
  limboBet with
  amount := 8
  winAmount := 16
  userSeed := #v[310, 0, 0, 0] }

theorem raised_bet_commits_same :
    limboBet.prediction = raisedBet.prediction ∧
      limboBet.predictionHash = raisedBet.predictionHash := by
  obtain ⟨ea, ha⟩ := limboBet_ok_packed
  obtain ⟨eb, hb⟩ := exists_of_isOk
    (show (validateSlot sumHash packedCore raisedBet).isOk = true by decide +kernel)
  exact (paid_prediction_committed_iff packedCore_decodes ha hb (by decide)
    (by decide) (by decide) (by decide) rfl).mpr (by decide)

/-- The limbo bet with another game mode, which its payout ignores. -/
def relabelledBet : SlotInput := SlotInput.commit sumHash {
  limboBet with
  gameMode := 0
  predictionHash := #v[202, 0, 0, 0]
  userSeed := #v[211, 0, 0, 0] }

theorem relabelled_bet_paid_alike : packedCore.Decodes ∧
    ¬∀ a b ea eb, validateSlot sumHash packedCore a = .ok ea →
      validateSlot sumHash packedCore b = .ok eb → a.isGame = true → a.txType = b.txType →
      a.gameId = b.gameId → a.gameId ≠ packedCore.kenoGameId →
      passedParams packedCore a = passedParams packedCore b →
      a.prediction = b.prediction ∧ a.predictionHash = b.predictionHash := by
  refine ⟨packedCore_decodes, fun hclaim => ?_⟩
  obtain ⟨ea, ha⟩ := limboBet_ok_packed
  obtain ⟨eb, hb⟩ := exists_of_isOk
    (show (validateSlot sumHash packedCore relabelledBet).isOk = true by decide +kernel)
  have hhash := (hclaim _ _ _ _ ha hb (by decide) (by decide) (by decide)
    (by decide) rfl).2
  exact absurd hhash (by decide)

end TxValidator
