import TxValidator.Ledger

/-! Which payout rule settles a slot.  The dispatch reads the game identifier alone, so the rule
belongs to the transaction type exactly when the identifier does. -/

namespace TxValidator

open Checked

variable {P : Poseidon2Hash} {G : GameCore} {input : SlotInput} {e : SlotEffects}
  {random : Vector UInt64 4} {win : UInt64}

/-- The payout rules of the games of an `in_house_bet`, by game identifier. -/
inductive InHousePayout (P : Poseidon2Hash) (G : GameCore) (input : SlotInput)
    (random : Vector UInt64 4) : UInt64 → Prop
  | limbo : input.gameId = G.limboGameId →
      InHousePayout P G input random
        (G.limboPayout random input.amount input.predictionLo).winAmount
  | dice {mode : G.DiceMode} : input.gameId = G.diceGameId →
      G.diceModeFromU8 input.gameMode.toUInt8 = some mode →
      InHousePayout P G input random (G.dicePayout random input.amount mode
        #v[input.predictionLo, input.predictionHi]).winAmount
  | keno {picks : List UInt8} : input.gameId = G.kenoGameId →
      sortedKenoPicks G input = .ok picks →
      InHousePayout P G input random
        (G.kenoPayout random input.amount input.gameMode.toUInt8 picks).winAmount
  | plinko : input.gameId = G.plinkoGameId →
      G.plinkoIsValidConfig input.gameMode.toUInt8 input.predictionLo (input.predictionHi != 0) =
        true →
      InHousePayout P G input random (G.plinkoPayout random input.amount input.gameMode.toUInt8
        input.predictionLo (input.predictionHi != 0)).winAmount
  | coinflip : input.gameId = G.coinflipGameId → input.predictionLo.toUInt8 ≤ 1 →
      InHousePayout P G input random
        (G.coinflipPayout random input.amount input.predictionLo.toUInt8).winAmount
  | blackjack {result : BlackjackResult} : input.gameId = G.blackjackGameId →
      blackjackComputePayout P G input.serverSeed input.userSecretRandom input.predictionLo
        input.predictionHi input.baseBet = some result →
      result.totalStaked = input.amount →
      InHousePayout P G input random result.payout.winAmount

/-- The identifiers of the games of an `in_house_bet`. -/
def GameCore.inHouseGameIds (G : GameCore) : List UInt8 :=
  [G.limboGameId, G.diceGameId, G.kenoGameId, G.plinkoGameId, G.coinflipGameId, G.blackjackGameId]

theorem InHousePayout.gameId (h : InHousePayout P G input random win) :
    input.gameId ∈ G.inHouseGameIds := by
  cases h <;> simp [GameCore.inHouseGameIds, *]

theorem dispatchPayout_crash (hid : input.gameId = G.crashGameId) :
    dispatchPayout P G input random =
      .ok (G.crashPayout random input.amount input.predictionLo).winAmount := by
  rw [dispatchPayout, hid, beq_self_eq_true, if_pos rfl]

/-- Apart from the crash game, the dispatch pays by the rules of the `in_house_bet` games. -/
theorem dispatchPayout_inHouse (hid : input.gameId ≠ G.crashGameId)
    (h : dispatchPayout P G input random = .ok win) : InHousePayout P G input random win := by
  simp only [dispatchPayout, beq_iff_eq, if_neg hid] at h
  split at h
  · cases h
    exact .limbo ‹_›
  split at h
  · obtain ⟨mode, hmode, h⟩ := bind_eq_ok.mp h
    cases h
    exact .dice ‹_› (okOr_eq_ok.mp hmode)
  split at h
  · obtain ⟨picks, hpicks, h⟩ := bind_eq_ok.mp h
    cases h
    exact .keno ‹_› hpicks
  split at h
  · obtain ⟨hvalid, h⟩ := failIf_bind_eq_ok.mp h
    cases h
    exact .plinko ‹_› (by simpa using hvalid)
  split at h
  · obtain ⟨hvalid, h⟩ := failIf_bind_eq_ok.mp h
    cases h
    exact .coinflip ‹_› (by simpa using hvalid)
  split at h
  · obtain ⟨result, hresult, h⟩ := bind_eq_ok.mp h
    obtain ⟨hstake, h⟩ := failIf_bind_eq_ok.mp h
    cases h
    exact .blackjack ‹_› (okOr_eq_ok.mp hresult) (by simpa using hstake)
  · cases h

/-- The payout rule applied to a slot belongs to its type. -/
structure SettledByType (P : Poseidon2Hash) (G : GameCore) (input : SlotInput) : Prop where
  crash : input.txType = txCrashSettle → input.gameId = G.crashGameId ∧
    input.winAmount =
      (G.crashPayout (randomCrash input.serverSeed) input.amount input.predictionLo).winAmount
  inHouse : input.txType = txInHouseBet → input.gameId ≠ G.crashGameId ∧
    input.gameId ∈ G.inHouseGameIds ∧
    InHousePayout P G input (randomIhb P input.serverSeed input.userSeed) input.winAmount

/-- The game identifier is one of the type's games. -/
def SlotInput.gameOfType (G : GameCore) (input : SlotInput) : Prop :=
  (input.txType = txCrashSettle → input.gameId = G.crashGameId) ∧
    (input.txType = txInHouseBet → input.gameId ≠ G.crashGameId)

theorem EffectsSpec.payout (spec : EffectsSpec P G input e) (hgame : input.isGame = true) :
    dispatchPayout P G input (if input.txType = txInHouseBet then
      randomIhb P input.serverSeed input.userSeed else randomCrash input.serverSeed) =
        .ok input.winAmount := by
  have hfair := spec.game hgame
  rw [← hfair.random]
  exact hfair.payout

/-- An accepted slot is settled by a rule of its type exactly when its game identifier is one of
the type's games. -/
theorem settled_by_type_iff (h : validateSlot P G input = .ok e) :
    SettledByType P G input ↔ input.gameOfType G := by
  obtain ⟨-, spec⟩ := validateSlot_eq_ok.mp h
  constructor
  · intro hsettled
    exact ⟨fun ht => (hsettled.crash ht).1, fun ht => (hsettled.inHouse ht).1⟩
  · rintro ⟨hcrash, hbet⟩
    refine ⟨fun ht => ⟨hcrash ht, ?_⟩, fun ht => ?_⟩
    · have hne : input.txType ≠ txInHouseBet := by rw [ht]; decide
      have hpay := spec.payout (isGame_of_crashSettle ht)
      rw [if_neg hne, dispatchPayout_crash (hcrash ht)] at hpay
      exact (Except.ok.inj hpay).symm
    · have hpay := spec.payout (isGame_of_inHouseBet ht)
      rw [if_pos ht] at hpay
      have hrule := dispatchPayout_inHouse (hbet ht) hpay
      exact ⟨hbet ht, hrule.gameId, hrule⟩

theorem limboBet_settled_by_type : SettledByType sumHash evenCore limboBet :=
  (settled_by_type_iff limboBet_ok).mpr ⟨fun ht => absurd ht (by decide), fun _ => by decide⟩

/-- A `crash_settle` that names the limbo game. -/
def limboSettle : SlotInput := SlotInput.commit sumHash { limboBet with txType := txCrashSettle }

theorem limbo_settle_accepted :
    ¬∀ input e, validateSlot sumHash evenCore input = .ok e → input.txType = txCrashSettle →
      input.gameId = evenCore.crashGameId := by
  intro hclaim
  obtain ⟨e, he⟩ : ∃ e, validateSlot sumHash evenCore limboSettle = .ok e :=
    exists_of_isOk (by decide +kernel)
  exact absurd (hclaim limboSettle e he rfl) (by decide)

end TxValidator
