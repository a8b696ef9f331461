import TxValidator.Commitments

/-! The picks of a keno slot as a set of tiles.  The validator reads the pick list through its
sorted form only, so the order of the picks changes nothing; and the prediction hash, which pads the
sorted list to ten entries behind its length, fixes the picks up to order, although the padding is
itself a tile. -/

namespace TxValidator

open Checked

variable {P : Poseidon2Hash} {G : GameCore} {input : SlotInput} {e : SlotEffects}
  {picks : List UInt8} {flags : TxFlags} {random : Vector UInt64 4}

/-! ### The order of the picks -/

/-- The slot with another pick list. -/
def SlotInput.withPicks (input : SlotInput) (picks : List UInt8) : SlotInput :=
  { input with kenoSelected := picks }

theorem sortedKenoPicks_withPicks (h : picks.Perm input.kenoSelected) :
    sortedKenoPicks G (input.withPicks picks) = sortedKenoPicks G input := by
  unfold sortedKenoPicks SlotInput.withPicks
  rw [sortedPicks_eq_iff.mpr h]

theorem verifyPredictionHash_withPicks (h : picks.Perm input.kenoSelected) :
    verifyPredictionHash P G (input.withPicks picks) flags =
      verifyPredictionHash P G input flags := by
  unfold verifyPredictionHash
  rw [sortedKenoPicks_withPicks h]
  rfl

theorem dispatchPayout_withPicks (h : picks.Perm input.kenoSelected) :
    dispatchPayout P G (input.withPicks picks) random = dispatchPayout P G input random := by
  unfold dispatchPayout
  rw [sortedKenoPicks_withPicks h]
  rfl

theorem checkFairness_withPicks (h : picks.Perm input.kenoSelected) :
    checkFairness P G (input.withPicks picks) flags = checkFairness P G input flags := by
  unfold checkFairness verifyPayout
  simp only [verifyPredictionHash_withPicks h, dispatchPayout_withPicks h]
  rfl

/-- The validator gives one result, with the same effects or the same rejection, whatever the order
of the picks. -/
theorem validateSlot_withPicks (h : picks.Perm input.kenoSelected) :
    validateSlot P G (input.withPicks picks) = validateSlot P G input := by
  unfold validateSlot computeEffects
  simp only [checkFairness_withPicks h]
  rfl

/-! ### The committed picks -/

/-- A set of tiles of the board, as a list: one to ten different tiles. -/
structure KenoTiles (picks : List UInt8) : Prop where
  pos : 1 ≤ picks.length
  le_ten : picks.length ≤ 10
  nodup : picks.Nodup
  onBoard : ∀ tile ∈ picks, tile ≤ 39

/-- The library's screen admits a sorted list only if it is a set of tiles. -/
def GameCore.ScreensTiles (G : GameCore) : Prop :=
  ∀ picks, picks.Pairwise (· ≤ ·) → G.kenoValidateSelected picks = true → KenoTiles picks

theorem KenoTiles.perm {picks' : List UInt8} (h : KenoTiles picks) (hperm : picks.Perm picks') :
    KenoTiles picks' where
  pos := hperm.length_eq ▸ h.pos
  le_ten := hperm.length_eq ▸ h.le_ten
  nodup := hperm.nodup h.nodup
  onBoard tile htile := h.onBoard tile (hperm.mem_iff.mpr htile)

/-- The picks of an accepted keno slot are a set of tiles. -/
theorem FairnessSpec.kenoTiles {fe : FairnessEffects} (h : FairnessSpec P G input fe)
    (hG : G.ScreensTiles) (hid : input.gameId = G.kenoGameId) : KenoTiles input.kenoSelected := by
  have hsorted := List.pairwise_insertionSort (· ≤ ·) input.kenoSelected
  exact (hG _ hsorted (h.picks_screened hid)).perm (List.perm_insertionSort _ _)

theorem kenoPreimage_length (input : SlotInput) : input.kenoPreimage.length = 13 := by
  simp [SlotInput.kenoPreimage, predictionHashKenoPreimage]

/-- The prediction hash of an accepted keno slot is that of its keno preimage, whose picks fit the
ten entries. -/
theorem kenoPreimage_of_accepted (hG : G.ScreensTiles) (h : validateSlot P G input = .ok e)
    (hgame : input.isGame = true) (hid : input.gameId = G.kenoGameId) :
    poseidon2 P input.kenoPreimage = input.predictionHash ∧
      (input.kenoSelected.insertionSort (· ≤ ·)).length ≤ 10 := by
  have fair := (validateSlot_eq_ok.mp h).2.game hgame
  have hprediction := fair.prediction
  rw [SlotInput.predictionPreimage, if_pos hid] at hprediction
  refine ⟨hprediction, ?_⟩
  rw [List.length_insertionSort]
  exact (fair.kenoTiles hG hid).le_ten

/-- The picks of a keno slot are a set: their order never changes what the validator returns, and
two accepted keno slots with one prediction hash have one game mode and one list of picks up to
order, or the 13-element inputs that they hash collide. -/
theorem keno_picks_committed_as_set (hG : G.ScreensTiles) :
    (∀ (input : SlotInput) picks, picks.Perm input.kenoSelected →
      validateSlot P G (input.withPicks picks) = validateSlot P G input) ∧
      ∀ a b ea eb, validateSlot P G a = .ok ea → validateSlot P G b = .ok eb →
        a.isGame = true → b.isGame = true → a.gameId = G.kenoGameId → b.gameId = G.kenoGameId →
        a.predictionHash = b.predictionHash →
        (a.gameMode = b.gameMode ∧ a.kenoSelected.Perm b.kenoSelected) ∨
          (Collision P a.kenoPreimage b.kenoPreimage ∧ a.kenoPreimage.length = 13 ∧
            b.kenoPreimage.length = 13) := by
  refine ⟨fun _ _ => validateSlot_withPicks, fun a b ea eb ha hb hgame hgame' hid hid' hhash => ?_⟩
  obtain ⟨hprediction, hlen⟩ := kenoPreimage_of_accepted hG ha hgame hid
  obtain ⟨hprediction', hlen'⟩ := kenoPreimage_of_accepted hG hb hgame' hid'
  have heq := hprediction.trans (hhash.trans hprediction'.symm)
  rcases eq_or_collision (kenoPreimage_canonical hlen) (kenoPreimage_canonical hlen') heq with
    hpreimage | hcol
  · obtain ⟨hmode, hsorted⟩ := kenoPreimage_inj hlen hlen' hpreimage
    exact Or.inl ⟨hmode, sortedPicks_eq_iff.mp hsorted⟩
  · exact Or.inr ⟨hcol, kenoPreimage_length a, kenoPreimage_length b⟩

/-- A game library whose keno screen admits one to ten ascending tiles. -/
def tileCore : GameCore :=
  { evenCore with
    kenoValidateSelected := fun picks =>
      1 ≤ picks.length ∧ picks.length ≤ 10 ∧ picks.Pairwise (· < ·) ∧ picks.all (· ≤ 39) = true }

theorem tileCore_screensTiles : tileCore.ScreensTiles := fun picks _ h => by
  obtain ⟨hpos, hten, hascending, hboard⟩ := decide_eq_true_iff.mp h
  refine ⟨hpos, hten, hascending.imp UInt8.ne_of_lt, fun tile htile => ?_⟩
  exact decide_eq_true_iff.mp (List.all_eq_true.mp hboard tile htile)

/-- A keno bet on the tiles 17 and 0. -/
def kenoBet : SlotInput := SlotInput.commit sumHash {
  houseBet with
  gameId := 4
  gameMode := 1
  kenoSelected := [17, 0]
  predictionHash := #v[25, 0, 0, 0]
  userSeed := #v[37, 0, 0, 0] }

/-- The keno bet for another stake, with the tiles in the other order. -/
def raisedKenoBet : SlotInput := SlotInput.commit sumHash {
  kenoBet with
  amount := 8
  winAmount := 16
  kenoSelected := [0, 17]
  userSeed := #v[38, 0, 0, 0] }

theorem keno_bets_share_picks : (validateSlot sumHash tileCore kenoBet).isOk = true ∧
    validateSlot sumHash tileCore (kenoBet.withPicks [0, 17]) =
      validateSlot sumHash tileCore kenoBet ∧
    kenoBet.gameMode = raisedKenoBet.gameMode ∧
    kenoBet.kenoSelected.Perm raisedKenoBet.kenoSelected := by
  obtain ⟨horder, hcommitted⟩ := keno_picks_committed_as_set (P := sumHash) tileCore_screensTiles
  have hok : (validateSlot sumHash tileCore kenoBet).isOk = true := by decide +kernel
  obtain ⟨ea, ha⟩ := exists_of_isOk hok
  obtain ⟨eb, hb⟩ := exists_of_isOk
    (show (validateSlot sumHash tileCore raisedKenoBet).isOk = true by decide +kernel)
  refine ⟨hok, horder kenoBet [0, 17] (by decide), ?_⟩
  rcases hcommitted _ _ _ _ ha hb rfl rfl rfl rfl rfl with hsame | ⟨hcol, -⟩
  · exact hsame
  · exact absurd (by decide) hcol.ne

end TxValidator
