import TxValidator.Commitments
import TxValidator.Custody
import TxValidator.Refinement

/-! The multiset of settled games.  Each game slot contributes one hash, over all that a payout is
computed from and pays; whoever holds entries with the same multiset of hashes holds the entries of
the run, and with them everything that its games moved. -/

namespace TxValidator

open Checked

variable {P : Poseidon2Hash} {G : GameCore} {input : SlotInput} {e : SlotEffects} {s s' : State}
  {a : Slot} {as : List Slot}

/-- What a settled game contributes to the multiset. -/
@[ext] structure Entry where
  random : Vector UInt64 4
  betFull : UInt64
  winFull : UInt64
  gameId : UInt8
  predictionHash : Digest

def Entry.preimage (c : Entry) : List UInt64 :=
  slotHPreimage c.random c.betFull c.winFull c.gameId.toUInt64 c.predictionHash

/-- The hash that stands for the entry in the multiset. -/
def Entry.hash (P : Poseidon2Hash) (c : Entry) : Digest :=
  slotH P c.random c.betFull c.winFull c.gameId.toUInt64 c.predictionHash

def Slot.entry (a : Slot) : Entry where
  random := a.effects.random
  betFull := a.input.amount
  winFull := a.input.winAmount
  gameId := a.input.gameId
  predictionHash := a.input.predictionHash

def Slot.isMultisetSlot (a : Slot) : Bool := a.effects.isMultisetSlot

/-- The hashes that the slots contribute to the multiset. -/
def slotHashes (as : List Slot) : List Digest :=
  (as.filter Slot.isMultisetSlot).map fun a => a.effects.slotH

/-- The entries behind these hashes. -/
def entries (as : List Slot) : List Entry := (as.filter Slot.isMultisetSlot).map Slot.entry

/-- The slots that contribute nothing. -/
def otherSlots (as : List Slot) : List Slot := as.filter fun a => !a.isMultisetSlot

/-! ### Entries -/

theorem Entry.preimage_injective : Function.Injective Entry.preimage := by
  intro c c' h
  simp only [Entry.preimage, slotHPreimage, List.cons.injEq, and_true, UInt8.toUInt64_inj] at h
  obtain ⟨r0, r1, r2, r3, hbet, hwin, hid, p0, p1, p2, p3⟩ := h
  exact Entry.ext (digest_ext r0 r1 r2 r3) hbet hwin hid (digest_ext p0 p1 p2 p3)

/-- Lists whose images under a function agree up to order agree up to order themselves, when the
function is injective on their elements. -/
theorem perm_of_map_perm {α β : Type} {f : α → β} {xs ys : List α}
    (hf : Set.InjOn f {x | x ∈ xs ∨ x ∈ ys}) (h : (xs.map f).Perm (ys.map f)) : xs.Perm ys := by
  induction xs generalizing ys with
  | nil =>
    rw [List.map_nil, List.nil_perm, List.map_eq_nil_iff] at h
    rw [h]
  | cons x xs ih =>
    -- The image of `x` is that of an element of `ys`, which is `x`.
    have hx : f x ∈ ys.map f := h.subset (List.mem_map_of_mem (List.mem_cons_self ..))
    obtain ⟨y, hy, hxy⟩ := List.mem_map.mp hx
    obtain rfl := hf (Or.inr hy) (Or.inl (List.mem_cons_self ..)) hxy
    obtain ⟨as, bs, rfl⟩ := List.append_of_mem hy
    have hperm : (as ++ y :: bs).Perm (y :: (as ++ bs)) := List.perm_middle
    refine List.Perm.trans (List.Perm.cons y (ih ?_ ?_)) hperm.symm
    · refine hf.mono fun z hz => hz.imp (List.mem_cons_of_mem y) fun hz => ?_
      exact hperm.symm.subset (List.mem_cons_of_mem y hz)
    · exact (h.trans (hperm.map f)).cons_inv

/-! ### Accepted slots -/

/-- What a game slot contributes is the hash of its entry, whose elements are canonical and whose
win the payout rules give. -/
theorem entry_of_game (h : validateSlot P G a.input = .ok a.effects)
    (hgame : a.isMultisetSlot = true) : a.effects.slotH = a.entry.hash P ∧
      allCanonical a.entry.preimage = true ∧
      dispatchPayout P G a.input a.entry.random = .ok a.entry.winFull ∧
      a.input.addAmount = a.entry.winFull ∧ a.input.subAmount = a.entry.betFull := by
  obtain ⟨on, spec⟩ := validateSlot_eq_ok.mp h
  rw [Slot.isMultisetSlot, spec.multiset] at hgame
  have hfair := spec.game hgame
  obtain ⟨-, -, -, -, -, -, -, -, hprediction, -, -⟩ := fieldsCanonical_iff.mp on.canonical
  have hrandom : allCanonical a.effects.random.toList = true := by
    rw [show a.effects.random = _ from hfair.random]
    split
    · exact poseidon2_canonical P _
    · exact randomCrash_canonical on.serverSeed_canonical
  refine ⟨hfair.slotH, slotHPreimage_canonical hrandom on.amount on.winAmount
    (toUInt64_canonical_u8 _) hprediction, hfair.payout, ?_, ?_⟩
  all_goals
    rcases isGame_iff.mp hgame with ht | ht
    all_goals
      simp only [SlotInput.addAmount, SlotInput.subAmount, ht]
      rfl

theorem exists_of_mem_entries {c : Entry} (hc : c ∈ entries as) :
    ∃ a ∈ as, a.isMultisetSlot = true ∧ a.entry = c := by
  obtain ⟨a, ha, rfl⟩ := List.mem_map.mp hc
  obtain ⟨hmem, hgame⟩ := List.mem_filter.mp ha
  exact ⟨a, hmem, hgame, rfl⟩

/-- What the game slots move sums to what their entries say. -/
theorem sum_entries {f : SlotInput → UInt64} {g : Entry → UInt64}
    (h : ∀ a ∈ as, a.isMultisetSlot = true → f a.input = g a.entry) :
    ((as.filter Slot.isMultisetSlot).map fun a => (f a.input).toNat).sum =
      ((entries as).map fun c => (g c).toNat).sum := by
  rw [entries, List.map_map]
  refine congrArg List.sum (List.map_congr_left fun a ha => ?_)
  obtain ⟨hmem, hgame⟩ := List.mem_filter.mp ha
  exact congrArg UInt64.toNat (h a hmem hgame)

theorem slotHashes_eq (h : ∀ a ∈ as, validateSlot P G a.input = .ok a.effects) :
    slotHashes as = (entries as).map (Entry.hash P) := by
  rw [entries, List.map_map]
  refine List.map_congr_left fun a ha => ?_
  obtain ⟨hmem, hgame⟩ := List.mem_filter.mp ha
  exact (entry_of_game (h a hmem) hgame).1

/-- A sum over slots is that over the game slots and that over the others. -/
theorem sum_split (f : Slot → ℕ) (as : List Slot) : (as.map f).sum =
    ((as.filter Slot.isMultisetSlot).map f).sum + ((otherSlots as).map f).sum := by
  have hperm := (List.filter_append_perm Slot.isMultisetSlot as).symm
  rw [(hperm.map f).sum_eq, List.map_append, List.sum_append]
  rfl

/-- Among entries with canonical elements, those of accepted slots included, the hash is injective
when no two preimages collide. -/
theorem entryHash_injOn (h : ∀ a ∈ as, validateSlot P G a.input = .ok a.effects)
    {claimed : List Entry} (hcanonical : ∀ c ∈ claimed, allCanonical c.preimage = true)
    (hfree : CollisionFree P (Entry.preimage '' {c | c ∈ claimed ∨ c ∈ entries as})) :
    Set.InjOn (Entry.hash P) {c | c ∈ claimed ∨ c ∈ entries as} := by
  have hpre : ∀ x ∈ Entry.preimage '' {c | c ∈ claimed ∨ c ∈ entries as},
      allCanonical x = true := by
    rintro _ ⟨c, hc | hc, rfl⟩
    · exact hcanonical c hc
    · obtain ⟨a, ha, hgame, rfl⟩ := exists_of_mem_entries hc
      exact (entry_of_game (h a ha) hgame).2.1
  exact (hfree.injOn hpre).comp Entry.preimage_injective.injOn (Set.mapsTo_image _ _)

/-- Entries with canonical elements and with the multiset of hashes that a run contributes, among
which no two preimages collide, are those of the run up to order: each is settled by a game slot of
the run, and their bets and wins are what the run's games took and paid. -/
theorem multiset_links_payouts (hrun : Run P G s as s') {claimed : List Entry}
    (hcanonical : ∀ c ∈ claimed, allCanonical c.preimage = true)
    (hfree : CollisionFree P (Entry.preimage '' {c | c ∈ claimed ∨ c ∈ entries as}))
    (hmultiset : (claimed.map (Entry.hash P)).Perm (slotHashes as)) :
    claimed.Perm (entries as) ∧
      (∀ c ∈ claimed, ∃ a ∈ as, a.entry = c ∧
        dispatchPayout P G a.input c.random = .ok c.winFull) ∧
      s'.totalLiability.toNat + (claimed.map fun c => c.betFull.toNat).sum +
          ((otherSlots as).map fun a => a.input.subAmount.toNat).sum =
        s.totalLiability.toNat + (claimed.map fun c => c.winFull.toNat).sum +
          ((otherSlots as).map fun a => a.input.addAmount.toNat).sum := by
  have haccepted : ∀ a ∈ as, validateSlot P G a.input = .ok a.effects :=
    hrun.forall_label fun _ _ _ h => h.accepted
  have hinj := entryHash_injOn haccepted hcanonical hfree
  rw [slotHashes_eq haccepted] at hmultiset
  have hperm := perm_of_map_perm hinj hmultiset
  refine ⟨hperm, fun c hc => ?_, ?_⟩
  · obtain ⟨a, ha, hgame, rfl⟩ := exists_of_mem_entries (hperm.subset hc)
    exact ⟨a, ha, rfl, (entry_of_game (haccepted a ha) hgame).2.2.1⟩
  · have htotal := hrun.total_flow
    have hbets := sum_entries fun a ha hgame => (entry_of_game (haccepted a ha) hgame).2.2.2.2
    have hwins := sum_entries fun a ha hgame => (entry_of_game (haccepted a ha) hgame).2.2.2.1
    rw [sum_split (fun a => a.input.subAmount.toNat), sum_split (fun a => a.input.addAmount.toNat),
      hbets, hwins] at htotal
    rw [(hperm.map fun c => c.betFull.toNat).sum_eq, (hperm.map fun c => c.winFull.toNat).sum_eq]
    omega

/-- The entries of the run's two games, the later one first. -/
def claimedEntries : List Entry :=
  [Slot.entry ⟨coinflipBet, coinflipBetEffects⟩, Slot.entry ⟨limboBet, limboBetEffects⟩]

theorem slots_multiset : ∃ s, Run sumHash evenCore emptyState playerSlots s ∧
    claimedEntries.Perm (entries playerSlots) ∧
    s.totalLiability.toNat + (7 + 5) + (3 + 30) = (14 + 10) + (20 + 5) := by
  obtain ⟨s, hrun⟩ := player_run
  have hmem : ∀ c, c ∈ claimedEntries ∨ c ∈ entries playerSlots → c ∈ claimedEntries := by
    rintro c (hc | hc)
    · exact hc
    · have hentries : entries playerSlots = claimedEntries.reverse := rfl
      rwa [hentries, List.mem_reverse] at hc
  have hfree : CollisionFree sumHash
      (Entry.preimage '' {c | c ∈ claimedEntries ∨ c ∈ entries playerSlots}) := by
    refine collisionFree_of_nodup (claimedEntries.map Entry.preimage) ?_ (by decide)
    rintro _ ⟨c, hc, rfl⟩
    exact List.mem_map_of_mem (hmem c hc)
  have hcanonical : ∀ c ∈ claimedEntries, allCanonical c.preimage = true := by
    decide
  obtain ⟨hperm, -, htotal⟩ :=
    multiset_links_payouts hrun hcanonical hfree (by decide)
  exact ⟨s, hrun, hperm, htotal⟩

end TxValidator
