import TxValidator.Authority
import TxValidator.Chain
import TxValidator.Custody

/-! What a root says about the past.  Histories from one root that end in one root moved every
account alike; so a root does not come back once a signed slot was accepted, and what was prepared
against it is refused from then on. -/

namespace TxValidator

open Transition (latest)

variable {P : Poseidon2Hash} {G : GameCore} {input : SlotInput} {e : SlotEffects}
  {s s' s1 s2 : State} {as bs : List Slot}

/-! ### Histories -/

theorem Run.tl_follows (h : Run P G s as s') :
    s'.totalLiability.toNat + s.ledger.totalBalance =
      s.totalLiability.toNat + s'.ledger.totalBalance := by
  induction h with
  | nil => rfl
  | snoc _ h ih =>
    have hsum := h.totalBalance
    have hbal := h.spec.balance_delta
    have htl := h.spec.tl_delta
    rw [h.on.tl, h.currentTl, ← h.newTl] at htl
    omega

/-- Runs from the root of one ledger that end in one root end in one ledger. -/
theorem Run.ledger_eq (h1 : Run P G s as s1) (h2 : Run P G s bs s2)
    (hroot : s.root = s.ledger.root P) (hfree : CollisionFree P (hashedBy P s.ledger (as ++ bs)))
    (hend : s1.root = s2.root) : s1.ledger = s2.ledger := by
  have hleft : hashedBy P s.ledger as ⊆ hashedBy P s.ledger (as ++ bs) :=
    hashedBy_mono (List.subset_append_left _ _)
  have hright : hashedBy P s.ledger bs ⊆ hashedBy P s.ledger (as ++ bs) :=
    hashedBy_mono (List.subset_append_right _ _)
  obtain ⟨hroot1, hpre1⟩ := h1.root_eq hroot (hfree.mono hleft)
  obtain ⟨hroot2, hpre2⟩ := h2.root_eq hroot (hfree.mono hright)
  have hpre := Set.union_subset (hpre1.trans hleft) (hpre2.trans hright)
  exact Ledger.root_injective (hfree.mono hpre) (hroot1.symm.trans (hend.trans hroot2))

/-- The slots do the same to account `u` of the state. -/
structure SameTally (s : State) (u : UserId) (as bs : List Slot) : Prop where
  lanes : ∀ lane, as.countP (Slot.bumps u lane) = bs.countP (Slot.bumps u lane)
  flow : (as.map (Slot.addsTo u)).sum + (bs.map (Slot.takesFrom u)).sum =
    (bs.map (Slot.addsTo u)).sum + (as.map (Slot.takesFrom u)).sum
  allowance : granted s u as + spent u bs = granted s u bs + spent u as
  key : ((latest (Slot.setsKey u) as).map fun a => committed a.input.newPkHash).getD
      (s.ledger u).pk =
    ((latest (Slot.setsKey u) bs).map fun a => committed a.input.newPkHash).getD (s.ledger u).pk

theorem Run.sameTally (h1 : Run P G s as s1) (h2 : Run P G s bs s2) {u : UserId}
    (hu : s1.ledger u = s2.ledger u) : SameTally s u as bs := by
  constructor
  case lanes =>
    intro lane
    have hlane1 := h1.lane_value u lane
    have hlane2 := h2.lane_value u lane
    rw [hu] at hlane1
    omega
  case flow =>
    have hflow1 := h1.balance_flow u
    have hflow2 := h2.balance_flow u
    rw [hu] at hflow1
    omega
  case allowance =>
    have hallowance1 := h1.allowance u
    have hallowance2 := h2.allowance u
    rw [hu] at hallowance1
    omega
  case key => rw [← h1.key u, ← h2.key u, hu]

/-- Two chains from the root and the total liability of a state that end in one root, when no two
inputs that are hashed collide, end in one total liability too, and do the same to every account:
they have as many signed slots in each of its lanes, move its balance by the same amount, leave as
much of its grants, and install the same key. -/
theorem one_root_one_tally {m1 m2 : Ambient} (hroot : s.root = s.ledger.root P)
    (h1 : Chain P G s.ambient as m1) (h2 : Chain P G s.ambient bs m2)
    (hfree : CollisionFree P (hashedBy P s.ledger (as ++ bs))) (hend : m1.root = m2.root) :
    m1 = m2 ∧ ∀ u, SameTally s u as bs := by
  obtain ⟨L, root, tl⟩ := s
  obtain rfl : root = L.root P := hroot
  obtain ⟨s1, hrun1, rfl, -⟩ :=
    Chain.exists_run h1 (hfree.mono (hashedBy_mono (List.subset_append_left _ _)))
  obtain ⟨s2, hrun2, rfl, -⟩ :=
    Chain.exists_run h2 (hfree.mono (hashedBy_mono (List.subset_append_right _ _)))
  have hledger : s1.ledger = s2.ledger := hrun1.ledger_eq hrun2 rfl hfree hend
  refine ⟨?_, fun u => hrun1.sameTally hrun2 (congrFun hledger u)⟩
  have htl1 := hrun1.tl_follows
  have htl2 := hrun2.tl_follows
  rw [hledger] at htl1
  have htl : s1.totalLiability = s2.totalLiability := UInt64.toNat_inj.mp (by omega)
  have hroots : s1.root = s2.root := hend
  rw [State.ambient, State.ambient, hroots, htl]

theorem rekeyedSlots_tally : SameTally emptyState 5 slots rekeyedSlots := by
  obtain ⟨m1, m2, h1, h2, hend⟩ := rekeyedSlots_chain
  have hsame : Slot.preimages sumHash ⟨registrationRekeyed, registrationEffects⟩ =
      Slot.preimages sumHash ⟨registration, registrationEffects⟩ := by
    decide
  refine (one_root_one_tally emptyState_sound.root h1 h2 (slots_collision_free.mono ?_) hend).2 5
  rintro x (hx | ⟨a, ha, hx⟩)
  · exact Or.inl hx
  rcases List.mem_append.mp ha with ha | ha
  · exact Or.inr ⟨a, ha, hx⟩
  rcases List.mem_cons.mp ha with rfl | ha
  · rw [hsame] at hx
    exact Or.inr ⟨_, List.mem_cons_self .., hx⟩
  · exact Or.inr ⟨a, List.mem_of_mem_tail ha, hx⟩

/-! ### Stale slots -/

/-- A run with a slot that bumps a lane does not come back to its root. -/
theorem Run.root_ne (h : Run P G s as s') (hroot : s.root = s.ledger.root P)
    (hfree : CollisionFree P (hashedBy P s.ledger as))
    (hsigned : ∃ a ∈ as, ∃ lane, a.input.bumps lane = true) : s'.root ≠ s.root := by
  obtain ⟨a, ha, lane, hbump⟩ := hsigned
  intro hend
  have hledger : s'.ledger = s.ledger :=
    h.ledger_eq .nil hroot (by rwa [List.append_nil]) hend
  have hlane := h.lane_value a.account lane
  rw [hledger] at hlane
  have hcount : 0 < as.countP (Slot.bumps a.account lane) :=
    List.countP_pos_iff.mpr ⟨a, ha, Slot.bumps_iff.mpr ⟨rfl, hbump⟩⟩
  omega

/-- Once a run has accepted a slot that bumps a lane, of any account, every slot that was accepted
before it is refused for its root, whatever total liability it is tried on: its witness reaches the
root that it was prepared against, and that root does not come back. -/
theorem stale_slot_rejected (hroot : s.root = s.ledger.root P)
    (h : validateSlot P G input = .ok e) (hinput : input.currentRoot = s.root)
    (hrun : Run P G s as s') (hsigned : ∃ a ∈ as, ∃ lane, a.input.bumps lane = true)
    (hfree : CollisionFree P (hashedBy P s.ledger as)) (tl : UInt64) :
    validateSlot P G { input with
      currentRoot := s'.root, oldTotalLiability := tl, currentTl := tl } =
        .error .merkleRootMismatch := by
  obtain ⟨on, -⟩ := validateSlot_eq_ok.mp h
  obtain ⟨htype, hfields, hamount, hallowance, huser, -, -⟩ := alwaysOn_iff.mp on
  have hne : computeOldRoot P input ≠ s'.root := by
    rw [on.root, hinput]
    exact (hrun.root_ne hroot hfree hsigned).symm
  set stale := { input with
    currentRoot := s'.root, oldTotalLiability := tl, currentTl := tl } with hstale
  have hmismatch : verifyCurrentRoot P stale = .error .merkleRootMismatch := if_neg hne
  have htype' : checkTxType stale = .ok () := htype
  have hfields' : checkFieldCanonicity stale = .ok () := hfields
  have hamount' : checkAmountCanonicity stale = .ok () := hamount
  have hallowance' : checkStoredAllowanceRange stale = .ok () := hallowance
  have huser' : checkUserIdRange stale = .ok () := huser
  simp only [validateSlot, htype', hfields', hamount', hallowance', huser', hmismatch]
  rfl

/-- The registration tried again after the run. -/
theorem registration_stale : ∃ s, Run sumHash evenCore emptyState slots s ∧
    validateSlot sumHash evenCore { registration with
      currentRoot := s.root
      oldTotalLiability := s.totalLiability
      currentTl := s.totalLiability } = .error .merkleRootMismatch := by
  obtain ⟨s, hrun⟩ := slots_run
  have hsigned : ∃ a ∈ slots, ∃ lane, a.input.bumps lane = true :=
    ⟨⟨registration, registrationEffects⟩, List.mem_cons_self .., .account, by decide⟩
  exact ⟨s, hrun, stale_slot_rejected emptyState_sound.root registration_ok rfl hrun hsigned
    slots_collision_free s.totalLiability⟩

end TxValidator
