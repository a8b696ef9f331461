import TxValidator.Accounts
import TxValidator.Binding
import TxValidator.Allowance
import TxValidator.Nonce

/-! Chains of accepted slots, linked by nothing but the root and the total liability: all that the
validator's caller keeps between two slots.  When no two inputs that are hashed collide, a chain
from the root of a ledger is a run of that ledger, and its last root commits to the ledger that the
run ends in and to no other. -/

namespace TxValidator

open Transition (latest)

variable {P : Poseidon2Hash} {G : GameCore} {input : SlotInput} {L L' : Ledger} {tl : UInt64}
  {a : Slot} {as : List Slot} {s s' : State}

/-- The state that a slot is checked against, without the ledger behind it. -/
structure Ambient where
  root : Digest
  totalLiability : UInt64

/-- An accepted slot on the current root and total liability, with those that it returns. -/
structure ChainStep (P : Poseidon2Hash) (G : GameCore) (m : Ambient) (a : Slot) (m' : Ambient) :
    Prop where
  accepted : validateSlot P G a.input = .ok a.effects
  currentRoot : a.input.currentRoot = m.root
  currentTl : a.input.currentTl = m.totalLiability
  newRoot : m'.root = a.effects.newRoot
  newTl : m'.totalLiability = a.effects.newTotalLiability

/-- A chain of accepted slots. -/
abbrev Chain (P : Poseidon2Hash) (G : GameCore) : Ambient → List Slot → Ambient → Prop :=
  Transition.Run (ChainStep P G)

def State.ambient (s : State) : Ambient := ⟨s.root, s.totalLiability⟩

/-- Everything that the new root of a slot hashes. -/
def Slot.newPreimages (P : Poseidon2Hash) (a : Slot) : List (List UInt64) :=
  a.effects.newLeaf.preimages P ++
    (MerkleTree.pathNodes (twoToOne P) (a.effects.newLeaf.digest P) a.input.mainSiblings.toList
      a.input.userId.toNat).map fun q => twoToOnePreimage q.1 q.2

/-- Everything that the two root computations of a slot hash. -/
def Slot.preimages (P : Poseidon2Hash) (a : Slot) : List (List UInt64) :=
  a.input.oldPreimages P ++ a.newPreimages P

/-- Everything that the tree of a ledger and the slots of a chain on it hash. -/
def hashedBy (P : Poseidon2Hash) (L : Ledger) (as : List Slot) : Set (List UInt64) :=
  L.preimages P ∪ {x | ∃ a ∈ as, x ∈ a.preimages P}

/-! ### Chains and runs -/

theorem Step.chainStep (h : Step P G s a s') : ChainStep P G s.ambient a s'.ambient :=
  ⟨h.accepted, h.currentRoot, h.currentTl, h.newRoot, h.newTl⟩

/-- A step on the tree's own siblings adds to the inputs that the root hashes only those that the
slot hashes itself. -/
theorem Step.preimages_subset (h : Step P G s a s')
    (hsiblings : a.input.mainSiblings.toList = s.ledger.siblings P a.input.account) :
    s'.ledger.preimages P ⊆ s.ledger.preimages P ∪ {x | x ∈ a.preimages P} := by
  have hreplaces : s.ledger.Replaces a.account a.effects.newLeaf s'.ledger := ⟨h.newLeaf, h.frame⟩
  intro x hx
  rcases preimages_replaces hreplaces hx with hx | hx
  · exact Or.inl hx
  · refine Or.inr (List.mem_append_right _ ?_)
    rw [Slot.newPreimages, hsiblings, ← h.on.account_val]
    exact hx

theorem hashedBy_mono {as bs : List Slot} (h : as ⊆ bs) : hashedBy P L as ⊆ hashedBy P L bs := by
  rintro x (hx | ⟨a, ha, hx⟩)
  · exact Or.inl hx
  · exact Or.inr ⟨a, h ha, hx⟩

theorem hashedBy_snoc : hashedBy P L as ∪ {x | x ∈ a.preimages P} ⊆ hashedBy P L (as ++ [a]) := by
  refine Set.union_subset (hashedBy_mono (List.subset_append_left _ _)) fun x hx => ?_
  exact Or.inr ⟨a, List.mem_append_right _ (List.mem_singleton_self a), hx⟩

/-- On the root of a ledger, a slot that is linked by the root and the total liability takes a step
of the ledger, to the root of one again. -/
theorem ChainStep.exists_step {m : Ambient} (h : ChainStep P G s.ambient a m)
    (hroot : s.root = s.ledger.root P) (hpre : s.ledger.preimages P ⊆ hashedBy P L as)
    (hfree : CollisionFree P (hashedBy P L (as ++ [a]))) : ∃ s', Step P G s a s' ∧
      s'.ambient = m ∧ s'.root = s'.ledger.root P ∧
      s'.ledger.preimages P ⊆ hashedBy P L (as ++ [a]) := by
  have hsnoc : hashedBy P L as ∪ {x | x ∈ a.preimages P} ⊆ hashedBy P L (as ++ [a]) :=
    hashedBy_snoc
  -- The slot hashes its own inputs and those of the ledger before it.
  have hwith : hashedWith P s.ledger a.input ⊆ hashedBy P L (as ++ [a]) :=
    (Set.union_subset_union hpre fun x hx => List.mem_append_left _ hx).trans hsnoc
  have on := (validateSlot_eq_ok.mp h.accepted).1
  obtain ⟨-, hsiblings⟩ := on.binding (h.currentRoot.trans hroot) (hfree.mono hwith)
  obtain ⟨hstep, hroot'⟩ :=
    Step.of_committed hroot h.currentRoot h.currentTl (hfree.mono hwith) h.accepted
  refine ⟨_, hstep, ?_, hroot', ?_⟩
  · rw [State.ambient, State.after, ← h.newRoot, ← h.newTl]
  · exact (hstep.preimages_subset hsiblings).trans
      ((Set.union_subset_union_left _ hpre).trans hsnoc)

/-- A chain from the root of a ledger is a run of the ledger, and it ends in the root of one. -/
theorem Chain.exists_run {m : Ambient} (h : Chain P G ⟨L.root P, tl⟩ as m)
    (hfree : CollisionFree P (hashedBy P L as)) :
    ∃ s, Run P G ⟨L, L.root P, tl⟩ as s ∧ s.ambient = m ∧ s.root = s.ledger.root P ∧
      s.ledger.preimages P ⊆ hashedBy P L as := by
  induction h with
  | nil => exact ⟨_, .nil, rfl, rfl, fun x hx => Or.inl hx⟩
  | snoc _ h ih =>
    obtain ⟨s, hrun, rfl, hroot, hpre⟩ :=
      ih (hfree.mono (hashedBy_mono (List.subset_append_left _ _)))
    obtain ⟨s', hstep, hs'⟩ := h.exists_step hroot hpre hfree
    exact ⟨s', hrun.snoc hstep, hs'⟩

theorem Step.right_unique {s'' : State} (h : Step P G s a s') (h' : Step P G s a s'') :
    s' = s'' := by
  have hledger : s'.ledger = s''.ledger := by
    funext u
    by_cases hu : u = a.account
    · subst hu
      exact Account.toLeaf_injective (h.newLeaf.trans h'.newLeaf.symm)
    · rw [h.frame u hu, h'.frame u hu]
  have hroot : s'.root = s''.root := h.newRoot.trans h'.newRoot.symm
  have htl : s'.totalLiability = s''.totalLiability := h.newTl.trans h'.newTl.symm
  obtain ⟨L1, root1, tl1⟩ := s'
  obtain ⟨L2, root2, tl2⟩ := s''
  obtain rfl : L1 = L2 := hledger
  obtain rfl : root1 = root2 := hroot
  obtain rfl : tl1 = tl2 := htl
  rfl

/-- A run from the root of a ledger ends in the root of its ledger. -/
theorem Run.root_eq (h : Run P G s as s') (hroot : s.root = s.ledger.root P)
    (hfree : CollisionFree P (hashedBy P s.ledger as)) : s'.root = s'.ledger.root P ∧
      s'.ledger.preimages P ⊆ hashedBy P s.ledger as := by
  induction h with
  | nil => exact ⟨hroot, fun x hx => Or.inl hx⟩
  | snoc _ h ih =>
    obtain ⟨hroot', hpre⟩ := ih (hfree.mono (hashedBy_mono (List.subset_append_left _ _)))
    obtain ⟨t, hstep, -, ht⟩ := h.chainStep.exists_step hroot' hpre hfree
    rwa [hstep.right_unique h] at ht

/-- When no two inputs that are hashed collide, the chains of accepted slots from the root of a
ledger are the runs of that ledger; and the last root is that of the ledger that the run ends in. -/
theorem chain_is_ledger_run {m : Ambient} (hfree : CollisionFree P (hashedBy P L as)) :
    Chain P G ⟨L.root P, tl⟩ as m ↔
      ∃ L', Run P G ⟨L, L.root P, tl⟩ as ⟨L', m.root, m.totalLiability⟩ ∧ m.root = L'.root P := by
  constructor
  · intro h
    obtain ⟨s, hrun, rfl, hroot, -⟩ := Chain.exists_run h hfree
    exact ⟨s.ledger, hrun, hroot⟩
  · rintro ⟨L', hrun, -⟩
    have hchain := Transition.Run.map State.ambient id (fun _ _ _ h => h.chainStep) hrun
    rwa [List.map_id] at hchain

/-! ### From the empty tree -/

/-- What every account of a ledger satisfies after the slots `as` on the empty ledger. -/
structure AccountAfter (as : List Slot) (u : UserId) (l : Leaf) : Prop where
  covered : l.Covered
  deposits : l.credit.toNat ≤ deposited u as
  allowance : l.allowance.toNat + spent u as =
    ((latest (Slot.grants u) as).map Slot.amount).getD 0
  nonce : l.nonce.toNat < 2 ^ 63
  lanes : ∀ lane : Lane, lane.value l.nonce = as.countP (Slot.bumps u lane)

theorem Run.accountAfter (h : Run P G s as s') (hs : s.ledger = Ledger.zero) (u : UserId) :
    AccountAfter as u (s'.ledger u).toLeaf := by
  have hzero : s.ledger u = Account.zero := congrFun hs u
  have hinvariant : (s'.ledger u).toLeaf.Covered ∧ (s'.ledger u).nonce.toNat < 2 ^ 63 := by
    refine Transition.Run.invariant
      (P := fun s : State => (s.ledger u).toLeaf.Covered ∧ (s.ledger u).nonce.toNat < 2 ^ 63)
      (fun _ _ _ hs h => ⟨h.keeps h.spec.covered hs.1, h.nonce_lt hs.2⟩) h ?_
    rw [hzero]
    exact ⟨Nat.le_refl 0, by decide⟩
  have hdeposits := Transition.Run.le_sum_of_step (fun s : State => (s.ledger u).credit.toNat)
    (Slot.depositOn u) (fun _ _ _ h => h.credit_le u) h
  have hallowance := h.allowance u
  have hlanes := h.lane_value u
  rw [granted, hzero] at hallowance
  rw [hzero] at hdeposits hlanes
  refine ⟨hinvariant.1, hdeposits.trans_eq (Nat.zero_add _), hallowance, hinvariant.2,
    fun lane => ?_⟩
  rw [hlanes lane]
  cases lane <;> exact Nat.zero_add _

/-- A chain of accepted slots from the root of the empty ledger, with nothing kept between two slots
but the root and the total liability, ends in the root of exactly one ledger, when no two inputs
that are hashed collide.  The total liability is the sum of its balances; every account covers its
credit, which its deposits bound; its allowance is what is left of its latest grant; and the lanes
of its nonce count the slots that bump them. -/
theorem chain_from_empty_root {m : Ambient} (h : Chain P G ⟨Ledger.zero.root P, 0⟩ as m)
    (hfree : CollisionFree P (hashedBy P Ledger.zero as)) :
    ∃ L : Ledger, m.root = L.root P ∧
      (∀ L', CollisionFree P (hashedBy P Ledger.zero as ∪ L'.preimages P) → m.root = L'.root P →
        L' = L) ∧
      m.totalLiability.toNat = ∑ u, (L u).balance.toNat ∧
      ∀ u, AccountAfter as u (L u).toLeaf := by
  obtain ⟨s, hrun, rfl, hroot, hpre⟩ := Chain.exists_run h hfree
  refine ⟨s.ledger, hroot, fun L' hfree' hroot' => ?_, ?_, hrun.accountAfter rfl⟩
  · have heq : s.ledger = L' := Ledger.root_injective
      (hfree'.mono (Set.union_subset_union_left _ hpre)) (hroot.symm.trans hroot')
    exact heq.symm
  · exact hrun.conserves (by simp [Ledger.totalBalance, Ledger.zero, Account.zero])

/-! ### The run's chain -/

theorem slots_collision_free : CollisionFree sumHash (hashedBy sumHash Ledger.zero slots) := by
  refine collisionFree_of_nodup (zeroPreimages ++ slots.flatMap (Slot.newPreimages sumHash)) ?_
    (by decide +kernel)
  -- Each slot starts from the tree that the one before it leaves.
  have hold : ∀ a ∈ slots, ∀ x ∈ a.input.oldPreimages sumHash,
      x ∈ zeroPreimages ++ slots.flatMap (Slot.newPreimages sumHash) := by
    decide +kernel
  rintro x (hx | ⟨a, ha, hx⟩)
  · exact List.mem_append_left _ (zero_preimages hx)
  rcases List.mem_append.mp hx with hx | hx
  · exact hold a ha x hx
  · exact List.mem_append_right _ (List.mem_flatMap.mpr ⟨a, ha, hx⟩)

theorem slots_chain : ∃ m, Chain sumHash evenCore ⟨Ledger.zero.root sumHash, 0⟩ slots m := by
  obtain ⟨s, hrun⟩ := slots_run
  have hchain := Transition.Run.map State.ambient id (fun _ _ _ h => h.chainStep) hrun
  rw [List.map_id, State.ambient, emptyState_sound.root] at hchain
  exact ⟨_, hchain⟩

theorem slots_sound : ∃ s, Run sumHash evenCore emptyState slots s ∧ s.Sound sumHash := by
  obtain ⟨m, hchain⟩ := slots_chain
  obtain ⟨s, hrun, -, hroot, -⟩ := Chain.exists_run hchain slots_collision_free
  rw [← show emptyState.root = Ledger.zero.root sumHash from emptyState_sound.root] at hrun
  exact ⟨s, hrun, hroot, hrun.conserves emptyState_sound.total⟩

theorem slots_chain_is_run : ∃ (m : Ambient) (L' : Ledger), m.root = L'.root sumHash ∧
    Run sumHash evenCore ⟨Ledger.zero, Ledger.zero.root sumHash, 0⟩ slots
      ⟨L', m.root, m.totalLiability⟩ := by
  obtain ⟨m, hchain⟩ := slots_chain
  obtain ⟨L', hrun, hroot⟩ := (chain_is_ledger_run slots_collision_free).mp hchain
  exact ⟨m, L', hroot, hrun⟩

theorem slots_chain_from_empty_root : ∃ (m : Ambient) (L : Ledger), Chain sumHash evenCore
    ⟨Ledger.zero.root sumHash, 0⟩ slots m ∧ m.root = L.root sumHash ∧
    m.totalLiability.toNat = ∑ u, (L u).balance.toNat ∧
    ∀ u, AccountAfter slots u (L u).toLeaf := by
  obtain ⟨m, hchain⟩ := slots_chain
  obtain ⟨L, hroot, -, htotal, haccounts⟩ := chain_from_empty_root hchain slots_collision_free
  exact ⟨m, L, hchain, hroot, htotal, haccounts⟩

/-! ### Two chains -/

/-- The slots ask for the same of one account and find its address alike empty or not, whatever
witness they carry. -/
structure Slot.AsksLike (a b : Slot) : Prop where
  request : (a.input.withWitness b.input).request = b.input.request
  empty : allZero b.input.oldAddressHash.toList = allZero a.input.oldAddressHash.toList

/-- The slots leave one leaf, root and total liability, and draw one random value. -/
structure Slot.Agrees (a b : Slot) : Prop where
  newLeaf : a.effects.newLeaf = b.effects.newLeaf
  newRoot : a.effects.newRoot = b.effects.newRoot
  newTl : a.effects.newTotalLiability = b.effects.newTotalLiability
  random : a.effects.random = b.effects.random
  slotH : a.effects.slotH = b.effects.slotH

/-- Slots that ask for the same on one root and total liability differ in their witness only. -/
theorem Slot.AsksLike.withWitness {b : Slot} (h : a.AsksLike b)
    (hroot : a.input.currentRoot = b.input.currentRoot)
    (htl : a.input.currentTl = b.input.currentTl)
    (hold : a.input.oldTotalLiability = b.input.oldTotalLiability) :
    a.input.withWitness b.input = b.input := by
  have hshared : a.input.withWitness b.input =
      { (a.input.withWitness b.input).request with
        mainSiblings := b.input.mainSiblings
        currentRoot := a.input.currentRoot
        oldTotalLiability := a.input.oldTotalLiability
        currentTl := a.input.currentTl } := rfl
  rw [hshared, h.request, hroot, htl, hold]
  rfl

theorem ChainStep.agree {m m1 m2 : Ambient} {b : Slot} (h1 : ChainStep P G m a m1)
    (h2 : ChainStep P G m b m2) (hlike : a.AsksLike b)
    (hfree : CollisionFree P {x | x ∈ a.input.oldPreimages P ++ b.input.oldPreimages P}) :
    m1 = m2 ∧ a.Agrees b := by
  have hroot := h1.currentRoot.trans h2.currentRoot.symm
  have htl := h1.currentTl.trans h2.currentTl.symm
  have on1 := (validateSlot_eq_ok.mp h1.accepted).1
  have on2 := (validateSlot_eq_ok.mp h2.accepted).1
  have hask := hlike.withWitness hroot htl (on1.tl.trans (htl.trans on2.tl.symm))
  have huser : a.input.userId = b.input.userId := by
    rw [← hask]
    rfl
  obtain ⟨hleaf, hsiblings⟩ := on1.same_witness on2 hroot huser hfree
  obtain ⟨hnewLeaf, hnewRoot, hnewTl, hrandom, hslotH⟩ :=
    same_outcome h1.accepted h2.accepted hleaf hsiblings hask hlike.empty
  refine ⟨?_, hnewLeaf, hnewRoot, hnewTl, hrandom, hslotH⟩
  obtain ⟨root1, tl1⟩ := m1
  obtain ⟨root2, tl2⟩ := m2
  have hroots : root1 = root2 := h1.newRoot.trans (hnewRoot.trans h2.newRoot.symm)
  have htls : tl1 = tl2 := h1.newTl.trans (hnewTl.trans h2.newTl.symm)
  rw [hroots, htls]

/-- Two chains from one root and total liability, whose slots ask for the same in the same order,
agree slot by slot and end in one root and total liability, when no two inputs of their root checks
collide: what the witnesses add is decided by the root. -/
theorem chains_agree {m m1 m2 : Ambient} {pairs : List (Slot × Slot)}
    (h1 : Chain P G m (pairs.map Prod.fst) m1) (h2 : Chain P G m (pairs.map Prod.snd) m2)
    (hlike : ∀ q ∈ pairs, q.1.AsksLike q.2)
    (hfree : CollisionFree P {x | ∃ q ∈ pairs,
      x ∈ q.1.input.oldPreimages P ++ q.2.input.oldPreimages P}) :
    m1 = m2 ∧ ∀ q ∈ pairs, q.1.Agrees q.2 := by
  induction pairs using List.reverseRecOn generalizing m1 m2 with
  | nil =>
    rw [List.map_nil, Chain, Transition.Run.nil_iff] at h1 h2
    exact ⟨h1.symm.trans h2, by simp⟩
  | append_singleton pairs q ih =>
    rw [List.map_append, List.map_singleton, Chain, Transition.Run.snoc_iff] at h1 h2
    obtain ⟨n1, hchain1, hlast1⟩ := h1
    obtain ⟨n2, hchain2, hlast2⟩ := h2
    obtain ⟨rfl, hagree⟩ := ih hchain1 hchain2 (fun q hq => hlike q (List.mem_append_left _ hq))
      (hfree.mono fun x ⟨q, hq, hx⟩ => ⟨q, List.mem_append_left _ hq, hx⟩)
    have hmem : q ∈ pairs ++ [q] := List.mem_append_right _ (List.mem_singleton_self q)
    obtain ⟨hend, hlast⟩ :=
      hlast1.agree hlast2 (hlike q hmem) (hfree.mono fun x hx => ⟨q, hmem, hx⟩)
    refine ⟨hend, fun q' hq' => ?_⟩
    rcases List.mem_append.mp hq' with hq' | hq'
    · exact hagree q' hq'
    · rw [List.mem_singleton.mp hq']
      exact hlast

/-- The slots of the run, with another witness for the first. -/
def rekeyedSlots : List Slot := ⟨registrationRekeyed, registrationEffects⟩ :: slots.tail

theorem rekeyedSlots_chain : ∃ m1 m2, Chain sumHash evenCore emptyState.ambient slots m1 ∧
    Chain sumHash evenCore emptyState.ambient rekeyedSlots m2 ∧ m1.root = m2.root := by
  obtain ⟨m, hchain⟩ := slots_chain
  rw [← show emptyState.root = Ledger.zero.root sumHash from emptyState_sound.root] at hchain
  have hsplit : Chain sumHash evenCore emptyState.ambient
      ([] ++ ⟨registration, registrationEffects⟩ :: slots.tail) m := hchain
  obtain ⟨m0, m', hnil, hstep, hrest⟩ := Transition.Run.middle_iff.mp hsplit
  obtain rfl := Transition.Run.nil_iff.mp hnil
  have hrekeyed : ChainStep sumHash evenCore emptyState.ambient
      ⟨registrationRekeyed, registrationEffects⟩ m' :=
    ⟨registrationRekeyed_ok, hstep.currentRoot, hstep.currentTl, hstep.newRoot, hstep.newTl⟩
  exact ⟨m, m, hchain, Transition.Run.append_iff.mpr ⟨m', .snoc .nil hrekeyed, hrest⟩, rfl⟩

theorem rekeyedSlots_agree : ∃ m1 m2, Chain sumHash evenCore emptyState.ambient slots m1 ∧
    Chain sumHash evenCore emptyState.ambient rekeyedSlots m2 ∧ m1 = m2 ∧
    Slot.Agrees ⟨registration, registrationEffects⟩
      ⟨registrationRekeyed, registrationEffects⟩ := by
  obtain ⟨m1, m2, h1, h2, -⟩ := rekeyedSlots_chain
  let pairs : List (Slot × Slot) :=
    (⟨registration, registrationEffects⟩, ⟨registrationRekeyed, registrationEffects⟩) ::
      slots.tail.map fun a => (a, a)
  have hlike : ∀ q ∈ pairs, q.1.AsksLike q.2 := by
    intro q hq
    rcases List.mem_cons.mp hq with rfl | hq
    · exact ⟨rfl, rfl⟩
    · obtain ⟨a, -, rfl⟩ := List.mem_map.mp hq
      exact ⟨rfl, rfl⟩
  have hsame : registrationRekeyed.oldPreimages sumHash = registration.oldPreimages sumHash := by
    decide
  have hfree : CollisionFree sumHash {x | ∃ q ∈ pairs,
      x ∈ q.1.input.oldPreimages sumHash ++ q.2.input.oldPreimages sumHash} := by
    refine slots_collision_free.mono ?_
    rintro x ⟨q, hq, hx⟩
    rcases List.mem_cons.mp hq with rfl | hq
    · rw [hsame, List.mem_append, or_self] at hx
      exact Or.inr ⟨_, List.mem_cons_self .., List.mem_append_left _ hx⟩
    · obtain ⟨a, ha, rfl⟩ := List.mem_map.mp hq
      rw [List.mem_append, or_self] at hx
      exact Or.inr ⟨a, List.mem_of_mem_tail ha, List.mem_append_left _ hx⟩
  have h1' : Chain sumHash evenCore emptyState.ambient (pairs.map Prod.fst) m1 := h1
  obtain ⟨hend, hagree⟩ := chains_agree h1' h2 hlike hfree
  exact ⟨m1, m2, h1, h2, hend, hagree _ (List.mem_cons_self ..)⟩

end TxValidator
