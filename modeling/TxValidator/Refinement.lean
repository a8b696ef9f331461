import TxValidator.Ledger

/-! An accepted slot is a step of the ledger: when no two inputs that are hashed collide, the old
fields of the slot are its account's leaf, its siblings are the tree's, and its new root is the root
of the ledger with that one leaf replaced. -/

namespace TxValidator

variable {P : Poseidon2Hash} {G : GameCore} {input : SlotInput} {e : SlotEffects} {L : Ledger}

/-- Everything that the tree of the ledger and the root check of a slot hash. -/
def hashedWith (P : Poseidon2Hash) (L : Ledger) (input : SlotInput) : Set (List UInt64) :=
  L.preimages P ∪ {x | x ∈ input.oldPreimages P}

/-! ### Leaves -/

theorem Leaf.digest_injective {S : Set (List UInt64)} {l l' : Leaf}
    (hcf : Set.InjOn (poseidon2 P) S) (hl : ∀ x ∈ l.preimages P, x ∈ S)
    (hl' : ∀ x ∈ l'.preimages P, x ∈ S) (ha : l.allowance ≤ providerAllowanceMax)
    (ha' : l'.allowance ≤ providerAllowanceMax) (h : l.digest P = l'.digest P) : l = l' := by
  have hmain := hcf (hl _ (by simp [Leaf.preimages])) (hl' _ (by simp [Leaf.preimages])) h
  obtain ⟨hbal, ⟨hpk0, hpk1⟩, haddr0, haddr1⟩ := mainLeafPreimage_injective hmain
  have hpre := hcf (hl _ (List.mem_cons_self ..)) (hl' _ (List.mem_cons_self ..)) hbal
  obtain ⟨hb, hs, hc, hn, hall⟩ := balanceLeafPreimage_injective ha ha' hpre
  exact Leaf.ext hb hc hs hn hall (limbs_ext hpk0 hpk1) (limbs_ext haddr0 haddr1)

theorem Ledger.leaves_at (L : Ledger) (u : UserId) : L.leaves P u.val = (L u).digest P := by
  rw [Ledger.leaves, Fin.ofNat_val_eq_self]

theorem Ledger.leaves_update (L : Ledger) (u : UserId) (a : Account) {i : ℕ}
    (hi : i < 2 ^ treeDepth) : Ledger.leaves P (Function.update L u a) i =
      Function.update (L.leaves P) u.val (a.digest P) i := by
  have hval : (Fin.ofNat (2 ^ treeDepth) i).val = i := Nat.mod_eq_of_lt hi
  by_cases hu : i = u.val
  · subst hu
    rw [Function.update_self, Ledger.leaves_at, Function.update_self]
  · have hne : Fin.ofNat (2 ^ treeDepth) i ≠ u := fun h => hu (by rw [← h, hval])
    rw [Function.update_of_ne hu, Ledger.leaves, Function.update_of_ne hne, Ledger.leaves]

theorem Ledger.root_update (L : Ledger) (u : UserId) (a : Account) :
    Ledger.root P (Function.update L u a) = MerkleTree.root (twoToOne P) treeDepth
      (Function.update (L.leaves P) u.val (a.digest P)) :=
  MerkleTree.root_congr fun _ hi => L.leaves_update u a hi

/-! ### Canonical inputs -/

theorem Leaf.preimages_canonical {l : Leaf} (h : l.Storable) :
    ∀ x ∈ l.preimages P, allCanonical x = true := by
  intro x hx
  simp only [Leaf.preimages, List.mem_cons, List.not_mem_nil, or_false] at hx
  rcases hx with rfl | rfl
  · exact balanceLeafPreimage_canonical h.seedHash h.nonce h.allowance
  · exact mainLeafPreimage_canonical (poseidon2_canonical P _) (widen_canonical h.pk)
      (widen_canonical h.address)

theorem twoToOne_canonical (l r : Digest) : allCanonical (twoToOne P l r).toList = true :=
  poseidon2_canonical P _

theorem Ledger.preimages_canonical : ∀ x ∈ L.preimages P, allCanonical x = true := by
  rintro x (⟨u, hx⟩ | ⟨q, hq, rfl⟩)
  · exact Leaf.preimages_canonical (L u).storable x hx
  · obtain ⟨hl, hr⟩ := MerkleTree.nodes_forall (p := fun d : Digest => allCanonical d.toList = true)
      twoToOne_canonical (fun i => poseidon2_canonical P _) q hq
    exact twoToOnePreimage_canonical hl hr

theorem AlwaysOn.oldPreimages_canonical (on : AlwaysOn P input) :
    ∀ x ∈ input.oldPreimages P, allCanonical x = true := by
  intro x hx
  have hsiblings := (fieldsCanonical_iff.mp on.canonical).2.2.2.2.2.2.2.2.2.2
  rcases List.mem_append.mp hx with hx | hx
  · exact Leaf.preimages_canonical on.oldLeaf_storable x hx
  · obtain ⟨q, hq, rfl⟩ := List.mem_map.mp hx
    obtain ⟨hl, hr⟩ := MerkleTree.pathNodes_forall
      (p := fun d : Digest => allCanonical d.toList = true) twoToOne_canonical
      (poseidon2_canonical P _) hsiblings q hq
    exact twoToOnePreimage_canonical hl hr

theorem hashedWith_canonical (on : AlwaysOn P input) :
    ∀ x ∈ hashedWith P L input, allCanonical x = true := by
  rintro x (hx | hx)
  · exact Ledger.preimages_canonical x hx
  · exact on.oldPreimages_canonical x hx

/-! ### Binding to the root -/

/-- The pairs that the tree of the ledger and the path of a slot combine. -/
def combinedWith (P : Poseidon2Hash) (L : Ledger) (input : SlotInput) : Set (Digest × Digest) :=
  MerkleTree.nodes (twoToOne P) treeDepth (L.leaves P) ∪
    {q | q ∈ MerkleTree.pathNodes (twoToOne P) (input.oldLeaf.digest P) input.mainSiblings.toList
      input.userId.toNat}

/-- Pairs whose preimages do not collide combine to different digests. -/
theorem injOn_twoToOne {S : Set (List UInt64)} {Q : Set (Digest × Digest)}
    (hcf : Set.InjOn (poseidon2 P) S) (hmem : ∀ q ∈ Q, twoToOnePreimage q.1 q.2 ∈ S) :
    Set.InjOn (Function.uncurry (twoToOne P)) Q := by
  intro q hq q' hq' h
  obtain ⟨h1, h2⟩ := twoToOnePreimage_injective (hcf (hmem q hq) (hmem q' hq') h)
  exact Prod.ext h1 h2

theorem twoToOne_injOn (hcf : Set.InjOn (poseidon2 P) (hashedWith P L input)) :
    Set.InjOn (Function.uncurry (twoToOne P)) (combinedWith P L input) := by
  refine injOn_twoToOne hcf ?_
  rintro q (hq | hq)
  · exact Or.inl (Or.inr ⟨q, hq, rfl⟩)
  · exact Or.inr (List.mem_append_right _ (List.mem_map.mpr ⟨q, hq, rfl⟩))

theorem hashedWith_old : ∀ x ∈ input.oldLeaf.preimages P, x ∈ hashedWith P L input :=
  fun _ hx => Or.inr (List.mem_append_left _ hx)

theorem hashedWith_leaf (u : UserId) : ∀ x ∈ (L u).preimages P, x ∈ hashedWith P L input :=
  fun _ hx => Or.inl (Or.inl ⟨u, hx⟩)

/-- The always-on checks bind the old fields and the siblings of a slot to the ledger. -/
theorem AlwaysOn.binding (on : AlwaysOn P input) (hroot : input.currentRoot = L.root P)
    (hfree : CollisionFree P (hashedWith P L input)) :
    (L input.account).toLeaf = input.oldLeaf ∧
      input.mainSiblings.toList = L.siblings P input.account := by
  have hcf := hfree.injOn (hashedWith_canonical on)
  have hclimb := on.root
  rw [computeOldRoot_eq_climb, hroot] at hclimb
  obtain ⟨hdigest, hsiblings⟩ := MerkleTree.eq_of_climb_eq_root (twoToOne_injOn hcf) on.userId
    (Vector.length_toList ..) hclimb
  rw [← on.account_val] at hdigest hsiblings
  rw [Ledger.leaves_at] at hdigest
  exact ⟨(Leaf.digest_injective hcf hashedWith_old (hashedWith_leaf _) on.allowance
    (L input.account).storable.allowance hdigest).symm, hsiblings⟩

/-- On the tree's own siblings the new root of a slot is the root of the updated ledger. -/
theorem newRoot_eq (h : validateSlot P G input = .ok e)
    (hsiblings : input.mainSiblings.toList = L.siblings P input.account) :
    e.newRoot = Ledger.root P (Function.update L input.account (newAccount h)) := by
  obtain ⟨on, spec⟩ := validateSlot_eq_ok.mp h
  rw [spec.newRoot, computeNewRoot_eq_climb, hsiblings, ← on.account_val, Ledger.siblings,
    MerkleTree.climb_update input.account.isLt, Ledger.root_update]
  rfl

/-- On a state whose root is its ledger's, every accepted slot takes a step, and the next state's
root is its ledger's again. -/
theorem Step.of_committed {s : State} {a : Slot} (hs : s.root = s.ledger.root P)
    (hroot : a.input.currentRoot = s.root) (htl : a.input.currentTl = s.totalLiability)
    (hfree : CollisionFree P (hashedWith P s.ledger a.input))
    (h : validateSlot P G a.input = .ok a.effects) :
    Step P G s a (s.after a h) ∧ (s.after a h).root = (s.after a h).ledger.root P := by
  have on := (validateSlot_eq_ok.mp h).1
  obtain ⟨hold, hsiblings⟩ := on.binding (hroot.trans hs) hfree
  exact ⟨Step.of_accepted h hroot htl hold, newRoot_eq h hsiblings⟩

/-- An accepted slot on the root of a ledger reads its account's leaf and siblings, and returns the
root of the ledger with that leaf, and no other, replaced by its effects. -/
theorem validateSlot_refines_ledger (hroot : input.currentRoot = L.root P)
    (hfree : CollisionFree P (hashedWith P L input)) (h : validateSlot P G input = .ok e) :
    input.account.val = input.userId.toNat ∧
      (L input.account).toLeaf = input.oldLeaf ∧
      input.mainSiblings.toList = L.siblings P input.account ∧
      ∃ L' : Ledger, (L' input.account).toLeaf = e.newLeaf ∧
        (∀ v, v ≠ input.account → L' v = L v) ∧ e.newRoot = L'.root P := by
  have on := (validateSlot_eq_ok.mp h).1
  obtain ⟨hold, hsiblings⟩ := on.binding hroot hfree
  refine ⟨on.account_val, hold, hsiblings, Function.update L input.account (newAccount h), ?_, ?_,
    newRoot_eq h hsiblings⟩
  · rw [Function.update_self, newAccount]
  · intro v hv
    rw [Function.update_of_ne hv]

theorem zero_root : Ledger.zero.root P =
    MerkleTree.level (twoToOne P) (Account.zero.digest P) treeDepth :=
  MerkleTree.root_const treeDepth (Account.zero.digest P)

/-- What the empty ledger and the registration hash: the two preimages of the empty leaf, and one
for each level of a tree of empty leaves. -/
def zeroPreimages : List (List UInt64) :=
  Account.zero.preimages sumHash ++
    ((List.range treeDepth).map fun i =>
      (MerkleTree.level (twoToOne sumHash) (Account.zero.digest sumHash) i,
        MerkleTree.level (twoToOne sumHash) (Account.zero.digest sumHash) i)).map
      fun q => twoToOnePreimage q.1 q.2

theorem zero_preimages : Ledger.zero.preimages sumHash ⊆ {x | x ∈ zeroPreimages} := by
  rintro x (⟨u, hx⟩ | ⟨q, hq, rfl⟩)
  · exact List.mem_append_left _ hx
  · exact List.mem_append_right _ (List.mem_map_of_mem (MerkleTree.nodes_const _ _ hq))

/-- Inputs whose outputs differ in the sum of their elements do not collide. -/
theorem collisionFree_of_nodup {S : Set (List UInt64)} (xs : List (List UInt64))
    (hS : S ⊆ {x | x ∈ xs})
    (h : (xs.map fun x =>
      ((P.hashNoPad (x.map fromCanonicalU64)).toList.map Fin.val).sum).Nodup) :
    CollisionFree P S := by
  rintro _ ⟨x, hx, rfl⟩ _ ⟨y, hy, rfl⟩ heq
  rw [List.inj_on_of_nodup_map h (hS hx) (hS hy) (by rw [heq])]

theorem registration_collision_free :
    CollisionFree sumHash (hashedWith sumHash Ledger.zero registration) := by
  have hold : registration.oldPreimages sumHash = zeroPreimages := by decide +kernel
  refine collisionFree_of_nodup zeroPreimages ?_ (by decide +kernel)
  rintro x (hx | hx)
  · exact zero_preimages hx
  · exact hold ▸ hx

theorem registration_refines_ledger :
    registration.account.val = registration.userId.toNat ∧
      (Ledger.zero registration.account).toLeaf = registration.oldLeaf ∧
      registration.mainSiblings.toList = Ledger.zero.siblings sumHash registration.account ∧
      ∃ L' : Ledger, (L' registration.account).toLeaf = registrationEffects.newLeaf ∧
        (∀ v, v ≠ registration.account → L' v = Ledger.zero v) ∧
        registrationEffects.newRoot = L'.root sumHash := by
  have hlevel : registration.currentRoot =
      MerkleTree.level (twoToOne sumHash) (Account.zero.digest sumHash) treeDepth := by
    decide +kernel
  have hroot : registration.currentRoot = Ledger.zero.root sumHash := by
    rw [hlevel, zero_root]
  exact validateSlot_refines_ledger hroot registration_collision_free registration_ok

end TxValidator
