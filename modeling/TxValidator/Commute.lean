import TxValidator.Refinement
import TxValidator.Shared

/-! Slots on different accounts commute.  Of the shared state a slot reads its own leaf, the root
and the total liability only; so the order of two slots decides nothing but whether the checked
addition to the total liability overflows. -/

namespace TxValidator

open Checked

variable {P : Poseidon2Hash} {G : GameCore} {input : SlotInput} {e : SlotEffects}
  {c : LocalEffects} {L L' L1 L2 : Ledger} {tl tl' : UInt64}

/-- The siblings of account `u` in the tree of the ledger. -/
def Ledger.path (P : Poseidon2Hash) (L : Ledger) (u : UserId) : Vector Digest treeDepth :=
  ⟨(L.siblings P u).toArray, MerkleTree.siblings_length treeDepth (L.leaves P) u⟩

theorem path_toList (u : UserId) : (L.path P u).toList = L.siblings P u := rfl

/-- The slot tried on a ledger and a total liability: its siblings, its root and both its total
liabilities are theirs. -/
def SlotInput.against (P : Poseidon2Hash) (L : Ledger) (tl : UInt64) (input : SlotInput) :
    SlotInput :=
  { input with
    mainSiblings := L.path P input.account
    currentRoot := L.root P
    oldTotalLiability := tl
    currentTl := tl }

/-- What a slot asks of its account: the slot without what it reads of the shared state. -/
def SlotInput.request (input : SlotInput) : SlotInput :=
  { input with
    mainSiblings := Vector.replicate treeDepth zeroDigest
    currentRoot := zeroDigest
    oldTotalLiability := 0
    currentTl := 0 }

/-- `L'` is the ledger `L` with `l` as the leaf of account `u`. -/
structure Ledger.Replaces (L : Ledger) (u : UserId) (l : Leaf) (L' : Ledger) : Prop where
  leaf : (L' u).toLeaf = l
  frame : ∀ v, v ≠ u → L' v = L v

/-- The effects agree apart from the root and the total liability. -/
def SlotEffects.SameState (e e' : SlotEffects) : Prop :=
  e' = { e with newRoot := e'.newRoot, newTotalLiability := e'.newTotalLiability }

/-! ### What a slot reads of the shared state -/

/-- The local effects read nothing of the shared state. -/
theorem computeLocal_against :
    computeLocal P G (input.against P L tl) = computeLocal P G input := rfl

/-- The always-on checks that read nothing of the shared state. -/
structure SlotInput.OwnChecks (input : SlotInput) : Prop where
  txType : input.txType ≤ maxTxType
  canonical : fieldsCanonical input.request = true
  amount : isCanonical input.amount = true
  winAmount : isCanonical input.winAmount = true
  allowance : input.oldProviderAllowance ≤ providerAllowanceMax
  userId : input.userId.toNat < 2 ^ treeDepth

theorem AlwaysOn.ownChecks (on : AlwaysOn P input) : input.OwnChecks := by
  obtain ⟨hserver, huser, hseed, hnext, hnonce, hpk, hnewPk, haddress, hprediction, hsecret, -⟩ :=
    fieldsCanonical_iff.mp on.canonical
  refine ⟨on.txType, fieldsCanonical_iff.mpr ⟨hserver, huser, hseed, hnext, hnonce, hpk, hnewPk,
    haddress, hprediction, hsecret, ?_⟩, on.amount, on.winAmount, on.allowance, on.userId⟩
  intro s hs
  rw [(Vector.mem_replicate.mp (Vector.mem_toList_iff.mp hs)).2]
  decide

/-- A slot that passes its own checks passes the always-on checks on every ledger with its
account's leaf. -/
theorem SlotInput.OwnChecks.against (own : input.OwnChecks)
    (hleaf : (L input.account).toLeaf = input.oldLeaf) : AlwaysOn P (input.against P L tl) := by
  obtain ⟨hserver, huser, hseed, hnext, hnonce, hpk, hnewPk, haddress, hprediction, hsecret, -⟩ :=
    fieldsCanonical_iff.mp own.canonical
  refine ⟨own.txType, fieldsCanonical_iff.mpr ⟨hserver, huser, hseed, hnext, hnonce, hpk, hnewPk,
    haddress, hprediction, hsecret, ?_⟩, own.amount, own.winAmount, own.allowance, own.userId, ?_,
    rfl⟩
  · exact MerkleTree.siblings_forall (p := fun d : Digest => allCanonical d.toList = true)
      (fun _ _ => poseidon2_canonical P _) fun _ => poseidon2_canonical P _
  · have haccount : input.account.val = input.userId.toNat := Nat.mod_eq_of_lt own.userId
    have hdigest : input.oldLeaf.digest P = L.leaves P input.account.val := by
      rw [Ledger.leaves_at, hleaf]
    rw [computeOldRoot_eq_climb]
    show MerkleTree.climb (twoToOne P) (input.oldLeaf.digest P) (L.siblings P input.account)
      input.userId.toNat = L.root P
    rw [← haccount, hdigest]
    exact MerkleTree.climb_siblings input.account.isLt

/-- A slot that passes the always-on checks on one ledger passes them on every ledger with its
account's leaf. -/
theorem AlwaysOn.against (on : AlwaysOn P (input.against P L tl))
    (hleaf : (L' input.account).toLeaf = input.oldLeaf) : AlwaysOn P (input.against P L' tl') := by
  obtain ⟨htype, hcanonical, hamount, hwin, hallowance, huserId⟩ := on.ownChecks
  have own : input.OwnChecks := ⟨htype, hcanonical, hamount, hwin, hallowance, huserId⟩
  exact own.against hleaf

/-- An accepted slot has its local effects, with the total liability that they lead to. -/
theorem exists_local (h : validateSlot P G (input.against P L tl) = .ok e) :
    ∃ c newTl, computeLocal P G input = .ok c ∧
      computeNewTl tl c.bal.addFull c.bal.subFull = .ok newTl ∧
      e = c.effects P (input.against P L tl) newTl := by
  exact exists_localEffects h

/-- On a ledger with its account's leaf, a slot with local effects is accepted when its total
liability fits. -/
theorem validateSlot_against_ok (on : AlwaysOn P (input.against P L tl))
    (hc : computeLocal P G input = .ok c)
    (htl : computeNewTl tl c.bal.addFull c.bal.subFull = .ok tl') :
    validateSlot P G (input.against P L tl) = .ok (c.effects P (input.against P L tl) tl') := by
  rw [validateSlot_eq_computeEffects on, computeEffects_eq_local, computeLocal_against]
  exact bind_eq_ok.mpr ⟨c, hc, map_eq_ok.mpr ⟨tl', htl, rfl⟩⟩

/-- When its total liability does not fit, the slot is rejected for that reason. -/
theorem validateSlot_against_error (on : AlwaysOn P (input.against P L tl))
    (hc : computeLocal P G input = .ok c)
    (htl : computeNewTl tl c.bal.addFull c.bal.subFull = .error .tlOverflow) :
    validateSlot P G (input.against P L tl) = .error .tlOverflow := by
  rw [validateSlot_eq_computeEffects on, computeEffects_eq_local, computeLocal_against]
  exact bind_eq_error.mpr (Or.inr ⟨c, hc, map_error htl⟩)

theorem effects_sameState (c : LocalEffects) (input input' : SlotInput) (tl tl' : UInt64) :
    (c.effects P input tl).SameState (c.effects P input' tl') := rfl

/-! ### Total liability -/

theorem computeNewTl_total (oldTl addFull subFull : UInt64) :
    (∃ newTl, computeNewTl oldTl addFull subFull = .ok newTl) ∨
      computeNewTl oldTl addFull subFull = .error .tlOverflow := by
  unfold computeNewTl okOr
  split
  · exact Or.inl ⟨_, rfl⟩
  · exact Or.inr rfl

/-- Two checked updates of a total liability lead to one value in either order. -/
theorem computeNewTl_comm {tl1 tl2 tl1' tl2' addA subA addB subB : UInt64}
    (hA : computeNewTl tl addA subA = .ok tl1) (hB : computeNewTl tl1 addB subB = .ok tl2)
    (hB' : computeNewTl tl addB subB = .ok tl1') (hA' : computeNewTl tl1' addA subA = .ok tl2') :
    tl2' = tl2 := by
  rw [computeNewTl_eq_ok] at hA hB hB' hA'
  apply UInt64.toNat_inj.mp
  omega

/-! ### Ledgers -/

theorem Ledger.root_congr (h : ∀ u, (L u).toLeaf = (L' u).toLeaf) : L.root P = L'.root P :=
  MerkleTree.root_congr fun i _ => by rw [Ledger.leaves, Ledger.leaves, h]

theorem newRoot_replaces (h : validateSlot P G (input.against P L tl) = .ok e)
    (hL' : L.Replaces input.account e.newLeaf L') : e.newRoot = L'.root P := by
  rw [newRoot_eq h (path_toList input.account)]
  refine Ledger.root_congr fun u => ?_
  show (Function.update L input.account (newAccount h) u).toLeaf = (L' u).toLeaf
  by_cases hu : u = input.account
  · subst hu
    rw [Function.update_self, hL'.leaf, newAccount]
  · rw [Function.update_of_ne hu, hL'.frame u hu]

/-- Two leaves replaced in either order lead to one ledger. -/
theorem replaces_comm {u v : UserId} (hne : u ≠ v) {l m : Leaf} {L12 L21 : Ledger}
    (h1 : L.Replaces u l L1) (h12 : L1.Replaces v m L12) (h2 : L.Replaces v m L2)
    (h21 : L2.Replaces u l L21) (w : UserId) : (L21 w).toLeaf = (L12 w).toLeaf := by
  by_cases hu : w = u
  · subst hu
    rw [h21.leaf, h12.frame w hne, h1.leaf]
  by_cases hv : w = v
  · subst hv
    rw [h12.leaf, h21.frame w (Ne.symm hne), h2.leaf]
  · rw [h21.frame w hu, h2.frame w hv, h12.frame w hv, h1.frame w hu]

theorem exists_replaces (h : validateSlot P G (input.against P L' tl) = .ok e) :
    ∃ L1, L.Replaces input.account e.newLeaf L1 := by
  refine ⟨Function.update L input.account (newAccount h), ?_, fun v hv => ?_⟩
  · rw [Function.update_self, newAccount]
  · rw [Function.update_of_ne hv]

/-- What two slots accepted in the order `A`, `B` with effects `eA` and `eB` do in the other order:
both are accepted, with these effects apart from the root and the total liability, and leave the
same root and total liability; or one of them is rejected with `tlOverflow`. -/
inductive Swapped (P : Poseidon2Hash) (G : GameCore) (L : Ledger) (tl : UInt64) (A B : SlotInput)
    (eA eB : SlotEffects) : Prop
  | accepted {eB' eA' : SlotEffects} {L2 : Ledger} :
      validateSlot P G (B.against P L tl) = .ok eB' → L.Replaces B.account eB'.newLeaf L2 →
      validateSlot P G (A.against P L2 eB'.newTotalLiability) = .ok eA' →
      eA.SameState eA' → eB.SameState eB' → eA'.newRoot = eB.newRoot →
      eA'.newTotalLiability = eB.newTotalLiability → Swapped P G L tl A B eA eB
  | firstOverflows : validateSlot P G (B.against P L tl) = .error .tlOverflow →
      Swapped P G L tl A B eA eB
  | secondOverflows {eB' : SlotEffects} {L2 : Ledger} :
      validateSlot P G (B.against P L tl) = .ok eB' → L.Replaces B.account eB'.newLeaf L2 →
      validateSlot P G (A.against P L2 eB'.newTotalLiability) = .error .tlOverflow →
      Swapped P G L tl A B eA eB

/-- Two slots on different accounts that are accepted one after the other, on a ledger whose hashed
inputs do not collide, are accepted in the other order with the same outcome, unless one of them
overflows the total liability there. -/
theorem accepted_slots_commute {A B : SlotInput} {eA eB : SlotEffects}
    (hne : A.account ≠ B.account) (hA : validateSlot P G (A.against P L tl) = .ok eA)
    (hL1 : L.Replaces A.account eA.newLeaf L1)
    (hB : validateSlot P G (B.against P L1 eA.newTotalLiability) = .ok eB)
    (hfreeA : CollisionFree P (hashedWith P L (A.against P L tl)))
    (hfreeB : CollisionFree P (hashedWith P L1 (B.against P L1 eA.newTotalLiability))) :
    Swapped P G L tl A B eA eB := by
  obtain ⟨onA, -⟩ := validateSlot_eq_ok.mp hA
  obtain ⟨onB, -⟩ := validateSlot_eq_ok.mp hB
  obtain ⟨cA, tlA, hcA, htlA, heA⟩ := exists_local hA
  obtain ⟨cB, tlB, hcB, htlB, heB⟩ := exists_local hB
  have hleafA : (L A.account).toLeaf = A.oldLeaf := (onA.binding rfl hfreeA).1
  have hleafB : (L B.account).toLeaf = B.oldLeaf := by
    rw [← hL1.frame _ (Ne.symm hne)]
    exact (onB.binding rfl hfreeB).1
  have onB' : AlwaysOn P (B.against P L tl) := onB.against hleafB
  rcases computeNewTl_total tl cB.bal.addFull cB.bal.subFull with ⟨tl1, htl1⟩ | hover
  · have hB' := validateSlot_against_ok onB' hcB htl1
    obtain ⟨L2, hL2⟩ := exists_replaces (L := L) hB'
    have hleafA' : (L2 A.account).toLeaf = A.oldLeaf := by rw [hL2.frame _ hne, hleafA]
    have onA' : AlwaysOn P (A.against P L2 tl1) := onA.against hleafA'
    rcases computeNewTl_total tl1 cA.bal.addFull cA.bal.subFull with ⟨tl2, htl2⟩ | hover
    · have hA' := validateSlot_against_ok onA' hcA htl2
      refine .accepted hB' hL2 hA' ?_ ?_ ?_ ?_
      · rw [heA]
        exact effects_sameState ..
      · rw [heB]
        exact effects_sameState ..
      · -- Both roots are that of the ledger with both leaves replaced.
        obtain ⟨L12, hL12⟩ := exists_replaces (L := L1) hB
        obtain ⟨L21, hL21⟩ := exists_replaces (L := L2) hA'
        rw [newRoot_replaces hA' hL21, newRoot_replaces hB hL12]
        rw [heA, LocalEffects.effects_newLeaf] at hL1
        rw [heB, LocalEffects.effects_newLeaf] at hL12
        rw [LocalEffects.effects_newLeaf] at hL2 hL21
        exact Ledger.root_congr (replaces_comm hne hL1 hL12 hL2 hL21)
      · rw [heA] at htlB
        rw [heB]
        exact computeNewTl_comm htlA htlB htl1 htl2
    · exact .secondOverflows hB' hL2 (validateSlot_against_error onA' hcA hover)
  · exact .firstOverflows (validateSlot_against_error onB' hcB hover)

/-! ### A registration and its neighbour -/

theorem zero_path (u : UserId) : Ledger.zero.path P u = zeroSiblings P := by
  apply Vector.toList_inj.mp
  rw [path_toList]
  show MerkleTree.siblings (twoToOne P) treeDepth (fun _ => Account.zero.digest P) u.val = _
  rw [MerkleTree.siblings_const]
  refine List.ext_getElem (by simp) fun i _ _ => ?_
  simp [zeroSiblings]

/-- A slot that commits to the empty tree is tried on the empty ledger as it is. -/
theorem against_zero (hsiblings : input.mainSiblings = zeroSiblings P)
    (hroot : input.currentRoot =
      MerkleTree.level (twoToOne P) (Account.zero.digest P) treeDepth)
    (hold : input.oldTotalLiability = 0) (hcurrent : input.currentTl = 0) :
    input.against P Ledger.zero 0 = input := by
  rw [SlotInput.against, zero_path, zero_root, ← hsiblings, ← hroot]
  cases input
  simp only at hold hcurrent
  rw [hold, hcurrent]

theorem Ledger.Replaces.eq_update {u : UserId} {l : Leaf} (h : L.Replaces u l L1) :
    L1 = Function.update L u (L1 u) := by
  funext v
  by_cases hv : v = u
  · subst hv
    rw [Function.update_self]
  · rw [Function.update_of_ne hv, h.frame v hv]

/-- Replacing a leaf adds to the inputs that the root hashes only those of the new leaf and of its
path. -/
theorem preimages_replaces {u : UserId} {l : Leaf} (h : L.Replaces u l L1) :
    L1.preimages P ⊆ L.preimages P ∪ {x | x ∈ l.preimages P ++
      (MerkleTree.pathNodes (twoToOne P) (l.digest P) (L.siblings P u) u).map
        fun q => twoToOnePreimage q.1 q.2} := by
  have hleaves : ∀ i < 2 ^ treeDepth,
      L1.leaves P i = Function.update (L.leaves P) u.val (l.digest P) i := by
    intro i hi
    calc L1.leaves P i = Ledger.leaves P (Function.update L u (L1 u)) i :=
          congrArg (fun M : Ledger => M.leaves P i) h.eq_update
      _ = Function.update (L.leaves P) u.val (l.digest P) i := by
          rw [Ledger.leaves_update L u _ hi, h.leaf]
  rintro x (⟨v, hx⟩ | ⟨q, hq, rfl⟩)
  · by_cases hv : v = u
    · subst hv
      rw [h.leaf] at hx
      exact Or.inr (List.mem_append_left _ hx)
    · rw [h.frame v hv] at hx
      exact Or.inl (Or.inl ⟨v, hx⟩)
  · rw [MerkleTree.nodes_congr hleaves] at hq
    rcases MerkleTree.nodes_update _ hq with hq | hq
    · exact Or.inl (Or.inr ⟨q, hq, rfl⟩)
    · exact Or.inr (List.mem_append_right _ (List.mem_map.mpr ⟨q, hq, rfl⟩))

/-- On a ledger with its account's leaf, the root check of a slot hashes only what the root does. -/
theorem hashedWith_against (haccount : input.account.val = input.userId.toNat)
    (hleaf : (L input.account).toLeaf = input.oldLeaf) :
    hashedWith P L (input.against P L tl) ⊆ L.preimages P := by
  rintro x (hx | hx)
  · exact hx
  rcases List.mem_append.mp hx with hx | hx
  · refine Or.inl ⟨input.account, ?_⟩
    rw [hleaf]
    exact hx
  · obtain ⟨q, hq, rfl⟩ := List.mem_map.mp hx
    refine Or.inr ⟨q, ?_, rfl⟩
    apply MerkleTree.pathNodes_siblings input.account.isLt
    rw [Ledger.leaves_at, hleaf]
    show q ∈ MerkleTree.pathNodes (twoToOne P) (input.oldLeaf.digest P)
      (L.siblings P input.account) input.account.val
    rw [haccount]
    exact hq

/-- A deposit on the account next to the registration's. -/
def neighbourDeposit : SlotInput := SlotInput.commit sumHash {
  txType := txDeposit
  userId := 4
  amount := 20
  mainSiblings := zeroSiblings sumHash }

/-- What the tree hashes after the registration. -/
def registrationPreimages : List (List UInt64) :=
  zeroPreimages ++ (registrationEffects.newLeaf.preimages sumHash ++
    (MerkleTree.pathNodes (twoToOne sumHash) (registrationEffects.newLeaf.digest sumHash)
      (zeroSiblings sumHash).toList registration.account).map fun q => twoToOnePreimage q.1 q.2)

theorem neighbourDeposit_collision_free
    (h : Ledger.zero.Replaces registration.account registrationEffects.newLeaf L1)
    (hleaf : (L1 neighbourDeposit.account).toLeaf = neighbourDeposit.oldLeaf) :
    CollisionFree sumHash (hashedWith sumHash L1 (neighbourDeposit.against sumHash L1 tl)) := by
  refine collisionFree_of_nodup registrationPreimages ?_ (by decide +kernel)
  intro x hx
  have haccount : neighbourDeposit.account.val = 4 := by decide
  have hroot := hashedWith_against haccount hleaf hx
  rcases preimages_replaces h hroot with hx | hx
  · exact List.mem_append_left _ (zero_preimages hx)
  · rw [← path_toList, zero_path] at hx
    exact List.mem_append_right _ hx

theorem registration_commutes : ∃ L1 eB,
    Ledger.zero.Replaces registration.account registrationEffects.newLeaf L1 ∧
      validateSlot sumHash evenCore (neighbourDeposit.against sumHash L1 0) = .ok eB ∧
      Swapped sumHash evenCore Ledger.zero 0 registration neighbourDeposit registrationEffects
        eB := by
  have hlevel : registration.currentRoot =
      MerkleTree.level (twoToOne sumHash) (Account.zero.digest sumHash) treeDepth := by
    decide +kernel
  have hagainst : registration.against sumHash Ledger.zero 0 = registration :=
    against_zero (by rfl) hlevel (by rfl) (by rfl)
  have hlevel' : neighbourDeposit.currentRoot =
      MerkleTree.level (twoToOne sumHash) (Account.zero.digest sumHash) treeDepth := by
    decide +kernel
  have hagainst' : neighbourDeposit.against sumHash Ledger.zero 0 = neighbourDeposit :=
    against_zero (by rfl) hlevel' (by rfl) (by rfl)
  have hne : registration.account ≠ neighbourDeposit.account := by decide
  have hA : validateSlot sumHash evenCore (registration.against sumHash Ledger.zero 0) =
      .ok registrationEffects := by
    rw [hagainst]
    exact registration_ok
  obtain ⟨L1, hL1⟩ := exists_replaces (L := Ledger.zero) hA
  have hleaf : (L1 neighbourDeposit.account).toLeaf = neighbourDeposit.oldLeaf := by
    rw [hL1.frame _ (Ne.symm hne)]
    exact (show Account.zero.toLeaf = neighbourDeposit.oldLeaf by decide)
  -- The neighbour is accepted on the empty ledger, so it is on every ledger with its empty leaf.
  obtain ⟨eB', hB'⟩ := exists_of_isOk
    (show (validateSlot sumHash evenCore neighbourDeposit).isOk = true by decide +kernel)
  rw [← hagainst'] at hB'
  obtain ⟨c, newTl, hc, htl, -⟩ := exists_local hB'
  have hB := validateSlot_against_ok ((validateSlot_eq_ok.mp hB').1.against hleaf) hc htl
  refine ⟨L1, _, hL1, hB, accepted_slots_commute hne hA hL1 hB ?_ ?_⟩
  · rw [hagainst]
    exact registration_collision_free
  · exact neighbourDeposit_collision_free hL1 hleaf

end TxValidator
