import TxValidator.Keys
import TxValidator.Refinement
import TxValidator.Table

/-! What a root binds.  The root of a ledger is that of no other ledger, and two slots accepted on
one root for one user carry the same state and the same siblings; so slots that ask for the same on
one root and total liability lead to one new root and total liability. -/

namespace TxValidator

variable {P : Poseidon2Hash} {G : GameCore} {input input1 input2 : SlotInput}
  {e e1 e2 : SlotEffects} {L L' : Ledger}

theorem Account.toLeaf_injective : Function.Injective Account.toLeaf := by
  rintro ⟨l, _⟩ ⟨_, _⟩ rfl
  rfl

/-- The root of a ledger determines the ledger, when the inputs of both trees do not collide. -/
theorem Ledger.root_injective (hfree : CollisionFree P (L.preimages P ∪ L'.preimages P))
    (h : L.root P = L'.root P) : L = L' := by
  have hcf := hfree.injOn fun x hx => hx.elim (Ledger.preimages_canonical x)
    (Ledger.preimages_canonical x)
  have hpairs : Set.InjOn (Function.uncurry (twoToOne P))
      (MerkleTree.nodes (twoToOne P) treeDepth (L.leaves P) ∪
        MerkleTree.nodes (twoToOne P) treeDepth (L'.leaves P)) := by
    refine injOn_twoToOne hcf ?_
    rintro q (hq | hq)
    · exact Or.inl (Or.inr ⟨q, hq, rfl⟩)
    · exact Or.inr (Or.inr ⟨q, hq, rfl⟩)
  funext u
  have hdigest := MerkleTree.root_injective hpairs h u.val u.isLt
  rw [Ledger.leaves_at, Ledger.leaves_at] at hdigest
  exact Account.toLeaf_injective (Leaf.digest_injective hcf (fun x hx => Or.inl (Or.inl ⟨u, hx⟩))
    (fun x hx => Or.inr (Or.inl ⟨u, hx⟩)) (L u).storable.allowance (L' u).storable.allowance
    hdigest)

/-! ### Witnesses -/

/-- The slot with the witness of another: the old fields and the siblings that its caller looks
up. -/
def SlotInput.withWitness (input other : SlotInput) : SlotInput :=
  { input with
    oldBalance := other.oldBalance
    oldDepositCredit := other.oldDepositCredit
    oldSeedHash := other.oldSeedHash
    oldNonce := other.oldNonce
    oldProviderAllowance := other.oldProviderAllowance
    oldPkHash := other.oldPkHash
    oldAddressHash := other.oldAddressHash
    mainSiblings := other.mainSiblings }

/-- Two witnesses for one user that reach one root agree in all that the root commits. -/
theorem AlwaysOn.same_witness (on1 : AlwaysOn P input1) (on2 : AlwaysOn P input2)
    (hroot : input1.currentRoot = input2.currentRoot) (huser : input1.userId = input2.userId)
    (hfree : CollisionFree P {x | x ∈ input1.oldPreimages P ++ input2.oldPreimages P}) :
    input1.oldLeaf = input2.oldLeaf ∧ input1.mainSiblings = input2.mainSiblings := by
  have hcf := hfree.injOn fun x hx => (List.mem_append.mp hx).elim
    (on1.oldPreimages_canonical x) (on2.oldPreimages_canonical x)
  have hclimb := on1.root.trans (hroot.trans on2.root.symm)
  rw [computeOldRoot_eq_climb, computeOldRoot_eq_climb, ← huser] at hclimb
  have hpairs := injOn_twoToOne (Q := {q | q ∈ MerkleTree.pathNodes (twoToOne P)
      (input1.oldLeaf.digest P) input1.mainSiblings.toList input1.userId.toNat} ∪
      {q | q ∈ MerkleTree.pathNodes (twoToOne P) (input2.oldLeaf.digest P)
        input2.mainSiblings.toList input1.userId.toNat}) hcf (by
    rintro q (hq | hq)
    · exact List.mem_append_left _ (List.mem_append_right _ (List.mem_map.mpr ⟨q, hq, rfl⟩))
    · rw [huser] at hq
      exact List.mem_append_right _ (List.mem_append_right _ (List.mem_map.mpr ⟨q, hq, rfl⟩)))
  obtain ⟨hdigest, hsiblings⟩ := MerkleTree.climb_injective hpairs (by simp) hclimb
  exact ⟨Leaf.digest_injective hcf
    (fun x hx => List.mem_append_left _ (List.mem_append_left _ hx))
    (fun x hx => List.mem_append_right _ (List.mem_append_left _ hx)) on1.allowance on2.allowance
    hdigest, Vector.toList_inj.mp hsiblings⟩

/-- Witnesses that agree in all that a leaf commits differ at most in the limbs that it drops. -/
theorem withWitness_of_oldLeaf (hleaf : input1.oldLeaf = input2.oldLeaf)
    (hsiblings : input1.mainSiblings = input2.mainSiblings)
    (hask : input1.withWitness input2 = input2) : input2 =
      { input1 with oldPkHash := input2.oldPkHash, oldAddressHash := input2.oldAddressHash } := by
  have hbalance : input1.oldBalance = input2.oldBalance := congrArg Leaf.balance hleaf
  have hcredit : input1.oldDepositCredit = input2.oldDepositCredit := congrArg Leaf.credit hleaf
  have hseed : input1.oldSeedHash = input2.oldSeedHash := congrArg Leaf.seedHash hleaf
  have hnonce : input1.oldNonce = input2.oldNonce := congrArg Leaf.nonce hleaf
  have hallowance : input1.oldProviderAllowance = input2.oldProviderAllowance :=
    congrArg Leaf.allowance hleaf
  rw [SlotInput.withWitness, ← hbalance, ← hcredit, ← hseed, ← hnonce, ← hallowance,
    ← hsiblings] at hask
  exact hask.symm

/-! ### Outcomes -/

/-- The slot with other key and address hashes in its witness. -/
def SlotInput.withHashes (input : SlotInput) (pk address : Digest) : SlotInput :=
  { input with oldPkHash := pk, oldAddressHash := address }

/-- The leaf after a slot reads the limbs that no leaf commits only to see whether the old address
is empty. -/
theorem newLeaf_withHashes {pk address : Digest} (hpk : committed pk = committed input.oldPkHash)
    (haddress : committed address = committed input.oldAddressHash)
    (hempty : allZero address.toList = allZero input.oldAddressHash.toList) :
    (((input.withHashes pk address).selected P).effects P (input.withHashes pk address)).newLeaf =
      ((input.selected P).effects P input).newLeaf := by
  refine Leaf.ext rfl rfl rfl rfl rfl ?_ ?_
  · show committed (if input.isKeySetter then input.newPkHash else pk) =
      committed (if input.isKeySetter then input.newPkHash else input.oldPkHash)
    split
    · rfl
    · exact hpk
  · have hsetter : (input.withHashes pk address).isAddressSetter = input.isAddressSetter := by
      show ((input.txType == txDeposit || input.isKeySetter) && allZero address.toList) = _
      rw [hempty]
      rfl
    show committed (if (input.withHashes pk address).isAddressSetter then
        addressHash P input.userAddress else address) =
      committed (if input.isAddressSetter then addressHash P input.userAddress
        else input.oldAddressHash)
    rw [hsetter]
    split
    · rfl
    · exact haddress

/-- The new root is a function of the new leaf and the siblings. -/
theorem EffectsSpec.newRoot_eq_climb (spec : EffectsSpec P G input e) :
    e.newRoot = MerkleTree.climb (twoToOne P) (e.newLeaf.digest P) input.mainSiblings.toList
      input.userId.toNat := by
  rw [spec.newRoot, computeNewRoot_eq_climb]

/-- Accepted slots that carry one state and one list of siblings, ask for the same, and find the old
address alike empty or not, have one outcome. -/
theorem same_outcome (h1 : validateSlot P G input1 = .ok e1) (h2 : validateSlot P G input2 = .ok e2)
    (hleaf : input1.oldLeaf = input2.oldLeaf)
    (hsiblings : input1.mainSiblings = input2.mainSiblings)
    (hask : input1.withWitness input2 = input2)
    (hempty : allZero input2.oldAddressHash.toList = allZero input1.oldAddressHash.toList) :
    e1.newLeaf = e2.newLeaf ∧ e1.newRoot = e2.newRoot ∧
      e1.newTotalLiability = e2.newTotalLiability ∧ e1.random = e2.random ∧
      e1.slotH = e2.slotH := by
  obtain ⟨on1, spec1⟩ := validateSlot_eq_ok.mp h1
  obtain ⟨on2, spec2⟩ := validateSlot_eq_ok.mp h2
  have hpk : committed input2.oldPkHash = committed input1.oldPkHash :=
    (congrArg Leaf.pk hleaf).symm
  have haddress : committed input2.oldAddressHash = committed input1.oldAddressHash :=
    (congrArg Leaf.address hleaf).symm
  have hinput : input2 = input1.withHashes input2.oldPkHash input2.oldAddressHash :=
    withWitness_of_oldLeaf hleaf hsiblings hask
  have huser : input2.userId = input1.userId := by rw [hinput]; rfl
  obtain ⟨-, he1⟩ := (effectsSpec_iff on1.allowance).mp spec1
  obtain ⟨-, he2⟩ := (effectsSpec_iff on2.allowance).mp spec2
  have hnew : e1.newLeaf = e2.newLeaf := by
    rw [he1, he2, hinput]
    exact (newLeaf_withHashes hpk haddress hempty).symm
  refine ⟨hnew, ?_, ?_, ?_, ?_⟩
  · rw [spec1.newRoot_eq_climb, spec2.newRoot_eq_climb, hnew, hsiblings, huser]
  all_goals
    rw [he1, he2, hinput]
    rfl

/-- The registration with a key in its witness where the leaf does not look. -/
def registrationRekeyed : SlotInput := { registration with oldPkHash := unkeyedGrant.oldPkHash }

theorem registrationRekeyed_ok :
    validateSlot sumHash evenCore registrationRekeyed = .ok registrationEffects := by
  decide +kernel

end TxValidator
