import TxValidator.Keys

/-! Addresses of accounts along a run: deposits bind an account to one address, and key
registrations stamp it.  Whether an address is set is tested on all four limbs of its hash, of which
the leaf commits the first two. -/

namespace TxValidator

variable {P : Poseidon2Hash} {G : GameCore} {input : SlotInput} {e : SlotEffects} {s s' : State}
  {a : Slot} {as : List Slot}

theorem committed_of_allZero {d : Digest} (h : allZero d.toList = true) :
    committed d = zeroLimbs := by
  rw [allZero_iff] at h
  exact committed_eq_zero.mpr ⟨h _ (by simp), h _ (by simp)⟩

theorem Step.address_eq (h : Step P G s a s') {u : UserId} (hu : a.account = u) :
    (s.ledger u).address = committed a.input.oldAddressHash ∧
      (s'.ledger u).address = committed a.effects.newAddressHash :=
  h.part_eq hu Leaf.address

/-! ### Deposits -/

/-- A first deposit stamps the hash of its address, and a later one has to match it. -/
theorem EffectsSpec.address_of_deposit (spec : EffectsSpec P G input e)
    (ht : input.txType = txDeposit) : e.newAddressHash = addressHash P input.userAddress := by
  rw [spec.newAddressHash]
  split
  · rfl
  · rename_i hset
    refine (spec.address.redeposit ht ?_).symm
    rw [SlotInput.isAddressSetter, ht] at hset
    simpa using hset

/-- No slot changes an address that the leaf commits. -/
theorem EffectsSpec.address_kept (spec : EffectsSpec P G input e)
    (h : committed input.oldAddressHash ≠ zeroLimbs) : e.newAddressHash = input.oldAddressHash := by
  rw [spec.newAddressHash, if_neg]
  intro hset
  rw [SlotInput.isAddressSetter, Bool.and_eq_true] at hset
  exact h (committed_of_allZero hset.2)

theorem Step.address_of_deposit (h : Step P G s a s') {u : UserId} (hu : a.account = u)
    (ht : a.input.txType = txDeposit) :
    (s'.ledger u).address = committed (addressHash P a.input.userAddress) := by
  rw [(h.address_eq hu).2, h.spec.address_of_deposit ht]

theorem Step.address_kept (h : Step P G s a s') {u : UserId}
    (hs : (s.ledger u).address ≠ zeroLimbs) : (s'.ledger u).address = (s.ledger u).address := by
  by_cases hu : a.account = u
  · obtain ⟨hold, hnew⟩ := h.address_eq hu
    rw [hold] at hs
    rw [hold, hnew, h.spec.address_kept hs]
  · rw [h.frame u (Ne.symm hu)]

/-- Every deposit leaves the truncated hash of its address in the leaf; no slot changes an address
once it is set; and along every run from a set address all deposits on the account carry it. -/
theorem deposit_address_over_runs :
    (∀ s a s', Step P G s a s' → a.input.txType = txDeposit →
      (s'.ledger a.account).address = committed (addressHash P a.input.userAddress)) ∧
    (∀ s a s' u, Step P G s a s' → (s.ledger u).address ≠ zeroLimbs →
      (s'.ledger u).address = (s.ledger u).address) ∧
    ∀ s as s' u, Run P G s as s' → (s.ledger u).address ≠ zeroLimbs →
      (s'.ledger u).address = (s.ledger u).address ∧
        ∀ a ∈ as, a.account = u → a.input.txType = txDeposit →
          committed (addressHash P a.input.userAddress) = (s.ledger u).address := by
  refine ⟨fun s a s' h ht => h.address_of_deposit rfl ht, fun s a s' u h hs => h.address_kept hs,
    fun s as s' u hrun hs => ?_⟩
  refine hrun.invariant_labels (P := fun t => (t.ledger u).address = (s.ledger u).address)
    (fun t a t' ht h => ?_) rfl
  have hkept := (h.address_kept (by rw [ht]; exact hs)).trans ht
  exact ⟨hkept, fun hu hdep => (h.address_of_deposit hu hdep).symm.trans hkept⟩

/-- A deposit of user 5 after the registration. -/
def deposit : SlotInput :=
  { registrationEffects.playerSlot (zeroSiblings sumHash) with
    txType := txDeposit
    amount := 20 }

theorem deposit_address_after_registration : ∃ s e s',
    Run sumHash evenCore s [⟨deposit, e⟩] s' ∧ (s'.ledger 5).address = (s.ledger 5).address ∧
      committed (addressHash sumHash deposit.userAddress) = (s.ledger 5).address := by
  obtain ⟨s, hreg⟩ := registration_step
  obtain ⟨e, he⟩ : ∃ e, validateSlot sumHash evenCore deposit = .ok e :=
    Checked.exists_of_isOk (by decide +kernel)
  have hdep := hreg.next (b := ⟨deposit, e⟩) he ⟨rfl, rfl, rfl, rfl⟩
  have hset : (s.ledger 5).address ≠ zeroLimbs := by
    rw [(hreg.address_eq (by decide)).2]
    decide
  have hrun : Run sumHash evenCore s [⟨deposit, e⟩] _ := .snoc .nil hdep
  obtain ⟨hkept, hall⟩ := deposit_address_over_runs.2.2 _ _ _ 5 hrun hset
  have hdeposit := hall _ (List.mem_singleton_self _)
    (show deposit.account = 5 by decide) (show deposit.txType = txDeposit by decide)
  exact ⟨s, e, _, hrun, hkept, hdeposit⟩

/-! ### Key registrations -/

/-- An account with a key has an address. -/
def Leaf.KeyAddressed (l : Leaf) : Prop := l.pk ≠ zeroLimbs → l.address ≠ zeroLimbs

/-- The emptiness test on the old address sees what the leaf commits, when the slot installs a
key. -/
def SlotInput.addressCommitted (input : SlotInput) : Prop :=
  input.isKeySetter = true → emptinessCommitted input.oldAddressHash = true

theorem isAddressSetter_of_committed (hkey : input.isKeySetter = true)
    (hc : emptinessCommitted input.oldAddressHash = true)
    (hzero : committed input.oldAddressHash = zeroLimbs) : input.isAddressSetter = true := by
  have hempty : allZero (committed input.oldAddressHash).toList = true := by
    rw [allZero_committed, ← committed_eq_zero, hzero]
  rw [SlotInput.isAddressSetter, hkey, Bool.or_true, Bool.true_and, beq_iff_eq.mp hc, hempty]

theorem EffectsSpec.keyAddressed (spec : EffectsSpec P G input e)
    (haddr : ∀ x, committed (addressHash P x) ≠ zeroLimbs) (hgood : input.addressCommitted)
    (hold : input.oldLeaf.KeyAddressed) : e.newLeaf.KeyAddressed := by
  intro hpk
  change committed e.newPkHash ≠ zeroLimbs at hpk
  show committed e.newAddressHash ≠ zeroLimbs
  rw [spec.newAddressHash]
  split
  · exact haddr _
  · rename_i hset
    cases hkey : input.isKeySetter with
    | true => exact fun hzero => hset (isAddressSetter_of_committed hkey (hgood hkey) hzero)
    | false =>
      -- Without a new key the old one was there, and so was its address.
      rw [spec.newPkHash_of_not_setter hkey] at hpk
      exact hold hpk

/-- An accepted slot that installs a key on a leaf without an address stamps the address exactly
when its emptiness test sees the committed limbs; in a run where every such test does, an account
with a key has an address. -/
theorem key_installed_with_address_iff (haddr : ∀ x, committed (addressHash P x) ≠ zeroLimbs) :
    (∀ input e, validateSlot P G input = .ok e → input.isKeySetter = true →
      committed input.oldAddressHash = zeroLimbs →
      (e.newAddressHash = addressHash P input.userAddress ↔
        emptinessCommitted input.oldAddressHash = true)) ∧
    ∀ s as s', Run P G s as s' → s.ledger = Ledger.zero →
      (∀ a ∈ as, a.input.isKeySetter = true → emptinessCommitted a.input.oldAddressHash = true) →
      ∀ u, (s'.ledger u).pk ≠ zeroLimbs → (s'.ledger u).address ≠ zeroLimbs := by
  constructor
  · intro input e h hkey hzero
    have hnew := (validateSlot_eq_ok.mp h).2.newAddressHash
    constructor
    · intro hstamped
      have hempty : allZero (committed input.oldAddressHash).toList = true :=
        allZero_committed.mpr (committed_eq_zero.mp hzero)
      rw [emptinessCommitted, hempty, beq_true]
      by_contra hfull
      -- The test finds limb 2 or 3, so the slot keeps an address that commits none.
      rw [if_neg (by simp [SlotInput.isAddressSetter, hfull])] at hnew
      exact haddr _ (by rw [← hstamped, hnew, hzero])
    · intro hc
      rw [hnew, if_pos (isAddressSetter_of_committed hkey hc hzero)]
  · intro s as s' hrun hs hgood u
    have hzero : ∀ u, (s.ledger u).KeyAddressed := by
      rw [hs]
      exact fun _ hpk => absurd rfl hpk
    exact Transition.Run.invariant (P := fun s : State => ∀ u, (s.ledger u).KeyAddressed)
      (fun _ _ _ hs h u => h.2.keeps (p := Leaf.KeyAddressed)
        (h.2.spec.keyAddressed haddr h.1) (hs u)) (hrun.restrict hgood) hzero u

theorem key_installed_with_address_slots : ∃ s, Run sumHash evenCore emptyState slots s ∧
    ((s.ledger 5).pk ≠ zeroLimbs → (s.ledger 5).address ≠ zeroLimbs) := by
  obtain ⟨s, hrun⟩ := slots_run
  have hgood : ∀ a ∈ slots, a.input.isKeySetter = true →
      emptinessCommitted a.input.oldAddressHash = true := by
    decide
  exact ⟨s, hrun, (key_installed_with_address_iff sumHash_address).2 _ _ _ hrun rfl hgood 5⟩

/-- A registration that carries a limb of no address. -/
def strayRegistration : SlotInput := SlotInput.commit sumHash {
  registration with oldAddressHash := Vector.ofFn fun i => if i.val = 2 then 1 else 0 }

theorem stray_registration_unaddressed :
    (∀ x, committed (addressHash sumHash x) ≠ zeroLimbs) ∧
      ¬∀ as s, Run sumHash evenCore emptyState as s → ∀ u, (s.ledger u).pk ≠ zeroLimbs →
        (s.ledger u).address ≠ zeroLimbs := by
  refine ⟨sumHash_address, fun hclaim => ?_⟩
  obtain ⟨e, he⟩ : ∃ e, validateSlot sumHash evenCore strayRegistration = .ok e :=
    Checked.exists_of_isOk (by decide +kernel)
  have hstep := Step.of_accepted (s := emptyState) (a := ⟨strayRegistration, e⟩) he
    (show strayRegistration.currentRoot = registration.currentRoot by rfl)
    (show strayRegistration.currentTl = 0 by decide)
    (show Account.zero.toLeaf = strayRegistration.oldLeaf by decide)
  have hspec := (validateSlot_eq_ok.mp he).2
  have huser : strayRegistration.account = 5 := by decide
  obtain ⟨-, hpk⟩ := hstep.part_eq huser Leaf.pk
  obtain ⟨-, haddress⟩ := hstep.address_eq huser
  refine hclaim _ _ (.snoc .nil hstep) 5 ?_ ?_
  · rw [hpk]
    show committed e.newPkHash ≠ zeroLimbs
    rw [hspec.newPkHash_of_setter (by decide)]
    decide
  · rw [haddress]
    show committed e.newAddressHash = zeroLimbs
    rw [hspec.newAddressHash, if_neg (by decide)]
    decide

end TxValidator
