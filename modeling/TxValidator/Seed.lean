import TxValidator.Ledger

/-! Seed commitments along a run: who writes them, that a written commitment is never zero, and that
an `in_house_bet` reveals the latest one. -/

namespace TxValidator

open Transition (latest)

variable {P : Poseidon2Hash} {G : GameCore} {input : SlotInput} {e : SlotEffects} {s s' : State}
  {a : Slot} {as : List Slot}

theorem allZero_seed {v : Vector UInt64 3} : allZero v.toList = true ↔ v = zeroSeed := by
  constructor
  · intro h
    have hzero := allZero_iff.mp h
    exact seed_ext (hzero _ (by simp)) (hzero _ (by simp)) (hzero _ (by simp))
  · rintro rfl
    rfl

theorem allZero_seed_false {v : Vector UInt64 3} : allZero v.toList = false ↔ v ≠ zeroSeed := by
  rw [← Bool.not_eq_true, allZero_seed]

/-! ### One slot -/

theorem AlwaysOn.account_eq_zero (on : AlwaysOn P input) :
    input.account = 0 ↔ input.userId = 0 := by
  rw [← Fin.val_inj, on.account_val, ← UInt32.toNat_inj]
  rfl

theorem writesSeed_iff : input.writesSeed = true ↔
    input.txType = txInHouseBet ∨ input.txType = txSetInitSeedHash ∨
      (input.txType = txKeyRegisterOnly ∧ input.oldSeedHash = zeroSeed) := by
  rw [SlotInput.writesSeed, Bool.or_eq_true, Bool.or_eq_true, Bool.and_eq_true, beq_iff_eq,
    beq_iff_eq, beq_iff_eq, allZero_seed, or_assoc]

/-- A slot that writes a seed, or finds one, leaves one. -/
theorem EffectsSpec.newSeed_ne_zero (spec : EffectsSpec P G input e)
    (h : input.writesSeed = true ∨ input.oldSeedHash ≠ zeroSeed) : e.newSeedHash ≠ zeroSeed := by
  rw [spec.seed]
  split
  · rename_i hw
    exact allZero_seed_false.mp (spec.seedCommit hw)
  · rename_i hw
    exact h.resolve_left hw

theorem EffectsSpec.newSeed_ne_old (spec : EffectsSpec P G input e)
    (h : e.newSeedHash ≠ input.oldSeedHash) : input.writesSeed = true := by
  by_contra hw
  rw [spec.seed, if_neg hw] at h
  exact h rfl

theorem Step.seed_eq (h : Step P G s a s') {u : UserId} (hu : a.account = u) :
    (s.ledger u).seedHash = a.input.oldSeedHash ∧
      (s'.ledger u).seedHash = a.effects.newSeedHash :=
  h.part_eq hu Leaf.seedHash

/-- When the marked slots of account `u` are those that write its seed, a step installs the next
seed on a marked slot and keeps the seed on any other. -/
theorem Step.seed_of_marked (h : Step P G s a s') {u : UserId} {marked : Slot → Bool}
    (haccount : marked a = true → a.account = u)
    (hwrites : a.account = u → (a.input.writesSeed = true ↔ marked a = true)) :
    (s'.ledger u).seedHash =
      if marked a then a.input.nextServerSeedHash else (s.ledger u).seedHash := by
  by_cases hu : a.account = u
  · obtain ⟨hold, hnew⟩ := h.seed_eq hu
    rw [hold, hnew, h.spec.seed]
    simp only [hwrites hu]
  · rw [if_neg fun hm => hu (haccount hm), h.frame u (Ne.symm hu)]

/-! ### User accounts -/

/-- The slot writes the seed of the user account `u`: an `in_house_bet`, or a `key_register_only`
that finds the seed zero. -/
def Slot.commitsSeed (u : UserId) (a : Slot) : Bool :=
  a.account == u && (a.input.txType == txInHouseBet ||
    (a.input.txType == txKeyRegisterOnly && a.input.oldSeedHash == zeroSeed))

theorem Slot.commitsSeed_iff {u : UserId} : a.commitsSeed u = true ↔ a.account = u ∧
    (a.input.txType = txInHouseBet ∨
      (a.input.txType = txKeyRegisterOnly ∧ a.input.oldSeedHash = zeroSeed)) := by
  simp only [Slot.commitsSeed, Bool.and_eq_true, Bool.or_eq_true, beq_iff_eq]

theorem Step.seed (h : Step P G s a s') {u : UserId} (hu : u ≠ 0) :
    (s'.ledger u).seedHash =
      if a.commitsSeed u then a.input.nextServerSeedHash else (s.ledger u).seedHash := by
  refine h.seed_of_marked (fun hc => (Slot.commitsSeed_iff.mp hc).1) fun hacc => ?_
  have hset : a.input.txType ≠ txSetInitSeedHash := fun ht =>
    hu (hacc ▸ h.on.account_eq_zero.mpr (h.spec.setInitAccount ht))
  rw [writesSeed_iff, Slot.commitsSeed_iff]
  constructor
  · rintro (hb | hs | hk)
    · exact ⟨hacc, Or.inl hb⟩
    · exact absurd hs hset
    · exact ⟨hacc, Or.inr hk⟩
  · rintro ⟨-, hb | hk⟩
    · exact Or.inl hb
    · exact Or.inr (Or.inr hk)

theorem Step.seed_ne_zero (h : Step P G s a s') {u : UserId}
    (hs : (s.ledger u).seedHash ≠ zeroSeed) : (s'.ledger u).seedHash ≠ zeroSeed :=
  h.keeps (p := fun l => l.seedHash ≠ zeroSeed)
    (fun hold => h.spec.newSeed_ne_zero (Or.inr hold)) hs

/-- The key limbs of an account without a seed are zero. -/
def Leaf.KeySeeded (l : Leaf) : Prop := l.pk ≠ zeroLimbs → l.seedHash ≠ zeroSeed

/-- A slot that installs a key installs or finds a seed. -/
theorem EffectsSpec.keySeeded (spec : EffectsSpec P G input e) (hs : input.oldLeaf.KeySeeded) :
    e.newLeaf.KeySeeded := by
  intro hpk
  change committed e.newPkHash ≠ zeroLimbs at hpk
  show e.newSeedHash ≠ zeroSeed
  by_cases hold : input.oldSeedHash = zeroSeed
  · -- Without a seed there was no key, so this slot is the one that installs it.
    refine spec.newSeed_ne_zero (Or.inl (writesSeed_iff.mpr (Or.inr (Or.inr ⟨?_, hold⟩))))
    by_contra ht
    have hkeep : input.isKeySetter = false := by
      rw [SlotInput.isKeySetter, beq_false_of_ne ht, Bool.false_and]
    rw [spec.newPkHash_of_not_setter hkeep] at hpk
    exact hs hpk hold
  · exact spec.newSeed_ne_zero (Or.inr hold)

/-- From the empty ledger, the seed of a user account is what the latest slot that wrote it
committed, or zero; every accepted `in_house_bet` reveals it; once non-zero it stays non-zero; no
other slot changes it; and an account with a key has one. -/
theorem seed_chain_over_runs {u : UserId} (hrun : Run P G s as s') (hs : s.ledger = Ledger.zero)
    (hu : u ≠ 0) :
    (∀ a s'', Step P G s' a s'' → a.account = u → a.input.txType = txInHouseBet →
      seedHashTruncated P a.input.serverSeed = (s'.ledger u).seedHash ∧
        (s'.ledger u).seedHash =
          ((latest (Slot.commitsSeed u) as).map fun b => b.input.nextServerSeedHash).getD
            zeroSeed) ∧
      (∀ bs s'', Run P G s' bs s'' → (s'.ledger u).seedHash ≠ zeroSeed →
        (s''.ledger u).seedHash ≠ zeroSeed) ∧
      (∀ a s'', Step P G s' a s'' → (s''.ledger u).seedHash ≠ (s'.ledger u).seedHash →
        a.account = u ∧ (a.input.txType = txInHouseBet ∨
          (a.input.txType = txKeyRegisterOnly ∧ (s'.ledger u).seedHash = zeroSeed))) ∧
      ((s'.ledger u).pk ≠ zeroLimbs → (s'.ledger u).seedHash ≠ zeroSeed) := by
  refine ⟨fun a s'' h hacc ht => ⟨?_, ?_⟩, fun bs s'' hrun' hseed => ?_, fun a s'' h hne => ?_, ?_⟩
  · rw [(h.seed_eq hacc).1]
    exact (h.spec.game (isGame_of_inHouseBet ht)).seedChain ht
  · have hlatest := Transition.Run.latest_of_step (p := Slot.commitsSeed u)
      (fun s : State => (s.ledger u).seedHash)
      (fun b : Slot => b.input.nextServerSeedHash) (fun _ _ _ h => h.seed hu) hrun
    rw [hlatest, hs]
    rfl
  · exact Transition.Run.invariant (P := fun s : State => (s.ledger u).seedHash ≠ zeroSeed)
      (fun _ _ _ hs h => h.seed_ne_zero hs) hrun' hseed
  · rw [h.seed hu] at hne
    by_cases hc : a.commitsSeed u = true
    · obtain ⟨hacc, htype⟩ := Slot.commitsSeed_iff.mp hc
      rw [(h.seed_eq hacc).1]
      exact ⟨hacc, htype⟩
    · rw [if_neg hc] at hne
      exact absurd rfl hne
  · have hzero : (s.ledger u).KeySeeded := by
      rw [hs]
      exact fun hpk => absurd rfl hpk
    exact Transition.Run.invariant (P := fun s : State => (s.ledger u).KeySeeded)
      (fun _ _ _ hs h => h.keeps h.spec.keySeeded hs) hrun hzero

theorem seed_chain_over_slots : ∃ s, Run sumHash evenCore emptyState slots s ∧
    ((s.ledger 5).pk ≠ zeroLimbs → (s.ledger 5).seedHash ≠ zeroSeed) := by
  obtain ⟨s, hrun⟩ := slots_run
  exact ⟨s, hrun, (seed_chain_over_runs hrun rfl (by decide)).2.2.2⟩

/-! ### The crash house account -/

/-- The slot is a `set_init_seed_hash`. -/
def Slot.setsInit (a : Slot) : Bool := a.input.txType == txSetInitSeedHash

/-- The slot is a `key_register_only` that finds no seed. -/
def SlotInput.isFirstRegistration (input : SlotInput) : Prop :=
  input.txType = txKeyRegisterOnly ∧ input.oldSeedHash = zeroSeed

/-- On account 0 a slot writes the seed by `set_init_seed_hash` or as a first registration. -/
theorem writesSeed_zero (on : AlwaysOn P input) (spec : EffectsSpec P G input e)
    (hu : input.account = 0) : input.writesSeed = true ↔
      input.txType = txSetInitSeedHash ∨ input.isFirstRegistration := by
  rw [writesSeed_iff]
  constructor
  · rintro (hb | hs | hk)
    · exact absurd (on.account_eq_zero.mp hu) (spec.betAccount hb)
    · exact Or.inl hs
    · exact Or.inr hk
  · exact Or.inr

theorem Step.crashSeed (h : Step P G s a s')
    (hgood : a.account = 0 → ¬a.input.isFirstRegistration) :
    (s'.ledger 0).seedHash =
      if a.setsInit then a.input.nextServerSeedHash else (s.ledger 0).seedHash := by
  refine h.seed_of_marked (fun hs => ?_) fun hu => ?_
  · exact h.on.account_eq_zero.mpr (h.spec.setInitAccount (beq_iff_eq.mp hs))
  · rw [writesSeed_zero h.on h.spec hu, or_iff_left (hgood hu)]
    exact beq_iff_eq.symm

theorem Run.houseSeed (h : Run P G s as s') (hs : (s.ledger 0).seedHash = zeroSeed)
    (hgood : ∀ a ∈ as, a.account = 0 → ¬a.input.isFirstRegistration) : (s'.ledger 0).seedHash =
      ((latest Slot.setsInit as).map fun a => a.input.nextServerSeedHash).getD zeroSeed := by
  have hlatest := Transition.Run.latest_of_step (p := Slot.setsInit)
    (fun s : State => (s.ledger 0).seedHash) (fun a : Slot => a.input.nextServerSeedHash)
    (fun _ _ _ h => h.2.crashSeed h.1) (h.restrict hgood)
  rw [hlatest, hs]

/-- An accepted slot of account 0 changes the seed by `set_init_seed_hash` only, exactly when it is
not a first registration; in a run without first registrations of account 0, its seed is what the
latest `set_init_seed_hash` committed, or zero. -/
theorem crash_seed_set_init_iff :
    (∀ input e, validateSlot P G input = .ok e → input.userId = 0 →
      ((e.newSeedHash ≠ input.oldSeedHash → input.txType = txSetInitSeedHash) ↔
        ¬input.isFirstRegistration)) ∧
    ∀ s as s', Run P G s as s' → (s.ledger 0).seedHash = zeroSeed →
      (∀ a ∈ as, a.account = 0 → ¬a.input.isFirstRegistration) →
      (s'.ledger 0).seedHash =
        ((latest Slot.setsInit as).map fun a => a.input.nextServerSeedHash).getD zeroSeed := by
  constructor
  · intro input e h hzero
    obtain ⟨on, spec⟩ := validateSlot_eq_ok.mp h
    have hwrites := writesSeed_zero on spec (on.account_eq_zero.mpr hzero)
    constructor
    · intro hclaim hfirst
      have hnew : e.newSeedHash ≠ input.oldSeedHash := by
        rw [hfirst.2]
        exact spec.newSeed_ne_zero (Or.inl (hwrites.mpr (Or.inr hfirst)))
      have htype := (hclaim hnew).symm.trans hfirst.1
      exact absurd htype (by decide)
    · intro hno hnew
      exact (hwrites.mp (spec.newSeed_ne_old hnew)).resolve_right hno
  · intro s as s' hrun hs hgood
    exact hrun.houseSeed hs hgood

theorem crash_seed_over_slots :
    (houseCommitEffects.newSeedHash ≠ houseCommit.oldSeedHash →
      houseCommit.txType = txSetInitSeedHash) ∧
    ∃ s, Run sumHash evenCore emptyState playerSlots s ∧
      (s.ledger 0).seedHash = houseCommit.nextServerSeedHash := by
  obtain ⟨hone, hruns⟩ := crash_seed_set_init_iff (P := sumHash) (G := evenCore)
  obtain ⟨s, hrun⟩ := player_run
  have hgood : ∀ a ∈ playerSlots, a.account = 0 → ¬a.input.isFirstRegistration := by
    unfold SlotInput.isFirstRegistration
    decide
  have hcommit : ¬houseCommit.isFirstRegistration := by
    unfold SlotInput.isFirstRegistration
    decide
  exact ⟨(hone _ _ houseCommit_ok rfl).mpr hcommit,
    s, hrun, (hruns _ _ _ hrun rfl hgood).trans (by decide)⟩

/-- A key registration of the house account on the empty ledger. -/
def houseRegistration : SlotInput := SlotInput.commit sumHash {
  registration with userId := 0 }

theorem house_registration_accepted :
    ¬∀ input e, validateSlot sumHash evenCore input = .ok e → input.userId = 0 →
      e.newSeedHash ≠ input.oldSeedHash → input.txType = txSetInitSeedHash := by
  intro hclaim
  obtain ⟨e, he⟩ : ∃ e, validateSlot sumHash evenCore houseRegistration = .ok e :=
    Checked.exists_of_isOk (by decide +kernel)
  have hnew : e.newSeedHash ≠ zeroSeed :=
    (validateSlot_eq_ok.mp he).2.newSeed_ne_zero (Or.inl (by decide))
  exact absurd (hclaim houseRegistration e he rfl hnew) (by decide)

/-! ### Seeds and keys -/

theorem allZero_digest {d : Digest} : allZero d.toList = true ↔ d = zeroDigest := by
  constructor
  · intro h
    have hzero := allZero_iff.mp h
    exact digest_ext (hzero _ (by simp)) (hzero _ (by simp)) (hzero _ (by simp)) (hzero _ (by simp))
  · rintro rfl
    rfl

/-- A slot that installs no key, writes no seed and moves no money leaves the leaf unchanged. -/
theorem EffectsSpec.newLeaf_of_idle_registration (spec : EffectsSpec P G input e)
    (ht : input.txType = txKeyRegisterOnly) (hpk : input.newPkHash = zeroDigest)
    (hseed : input.oldSeedHash ≠ zeroSeed) : e.newLeaf = input.oldLeaf := by
  have hkey : input.isKeySetter = false := by
    rw [SlotInput.isKeySetter, allZero_digest.mpr hpk, Bool.not_true, Bool.and_false]
  have haddr : input.isAddressSetter = false := by
    rw [SlotInput.isAddressSetter, hkey, ht]
    rfl
  have hwrites : input.writesSeed = false := by
    rw [SlotInput.writesSeed, allZero_seed_false.mpr hseed, ht]
    rfl
  have hadd : input.addAmount = 0 := by rw [SlotInput.addAmount, ht]; rfl
  have hsub : input.subAmount = 0 := by rw [SlotInput.subAmount, ht]; rfl
  have hcadd : input.creditAdd = 0 := by rw [SlotInput.creditAdd, ht]; rfl
  have hcap : input.capsCredit = false := by rw [SlotInput.capsCredit, ht]; rfl
  have hgame : input.bumpsGameLane = false := by rw [SlotInput.bumpsGameLane, ht]; rfl
  have hacct : input.bumpsAccountLane = false := by
    rw [SlotInput.bumpsAccountLane, hkey, ht]
    rfl
  have hbal : e.newBalance.toNat = _ := spec.balance.newBalance
  have hcredit : e.newCredit.toNat = _ := spec.balance.newCredit
  have hnonce := spec.nonce.new
  refine Leaf.ext (UInt64.toNat_inj.mp ?_) (UInt64.toNat_inj.mp ?_) ?_ (UInt64.toNat_inj.mp ?_)
    (spec.allowance.keep (by rw [ht]; decide) (by rw [ht]; decide)) ?_ ?_
  · rw [hadd, hsub] at hbal
    exact hbal
  · rw [hcadd, hcap] at hcredit
    exact hcredit
  · show e.newSeedHash = input.oldSeedHash
    rw [spec.seed, hwrites]
    rfl
  · rw [hgame, hacct] at hnonce
    exact hnonce
  · show committed e.newPkHash = committed input.oldPkHash
    rw [spec.newPkHash_of_not_setter hkey]
  · show committed e.newAddressHash = committed input.oldAddressHash
    rw [spec.newAddressHash, haddr]
    rfl

/-- An accepted slot installs a user's first seed together with a key only, and leaves the leaf
unchanged when it registers no key, exactly when it is not a first registration without a key. -/
theorem first_seed_with_key_iff (h : validateSlot P G input = .ok e) :
    ((input.userId ≠ 0 → input.oldSeedHash = zeroSeed → e.newSeedHash ≠ zeroSeed →
        input.txType ≠ txInHouseBet →
        input.txType = txKeyRegisterOnly ∧ input.newPkHash ≠ zeroDigest ∧
          e.newPkHash ≠ zeroDigest ∧
          e.newAccountNonce.toNat = (splitNonce input.oldNonce).1.toNat + 1) ∧
      (input.txType = txKeyRegisterOnly → input.newPkHash = zeroDigest →
        e.newLeaf = input.oldLeaf)) ↔
      ¬(input.isFirstRegistration ∧ input.newPkHash = zeroDigest) := by
  obtain ⟨on, spec⟩ := validateSlot_eq_ok.mp h
  constructor
  · rintro ⟨-, hidle⟩ ⟨hfirst, hpk⟩
    -- The slot claims to leave the leaf alone, but it commits a non-zero seed.
    have hsame : e.newSeedHash = input.oldSeedHash :=
      congrArg Leaf.seedHash (hidle hfirst.1 hpk)
    have hnew := spec.newSeed_ne_zero (Or.inl (writesSeed_iff.mpr (Or.inr (Or.inr hfirst))))
    exact hnew (hsame.trans hfirst.2)
  · intro hno
    constructor
    · intro huser hold hnew hbet
      have hwrites := spec.newSeed_ne_old (by rw [hold]; exact hnew)
      have ht : input.txType = txKeyRegisterOnly := by
        rcases writesSeed_iff.mp hwrites with hb | hs | hk
        · exact absurd hb hbet
        · exact absurd (spec.setInitAccount hs) huser
        · exact hk.1
      have hpk : input.newPkHash ≠ zeroDigest := fun hpk => hno ⟨⟨ht, hold⟩, hpk⟩
      have hkey : input.isKeySetter = true := isKeySetter_iff.mpr
        ⟨ht, Bool.eq_false_of_not_eq_true fun hz => hpk (allZero_digest.mp hz)⟩
      refine ⟨ht, hpk, spec.newPkHash_of_setter hkey ▸ hpk, ?_⟩
      have hlane := spec.nonce.accountLane
      rw [SlotInput.bumpsAccountLane, hkey, Bool.or_true] at hlane
      rw [spec.newAccountNonce_eq, (splitNonce_toNat _).1, (splitNonce_toNat _).1, hlane]
      rfl
    · intro ht hpk
      exact spec.newLeaf_of_idle_registration ht hpk fun hold => hno ⟨⟨ht, hold⟩, hpk⟩

theorem first_seed_with_key_registration :
    registration.newPkHash ≠ zeroDigest ∧
      registrationEffects.newAccountNonce.toNat =
        (splitNonce registration.oldNonce).1.toNat + 1 := by
  have hkey : ¬(registration.isFirstRegistration ∧ registration.newPkHash = zeroDigest) :=
    fun h => absurd h.2 (by decide)
  have hfirst := ((first_seed_with_key_iff registration_ok).mpr hkey).1 (by decide) rfl (by decide)
    (by decide)
  exact ⟨hfirst.2.1, hfirst.2.2.2⟩

/-- A registration without a key, on an account of the empty ledger. -/
def keylessRegistration : SlotInput := SlotInput.commit sumHash {
  registration with newPkHash := zeroDigest }

theorem keyless_registration_accepted :
    ¬∀ input e, validateSlot sumHash evenCore input = .ok e → input.userId ≠ 0 →
      input.oldSeedHash = zeroSeed → e.newSeedHash ≠ zeroSeed → input.txType ≠ txInHouseBet →
        input.txType = txKeyRegisterOnly ∧ input.newPkHash ≠ zeroDigest := by
  intro hclaim
  obtain ⟨e, he⟩ : ∃ e, validateSlot sumHash evenCore keylessRegistration = .ok e :=
    Checked.exists_of_isOk (by decide +kernel)
  have hnew : e.newSeedHash ≠ zeroSeed :=
    (validateSlot_eq_ok.mp he).2.newSeed_ne_zero (Or.inl (by decide))
  exact absurd rfl (hclaim keylessRegistration e he (by decide) rfl hnew (by decide)).2

end TxValidator
