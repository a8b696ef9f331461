import TxValidator.Ledger

/-! The states that the validator accepts are closed under its own transitions: what an accepted
slot leaves passes the always-on checks of the next slot, and a `noop` returns it unchanged. -/

namespace TxValidator

variable {P : Poseidon2Hash} {G : GameCore} {input next : SlotInput} {e : SlotEffects}

/-- A candidate on the state that an accepted slot leaves: its old fields, root and total liability
are the effects of that slot, and its remaining fields are canonical. -/
structure FollowUp (input : SlotInput) (e : SlotEffects) (next : SlotInput) : Prop where
  userId : next.userId = input.userId
  mainSiblings : next.mainSiblings = input.mainSiblings
  oldBalance : next.oldBalance = e.newBalance
  oldDepositCredit : next.oldDepositCredit = e.newCredit
  oldSeedHash : next.oldSeedHash = e.newSeedHash
  oldNonce : next.oldNonce = e.newNonce
  oldProviderAllowance : next.oldProviderAllowance = e.newProviderAllowance
  oldPkHash : next.oldPkHash = e.newPkHash
  oldAddressHash : next.oldAddressHash = e.newAddressHash
  currentRoot : next.currentRoot = e.newRoot
  oldTotalLiability : next.oldTotalLiability = e.newTotalLiability
  currentTl : next.currentTl = e.newTotalLiability
  txType : next.txType ≤ maxTxType
  amount : isCanonical next.amount = true
  winAmount : isCanonical next.winAmount = true
  serverSeed : allCanonical next.serverSeed.toList = true
  userSeed : allCanonical next.userSeed.toList = true
  nextServerSeedHash : allCanonical next.nextServerSeedHash.toList = true
  newPkHash : allCanonical next.newPkHash.toList = true
  predictionHash : allCanonical next.predictionHash.toList = true
  userSecretRandom : allCanonical next.userSecretRandom.toList = true

/-- The new root of an accepted slot is the one that a follow-up is checked against. -/
theorem FollowUp.root (hnext : FollowUp input e next) (spec : EffectsSpec P G input e) :
    computeOldRoot P next = next.currentRoot := by
  rw [computeOldRoot, hnext.currentRoot, spec.newRoot, computeNewRoot, hnext.oldBalance,
    hnext.oldSeedHash, hnext.oldDepositCredit, hnext.oldNonce, hnext.oldProviderAllowance,
    hnext.oldPkHash, hnext.oldAddressHash, hnext.mainSiblings, hnext.userId]

theorem FollowUp.on (hnext : FollowUp input e next) (on : AlwaysOn P input)
    (spec : EffectsSpec P G input e) : AlwaysOn P next := by
  obtain ⟨hseed, hpk, haddress⟩ := on.new_canonical spec
  obtain ⟨-, -, -, -, -, -, -, -, -, -, hsiblings⟩ := fieldsCanonical_iff.mp on.canonical
  refine ⟨hnext.txType, fieldsCanonical_iff.mpr ?_, hnext.amount, hnext.winAmount, ?_, ?_,
    hnext.root spec, ?_⟩
  · rw [hnext.oldSeedHash, hnext.oldNonce, hnext.oldPkHash, hnext.oldAddressHash,
      hnext.mainSiblings]
    exact ⟨hnext.serverSeed, hnext.userSeed, hseed, hnext.nextServerSeedHash,
      isCanonical_of_lt spec.nonce.new_lt, hpk, hnext.newPkHash, haddress, hnext.predictionHash,
      hnext.userSecretRandom, hsiblings⟩
  · rw [hnext.oldProviderAllowance]
    exact spec.allowance.le_max
  · rw [hnext.userId]
    exact on.userId
  · rw [hnext.oldTotalLiability, hnext.currentTl]

/-! ### Noops -/

/-- The effects of a slot that changes nothing. -/
def SlotInput.idleEffects (input : SlotInput) : SlotEffects where
  newBalance := input.oldBalance
  newCredit := input.oldDepositCredit
  newSeedHash := input.oldSeedHash
  newNonce := input.oldNonce
  newGameNonce := (splitNonce input.oldNonce).2
  newAccountNonce := (splitNonce input.oldNonce).1
  newProviderAllowance := input.oldProviderAllowance
  newPkHash := input.oldPkHash
  newAddressHash := input.oldAddressHash
  newRoot := input.currentRoot
  newTotalLiability := input.oldTotalLiability
  random := zeroDigest
  slotH := zeroDigest
  isMultisetSlot := false

theorem noop_spec (on : AlwaysOn P input) (ht : input.txType = txNoop)
    (hrec : input.recipientAddrHash = zeroLimbs) (hnonce : input.oldNonce.toNat < 2 ^ 63) :
    EffectsSpec P G input input.idleEffects := by
  have hadd : input.addAmount = 0 := by rw [SlotInput.addAmount, ht]; rfl
  have hsub : input.subAmount = 0 := by rw [SlotInput.subAmount, ht]; rfl
  have hcredit : input.creditAdd = 0 := by rw [SlotInput.creditAdd, ht]; rfl
  have hcaps : input.capsCredit = false := by rw [SlotInput.capsCredit, ht]; rfl
  have hkey : input.isKeySetter = false := by rw [SlotInput.isKeySetter, ht]; rfl
  have haddress : input.isAddressSetter = false := by
    rw [SlotInput.isAddressSetter, hkey, ht]
    rfl
  have hsigned : input.isSigned = false := by rw [SlotInput.isSigned, ht]; rfl
  have hgameLane : input.bumpsGameLane = false := by rw [SlotInput.bumpsGameLane, ht]; rfl
  have haccountLane : input.bumpsAccountLane = false := by
    rw [SlotInput.bumpsAccountLane, hkey, ht]
    rfl
  have hgame : input.isGame = false := by rw [SlotInput.isGame, ht]; rfl
  have hwrites : input.writesSeed = false := by rw [SlotInput.writesSeed, ht]; rfl
  have hbalance := input.oldBalance.toNat_lt
  have holdCredit := input.oldDepositCredit.toNat_lt
  have htl := input.oldTotalLiability.toNat_lt
  have hother : ∀ t, t ≠ txNoop → input.txType ≠ t := fun t hne h => hne (h.symm.trans ht)
  constructor
  case setInitAccount => exact fun h => absurd h (hother _ (by decide))
  case betAccount => exact fun h => absurd h (hother _ (by decide))
  case balance =>
    constructor <;> simp [hadd, hsub, hcredit, hcaps, hbalance, holdCredit, SlotInput.idleEffects]
  case allowance =>
    exact ⟨on.allowance, fun h => absurd h (hother _ (by decide)),
      fun h => absurd h (hother _ (by decide)), fun _ _ => rfl⟩
  case riskReject => exact fun h => absurd h (hother _ (by decide))
  case address =>
    refine ⟨rfl, by rw [hkey]; rfl, fun h => absurd h (hother _ (by decide)), ?_⟩
    rw [haddress]
    rfl
  case recipient => rw [hrec, recipientAddrHashFor, ht]; rfl
  case key => exact fun h => absurd h (by simp [hsigned])
  case nonce =>
    rw [hgameLane, haccountLane]
    exact ⟨hnonce, fun h => absurd h Bool.false_ne_true, fun h => absurd h Bool.false_ne_true, rfl⟩
  case lanes => rfl
  case game => exact fun h => absurd h (by simp [hgame])
  case noGame => exact fun _ => ⟨rfl, rfl⟩
  case multiset => exact hgame.symm
  case seedCommit => exact fun h => absurd h (by simp [hwrites])
  case seed => rw [hwrites]; rfl
  case tlFits => simpa [hadd] using htl
  case tlCovered => simp [hsub]
  case newTl => simp [hadd, hsub, SlotInput.idleEffects]
  case newRoot => exact on.root.symm

/-- The state after an accepted slot passes every always-on check of a follow-up, with a nonce in
range; and a `noop` on it is accepted and returns that state, with its root and total liability. -/
theorem accepted_state_accepted (h : validateSlot P G input = .ok e)
    (hnext : FollowUp input e next) :
    AlwaysOn P next ∧ validateSlot P G next = computeEffects P G next ∧
      next.oldNonce.toNat < 2 ^ 63 ∧
      (next.txType = txNoop → next.recipientAddrHash = zeroLimbs → validateSlot P G next =
        .ok { e with random := zeroDigest, slotH := zeroDigest, isMultisetSlot := false }) := by
  obtain ⟨on, spec⟩ := validateSlot_eq_ok.mp h
  have hon := hnext.on on spec
  have hnonce : next.oldNonce.toNat < 2 ^ 63 := by
    rw [hnext.oldNonce]
    exact spec.nonce.new_lt
  refine ⟨hon, validateSlot_eq_computeEffects hon, hnonce, fun ht hrec => ?_⟩
  rw [validateSlot_eq_ok.mpr ⟨hon, noop_spec hon ht hrec hnonce⟩]
  refine congrArg Except.ok (SlotEffects.ext hnext.oldBalance hnext.oldDepositCredit
    hnext.oldSeedHash hnext.oldNonce ?_ ?_ hnext.oldProviderAllowance hnext.oldPkHash
    hnext.oldAddressHash hnext.currentRoot hnext.oldTotalLiability rfl rfl rfl)
  · rw [spec.newGameNonce_eq, ← hnext.oldNonce]
    rfl
  · rw [spec.newAccountNonce_eq, ← hnext.oldNonce]
    rfl

/-- A `noop` on the state after the registration. -/
def idleSlot : SlotInput := SlotInput.commit sumHash {
  grant with
  txType := txNoop
  oldBalance := 0
  oldNonce := accountLaneUnit
  oldSeedHash := registrationEffects.newSeedHash
  oldTotalLiability := 0 }

theorem registration_state_accepted : validateSlot sumHash evenCore idleSlot = .ok
    { registrationEffects with random := zeroDigest, slotH := zeroDigest,
                               isMultisetSlot := false } :=
  (accepted_state_accepted registration_ok
    (show FollowUp registration registrationEffects idleSlot by
      constructor <;> decide +kernel)).2.2.2 rfl rfl

end TxValidator
