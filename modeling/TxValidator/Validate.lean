import TxValidator.Balance
import TxValidator.Identity
import TxValidator.Fairness

/-! The validator: the always-on checks, the flag-driven effects, and `validateSlot`.  Its
specification, `validateSlot_eq_ok`, says what an accepted slot satisfies and determines every
effect; the later modules use it in place of the code. -/

namespace TxValidator

open Checked

section Checks

variable (P : Poseidon2Hash) (G : GameCore)

def checkTxType (input : SlotInput) : Except SlotRejection Unit :=
  failIf (input.txType > maxTxType) .badTxType

def checkStoredAllowanceRange (input : SlotInput) : Except SlotRejection Unit :=
  failIf (input.oldProviderAllowance > providerAllowanceMax) .providerAllowanceOverflow

def fieldsCanonical (input : SlotInput) : Bool :=
  allCanonical input.serverSeed.toList
    && allCanonical input.userSeed.toList
    && allCanonical input.oldSeedHash.toList
    && allCanonical input.nextServerSeedHash.toList
    && isCanonical input.oldNonce
    && allCanonical input.oldPkHash.toList
    && allCanonical input.newPkHash.toList
    && allCanonical input.oldAddressHash.toList
    && allCanonical input.predictionHash.toList
    && allCanonical input.userSecretRandom.toList
    && input.mainSiblings.toList.all fun s => allCanonical s.toList

def checkFieldCanonicity (input : SlotInput) : Except SlotRejection Unit :=
  if fieldsCanonical input then .ok () else .error .fieldNotCanonical

def checkAmountCanonicity (input : SlotInput) : Except SlotRejection Unit :=
  if isCanonical input.amount && isCanonical input.winAmount then .ok ()
  else .error .amountNotCanonical

def checkUserIdRange (input : SlotInput) : Except SlotRejection Unit :=
  if input.userId.toUInt64 < 1 <<< UInt64.ofNat treeDepth then .ok ()
  else .error .userIdOutOfRange

/-- The root that the old leaf of a slot reaches. -/
def computeOldRoot (input : SlotInput) : Digest :=
  let oldBalanceHash := balanceLeaf P input.oldBalance input.oldSeedHash input.oldDepositCredit
    input.oldNonce input.oldProviderAllowance
  computeRoot P oldBalanceHash input.oldPkHash input.oldAddressHash input.mainSiblings input.userId

def verifyCurrentRoot (input : SlotInput) : Except SlotRejection Unit :=
  if computeOldRoot P input = input.currentRoot then .ok () else .error .merkleRootMismatch

def computeNewRoot (newBalance : UInt64) (newSeedHash : Vector UInt64 3)
    (newCredit newNonce newAllowance : UInt64) (newPkHash newAddressHash : Digest)
    (siblings : Vector Digest treeDepth) (userId : UInt32) : Digest :=
  let newBalanceHash := balanceLeaf P newBalance newSeedHash newCredit newNonce newAllowance
  computeRoot P newBalanceHash newPkHash newAddressHash siblings userId

def computeEffects (input : SlotInput) : Except SlotRejection SlotEffects := do
  let flags := TxFlags.fromTxType input.txType
  failIf (flags.isSetInitSeedHash && input.userId != 0) .setInitSeedNotAccountZero
  failIf (flags.isInHouseBet && input.userId == 0) .inHouseBetOnAccountZero
  let bal ← buildBalanceChanges input flags
  let newProviderAllowance ← computeNewAllowance input flags
  failIf (flags.isRiskReject && bal.newBalance < input.oldDepositCredit) .riskRejectBelowCredit
  let addr ← buildAddress P input flags
  checkRecipientBinding P input
  let auth ← checkAuth input flags
  let isAccountBump := auth.isAccountLane || addr.isKeySetter
  let newNonce ← computeNewNonce input.oldNonce auth.isGameLane isAccountBump
  let (newAccountNonce, newGameNonce) := splitNonce newNonce
  let fairnessResult ← (
    if flags.isIhbOrCrash then some <$> checkFairness P G input flags else .ok none)
  let isFirstRegistration := flags.isKeyRegisterOnly && allZero input.oldSeedHash.toList
  let isNeedsNewSeed := flags.isInHouseBet || flags.isSetInitSeedHash || isFirstRegistration
  failIf (isNeedsNewSeed && allZero input.nextServerSeedHash.toList) .zeroSeedCommit
  let newSeedHash := match fairnessResult with
    | some fe => fe.newSeedHash
    | none =>
      if flags.isSetInitSeedHash || isFirstRegistration then input.nextServerSeedHash
      else input.oldSeedHash
  let newTotalLiability ← computeNewTl input.oldTotalLiability bal.addFull bal.subFull
  let newRoot := computeNewRoot P bal.newBalance newSeedHash bal.newCredit newNonce
    newProviderAllowance addr.newPkHash addr.newAddressHash input.mainSiblings input.userId
  return {
    newBalance := bal.newBalance
    newCredit := bal.newCredit
    newSeedHash
    newNonce
    newGameNonce
    newAccountNonce
    newProviderAllowance
    newPkHash := addr.newPkHash
    newAddressHash := addr.newAddressHash
    newRoot
    newTotalLiability
    random := (fairnessResult.map FairnessEffects.random).getD zeroDigest
    slotH := (fairnessResult.map FairnessEffects.slotH).getD zeroDigest
    isMultisetSlot := fairnessResult.isSome }

def validateSlot (input : SlotInput) : Except SlotRejection SlotEffects := do
  checkTxType input
  checkFieldCanonicity input
  checkAmountCanonicity input
  checkStoredAllowanceRange input
  checkUserIdRange input
  verifyCurrentRoot P input
  failIf (input.oldTotalLiability != input.currentTl) .tlOverflow
  computeEffects P G input

end Checks

/-! ### Specification -/

/-- The slot commits a seed: an `in_house_bet`, a `set_init_seed_hash`, or a `key_register_only`
that finds the seed zero. -/
def SlotInput.writesSeed (input : SlotInput) : Bool :=
  input.txType == txInHouseBet || input.txType == txSetInitSeedHash ||
    (input.txType == txKeyRegisterOnly && allZero input.oldSeedHash.toList)

/-- The slot settles a game. -/
def SlotInput.isGame (input : SlotInput) : Bool :=
  input.txType == txInHouseBet || input.txType == txCrashSettle

/-- The checks that every type passes. -/
structure AlwaysOn (P : Poseidon2Hash) (input : SlotInput) : Prop where
  txType : input.txType ≤ maxTxType
  canonical : fieldsCanonical input = true
  amount : isCanonical input.amount = true
  winAmount : isCanonical input.winAmount = true
  allowance : input.oldProviderAllowance ≤ providerAllowanceMax
  userId : input.userId.toNat < 2 ^ treeDepth
  root : computeOldRoot P input = input.currentRoot
  tl : input.oldTotalLiability = input.currentTl

/-- What the effect layer requires of a slot, and every effect that it returns. -/
structure EffectsSpec (P : Poseidon2Hash) (G : GameCore) (input : SlotInput)
    (e : SlotEffects) : Prop where
  setInitAccount : input.txType = txSetInitSeedHash → input.userId = 0
  betAccount : input.txType = txInHouseBet → input.userId ≠ 0
  balance : BalanceSpec input ⟨e.newBalance, e.newCredit, input.addAmount, input.subAmount⟩
  allowance : AllowanceSpec input e.newProviderAllowance
  riskReject : input.txType = txRiskReject → input.oldDepositCredit.toNat ≤ e.newBalance.toNat
  address : AddressSpec P input ⟨e.newPkHash, e.newAddressHash, input.isKeySetter⟩
  recipient :
    input.recipientAddrHash = recipientAddrHashFor P input.txType input.userAddress
  key : input.isSigned = true → allZero input.oldPkHash.toList = false
  nonce : NonceSpec input.oldNonce input.bumpsGameLane input.bumpsAccountLane e.newNonce
  lanes : (e.newAccountNonce, e.newGameNonce) = splitNonce e.newNonce
  game : input.isGame = true → FairnessSpec P G input ⟨e.random, e.slotH, e.newSeedHash⟩
  noGame : input.isGame = false → e.random = zeroDigest ∧ e.slotH = zeroDigest
  multiset : e.isMultisetSlot = input.isGame
  seedCommit : input.writesSeed = true → allZero input.nextServerSeedHash.toList = false
  seed : e.newSeedHash = if input.writesSeed then input.nextServerSeedHash else input.oldSeedHash
  tlFits : input.oldTotalLiability.toNat + input.addAmount.toNat < 2 ^ 64
  tlCovered : input.subAmount.toNat ≤ input.oldTotalLiability.toNat + input.addAmount.toNat
  newTl : e.newTotalLiability.toNat =
    input.oldTotalLiability.toNat + input.addAmount.toNat - input.subAmount.toNat
  newRoot : e.newRoot = computeNewRoot P e.newBalance e.newSeedHash e.newCredit e.newNonce
    e.newProviderAllowance e.newPkHash e.newAddressHash input.mainSiblings input.userId

variable {P : Poseidon2Hash} {G : GameCore} {input : SlotInput} {e : SlotEffects}

theorem EffectsSpec.newAccountNonce_eq (h : EffectsSpec P G input e) :
    e.newAccountNonce = (splitNonce e.newNonce).1 :=
  congrArg Prod.fst h.lanes

theorem EffectsSpec.newGameNonce_eq (h : EffectsSpec P G input e) :
    e.newGameNonce = (splitNonce e.newNonce).2 :=
  congrArg Prod.snd h.lanes

theorem userIdRange_iff :
    input.userId.toUInt64 < 1 <<< UInt64.ofNat treeDepth ↔ input.userId.toNat < 2 ^ treeDepth := by
  rw [UInt64.lt_iff_toNat_lt, UInt32.toNat_toUInt64]
  rfl

theorem alwaysOn_iff :
    AlwaysOn P input ↔ checkTxType input = .ok () ∧ checkFieldCanonicity input = .ok () ∧
      checkAmountCanonicity input = .ok () ∧ checkStoredAllowanceRange input = .ok () ∧
      checkUserIdRange input = .ok () ∧ verifyCurrentRoot P input = .ok () ∧
      input.oldTotalLiability = input.currentTl := by
  simp only [checkTxType, checkFieldCanonicity, checkAmountCanonicity, checkStoredAllowanceRange,
    checkUserIdRange, verifyCurrentRoot, ite_eq_ok, failIf_eq_ok, decide_eq_false_iff_not,
    gt_iff_lt, UInt8.not_lt, UInt64.not_lt, userIdRange_iff, Bool.and_eq_true]
  constructor
  · rintro ⟨htype, hcanon, hamount, hwin, hallow, hid, hroot, htl⟩
    exact ⟨htype, hcanon, ⟨hamount, hwin⟩, hallow, hid, hroot, htl⟩
  · rintro ⟨htype, hcanon, ⟨hamount, hwin⟩, hallow, hid, hroot, htl⟩
    exact ⟨htype, hcanon, hamount, hwin, hallow, hid, hroot, htl⟩

theorem gameSeed_eq {fe : FairnessEffects} (hgame : input.isGame = true)
    (h : FairnessSpec P G input fe) : fe.newSeedHash =
      if input.writesSeed then input.nextServerSeedHash else input.oldSeedHash := by
  rw [h.newSeedHash]
  simp only [SlotInput.isGame, Bool.or_eq_true, beq_iff_eq] at hgame
  rcases hgame with ht | ht <;> rw [SlotInput.writesSeed, ht] <;> rfl

theorem noGameSeed_eq (hgame : input.isGame = false) :
    (input.flags.isSetInitSeedHash ||
      (input.flags.isKeyRegisterOnly && allZero input.oldSeedHash.toList)) =
        input.writesSeed := by
  simp only [SlotInput.isGame, Bool.or_eq_false_iff] at hgame
  simp only [SlotInput.writesSeed, TxFlags.fromTxType, hgame.1, Bool.false_or]

theorem fairnessResult_eq_ok {r : Option FairnessEffects} :
    (if input.isGame then some <$> checkFairness P G input input.flags else .ok none) = .ok r ↔
      (input.isGame = true ∧ ∃ fe, FairnessSpec P G input fe ∧ some fe = r) ∨
        (input.isGame = false ∧ none = r) := by
  cases input.isGame with
  | true => simp only [if_true, map_eq_ok, checkFairness_eq_ok, true_and, reduceCtorEq, false_and,
      or_false]
  | false => simp only [Bool.false_eq_true, if_false, Except.ok.injEq, false_and, true_and,
      false_or]

/-- The effect layer succeeds exactly with the effects of its specification. -/
theorem computeEffects_eq_ok : computeEffects P G input = .ok e ↔ EffectsSpec P G input e := by
  have hgame : input.flags.isIhbOrCrash = input.isGame := rfl
  have hneeds : (input.flags.isInHouseBet || input.flags.isSetInitSeedHash ||
      (input.flags.isKeyRegisterOnly && allZero input.oldSeedHash.toList)) = input.writesSeed := rfl
  have hset : input.flags.isSetInitSeedHash = true ↔ input.txType = txSetInitSeedHash := beq_iff_eq
  have hbet : input.flags.isInHouseBet = true ↔ input.txType = txInHouseBet := beq_iff_eq
  have hrisk : input.flags.isRiskReject = true ↔ input.txType = txRiskReject := beq_iff_eq
  simp only [computeEffects, hgame, hneeds, checkRecipientBinding, bind_eq_ok, failIf_eq_ok,
    buildBalanceChanges_eq_ok, computeNewAllowance_eq_ok, buildAddress_eq_ok, checkAuth_eq_ok,
    computeNewNonce_eq_ok, computeNewTl_eq_ok, fairnessResult_eq_ok, exists_const,
    Bool.and_eq_false_imp, hset, hbet, hrisk, bne_eq_false_iff_eq, decide_eq_false_iff_not,
    UInt64.not_lt, UInt64.le_iff_toNat_le, beq_eq_false_iff_ne]
  constructor
  · rintro ⟨hset, hbet, ⟨newBalance, newCredit, add, sub⟩, hbal, allow, hallow, hrisk,
      ⟨newPk, newAddr, isSetter⟩, haddr, hrec, auth, ⟨hkey, rfl⟩, nonce, hnonce, r, hr, hseed,
      tl, ⟨htl1, htl2, htl3⟩, h⟩
    cases h
    obtain rfl := hbal.addFull
    obtain rfl := hbal.subFull
    obtain rfl := haddr.isKeySetter
    dsimp only at hnonce
    rw [isAccountLane_eq] at hnonce
    rcases hr with ⟨hg, fe, hfe, rfl⟩ | ⟨hg, rfl⟩
    · exact ⟨hset, hbet, hbal, hallow, hrisk, haddr, hrec, hkey, hnonce, rfl, fun _ => hfe,
        fun hg' => absurd hg (by simp [hg']), hg.symm, hseed, gameSeed_eq hg hfe, htl1, htl2, htl3,
        rfl⟩
    · exact ⟨hset, hbet, hbal, hallow, hrisk, haddr, hrec, hkey, hnonce, rfl,
        fun hg' => absurd hg (by simp [hg']), fun _ => ⟨rfl, rfl⟩, hg.symm, hseed,
        by rw [← noGameSeed_eq hg], htl1, htl2, htl3, rfl⟩
  · intro h
    refine ⟨h.setInitAccount, h.betAccount, _, h.balance, _, h.allowance, h.riskReject, _,
      h.address, h.recipient, _, ⟨h.key, rfl⟩, e.newNonce, ?_,
      if input.isGame then some ⟨e.random, e.slotH, e.newSeedHash⟩ else none, ?_, h.seedCommit,
      e.newTotalLiability, ⟨h.tlFits, h.tlCovered, h.newTl⟩, ?_⟩
    · rw [isAccountLane_eq]
      exact h.nonce
    · cases hg : input.isGame with
      | true => exact Or.inl ⟨rfl, _, h.game hg, rfl⟩
      | false => exact Or.inr ⟨rfl, rfl⟩
    · have hgameLane := h.newGameNonce_eq.symm
      have hacctLane := h.newAccountNonce_eq.symm
      refine congrArg Except.ok ?_
      cases hg : input.isGame with
      | true =>
        exact SlotEffects.ext rfl rfl rfl rfl hgameLane hacctLane rfl rfl rfl h.newRoot.symm rfl rfl
          rfl (h.multiset.trans hg).symm
      | false =>
        simp only [Bool.false_eq_true, if_false, noGameSeed_eq hg, ← h.seed, ← h.newRoot]
        exact SlotEffects.ext rfl rfl rfl rfl hgameLane hacctLane rfl rfl rfl rfl rfl
          (h.noGame hg).1.symm (h.noGame hg).2.symm (h.multiset.trans hg).symm

theorem validateSlot_eq_ok :
    validateSlot P G input = .ok e ↔ AlwaysOn P input ∧ EffectsSpec P G input e := by
  simp only [validateSlot, unit_bind_eq_ok, failIf_eq_ok, bne_eq_false_iff_eq, alwaysOn_iff,
    computeEffects_eq_ok, and_assoc]

/-- Past the always-on checks the effect layer decides. -/
theorem validateSlot_eq_computeEffects (on : AlwaysOn P input) :
    validateSlot P G input = computeEffects P G input := by
  obtain ⟨htype, hfields, hamount, hallowance, huser, hroot, htl⟩ := alwaysOn_iff.mp on
  simp only [validateSlot, htype, hfields, hamount, hallowance, huser, hroot, htl,
    bne_self_eq_false]
  rfl

/-! ### Reading the specification -/

theorem isGame_iff : input.isGame = true ↔
    input.txType = txInHouseBet ∨ input.txType = txCrashSettle := by
  rw [SlotInput.isGame, Bool.or_eq_true, beq_iff_eq, beq_iff_eq]

theorem isGame_of_inHouseBet (ht : input.txType = txInHouseBet) : input.isGame = true := by
  rw [SlotInput.isGame, ht]
  rfl

theorem isGame_of_crashSettle (ht : input.txType = txCrashSettle) : input.isGame = true := by
  rw [SlotInput.isGame, ht]
  rfl

theorem isKeySetter_iff : input.isKeySetter = true ↔
    input.txType = txKeyRegisterOnly ∧ allZero input.newPkHash.toList = false := by
  rw [SlotInput.isKeySetter, Bool.and_eq_true, beq_iff_eq, Bool.not_eq_true']

namespace EffectsSpec

theorem newPkHash (spec : EffectsSpec P G input e) :
    e.newPkHash = if input.isKeySetter then input.newPkHash else input.oldPkHash :=
  spec.address.newPkHash

theorem newPkHash_of_setter (spec : EffectsSpec P G input e) (h : input.isKeySetter = true) :
    e.newPkHash = input.newPkHash := by
  rw [spec.newPkHash, if_pos h]

theorem newPkHash_of_not_setter (spec : EffectsSpec P G input e) (h : input.isKeySetter = false) :
    e.newPkHash = input.oldPkHash := by
  rw [spec.newPkHash, h]
  rfl

theorem newAddressHash (spec : EffectsSpec P G input e) :
    e.newAddressHash =
      if input.isAddressSetter then addressHash P input.userAddress else input.oldAddressHash :=
  spec.address.newAddressHash

end EffectsSpec

/-- The slot on the root and the total liability that it claims itself. -/
def SlotInput.commit (P : Poseidon2Hash) (input : SlotInput) : SlotInput :=
  { input with currentRoot := computeOldRoot P input, currentTl := input.oldTotalLiability }

end TxValidator
