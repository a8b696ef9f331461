import TxValidator.Lib.Verdict
import TxValidator.Table
import TxValidator.Overflow

/-! Why a slot is rejected.  The validator checks one list of constraints in order, and its
rejection is that of the first one that the slot violates; the list is complete, so a slot that
violates none is accepted. -/

namespace TxValidator

open Checked

variable {P : Poseidon2Hash} {G : GameCore} {input : SlotInput} {random : Vector UInt64 4}

section Constraints

variable (P : Poseidon2Hash) (G : GameCore) (input : SlotInput)

/-- What the balance, the allowance and the `risk_reject` floor require. -/
def SlotInput.moneyConstraints : List (SlotRejection × Prop) :=
  [(.tlOverflow, input.oldBalance.toNat + input.addAmount.toNat < 2 ^ 64),
    (.insufficientBalance,
      input.subAmount.toNat ≤ input.oldBalance.toNat + input.addAmount.toNat),
    (.tlOverflow, input.oldDepositCredit.toNat + input.creditAdd.toNat < 2 ^ 64),
    (.providerAllowanceOverflow, input.oldProviderAllowance ≤ providerAllowanceMax ∧
      (input.txType = txSetProviderAllowance → input.amount ≤ providerAllowanceMax)),
    (.providerAllowanceExceeded,
      input.txType = txBet → input.amount ≤ input.oldProviderAllowance),
    (.riskRejectBelowCredit, input.txType = txRiskReject →
      input.oldDepositCredit.toNat + input.amount.toNat ≤ input.oldBalance.toNat)]

/-- What the addresses, the key and the nonce require. -/
def SlotInput.identityConstraints : List (SlotRejection × Prop) :=
  [(.addressHashMismatch, input.txType = txDeposit → allZero input.oldAddressHash.toList = false →
      addressHash P input.userAddress = input.oldAddressHash),
    (.recipientAddrHashMismatch,
      input.recipientAddrHash = recipientAddrHashFor P input.txType input.userAddress),
    (.signedWithoutPk, input.isSigned = true → input.HasKey),
    (.nonceLaneOverflow, input.oldNonce.toNat < 2 ^ 63 ∧
      (input.bumpsGameLane = true → input.GameLaneFree) ∧
      (input.bumpsAccountLane = true → input.AccountLaneFree))]

/-- What a game requires. -/
def SlotInput.gameConstraints : List (SlotRejection × Prop) :=
  [(.seedChainBreak, input.txType = txInHouseBet →
      seedHashTruncated P input.serverSeed = input.oldSeedHash),
    (.crashSeedCommitMismatch, input.txType = txCrashSettle → ∀ seedHash,
      input.crashSeedHash = some seedHash → seedHashTruncated P input.serverSeed = seedHash),
    (.userSeedBindingMismatch, input.txType = txInHouseBet →
      poseidon2 P input.bindingPreimage = input.userSeed),
    (.payoutMismatch, input.isGame = true → input.Settles P G (input.drawn P))]

/-- Every constraint of the validator with its rejection, in the order of the checks. -/
def SlotInput.constraints : List (SlotRejection × Prop) :=
  [(.badTxType, input.txType ≤ maxTxType),
    (.fieldNotCanonical, fieldsCanonical input = true),
    (.amountNotCanonical, isCanonical input.amount = true ∧ isCanonical input.winAmount = true),
    (.providerAllowanceOverflow, input.oldProviderAllowance ≤ providerAllowanceMax),
    (.userIdOutOfRange, input.userId.toNat < 2 ^ treeDepth),
    (.merkleRootMismatch, computeOldRoot P input = input.currentRoot),
    (.tlOverflow, input.oldTotalLiability = input.currentTl),
    (.setInitSeedNotAccountZero, input.txType = txSetInitSeedHash → input.userId = 0),
    (.inHouseBetOnAccountZero, input.txType = txInHouseBet → input.userId ≠ 0)] ++
  input.moneyConstraints ++ input.identityConstraints P ++ input.gameConstraints P G ++
  [(.zeroSeedCommit, input.writesSeed = true → input.CommitsSeed),
    (.tlOverflow, input.oldTotalLiability.toNat + input.addAmount.toNat < 2 ^ 64 ∧
      input.subAmount.toNat ≤ input.oldTotalLiability.toNat + input.addAmount.toNat)]

end Constraints

/-! ### Money -/

theorem buildBalanceChanges_checks : Checks
    [(.tlOverflow, input.oldBalance.toNat + input.addAmount.toNat < 2 ^ 64),
      (.insufficientBalance,
        input.subAmount.toNat ≤ input.oldBalance.toNat + input.addAmount.toNat),
      (.tlOverflow, input.oldDepositCredit.toNat + input.creditAdd.toNat < 2 ^ 64)]
    (buildBalanceChanges input input.flags) := by
  simp only [buildBalanceChanges, totalAdd_eq, userSub_eq, creditAdd_eq]
  refine Checks.pure_bind rfl ((Checks.okOr add_isSome).cons fun afterAdd hafter => ?_)
  rw [okOr_eq_ok, add_eq_some] at hafter
  refine (Checks.okOr (by rw [sub_isSome, hafter])).cons fun _ _ => ?_
  exact (Checks.okOr add_isSome).bind_pure fun _ => rfl

theorem computeNewAllowance_checks : Checks
    [(.providerAllowanceOverflow, input.oldProviderAllowance ≤ providerAllowanceMax ∧
        (input.txType = txSetProviderAllowance → input.amount ≤ providerAllowanceMax)),
      (.providerAllowanceExceeded,
        input.txType = txBet → input.amount ≤ input.oldProviderAllowance)]
    (computeNewAllowance input input.flags) := by
  have hne : txBet ≠ txSetProviderAllowance := by decide
  unfold computeNewAllowance
  simp only [TxFlags.fromTxType, beq_iff_eq, gt_iff_lt]
  intro r
  by_cases hstored : input.oldProviderAllowance ≤ providerAllowanceMax
  · rw [if_neg (UInt64.not_lt.mpr hstored)]
    by_cases hset : input.txType = txSetProviderAllowance
    · have hbet : input.txType ≠ txBet := fun h => hne (h.symm.trans hset)
      by_cases hmax : input.amount ≤ providerAllowanceMax
      · simp [FirstViolated, hstored, hset, hne.symm, hmax, UInt64.not_lt.mpr hmax]
      · simp [FirstViolated, hstored, hset, hmax, UInt64.not_le.mp hmax]
    · by_cases hbet : input.txType = txBet
      · simp [FirstViolated, hstored, hbet, hne, UInt64.le_iff_toNat_le, sub_eq_none, and_comm]
      · simp [FirstViolated, hstored, hset, hbet]
  · simp [FirstViolated, hstored, UInt64.not_le.mp hstored]

/-! ### Identity -/

theorem buildAddress_checks : Checks
    [(.addressHashMismatch, input.txType = txDeposit → allZero input.oldAddressHash.toList = false →
      addressHash P input.userAddress = input.oldAddressHash)]
    (buildAddress P input input.flags) := by
  refine Checks.of_failsOnly (FailsOnly.bind ?_ fun _ => FailsOnly.ok) ?_
  · split
    · exact FailsOnly.ok
    split
    · dsimp only
      split
      · exact FailsOnly.error
      · exact FailsOnly.ok
    · exact FailsOnly.ok
  · simp only [buildAddress_eq_ok]
    exact ⟨fun ⟨_, h⟩ => h.redeposit, fun h => ⟨⟨_, _, _⟩, rfl, rfl, h, rfl⟩⟩

theorem checkAuth_checks : Checks
    [(.signedWithoutPk, input.isSigned = true → input.HasKey)] (checkAuth input input.flags) := by
  refine Checks.of_failsOnly (FailsOnly.failIf.bind fun _ => FailsOnly.ok) ?_
  simp only [checkAuth_eq_ok, exists_and_left, exists_eq, and_true]
  rfl

theorem computeNewNonce_checks : Checks
    [(.nonceLaneOverflow, input.oldNonce.toNat < 2 ^ 63 ∧
      (input.bumpsGameLane = true → input.GameLaneFree) ∧
      (input.bumpsAccountLane = true → input.AccountLaneFree))]
    (computeNewNonce input.oldNonce input.bumpsGameLane input.bumpsAccountLane) := by
  refine Checks.of_failsOnly (FailsOnly.failIf.bind fun _ => FailsOnly.failIf.bind fun _ =>
    FailsOnly.failIf.bind fun _ => FailsOnly.ok) ?_
  simp only [computeNewNonce_eq_ok, gameLaneFree_iff, accountLaneFree_iff]
  constructor
  · rintro ⟨_, h⟩
    exact ⟨h.range, h.game, h.account⟩
  · rintro ⟨hrange, hgame, haccount⟩
    exact ⟨_, hrange, hgame, haccount, nonce_add_toNat hrange _ _⟩

/-! ### Games -/

theorem sortedKenoPicks_failsOnly : FailsOnly .payoutMismatch (sortedKenoPicks G input) := by
  unfold sortedKenoPicks
  dsimp only
  split
  · exact FailsOnly.error
  · exact FailsOnly.ok

theorem verifyPredictionHash_failsOnly :
    FailsOnly .payoutMismatch (verifyPredictionHash P G input input.flags) := by
  refine FailsOnly.bind ?_ fun _ => FailsOnly.failIf
  split
  · exact sortedKenoPicks_failsOnly.bind fun _ => FailsOnly.ok
  · exact FailsOnly.ok

theorem dispatchPayout_failsOnly :
    FailsOnly .payoutMismatch (dispatchPayout P G input random) := by
  unfold dispatchPayout
  dsimp only
  split
  · exact FailsOnly.ok
  split
  · exact FailsOnly.ok
  split
  · exact FailsOnly.okOr.bind fun _ => FailsOnly.ok
  split
  · exact sortedKenoPicks_failsOnly.bind fun _ => FailsOnly.ok
  split
  · exact FailsOnly.failIf.bind fun _ => FailsOnly.ok
  split
  · exact FailsOnly.failIf.bind fun _ => FailsOnly.ok
  split
  · exact FailsOnly.okOr.bind fun _ => FailsOnly.failIf.bind fun _ => FailsOnly.ok
  · exact FailsOnly.error

theorem checkFairness_checks (hgame : input.isGame = true) :
    Checks (input.gameConstraints P G) (checkFairness P G input input.flags) := by
  refine (Checks.failIf ?_).cons fun _ _ => (Checks.failIf ?_).cons fun _ _ =>
    (Checks.failIf ?_).cons fun _ _ => Checks.of_failsOnly
      (verifyPredictionHash_failsOnly.bind fun _ =>
        (dispatchPayout_failsOnly.bind fun _ => FailsOnly.failIf).bind fun _ => FailsOnly.ok) ?_
  · simp only [TxFlags.fromTxType, Bool.and_eq_false_imp, beq_iff_eq, bne_eq_false_iff_eq]
  · rw [Bool.and_eq_false_imp]
    cases input.crashSeedHash <;> simp [TxFlags.fromTxType]
  · simp only [TxFlags.fromTxType, Bool.and_eq_false_imp, beq_iff_eq, bne_eq_false_iff_eq]
    rfl
  · have hdrawn : (if input.flags.isInHouseBet = true then
        randomIhb P input.serverSeed input.userSeed else randomCrash input.serverSeed) =
        input.drawn P := by
      simp only [TxFlags.fromTxType, beq_iff_eq, SlotInput.drawn]
    simp only [unit_bind_eq_ok, verifyPredictionHash_eq_ok, verifyPayout_eq_ok, hdrawn, hgame,
      forall_true_left, exists_and_left]
    constructor
    · rintro ⟨⟨hkeno, hprediction⟩, hpayout, -⟩
      exact ⟨hkeno, hprediction, hpayout⟩
    · intro h
      exact ⟨⟨h.kenoPicks, h.prediction⟩, h.payout, _, rfl⟩

/-- Nothing is required of a slot that plays no game. -/
theorem gameConstraints_of_noGame (hgame : input.isGame = false) :
    ∀ c ∈ input.gameConstraints P G, c.2 := by
  have hbet : input.txType ≠ txInHouseBet := fun ht => by
    rw [isGame_of_inHouseBet ht] at hgame
    cases hgame
  have hcrash : input.txType ≠ txCrashSettle := fun ht => by
    rw [isGame_of_crashSettle ht] at hgame
    cases hgame
  simp [SlotInput.gameConstraints, hbet, hcrash, hgame]

theorem fairnessResult_checks : Checks (input.gameConstraints P G)
    (if input.isGame then some <$> checkFairness P G input input.flags else .ok none) := by
  cases hgame : input.isGame with
  | true => exact (checkFairness_checks hgame).map
  | false => exact Checks.ok_of_forall (gameConstraints_of_noGame hgame)

/-! ### The validator -/

/-- The floor of a `risk_reject`, on the balance before the slot. -/
theorem riskFloor_iff {bal : BalanceEffects} (h : BalanceSpec input bal) :
    (input.flags.isRiskReject && decide (bal.newBalance < input.oldDepositCredit)) = false ↔
      (input.txType = txRiskReject →
        input.oldDepositCredit.toNat + input.amount.toNat ≤ input.oldBalance.toNat) := by
  have hrisk : input.flags.isRiskReject = true ↔ input.txType = txRiskReject := beq_iff_eq
  rw [Bool.and_eq_false_imp, hrisk, decide_eq_false_iff_not, UInt64.not_lt, UInt64.le_iff_toNat_le]
  exact forall_congr' fun ht => riskReject_iff ht h

/-- What the effect layer requires before the total liability. -/
theorem computeLocal_checks : Checks
    ((.setInitSeedNotAccountZero, input.txType = txSetInitSeedHash → input.userId = 0) ::
      (.inHouseBetOnAccountZero, input.txType = txInHouseBet → input.userId ≠ 0) ::
      (input.moneyConstraints ++ (input.identityConstraints P ++ (input.gameConstraints P G ++
        [(.zeroSeedCommit, input.writesSeed = true → input.CommitsSeed)]))))
    (computeLocal P G input) := by
  have hgame : input.flags.isIhbOrCrash = input.isGame := rfl
  have hwrites : (input.flags.isInHouseBet || input.flags.isSetInitSeedHash ||
      (input.flags.isKeyRegisterOnly && allZero input.oldSeedHash.toList)) = input.writesSeed := rfl
  simp only [computeLocal, hgame, hwrites]
  refine (Checks.failIf ?_).cons fun _ _ => (Checks.failIf ?_).cons fun _ _ => ?_
  · simp [TxFlags.fromTxType]
  · simp [TxFlags.fromTxType]
  refine buildBalanceChanges_checks.bind fun bal hbal => ?_
  refine computeNewAllowance_checks.bind fun _ _ => ?_
  refine (Checks.failIf (riskFloor_iff (buildBalanceChanges_eq_ok.mp hbal))).cons fun _ _ => ?_
  refine buildAddress_checks.bind fun addr haddr => ?_
  obtain ⟨hsetter, -⟩ := buildAddress_eq_ok.mp haddr
  refine (Checks.failIf bne_eq_false_iff_eq).cons fun _ _ => ?_
  refine checkAuth_checks.bind fun auth hauth => ?_
  obtain ⟨-, rfl⟩ := checkAuth_eq_ok.mp hauth
  simp only [hsetter, isAccountLane_eq]
  refine computeNewNonce_checks.bind fun _ _ => fairnessResult_checks.bind fun _ _ => ?_
  refine (Checks.failIf ?_).bind_pure fun _ => rfl
  rw [Bool.and_eq_false_imp]
  rfl

theorem finish_checks {c : LocalEffects} (h : BalanceSpec input c.bal) : Checks
    [(.tlOverflow, input.oldTotalLiability.toNat + input.addAmount.toNat < 2 ^ 64 ∧
      input.subAmount.toNat ≤ input.oldTotalLiability.toNat + input.addAmount.toNat)]
    (c.finish P input) := by
  refine Checks.map (Checks.of_failsOnly FailsOnly.okOr ?_)
  rw [← h.addFull, ← h.subFull]
  constructor
  · rintro ⟨_, hnew⟩
    obtain ⟨hfits, hcovered, -⟩ := computeNewTl_eq_ok.mp hnew
    exact ⟨hfits, hcovered⟩
  · rintro ⟨hfits, hcovered⟩
    have hnew := (eq_add_sub_iff hfits hcovered).mpr rfl
    exact ⟨_, computeNewTl_eq_ok.mpr ⟨hfits, hcovered, hnew⟩⟩

theorem computeEffects_checks : Checks
    ((.setInitSeedNotAccountZero, input.txType = txSetInitSeedHash → input.userId = 0) ::
      (.inHouseBetOnAccountZero, input.txType = txInHouseBet → input.userId ≠ 0) ::
      (input.moneyConstraints ++ (input.identityConstraints P ++ (input.gameConstraints P G ++
        [(.zeroSeedCommit, input.writesSeed = true → input.CommitsSeed),
          (.tlOverflow, input.oldTotalLiability.toNat + input.addAmount.toNat < 2 ^ 64 ∧
            input.subAmount.toNat ≤ input.oldTotalLiability.toNat + input.addAmount.toNat)]))))
    (computeEffects P G input) := by
  rw [computeEffects_eq_local]
  have h := computeLocal_checks.bind fun (c : LocalEffects) (hc : computeLocal P G input = .ok c) =>
    finish_checks (P := P) (computeLocal_balance hc)
  simpa only [List.cons_append, List.append_assoc, List.nil_append] using h

/-- The validator checks its constraints in their order. -/
theorem validateSlot_checks : Checks (input.constraints P G) (validateSlot P G input) := by
  unfold validateSlot
  simp only [SlotInput.constraints, List.append_assoc, List.cons_append, List.nil_append]
  refine Checks.cons (Checks.failIf ?_) fun _ _ => ?_
  · rw [decide_eq_false_iff_not, gt_iff_lt, UInt8.not_lt]
  refine Checks.cons (Checks.ite Iff.rfl) fun _ _ => ?_
  refine Checks.cons (Checks.ite Bool.and_eq_true_iff) fun _ _ => ?_
  refine Checks.cons (Checks.failIf ?_) fun _ _ => ?_
  · rw [decide_eq_false_iff_not, gt_iff_lt, UInt64.not_lt]
  refine Checks.cons (Checks.ite userIdRange_iff) fun _ _ => ?_
  refine Checks.cons (Checks.ite Iff.rfl) fun _ _ => ?_
  exact Checks.cons (Checks.failIf bne_eq_false_iff_eq) fun _ _ => computeEffects_checks

theorem unused_rejections :
    ∀ r ∈ [SlotRejection.amountLimbOverflow, .addressByteOverflow, .creditCapMismatch],
      r ∉ (input.constraints P G).map Prod.fst := by
  simp [SlotInput.constraints, SlotInput.moneyConstraints, SlotInput.identityConstraints,
    SlotInput.gameConstraints]

/-- A slot is rejected exactly with the rejection of the first constraint that it violates, in the
order of the checks, and accepted exactly when it violates none.  Three of the rejections are never
returned. -/
theorem rejection_is_first_violation :
    (∀ r, validateSlot P G input = .error r ↔ FirstViolated (input.constraints P G) r) ∧
    ((∃ e, validateSlot P G input = .ok e) ↔ ∀ c ∈ input.constraints P G, c.2) ∧
    ∀ r ∈ [SlotRejection.amountLimbOverflow, .addressByteOverflow, .creditCapMismatch],
      validateSlot P G input ≠ .error r := by
  refine ⟨validateSlot_checks, validateSlot_checks.exists_ok_iff, fun r hr h => ?_⟩
  obtain ⟨p, hmem, -⟩ := ((validateSlot_checks r).mp h).exists_mem
  exact unused_rejections r hr (List.mem_map_of_mem hmem)

end TxValidator
