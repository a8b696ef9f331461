import TxValidator.Slot
import TxValidator.Lib.Checked

/-! The monetary effects of a slot: balance, deposit credit, provider allowance and total
liability.  The code selects amounts with the one-hot flags; the specifications name them by
transaction type. -/

namespace TxValidator

open Checked

structure BalanceEffects where
  newBalance : UInt64
  newCredit : UInt64
  addFull : UInt64
  subFull : UInt64

def buildBalanceChanges (input : SlotInput) (flags : TxFlags) :
    Except SlotRejection BalanceEffects := do
  let isUserAdd := flags.isDeposit || flags.isWin || flags.isReferral || flags.isBonus
  let isIhbOrCrash := flags.isIhbOrCrash
  let userAdd := if isUserAdd then input.amount else 0
  let ihbAdd := if isIhbOrCrash then input.winAmount else 0
  let totalAdd ← okOr (Checked.add userAdd ihbAdd) .tlOverflow
  let isUserSub := flags.isBet || isIhbOrCrash || flags.isWithdrawal || flags.isRiskReject ||
    flags.isTransfer
  let userSub := if isUserSub then input.amount else 0
  let afterAdd ← okOr (Checked.add input.oldBalance totalAdd) .tlOverflow
  let newBalance ← okOr (Checked.sub afterAdd userSub) .insufficientBalance
  let depositCreditAdd := if flags.isDeposit then input.amount else 0
  let creditPostDeposit ← okOr (Checked.add input.oldDepositCredit depositCreditAdd) .tlOverflow
  let cappedCredit := min creditPostDeposit newBalance
  let isBalanceLoss := flags.isBet || isIhbOrCrash || flags.isWithdrawal || flags.isTransfer
  let newCredit := if isBalanceLoss then cappedCredit else creditPostDeposit
  return { newBalance, newCredit, addFull := totalAdd, subFull := userSub }

def computeNewAllowance (input : SlotInput) (flags : TxFlags) : Except SlotRejection UInt64 :=
  let old := input.oldProviderAllowance
  if old > providerAllowanceMax then
    .error .providerAllowanceOverflow
  else if flags.isSetProviderAllowance then
    if input.amount > providerAllowanceMax then
      .error .providerAllowanceOverflow
    else
      .ok input.amount
  else if flags.isBet then
    okOr (Checked.sub old input.amount) .providerAllowanceExceeded
  else
    .ok old

def computeNewTl (oldTl addFull subFull : UInt64) : Except SlotRejection UInt64 :=
  okOr ((Checked.add oldTl addFull).bind fun afterAdd => Checked.sub afterAdd subFull) .tlOverflow

/-! ### Amounts by type -/

/-- What a slot adds to the balance and to the total liability. -/
def SlotInput.addAmount (input : SlotInput) : UInt64 :=
  if input.txType ∈ [txDeposit, txWin, txBonus, txReferral] then input.amount
  else if input.txType ∈ [txInHouseBet, txCrashSettle] then input.winAmount
  else 0

/-- What a slot takes from the balance and from the total liability. -/
def SlotInput.subAmount (input : SlotInput) : UInt64 :=
  if input.txType ∈
      [txBet, txInHouseBet, txCrashSettle, txWithdrawal, txRiskReject, txTransfer] then
    input.amount
  else 0

/-- What a slot adds to the deposit credit. -/
def SlotInput.creditAdd (input : SlotInput) : UInt64 :=
  if input.txType = txDeposit then input.amount else 0

/-- The types that cap the deposit credit at the new balance. -/
def SlotInput.capsCredit (input : SlotInput) : Bool :=
  input.txType ∈ [txBet, txInHouseBet, txCrashSettle, txWithdrawal, txTransfer]

/-- The credit grows by no more than the balance. -/
theorem SlotInput.creditAdd_le (input : SlotInput) :
    input.creditAdd.toNat ≤ input.addAmount.toNat := by
  unfold SlotInput.creditAdd SlotInput.addAmount
  split
  · rename_i ht
    rw [if_pos (by rw [ht]; decide)]
  · exact Nat.zero_le _

/-- Apart from `risk_reject`, the types that take from the balance are those that cap the credit. -/
theorem SlotInput.subAmount_of_not_caps {input : SlotInput} (hcaps : input.capsCredit = false)
    (hrisk : input.txType ≠ txRiskReject) : input.subAmount = 0 := by
  simp only [SlotInput.capsCredit, List.mem_cons, List.not_mem_nil, or_false,
    decide_eq_false_iff_not, not_or] at hcaps
  obtain ⟨hbet, hihb, hcrash, hwith, htrans⟩ := hcaps
  rw [SlotInput.subAmount, if_neg]
  simp only [List.mem_cons, List.not_mem_nil, or_false, not_or]
  exact ⟨hbet, hihb, hcrash, hwith, hrisk, htrans⟩

theorem SlotInput.creditAdd_of_not_deposit {input : SlotInput} (h : input.txType ≠ txDeposit) :
    input.creditAdd = 0 := if_neg h

/-- The balance effects of a slot, as exact integers. -/
structure BalanceSpec (input : SlotInput) (bal : BalanceEffects) : Prop where
  addFull : bal.addFull = input.addAmount
  subFull : bal.subFull = input.subAmount
  fits : input.oldBalance.toNat + input.addAmount.toNat < 2 ^ 64
  covered : input.subAmount.toNat ≤ input.oldBalance.toNat + input.addAmount.toNat
  newBalance : bal.newBalance.toNat =
    input.oldBalance.toNat + input.addAmount.toNat - input.subAmount.toNat
  creditFits : input.oldDepositCredit.toNat + input.creditAdd.toNat < 2 ^ 64
  newCredit : bal.newCredit.toNat =
    if input.capsCredit then
      min (input.oldDepositCredit.toNat + input.creditAdd.toNat) bal.newBalance.toNat
    else input.oldDepositCredit.toNat + input.creditAdd.toNat

/-- The user addition and the game addition are never both there. -/
theorem totalAdd_eq (input : SlotInput) :
    Checked.add
      (if input.flags.isDeposit || input.flags.isWin || input.flags.isReferral ||
        input.flags.isBonus then input.amount else 0)
      (if input.flags.isIhbOrCrash then input.winAmount else 0) = some input.addAmount := by
  unfold SlotInput.addAmount
  by_cases hadd : input.txType ∈ [txDeposit, txWin, txBonus, txReferral]
  · have hgame : input.flags.isIhbOrCrash = false := by
      simp only [List.mem_cons, List.not_mem_nil, or_false] at hadd
      rcases hadd with h | h | h | h <;> simp only [SlotInput.flags, h] <;> rfl
    rw [if_pos hadd, hgame, if_neg Bool.false_ne_true, Checked.add_zero, if_pos]
    simp only [List.mem_cons, List.not_mem_nil, or_false] at hadd
    simp only [TxFlags.fromTxType, Bool.or_eq_true, beq_iff_eq]
    tauto
  · rw [if_neg hadd, if_neg, Checked.zero_add]
    · simp only [TxFlags.isIhbOrCrash, TxFlags.fromTxType, List.mem_cons, List.not_mem_nil,
        or_false, Bool.or_eq_true, beq_iff_eq]
    · simp only [List.mem_cons, List.not_mem_nil, or_false] at hadd
      simp only [TxFlags.fromTxType, Bool.or_eq_true, beq_iff_eq]
      tauto

theorem userSub_eq (input : SlotInput) :
    (if input.flags.isBet || input.flags.isIhbOrCrash || input.flags.isWithdrawal ||
      input.flags.isRiskReject || input.flags.isTransfer then input.amount else 0) =
    input.subAmount := by
  simp only [SlotInput.subAmount, TxFlags.isIhbOrCrash, TxFlags.fromTxType, List.mem_cons,
    List.not_mem_nil, or_false, Bool.or_eq_true, beq_iff_eq, or_assoc]

theorem isBalanceLoss_eq (input : SlotInput) :
    (input.flags.isBet || input.flags.isIhbOrCrash || input.flags.isWithdrawal ||
      input.flags.isTransfer) = input.capsCredit := by
  simp only [SlotInput.capsCredit, TxFlags.isIhbOrCrash, TxFlags.fromTxType, List.mem_cons,
    List.not_mem_nil, or_false, Bool.decide_or, ← beq_eq_decide, Bool.or_assoc]

theorem creditAdd_eq (input : SlotInput) :
    (if input.flags.isDeposit then input.amount else 0) = input.creditAdd := by
  simp only [SlotInput.creditAdd, TxFlags.fromTxType, beq_iff_eq]

theorem min_toNat (a b : UInt64) : (min a b).toNat = min a.toNat b.toNat := by
  show (if a ≤ b then a else b).toNat = _
  rw [Nat.min_def]
  simp only [UInt64.le_iff_toNat_le]
  split <;> rfl

/-- The balance transition succeeds exactly with the effects of its specification. -/
theorem buildBalanceChanges_eq_ok {input : SlotInput} {bal : BalanceEffects} :
    buildBalanceChanges input input.flags = .ok bal ↔ BalanceSpec input bal := by
  simp only [buildBalanceChanges, bind_eq_ok, okOr_eq_ok, totalAdd_eq, userSub_eq,
    isBalanceLoss_eq, creditAdd_eq, Option.some_inj, exists_eq_left', add_eq_some, sub_eq_some]
  constructor
  · rintro ⟨afterAdd, hadd, newBalance, ⟨hcov, hnew⟩, credit, hcredit, h⟩
    cases h
    have h1 := afterAdd.toNat_lt
    have h2 := credit.toNat_lt
    refine ⟨rfl, rfl, by omega, by omega, by rw [hnew, hadd], by omega, ?_⟩
    dsimp only
    split
    · rw [min_toNat, hcredit]
    · exact hcredit
  · intro h
    obtain ⟨newBalance, newCredit, addFull, subFull⟩ := bal
    obtain ⟨rfl, rfl, hfits, hcov, hnew, hcreditFits, hcredit⟩ := h
    refine ⟨UInt64.ofNat (input.oldBalance.toNat + input.addAmount.toNat),
      UInt64.toNat_ofNat_of_lt' hfits, newBalance, ?_,
      UInt64.ofNat (input.oldDepositCredit.toNat + input.creditAdd.toNat),
      UInt64.toNat_ofNat_of_lt' hcreditFits, ?_⟩
    · rw [UInt64.toNat_ofNat_of_lt' hfits]
      exact ⟨hcov, hnew⟩
    · congr 1
      rw [BalanceEffects.mk.injEq]
      refine ⟨rfl, ?_, rfl, rfl⟩
      apply UInt64.toNat_inj.mp
      rw [hcredit]
      split
      · rw [min_toNat, UInt64.toNat_ofNat_of_lt' hcreditFits]
      · exact UInt64.toNat_ofNat_of_lt' hcreditFits

/-! ### Allowance and total liability -/

/-- The provider allowance after a slot, as exact integers. -/
structure AllowanceSpec (input : SlotInput) (new : UInt64) : Prop where
  stored : input.oldProviderAllowance ≤ providerAllowanceMax
  set : input.txType = txSetProviderAllowance →
    input.amount ≤ providerAllowanceMax ∧ new = input.amount
  bet : input.txType = txBet → input.amount.toNat ≤ input.oldProviderAllowance.toNat ∧
    new.toNat = input.oldProviderAllowance.toNat - input.amount.toNat
  keep : input.txType ≠ txSetProviderAllowance → input.txType ≠ txBet →
    new = input.oldProviderAllowance

theorem computeNewAllowance_eq_ok {input : SlotInput} {new : UInt64} :
    computeNewAllowance input input.flags = .ok new ↔ AllowanceSpec input new := by
  have hne : txBet ≠ txSetProviderAllowance := by decide
  unfold computeNewAllowance
  simp only [TxFlags.fromTxType, beq_iff_eq, gt_iff_lt]
  constructor
  · intro h
    split at h
    · cases h
    have hstored : input.oldProviderAllowance ≤ providerAllowanceMax := by
      rw [← UInt64.not_lt]; assumption
    split at h
    · rename_i hset
      split at h
      · cases h
      cases h
      refine ⟨hstored, fun _ => ⟨by rw [← UInt64.not_lt]; assumption, rfl⟩, fun hbet => ?_,
        fun hkeep => absurd hset hkeep⟩
      exact absurd (hbet.symm.trans hset) hne
    split at h
    · rename_i hset hbet
      rw [okOr_eq_ok, sub_eq_some] at h
      exact ⟨hstored, fun hs => absurd hs hset, fun _ => h, fun _ hb => absurd hbet hb⟩
    · rename_i hset hbet
      cases h
      exact ⟨hstored, fun hs => absurd hs hset, fun hb => absurd hb hbet, fun _ _ => rfl⟩
  · rintro ⟨hstored, hset, hbet, hkeep⟩
    rw [if_neg (UInt64.not_lt.mpr hstored)]
    split
    · rename_i hs
      rw [if_neg (UInt64.not_lt.mpr (hset hs).1), (hset hs).2]
    split
    · rename_i hb
      rw [okOr_eq_ok, sub_eq_some]
      exact hbet hb
    · rename_i hs hb
      rw [hkeep hs hb]

theorem AllowanceSpec.le_max {input : SlotInput} {new : UInt64} (h : AllowanceSpec input new) :
    new ≤ providerAllowanceMax := by
  by_cases hset : input.txType = txSetProviderAllowance
  · rw [(h.set hset).2]
    exact (h.set hset).1
  by_cases hbet : input.txType = txBet
  · refine UInt64.le_trans (UInt64.le_iff_toNat_le.mpr ?_) h.stored
    rw [(h.bet hbet).2]
    exact Nat.sub_le _ _
  · rw [h.keep hset hbet]
    exact h.stored

theorem computeNewTl_eq_ok {oldTl addFull subFull newTl : UInt64} :
    computeNewTl oldTl addFull subFull = .ok newTl ↔
      oldTl.toNat + addFull.toNat < 2 ^ 64 ∧ subFull.toNat ≤ oldTl.toNat + addFull.toNat ∧
        newTl.toNat = oldTl.toNat + addFull.toNat - subFull.toNat := by
  simp only [computeNewTl, okOr_eq_ok, Option.bind_eq_some_iff, add_eq_some, sub_eq_some]
  constructor
  · rintro ⟨afterAdd, hadd, hcov, hnew⟩
    have := afterAdd.toNat_lt
    exact ⟨by omega, by omega, by omega⟩
  · rintro ⟨hfits, hcov, hnew⟩
    refine ⟨UInt64.ofNat (oldTl.toNat + addFull.toNat), UInt64.toNat_ofNat_of_lt' hfits, ?_⟩
    rw [UInt64.toNat_ofNat_of_lt' hfits]
    exact ⟨hcov, hnew⟩

end TxValidator
