import TxValidator.Ledger

/-! Deposit credit along a run: no slot leaves an account with more credit than balance, and only
deposits raise a credit. -/

namespace TxValidator

variable {P : Poseidon2Hash} {G : GameCore} {input : SlotInput} {e : SlotEffects} {s s' : State}
  {a : Slot} {as : List Slot}

/-- The deposit credit is covered by the balance. -/
def Leaf.Covered (l : Leaf) : Prop := l.credit.toNat ≤ l.balance.toNat

/-- What the slot deposits on account `u`. -/
def Slot.depositOn (u : UserId) (a : Slot) : ℕ :=
  if a.account = u ∧ a.input.txType = txDeposit then a.amount else 0

/-- The sum of the deposits on account `u`. -/
def deposited (u : UserId) (as : List Slot) : ℕ := (as.map (Slot.depositOn u)).sum

/-! ### One slot -/

theorem EffectsSpec.covered (spec : EffectsSpec P G input e) (hold : input.oldLeaf.Covered) :
    e.newLeaf.Covered := by
  have hbal : e.newBalance.toNat = _ := spec.balance.newBalance
  have hcredit : e.newCredit.toNat = _ := spec.balance.newCredit
  change input.oldDepositCredit.toNat ≤ input.oldBalance.toNat at hold
  show e.newCredit.toNat ≤ e.newBalance.toNat
  cases hcaps : input.capsCredit with
  | true =>
    rw [hcredit, if_pos hcaps]
    exact Nat.min_le_right _ _
  | false =>
    rw [hcaps] at hcredit
    by_cases hrisk : input.txType = txRiskReject
    · -- A `risk_reject` debits without a cap: its floor check keeps the credit covered.
      have hfloor := spec.riskReject hrisk
      rw [SlotInput.creditAdd_of_not_deposit (by rw [hrisk]; decide)] at hcredit
      exact hcredit.trans_le hfloor
    · rw [SlotInput.subAmount_of_not_caps hcaps hrisk] at hbal
      have hadd := input.creditAdd_le
      calc e.newCredit.toNat
          = input.oldDepositCredit.toNat + input.creditAdd.toNat := hcredit
        _ ≤ input.oldBalance.toNat + input.addAmount.toNat := Nat.add_le_add hold hadd
        _ = e.newBalance.toNat := hbal.symm

theorem EffectsSpec.credit_le (spec : EffectsSpec P G input e) :
    e.newCredit.toNat ≤ input.oldDepositCredit.toNat + input.creditAdd.toNat := by
  have hcredit : e.newCredit.toNat = _ := spec.balance.newCredit
  rw [hcredit]
  split
  · exact Nat.min_le_left _ _
  · exact Nat.le_refl _

theorem EffectsSpec.credit_of_deposit (spec : EffectsSpec P G input e)
    (ht : input.txType = txDeposit) :
    e.newCredit.toNat = input.oldDepositCredit.toNat + input.amount.toNat := by
  have hcredit : e.newCredit.toNat = _ := spec.balance.newCredit
  have hcaps : input.capsCredit = false := by
    rw [SlotInput.capsCredit, ht]
    rfl
  rw [hcaps, SlotInput.creditAdd, if_pos ht] at hcredit
  exact hcredit

/-- Only a deposit raises a credit. -/
theorem EffectsSpec.deposit_of_credit_lt (spec : EffectsSpec P G input e)
    (h : input.oldDepositCredit.toNat < e.newCredit.toNat) : input.txType = txDeposit := by
  by_contra ht
  have hle := spec.credit_le
  rw [SlotInput.creditAdd_of_not_deposit ht] at hle
  exact Nat.lt_irrefl _ (Nat.lt_of_lt_of_le h hle)

/-! ### One step -/

theorem Step.credit_eq (h : Step P G s a s') {u : UserId} (hu : a.account = u) :
    (s.ledger u).credit = a.input.oldDepositCredit ∧ (s'.ledger u).credit = a.effects.newCredit :=
  h.part_eq hu Leaf.credit

theorem Step.credit_of_lt (h : Step P G s a s') {u : UserId}
    (hlt : (s.ledger u).credit.toNat < (s'.ledger u).credit.toNat) :
    a.account = u ∧ a.input.txType = txDeposit ∧
      (s'.ledger u).credit.toNat = (s.ledger u).credit.toNat + a.amount := by
  by_cases hu : a.account = u
  · obtain ⟨hold, hnew⟩ := h.credit_eq hu
    rw [hold, hnew] at hlt ⊢
    have ht := h.spec.deposit_of_credit_lt hlt
    exact ⟨hu, ht, h.spec.credit_of_deposit ht⟩
  · rw [h.frame u (Ne.symm hu)] at hlt
    exact absurd hlt (Nat.lt_irrefl _)

theorem Step.credit_le (h : Step P G s a s') (u : UserId) :
    (s'.ledger u).credit.toNat ≤ (s.ledger u).credit.toNat + a.depositOn u := by
  by_cases hlt : (s.ledger u).credit.toNat < (s'.ledger u).credit.toNat
  · obtain ⟨hu, ht, hsum⟩ := h.credit_of_lt hlt
    rw [Slot.depositOn, if_pos ⟨hu, ht⟩, hsum]
  · omega

/-! ### Runs -/

/-- Along every run from covered accounts every account stays covered; a credit rises only by the
amount of a deposit on its account; and from the empty ledger it is at most the sum of those. -/
theorem deposit_credit_over_runs (hrun : Run P G s as s') :
    ((∀ u, (s.ledger u).Covered) → ∀ u, (s'.ledger u).Covered) ∧
      (∀ a s'' u, Step P G s' a s'' →
        (s'.ledger u).credit.toNat < (s''.ledger u).credit.toNat →
        a.account = u ∧ a.input.txType = txDeposit ∧
          (s''.ledger u).credit.toNat = (s'.ledger u).credit.toNat + a.amount) ∧
      (s.ledger = Ledger.zero → ∀ u, (s'.ledger u).credit.toNat ≤ deposited u as) := by
  refine ⟨fun hs => ?_, fun a s'' u h hlt => h.credit_of_lt hlt, fun hs u => ?_⟩
  · exact Transition.Run.invariant (P := fun s : State => ∀ u, (s.ledger u).Covered)
      (fun _ _ _ hs h u => h.keeps (p := Leaf.Covered) h.spec.covered (hs u)) hrun hs
  · have hsum := Transition.Run.le_sum_of_step (fun s : State => (s.ledger u).credit.toNat)
      (Slot.depositOn u) (fun _ _ _ h => h.credit_le u) hrun
    rw [hs] at hsum
    exact hsum.trans_eq (Nat.zero_add _)

theorem deposit_credit_over_slots : deposited 5 playerSlots = 25 ∧
    (∃ s, Run sumHash evenCore emptyState playerSlots s ∧
      ∀ u, (s.ledger u).Covered ∧ (s.ledger u).credit.toNat ≤ deposited u playerSlots) ∧
    ∃ s s', Run sumHash evenCore emptyState (playerSlots.take 5) s ∧
      Step sumHash evenCore s ⟨playerTopUp, playerTopUpEffects⟩ s' ∧
      (s'.ledger 5).credit.toNat = (s.ledger 5).credit.toNat + 5 := by
  obtain ⟨s, hrun⟩ := player_run
  have hempty : ∀ u, (emptyState.ledger u).Covered := fun _ => Nat.le_refl 0
  obtain ⟨hcovered, -, hsum⟩ := deposit_credit_over_runs hrun
  refine ⟨by decide, ⟨s, hrun, fun u => ⟨hcovered hempty u, hsum rfl u⟩⟩, ?_⟩
  have hsplit : Run sumHash evenCore emptyState
      (playerSlots.take 5 ++ ⟨playerTopUp, playerTopUpEffects⟩ :: playerSlots.drop 6) s := hrun
  obtain ⟨t, t', hpast, hstep, -⟩ := Transition.Run.middle_iff.mp hsplit
  obtain ⟨hold, hnew⟩ := hstep.credit_eq (u := 5) (by decide)
  have hlt : (t.ledger 5).credit.toNat < (t'.ledger 5).credit.toNat := by
    rw [hold, hnew]
    decide
  obtain ⟨-, hraises, -⟩ := deposit_credit_over_runs hpast
  exact ⟨t, t', hpast, hstep, (hraises _ _ 5 hstep hlt).2.2⟩

end TxValidator
