import TxValidator.Allowance
import TxValidator.Conservation
import TxValidator.Credit

/-! Statements of account over runs: what the slots of a run bring and take explains every balance,
the total liability and every allowance.  Without a slot that the owner signs, no run takes more of
an account's deposits than the allowance that the owner granted before it. -/

namespace TxValidator

variable {P : Poseidon2Hash} {G : GameCore} {input : SlotInput} {e : SlotEffects} {s s' : State}
  {a : Slot} {as : List Slot} {u : UserId}

/-- What the slot adds to the balance of account `u`. -/
def Slot.addsTo (u : UserId) (a : Slot) : ℕ := if a.account = u then a.input.addAmount.toNat else 0

/-- What the slot takes from the balance of account `u`. -/
def Slot.takesFrom (u : UserId) (a : Slot) : ℕ :=
  if a.account = u then a.input.subAmount.toNat else 0

/-- What the slot bets of the allowance of account `u`. -/
def Slot.betOn (u : UserId) (a : Slot) : ℕ := if a.bets u then a.amount else 0

/-- What the slot grants to account `u`. -/
def Slot.grantOn (u : UserId) (a : Slot) : ℕ := if a.grants u then a.amount else 0

/-! ### One step -/

theorem Step.balance_flow (h : Step P G s a s') (u : UserId) :
    (s'.ledger u).balance.toNat + a.takesFrom u = (s.ledger u).balance.toNat + a.addsTo u := by
  rw [Slot.takesFrom, Slot.addsTo]
  by_cases hu : a.account = u
  · obtain ⟨hold, hnew⟩ := h.part_eq hu Leaf.balance
    have hdelta := h.spec.balance_delta
    rw [if_pos hu, if_pos hu]
    change (s.ledger u).balance = a.input.oldBalance at hold
    change (s'.ledger u).balance = a.effects.newBalance at hnew
    rw [hold, hnew]
    omega
  · rw [if_neg hu, if_neg hu, h.frame u (Ne.symm hu)]

theorem Step.total_flow (h : Step P G s a s') :
    s'.totalLiability.toNat + a.input.subAmount.toNat =
      s.totalLiability.toNat + a.input.addAmount.toNat := by
  have hdelta := h.spec.tl_delta
  rw [h.on.tl, h.currentTl] at hdelta
  rw [h.newTl]
  omega

theorem Step.allowance_flow (h : Step P G s a s') (u : UserId) (hg : a.grants u = false) :
    (s'.ledger u).allowance.toNat + a.betOn u = (s.ledger u).allowance.toNat := by
  rw [Slot.betOn]
  split
  · exact h.bet ‹_›
  · rw [h.keeps_allowance hg (Bool.not_eq_true _ ▸ ‹_›), Nat.add_zero]

theorem Step.allowance_flow_le (h : Step P G s a s') (u : UserId) :
    (s'.ledger u).allowance.toNat + a.betOn u ≤ (s.ledger u).allowance.toNat + a.grantOn u := by
  cases hg : a.grants u with
  | false =>
    rw [h.allowance_flow u hg]
    exact Nat.le_add_right _ _
  | true =>
    -- A grant is no bet, and leaves what it grants.
    have hbet : a.bets u = false := by
      obtain ⟨-, ht⟩ := Slot.grants_iff.mp hg
      rw [Slot.bets, ht, Bool.and_eq_false_iff]
      exact Or.inr rfl
    rw [h.grant hg, Slot.betOn, Slot.grantOn, hbet, hg]
    exact Nat.le_add_left _ _

/-- A slot that the owner did not sign keeps the credit, with what it deposits, up to what it bets
of the allowance. -/
theorem EffectsSpec.credit_floor (spec : EffectsSpec P G input e) (hold : input.oldLeaf.Covered)
    (hs : input.isSigned = false) : input.oldDepositCredit.toNat + input.creditAdd.toNat ≤
      e.newCredit.toNat + if input.txType = txBet then input.amount.toNat else 0 := by
  have hbal : e.newBalance.toNat = _ := spec.balance.newBalance
  have hcredit : e.newCredit.toNat = _ := spec.balance.newCredit
  have hcovered : input.oldDepositCredit.toNat ≤ input.oldBalance.toNat := hold
  by_cases hbet : input.txType = txBet
  · have hadd : input.addAmount = 0 := by rw [SlotInput.addAmount, hbet]; rfl
    have hsub : input.subAmount = input.amount := by rw [SlotInput.subAmount, hbet]; rfl
    have hcaps : input.capsCredit = true := by rw [SlotInput.capsCredit, hbet]; rfl
    have hnoCredit : input.creditAdd = 0 := by rw [SlotInput.creditAdd, hbet]; rfl
    rw [hadd, hsub, UInt64.toNat_zero] at hbal
    rw [if_pos hcaps, hnoCredit, UInt64.toNat_zero] at hcredit
    rw [if_pos hbet, hnoCredit, UInt64.toNat_zero]
    dsimp only at hcredit
    omega
  · -- Of the types that cap the credit, all but the provider bet are signed.
    have hcaps : input.capsCredit = false := by
      simp only [SlotInput.isSigned, SlotInput.capsCredit, List.mem_cons, List.not_mem_nil,
        or_false, decide_eq_false_iff_not, not_or] at hs ⊢
      exact ⟨hbet, hs.1, hs.2.2.2.1, hs.2.1, hs.2.2.1⟩
    rw [hcaps] at hcredit
    rw [if_neg hbet, Nat.add_zero]
    exact hcredit.ge

theorem Step.credit_floor (h : Step P G s a s') (hs : a.account = u → a.input.isSigned = false)
    (hold : (s.ledger u).Covered) : (s.ledger u).credit.toNat + a.depositOn u ≤
      (s'.ledger u).credit.toNat + a.betOn u := by
  by_cases hu : a.account = u
  · obtain ⟨holdCredit, hnewCredit⟩ := h.credit_eq hu
    have hleaf : a.input.oldLeaf.Covered := by
      rw [← h.oldLeaf, hu]
      exact hold
    have hfloor := h.spec.credit_floor hleaf (hs hu)
    have hdeposit : a.depositOn u = a.input.creditAdd.toNat := by
      rw [Slot.depositOn, SlotInput.creditAdd]
      by_cases ht : a.input.txType = txDeposit
      · rw [if_pos ⟨hu, ht⟩, if_pos ht]
        rfl
      · rw [if_neg (fun h => ht h.2), if_neg ht]
        rfl
    have hbet : a.betOn u = if a.input.txType = txBet then a.input.amount.toNat else 0 := by
      rw [Slot.betOn]
      simp only [Slot.bets_iff, hu, true_and]
      rfl
    rw [holdCredit, hnewCredit, hdeposit, hbet]
    exact hfloor
  · rw [Slot.depositOn, if_neg (fun h => hu h.1), h.frame u (Ne.symm hu)]
    exact Nat.le_add_right _ _

/-! ### Runs -/

theorem Run.total_flow (h : Run P G s as s') :
    s'.totalLiability.toNat + (as.map fun a => a.input.subAmount.toNat).sum =
      s.totalLiability.toNat + (as.map fun a => a.input.addAmount.toNat).sum :=
  (h.flow_of_step (r := (· = ·)) (I := fun _ => True) (fun _ _ _ h => by rw [h])
    (fun s : State => s.totalLiability.toNat) (fun a => a.input.subAmount.toNat)
    (fun a => a.input.addAmount.toNat) (fun _ _ _ _ h => ⟨trivial, h.total_flow⟩) trivial).2

theorem Run.balance_flow (h : Run P G s as s') (u : UserId) :
    (s'.ledger u).balance.toNat + (as.map (Slot.takesFrom u)).sum =
      (s.ledger u).balance.toNat + (as.map (Slot.addsTo u)).sum :=
  (h.flow_of_step (r := (· = ·)) (I := fun _ => True) (fun _ _ _ h => by rw [h])
    (fun s : State => (s.ledger u).balance.toNat) (Slot.takesFrom u) (Slot.addsTo u)
    (fun _ _ _ _ h => ⟨trivial, h.balance_flow u⟩) trivial).2

/-- Along every run the balance of an account moves by exactly what the slots on it bring and take,
the total liability by exactly what all slots bring and take, and the allowance of the account never
pays for more provider bets than it held and was granted. -/
theorem account_statement (hrun : Run P G s as s') (u : UserId) :
    (s'.ledger u).balance.toNat + (as.map (Slot.takesFrom u)).sum =
        (s.ledger u).balance.toNat + (as.map (Slot.addsTo u)).sum ∧
      s'.totalLiability.toNat + (as.map fun a => a.input.subAmount.toNat).sum =
        s.totalLiability.toNat + (as.map fun a => a.input.addAmount.toNat).sum ∧
      (s'.ledger u).allowance.toNat + (as.map (Slot.betOn u)).sum ≤
        (s.ledger u).allowance.toNat + (as.map (Slot.grantOn u)).sum := by
  refine ⟨hrun.balance_flow u, hrun.total_flow, ?_⟩
  exact (hrun.flow_of_step (r := (· ≤ ·)) (I := fun _ => True)
    (fun _ _ _ h => Nat.add_le_add_right h _) (fun s : State => (s.ledger u).allowance.toNat)
    (Slot.betOn u) (Slot.grantOn u) (fun _ _ _ _ h => ⟨trivial, h.allowance_flow_le u⟩)
    trivial).2

/-- Along every run without a slot that the owner of a covered account signs, what is left of the
account's allowance and what was bet of it make up the allowance before the run; its credit drops,
below what it was and what was deposited, by at most those bets; and the balance stays above it. -/
theorem unsigned_slots_keep_deposits (hrun : Run P G s as s') (hcovered : (s.ledger u).Covered)
    (hunsigned : ∀ a ∈ as, a.account = u → a.input.isSigned = false) :
    (s'.ledger u).allowance.toNat + (as.map (Slot.betOn u)).sum = (s.ledger u).allowance.toNat ∧
      (s.ledger u).credit.toNat + deposited u as ≤
        (s'.ledger u).credit.toNat + (as.map (Slot.betOn u)).sum ∧
      (s'.ledger u).credit.toNat ≤ (s'.ledger u).balance.toNat := by
  have hrun' := hrun.restrict hunsigned
  have hallowance := (hrun'.flow_of_step (r := (· = ·)) (I := fun _ => True)
    (fun _ _ _ h => by rw [h]) (fun s : State => (s.ledger u).allowance.toNat) (Slot.betOn u)
    (fun _ => 0) (fun s a s' _ h => ⟨trivial, ?_⟩) trivial).2
  · have hcredit := hrun'.flow_of_step (r := (· ≥ ·)) (I := fun s => (s.ledger u).toLeaf.Covered)
      (fun _ _ _ h => Nat.add_le_add_right h _) (fun s : State => (s.ledger u).credit.toNat)
      (Slot.betOn u) (Slot.depositOn u)
      (fun _ _ _ hs h => ⟨h.2.keeps h.2.spec.covered hs, h.2.credit_floor h.1 hs⟩) hcovered
    refine ⟨?_, hcredit.2, hcredit.1⟩
    simpa using hallowance
  · refine h.2.allowance_flow u ?_
    -- A grant on the account is signed.
    by_contra hg
    obtain ⟨hu, ht⟩ := Slot.grants_iff.mp (Bool.eq_true_of_not_eq_false hg)
    have hs := h.1 hu
    rw [SlotInput.isSigned, ht] at hs
    cases hs

theorem slots_statement : ∃ s, Run sumHash evenCore emptyState slots s ∧
    (s.ledger 5).balance.toNat + 10 = 14 ∧ s.totalLiability.toNat + 10 = 14 ∧
    (s.ledger 5).allowance.toNat + 3 ≤ 10 := by
  obtain ⟨s, hrun⟩ := slots_run
  obtain ⟨hbalance, htotal, hallowance⟩ := account_statement hrun 5
  exact ⟨s, hrun, hbalance.trans (by decide), htotal.trans (by decide),
    hallowance.trans_eq (by decide)⟩

theorem providerBet_keeps_deposits : ∃ s s', Run sumHash evenCore s
    [⟨playerProviderBet, playerProviderBetEffects⟩, ⟨playerTopUp, playerTopUpEffects⟩] s' ∧
      (s.ledger 5).credit = 20 ∧
      (s'.ledger 5).allowance.toNat + 3 = (s.ledger 5).allowance.toNat ∧
      (s.ledger 5).credit.toNat + 5 ≤ (s'.ledger 5).credit.toNat + 3 := by
  obtain ⟨t, hrun⟩ := player_run
  have hsplit : Run sumHash evenCore emptyState (playerSlots.take 4 ++
      ([⟨playerProviderBet, playerProviderBetEffects⟩, ⟨playerTopUp, playerTopUpEffects⟩] ++
        playerSlots.drop 6)) t := hrun
  obtain ⟨s, hpast, hrest⟩ := Transition.Run.append_iff.mp hsplit
  obtain ⟨s', hunsignedRun, -⟩ := Transition.Run.append_iff.mp hrest
  have hlast : Run sumHash evenCore emptyState
      (playerSlots.take 3 ++ [⟨playerGrant, playerGrantEffects⟩]) s := hpast
  obtain ⟨_, -, hgrant⟩ := Transition.Run.snoc_iff.mp hlast
  have hleaf : (s.ledger 5).toLeaf = playerGrantEffects.newLeaf := by
    rw [← hgrant.newLeaf, show Slot.account ⟨playerGrant, playerGrantEffects⟩ = 5 by decide]
  have hcovered : (s.ledger 5).Covered := by
    rw [hleaf]
    unfold Leaf.Covered
    decide
  have hunsigned : ∀ a ∈ [(⟨playerProviderBet, playerProviderBetEffects⟩ : Slot),
      ⟨playerTopUp, playerTopUpEffects⟩], a.account = 5 → a.input.isSigned = false := by
    decide
  obtain ⟨hallowance, hcredit, -⟩ := unsigned_slots_keep_deposits hunsignedRun hcovered hunsigned
  exact ⟨s, s', hunsignedRun, congrArg Leaf.credit hleaf, hallowance, hcredit⟩

end TxValidator
