import TxValidator.Ledger

/-! The provider allowance along a run: the amount of the latest grant less the provider bets since
it. -/

namespace TxValidator

open Transition (latest since latest_snoc since_snoc)

variable {P : Poseidon2Hash} {G : GameCore} {input : SlotInput} {e : SlotEffects} {s s' : State}
  {a : Slot} {as : List Slot}

/-- The slot sets the allowance of account `u`. -/
def Slot.grants (u : UserId) (a : Slot) : Bool :=
  a.account == u && a.input.txType == txSetProviderAllowance

/-- The slot is a provider bet of account `u`. -/
def Slot.bets (u : UserId) (a : Slot) : Bool := a.account == u && a.input.txType == txBet

/-- The amount of the latest grant of a run, or the allowance before the run. -/
def granted (s : State) (u : UserId) (as : List Slot) : ℕ :=
  ((latest (Slot.grants u) as).map Slot.amount).getD (s.ledger u).allowance.toNat

/-- The sum of the provider bets since the latest grant of a run. -/
def spent (u : UserId) (as : List Slot) : ℕ :=
  (((since (Slot.grants u) as).filter (Slot.bets u)).map Slot.amount).sum

theorem granted_snoc (s : State) (u : UserId) (as : List Slot) (a : Slot) :
    granted s u (as ++ [a]) = if a.grants u then a.amount else granted s u as := by
  unfold granted
  rw [latest_snoc]
  split <;> rfl

theorem spent_snoc (u : UserId) (as : List Slot) (a : Slot) :
    spent u (as ++ [a]) =
      if a.grants u then 0 else spent u as + if a.bets u then a.amount else 0 := by
  unfold spent
  rw [since_snoc]
  split
  · rfl
  · rw [List.filter_append, List.map_append, List.sum_append]
    cases hb : a.bets u <;> simp [hb]

/-! ### One step -/

theorem Slot.grants_iff {u : UserId} :
    a.grants u = true ↔ a.account = u ∧ a.input.txType = txSetProviderAllowance := by
  rw [Slot.grants, Bool.and_eq_true, beq_iff_eq, beq_iff_eq]

theorem Slot.bets_iff {u : UserId} :
    a.bets u = true ↔ a.account = u ∧ a.input.txType = txBet := by
  rw [Slot.bets, Bool.and_eq_true, beq_iff_eq, beq_iff_eq]

theorem Step.allowance_eq (h : Step P G s a s') {u : UserId} (hu : a.account = u) :
    (s.ledger u).allowance = a.input.oldProviderAllowance ∧
      (s'.ledger u).allowance = a.effects.newProviderAllowance :=
  h.part_eq hu Leaf.allowance

theorem Step.grant (h : Step P G s a s') {u : UserId} (hg : a.grants u = true) :
    (s'.ledger u).allowance.toNat = a.amount := by
  obtain ⟨hu, ht⟩ := Slot.grants_iff.mp hg
  rw [(h.allowance_eq hu).2, (h.spec.allowance.set ht).2]
  rfl

theorem Step.bet (h : Step P G s a s') {u : UserId} (hb : a.bets u = true) :
    (s'.ledger u).allowance.toNat + a.amount = (s.ledger u).allowance.toNat := by
  obtain ⟨hu, ht⟩ := Slot.bets_iff.mp hb
  obtain ⟨hle, hnew⟩ := h.spec.allowance.bet ht
  rw [(h.allowance_eq hu).1, (h.allowance_eq hu).2, hnew]
  exact Nat.sub_add_cancel hle

/-- No type but a grant and a provider bet changes an allowance. -/
theorem Step.keeps_allowance (h : Step P G s a s') {u : UserId} (hg : a.grants u = false)
    (hb : a.bets u = false) : (s'.ledger u).allowance = (s.ledger u).allowance := by
  by_cases hu : a.account = u
  · obtain ⟨hold, hnew⟩ := h.allowance_eq hu
    rw [hold, hnew]
    refine h.spec.allowance.keep (fun ht => ?_) fun ht => ?_
    · rw [Slot.grants_iff.mpr ⟨hu, ht⟩] at hg
      cases hg
    · rw [Slot.bets_iff.mpr ⟨hu, ht⟩] at hb
      cases hb
  · rw [h.frame u (Ne.symm hu)]

/-! ### Runs -/

/-- What is left of an allowance and what was spent of it make up the latest grant. -/
theorem Run.allowance (hrun : Run P G s as s') (u : UserId) :
    (s'.ledger u).allowance.toNat + spent u as = granted s u as := by
  induction hrun with
  | nil => rfl
  | snoc _ h ih =>
    rw [granted_snoc, spent_snoc]
    split
    · rename_i hg
      rw [h.grant hg, Nat.add_zero]
    · rename_i hg
      split
      · rename_i hb
        have hbet := h.bet hb
        omega
      · rename_i hb
        rw [h.keeps_allowance (Bool.not_eq_true _ ▸ hg) (Bool.not_eq_true _ ▸ hb)]
        exact ih

theorem granted_of_no_grant {u : UserId} (h : ∀ b ∈ as, b.grants u = false) :
    granted s u as = (s.ledger u).allowance.toNat := by
  have hnone : latest (Slot.grants u) as = none := by
    rw [latest, List.find?_eq_none]
    intro b hb
    simp [h b (List.mem_reverse.mp hb)]
  rw [granted, hnone]
  rfl

/-- Along every run the stored allowance is the latest grant, or the initial allowance, less the
provider bets since then; it fits 62 bits; no other slot changes it; and an account that starts
without an allowance has no bet of a non-zero amount accepted before a grant. -/
theorem provider_allowance_over_runs {u : UserId} (hrun : Run P G s as s') :
    spent u as ≤ granted s u as ∧
      (s'.ledger u).allowance.toNat = granted s u as - spent u as ∧
      (s'.ledger u).allowance.toNat < 2 ^ 62 ∧
      (∀ a s'', Step P G s' a s'' → a.grants u = false → a.bets u = false →
        (s''.ledger u).allowance = (s'.ledger u).allowance) ∧
      ((s.ledger u).allowance = 0 → ∀ a s'', Step P G s' a s'' → a.bets u = true →
        a.input.amount ≠ 0 → ∃ b ∈ as, b.grants u = true) := by
  have hsum := hrun.allowance u
  refine ⟨by omega, by omega, toNat_lt_of_le_max (s'.ledger u).storable.allowance,
    fun a s'' h hg hb => h.keeps_allowance hg hb, fun hzero a s'' h hb hamount => ?_⟩
  by_contra hnone
  have hgranted : granted s u as = 0 := by
    rw [granted_of_no_grant, hzero]
    · rfl
    · intro b hb
      by_contra hg
      exact hnone ⟨b, hb, Bool.eq_true_of_not_eq_false hg⟩
  have hbet := h.bet hb
  refine hamount (UInt64.toNat_inj.mp ?_)
  show a.amount = 0
  omega

theorem provider_allowance_over_slots : ∃ s, Run sumHash evenCore emptyState slots s ∧
    (s.ledger 5).allowance.toNat = 10 - 3 := by
  obtain ⟨s, hrun⟩ := slots_run
  have hgranted : granted emptyState 5 slots = 10 := by decide
  have hspent : spent 5 slots = 3 := by decide
  have hleft := (provider_allowance_over_runs (u := 5) hrun).2.1
  rw [hgranted, hspent] at hleft
  exact ⟨s, hrun, hleft⟩

end TxValidator
