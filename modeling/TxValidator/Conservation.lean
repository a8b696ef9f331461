import Mathlib.Algebra.BigOperators.Fin
import TxValidator.Ledger

/-! Conservation of liability: a slot moves the balance of its account and the total liability by
the same integer, so the total liability stays the sum of all balances. -/

namespace TxValidator

variable {P : Poseidon2Hash} {G : GameCore} {input : SlotInput} {e : SlotEffects} {s s' : State}
  {a : Slot} {as : List Slot}

/-- The sum of all balances of a ledger. -/
def Ledger.totalBalance (L : Ledger) : ℕ := ∑ u, (L u).balance.toNat

theorem EffectsSpec.balance_delta (spec : EffectsSpec P G input e) :
    (e.newBalance.toNat : ℤ) - input.oldBalance.toNat =
      input.addAmount.toNat - input.subAmount.toNat := by
  have hcovered := spec.balance.covered
  have hnew : e.newBalance.toNat = _ := spec.balance.newBalance
  omega

theorem EffectsSpec.tl_delta (spec : EffectsSpec P G input e) :
    (e.newTotalLiability.toNat : ℤ) - input.oldTotalLiability.toNat =
      input.addAmount.toNat - input.subAmount.toNat := by
  have hcovered := spec.tlCovered
  have hnew := spec.newTl
  omega

/-- Changing one value of a function on accounts changes its sum by as much. -/
theorem sum_of_eq_off {f g : UserId → ℕ} {u : UserId} (h : ∀ v, v ≠ u → g v = f v) :
    ∑ v, g v + f u = ∑ v, f v + g u := by
  have hf := Finset.add_sum_erase Finset.univ f (Finset.mem_univ u)
  have hg := Finset.add_sum_erase Finset.univ g (Finset.mem_univ u)
  have hrest : ∑ v ∈ Finset.univ.erase u, g v = ∑ v ∈ Finset.univ.erase u, f v :=
    Finset.sum_congr rfl fun v hv => h v (Finset.ne_of_mem_erase hv)
  omega

theorem Step.totalBalance (h : Step P G s a s') :
    s'.ledger.totalBalance + a.input.oldBalance.toNat =
      s.ledger.totalBalance + a.effects.newBalance.toNat := by
  obtain ⟨hold, hnew⟩ := h.part_eq rfl Leaf.balance
  have hsum := sum_of_eq_off (f := fun u => (s.ledger u).balance.toNat)
    (g := fun u => (s'.ledger u).balance.toNat) (u := a.account)
    fun v hv => by rw [h.frame v hv]
  rw [hold, hnew] at hsum
  exact hsum

/-- A step keeps the total liability equal to the sum of all balances. -/
theorem Step.conserves (h : Step P G s a s')
    (hs : s.totalLiability.toNat = s.ledger.totalBalance) :
    s'.totalLiability.toNat = s'.ledger.totalBalance := by
  have hsum := h.totalBalance
  have hbal := h.spec.balance_delta
  have htl := h.spec.tl_delta
  rw [h.on.tl, h.currentTl] at htl
  rw [h.newTl]
  omega

/-- The total liability stays the exact sum of all balances along every run, and every accepted
slot moves both by the same integer. -/
theorem total_liability_conserved (hrun : Run P G s as s')
    (hs : s.totalLiability.toNat = ∑ u, (s.ledger u).balance.toNat) :
    s'.totalLiability.toNat = ∑ u, (s'.ledger u).balance.toNat ∧
      ∀ input e, validateSlot P G input = .ok e →
        input.oldBalance.toNat + input.addAmount.toNat < 2 ^ 64 ∧
        input.oldTotalLiability.toNat + input.addAmount.toNat < 2 ^ 64 ∧
        (e.newTotalLiability.toNat : ℤ) - input.oldTotalLiability.toNat =
          e.newBalance.toNat - input.oldBalance.toNat := by
  refine ⟨hrun.invariant (P := fun s => s.totalLiability.toNat = s.ledger.totalBalance)
    (fun _ _ _ hs h => h.conserves hs) hs, fun input e h => ?_⟩
  obtain ⟨-, spec⟩ := validateSlot_eq_ok.mp h
  exact ⟨spec.balance.fits, spec.tlFits, by rw [spec.tl_delta, spec.balance_delta]⟩

theorem total_liability_conserved_slots : ∃ s, Run sumHash evenCore emptyState slots s ∧
    s.totalLiability.toNat = ∑ u, (s.ledger u).balance.toNat := by
  obtain ⟨s, hrun⟩ := slots_run
  have hempty : emptyState.totalLiability.toNat = ∑ u, (emptyState.ledger u).balance.toNat := by
    simp [emptyState, Ledger.zero, Account.zero]
  exact ⟨s, hrun, (total_liability_conserved hrun hempty).1⟩

end TxValidator
