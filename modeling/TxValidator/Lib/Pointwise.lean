import Mathlib.Data.List.Perm.Basic
import Mathlib.Logic.Function.Basic
import TxValidator.Lib.Run

/-! Families of machines that one sequence of labels drives: each label belongs to one machine of
the family, which takes a step while the others stay as they are.  A run of the family is a run of
each machine on its own labels, so only the order of the labels of one machine matters. -/

namespace Transition

variable {κ τ α : Type}

/-- The step of the machine `key a`; every other machine stays as it is. -/
structure Pointwise (key : α → κ) (step : τ → α → τ → Prop) (f : κ → τ) (a : α)
    (g : κ → τ) : Prop where
  own : step (f (key a)) a (g (key a))
  frame : ∀ k, k ≠ key a → g k = f k

variable [DecidableEq κ] {key : α → κ} {step : τ → α → τ → Prop} {f g : κ → τ} {as bs : List α}

/-- The labels of machine `k`, in order. -/
def labelsOf (key : α → κ) (k : κ) (as : List α) : List α := as.filter fun a => key a = k

theorem labelsOf_snoc (k : κ) (as : List α) (a : α) :
    labelsOf key k (as ++ [a]) =
      if key a = k then labelsOf key k as ++ [a] else labelsOf key k as := by
  unfold labelsOf
  rw [List.filter_append, List.filter_singleton]
  by_cases h : key a = k <;> simp [h]

/-- Labels of different machines can be swapped. -/
theorem labelsOf_swap (as bs : List α) {a b : α} (h : key a ≠ key b) {k : κ} :
    labelsOf key k (as ++ a :: b :: bs) = labelsOf key k (as ++ b :: a :: bs) := by
  unfold labelsOf
  rw [List.filter_append, List.filter_append]
  congr 1
  by_cases ha : key a = k
  · have hb : key b ≠ k := fun hb => h (ha.trans hb.symm)
    simp [ha, hb]
  · simp [List.filter_cons, ha]

/-- A run of the family is a run of each machine on its own labels. -/
theorem run_pointwise_iff :
    Run (Pointwise key step) f as g ↔ ∀ k, Run step (f k) (labelsOf key k as) (g k) := by
  induction as using List.reverseRecOn generalizing g with
  | nil =>
    show _ ↔ ∀ k, Run step (f k) [] (g k)
    simp only [Run.nil_iff, funext_iff]
  | append_singleton as a ih =>
    simp only [Run.snoc_iff, labelsOf_snoc]
    constructor
    · rintro ⟨g', hrun, hstep⟩ k
      by_cases hk : key a = k
      · subst hk
        rw [if_pos rfl]
        exact (ih.mp hrun (key a)).snoc hstep.own
      · rw [if_neg hk, hstep.frame k (Ne.symm hk)]
        exact ih.mp hrun k
    · intro h
      -- Before its last step machine `key a` was in a state `t`, and the others where they end.
      have hown := h (key a)
      rw [if_pos rfl, Run.snoc_iff] at hown
      obtain ⟨t, hrun, hstep⟩ := hown
      refine ⟨Function.update g (key a) t, ih.mpr fun k => ?_, ?_, fun k hk => ?_⟩
      · by_cases hk : key a = k
        · subst hk
          rwa [Function.update_self]
        · have hother := h k
          rw [if_neg hk] at hother
          rwa [Function.update_of_ne (Ne.symm hk)]
      · rwa [Function.update_self]
      · rw [Function.update_of_ne hk]

/-- Sequences with the same labels of every machine are permutations of each other. -/
theorem perm_of_labelsOf (h : ∀ k, labelsOf key k as = labelsOf key k bs) : as.Perm bs := by
  classical
  refine List.perm_iff_count.mpr fun a => ?_
  have hcount : ∀ cs : List α, List.count a cs = List.count a (labelsOf key (key a) cs) :=
    fun cs => (List.count_filter (by simp)).symm
  rw [hcount as, hcount bs, h]

end Transition
