import Mathlib.Algebra.Group.Basic
import Mathlib.Algebra.Ring.Nat
import Mathlib.Data.List.Forall2
import Mathlib.Data.List.Induction
import Mathlib.Tactic.Common

/-! Runs of a labelled transition system: finite sequences of steps, the rules that carry what one
step preserves to whole runs, and the last label of a run that satisfies a predicate. -/

namespace Transition

variable {σ α β : Type}

/-- A run of `step` from `s`, with the labels of its steps in order. -/
inductive Run (step : σ → α → σ → Prop) (s : σ) : List α → σ → Prop
  | nil : Run step s [] s
  | snoc {as : List α} {a : α} {s' s'' : σ} :
      Run step s as s' → step s' a s'' → Run step s (as ++ [a]) s''

namespace Run

variable {step : σ → α → σ → Prop} {s s' s'' : σ} {as bs : List α}

theorem nil_iff : Run step s [] s' ↔ s = s' := by
  constructor
  · intro h
    generalize hnil : ([] : List α) = as at h
    cases h with
    | nil => rfl
    | snoc => simp at hnil
  · rintro rfl
    exact nil

/-- The last step of a run. -/
theorem snoc_iff {a : α} :
    Run step s (as ++ [a]) s'' ↔ ∃ s', Run step s as s' ∧ step s' a s'' := by
  constructor
  · intro h
    generalize hbs : as ++ [a] = bs at h
    cases h with
    | nil => simp at hbs
    | snoc hrun hstep =>
      obtain ⟨rfl, hlast⟩ := List.append_inj' hbs rfl
      cases hlast
      exact ⟨_, hrun, hstep⟩
  · rintro ⟨s', hrun, hstep⟩
    exact snoc hrun hstep

/-- A run of `as ++ bs` is a run of `as` and then one of `bs`. -/
theorem append_iff : Run step s (as ++ bs) s'' ↔ ∃ s', Run step s as s' ∧ Run step s' bs s'' := by
  induction bs using List.reverseRecOn generalizing s'' with
  | nil => simp [nil_iff]
  | append_singleton bs b ih =>
    simp only [← List.append_assoc, snoc_iff, ih]
    constructor
    · rintro ⟨t, ⟨s', has, hbs⟩, hstep⟩
      exact ⟨s', has, t, hbs, hstep⟩
    · rintro ⟨s', has, t, hbs, hstep⟩
      exact ⟨t, ⟨s', has, hbs⟩, hstep⟩

/-- A run that takes the label `a` somewhere is a run up to it, its step, and a run after it. -/
theorem middle_iff {a : α} : Run step s (as ++ a :: bs) s'' ↔
    ∃ t t', Run step s as t ∧ step t a t' ∧ Run step t' bs s'' := by
  rw [List.append_cons, append_iff]
  simp only [snoc_iff]
  constructor
  · rintro ⟨t', ⟨t, has, hstep⟩, hbs⟩
    exact ⟨t, t', has, hstep, hbs⟩
  · rintro ⟨t, t', has, hstep, hbs⟩
    exact ⟨t', ⟨t, has, hstep⟩, hbs⟩

/-- A property that every step keeps holds in every state that a run reaches. -/
theorem invariant {P : σ → Prop} (hstep : ∀ s a s', P s → step s a s' → P s')
    (h : Run step s as s') (hs : P s) : P s' := by
  induction h with
  | nil => exact hs
  | snoc _ h ih => exact hstep _ _ _ ih h

/-- When a step from a state with property `P` keeps it and has a label with property `Q`, so does
every step of a run from such a state. -/
theorem invariant_labels {P : σ → Prop} {Q : α → Prop}
    (hstep : ∀ s a s', P s → step s a s' → P s' ∧ Q a) (h : Run step s as s') (hs : P s) :
    P s' ∧ ∀ a ∈ as, Q a := by
  induction h with
  | nil => exact ⟨hs, by simp⟩
  | snoc _ h ih =>
    obtain ⟨hP, hQ⟩ := ih
    obtain ⟨hP', hlast⟩ := hstep _ _ _ hP h
    refine ⟨hP', fun a ha => ?_⟩
    rcases List.mem_append.mp ha with ha | ha
    · exact hQ a ha
    · cases List.mem_singleton.mp ha
      exact hlast

/-- A simulation step by step carries runs over. -/
theorem map {τ : Type} {step' : τ → β → τ → Prop} (f : σ → τ) (g : α → β)
    (hstep : ∀ s a s', step s a s' → step' (f s) (g a) (f s')) (h : Run step s as s') :
    Run step' (f s) (as.map g) (f s') := by
  induction h with
  | nil => exact nil
  | snoc _ h ih =>
    rw [List.map_append]
    exact snoc ih (hstep _ _ _ h)

/-- A run whose labels are all `good` is a run of the good steps. -/
theorem restrict {good : α → Prop} (h : Run step s as s') (hgood : ∀ a ∈ as, good a) :
    Run (fun s a s' => good a ∧ step s a s') s as s' := by
  induction h with
  | nil => exact nil
  | snoc _ h ih =>
    simp only [List.mem_append, List.mem_singleton] at hgood
    exact snoc (ih fun a ha => hgood a (Or.inl ha)) ⟨hgood _ (Or.inr rfl), h⟩

/-- Every label of a run is the label of a step. -/
theorem forall_label {P : α → Prop} (hstep : ∀ s a s', step s a s' → P a)
    (h : Run step s as s') : ∀ a ∈ as, P a := by
  induction h with
  | nil => simp
  | snoc _ h ih =>
    intro a ha
    rcases List.mem_append.mp ha with ha | ha
    · exact ih a ha
    · cases List.mem_singleton.mp ha
      exact hstep _ _ _ h

/-- An observation that a step raises by one exactly when its label is marked counts the marked
labels of a run. -/
theorem countP_of_step (obs : σ → Nat) {marked : α → Bool}
    (hstep : ∀ s a s', step s a s' → obs s' = obs s + if marked a then 1 else 0)
    (h : Run step s as s') : obs s' = obs s + as.countP marked := by
  induction h with
  | nil => simp
  | snoc _ h ih =>
    rw [hstep _ _ _ h, ih, List.countP_append, List.countP_singleton]
    omega

/-- When marked labels see the observation that they raise by one, the marked labels of a run see
its values one after the other, with no gap. -/
theorem range'_of_step (obs : σ → Nat) (seen : α → Nat) {marked : α → Bool}
    (hstep : ∀ s a s', step s a s' → obs s' = obs s + if marked a then 1 else 0)
    (hseen : ∀ s a s', step s a s' → marked a = true → seen a = obs s) (h : Run step s as s') :
    (as.filter marked).map seen = List.range' (obs s) (as.countP marked) := by
  induction h with
  | nil => rfl
  | @snoc as a s' _ hrun h ih =>
    rw [List.filter_append, List.map_append, ih, List.countP_append]
    cases hmark : marked a with
    | false => simp [hmark]
    | true =>
      have hlast : seen a = obs s + as.countP marked := by
        rw [hseen _ _ _ h hmark, countP_of_step obs hstep hrun]
      simp [hmark, hlast, List.range'_1_concat]

/-- When marked labels overwrite the observation that they see, what was there before a run and what
its marked labels write is, in order, what they see and what is there after it. -/
theorem handoff_of_step (obs : σ → β) (seen wrote : α → β) {marked : α → Bool}
    (hstep : ∀ s a s', step s a s' → obs s' = if marked a then wrote a else obs s)
    (hseen : ∀ s a s', step s a s' → marked a = true → seen a = obs s) (h : Run step s as s') :
    obs s :: (as.filter marked).map wrote = (as.filter marked).map seen ++ [obs s'] := by
  induction h with
  | nil => rfl
  | @snoc as a s' _ _ h ih =>
    have hlast := hstep _ _ _ h
    rw [List.filter_append]
    cases hmark : marked a with
    | false => simpa [hmark, hlast] using ih
    | true =>
      rw [hmark, if_pos rfl] at hlast
      have hfirst := hseen _ _ _ h hmark
      rw [List.map_append, ← List.cons_append, ih]
      simp [hmark, hlast, hfirst]

/-- An observation that a step raises by at most the weight of its label is bounded by its initial
value and the weights of a run. -/
theorem le_sum_of_step (obs : σ → Nat) (weight : α → Nat)
    (hstep : ∀ s a s', step s a s' → obs s' ≤ obs s + weight a)
    (h : Run step s as s') : obs s' ≤ obs s + (as.map weight).sum := by
  induction h with
  | nil => simp
  | snoc _ h ih =>
    have hlast := hstep _ _ _ h
    rw [List.map_append, List.sum_append, List.map_singleton, List.sum_singleton]
    omega

/-- A balance kept by every step from a state with the property `I` is kept by every run from such
a state: what the labels take and what they bring, up to the preorder `r`. -/
theorem flow_of_step {M : Type} [AddCommMonoid M] {r : M → M → Prop} [Std.Refl r] [IsTrans M r]
    (hadd : ∀ x y z, r x y → r (x + z) (y + z)) {I : σ → Prop} (obs : σ → M) (takes brings : α → M)
    (hstep : ∀ s a s', I s → step s a s' → I s' ∧ r (obs s' + takes a) (obs s + brings a))
    (h : Run step s as s') (hs : I s) :
    I s' ∧ r (obs s' + (as.map takes).sum) (obs s + (as.map brings).sum) := by
  induction h with
  | nil => exact ⟨hs, refl_of r _⟩
  | @snoc as a s' s'' _ h ih =>
    obtain ⟨hI, hsum⟩ := ih
    obtain ⟨hI', hlast⟩ := hstep _ _ _ hI h
    have h1 := hadd _ _ (as.map takes).sum hlast
    have h2 := hadd _ _ (brings a) hsum
    rw [add_right_comm (obs s') _ (brings a)] at h2
    have h3 := trans_of r h1 h2
    refine ⟨hI', ?_⟩
    simp only [List.map_append, List.sum_append, List.map_singleton, List.sum_singleton]
    rwa [add_right_comm, add_assoc (obs s), add_assoc (obs s'')] at h3

/-- A program that follows the observation of every step ends with the observation of the state
that the run reaches. -/
theorem foldlM_of_step {m : Type → Type} [Monad m] [LawfulMonad m] (obs : σ → β)
    (follow : β → α → m β) (hstep : ∀ s a s', step s a s' → follow (obs s) a = pure (obs s'))
    (h : Run step s as s') : as.foldlM follow (obs s) = pure (obs s') := by
  induction h with
  | nil => exact List.foldlM_nil
  | snoc _ h ih =>
    rw [List.foldlM_append, ih, pure_bind, List.foldlM_cons, hstep _ _ _ h, pure_bind,
      List.foldlM_nil]

/-- Marked labels see strictly increasing observations when no step lowers the observation and
every marked step raises it. -/
theorem pairwise_lt_of_step (obs : σ → Nat) (seen : α → Nat) {marked : α → Prop}
    (hle : ∀ s a s', step s a s' → obs s ≤ obs s')
    (hlt : ∀ s a s', step s a s' → marked a → seen a = obs s ∧ obs s < obs s')
    (h : Run step s as s') : as.Pairwise fun a b => marked a → marked b → seen a < seen b := by
  suffices hall : (as.Pairwise fun a b => marked a → marked b → seen a < seen b) ∧
      ∀ a ∈ as, marked a → seen a < obs s' from hall.1
  induction h with
  | nil => simp
  | snoc _ h ih =>
    obtain ⟨hpair, hbelow⟩ := ih
    refine ⟨List.pairwise_append.mpr ⟨hpair, by simp, ?_⟩, ?_⟩
    · intro a ha b hb hma hmb
      cases List.mem_singleton.mp hb
      rw [(hlt _ _ _ h hmb).1]
      exact hbelow a ha hma
    · intro a ha hma
      rcases List.mem_append.mp ha with ha | ha
      · exact Nat.lt_of_lt_of_le (hbelow a ha hma) (hle _ _ _ h)
      · cases List.mem_singleton.mp ha
        rw [(hlt _ _ _ h hma).1]
        exact (hlt _ _ _ h hma).2

/-- Steps that lead back to their state can be left out of a run. -/
theorem filter_idle {idle : α → Bool}
    (hidle : ∀ s a s', step s a s' → idle a = true → s' = s) (h : Run step s as s') :
    Run step s (as.filter fun a => !idle a) s' := by
  induction h with
  | nil => exact nil
  | @snoc as a s' s'' _ h ih =>
    rw [List.filter_append]
    cases hmark : idle a with
    | true =>
      rw [hidle _ _ _ h hmark]
      simpa [hmark] using ih
    | false => simpa [hmark] using ih.snoc h

end Run

/-! ### Padding -/

/-- The label that a plan gives, or one that fits what it asks for. -/
def Fills (fits : β → α → Prop) : α ⊕ β → α → Prop
  | .inl a, a' => a' = a
  | .inr b, a' => fits b a'

/-- When every state that a run passes has an idle step for whatever a plan asks for, the run can be
padded to the plan. -/
theorem Run.pad {step : σ → α → σ → Prop} {s s' : σ} {plan : List (α ⊕ β)} {fits : β → α → Prop}
    (hidle : ∀ as t b, as <+: plan.filterMap Sum.getLeft? → Run step s as t →
      ∃ a, fits b a ∧ step t a t)
    (h : Run step s (plan.filterMap Sum.getLeft?) s') :
    ∃ as, Run step s as s' ∧ List.Forall₂ (Fills fits) plan as := by
  induction plan using List.reverseRecOn generalizing s' with
  | nil => exact ⟨[], h, .nil⟩
  | append_singleton plan p ih =>
    rw [List.filterMap_append] at h hidle
    have hbefore : ∀ as t b, as <+: plan.filterMap Sum.getLeft? → Run step s as t →
        ∃ a, fits b a ∧ step t a t :=
      fun as t b has => hidle as t b (has.trans (List.prefix_append _ _))
    cases p with
    | inl a =>
      obtain ⟨t, hrun, hstep⟩ := snoc_iff.mp h
      obtain ⟨as, hpadded, hfills⟩ := ih hbefore hrun
      exact ⟨as ++ [a], hpadded.snoc hstep, List.rel_append hfills (.cons rfl .nil)⟩
    | inr b =>
      have hrun : Run step s (plan.filterMap Sum.getLeft?) s' := by
        rwa [show [Sum.inr b].filterMap Sum.getLeft? = ([] : List α) from rfl, List.append_nil] at h
      obtain ⟨as, hpadded, hfills⟩ := ih hbefore hrun
      obtain ⟨a, hfits, hstep⟩ := hidle _ s' b (List.prefix_append _ _) hrun
      exact ⟨as ++ [a], hpadded.snoc hstep, List.rel_append hfills (.cons hfits .nil)⟩

/-! ### The latest marked label -/

/-- The last element of `as` that satisfies `p`. -/
def latest (p : α → Bool) (as : List α) : Option α := as.reverse.find? p

/-- The elements of `as` after the last one that satisfies `p`. -/
def since (p : α → Bool) (as : List α) : List α := (as.reverse.takeWhile fun a => !p a).reverse

variable {p : α → Bool} {as : List α} {a : α}

theorem latest_snoc : latest p (as ++ [a]) = if p a then some a else latest p as := by
  unfold latest
  rw [List.reverse_append, List.reverse_singleton, List.singleton_append, List.find?_cons]
  cases p a <;> rfl

theorem latest_eq_none : latest p as = none ↔ ∀ a ∈ as, p a = false := by
  simp [latest, List.find?_eq_none]

theorem latest_eq_some (h : latest p as = some a) : a ∈ as ∧ p a = true :=
  ⟨List.mem_reverse.mp (List.mem_of_find?_eq_some h), List.find?_some h⟩

theorem since_snoc : since p (as ++ [a]) = if p a then [] else since p as ++ [a] := by
  unfold since
  rw [List.reverse_append, List.reverse_singleton, List.singleton_append, List.takeWhile_cons]
  cases p a <;> simp

/-- An observation that marked steps overwrite and other steps keep holds what the latest marked
label of a run wrote, or its initial value when there is none. -/
theorem Run.latest_of_step {step : σ → α → σ → Prop} {s s' : σ} (obs : σ → β) (wrote : α → β)
    (hstep : ∀ s a s', step s a s' → obs s' = if p a then wrote a else obs s)
    (h : Run step s as s') : obs s' = ((latest p as).map wrote).getD (obs s) := by
  induction h with
  | nil => rfl
  | snoc _ h ih =>
    rw [hstep _ _ _ h, latest_snoc, ih]
    split <;> rfl

end Transition
