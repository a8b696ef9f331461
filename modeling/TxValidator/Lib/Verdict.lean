import TxValidator.Lib.Checked

/-! Verdicts: `Except` programs that check constraints in order and stop with the error of the first
one that is violated.  The constraints of a sequence are those of its parts, in their order, so the
error of a program is read off the list; nothing here depends on a program. -/

namespace Checked

variable {ε α β : Type} {cs cs' : List (ε × Prop)} {e r : ε} {p : Prop}

/-- `r` is the error of the first violated constraint of the list. -/
def FirstViolated : List (ε × Prop) → ε → Prop
  | [], _ => False
  | (e, p) :: cs, r => ¬p ∧ e = r ∨ p ∧ FirstViolated cs r

/-- The program stops with the error of the first violated constraint, and with no other. -/
def Checks (cs : List (ε × Prop)) (x : Except ε α) : Prop :=
  ∀ r, x = .error r ↔ FirstViolated cs r

/-- Every error of the program is `e`. -/
def FailsOnly (e : ε) (x : Except ε α) : Prop := ∀ r, x = .error r → e = r

/-! ### Lists of constraints -/

theorem firstViolated_append : FirstViolated (cs ++ cs') r ↔
    FirstViolated cs r ∨ (∀ c ∈ cs, c.2) ∧ FirstViolated cs' r := by
  induction cs with
  | nil => simp [FirstViolated]
  | cons c cs ih =>
    obtain ⟨e, p⟩ := c
    simp only [List.cons_append, FirstViolated, ih, List.forall_mem_cons]
    tauto

/-- The error of the first violated constraint names a violated constraint. -/
theorem FirstViolated.exists_mem (h : FirstViolated cs r) : ∃ p, (r, p) ∈ cs ∧ ¬p := by
  induction cs with
  | nil => exact h.elim
  | cons c cs ih =>
    rcases h with ⟨hp, rfl⟩ | ⟨-, h⟩
    · exact ⟨c.2, List.mem_cons_self .., hp⟩
    · obtain ⟨p, hmem, hp⟩ := ih h
      exact ⟨p, List.mem_cons_of_mem _ hmem, hp⟩

theorem exists_firstViolated : (∃ r, FirstViolated cs r) ↔ ¬∀ c ∈ cs, c.2 := by
  induction cs with
  | nil => simp [FirstViolated]
  | cons c cs ih =>
    simp only [FirstViolated, List.forall_mem_cons, exists_or, exists_and_left, exists_eq',
      and_true, ih]
    tauto

/-! ### Programs -/

namespace Checks

variable {x : Except ε α} {f : α → Except ε β}

theorem exists_ok_iff (h : Checks cs x) : (∃ a, x = .ok a) ↔ ∀ c ∈ cs, c.2 := by
  rw [← not_iff_not, ← exists_firstViolated, ← exists_congr h]
  cases x <;> simp

theorem ok {a : α} : Checks [] (.ok a : Except ε α) := fun _ => iff_of_false nofun id

theorem ok_of_forall {a : α} (h : ∀ c ∈ cs, c.2) : Checks cs (.ok a : Except ε α) :=
  fun r => iff_of_false nofun fun hr => exists_firstViolated.mp ⟨r, hr⟩ h

/-- The constraints of a sequence are those of its first part, then those of its second. -/
theorem bind (hx : Checks cs x) (hf : ∀ a, x = .ok a → Checks cs' (f a)) :
    Checks (cs ++ cs') (x >>= f) := by
  intro r
  rw [bind_eq_error, firstViolated_append, hx r, ← hx.exists_ok_iff]
  refine or_congr_right ⟨?_, ?_⟩
  · rintro ⟨a, ha, h⟩
    exact ⟨⟨a, ha⟩, (hf a ha r).mp h⟩
  · rintro ⟨⟨a, ha⟩, h⟩
    exact ⟨a, ha, (hf a ha r).mpr h⟩

/-- A first part with one constraint. -/
theorem cons {c : ε × Prop} (hx : Checks [c] x) (hf : ∀ a, x = .ok a → Checks cs (f a)) :
    Checks (c :: cs) (x >>= f) := hx.bind hf

/-- A first part that returns. -/
theorem pure_bind {a : α} (hx : x = .ok a) (hf : Checks cs (f a)) : Checks cs (x >>= f) := by
  rw [hx]
  exact hf

/-- A second part that returns. -/
theorem bind_pure {g : α → β} (hx : Checks cs x) (hf : ∀ a, f a = .ok (g a)) :
    Checks cs (x >>= f) := by
  rw [← List.append_nil cs]
  refine hx.bind fun a _ => ?_
  rw [hf a]
  exact ok

theorem map {g : α → β} (hx : Checks cs x) : Checks cs (g <$> x) := by
  intro r
  rw [← hx r]
  cases x with
  | error e => exact ⟨fun h => by cases h; rfl, fun h => by cases h; rfl⟩
  | ok a => exact iff_of_false nofun nofun

theorem of_failsOnly (h : FailsOnly e x) (hok : (∃ a, x = .ok a) ↔ p) : Checks [(e, p)] x := by
  intro r
  simp only [FirstViolated, and_false, or_false, ← hok]
  cases x with
  | error e' =>
    have he := h e' rfl
    simp [he]
  | ok a => simp

theorem failIf {bad : Bool} (h : bad = false ↔ p) : Checks [(e, p)] (failIf bad e) :=
  fun r => by cases bad <;> simp_all [FirstViolated, Checked.failIf]

theorem okOr {o : Option α} (h : o.isSome = true ↔ p) : Checks [(e, p)] (okOr o e) :=
  fun r => by cases o <;> simp_all [FirstViolated, Checked.okOr]

theorem ite {c : Prop} [Decidable c] {a : α} (h : c ↔ p) :
    Checks [(e, p)] (if c then .ok a else .error e) :=
  fun r => by by_cases hc : c <;> simp_all [FirstViolated]

end Checks

/-! ### Programs with one error -/

namespace FailsOnly

variable {x : Except ε α} {f : α → Except ε β}

theorem ok {a : α} : FailsOnly e (.ok a : Except ε α) := nofun

theorem error : FailsOnly e (.error e : Except ε α) := fun _ h => Except.error.inj h

theorem bind (hx : FailsOnly e x) (hf : ∀ a, FailsOnly e (f a)) : FailsOnly e (x >>= f) := by
  intro r h
  rcases bind_eq_error.mp h with h | ⟨a, -, h⟩
  · exact hx r h
  · exact hf a r h

theorem failIf {bad : Bool} : FailsOnly e (failIf bad e) := by
  cases bad with
  | false => exact ok
  | true => exact error

theorem okOr {o : Option α} : FailsOnly e (okOr o e) := by
  cases o with
  | none => exact error
  | some a => exact ok

end FailsOnly

/-! ### Words -/

theorem add_isSome {a b : UInt64} : (add a b).isSome = true ↔ a.toNat + b.toNat < 2 ^ 64 := by
  rw [← Option.ne_none_iff_isSome, ne_eq, add_eq_none, Nat.not_le]

theorem sub_isSome {a b : UInt64} : (sub a b).isSome = true ↔ b.toNat ≤ a.toNat := by
  rw [sub]
  split <;> simp_all

theorem sub_eq_none {a b : UInt64} : sub a b = none ↔ a.toNat < b.toNat := by
  rw [← Option.isNone_iff_eq_none, ← Bool.not_eq_false, Option.isNone_eq_false_iff, sub_isSome,
    Nat.not_le]

end Checked
