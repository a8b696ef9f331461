import Mathlib.Data.UInt
import Mathlib.Tactic.Common

/-! Checked computation: inversion of `Except` programs that stop at the first error, and the
checked addition and subtraction of 64-bit words.  Nothing here depends on a program. -/

namespace Checked

variable {ε α β : Type}

/-- Stop with `e` when `bad` holds. -/
def failIf (bad : Bool) (e : ε) : Except ε Unit :=
  if bad then .error e else .ok ()

/-- The value of `o`, or the error `e` when there is none. -/
def okOr (o : Option α) (e : ε) : Except ε α :=
  match o with
  | some a => .ok a
  | none => .error e

@[simp] theorem failIf_eq_ok {bad : Bool} {e : ε} {u : Unit} :
    failIf bad e = .ok u ↔ bad = false := by
  cases bad <;> simp [failIf]

@[simp] theorem okOr_eq_ok {o : Option α} {e : ε} {a : α} : okOr o e = .ok a ↔ o = some a := by
  cases o <;> simp [okOr]

@[simp] theorem okOr_eq_error {o : Option α} {e r : ε} :
    okOr o e = .error r ↔ o = none ∧ e = r := by
  cases o <;> simp [okOr]

/-- A sequence of two programs returns `b` when the first returns a value from which the second
returns `b`. -/
theorem bind_eq_ok {x : Except ε α} {f : α → Except ε β} {b : β} :
    (x >>= f) = .ok b ↔ ∃ a, x = .ok a ∧ f a = .ok b := by
  cases x with
  | error e => exact ⟨nofun, fun ⟨_, h, _⟩ => nomatch h⟩
  | ok a => exact ⟨fun h => ⟨a, rfl, h⟩, fun ⟨_, h, hf⟩ => by cases h; exact hf⟩

theorem unit_bind_eq_ok {x : Except ε Unit} {f : Unit → Except ε β} {b : β} :
    (x >>= f) = .ok b ↔ x = .ok () ∧ f () = .ok b := by
  rw [bind_eq_ok]
  exact ⟨fun ⟨(), h⟩ => h, fun h => ⟨(), h⟩⟩

theorem failIf_bind_eq_ok {bad : Bool} {e : ε} {f : Unit → Except ε β} {b : β} :
    (failIf bad e >>= f) = .ok b ↔ bad = false ∧ f () = .ok b := by
  rw [unit_bind_eq_ok, failIf_eq_ok]

theorem ite_eq_ok {c : Prop} [Decidable c] {e : ε} {u : Unit} :
    (if c then .ok () else .error e) = (.ok u : Except ε Unit) ↔ c := by
  split
  · exact iff_of_true rfl ‹_›
  · exact iff_of_false nofun ‹_›

theorem failIf_bind {bad : Bool} {e : ε} {x : Except ε β} :
    (failIf bad e >>= fun _ => x) = if bad then .error e else x := by
  cases bad with
  | false => rfl
  | true => rfl

theorem map_eq_ok {x : Except ε α} {f : α → β} {b : β} :
    (f <$> x) = .ok b ↔ ∃ a, x = .ok a ∧ f a = b := by
  cases x with
  | error e => exact ⟨nofun, fun ⟨_, h, _⟩ => nomatch h⟩
  | ok a => simp [Functor.map, Except.map]

theorem error_of_map_eq_error {x : Except ε α} {f : α → β} {r : ε} (h : f <$> x = .error r) :
    ∃ r', x = .error r' := by
  cases x with
  | error e => exact ⟨e, rfl⟩
  | ok a => cases h

theorem map_error {x : Except ε α} {f : α → β} {r : ε} (h : x = .error r) :
    f <$> x = .error r := by
  rw [h]
  rfl

theorem bind_eq_error {x : Except ε α} {f : α → Except ε β} {r : ε} :
    (x >>= f) = .error r ↔ x = .error r ∨ ∃ a, x = .ok a ∧ f a = .error r := by
  cases x with
  | error e =>
    constructor
    · intro h
      cases h
      exact Or.inl rfl
    · rintro (h | ⟨a, h, -⟩)
      · cases h
        rfl
      · cases h
  | ok a =>
    constructor
    · intro h
      exact Or.inr ⟨a, rfl, h⟩
    · rintro (h | ⟨a', h, hf⟩)
      · cases h
      · cases h
        exact hf

theorem exists_of_isOk {x : Except ε α} (h : x.isOk = true) : ∃ a, x = .ok a := by
  cases x with
  | error e => cases h
  | ok a => exact ⟨a, rfl⟩

/-! ### Programs that avoid an error -/

/-- The program never stops with the error `r`. -/
def Avoids (r : ε) (x : Except ε α) : Prop := x ≠ .error r

theorem avoids_ok {r : ε} {a : α} : Avoids r (.ok a : Except ε α) := nofun

theorem avoids_error {r e : ε} (h : e ≠ r) : Avoids r (.error e : Except ε α) := by
  intro he
  cases he
  exact h rfl

theorem Avoids.bind {r : ε} {x : Except ε α} {f : α → Except ε β} (hx : Avoids r x)
    (hf : ∀ a, Avoids r (f a)) : Avoids r (x >>= f) := by
  intro h
  rcases bind_eq_error.mp h with h | ⟨a, -, h⟩
  · exact hx h
  · exact hf a h

theorem Avoids.map {r : ε} {x : Except ε α} {f : α → β} (hx : Avoids r x) :
    Avoids r (f <$> x) := by
  cases x with
  | error e =>
    intro h
    cases h
    exact hx rfl
  | ok a => exact avoids_ok

theorem avoids_failIf {r e : ε} {bad : Bool} (h : e ≠ r) : Avoids r (failIf bad e) := by
  cases bad with
  | false => exact avoids_ok
  | true => exact avoids_error h

theorem avoids_okOr {r e : ε} {o : Option α} (h : e ≠ r) : Avoids r (okOr o e) := by
  cases o with
  | none => exact avoids_error h
  | some a => exact avoids_ok

/-! ### Words -/

/-- The sum of two words, or nothing when it does not fit in a word. -/
def add (a b : UInt64) : Option UInt64 :=
  if a.toNat + b.toNat < 2 ^ 64 then some (a + b) else none

/-- The difference of two words, or nothing when it is negative. -/
def sub (a b : UInt64) : Option UInt64 :=
  if b.toNat ≤ a.toNat then some (a - b) else none

theorem add_eq_some {a b c : UInt64} : add a b = some c ↔ c.toNat = a.toNat + b.toNat := by
  have hc := c.toNat_lt
  unfold add
  constructor
  · intro h
    split at h
    · cases h
      rw [UInt64.toNat_add, Nat.mod_eq_of_lt ‹_›]
    · cases h
  · intro h
    rw [if_pos (by omega), Option.some_inj]
    apply UInt64.toNat_inj.mp
    rw [UInt64.toNat_add, Nat.mod_eq_of_lt (by omega), h]

theorem sub_eq_some {a b c : UInt64} :
    sub a b = some c ↔ b.toNat ≤ a.toNat ∧ c.toNat = a.toNat - b.toNat := by
  unfold sub
  constructor
  · intro h
    split at h
    · cases h
      exact ⟨‹_›, UInt64.toNat_sub_of_le _ _ (UInt64.le_iff_toNat_le.mpr ‹_›)⟩
    · cases h
  · rintro ⟨hle, h⟩
    rw [if_pos hle, Option.some_inj]
    apply UInt64.toNat_inj.mp
    rw [UInt64.toNat_sub_of_le _ _ (UInt64.le_iff_toNat_le.mpr hle), h]

theorem add_eq_none {a b : UInt64} : add a b = none ↔ 2 ^ 64 ≤ a.toNat + b.toNat := by
  rw [add, ite_eq_right_iff, ← Nat.not_lt]
  simp

theorem add_zero (a : UInt64) : add a 0 = some a := by
  simp [add_eq_some]

theorem zero_add (a : UInt64) : add 0 a = some a := by
  simp [add_eq_some]

end Checked
