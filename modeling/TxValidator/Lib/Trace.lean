import Mathlib.Tactic.Common

/-! Traced programs: programs over `Except` that record the operations they perform, whether they
succeed or not, and the judgement that such a program performs only allowed operations while it
computes what a plain program does.  Nothing here depends on a program. -/

variable {E ε α β γ : Type}

/-- A program that performs the operations `trace` and ends with `result`. -/
structure Traced (E ε α : Type) where
  trace : List E
  result : Except ε α

namespace Traced

instance : Monad (Traced E ε) where
  pure a := ⟨[], .ok a⟩
  bind x f := match x.result with
    | .ok a => ⟨x.trace ++ (f a).trace, (f a).result⟩
    | .error e => ⟨x.trace, .error e⟩

/-- Perform one operation. -/
def emit (e : E) : Traced E ε Unit := ⟨[e], .ok ()⟩

/-- A plain program performs no operations. -/
def lift (x : Except ε α) : Traced E ε α := ⟨[], x⟩

theorem bind_of_ok {x : Traced E ε α} {a : α} (h : x.result = .ok a) (f : α → Traced E ε β) :
    x >>= f = ⟨x.trace ++ (f a).trace, (f a).result⟩ := by
  show (match x.result with
    | .ok a => ⟨x.trace ++ (f a).trace, (f a).result⟩
    | .error e => ⟨x.trace, .error e⟩ : Traced E ε β) = _
  rw [h]

theorem bind_of_error {x : Traced E ε α} {e : ε} (h : x.result = .error e)
    (f : α → Traced E ε β) : x >>= f = ⟨x.trace, .error e⟩ := by
  show (match x.result with
    | .ok a => ⟨x.trace ++ (f a).trace, (f a).result⟩
    | .error e => ⟨x.trace, .error e⟩ : Traced E ε β) = _
  rw [h]

instance : LawfulMonad (Traced E ε) := by
  refine LawfulMonad.mk' _ (fun x => ?_) (fun x f => ?_) (fun x f g => ?_)
  · obtain ⟨trace, result⟩ := x
    cases result with
    | ok a => exact congrArg (Traced.mk · (.ok a)) (List.append_nil trace)
    | error e => rfl
  · rfl
  · cases hx : x.result with
    | error e =>
      rw [bind_of_error hx, bind_of_error hx]
      rfl
    | ok a =>
      rw [bind_of_ok hx, bind_of_ok hx]
      cases hf : (f a).result with
      | error e =>
        rw [bind_of_error hf]
        rfl
      | ok b =>
        rw [bind_of_ok hf, bind_of_ok rfl, List.append_assoc]

/-- The program performs only operations that satisfy `p`, and its result is that of `y`. -/
structure Runs (p : E → Prop) (x : Traced E ε α) (y : Except ε α) : Prop where
  allowed : ∀ e ∈ x.trace, p e
  result : x.result = y

namespace Runs

variable {p : E → Prop} {x : Traced E ε α} {y : Except ε α}

theorem pure (a : α) : Runs p (Pure.pure a : Traced E ε α) (.ok a) :=
  ⟨fun _ he => (nomatch he), rfl⟩

theorem lift (y : Except ε α) : Runs p (Traced.lift y) y :=
  ⟨fun _ he => (nomatch he), rfl⟩

theorem emit {e : E} (he : p e) : Runs p (Traced.emit e : Traced E ε Unit) (.ok ()) := by
  refine ⟨fun e' he' => ?_, rfl⟩
  rw [List.mem_singleton.mp he']
  exact he

/-- Programs that agree step by step: the second step runs on what the first returned. -/
theorem bind {f : α → Traced E ε β} {g : α → Except ε β} (hx : Runs p x y)
    (hf : ∀ a, y = .ok a → Runs p (f a) (g a)) : Runs p (x >>= f) (y >>= g) := by
  cases y with
  | error e =>
    rw [bind_of_error hx.result]
    exact ⟨hx.allowed, rfl⟩
  | ok a =>
    obtain ⟨hallowed, hresult⟩ := hf a rfl
    rw [bind_of_ok hx.result]
    refine ⟨fun e he => ?_, hresult⟩
    rcases List.mem_append.mp he with he | he
    · exact hx.allowed e he
    · exact hallowed e he

/-- A step that cannot fail, of a plain program that only names its value. -/
theorem step {f : α → Traced E ε β} {a : α} {y : Except ε β} (hx : Runs p x (.ok a))
    (hf : Runs p (f a) y) : Runs p (x >>= f) y :=
  bind (g := fun _ => y) hx fun _ ha => by
    cases ha
    exact hf

theorem map {f : α → β} (hx : Runs p x y) : Runs p (f <$> x) (f <$> y) := by
  rw [← bind_pure_comp, ← bind_pure_comp]
  exact hx.bind fun a _ => Runs.pure (f a)

/-- A fold each of whose steps runs, from states that satisfy the invariant `I`. -/
theorem foldl {f : α → γ → Traced E ε α} {g : α → γ → α} {I : α → Prop} {l : List γ}
    (hf : ∀ a, I a → ∀ c ∈ l, Runs p (f a c) (.ok (g a c)) ∧ I (g a c)) {a : α} (ha : I a) :
    Runs p (l.foldlM f a) (.ok (l.foldl g a)) := by
  induction l generalizing a with
  | nil => exact Runs.pure a
  | cons c l ih =>
    obtain ⟨hstep, hnext⟩ := hf a ha c (List.mem_cons_self ..)
    rw [List.foldlM_cons, List.foldl_cons]
    exact hstep.step (ih (fun a ha c hc => hf a ha c (List.mem_cons_of_mem _ hc)) hnext)

/-- A vector each of whose entries runs. -/
theorem ofFn {n : ℕ} {f : Fin n → Traced E ε α} {g : Fin n → α}
    (hf : ∀ i, Runs p (f i) (.ok (g i))) : Runs p (Vector.ofFnM f) (.ok (Vector.ofFn g)) := by
  induction n with
  | zero =>
    rw [Vector.ofFnM_zero]
    exact Runs.pure _
  | succ n ih =>
    rw [Vector.ofFnM_succ, Vector.ofFn_succ]
    exact (ih fun i => hf i.castSucc).step ((hf (Fin.last n)).step (Runs.pure _))

end Runs

end Traced
