import Mathlib.Data.List.Basic

/-!
# Early returns

A handler that answers and returns at the first check that fails is an
`Except ε` program of `refuseIf`, `orRefuse` and `orAnswer` steps.  What its success says is
the conjunction of the checks, which the lemmas below read off a program step by
step.
-/

namespace Conc

variable {ε α β : Type}

/-- Answer with `answer` and return when `bad` holds. -/
def refuseIf (bad : Bool) (answer : ε) : Except ε Unit :=
  if bad then .error answer else .ok ()

/-- The value, or answer with `answer` and return. -/
def orRefuse (value : Option α) (answer : ε) : Except ε α :=
  match value with
  | none => .error answer
  | some a => .ok a

/-- The value, or answer with what the failure becomes. -/
def orAnswer {δ : Type} (value : Except δ α) (answer : δ → ε) : Except ε α :=
  match value with
  | .error d => .error (answer d)
  | .ok a => .ok a

@[simp]
theorem refuseIf_eq_ok {bad : Bool} {answer : ε} {u : Unit} :
    refuseIf bad answer = .ok u ↔ bad = false := by
  cases bad <;> simp [refuseIf]

@[simp]
theorem orRefuse_eq_ok {value : Option α} {answer : ε} {a : α} :
    orRefuse value answer = .ok a ↔ value = some a := by
  cases value <;> simp [orRefuse]

@[simp]
theorem orAnswer_eq_ok {δ : Type} {value : Except δ α} {answer : δ → ε} {a : α} :
    orAnswer value answer = .ok a ↔ value = .ok a := by
  cases value <;> simp [orAnswer]

@[simp]
theorem pure_eq_ok {a b : α} : (pure a : Except ε α) = .ok b ↔ a = b :=
  ⟨fun eq => Except.ok.inj eq, fun eq => congrArg Except.ok eq⟩

/-- A program succeeds when its first step does and the rest does after it. -/
theorem bind_eq_ok {x : Except ε α} {f : α → Except ε β} {b : β} :
    (x >>= f) = .ok b ↔ ∃ a, x = .ok a ∧ f a = .ok b := by
  cases x with
  | error e => simp [bind, Except.bind]
  | ok a => simp [bind, Except.bind]

/-- Two programs agree if their first steps do and the rest does after every success. -/
theorem bind_eq_bind {x y : Except ε α} {f g : α → Except ε β} (same : x = y)
    (rest : ∀ a, y = .ok a → f a = g a) : (x >>= f) = (y >>= g) := by
  rw [same]
  cases y with
  | error e => rfl
  | ok a => exact rest a rfl

/-- Whatever a program answers when it does not succeed satisfies `P`. -/
def Answers (P : ε → Prop) (x : Except ε α) : Prop :=
  ∀ e, x = .error e → P e

section Answers

variable {P : ε → Prop}

theorem answers_ok {a : α} : Answers P (.ok a) := by
  intro e failed
  cases failed

theorem answers_refuseIf {bad : Bool} {answer : ε} (holds : P answer) :
    Answers P (refuseIf bad answer) := by
  intro e failed
  cases bad with
  | false => cases failed
  | true =>
      cases failed
      exact holds

theorem answers_orRefuse {value : Option α} {answer : ε} (holds : P answer) :
    Answers P (orRefuse value answer) := by
  intro e failed
  cases value with
  | none =>
      cases failed
      exact holds
  | some a => cases failed

theorem answers_orAnswer {δ : Type} {value : Except δ α} {answer : δ → ε}
    (holds : ∀ d, P (answer d)) : Answers P (orAnswer value answer) := by
  intro e failed
  cases value with
  | error d =>
      cases failed
      exact holds d
  | ok a => cases failed

theorem Answers.bind {x : Except ε α} {f : α → Except ε β} (first : Answers P x)
    (rest : ∀ a, x = .ok a → Answers P (f a)) : Answers P (x >>= f) := by
  intro e failed
  cases x with
  | error e' =>
      cases failed
      exact first _ rfl
  | ok a => exact rest a rfl e failed

end Answers

/-- A program does not succeed, and what it answers satisfies `P`. -/
def Fails (P : ε → Prop) (x : Except ε α) : Prop :=
  ∃ e, x = .error e ∧ P e

section Fails

variable {P : ε → Prop}

@[simp]
theorem fails_error {e : ε} : Fails P (.error e : Except ε α) ↔ P e := by
  simp [Fails]

@[simp]
theorem not_fails_ok {a : α} : ¬ Fails P (.ok a : Except ε α) := by
  simp [Fails]

@[simp]
theorem not_fails_pure {a : α} : ¬ Fails P (pure a : Except ε α) :=
  not_fails_ok

@[simp]
theorem fails_refuseIf {bad : Bool} {answer : ε} :
    Fails P (refuseIf bad answer) ↔ bad = true ∧ P answer := by
  cases bad <;> simp [refuseIf]

@[simp]
theorem fails_orRefuse {value : Option α} {answer : ε} :
    Fails P (orRefuse value answer) ↔ value = none ∧ P answer := by
  cases value <;> simp [orRefuse]

@[simp]
theorem fails_orAnswer {δ : Type} {value : Except δ α} {answer : δ → ε} :
    Fails P (orAnswer value answer) ↔ Fails (fun d => P (answer d)) value := by
  cases value <;> simp [orAnswer]

/-- A program fails in its first step, or after it. -/
theorem fails_bind {x : Except ε α} {f : α → Except ε β} :
    Fails P (x >>= f) ↔ Fails P x ∨ ∃ a, x = .ok a ∧ Fails P (f a) := by
  cases x <;> simp [bind, Except.bind]

end Fails

end Conc
