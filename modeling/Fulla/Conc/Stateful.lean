import Mathlib.Data.List.Basic

/-!
# Early returns over a state

A function that changes a state and returns at the first check that fails is a program of
`ExceptT ε (StateM σ)`.  Nothing is rolled back when it returns early, so what it has left
behind by then is to be proved: `Leaves` is for a program that never touches what `view`
shows, `LeavesOnStop` for one that has not touched it when it returns early.
-/

namespace Conc

variable {σ ε α β τ : Type}

/-- A computation on a state that can stop. -/
abbrev Stateful (σ ε : Type) := ExceptT ε (StateM σ)

/-- The result of a program and the state it leaves. -/
def exec (x : Stateful σ ε α) (s : σ) : Except ε α × σ :=
  x s

/-- Return early, with a last change of the state. -/
def stop (act : σ → σ) (e : ε) : Stateful σ ε α :=
  fun s => (.error e, act s)

/-- Stop if the condition holds. -/
def stopIf (bad : Bool) (act : σ → σ) (e : ε) : Stateful σ ε Unit :=
  if bad then stop act e else pure ()

/-- Stop if there is no value. -/
def orStop (value : Option α) (act : σ → σ) (e : ε) : Stateful σ ε α :=
  match value with
  | none => stop act e
  | some a => pure a

/-- The value, or return early with what the failure becomes. -/
def orThrow {δ : Type} (value : Except δ α) (answer : δ → ε) : Stateful σ ε α :=
  match value with
  | .error d => stop id (answer d)
  | .ok a => pure a

/-- A change of the state that cannot fail. -/
def perform (act : σ → σ) : Stateful σ ε Unit :=
  fun s => (.ok (), act s)

@[simp]
theorem exec_pure {a : α} {s : σ} : exec (pure a : Stateful σ ε α) s = (.ok a, s) :=
  rfl

@[simp]
theorem exec_stop {act : σ → σ} {e : ε} {s : σ} :
    exec (stop act e : Stateful σ ε α) s = (.error e, act s) :=
  rfl

@[simp]
theorem exec_perform {act : σ → σ} {s : σ} :
    exec (perform act : Stateful σ ε Unit) s = (.ok (), act s) :=
  rfl

@[simp]
theorem exec_lift {x : StateM σ α} {s : σ} :
    exec (liftM x : Stateful σ ε α) s = (.ok (x s).1, (x s).2) :=
  rfl

/-- The second part runs after the first. -/
theorem exec_bind_ok {x : Stateful σ ε α} {f : α → Stateful σ ε β} {s s' : σ} {a : α}
    (first : exec x s = (.ok a, s')) : exec (x >>= f) s = exec (f a) s' := by
  change (match exec x s with | (r, s') => ExceptT.bindCont f r s') = _
  rw [first]
  rfl

/-- The second part does not run. -/
theorem exec_bind_error {x : Stateful σ ε α} {f : α → Stateful σ ε β} {s s' : σ} {e : ε}
    (first : exec x s = (.error e, s')) : exec (x >>= f) s = (.error e, s') := by
  change (match exec x s with | (r, s') => ExceptT.bindCont f r s') = _
  rw [first]
  rfl

/-! ## Success -/

section Success

variable {s t : σ}

/-- A program succeeds when its first step does and the rest does after it. -/
theorem exec_bind_eq_ok {x : Stateful σ ε α} {f : α → Stateful σ ε β} {b : β} :
    exec (x >>= f) s = (.ok b, t) ↔
      ∃ a s', exec x s = (.ok a, s') ∧ exec (f a) s' = (.ok b, t) := by
  cases first : exec x s with
  | mk r s' =>
      cases r with
      | ok a =>
          rw [exec_bind_ok first]
          simp
      | error e =>
          rw [exec_bind_error first]
          simp

/-- A check that passes. -/
theorem exec_stopIf_eq_ok {bad : Bool} {act : σ → σ} {e : ε} {u : Unit} :
    exec (stopIf bad act e) s = (.ok u, t) ↔ bad = false ∧ s = t := by
  cases bad <;> simp [stopIf]

/-- A value that is there. -/
theorem exec_orStop_eq_ok {value : Option α} {act : σ → σ} {e : ε} {a : α} :
    exec (orStop value act e) s = (.ok a, t) ↔ value = some a ∧ s = t := by
  cases value <;> simp [orStop]

theorem exec_orThrow_eq_ok {δ : Type} {value : Except δ α} {answer : δ → ε} {a : α} :
    exec (orThrow value answer : Stateful σ ε α) s = (.ok a, t) ↔ value = .ok a ∧ s = t := by
  cases value <;> simp [orThrow]

end Success

/-! ## What is left alone -/

/-- The program leaves what `view` shows as it was. -/
def Leaves (view : σ → τ) (x : Stateful σ ε α) : Prop :=
  ∀ s, view (exec x s).2 = view s

/-- What `view` shows is as it was when the program returns early. -/
def LeavesOnStop (view : σ → τ) (x : Stateful σ ε α) : Prop :=
  ∀ s e, (exec x s).1 = .error e → view (exec x s).2 = view s

section Leaves

variable {view : σ → τ}

theorem leaves_pure {a : α} : Leaves view (pure a : Stateful σ ε α) := by
  intro s
  rfl

theorem leaves_stop {act : σ → σ} {e : ε} (same : ∀ s, view (act s) = view s) :
    Leaves view (stop act e : Stateful σ ε α) :=
  same

theorem leaves_stopIf {bad : Bool} {act : σ → σ} {e : ε} (same : ∀ s, view (act s) = view s) :
    Leaves view (stopIf bad act e) := by
  cases bad with
  | false => exact leaves_pure
  | true => exact leaves_stop same

theorem leaves_orStop {value : Option α} {act : σ → σ} {e : ε}
    (same : ∀ s, view (act s) = view s) : Leaves view (orStop value act e) := by
  cases value with
  | none => exact leaves_stop same
  | some a => exact leaves_pure

theorem leaves_orThrow {δ : Type} {value : Except δ α} {answer : δ → ε} :
    Leaves view (orThrow value answer : Stateful σ ε α) := by
  cases value with
  | error d => exact leaves_stop fun _ => rfl
  | ok a => exact leaves_pure

theorem leaves_lift {x : StateM σ α} (same : ∀ s, view (x s).2 = view s) :
    Leaves view (liftM x : Stateful σ ε α) :=
  same

/-- Two parts that leave the view alone. -/
theorem Leaves.bind {x : Stateful σ ε α} {f : α → Stateful σ ε β} (first : Leaves view x)
    (rest : ∀ a, Leaves view (f a)) : Leaves view (x >>= f) := by
  intro s
  have kept := first s
  cases done : exec x s with
  | mk r s' =>
      rw [done] at kept
      cases r with
      | ok a =>
          rw [exec_bind_ok done, rest a s']
          exact kept
      | error e =>
          rw [exec_bind_error done]
          exact kept

/-- A loop leaves alone what each of its rounds does. -/
theorem Leaves.foldlM {step : β → α → Stateful σ ε β} (round : ∀ b a, Leaves view (step b a))
    (list : List α) (b : β) : Leaves view (list.foldlM step b) := by
  induction list generalizing b with
  | nil => exact leaves_pure
  | cons a list ih => exact (round b a).bind fun b' => ih b'

/-- An action that cannot stop. -/
theorem leavesOnStop_perform {act : σ → σ} :
    LeavesOnStop view (perform act : Stateful σ ε Unit) := by
  intro s e stopped
  cases stopped

/-- Before the last step the program touches nothing, and that step does not if it fails. -/
theorem Leaves.bind_leavesOnStop {x : Stateful σ ε α} {f : α → Stateful σ ε β}
    (first : Leaves view x) (rest : ∀ a, LeavesOnStop view (f a)) :
    LeavesOnStop view (x >>= f) := by
  intro s e stopped
  have kept := first s
  cases done : exec x s with
  | mk r s' =>
      rw [done] at kept
      cases r with
      | ok a =>
          rw [exec_bind_ok done] at stopped ⊢
          rw [rest a s' e stopped]
          exact kept
      | error e' =>
          rw [exec_bind_error done]
          exact kept

end Leaves

end Conc
