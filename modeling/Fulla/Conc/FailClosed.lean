import Fulla.Conc.Prog

/-!
# Programs that stop at a failed step

Some answers are failures (`short`): a draw of random bytes that did not deliver them.  A
program is fail-closed if nothing is stored after such an answer and the program itself
answers with a refusal.  `FailClosed` is that by recursion on the program, with a rule for
a part that has no such step; `Closed` is the same of one finished run.
-/

namespace Conc

namespace Prog

variable {S : Sig} {α β : Type}

/-- A finished run: the operations with their answers in order, and what the program answers. -/
inductive Runs : Prog S α → List ((o : S.Op) × S.Res o) → α → Prop
  | ret (a : α) : Runs (ret a) [] a
  | op {o : S.Op} {k : S.Res o → Prog S α} {r : S.Res o} {steps : List ((o : S.Op) × S.Res o)}
    {a : α} (rest : Runs (k r) steps a) : Runs (op o k) (⟨o, r⟩ :: steps) a

section Runs

variable {steps : List ((o : S.Op) × S.Res o)} {a : α}

/-- The first step of a run. -/
theorem Runs.first {o : S.Op} {k : S.Res o → Prog S α} (runs : (Prog.op o k).Runs steps a) :
    ∃ (r : S.Res o) (rest : List ((o : S.Op) × S.Res o)),
      steps = ⟨o, r⟩ :: rest ∧ (k r).Runs rest a := by
  cases runs with
  | op rest => exact ⟨_, _, rfl, rest⟩

theorem Only.of_runs {P : S.Op → Prop} {p : Prog S α} (only : p.Only P) (runs : p.Runs steps a) :
    ∀ s ∈ steps, P s.1 := by
  induction runs with
  | ret a =>
      intro s mem
      cases mem
  | op rest ih =>
      intro s mem
      rcases List.mem_cons.mp mem with rfl | later
      · exact only.1
      · exact ih (only.2 _) s later

theorem Yields.of_runs {Q : α → Prop} {p : Prog S α} (yields : p.Yields (fun _ _ => True) Q)
    (runs : p.Runs steps a) : Q a := by
  induction runs with
  | ret a => exact yields
  | op rest ih => exact ih (yields _ trivial)

end Runs

/-- The program stores nothing and answers with a refusal. -/
structure Refuses (stores : S.Op → Prop) (refused : α → Prop) (p : Prog S α) : Prop where
  only : p.Only fun o => ¬ stores o
  yields : p.Yields (fun _ _ => True) refused

/-- After every failed step the rest of the program refuses. -/
def FailClosed (short : (o : S.Op) → S.Res o → Prop) (stores : S.Op → Prop)
    (refused : α → Prop) : Prog S α → Prop
  | ret _ => True
  | op o k => ∀ r, (short o r → (k r).Refuses stores refused) ∧
      (k r).FailClosed short stores refused

/-- In a finished run: nothing is stored after a failed step, and the answer is a refusal. -/
def Closed (short : (o : S.Op) → S.Res o → Prop) (stores : S.Op → Prop) (refused : α → Prop)
    (steps : List ((o : S.Op) × S.Res o)) (a : α) : Prop :=
  ∀ before s after, steps = before ++ s :: after → short s.1 s.2 →
    (∀ s' ∈ after, ¬ stores s'.1) ∧ refused a

section Rules

variable {short : (o : S.Op) → S.Res o → Prop} {stores : S.Op → Prop} {refused : α → Prop}
  {refused' : β → Prop}

theorem refuses_ret {a : α} (answer : refused a) : (ret a : Prog S α).Refuses stores refused :=
  ⟨trivial, answer⟩

/-- A part that stores nothing may come before a refusal. -/
theorem Refuses.bind {p : Prog S α} {f : α → Prog S β} (only : p.Only fun o => ¬ stores o)
    (rest : ∀ a, (f a).Refuses stores refused') : (p >>= f).Refuses stores refused' :=
  ⟨only.bind fun a => (rest a).only, yields_bind fun a => (rest a).yields⟩

/-- A part without a step that can fail. -/
theorem FailClosed.bind {p : Prog S α} {f : α → Prog S β} (plain : p.Only fun o => ∀ r, ¬ short o r)
    (rest : ∀ a, (f a).FailClosed short stores refused') :
    (p >>= f).FailClosed short stores refused' := by
  induction p with
  | ret a => exact rest a
  | op o k ih =>
      intro r
      exact ⟨fun failed => absurd failed (plain.1 r), ih r (plain.2 r)⟩

theorem failClosed_of_plain {p : Prog S α} (plain : p.Only fun o => ∀ r, ¬ short o r) :
    p.FailClosed short stores refused := by
  induction p with
  | ret a => trivial
  | op o k ih =>
      intro r
      exact ⟨fun failed => absurd failed (plain.1 r), ih r (plain.2 r)⟩

theorem Refuses.map {p : Prog S α} {f : α → β} (rest : p.Refuses stores fun a => refused' (f a)) :
    (f <$> p).Refuses stores refused' :=
  ⟨rest.only.map, rest.yields.bind fun _ answer => answer⟩

theorem FailClosed.map {p : Prog S α} {f : α → β}
    (rest : p.FailClosed short stores fun a => refused' (f a)) :
    (f <$> p).FailClosed short stores refused' := by
  induction p with
  | ret a => trivial
  | op o k ih => exact fun r => ⟨fun failed => ((rest r).1 failed).map, ih r (rest r).2⟩

theorem FailClosed.closed {p : Prog S α} (closed : p.FailClosed short stores refused)
    {steps : List ((o : S.Op) × S.Res o)} {a : α} (runs : p.Runs steps a) :
    Closed short stores refused steps a := by
  induction runs with
  | ret a =>
      intro before s after eq
      cases before <;> cases eq
  | op rest ih =>
      intro before s after eq failed
      cases before with
      | nil =>
          cases eq
          have refuses := (closed _).1 failed
          exact ⟨refuses.only.of_runs rest, refuses.yields.of_runs rest⟩
      | cons s' before =>
          cases eq
          exact ih (closed _).2 before s after rfl failed

/-- A run without a failed step. -/
theorem closed_of_none {steps : List ((o : S.Op) × S.Res o)} {a : α}
    (none : ∀ s ∈ steps, ¬ short s.1 s.2) : Closed short stores refused steps a := by
  intro before s after eq failed
  exact absurd failed (none s (eq ▸ List.mem_append_right _ List.mem_cons_self))

end Rules

end Prog

end Conc
