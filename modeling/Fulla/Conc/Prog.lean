import Mathlib.Logic.Function.Basic
import Mathlib.Data.List.Basic

/-!
# Programs of atomic operations

Callback-style code is a tree: an atomic operation on shared state, then a
continuation chosen by its answer.  `Prog S α` is that tree over a signature
`S`; a continuation of the tree is a callback of the code.

* `Prog.run`: the sequential meaning of a program under a handler, with nothing
  else running.
* `Prog.Sat`: the postcondition calculus of a sequential run, with a rule for
  every program constructor.
* `Prog.Only`: which operations a program can perform at all.
* `Prog.Along`: which operations it can perform when some answers are known to be
  restricted, such as those of a store that does not change.
* `Prog.Yields`: what it answers, under the same restriction.
-/

namespace Conc

/-- A signature: the atomic operations and the type each one answers with. -/
structure Sig where
  Op : Type
  Res : Op → Type

/-- The operations of both signatures. -/
abbrev Sig.sum (S T : Sig) : Sig where
  Op := S.Op ⊕ T.Op
  Res
    | .inl o => S.Res o
    | .inr o => T.Res o

/-- A program over `S`: an answer, or an operation and what to do with its result. -/
inductive Prog (S : Sig) (α : Type) where
  | ret (a : α)
  | op (o : S.Op) (k : S.Res o → Prog S α)

/-- One answer and the state after an operation, for every operation. -/
abbrev Handler (S : Sig) (σ : Type) := (o : S.Op) → σ → S.Res o × σ

namespace Prog

variable {S : Sig} {α β γ σ : Type}

/-- Run `p`, then the program its answer selects. -/
def bind : Prog S α → (α → Prog S β) → Prog S β
  | ret a, f => f a
  | op o k, f => op o fun r => (k r).bind f

instance : Monad (Prog S) where
  pure := ret
  bind := bind

/-- A single operation. -/
def call (o : S.Op) : Prog S (S.Res o) :=
  op o ret

@[simp]
theorem pure_eq (a : α) : (pure a : Prog S α) = ret a :=
  rfl

@[simp]
theorem op_bind (o : S.Op) (k : S.Res o → Prog S α) (f : α → Prog S β) :
    (op o k >>= f) = op o fun r => k r >>= f :=
  rfl

/-! ## Sequential runs -/

/-- The sequential meaning: every operation is answered by the handler at once. -/
def run (h : Handler S σ) : Prog S α → σ → α × σ
  | ret a, s => (a, s)
  | op o k, s => (k (h o s).1).run h (h o s).2

@[simp]
theorem run_ret (h : Handler S σ) (a : α) (s : σ) : (ret a : Prog S α).run h s = (a, s) :=
  rfl

@[simp]
theorem run_op (h : Handler S σ) (o : S.Op) (k : S.Res o → Prog S α) (s : σ) :
    (op o k).run h s = (k (h o s).1).run h (h o s).2 :=
  rfl

/-- A run of two parts. -/
@[simp]
theorem run_bind (h : Handler S σ) (p : Prog S α) (f : α → Prog S β) (s : σ) :
    (p >>= f).run h s = (f (p.run h s).1).run h (p.run h s).2 := by
  induction p generalizing s with
  | ret a => rfl
  | op o k ih => simp only [op_bind, run_op, ih]

/-- `p` started in `s` ends with an answer and a state that satisfy `Q`. -/
def Sat (h : Handler S σ) (s : σ) (p : Prog S α) (Q : α → σ → Prop) : Prop :=
  Q (p.run h s).1 (p.run h s).2

section Sat

variable {h : Handler S σ} {s : σ} {Q : β → σ → Prop}

/-- What two parts establish. -/
theorem sat_bind {p : Prog S α} {f : α → Prog S β} :
    Sat h s (p >>= f) Q ↔ Sat h s p fun a s' => Sat h s' (f a) Q := by
  simp only [Sat, run_bind]

theorem Sat.mono {p : Prog S β} {Q' : β → σ → Prop} (sat : Sat h s p Q)
    (le : ∀ b s', Q b s' → Q' b s') : Sat h s p Q' :=
  le _ _ sat

/-- The bind rule: a postcondition of the first part is a precondition of the rest. -/
theorem Sat.bind {p : Prog S α} {f : α → Prog S β} {R : α → σ → Prop} (sat : Sat h s p R)
    (rest : ∀ a s', R a s' → Sat h s' (f a) Q) : Sat h s (p >>= f) Q :=
  sat_bind.mpr (sat.mono rest)

end Sat

/-! ## The operations of a program -/

/-- Every operation the program can reach satisfies `P`, whatever the answers. -/
def Only (P : S.Op → Prop) : Prog S α → Prop
  | ret _ => True
  | op o k => P o ∧ ∀ r, (k r).Only P

section Only

variable {P : S.Op → Prop}

@[simp]
theorem only_call {o : S.Op} : (call o : Prog S (S.Res o)).Only P ↔ P o :=
  ⟨fun only => only.1, fun sat => ⟨sat, fun _ => trivial⟩⟩

/-- Two parts of operations that satisfy `P`. -/
theorem Only.bind {p : Prog S α} {f : α → Prog S β} (first : p.Only P)
    (rest : ∀ a, (f a).Only P) : (p >>= f).Only P := by
  induction p with
  | ret a => exact rest a
  | op o k ih => exact ⟨first.1, fun r => ih r (first.2 r)⟩

theorem Only.map {p : Prog S α} {f : α → β} (first : p.Only P) : (f <$> p).Only P :=
  first.bind fun _ => trivial

/-- A predicate that all operations satisfy. -/
theorem only_of_forall {p : Prog S α} (all : ∀ o, P o) : p.Only P := by
  induction p with
  | ret a => trivial
  | op o k ih => exact ⟨all o, fun r => ih r⟩

/-- What the operations of a program keep, its run keeps. -/
theorem Only.run {J : σ → Prop} {h : Handler S σ} {p : Prog S α} (only : p.Only P)
    (keep : ∀ o s, P o → J s → J (h o s).2) {s : σ} (init : J s) : J (p.run h s).2 := by
  induction p generalizing s with
  | ret a => exact init
  | op o k ih => exact ih _ (only.2 _) (keep o s only.1 init)

/-- A weaker predicate. -/
theorem Only.mono {P' : S.Op → Prop} {p : Prog S α} (only : p.Only P)
    (le : ∀ o, P o → P' o) : p.Only P' := by
  induction p with
  | ret a => trivial
  | op o k ih => exact ⟨le o only.1, fun r => ih r (only.2 r)⟩

end Only

/-! ## Operations under restricted answers -/

/-- Every operation the program can reach satisfies `P`, as long as the answers
it gets are among those that `A` allows. -/
def Along (A : (o : S.Op) → S.Res o → Prop) (P : S.Op → Prop) : Prog S α → Prop
  | ret _ => True
  | op o k => P o ∧ ∀ r, A o r → (k r).Along A P

section Along

variable {A : (o : S.Op) → S.Res o → Prop} {P : S.Op → Prop}

theorem along_ret {a : α} : (ret a : Prog S α).Along A P :=
  trivial

/-- A single operation, and the rest for every answer it may get. -/
theorem along_call {o : S.Op} {f : S.Res o → Prog S β} (first : P o)
    (rest : ∀ r, A o r → (f r).Along A P) : (call o >>= f).Along A P :=
  ⟨first, rest⟩

/-- Operations that satisfy `P` do so along every run. -/
theorem Only.along {p : Prog S α} (only : p.Only P) : p.Along A P := by
  induction p with
  | ret a => trivial
  | op o k ih => exact ⟨only.1, fun r _ => ih r (only.2 r)⟩

/-- Two parts, the second along what the first answers. -/
theorem Along.bind {p : Prog S α} {f : α → Prog S β} (first : p.Along A P)
    (rest : ∀ a, (f a).Along A P) : (p >>= f).Along A P := by
  induction p with
  | ret a => exact rest a
  | op o k ih => exact ⟨first.1, fun r allowed => ih r (first.2 r allowed)⟩

theorem along_of_forall {p : Prog S α} (all : ∀ o, P o) : p.Along A P := by
  induction p with
  | ret a => trivial
  | op o k ih => exact ⟨all o, fun r _ => ih r⟩

end Along

/-! ## The answer of a program -/

/-- Whatever the program answers satisfies `Q`, as long as the answers it gets are
among those that `A` allows. -/
def Yields (A : (o : S.Op) → S.Res o → Prop) (Q : α → Prop) : Prog S α → Prop
  | ret a => Q a
  | op o k => ∀ r, A o r → (k r).Yields A Q

section Yields

variable {A : (o : S.Op) → S.Res o → Prop} {Q : β → Prop}

theorem Yields.mono {Q' : β → Prop} {p : Prog S β} (yields : p.Yields A Q)
    (le : ∀ b, Q b → Q' b) : p.Yields A Q' := by
  induction p with
  | ret b => exact le b yields
  | op o k ih => exact fun r allowed => ih r (yields r allowed)

/-- Two parts, the second from what the first yields. -/
theorem Yields.bind {R : α → Prop} {p : Prog S α} {f : α → Prog S β} (first : p.Yields A R)
    (rest : ∀ a, R a → (f a).Yields A Q) : (p >>= f).Yields A Q := by
  induction p with
  | ret a => exact rest a first
  | op o k ih => exact fun r allowed => ih r (first r allowed)

/-- A part whose answer does not matter. -/
theorem yields_bind {p : Prog S α} {f : α → Prog S β} (rest : ∀ a, (f a).Yields A Q) :
    (p >>= f).Yields A Q := by
  induction p with
  | ret a => exact rest a
  | op o k ih => exact fun r _ => ih r

/-- A program run by a handler whose answers are allowed. -/
theorem Yields.run {h : Handler S σ} {p : Prog S β} (yields : p.Yields A Q)
    (allowed : ∀ o s, A o (h o s).1) (s : σ) : Q (p.run h s).1 := by
  induction p generalizing s with
  | ret b => exact yields
  | op o k ih => exact ih _ (yields _ (allowed o s)) _

end Yields

/-! ## Two signatures side by side -/

/-- The same program over a larger signature. -/
def inl {T : Sig} : Prog S α → Prog (S.sum T) α
  | ret a => ret a
  | op o k => op (Sum.inl o) fun r => (k r).inl

/-- The same program over a larger signature. -/
def inr {T : Sig} : Prog T α → Prog (S.sum T) α
  | ret a => ret a
  | op o k => op (Sum.inr o) fun r => (k r).inr

section Inl

variable {T : Sig} {A : (o : (S.sum T).Op) → (S.sum T).Res o → Prop} {P : (S.sum T).Op → Prop}

/-- A program over the first of two signatures. -/
theorem Only.inl {p : Prog S α} (only : p.Only fun o => P (.inl o)) :
    (p.inl : Prog (S.sum T) α).Only P := by
  induction p with
  | ret a => trivial
  | op o k ih => exact ⟨only.1, fun r => ih r (only.2 r)⟩

/-- The same along its runs. -/
theorem Along.inl {p : Prog S α} (along : p.Along (fun o r => A (.inl o) r) fun o => P (.inl o)) :
    (p.inl : Prog (S.sum T) α).Along A P := by
  induction p with
  | ret a => trivial
  | op o k ih => exact ⟨along.1, fun r allowed => ih r (along.2 r allowed)⟩

theorem Along.inr {p : Prog T α} (along : p.Along (fun o r => A (.inr o) r) fun o => P (.inr o)) :
    (p.inr : Prog (S.sum T) α).Along A P := by
  induction p with
  | ret a => trivial
  | op o k ih => exact ⟨along.1, fun r allowed => ih r (along.2 r allowed)⟩

end Inl

end Prog

end Conc
