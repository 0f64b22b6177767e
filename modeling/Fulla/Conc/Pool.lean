import Fulla.Conc.Prog

/-!
# Pools of concurrent programs

A pool is a shared state and, for every thread, the rest of its program.  One
step runs one atomic operation of one thread; a schedule is a list of threads,
so quantifying over schedules quantifies over every interleaving.  A thread that
is never scheduled is a call that was not made, which is why the index type need
not be finite.

* `World` is a shared state with a clock tick and the log of what was executed:
  every event carries the thread, the operation, its answer and the state it ran
  in.  Nothing in a program can read the log.
* `Keeps` is the rule for one thread under a shared invariant that mentions a
  ghost value per thread; `Pool.run_keeps` assembles the threads' proofs into an
  invariant of every interleaving.
-/

namespace Conc

variable {S : Sig} {ι α β σ D G : Type}

/-- A shared state and the program every thread still has to run. -/
structure Pool (S : Sig) (ι α σ : Type) where
  store : σ
  prog : ι → Prog S α

namespace Pool

variable [DecidableEq ι] {h : ι → Handler S σ} {c : Pool S ι α σ}

/-- Thread `i` runs its next operation; a thread that has answered stays put. -/
def step (h : ι → Handler S σ) (c : Pool S ι α σ) (i : ι) : Pool S ι α σ :=
  match c.prog i with
  | .ret _ => c
  | .op o k =>
    { store := (h i o c.store).2
      prog := Function.update c.prog i (k (h i o c.store).1) }

/-- Run a schedule from left to right. -/
def run (h : ι → Handler S σ) (c : Pool S ι α σ) (sched : List ι) : Pool S ι α σ :=
  sched.foldl (step h) c

/-- What thread `i` has answered, once it has. -/
def answer? (c : Pool S ι α σ) (i : ι) : Option α :=
  match c.prog i with
  | .ret a => some a
  | .op _ _ => none

omit [DecidableEq ι] in
theorem prog_of_answer? {i : ι} {a : α} (answered : c.answer? i = some a) :
    c.prog i = .ret a := by
  unfold answer? at answered
  split at answered
  · next eq =>
      cases answered
      exact eq
  · cases answered

@[simp]
theorem run_cons {i : ι} {sched : List ι} :
    c.run h (i :: sched) = (c.step h i).run h sched :=
  rfl

/-- A schedule in two parts. -/
theorem run_append {sched sched' : List ι} :
    c.run h (sched ++ sched') = (c.run h sched).run h sched' :=
  List.foldl_append

/-- A call that has come to its end does not move. -/
theorem step_ret {i : ι} {a : α} (done : c.prog i = .ret a) : c.step h i = c := by
  simp only [step, done]

/-- Another one takes its next operation. -/
theorem step_op {i : ι} {o : S.Op} {k : S.Res o → Prog S α} (next : c.prog i = .op o k) :
    c.step h i =
      { store := (h i o c.store).2
        prog := Function.update c.prog i (k (h i o c.store).1) } := by
  simp only [step, next]

/-- What every step keeps, every schedule keeps. -/
theorem run_induct {P : Pool S ι α σ → Prop} (init : P c)
    (keep : ∀ c i, P c → P (c.step h i)) (sched : List ι) : P (c.run h sched) := by
  induction sched generalizing c with
  | nil => exact init
  | cons i sched ih => exact ih (keep c i init)

end Pool

/-! ## The ghost rule -/

/-- Thread `i`, holding the ghost value of its argument, runs its program under
the shared invariant `I`: every operation keeps `I` for some new ghost value of
thread `i`, the other threads' ghosts unchanged, and the answer satisfies `Q`. -/
def Keeps [DecidableEq ι] (h : ι → Handler S σ) (I : σ → (ι → G) → Prop) (i : ι)
    (Q : α → G → Prop) : Prog S α → G → Prop
  | .ret a, g => Q a g
  | .op o k, g => ∀ s γ, I s γ → γ i = g →
      ∃ g', I (h i o s).2 (Function.update γ i g') ∧ Keeps h I i Q (k (h i o s).1) g'

namespace Keeps

variable [DecidableEq ι] {h : ι → Handler S σ} {I : σ → (ι → G) → Prop} {i : ι}

theorem pure {Q : α → G → Prop} {a : α} {g : G} (post : Q a g) :
    Keeps h I i Q (Pure.pure a : Prog S α) g :=
  post

theorem mono {Q Q' : α → G → Prop} {p : Prog S α} {g : G} (keeps : Keeps h I i Q p g)
    (le : ∀ a g, Q a g → Q' a g) : Keeps h I i Q' p g := by
  induction p generalizing g with
  | ret a => exact le a g keeps
  | op o k ih =>
      intro s γ inv own
      obtain ⟨g', inv', rest⟩ := keeps s γ inv own
      exact ⟨g', inv', ih _ rest⟩

/-- Two parts, the second from what the first has kept. -/
theorem bind {Q : α → G → Prop} {R : β → G → Prop} {p : Prog S α} {f : α → Prog S β} {g : G}
    (keeps : Keeps h I i Q p g) (rest : ∀ a g', Q a g' → Keeps h I i R (f a) g') :
    Keeps h I i R (p >>= f) g := by
  induction p generalizing g with
  | ret a => exact rest a g keeps
  | op o k ih =>
      intro s γ inv own
      obtain ⟨g', inv', next⟩ := keeps s γ inv own
      exact ⟨g', inv', ih _ next⟩

/-- An operation that needs no new ghost value. -/
theorem stutter {Q : α → G → Prop} {o : S.Op} {k : S.Res o → Prog S α} {g : G}
    (keep : ∀ s γ, I s γ → γ i = g → I (h i o s).2 γ)
    (rest : ∀ s γ, I s γ → γ i = g → Keeps h I i Q (k (h i o s).1) g) :
    Keeps h I i Q (.op o k) g := by
  intro s γ inv own
  refine ⟨g, ?_, rest s γ inv own⟩
  have same : Function.update γ i g = γ := by
    rw [← own]
    exact Function.update_eq_self i γ
  rw [same]
  exact keep s γ inv own

/-- A program all of whose operations keep the invariant needs no new ghost value. -/
theorem of_only {P : S.Op → Prop} {Q : α → G → Prop} {p : Prog S α} {g : G} (only : p.Only P)
    (keep : ∀ o s γ, P o → I s γ → I (h i o s).2 γ) (post : ∀ a, Q a g) :
    Keeps h I i Q p g := by
  induction p with
  | ret a => exact post a
  | op o k ih =>
      exact stutter (fun s γ inv _ => keep o s γ only.1 inv) fun _ _ _ _ => ih _ (only.2 _)

/-- As `of_only`, for a program that is only known to behave under allowed answers. -/
theorem of_along {A : (o : S.Op) → S.Res o → Prop} {P : S.Op → Prop} {Q : α → G → Prop}
    {p : Prog S α} {g : G} (along : p.Along A P) (answers : ∀ o s, A o (h i o s).1)
    (keep : ∀ o s γ, P o → I s γ → I (h i o s).2 γ) (post : ∀ a, Q a g) :
    Keeps h I i Q p g := by
  induction p with
  | ret a => exact post a
  | op o k ih =>
      exact stutter (fun s γ inv _ => keep o s γ along.1 inv) fun s _ _ _ =>
        ih _ (along.2 _ (answers o s))

/-- A program over one part of a signature runs under that part of the handler. -/
theorem inl {T : Sig} {h : ι → Handler (S.sum T) σ} {Q : α → G → Prop} {p : Prog S α} {g : G}
    (keeps : Keeps (fun i o s => h i (.inl o) s) I i Q p g) : Keeps h I i Q p.inl g := by
  induction p generalizing g with
  | ret a => exact keeps
  | op o k ih =>
      intro s γ inv own
      obtain ⟨g', inv', rest⟩ := keeps s γ inv own
      exact ⟨g', inv', ih _ rest⟩

theorem inr {T : Sig} {h : ι → Handler (T.sum S) σ} {Q : α → G → Prop} {p : Prog S α} {g : G}
    (keeps : Keeps (fun i o s => h i (.inr o) s) I i Q p g) : Keeps h I i Q p.inr g := by
  induction p generalizing g with
  | ret a => exact keeps
  | op o k ih =>
      intro s γ inv own
      obtain ⟨g', inv', rest⟩ := keeps s γ inv own
      exact ⟨g', inv', ih _ rest⟩

end Keeps

namespace Pool

variable [DecidableEq ι] {h : ι → Handler S σ} {I : σ → (ι → G) → Prop}
  {Q : ι → α → G → Prop} {c : Pool S ι α σ}

/-- The shared invariant holds and every thread can be run to its end under it. -/
def Good (h : ι → Handler S σ) (I : σ → (ι → G) → Prop) (Q : ι → α → G → Prop)
    (c : Pool S ι α σ) : Prop :=
  ∃ γ, I c.store γ ∧ ∀ i, Keeps h I i (Q i) (c.prog i) (γ i)

/-- A thread that has answered satisfies its postcondition. -/
theorem post_of_answer? {i : ι} {a : α} {g : G} {R : α → G → Prop}
    (thread : Keeps h I i R (c.prog i) g) (answered : c.answer? i = some a) : R a g := by
  rw [prog_of_answer? answered] at thread
  exact thread

/-- A step keeps a pool good. -/
theorem step_keeps (good : c.Good h I Q) (i : ι) : (c.step h i).Good h I Q := by
  obtain ⟨γ, inv, threads⟩ := good
  cases next : c.prog i with
  | ret a =>
      rw [step_ret next]
      exact ⟨γ, inv, threads⟩
  | op o k =>
      have mine := threads i
      rw [next] at mine
      obtain ⟨g', inv', rest⟩ := mine c.store γ inv rfl
      rw [step_op next]
      refine ⟨Function.update γ i g', inv', fun j => ?_⟩
      by_cases eq : j = i
      · subst eq
        simpa only [Function.update_self] using rest
      · simpa only [Function.update_of_ne eq] using threads j

/-- Threads proved one by one keep the invariant under every interleaving. -/
theorem run_keeps (good : c.Good h I Q) (sched : List ι) : (c.run h sched).Good h I Q :=
  run_induct good (fun _ i good => step_keeps good i) sched

/-- An invariant that every permitted operation keeps, in a pool that performs no other. -/
theorem run_only {P : S.Op → Prop} {J : σ → Prop} (init : J c.store)
    (only : ∀ i, (c.prog i).Only P) (keep : ∀ i o s, P o → J s → J (h i o s).2)
    (sched : List ι) : J (c.run h sched).store := by
  have good : c.Good h (fun s (_ : ι → Unit) => J s) (fun _ _ _ => True) :=
    ⟨fun _ => (), init, fun i =>
      Keeps.of_only (only i) (fun o s _ sat inv => keep i o s sat inv) fun _ => trivial⟩
  obtain ⟨_, inv, _⟩ := run_keeps good sched
  exact inv

end Pool

/-! ## Worlds with a log -/

/-- One executed operation: who ran it, when, its answer and the state before it. -/
structure Event (S : Sig) (ι D : Type) where
  thread : ι
  tick : Nat
  op : S.Op
  res : S.Res op
  pre : D

/-- Shared data, the number of operations executed so far, and their log, newest first. -/
structure World (S : Sig) (ι D : Type) where
  tick : Nat
  db : D
  log : List (Event S ι D)

namespace World

/-- Nothing has been executed on `db` yet. -/
def start (db : D) : World S ι D :=
  { tick := 0, db := db, log := [] }

/-- Execute operations by `exec`, which may look at the tick, and log them. -/
def handler (exec : Nat → Handler S D) (i : ι) : Handler S (World S ι D) := fun o w =>
  ((exec w.tick o w.db).1,
    { tick := w.tick + 1
      db := (exec w.tick o w.db).2
      log := ⟨i, w.tick, o, (exec w.tick o w.db).1, w.db⟩ :: w.log })

variable {exec : Nat → Handler S D} {i : ι} {o : S.Op} {w : World S ι D}

@[simp]
theorem handler_fst : (handler exec i o w).1 = (exec w.tick o w.db).1 :=
  rfl

@[simp]
theorem handler_tick : (handler exec i o w).2.tick = w.tick + 1 :=
  rfl

@[simp]
theorem handler_db : (handler exec i o w).2.db = (exec w.tick o w.db).2 :=
  rfl

@[simp]
theorem handler_log :
    (handler exec i o w).2.log = ⟨i, w.tick, o, (exec w.tick o w.db).1, w.db⟩ :: w.log :=
  rfl

/-- `w'` is `w` after one more event `e` of thread `i`; nothing is said of the data. -/
structure Stepped (i : ι) (e : Event S ι D) (w w' : World S ι D) : Prop where
  tick : w'.tick = w.tick + 1
  log : w'.log = e :: w.log
  thread : e.thread = i
  time : e.tick = w.tick
  pre : e.pre = w.db

/-- A run only adds to the log. -/
theorem run_log [DecidableEq ι] (exec : Nat → Handler S D) (c : Pool S ι α (World S ι D))
    (sched : List ι) : ∃ later, (c.run (handler exec) sched).store.log = later ++ c.store.log := by
  induction sched generalizing c with
  | nil => exact ⟨[], rfl⟩
  | cons i sched ih =>
      obtain ⟨later, eq⟩ := ih (c.step (handler exec) i)
      cases next : c.prog i with
      | ret a =>
          rw [Pool.step_ret next] at eq
          exact ⟨later, by rw [Pool.run_cons, Pool.step_ret next]; exact eq⟩
      | op o k =>
          refine ⟨later ++
            [⟨i, c.store.tick, o, (exec c.store.tick o c.store.db).1, c.store.db⟩], ?_⟩
          rw [Pool.run_cons, eq, Pool.step_op next]
          simp

/-- Programs that keep to `P` as long as the answers do, in a run whose answers do:
every logged operation satisfies the `P` of its thread. -/
theorem run_along [DecidableEq ι] {exec : Nat → Handler S D}
    {A : (o : S.Op) → S.Res o → Prop} {P : ι → S.Op → Prop} {c : Pool S ι α (World S ι D)}
    (answers : ∀ n o db, A o (exec n o db).1) (fresh : c.store.log = [])
    (along : ∀ i, (c.prog i).Along A (P i)) (sched : List ι) :
    ∀ e ∈ (c.run (handler exec) sched).store.log, P e.thread e.op := by
  have good : c.Good (handler exec)
      (fun w (_ : ι → Unit) => ∀ e ∈ w.log, P e.thread e.op) (fun _ _ _ => True) := by
    refine ⟨fun _ => (), ?_, fun i => ?_⟩
    · intro e mem
      rw [fresh] at mem
      cases mem
    · refine Keeps.of_along (along i) (fun o w => answers w.tick o w.db) ?_ fun _ => trivial
      intro o w _ sat logged e mem
      rcases List.mem_cons.mp mem with rfl | old
      · exact sat
      · exact logged e old
  obtain ⟨_, logged, _⟩ := Pool.run_keeps good sched
  exact logged

theorem handler_stepped :
    Stepped i ⟨i, w.tick, o, (exec w.tick o w.db).1, w.db⟩ w (handler exec i o w).2 :=
  ⟨rfl, rfl, rfl, rfl, rfl⟩

end World

end Conc
