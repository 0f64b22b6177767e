import Mathlib.Data.List.Infix
import Fulla.Conc.Prog

/-!
# Tasks in flight

Callback-style code that does not wait for everything it starts.  `Async S` is a
tree of operations over a signature `S` that may also fork: a command that is sent
without waiting for its answer is a fork, and so is a timer.  What has been sent
and has not happened yet is in flight, and anything in flight may happen next.

* `Tasks.run`: run a list of moves, each of which starts a call or lets one
  operation in flight happen.
* `Async.Only`: which operations a program can perform at all.
* `Async.Safe`: whatever the operations of a program find, they keep an invariant
  of the store and the log.
* `Tasks.run_safe`: if the programs of all calls are safe, the invariant holds after
  every run.
* `Tasks.drained`: if every operation can happen, a run can be brought to its end.
-/

namespace Conc

/-- A program that may leave tasks behind. -/
inductive Async (S : Sig) where
  | done
  | op (o : S.Op) (next : S.Res o → Async S)
  | fork (task next : Async S)

/-- An operation that has happened, its answer, and the store before and after it. -/
structure TaskEvent (S : Sig) (σ : Type) where
  op : S.Op
  res : S.Res op
  pre : σ
  post : σ

/-- An operation in flight and what follows it. -/
structure Flight (S : Sig) where
  op : S.Op
  next : S.Res op → Async S

namespace Async

variable {S : Sig} {σ M : Type}

/-- Send an operation and go on. -/
def send (o : S.Op) (next : Async S) : Async S :=
  fork (op o fun _ => done) next

/-- Every operation of the program satisfies `P`. -/
def Only (P : S.Op → Prop) : Async S → Prop
  | done => True
  | op o next => P o ∧ ∀ r, (next r).Only P
  | fork task next => task.Only P ∧ next.Only P

/-- A program with the operations of one signature, where there are those of another too. -/
def left {T : Sig} : Async S → Async (S.sum T)
  | done => done
  | op o next => op (.inl o) fun r => (next r).left
  | fork task next => fork task.left next.left

theorem left_only {T : Sig} {P : (S.sum T).Op → Prop} {p : Async S}
    (only : p.Only fun o => P (.inl o)) : p.left.Only P := by
  induction p with
  | done => trivial
  | op o next ih => exact ⟨only.1, fun r => ih r (only.2 r)⟩
  | fork task next ih₁ ih₂ => exact ⟨ih₁ only.1, ih₂ only.2⟩

/-- What a program has in flight once it runs: a fork takes no time. -/
def flights : Async S → List (Flight S)
  | done => []
  | op o next => [⟨o, next⟩]
  | fork task next => task.flights ++ next.flights

end Async

/-- The store, what has happened to it, newest first, and what is in flight. -/
structure Tasks (S : Sig) (σ : Type) where
  store : σ
  log : List (TaskEvent S σ) := []
  flights : List (Flight S) := []

/-- A call starts, or the operation in flight at position `j` happens at a moment. -/
inductive Move (C M : Type) where
  | call (c : C)
  | happen (j : Nat) (m : M)

namespace Tasks

variable {S : Sig} {σ C M : Type}

/-- `exec` answers `none` for an operation whose time has not come.  A call is given the
number of operations that happened before it. -/
def move (exec : M → (o : S.Op) → σ → Option (S.Res o × σ)) (prog : Nat → C → Async S)
    (c : Tasks S σ) : Move C M → Tasks S σ
  | .call call => { c with flights := c.flights ++ (prog c.log.length call).flights }
  | .happen j m =>
    match c.flights[j]? with
    | none => c
    | some f =>
      match exec m f.op c.store with
      | none => c
      | some (r, s) =>
        { store := s
          log := ⟨f.op, r, c.store, s⟩ :: c.log
          flights := c.flights.eraseIdx j ++ (f.next r).flights }

/-- A sequence of moves. -/
def run (exec : M → (o : S.Op) → σ → Option (S.Res o × σ)) (prog : Nat → C → Async S)
    (c : Tasks S σ) (moves : List (Move C M)) : Tasks S σ :=
  moves.foldl (move exec prog) c

end Tasks

/-! ## Safety -/

section Safety

variable {S : Sig} {σ C M : Type} {exec : M → (o : S.Op) → σ → Option (S.Res o × σ)}
  {I : σ → List (TaskEvent S σ) → Prop}

/-- From `log` on, every operation of the program keeps `I`, whatever else has happened
in between. -/
def Async.Safe (exec : M → (o : S.Op) → σ → Option (S.Res o × σ))
    (I : σ → List (TaskEvent S σ) → Prop) : Async S → List (TaskEvent S σ) → Prop
  | .done, _ => True
  | .op o next, log =>
    ∀ s log', log <:+ log' → I s log' → ∀ m r s', exec m o s = some (r, s') →
      I s' (⟨o, r, s, s'⟩ :: log') ∧ Async.Safe exec I (next r) (⟨o, r, s, s'⟩ :: log')
  | .fork task next, log => Async.Safe exec I task log ∧ Async.Safe exec I next log

/-- Every operation that fits what has happened keeps `I`. -/
def Async.Kept (exec : M → (o : S.Op) → σ → Option (S.Res o × σ))
    (I : σ → List (TaskEvent S σ) → Prop) (Fits : List (TaskEvent S σ) → S.Op → Prop) : Prop :=
  ∀ s log m o r s', I s log → Fits log o → exec m o s = some (r, s') →
    I s' (⟨o, r, s, s'⟩ :: log)

namespace Async.Safe

variable {p : Async S} {log log' : List (TaskEvent S σ)}

/-- A safe program may also be started later. -/
theorem mono (safe : p.Safe exec I log) (later : log <:+ log') : p.Safe exec I log' := by
  induction p with
  | done => trivial
  | op o next ih => exact fun s l ext inv => safe s l (later.trans ext) inv
  | fork task next ih₁ ih₂ => exact ⟨ih₁ safe.1, ih₂ safe.2⟩

theorem send {o : S.Op} {next : Async S} (task : (Async.op o fun _ => .done).Safe exec I log)
    (rest : next.Safe exec I log) : (Async.send o next).Safe exec I log :=
  ⟨task, rest⟩

/-- A program is safe if each of its operations is, whatever it is answered. -/
theorem of_only {P : S.Op → Prop} (only : p.Only P)
    (keeps : ∀ o, P o → ∀ s l, I s l → ∀ m r s', exec m o s = some (r, s') →
      I s' (⟨o, r, s, s'⟩ :: l)) : p.Safe exec I log := by
  induction p generalizing log with
  | done => trivial
  | op o next ih =>
      intro s l _ inv m r s' stepped
      exact ⟨keeps o only.1 s l inv m r s' stepped, ih r (only.2 r)⟩
  | fork task next ih₁ ih₂ => exact ⟨ih₁ only.1, ih₂ only.2⟩

/-- The rule for one operation: it fits wherever it is executed, and what follows is safe. -/
theorem op_of_kept {Fits : List (TaskEvent S σ) → S.Op → Prop} {o : S.Op}
    {next : S.Res o → Async S} (kept : Async.Kept exec I Fits)
    (fits : ∀ log', log <:+ log' → Fits log' o)
    (rest : ∀ s log', log <:+ log' → I s log' → ∀ m r s', exec m o s = some (r, s') →
      (next r).Safe exec I (⟨o, r, s, s'⟩ :: log')) : (Async.op o next).Safe exec I log :=
  fun s log' later inv m r s' stepped =>
    ⟨kept s log' m o r s' inv (fits log' later) stepped, rest s log' later inv m r s' stepped⟩

/-- A program is safe if none of its operations depends on what came before. -/
theorem of_kept {Fits : List (TaskEvent S σ) → S.Op → Prop} (kept : Async.Kept exec I Fits)
    (only : p.Only fun o => ∀ l, Fits l o) : p.Safe exec I log :=
  of_only only fun o fits s l inv m r s' stepped => kept s l m o r s' inv (fits l) stepped

/-- A safe program has only safe operations in flight. -/
theorem flights (safe : p.Safe exec I log) :
    ∀ f ∈ p.flights, (Async.op f.op f.next).Safe exec I log := by
  induction p with
  | done => exact fun _ mem => nomatch mem
  | op o next ih =>
      intro f mem
      rw [List.mem_singleton.mp mem]
      exact safe
  | fork task next ih₁ ih₂ =>
      intro f mem
      rcases List.mem_append.mp mem with left | right
      · exact ih₁ safe.1 f left
      · exact ih₂ safe.2 f right

end Async.Safe

namespace Tasks

/-- The invariant holds and everything in flight keeps it. -/
def Safe (exec : M → (o : S.Op) → σ → Option (S.Res o × σ))
    (I : σ → List (TaskEvent S σ) → Prop) (c : Tasks S σ) : Prop :=
  I c.store c.log ∧ ∀ f ∈ c.flights, (Async.op f.op f.next).Safe exec I c.log

variable {prog : Nat → C → Async S} {c : Tasks S σ}

theorem move_safe {mv : Move C M}
    (calls : ∀ call, mv = .call call →
      ∀ s log, I s log → (prog log.length call).Safe exec I log)
    (safe : c.Safe exec I) : (c.move exec prog mv).Safe exec I := by
  obtain ⟨inv, flying⟩ := safe
  cases mv with
  | call call =>
      refine ⟨inv, fun f mem => ?_⟩
      rcases List.mem_append.mp mem with old | new
      · exact flying f old
      · exact (calls call rfl c.store c.log inv).flights f new
  | happen j m =>
      simp only [move]
      split
      · exact ⟨inv, flying⟩
      · next f found =>
          split
          · exact ⟨inv, flying⟩
          · next r s answered =>
              have mem : f ∈ c.flights := List.mem_of_getElem? found
              obtain ⟨inv', rest⟩ := flying f mem c.store c.log List.suffix_rfl inv m r s answered
              refine ⟨inv', fun g mem => ?_⟩
              rcases List.mem_append.mp mem with old | new
              · exact (flying g (List.mem_of_mem_eraseIdx old)).mono (List.suffix_cons _ _)
              · exact rest.flights g new

/-- What every call of a run keeps holds after it. -/
theorem run_safe {moves : List (Move C M)}
    (calls : ∀ call, Move.call call ∈ moves →
      ∀ s log, I s log → (prog log.length call).Safe exec I log)
    (safe : c.Safe exec I) : (c.run exec prog moves).Safe exec I := by
  induction moves generalizing c with
  | nil => exact safe
  | cons mv moves ih =>
      apply ih fun call mem => calls call (List.mem_cons_of_mem _ mem)
      apply move_safe _ safe
      intro call eq
      exact calls call (eq ▸ List.mem_cons_self)

theorem run_append (moves moves' : List (Move C M)) :
    c.run exec prog (moves ++ moves') = (c.run exec prog moves).run exec prog moves' :=
  List.foldl_append

end Tasks

end Safety

/-! ## Draining -/

section Draining

variable {S : Sig} {σ C M : Type} {exec : M → (o : S.Op) → σ → Option (S.Res o × σ)}
  (prog : Nat → C → Async S)

/-- Let operations in flight happen, each at its position and moment. -/
def Tasks.happenings (moves : List (Nat × M)) : List (Move C M) :=
  moves.map fun mv => .happen mv.1 mv.2

/-- If every operation can happen, a program among what is in flight can be run to its end
before anything else. -/
theorem Async.drained (can : ∀ o s, ∃ m, (exec m o s).isSome = true) (p : Async S)
    (s : σ) (log : List (TaskEvent S σ)) (pre post : List (Flight S)) :
    ∃ (moves : List (Nat × M)) (s' : σ) (log' : List (TaskEvent S σ)),
      Tasks.run exec prog { store := s, log := log, flights := pre ++ p.flights ++ post }
        (Tasks.happenings moves) = { store := s', log := log', flights := pre ++ post } := by
  induction p generalizing s log pre post with
  | done => exact ⟨[], s, log, by simp [Tasks.run, Tasks.happenings, flights]⟩
  | op o next ih =>
      obtain ⟨m, happens⟩ := can o s
      obtain ⟨⟨r, s₁⟩, answered⟩ := Option.isSome_iff_exists.mp happens
      obtain ⟨moves, s', log', eq⟩ := ih r s₁ (⟨o, r, s, s₁⟩ :: log) (pre ++ post) []
      refine ⟨(pre.length, m) :: moves, s', log', ?_⟩
      rw [List.append_nil, List.append_nil] at eq
      rw [← eq, Tasks.happenings, List.map_cons, Tasks.run, List.foldl_cons]
      simp [Tasks.move, flights, answered, List.eraseIdx_append, Tasks.run, Tasks.happenings]
  | fork task next ih₁ ih₂ =>
      obtain ⟨moves₁, s₁, log₁, eq₁⟩ := ih₁ s log pre (next.flights ++ post)
      obtain ⟨moves₂, s₂, log₂, eq₂⟩ := ih₂ s₁ log₁ pre post
      refine ⟨moves₁ ++ moves₂, s₂, log₂, ?_⟩
      have same : pre ++ (task.fork next).flights ++ post =
          pre ++ task.flights ++ (next.flights ++ post) := by simp [flights]
      rw [same, Tasks.happenings, List.map_append, Tasks.run_append]
      rw [List.append_assoc] at eq₂
      exact (congrArg (fun c => Tasks.run exec prog c _) eq₁).trans eq₂

/-- If every operation can happen, everything in flight can be brought to its end. -/
theorem Tasks.drained (can : ∀ o s, ∃ m, (exec m o s).isSome = true) (c : Tasks S σ) :
    ∃ moves : List (Nat × M), (c.run exec prog (happenings moves)).flights = [] := by
  obtain ⟨s, log, flying⟩ := c
  induction flying generalizing s log with
  | nil => exact ⟨[], rfl⟩
  | cons f flying ih =>
      obtain ⟨moves, s', log', eq⟩ :=
        (Async.op f.op f.next).drained prog can s log [] flying
      obtain ⟨moves', none⟩ := ih s' log'
      refine ⟨moves ++ moves', ?_⟩
      rw [happenings, List.map_append, run_append]
      exact (congrArg (fun c => (run exec prog c _).flights) eq).trans none

end Draining

/-! ## Logs -/

section Logs

variable {α : Type}

/-- In a list that is newest first, every entry meets a condition that may look at what came
before it. -/
def EachIn (meets : List α → α → Bool) : List α → Bool
  | [] => true
  | a :: l => meets l a && EachIn meets l

theorem EachIn.of_suffix {meets : List α → α → Bool} {l l' : List α} (each : EachIn meets l' = true)
    (later : l <:+ l') : EachIn meets l = true := by
  induction l' with
  | nil =>
      rw [List.suffix_nil.mp later]
      rfl
  | cons a l' ih =>
      rcases List.suffix_cons_iff.mp later with rfl | older
      · exact each
      · exact ih (Bool.and_eq_true_iff.mp each).2 older

/-- The first `n` entries of a list that is newest first. -/
def firstOf (n : Nat) (l : List α) : List α :=
  l.drop (l.length - n)

theorem firstOf_of_suffix {l l' : List α} (later : l <:+ l') : firstOf l.length l' = l := by
  obtain ⟨newer, rfl⟩ := later
  simp [firstOf]

/-- The entries after the first `n`. -/
def afterFirst (n : Nat) (l : List α) : List α :=
  l.take (l.length - n)

theorem mem_afterFirst {l l' l'' : List α} {a : α} (before : l <:+ l') (later : a :: l' <:+ l'') :
    a ∈ afterFirst l.length l'' := by
  obtain ⟨newer, rfl⟩ := before
  obtain ⟨newest, rfl⟩ := later
  have split : newest ++ a :: (newer ++ l) = (newest ++ a :: newer) ++ l := by simp
  rw [afterFirst, split, List.length_append, Nat.add_sub_cancel, List.take_left]
  simp

/-- In `log`, which goes on from `older`, the entry came after it. -/
def After (older log : List α) (a : α) : Prop :=
  ∃ newer, log = newer ++ older ∧ a ∈ newer

theorem After.mono {older l l' : List α} {a : α} (after : After older l a) (later : l <:+ l') :
    After older l' a := by
  obtain ⟨newer, rfl, mem⟩ := after
  obtain ⟨newest, rfl⟩ := later
  exact ⟨newest ++ newer, (List.append_assoc ..).symm, List.mem_append_right _ mem⟩

theorem After.head {older l : List α} {a : α} (before : older <:+ l) : After older (a :: l) a := by
  obtain ⟨newer, rfl⟩ := before
  exact ⟨a :: newer, rfl, List.mem_cons_self⟩

/-! ### Copies of what was read

Something is read and kept elsewhere.  It may be overwritten at its origin, and its copies are
swept out after that. -/

section Fresh

variable (swept wrote read : α → Bool)

/-- What `read` tells is read was read, and after that nothing was overwritten and swept out
again; `seen` is whether a sweep has been passed on the way back. -/
def fresh : Bool → List α → Bool
  | _, [] => false
  | seen, a :: l => read a || !(wrote a && seen) && fresh (seen || swept a) l

variable {swept wrote read}

theorem fresh_cons {a : α} {l : List α} (still : fresh swept wrote read false l = true)
    (unswept : swept a = false) : fresh swept wrote read false (a :: l) = true := by
  rw [fresh, unswept, Bool.and_false, Bool.or_false, still, Bool.not_false, Bool.and_self,
    Bool.or_true]

/-- A fresh copy that outlived a sweep after an overwriting was read after the overwriting. -/
theorem read_after_write {seen : Bool} {w : α} {newer older : List α}
    (isFresh : fresh swept wrote read seen (newer ++ w :: older) = true) (written : wrote w = true)
    (unread : read w = false) (after : seen = true ∨ ∃ a ∈ newer, swept a = true) :
    ∃ a ∈ newer, read a = true := by
  induction newer generalizing seen with
  | nil =>
      rcases after with rfl | ⟨a, mem, -⟩
      · simp [fresh, written, unread] at isFresh
      · cases mem
  | cons b newer ih =>
      cases now : read b with
      | true => exact ⟨b, List.mem_cons_self, now⟩
      | false =>
          rw [List.cons_append, fresh, now, Bool.false_or, Bool.and_eq_true] at isFresh
          have rest : (seen || swept b) = true ∨ ∃ a ∈ newer, swept a = true := by
            rcases after with rfl | ⟨a, mem, sweeps⟩
            · exact .inl rfl
            · rcases List.mem_cons.mp mem with rfl | old
              · exact .inl (by rw [sweeps, Bool.or_true])
              · exact .inr ⟨a, old, sweeps⟩
          obtain ⟨a, mem, reads⟩ := ih isFresh.2 rest
          exact ⟨a, List.mem_cons_of_mem _ mem, reads⟩

theorem After.read_of_fresh {w : α} {older l : List α}
    (isFresh : fresh swept wrote read false l = true) (written : wrote w = true)
    (unread : read w = false) (sweep : ∃ a, After (w :: older) l a ∧ swept a = true) :
    ∃ a, After (w :: older) l a ∧ read a = true := by
  obtain ⟨a, ⟨newer, rfl, mem⟩, sweeps⟩ := sweep
  obtain ⟨b, mem', reads⟩ := read_after_write isFresh written unread (.inr ⟨a, mem, sweeps⟩)
  exact ⟨b, ⟨newer, rfl, mem'⟩, reads⟩

end Fresh

end Logs

end Conc
