import Fulla.Conc.Pool

/-!
# Pools whose operations may have to wait

As in `Conc.Pool`, except that an operation may find that it has to wait: nothing happens
then, and the thread tries again when it is scheduled again.  A schedule names the thread of
every attempt and the moment it is made at, which stands for whatever the surroundings decide:
a clock, a fault.

`Abides` restricts runs by their log: every event has to be allowed after the events before
it.  `Upholds` is the ghost rule of `Keeps` for the steps that are allowed.
-/

namespace Conc

variable {S : Sig} {ι α β D G M : Type}

/-- Executes an operation of a thread at a moment, or answers nothing and the thread waits. -/
abbrev Attempt (S : Sig) (ι D M : Type) := M → ι → (o : S.Op) → D → Option (S.Res o × D)

/-- The world after an event of thread `i`. -/
def World.push (w : World S ι D) (i : ι) (o : S.Op) (r : S.Res o) (db : D) : World S ι D :=
  { tick := w.tick + 1
    db := db
    log := ⟨i, w.tick, o, r, w.db⟩ :: w.log }

@[simp]
theorem World.push_db {w : World S ι D} {i : ι} {o : S.Op} {r : S.Res o} {db : D} :
    (w.push i o r db).db = db :=
  rfl

@[simp]
theorem World.push_log {w : World S ι D} {i : ι} {o : S.Op} {r : S.Res o} {db : D} :
    (w.push i o r db).log = ⟨i, w.tick, o, r, w.db⟩ :: w.log :=
  rfl

/-- Every event of the log (newest first) is allowed after the events before it. -/
def Abides (allowed : Event S ι D → List (Event S ι D) → Prop) : List (Event S ι D) → Prop
  | [] => True
  | e :: log => allowed e log ∧ Abides allowed log

instance Abides.decidable {allowed : Event S ι D → List (Event S ι D) → Prop}
    [∀ e log, Decidable (allowed e log)] : DecidablePred (Abides allowed)
  | [] => inferInstanceAs (Decidable True)
  | _ :: log => @instDecidableAnd _ _ _ (Abides.decidable log)

theorem Abides.of_append {allowed : Event S ι D → List (Event S ι D) → Prop}
    {later log : List (Event S ι D)} (abides : Abides allowed (later ++ log)) :
    Abides allowed log := by
  induction later with
  | nil => exact abides
  | cons e later ih => exact ih abides.2

/-- An event of the log was allowed after the events before it. -/
theorem Abides.of_mem {allowed : Event S ι D → List (Event S ι D) → Prop}
    {log : List (Event S ι D)} (abides : Abides allowed log) {e : Event S ι D} (mem : e ∈ log) :
    ∃ later earlier, log = later ++ e :: earlier ∧ allowed e earlier := by
  obtain ⟨later, earlier, rfl⟩ := List.append_of_mem mem
  exact ⟨later, earlier, rfl, abides.of_append.1⟩

theorem Abides.and {p q : Event S ι D → List (Event S ι D) → Prop} {log : List (Event S ι D)}
    (first : Abides p log) (second : Abides q log) :
    Abides (fun e log => p e log ∧ q e log) log := by
  induction log with
  | nil => trivial
  | cons e log ih => exact ⟨⟨first.1, second.1⟩, ih first.2 second.2⟩

theorem abides_true (log : List (Event S ι D)) : Abides (fun _ _ => True) log := by
  induction log with
  | nil => trivial
  | cons e log ih => exact ⟨trivial, ih⟩

namespace Pool

variable [DecidableEq ι] {exec : Attempt S ι D M} {c : Pool S ι α (World S ι D)}

/-- One attempt of one thread. -/
def attempt (exec : Attempt S ι D M) (c : Pool S ι α (World S ι D)) (e : ι × M) :
    Pool S ι α (World S ι D) :=
  match c.prog e.1 with
  | .ret _ => c
  | .op o k =>
    match exec e.2 e.1 o c.store.db with
    | none => c
    | some (r, db) =>
      { store := c.store.push e.1 o r db
        prog := Function.update c.prog e.1 (k r) }

/-- Play a schedule of attempts from left to right. -/
def play (exec : Attempt S ι D M) (c : Pool S ι α (World S ι D)) (sched : List (ι × M)) :
    Pool S ι α (World S ι D) :=
  sched.foldl (attempt exec) c

/-- An attempt changes nothing or is an event. -/
theorem attempt_cases (exec : Attempt S ι D M) (c : Pool S ι α (World S ι D))
    (e : ι × M) :
    c.attempt exec e = c ∨
      ∃ o k r db, c.prog e.1 = .op o k ∧ exec e.2 e.1 o c.store.db = some (r, db) ∧
        c.attempt exec e =
          { store := c.store.push e.1 o r db, prog := Function.update c.prog e.1 (k r) } := by
  unfold attempt
  split
  · exact .inl rfl
  · rename_i o k next
    split
    · exact .inl rfl
    · rename_i r db done
      exact .inr ⟨o, k, r, db, next, done, rfl⟩

/-- What every event keeps, every run keeps. -/
theorem play_induct {P : Pool S ι α (World S ι D) → Prop} (init : P c)
    (keep : ∀ c e, P c → P (c.attempt exec e)) (sched : List (ι × M)) : P (c.play exec sched) := by
  induction sched generalizing c with
  | nil => exact init
  | cons e sched ih => exact ih (keep c e init)

theorem play_append {sched sched' : List (ι × M)} :
    c.play exec (sched ++ sched') = (c.play exec sched).play exec sched' :=
  List.foldl_append

theorem log_attempt (exec : Attempt S ι D M) (c : Pool S ι α (World S ι D))
    (e : ι × M) :
    ∃ later, (c.attempt exec e).store.log = later ++ c.store.log := by
  rcases attempt_cases exec c e with same | ⟨o, k, r, db, _, _, eq⟩
  · exact ⟨[], by rw [same]; rfl⟩
  · exact ⟨[_], by rw [eq]; rfl⟩

/-- A run only adds to the log. -/
theorem log_play (exec : Attempt S ι D M) (c : Pool S ι α (World S ι D))
    (sched : List (ι × M)) :
    ∃ later, (c.play exec sched).store.log = later ++ c.store.log := by
  induction sched generalizing c with
  | nil => exact ⟨[], rfl⟩
  | cons e sched ih =>
      obtain ⟨later, eq⟩ := ih (c.attempt exec e)
      obtain ⟨now, eq'⟩ := log_attempt exec c e
      refine ⟨later ++ now, ?_⟩
      rw [List.append_assoc, ← eq', ← eq]
      rfl

end Pool

/-! ## The ghost rule -/

/-- Thread `i`, holding the ghost value of its argument, runs its program under the shared
invariant `I`: every event of it that is allowed keeps `I` for some new ghost value of the
thread, the other threads' ghosts unchanged, and the answer satisfies `Q`. -/
def Upholds [DecidableEq ι] (exec : Attempt S ι D M)
    (allowed : Event S ι D → List (Event S ι D) → Prop) (I : World S ι D → (ι → G) → Prop)
    (i : ι) (Q : α → G → Prop) : Prog S α → G → Prop
  | .ret a, g => Q a g
  | .op o k, g => ∀ w γ, I w γ → γ i = g → ∀ m r db, exec m i o w.db = some (r, db) →
      allowed ⟨i, w.tick, o, r, w.db⟩ w.log →
      ∃ g', I (w.push i o r db) (Function.update γ i g') ∧ Upholds exec allowed I i Q (k r) g'

/-- An invariant with a shared part and a part for every thread. -/
def Each (K : World S ι D → Prop) (L : ι → G → World S ι D → Prop) (w : World S ι D)
    (γ : ι → G) : Prop :=
  K w ∧ ∀ j, L j (γ j) w

theorem Each.update [DecidableEq ι] {K : World S ι D → Prop} {L : ι → G → World S ι D → Prop}
    {w : World S ι D} {γ : ι → G} {i : ι} {g : G} (shared : K w) (own : L i g w)
    (others : ∀ j, j ≠ i → L j (γ j) w) : Each K L w (Function.update γ i g) := by
  refine ⟨shared, fun j => ?_⟩
  by_cases eq : j = i
  · subst eq
    rw [Function.update_self]
    exact own
  · rw [Function.update_of_ne eq]
    exact others j eq

namespace Upholds

variable [DecidableEq ι] {exec : Attempt S ι D M}
  {allowed : Event S ι D → List (Event S ι D) → Prop} {I : World S ι D → (ι → G) → Prop} {i : ι}

theorem pure {Q : α → G → Prop} {a : α} {g : G} (post : Q a g) :
    Upholds exec allowed I i Q (Pure.pure a : Prog S α) g :=
  post

theorem bind {Q : α → G → Prop} {R : β → G → Prop} {p : Prog S α} {f : α → Prog S β} {g : G}
    (upholds : Upholds exec allowed I i Q p g)
    (rest : ∀ a g', Q a g' → Upholds exec allowed I i R (f a) g') :
    Upholds exec allowed I i R (p >>= f) g := by
  induction p generalizing g with
  | ret a => exact rest a g upholds
  | op o k ih =>
      intro w γ inv own m r db done ok
      obtain ⟨g', inv', next⟩ := upholds w γ inv own m r db done ok
      exact ⟨g', inv', ih _ next⟩

/-- An operation that needs no new ghost value. -/
theorem stutter {Q : α → G → Prop} {o : S.Op} {k : S.Res o → Prog S α} {g : G}
    (keep : ∀ w γ, I w γ → γ i = g → ∀ m r db, exec m i o w.db = some (r, db) →
      allowed ⟨i, w.tick, o, r, w.db⟩ w.log → I (w.push i o r db) γ)
    (rest : ∀ w γ, I w γ → γ i = g → ∀ m r db, exec m i o w.db = some (r, db) →
      Upholds exec allowed I i Q (k r) g) :
    Upholds exec allowed I i Q (.op o k) g := by
  intro w γ inv own m r db done ok
  refine ⟨g, ?_, rest w γ inv own m r db done⟩
  have same : Function.update γ i g = γ := by
    rw [← own]
    exact Function.update_eq_self i γ
  rw [same]
  exact keep w γ inv own m r db done ok

/-- A program all of whose events keep the invariant needs no new ghost value. -/
theorem of_only {P : S.Op → Prop} {Q : α → G → Prop} {p : Prog S α} {g : G} (only : p.Only P)
    (keep : ∀ o w γ, P o → I w γ → γ i = g → ∀ m r db, exec m i o w.db = some (r, db) →
      allowed ⟨i, w.tick, o, r, w.db⟩ w.log → I (w.push i o r db) γ) (post : ∀ a, Q a g) :
    Upholds exec allowed I i Q p g := by
  induction p with
  | ret a => exact post a
  | op o k ih =>
      exact stutter (fun w γ inv own => keep o w γ only.1 inv own) fun _ _ _ _ _ _ _ _ =>
        ih _ (only.2 _)

end Upholds

namespace Pool

variable [DecidableEq ι] {exec : Attempt S ι D M}
  {allowed : Event S ι D → List (Event S ι D) → Prop} {I : World S ι D → (ι → G) → Prop}
  {Q : ι → α → G → Prop} {c : Pool S ι α (World S ι D)}

/-- The shared invariant holds and every thread can be run to its end under it. -/
def Upheld (exec : Attempt S ι D M) (allowed : Event S ι D → List (Event S ι D) → Prop)
    (I : World S ι D → (ι → G) → Prop) (Q : ι → α → G → Prop)
    (c : Pool S ι α (World S ι D)) : Prop :=
  ∃ γ, I c.store γ ∧ ∀ i, Upholds exec allowed I i (Q i) (c.prog i) (γ i)

theorem attempt_upheld (upheld : c.Upheld exec allowed I Q) (e : ι × M)
    (abides : Abides allowed (c.attempt exec e).store.log) :
    (c.attempt exec e).Upheld exec allowed I Q := by
  rcases attempt_cases exec c e with same | ⟨o, k, r, db, next, done, eq⟩
  · rw [same]
    exact upheld
  · rw [eq] at abides ⊢
    obtain ⟨γ, inv, threads⟩ := upheld
    have mine := threads e.1
    rw [next] at mine
    obtain ⟨g', inv', rest⟩ := mine c.store γ inv rfl e.2 r db done abides.1
    refine ⟨Function.update γ e.1 g', inv', fun j => ?_⟩
    by_cases own : j = e.1
    · subst own
      simpa only [Function.update_self] using rest
    · simpa only [Function.update_of_ne own] using threads j

/-- Threads proved one by one keep the invariant in every run whose events are allowed. -/
theorem play_upheld (upheld : c.Upheld exec allowed I Q) (sched : List (ι × M))
    (abides : Abides allowed (c.play exec sched).store.log) :
    (c.play exec sched).Upheld exec allowed I Q := by
  induction sched generalizing c with
  | nil => exact upheld
  | cons e sched ih =>
      obtain ⟨later, eq⟩ := log_play exec (c.attempt exec e) sched
      have whole : Abides allowed (later ++ (c.attempt exec e).store.log) := by
        rw [← eq]
        exact abides
      exact ih (attempt_upheld upheld e whole.of_append) abides

/-- A thread that has answered satisfies its postcondition. -/
theorem upheld_answer {γ : ι → G} (threads : ∀ i, Upholds exec allowed I i (Q i) (c.prog i) (γ i))
    {i : ι} {a : α} (answered : c.answer? i = some a) : Q i a (γ i) := by
  have thread := threads i
  rw [prog_of_answer? answered] at thread
  exact thread

/-- An invariant that every operation keeps, whatever the programs are. -/
theorem play_invariant {J : World S ι D → Prop} (init : J c.store)
    (keep : ∀ w i o m r db, J w → exec m i o w.db = some (r, db) → J (w.push i o r db))
    (sched : List (ι × M)) : J (c.play exec sched).store := by
  refine play_induct (P := fun c => J c.store) init (fun c e inv => ?_) sched
  rcases attempt_cases exec c e with same | ⟨o, k, r, db, _, done, eq⟩
  · rw [same]
    exact inv
  · rw [eq]
    exact keep c.store e.1 o e.2 r db inv done

end Pool

end Conc
