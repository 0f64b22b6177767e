import Fulla.Conc.Waiting

/-!
# Threads that follow a protocol

Where a thread stands can often be read off its own events.  `track` folds a transition
function over the events of one thread, and `Prog.Follows` says of a program that every
operation it makes fits the place it is made at, whatever its operations answer.  It speaks
about the program alone.

An invariant of the world that every fitting operation keeps then holds in every run of
programs that follow the protocol (`Pool.play_follows`).
-/

namespace Conc

variable {S : Sig} {ι α β D G M : Type}

/-- Where thread `i` stands after the events of the log (newest first). -/
def track [DecidableEq ι] (next : G → (o : S.Op) → S.Res o → G) (first : G) (i : ι) :
    List (Event S ι D) → G
  | [] => first
  | e :: log =>
    if e.thread = i then next (track next first i log) e.op e.res else track next first i log

section Track

variable [DecidableEq ι] {next : G → (o : S.Op) → S.Res o → G} {first : G} {i : ι}

theorem track_push {w : World S ι D} {o : S.Op} {r : S.Res o} {db : D} :
    (fun j => track next first j (w.push i o r db).log) =
      Function.update (fun j => track next first j w.log) i
        (next (track next first i w.log) o r) := by
  funext j
  by_cases eq : j = i
  · subst eq
    rw [Function.update_self]
    exact if_pos rfl
  · rw [Function.update_of_ne eq]
    exact if_neg (Ne.symm eq)

theorem track_own {w : World S ι D} {o : S.Op} {r : S.Res o} {db : D} :
    track next first i (w.push i o r db).log = next (track next first i w.log) o r :=
  if_pos rfl

theorem track_other {w : World S ι D} {o : S.Op} {r : S.Res o} {db : D} {j : ι} (ne : j ≠ i) :
    track next first j (w.push i o r db).log = track next first j w.log :=
  if_neg (Ne.symm ne)

/-- What a view of the places makes of an event depends on the view alone. -/
theorem track_view {F : Type} {view : G → F} {next' : F → (o : S.Op) → S.Res o → F}
    (through : ∀ g o r, view (next g o r) = next' (view g) o r) {log : List (Event S ι D)} :
    view (track next first i log) = track next' (view first) i log := by
  induction log with
  | nil => rfl
  | cons e log ih =>
      rw [track, track, ← ih, apply_ite view, through]

end Track

/-- Every operation of the program fits where it is made, as long as the answers are among
those that can come (`ok`), and the answer satisfies `Q`. -/
def Prog.Follows (next : G → (o : S.Op) → S.Res o → G) (fits : G → S.Op → Prop)
    (ok : G → (o : S.Op) → S.Res o → Prop) (Q : α → G → Prop) : Prog S α → G → Prop
  | .ret a, g => Q a g
  | .op o k, g => fits g o ∧ ∀ r, ok g o r → (k r).Follows next fits ok Q (next g o r)

section Follows

variable {next : G → (o : S.Op) → S.Res o → G} {fits : G → S.Op → Prop}
  {ok : G → (o : S.Op) → S.Res o → Prop}

theorem Prog.Follows.bind {Q : α → G → Prop} {R : β → G → Prop} {p : Prog S α}
    {f : α → Prog S β} {g : G} (follows : p.Follows next fits ok Q g)
    (rest : ∀ a g', Q a g' → (f a).Follows next fits ok R g') :
    (p >>= f).Follows next fits ok R g := by
  induction p generalizing g with
  | ret a => exact rest a g follows
  | op o k ih => exact ⟨follows.1, fun r possible => ih r (follows.2 r possible)⟩

theorem Prog.Follows.ite {Q : α → G → Prop} {c : Prop} [Decidable c] {p q : Prog S α} {g : G}
    (yes : c → p.Follows next fits ok Q g) (no : ¬ c → q.Follows next fits ok Q g) :
    (if c then p else q).Follows next fits ok Q g := by
  split
  · exact yes ‹c›
  · exact no ‹¬ c›

/-- Without places, to follow the protocol is to make only its operations. -/
theorem Prog.only_iff_follows {P : S.Op → Prop} {p : Prog S α} :
    p.Only P ↔ p.Follows (fun _ _ _ => ()) (fun _ o => P o) (fun _ _ _ => True)
      (fun _ _ => True) () := by
  induction p with
  | ret a => exact Iff.rfl
  | op o k ih => exact and_congr_right fun _ => forall_congr' fun r => (ih r).trans (by simp)

/-- A program whose operations fit everywhere. -/
theorem Prog.Only.follows {P : S.Op → Prop} {p : Prog S α} (only : p.Only P)
    (fit : ∀ g o, P o → fits g o) (g : G) : p.Follows next fits ok (fun _ _ => True) g := by
  induction p generalizing g with
  | ret a => trivial
  | op o k ih => exact ⟨fit g o only.1, fun r _ => ih r (only.2 r) _⟩

/-- A program whose operations fit at the places in `K` and do not lead out of them. -/
theorem Prog.Only.keeps {P : S.Op → Prop} {p : Prog S α} (only : p.Only P) {K : G → Prop}
    (fit : ∀ g o, K g → P o → fits g o) (kept : ∀ g o r, K g → P o → K (next g o r)) {g : G}
    (place : K g) : p.Follows next fits ok (fun _ g' => K g') g := by
  induction p generalizing g with
  | ret a => exact place
  | op o k ih =>
      exact ⟨fit g o place only.1, fun r _ => ih r (only.2 r) (kept g o r place only.1)⟩

/-- A program whose operations fit at a place and do not lead away from it. -/
theorem Prog.Only.stays {P : S.Op → Prop} {p : Prog S α} (only : p.Only P) {g : G}
    (fit : ∀ o, P o → fits g o) (still : ∀ o r, P o → next g o r = g) :
    p.Follows next fits ok (fun _ g' => g' = g) g :=
  only.keeps (fun _ o same made => same ▸ fit o made)
    (fun _ o r same made => same ▸ still o r made) rfl

theorem Prog.Follows.mono {Q R : α → G → Prop} {p : Prog S α} {g : G}
    (follows : p.Follows next fits ok Q g) (le : ∀ a g', Q a g' → R a g') :
    p.Follows next fits ok R g := by
  induction p generalizing g with
  | ret a => exact le a g follows
  | op o k ih => exact ⟨follows.1, fun r possible => ih r (follows.2 r possible)⟩

/-- A part that leads nowhere, and the rest. -/
theorem Prog.Follows.after {Q : β → G → Prop} {p : Prog S α} {f : α → Prog S β} {g : G}
    (stays : p.Follows next fits ok (fun _ g' => g' = g) g)
    (rest : ∀ a, (f a).Follows next fits ok Q g) : (p >>= f).Follows next fits ok Q g :=
  stays.bind fun a _ same => same ▸ rest a

/-- A program over one part of a signature follows that part of the protocol. -/
theorem Prog.Follows.lift {T : Sig} {next : G → (o : (S.sum T).Op) → (S.sum T).Res o → G}
    {fits : G → (S.sum T).Op → Prop} {ok : G → (o : (S.sum T).Op) → (S.sum T).Res o → Prop}
    {Q : α → G → Prop} {p : Prog S α} {g : G}
    (follows : p.Follows (fun g o r => next g (.inl o) r) (fun g o => fits g (.inl o))
      (fun g o r => ok g (.inl o) r) Q g) : p.inl.Follows next fits ok Q g := by
  induction p generalizing g with
  | ret a => exact follows
  | op o k ih => exact ⟨follows.1, fun r possible => ih r (follows.2 r possible)⟩

/-- What every fitting operation keeps, a run of the program keeps, and the program stands
where its events have brought it. -/
theorem Prog.Follows.run [DecidableEq ι] {exec : Nat → Handler S D} {i : ι} {first : G}
    {J : G → D → Prop} {Q : α → G → Prop} {p : Prog S α} {w : World S ι D}
    (follows : p.Follows next fits (fun _ _ _ => True) Q (track next first i w.log))
    (kept : ∀ g n o db, J g db → fits g o → J (next g o (exec n o db).1) (exec n o db).2)
    (inv : J (track next first i w.log) w.db) :
    J (track next first i (p.run (World.handler exec i) w).2.log)
        (p.run (World.handler exec i) w).2.db ∧
      Q (p.run (World.handler exec i) w).1
        (track next first i (p.run (World.handler exec i) w).2.log) := by
  induction p generalizing w with
  | ret a => exact ⟨inv, follows⟩
  | op o k ih =>
      have stands : track next first i (World.handler exec i o w).2.log =
          next (track next first i w.log) o (World.handler exec i o w).1 := if_pos rfl
      refine ih _ ?_ ?_
      · rw [stands]
        exact follows.2 _ trivial
      · rw [stands]
        exact kept _ _ o _ inv follows.1

variable [DecidableEq ι] {exec : Attempt S ι D M}
  {allowed : Event S ι D → List (Event S ι D) → Prop} {J : World S ι D → Prop} {first : G}
  {Q : ι → α → G → Prop} {c : Pool S ι α (World S ι D)}

/-- A fitting operation that is allowed answers something that can come, and keeps `J`. -/
def KeptByFitting (exec : Attempt S ι D M) (allowed : Event S ι D → List (Event S ι D) → Prop)
    (next : G → (o : S.Op) → S.Res o → G) (first : G) (fits : G → S.Op → Prop)
    (ok : G → (o : S.Op) → S.Res o → Prop) (J : World S ι D → Prop) : Prop :=
  ∀ (w : World S ι D) i o m r db, J w → fits (track next first i w.log) o →
    exec m i o w.db = some (r, db) → allowed ⟨i, w.tick, o, r, w.db⟩ w.log →
    ok (track next first i w.log) o r ∧ J (w.push i o r db)

/-- As before, where what fits may differ from thread to thread. -/
def KeptByEach (exec : Attempt S ι D M) (allowed : Event S ι D → List (Event S ι D) → Prop)
    (next : G → (o : S.Op) → S.Res o → G) (first : G) (fits : ι → G → S.Op → Prop)
    (ok : G → (o : S.Op) → S.Res o → Prop) (J : World S ι D → Prop) : Prop :=
  ∀ (w : World S ι D) i o m r db, J w → fits i (track next first i w.log) o →
    exec m i o w.db = some (r, db) → allowed ⟨i, w.tick, o, r, w.db⟩ w.log →
    ok (track next first i w.log) o r ∧ J (w.push i o r db)

variable {order : ι → G → S.Op → Prop}

theorem upholds_of_follows (kept : KeptByEach exec allowed next first order ok J) {i : ι}
    {R : α → G → Prop} {p : Prog S α} {g : G} (follows : p.Follows next (order i) ok R g) :
    Upholds exec allowed (fun w γ => J w ∧ γ = fun j => track next first j w.log) i R p g := by
  induction p generalizing g with
  | ret a => exact follows
  | op o k ih =>
      intro w γ inv own m r db done permitted
      obtain ⟨holds, rfl⟩ := inv
      subst own
      obtain ⟨possible, holds'⟩ := kept w i o m r db holds follows.1 done permitted
      exact ⟨_, ⟨holds', track_push.symm⟩, ih r (follows.2 r possible)⟩

/-- In every run whose events are allowed, programs that follow the protocol keep what every
fitting operation keeps, and each of them stands where its events have brought it. -/
theorem Pool.play_follows_each (kept : KeptByEach exec allowed next first order ok J)
    (start : J c.store) (empty : c.store.log = [])
    (follows : ∀ i, (c.prog i).Follows next (order i) ok (Q i) first) (sched : List (ι × M))
    (abides : Abides allowed (c.play exec sched).store.log) :
    J (c.play exec sched).store ∧ ∀ i a, (c.play exec sched).answer? i = some a →
      Q i a (track next first i (c.play exec sched).store.log) := by
  have upheld :
      c.Upheld exec allowed (fun w γ => J w ∧ γ = fun j => track next first j w.log) Q := by
    refine ⟨fun _ => first, ⟨start, ?_⟩, fun i => upholds_of_follows kept (follows i)⟩
    rw [empty]
    rfl
  obtain ⟨γ, ⟨holds, rfl⟩, threads⟩ := Pool.play_upheld upheld sched abides
  exact ⟨holds, fun i a answered => Pool.upheld_answer threads answered⟩

theorem Pool.play_follows (kept : KeptByFitting exec allowed next first fits ok J)
    (start : J c.store) (empty : c.store.log = [])
    (follows : ∀ i, (c.prog i).Follows next fits ok (Q i) first) (sched : List (ι × M))
    (abides : Abides allowed (c.play exec sched).store.log) :
    J (c.play exec sched).store ∧ ∀ i a, (c.play exec sched).answer? i = some a →
      Q i a (track next first i (c.play exec sched).store.log) := by
  have each : KeptByEach exec allowed next first (fun _ => fits) ok J := kept
  exact play_follows_each each start empty follows sched abides

/-! ## Orders of single threads -/

/-- Every operation fits where its thread stands, in an order that may differ from thread to
thread. -/
def FitsAll (next : G → (o : S.Op) → S.Res o → G) (first : G) (order : ι → G → S.Op → Prop)
    (e : Event S ι D) (log : List (Event S ι D)) : Prop :=
  order e.thread (track next first e.thread log) e.op

/-- In every run the events of a program fit, whatever is answered. -/
theorem Pool.play_fits {order : ι → G → S.Op → Prop} (empty : c.store.log = [])
    (follows : ∀ i, (c.prog i).Follows next (order i) (fun _ _ _ => True) (Q i) first)
    (sched : List (ι × M)) :
    Abides (FitsAll next first order) (c.play exec sched).store.log := by
  have thread : ∀ i (p : Prog S α) (g : G),
      p.Follows next (order i) (fun _ _ _ => True) (Q i) g →
      Upholds exec (fun _ _ => True) (fun w γ => Abides (FitsAll next first order) w.log ∧
        γ = fun j => track next first j w.log) i (Q i) p g := by
    intro i p
    induction p with
    | ret a => exact fun g follows => follows
    | op o k ih =>
        intro g follows w γ inv own m r db done _
        obtain ⟨fit, rfl⟩ := inv
        subst own
        exact ⟨_, ⟨⟨follows.1, fit⟩, track_push.symm⟩, ih r _ (follows.2 r trivial)⟩
  have upheld : c.Upheld exec (fun _ _ => True) (fun w γ =>
      Abides (FitsAll next first order) w.log ∧ γ = fun j => track next first j w.log) Q := by
    refine ⟨fun _ => first, ?_, fun i => thread i _ _ (follows i)⟩
    dsimp only
    rw [empty]
    exact ⟨trivial, rfl⟩
  obtain ⟨γ, ⟨fit, _⟩, _⟩ := Pool.play_upheld upheld sched (abides_true _)
  exact fit

end Follows

end Conc
