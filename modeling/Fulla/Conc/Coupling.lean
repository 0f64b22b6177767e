import Fulla.Conc.Pool

/-!
# Two runs of one schedule

Two pools run under the same schedule, and every step of it is made at the same moment in
both.  The stores are related by `Pairing.rel`, which may become weaker as time passes, and
the threads go the same way, except that at some point two threads may part and both run to
an end that is as good as the other's.

* `Pool.runAt`: a run whose schedule names the thread and the moment of every step.
* `Pairing.Ends`: whatever the program does from some time on leaves the stores related, and
  its answer satisfies a condition.
* `Pairing.Coupled`: two programs that answer alike.
* `Pool.Paired.runAt`: coupled threads stay coupled.
-/

namespace Conc

variable {S : Sig} {ι α β D M : Type}

namespace Pool

variable [DecidableEq ι]

/-- A schedule names the thread of every step and the moment it is made at. -/
def runAt (exec : M → Handler S D) (c : Pool S ι α D) (sched : List (ι × M)) : Pool S ι α D :=
  sched.foldl (fun c e => c.step (fun _ => exec e.2) e.1) c

/-- The operation thread `i` makes next, unless it has answered. -/
def next? (c : Pool S ι α D) (i : ι) : Option S.Op :=
  match c.prog i with
  | .ret _ => none
  | .op o _ => some o

/-- Every step that is made meets a condition on the store before it. -/
def Meets (exec : M → Handler S D) (cond : ι → M → S.Op → D → Prop) :
    Pool S ι α D → List (ι × M) → Prop
  | _, [] => True
  | c, e :: sched =>
    (∀ o ∈ c.next? e.1, cond e.1 e.2 o c.store) ∧
      Meets exec cond (c.step (fun _ => exec e.2) e.1) sched

instance Meets.decidable {exec : M → Handler S D} {cond : ι → M → S.Op → D → Prop}
    [∀ i m o s, Decidable (cond i m o s)] :
    (c : Pool S ι α D) → (sched : List (ι × M)) → Decidable (c.Meets exec cond sched)
  | _, [] => isTrue trivial
  | c, e :: sched =>
    @instDecidableAnd _ _ (inferInstanceAs (Decidable (∀ o ∈ c.next? e.1, _)))
      (decidable (c.step (fun _ => exec e.2) e.1) sched)

theorem Meets.mono {exec : M → Handler S D} {cond cond' : ι → M → S.Op → D → Prop}
    {c : Pool S ι α D} {sched : List (ι × M)} (meets : c.Meets exec cond sched)
    (le : ∀ i m o s, cond i m o s → cond' i m o s) : c.Meets exec cond' sched := by
  induction sched generalizing c with
  | nil => trivial
  | cons e sched ih => exact ⟨fun o next => le _ _ _ _ (meets.1 o next), ih meets.2⟩

theorem runAt_append {exec : M → Handler S D} {c : Pool S ι α D} {sched sched' : List (ι × M)} :
    c.runAt exec (sched ++ sched') = (c.runAt exec sched).runAt exec sched' :=
  List.foldl_append

end Pool

/-- The moments of the schedule come after `t` and after each other. -/
def Ascending (time : M → Nat) : Nat → List (ι × M) → Prop
  | _, [] => True
  | t, e :: sched => t ≤ time e.2 ∧ Ascending time (time e.2) sched

/-- How operations are executed, and how the stores of two runs are related at a time. -/
structure Pairing (S : Sig) (D M : Type) where
  exec : M → Handler S D
  time : M → Nat
  rel : Nat → D → D → Prop
  symm : ∀ {t s s'}, rel t s s' → rel t s' s
  mono : ∀ {t t' s s'}, rel t s s' → t ≤ t' → rel t' s s'

namespace Pairing

variable (P : Pairing S D M)

/-- From time `t` on, whatever the program does leaves its store related to the other one,
and its answer satisfies `K`. -/
def Ends (t : Nat) (K : α → Prop) : Prog S α → Prop
  | .ret a => K a
  | .op o k => ∀ m s s', t ≤ P.time m → P.rel (P.time m) s s' →
      P.rel (P.time m) (P.exec m o s).2 s' ∧ Ends t K (k (P.exec m o s).1)

/-- From time `t` on, two programs answer alike, as long as their steps meet the condition. -/
inductive Coupled (cond : M → S.Op → D → Prop) (Q : α → α → Prop) :
    Nat → Prog S α → Prog S α → Prop
  | ret {t : Nat} {a b : α} (alike : Q a b) : Coupled cond Q t (.ret a) (.ret b)
  | op {t : Nat} {o o' : S.Op} {k : S.Res o → Prog S α} {k' : S.Res o' → Prog S α}
      (keeps : ∀ m s s', t ≤ P.time m → P.rel (P.time m) s s' → cond m o s → cond m o' s' →
        P.rel (P.time m) (P.exec m o s).2 (P.exec m o' s').2)
      (next : ∀ m s s', t ≤ P.time m → P.rel (P.time m) s s' → cond m o s → cond m o' s' →
        Coupled cond Q (P.time m) (k (P.exec m o s).1) (k' (P.exec m o' s').1)) :
      Coupled cond Q t (.op o k) (.op o' k')
  | apart {t : Nat} {p p' : Prog S α} (K : α → Prop) (left : P.Ends t K p) (right : P.Ends t K p')
      (alike : ∀ a b, K a → K b → Q a b) : Coupled cond Q t p p'

variable {P} {cond : M → S.Op → D → Prop} {Q : α → α → Prop} {t t' : Nat} {p p' : Prog S α}
  {K : α → Prop}

theorem Ends.mono (ends : P.Ends t K p) (later : t ≤ t') : P.Ends t' K p := by
  induction p with
  | ret a => exact ends
  | op o k ih =>
      intro m s s' after related
      obtain ⟨still, rest⟩ := ends m s s' (Nat.le_trans later after) related
      exact ⟨still, ih _ rest⟩

theorem Ends.map {K' : β → Prop} {f : α → β} (ends : P.Ends t K p) (le : ∀ a, K a → K' (f a)) :
    P.Ends t K' (f <$> p) := by
  induction p with
  | ret a => exact le a ends
  | op o k ih =>
      intro m s s' after related
      obtain ⟨still, rest⟩ := ends m s s' after related
      exact ⟨still, ih _ rest⟩

namespace Coupled

theorem mono (coupled : P.Coupled cond Q t p p') (later : t ≤ t') : P.Coupled cond Q t' p p' := by
  cases coupled with
  | ret alike => exact .ret alike
  | op keeps next =>
      exact .op (fun m s s' after => keeps m s s' (Nat.le_trans later after))
        fun m s s' after => next m s s' (Nat.le_trans later after)
  | apart K left right alike => exact .apart K (left.mono later) (right.mono later) alike

theorem map {Q' : β → β → Prop} {f : α → β} (coupled : P.Coupled cond Q t p p')
    (le : ∀ a b, Q a b → Q' (f a) (f b)) : P.Coupled cond Q' t (f <$> p) (f <$> p') := by
  induction coupled with
  | ret alike => exact .ret (le _ _ alike)
  | op keeps next ih => exact .op keeps ih
  | apart K left right alike =>
      refine .apart (fun b => ∃ a, f a = b ∧ K a) (left.map fun a holds => ⟨a, rfl, holds⟩)
        (right.map fun a holds => ⟨a, rfl, holds⟩) ?_
      rintro _ _ ⟨a, rfl, holds⟩ ⟨b, rfl, holds'⟩
      exact le a b (alike a b holds holds')

end Coupled

/-- The operation is answered alike in related stores and leaves them related. -/
def Respects (P : Pairing S D M) (cond : M → S.Op → D → Prop) (o : S.Op) : Prop :=
  ∀ m s s', P.rel (P.time m) s s' → cond m o s → cond m o s' →
    (P.exec m o s).1 = (P.exec m o s').1 ∧ P.rel (P.time m) (P.exec m o s).2 (P.exec m o s').2

/-- Two programs go the same way until one of them stops. -/
theorem Coupled.bind {q : Prog S β} {f f' : β → Prog S α} (only : q.Only (P.Respects cond))
    (rest : ∀ b t', t ≤ t' → P.Coupled cond Q t' (f b) (f' b)) :
    P.Coupled cond Q t (q >>= f) (q >>= f') := by
  induction q generalizing t with
  | ret b => exact rest b t (Nat.le_refl t)
  | op o k ih =>
      refine .op (fun m s s' _ related met met' => (only.1 m s s' related met met').2) ?_
      intro m s s' after related met met'
      rw [← (only.1 m s s' related met met').1]
      exact ih _ (only.2 _) fun b t' later => rest b t' (Nat.le_trans after later)

theorem Coupled.refl (only : p.Only (P.Respects cond)) (same : ∀ a, Q a a) :
    P.Coupled cond Q t p p := by
  induction p generalizing t with
  | ret a => exact .ret (same a)
  | op o k ih =>
      refine .op (fun m s s' _ related met met' => (only.1 m s s' related met met').2) ?_
      intro m s s' _ related met met'
      rw [← (only.1 m s s' related met met').1]
      exact ih _ (only.2 _)

end Pairing

/-! ## Runs -/

namespace Pool

variable [DecidableEq ι] {P : Pairing S D M} {cond : ι → M → S.Op → D → Prop}
  {Q : ι → α → α → Prop} {t : Nat} {c c' : Pool S ι α D}

/-- The stores are related and every thread goes the same way in both pools. -/
structure Paired (P : Pairing S D M) (cond : ι → M → S.Op → D → Prop) (Q : ι → α → α → Prop)
    (t : Nat) (c c' : Pool S ι α D) : Prop where
  store : P.rel t c.store c'.store
  prog : ∀ i, P.Coupled (cond i) (Q i) t (c.prog i) (c'.prog i)

/-- What thread `i` has left once it has made a step. -/
theorem Paired.of_step {i : ι} {s s' : D} {p p' : Prog S α} {t' : Nat}
    (paired : Paired P cond Q t c c') (later : t ≤ t') (related : P.rel t' s s')
    (coupled : P.Coupled (cond i) (Q i) t' p p') :
    Paired P cond Q t' ⟨s, Function.update c.prog i p⟩ ⟨s', Function.update c'.prog i p'⟩ := by
  refine ⟨related, fun j => ?_⟩
  by_cases eq : j = i
  · subst eq
    simpa only [Function.update_self] using coupled
  · simpa only [Function.update_of_ne eq] using (paired.prog j).mono later

theorem step_eq (exec : Handler S D) (c : Pool S ι α D) (i : ι) :
    c.step (fun _ => exec) i =
      match c.prog i with
      | .ret a => ⟨c.store, Function.update c.prog i (.ret a)⟩
      | .op o k => ⟨(exec o c.store).2, Function.update c.prog i (k (exec o c.store).1)⟩ := by
  cases next : c.prog i with
  | ret a =>
      have same : Function.update c.prog i (.ret a) = c.prog := by
        rw [← next, Function.update_eq_self]
      rw [step_ret next]
      simp only [same]
  | op o k => rw [step_op next]

theorem Paired.step (paired : Paired P cond Q t c c') {i : ι} {m : M} (later : t ≤ P.time m)
    (met : ∀ o ∈ c.next? i, cond i m o c.store) (met' : ∀ o ∈ c'.next? i, cond i m o c'.store) :
    Paired P cond Q (P.time m) (c.step (fun _ => P.exec m) i) (c'.step (fun _ => P.exec m) i) := by
  have related := P.mono paired.store later
  rw [step_eq, step_eq]
  unfold next? at met met'
  have thread := paired.prog i
  generalize c.prog i = p at met thread ⊢
  generalize c'.prog i = p' at met' thread ⊢
  cases thread with
  | ret alike => exact paired.of_step later related (.ret alike)
  | op keeps next =>
      exact paired.of_step later (keeps m _ _ later related (met _ rfl) (met' _ rfl))
        (next m _ _ later related (met _ rfl) (met' _ rfl))
  | apart K left right alike =>
      -- each of the two makes a step or has answered
      have ended {q q' : Prog S α} (l : P.Ends t K q) (r : P.Ends t K q') :
          P.Coupled (cond i) (Q i) (P.time m) q q' := .apart K (l.mono later) (r.mono later) alike
      cases p with
      | ret a =>
          cases p' with
          | ret b => exact paired.of_step later related (ended left right)
          | op o' k' =>
              obtain ⟨still, rest⟩ := right m c'.store c.store later (P.symm related)
              exact paired.of_step later (P.symm still) (ended left rest)
      | op o k =>
          obtain ⟨still, rest⟩ := left m c.store c'.store later related
          cases p' with
          | ret b => exact paired.of_step later still (ended rest right)
          | op o' k' =>
              obtain ⟨still', rest'⟩ := right m c'.store (P.exec m o c.store).2 later (P.symm still)
              exact paired.of_step later (P.symm still') (ended rest rest')

/-- Coupled threads stay coupled. -/
theorem Paired.runAt {sched : List (ι × M)} (paired : Paired P cond Q t c c')
    (ascending : Ascending P.time t sched) (meets : c.Meets P.exec cond sched)
    (meets' : c'.Meets P.exec cond sched) :
    Paired P cond Q (sched.foldl (fun _ e => P.time e.2) t) (c.runAt P.exec sched)
      (c'.runAt P.exec sched) := by
  induction sched generalizing c c' t with
  | nil => exact paired
  | cons e sched ih =>
      exact ih (paired.step ascending.1 meets.1 meets'.1) ascending.2 meets.2 meets'.2

/-- A thread that can only come to an end does so when it goes on alone. -/
theorem answers_of_ends {K : α → Prop} {p : Prog S α} (ends : P.Ends t K p) {i : ι}
    (own : c.prog i = p) {t' : Nat} {s : D} (related : P.rel t' c.store s) {ms : Nat → M}
    (later : ∀ n, t ≤ P.time (ms n)) (later' : t' ≤ P.time (ms 0))
    (ascending : ∀ n, P.time (ms n) ≤ P.time (ms (n + 1))) :
    ∃ n b, (c.runAt P.exec ((List.range n).map fun j => (i, ms j))).answer? i = some b ∧ K b := by
  induction p generalizing c t' ms with
  | ret a => exact ⟨0, a, by simp [runAt, answer?, own], ends⟩
  | op o k ih =>
      obtain ⟨still, rest⟩ := ends (ms 0) c.store s (later 0) (P.mono related later')
      have next : (c.step (fun _ => P.exec (ms 0)) i).prog i = k (P.exec (ms 0) o c.store).1 := by
        rw [step_op own]
        exact Function.update_self ..
      have after : P.rel (P.time (ms 0)) (c.step (fun _ => P.exec (ms 0)) i).store s := by
        rw [step_op own]
        exact still
      obtain ⟨n, b, answered, holds⟩ := @ih _ _ rest next _ after (fun j => ms (j + 1))
        (fun n => later (n + 1)) (ascending 0) fun n => ascending (n + 1)
      refine ⟨n + 1, b, ?_, holds⟩
      rw [List.range_succ_eq_map, List.map_cons, List.map_map]
      exact answered

omit [DecidableEq ι] in
/-- Two threads that have answered have answered alike. -/
theorem Paired.alike (paired : Paired P cond Q t c c') {i : ι} {a b : α}
    (answered : c.answer? i = some a) (answered' : c'.answer? i = some b) : Q i a b := by
  have thread := paired.prog i
  rw [prog_of_answer? answered, prog_of_answer? answered'] at thread
  cases thread with
  | ret alike => exact alike
  | apart K left right alike => exact alike a b left right

/-- If a thread has answered in one pool, it goes on alone to a like answer in the other. -/
theorem Paired.answers (paired : Paired P cond Q t c c') {i : ι} {a : α}
    (answered : c.answer? i = some a) {ms : Nat → M} (later : ∀ n, t ≤ P.time (ms n))
    (ascending : ∀ n, P.time (ms n) ≤ P.time (ms (n + 1))) :
    ∃ n b, (c'.runAt P.exec ((List.range n).map fun j => (i, ms j))).answer? i = some b ∧
      Q i a b := by
  have thread := paired.prog i
  rw [prog_of_answer? answered] at thread
  generalize own : c'.prog i = p' at thread
  cases thread with
  | ret alike =>
      refine ⟨0, _, ?_, alike⟩
      change c'.answer? i = some _
      simp only [answer?, own]
  | apart K left right alike =>
      obtain ⟨n, b, answered', holds⟩ := answers_of_ends right own (P.symm paired.store) later
        (later 0) ascending
      exact ⟨n, b, answered', alike a b left holds⟩

end Pool

end Conc
