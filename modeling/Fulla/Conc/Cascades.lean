import Fulla.Conc.Txn

/-!
# Cascades

A cascade is a transaction that marks something as gone and sweeps what belongs to it, one
statement for every kind of row.  Other threads put such rows in, directly or in transactions of
their own.  Where no row is put in once the mark stands, and no statement that puts rows in is
pending together with the one that sweeps them, what is gone keeps no row (`Cascade.Holds`).
-/

namespace Conc

set_option linter.unusedSectionVars false

variable {ι ρ κ σ : Type}

/-- Statements that sweep rows away, and statements that would bring them back. -/
structure Cascade (σ ρ : Type) where
  steps : List σ
  /-- The step leaves no such row. -/
  sweeps : σ → ρ → Prop
  /-- What the cascade leaves in the end. -/
  gone : ρ → Prop
  /-- The statement puts rows in that the step sweeps. -/
  refills : σ → σ → Prop
  apart : ∀ s ∈ steps, ∀ v, ¬ refills s v

namespace Cascade

section Definitions

variable [DecidableEq ρ]

/-- What the changes of a statement do to the rows it reads. -/
structure Effect (K : Cascade σ ρ) (s : σ) (rows : List ρ) (changes : List (Change ρ)) : Prop where
  swept : s ∈ K.steps → ∀ r ∈ applyAll changes rows, ¬ K.sweeps s r
  marked : ∀ c ∈ changes, ∀ d, c.new = some d → K.gone d → s ∈ K.steps
  origin : ∀ c ∈ changes, ∀ r, c.new = some r → ∀ v ∈ K.steps, K.sweeps v r →
    K.refills s v ∨ ∃ r' ∈ rows, K.sweeps v r' ∧ c.old = some r'

/-- No row is left of what is gone. -/
def Closed (K : Cascade σ ρ) (rows : List ρ) : Prop :=
  ∀ d ∈ rows, K.gone d → ∀ v ∈ K.steps, ∀ r ∈ rows, ¬ K.sweeps v r

/-- A row that has to be swept is put in by a statement that refills, or in the place of
another one. -/
def Rooted (K : Cascade σ ρ) (rows : List ρ) (changes : List (Change ρ)) (pending : List σ) :
    Prop :=
  ∀ c ∈ changes, ∀ r, c.new = some r → ∀ v ∈ K.steps, K.sweeps v r →
    (∃ a ∈ pending, K.refills a v) ∨
      ∃ r' ∈ rows, K.sweeps v r' ∧ ∃ c' ∈ changes, c'.old = some r'

/-- A transaction and the statements that it has executed, newest first. -/
structure Pending (K : Cascade σ ρ) (rows : List ρ) (changes : List (Change ρ)) (l : List σ) :
    Prop where
  rooted : K.Rooted rows changes l
  marked : ∀ c ∈ changes, ∀ d, c.new = some d → K.gone d → ∃ s ∈ l, s ∈ K.steps
  swept : ∀ v ∈ l, v ∈ K.steps → ∀ r ∈ applyAll changes rows, ¬ K.sweeps v r
  stands : ∀ a ∈ l, ∀ v ∈ K.steps, K.refills a v → ∀ d ∈ rows, ¬ K.gone d

/-- The statement is executed in the cascade, or in a transaction without steps of it. -/
structure Fits (K : Cascade σ ρ) (g : Option (List σ)) (s : σ) : Prop where
  inside : s ∈ K.steps → g ≠ none
  outside : s ∉ K.steps → ∀ l, g = some l → ∀ v ∈ K.steps, v ∉ l

/-- All of the cascade, or nothing of it. -/
def Whole (K : Cascade σ ρ) (l : List σ) : Prop :=
  (∀ v ∈ K.steps, v ∉ l) ∨ ∀ v ∈ K.steps, v ∈ l

/-- A statement of thread `i` puts no rows in once the mark stands, and neither it nor a step of
the cascade comes while the other one is pending. -/
structure Timely (K : Cascade σ ρ) (rows : List ρ) (pending : ι → Option (List σ)) (i : ι)
    (s : σ) : Prop where
  stands : ∀ v ∈ K.steps, K.refills s v → ∀ d ∈ rows, ¬ K.gone d
  unswept : ∀ v ∈ K.steps, K.refills s v → ∀ j ≠ i, ∀ l, pending j = some l → v ∉ l
  settled : s ∈ K.steps → ∀ j ≠ i, ∀ l, pending j = some l → ∀ a ∈ l, ¬ K.refills a s

variable [DecidableEq ι] [DecidableEq κ]

/-- What holds of the database and of the statements that the open transactions have executed. -/
structure Holds (K : Cascade σ ρ) (locksOf : Change ρ → List (Lock κ)) (db : TxnDb ι ρ κ)
    (pending : ι → Option (List σ)) : Prop where
  sound : db.Sound locksOf
  closed : K.Closed db.rows
  idle : ∀ j, db.txn j = none ↔ pending j = none
  each : ∀ j u l, db.txn j = some u → pending j = some l → K.Pending db.rows u.changes l
  apart : ∀ i j l l', i ≠ j → pending i = some l → pending j = some l' →
    ∀ a ∈ l, ∀ v ∈ l', v ∈ K.steps → ¬ K.refills a v

end Definitions

section Rows

variable [DecidableEq ρ] {K : Cascade σ ρ} {rows : List ρ} {changes : List (Change ρ)}
  {l : List σ}

/-- Without a new mark, a mark that stands stood before. -/
theorem gone_of_unmarked (unmarked : ∀ c ∈ changes, ∀ d, c.new = some d → ¬ K.gone d) {d : ρ}
    (mem : d ∈ applyAll changes rows) (gone : K.gone d) : d ∈ rows := by
  rcases mem_of_mem_applyAll mem with old | ⟨c, change, put⟩
  · exact old
  · exact absurd gone (unmarked c change d put)

/-- Rows that are put in where nothing is gone, or in the place of others. -/
theorem Closed.keep (closed : K.Closed rows)
    (unmarked : ∀ c ∈ changes, ∀ d, c.new = some d → ¬ K.gone d)
    (rooted : K.Rooted rows changes l)
    (stands : ∀ a ∈ l, ∀ v ∈ K.steps, K.refills a v → ∀ d ∈ rows, ¬ K.gone d) :
    K.Closed (applyAll changes rows) := by
  intro d mem gone v step r mem' sweeps
  have there := gone_of_unmarked unmarked mem gone
  rcases mem_of_mem_applyAll mem' with old | ⟨c, change, put⟩
  · exact closed d there gone v step r old sweeps
  · rcases rooted c change r put v step sweeps with ⟨a, ran, refills⟩ | ⟨r', old, sweeps', _⟩
    · exact stands a ran v step refills d there gone
    · exact closed d there gone v step r' old sweeps'

theorem Closed.of_swept (swept : ∀ v ∈ K.steps, ∀ r ∈ rows, ¬ K.sweeps v r) : K.Closed rows :=
  fun _ _ _ v step r mem => swept v step r mem

/-- The changes of one statement, outside a transaction. -/
theorem Effect.rooted {s : σ} (effect : K.Effect s rows changes) :
    K.Rooted rows changes [s] := by
  intro c change r put v step sweeps
  rcases effect.origin c change r put v step sweeps with refills | ⟨r', mem, sweeps', old⟩
  · exact .inl ⟨s, List.mem_singleton_self s, refills⟩
  · exact .inr ⟨r', mem, sweeps', c, change, old⟩

/-- The changes of one more statement of a transaction. -/
theorem Pending.execute {s : σ} {more : List (Change ρ)} (pending : K.Pending rows changes l)
    (effect : K.Effect s (applyAll changes rows) more) (fits : K.Fits (some l) s)
    (stands : ∀ v ∈ K.steps, K.refills s v → ∀ d ∈ rows, ¬ K.gone d) :
    K.Pending rows (changes ++ more) (s :: l) := by
  have rooted : K.Rooted rows (changes ++ more) (s :: l) := by
    intro c change r put v step sweeps
    have earlier : ∀ c ∈ changes, ∀ r, c.new = some r → K.sweeps v r →
        (∃ a ∈ s :: l, K.refills a v) ∨
          ∃ r' ∈ rows, K.sweeps v r' ∧ ∃ c' ∈ changes ++ more, c'.old = some r' := by
      intro c change r put sweeps
      rcases pending.rooted c change r put v step sweeps with
        ⟨a, ran, refills⟩ | ⟨r', mem, sweeps', c', change', old⟩
      · exact .inl ⟨a, List.mem_cons_of_mem s ran, refills⟩
      · exact .inr ⟨r', mem, sweeps', c', List.mem_append_left more change', old⟩
    rcases List.mem_append.mp change with change | change
    · exact earlier c change r put sweeps
    · rcases effect.origin c change r put v step sweeps with refills | ⟨r', mem, sweeps', old⟩
      · exact .inl ⟨s, List.mem_cons_self, refills⟩
      · rcases mem_of_mem_applyAll mem with there | ⟨c', change', put'⟩
        · exact .inr ⟨r', there, sweeps', c, List.mem_append_right changes change, old⟩
        · exact earlier c' change' r' put' sweeps'
  refine ⟨rooted, fun c change d put gone => ?_, fun v ran step r mem sweeps => ?_,
    fun a ran v step refills => ?_⟩
  · rcases List.mem_append.mp change with change | change
    · obtain ⟨s', ran, step⟩ := pending.marked c change d put gone
      exact ⟨s', List.mem_cons_of_mem s ran, step⟩
    · exact ⟨s, List.mem_cons_self, effect.marked c change d put gone⟩
  · rw [applyAll_append] at mem
    rcases List.mem_cons.mp ran with rfl | ran
    · exact effect.swept step r mem sweeps
    -- what was swept before is not refilled by a step, and not at all by another statement
    · have own : s ∈ K.steps := by
        by_contra other
        exact fits.outside other l rfl v step ran
      rcases mem_of_mem_applyAll mem with old | ⟨c, change, put⟩
      · exact pending.swept v ran step r old sweeps
      · rcases effect.origin c change r put v step sweeps with refills | ⟨r', old, sweeps', _⟩
        · exact K.apart s own v refills
        · exact pending.swept v ran step r' old sweeps'
  · rcases List.mem_cons.mp ran with rfl | ran
    · exact stands v step refills
    · exact pending.stands a ran v step refills

end Rows

section Steps

variable [DecidableEq ι] [DecidableEq ρ] [DecidableEq κ] {K : Cascade σ ρ}
  {locksOf : Change ρ → List (Lock κ)} {forbidden : ρ → ρ → Prop} {db db' : TxnDb ι ρ κ}
  {pending : ι → Option (List σ)} {i j : ι} {changes : List (Change ρ)} {u : Txn ρ κ}
  {l ran : List σ} {s : σ}

/-- What another thread commits leaves a transaction as it stands. -/
theorem Pending.of_moves (inv : K.Pending db.rows u.changes l)
    (guarded : TxnDb.Guarded locksOf (fun _ => True) forbidden) (sound : db.Sound locksOf)
    (moves : TxnDb.Moves locksOf i changes db db') (ne : j ≠ i) (own : db.txn j = some u)
    (rooted : K.Rooted db.rows changes ran)
    (apart : ∀ a ∈ ran, ∀ v ∈ l, v ∈ K.steps → ¬ K.refills a v)
    (stands : ∀ a ∈ l, ∀ v ∈ K.steps, K.refills a v → ∀ d ∈ db'.rows, ¬ K.gone d) :
    K.Pending db'.rows u.changes l := by
  have untouched : ∀ c ∈ changes, ∀ c' ∈ u.changes, ∀ r, c.old = some r ∨ c.new = some r →
      c'.old ≠ some r := by
    intro c mem c' mem' r touches taken
    exact TxnDb.not_excludes_of_moves sound moves ne own mem mem'
      (guarded.row c c' r trivial trivial touches (.inl taken))
  refine ⟨fun c change r put v step sweeps => ?_, inv.marked, fun v done step r mem sweeps => ?_,
    stands⟩
  · rcases inv.rooted c change r put v step sweeps with
      refilled | ⟨r', there, sweeps', c', mem, old⟩
    · exact .inl refilled
    · refine .inr ⟨r', ?_, sweeps', c', mem, old⟩
      rw [moves.rows]
      exact mem_applyAll there fun c'' mem'' taken => untouched c'' mem'' c' mem r' (.inl taken) old
  · rcases mem_of_mem_applyAll mem with there | ⟨c, change, put⟩
    · rcases mem_of_mem_applyAll (moves.rows ▸ there) with old | ⟨c, change, put⟩
      · have same : r ∈ db'.rows ↔ r ∈ db.rows := ⟨fun _ => old, fun _ => there⟩
        exact inv.swept v done step r ((mem_applyAll_congr same).mp mem) sweeps
      · rcases rooted c change r put v step sweeps with
          ⟨a, refilled, refills⟩ | ⟨r', old, sweeps', c', change', taken⟩
        · exact apart a refilled v done step refills
        -- the row that stood in its place was swept, and so another thread has it locked
        · refine inv.swept v done step r' (mem_applyAll old fun c'' mem'' taken' => ?_) sweeps'
          exact untouched c' change' c'' mem'' r' (.inl taken) taken'
    · have same := TxnDb.mem_iff_of_put sound moves guarded (fun _ _ => trivial) ne own
        (fun _ _ => trivial) change put
      exact inv.swept v done step r ((mem_applyAll_congr same).mp mem) sweeps

/-- A step of thread `i` that keeps its own transaction in order. -/
theorem Holds.step (inv : K.Holds locksOf db pending)
    (guarded : TxnDb.Guarded locksOf (fun _ => True) forbidden) (sound : db'.Sound locksOf)
    (moves : TxnDb.Moves locksOf i changes db db') (rooted : K.Rooted db.rows changes ran)
    (apart : ∀ j ≠ i, ∀ l, pending j = some l → ∀ a ∈ ran, ∀ v ∈ l, v ∈ K.steps → ¬ K.refills a v)
    (stands : ∀ j ≠ i, ∀ l, pending j = some l → ∀ a ∈ l, ∀ v ∈ K.steps, K.refills a v →
      ∀ d ∈ db'.rows, ¬ K.gone d)
    (closed : K.Closed db'.rows) {g : Option (List σ)} (idle : db'.txn i = none ↔ g = none)
    (own : ∀ u l, db'.txn i = some u → g = some l → K.Pending db'.rows u.changes l)
    (fresh : ∀ l, g = some l → ∀ j ≠ i, ∀ l', pending j = some l' →
      (∀ a ∈ l, ∀ v ∈ l', v ∈ K.steps → ¬ K.refills a v) ∧
        ∀ a ∈ l', ∀ v ∈ l, v ∈ K.steps → ¬ K.refills a v) :
    K.Holds locksOf db' (Function.update pending i g) := by
  refine ⟨sound, closed, fun j => ?_, fun j u l txn there => ?_, fun j k l l' ne there there' => ?_⟩
  · by_cases mine : j = i
    · subst mine
      rw [Function.update_self]
      exact idle
    · rw [moves.others j mine, Function.update_of_ne mine]
      exact inv.idle j
  · by_cases mine : j = i
    · subst mine
      rw [Function.update_self] at there
      exact own u l txn there
    · rw [moves.others j mine] at txn
      rw [Function.update_of_ne mine] at there
      exact (inv.each j u l txn there).of_moves guarded inv.sound moves mine txn rooted
        (apart j mine l there) (stands j mine l there)
  · by_cases mine : j = i
    · subst mine
      rw [Function.update_self] at there
      rw [Function.update_of_ne (Ne.symm ne)] at there'
      exact (fresh l there k (Ne.symm ne) l' there').1
    · rw [Function.update_of_ne mine] at there
      by_cases mine' : k = i
      · subst mine'
        rw [Function.update_self] at there'
        exact (fresh l' there' j ne l there).2
      · rw [Function.update_of_ne mine'] at there'
        exact inv.apart j k l l' ne there there'

/-- A step that commits nothing. -/
theorem Holds.still (inv : K.Holds locksOf db pending)
    (guarded : TxnDb.Guarded locksOf (fun _ => True) forbidden) (sound : db'.Sound locksOf)
    (moves : TxnDb.Moves locksOf i [] db db') {g : Option (List σ)}
    (idle : db'.txn i = none ↔ g = none)
    (own : ∀ u l, db'.txn i = some u → g = some l → K.Pending db'.rows u.changes l)
    (fresh : ∀ l, g = some l → ∀ j ≠ i, ∀ l', pending j = some l' →
      (∀ a ∈ l, ∀ v ∈ l', v ∈ K.steps → ¬ K.refills a v) ∧
        ∀ a ∈ l', ∀ v ∈ l, v ∈ K.steps → ¬ K.refills a v) :
    K.Holds locksOf db' (Function.update pending i g) := by
  have rows : db'.rows = db.rows := moves.rows
  have rooted : K.Rooted db.rows [] [] := by
    intro c mem
    cases mem
  refine inv.step guarded sound moves rooted ?_ ?_ ?_ idle own fresh
  · intro j _ l _ a mem
    cases mem
  · intro j other l there
    rw [rows]
    cases txn : db.txn j with
    | none => cases ((inv.idle j).mp txn).symm.trans there
    | some u => exact (inv.each j u l txn there).stands
  · rw [rows]
    exact inv.closed

theorem Holds.leave (inv : K.Holds locksOf db pending)
    (guarded : TxnDb.Guarded locksOf (fun _ => True) forbidden) (i : ι) :
    K.Holds locksOf (db.abandon i) (Function.update pending i none) := by
  have none_ : (db.abandon i).txn i = none := Function.update_self ..
  refine inv.still guarded (inv.sound.abandon i) TxnDb.moves_abandon (iff_of_true none_ rfl) ?_ ?_
  · intro u l _ there
    cases there
  · intro l there
    cases there

theorem Holds.start (inv : K.Holds locksOf db pending)
    (guarded : TxnDb.Guarded locksOf (fun _ => True) forbidden) (i : ι) :
    K.Holds locksOf (db.start i) (Function.update pending i (some [])) := by
  have opened : (db.start i).txn i = some {} := Function.update_self ..
  refine inv.still guarded (inv.sound.start i) TxnDb.moves_start ?_ ?_ ?_
  · rw [opened]
    simp
  · intro u l txn there
    cases opened.symm.trans txn
    cases there
    refine ⟨fun c mem => ?_, fun c mem => ?_, fun v mem => ?_, fun a mem => ?_⟩ <;> cases mem
  · intro l there j _ l' _
    cases there
    refine ⟨fun a mem => ?_, fun a _ v mem => ?_⟩ <;> cases mem

theorem Holds.take (inv : K.Holds locksOf db pending)
    (guarded : TxnDb.Guarded locksOf (fun _ => True) forbidden) {lock : Lock κ}
    (free : db.blocked i [lock] = false) : K.Holds locksOf (db.take i lock) pending := by
  have own : (db.txn i = none → (db.take i lock).txn i = none) ∧
      ∀ u, db.txn i = some u →
        (db.take i lock).txn i = some { u with locks := u.locks ++ [lock] } := by
    refine ⟨fun txn => ?_, fun u txn => ?_⟩
    · simp only [TxnDb.take, txn]
    · simp only [TxnDb.take, txn]
      exact Function.update_self ..
  rw [← Function.update_eq_self i pending]
  have moves : TxnDb.Moves locksOf i [] db (db.take i lock) := TxnDb.moves_take
  have rows : (db.take i lock).rows = db.rows := moves.rows
  refine inv.still guarded (inv.sound.take free) moves ?_ ?_ ?_
  · rw [← inv.idle i]
    cases txn : db.txn i with
    | none => simp [own.1 txn]
    | some u => simp [own.2 u txn]
  · intro u' l txn there
    rw [rows]
    cases txn' : db.txn i with
    | none => cases (own.1 txn').symm.trans txn
    | some u =>
        cases (own.2 u txn').symm.trans txn
        exact inv.each i u l txn' there
  · intro l there j other l' there'
    exact ⟨inv.apart i j l l' (Ne.symm other) there there',
      inv.apart j i l' l other there' there⟩

/-- A statement in a transaction. -/
theorem Holds.buffer (inv : K.Holds locksOf db pending)
    (guarded : TxnDb.Guarded locksOf (fun _ => True) forbidden) (own : db.txn i = some u)
    (mine : pending i = some l) (free : db.blocked i (changes.flatMap locksOf) = false)
    (effect : K.Effect s (db.view i) changes) (fits : K.Fits (some l) s)
    (timely : K.Timely db.rows pending i s) :
    K.Holds locksOf (db.write i changes (changes.flatMap locksOf))
      (Function.update pending i (some (s :: l))) := by
  have txn : (db.write i changes (changes.flatMap locksOf)).txn i =
      some ⟨u.changes ++ changes, u.locks ++ changes.flatMap locksOf⟩ := by
    simp only [TxnDb.write, own]
    exact Function.update_self ..
  have rows : (db.write i changes (changes.flatMap locksOf)).rows = db.rows := by
    simp only [TxnDb.write, own]
  rw [TxnDb.view_of_some own] at effect
  refine inv.still guarded (inv.sound.write free) (TxnDb.moves_buffer own) ?_ ?_ ?_
  · rw [txn]
    simp
  · intro u' l' there there'
    cases txn.symm.trans there
    cases there'
    rw [rows]
    exact (inv.each i u l own mine).execute effect fits timely.stands
  · intro l' there j other l'' there'
    cases there
    refine ⟨fun a ran v swept step => ?_, fun a ran v swept step => ?_⟩
    · rcases List.mem_cons.mp ran with rfl | ran
      · exact fun refills => timely.unswept v step refills j other l'' there' swept
      · exact inv.apart i j l l'' (Ne.symm other) mine there' a ran v swept step
    · rcases List.mem_cons.mp swept with rfl | swept
      · exact timely.settled step j other l'' there' a ran
      · exact inv.apart j i l'' l other there' mine a ran v swept step

/-- A statement outside a transaction. -/
theorem Holds.direct (inv : K.Holds locksOf db pending)
    (guarded : TxnDb.Guarded locksOf (fun _ => True) forbidden) (own : db.txn i = none)
    (free : db.blocked i (changes.flatMap locksOf) = false)
    (effect : K.Effect s (db.view i) changes) (fits : K.Fits none s)
    (timely : K.Timely db.rows pending i s) :
    K.Holds locksOf (db.write i changes (changes.flatMap locksOf)) pending := by
  have mine : pending i = none := (inv.idle i).mp own
  have moves : TxnDb.Moves locksOf i changes db (db.write i changes (changes.flatMap locksOf)) :=
    TxnDb.moves_write inv.sound own free
  have txn : (db.write i changes (changes.flatMap locksOf)).txn i = none := by
    simp only [TxnDb.write, own]
  have outside : s ∉ K.steps := fun step => fits.inside step rfl
  have unmarked : ∀ c ∈ changes, ∀ d, c.new = some d → ¬ K.gone d :=
    fun c mem d put gone => outside (effect.marked c mem d put gone)
  rw [TxnDb.view_of_none own] at effect
  rw [← Function.update_eq_self i pending, mine]
  refine inv.step guarded (inv.sound.write free) moves effect.rooted ?_ ?_ ?_
    (iff_of_true txn rfl) ?_ ?_
  · intro j other l there a ran v swept step refills
    cases List.mem_singleton.mp ran
    exact timely.unswept v step refills j other l there swept
  · intro j other l there a ran v step refills d mem gone
    rw [moves.rows] at mem
    have stood := gone_of_unmarked unmarked mem gone
    cases txn : db.txn j with
    | none => cases ((inv.idle j).mp txn).symm.trans there
    | some u => exact (inv.each j u l txn there).stands a ran v step refills d stood gone
  · rw [moves.rows]
    refine inv.closed.keep unmarked effect.rooted fun a ran v step refills => ?_
    cases List.mem_singleton.mp ran
    exact timely.stands v step refills
  · intro u l _ there
    cases there
  · intro l there
    cases there

/-- The end of a transaction that has executed all of the cascade or nothing of it. -/
theorem Holds.commit (inv : K.Holds locksOf db pending)
    (guarded : TxnDb.Guarded locksOf (fun _ => True) forbidden) (own : db.txn i = some u)
    (mine : pending i = some l) (whole : K.Whole l) :
    K.Holds locksOf (db.finish i) (Function.update pending i none) := by
  have standing := inv.each i u l own mine
  have moves : TxnDb.Moves locksOf i u.changes db (db.finish i) :=
    TxnDb.moves_finish inv.sound own
  have txn : (db.finish i).txn i = none := Function.update_self ..
  have stood : ∀ j ≠ i, ∀ l', pending j = some l' → ∀ a ∈ l', ∀ v ∈ K.steps, K.refills a v →
      ∀ d ∈ db.rows, ¬ K.gone d := by
    intro j other l' there
    cases txn : db.txn j with
    | none => cases ((inv.idle j).mp txn).symm.trans there
    | some u' => exact (inv.each j u' l' txn there).stands
  have unmarked (nothing : ∀ v ∈ K.steps, v ∉ l) :
      ∀ c ∈ u.changes, ∀ d, c.new = some d → ¬ K.gone d := by
    intro c mem d put gone
    obtain ⟨s, ran, step⟩ := standing.marked c mem d put gone
    exact nothing s step ran
  refine inv.step guarded (inv.sound.finish i) moves standing.rooted ?_ ?_ ?_
    (iff_of_true txn rfl) ?_ ?_
  · intro j other l' there
    exact inv.apart i j l l' (Ne.symm other) mine there
  · intro j other l' there a ran v step refills d mem gone
    rcases whole with nothing | all
    · rw [moves.rows] at mem
      exact stood j other l' there a ran v step refills d
        (gone_of_unmarked (unmarked nothing) mem gone) gone
    · exact inv.apart j i l' l other there mine a ran v (all v step) step refills
  · rw [moves.rows]
    rcases whole with nothing | all
    · exact inv.closed.keep (unmarked nothing) standing.rooted standing.stands
    · exact Closed.of_swept fun v step => standing.swept v (all v step) step
  · intro u l _ there
    cases there
  · intro l there
    cases there

end Steps

end Cascade

end Conc
