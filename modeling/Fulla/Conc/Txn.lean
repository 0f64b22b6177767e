import Mathlib.Logic.Function.Basic
import Mathlib.Data.List.Basic

/-!
# Transactions at READ COMMITTED

A database is a list of committed rows and, for every thread, its open transaction: the
changes it has buffered and the locks it holds until it ends.  A statement reads the committed
rows with the thread's own changes on top.  It may write only what no other open transaction
has locked in a conflicting mode; otherwise it waits.  Outside a transaction a statement
commits at once.

`Sound` says that locks are what they should be: those of two transactions never conflict, and
every buffered change is locked.  `Moves` is what one step of a thread does to the database as
the other threads see it: it changes committed rows by changes whose locks are free, and leaves
the others' transactions alone.
-/

namespace Conc

set_option linter.unusedSectionVars false

variable {ι ρ κ : Type}

/-- A row is taken out and another one is put in. -/
structure Change (ρ : Type) where
  old : Option ρ
  new : Option ρ
deriving DecidableEq

/-- A lock on a key, shared or exclusive. -/
structure Lock (κ : Type) where
  key : κ
  exclusive : Bool := true
deriving DecidableEq

/-- One key, and not both shared. -/
def Lock.conflicts [DecidableEq κ] (a b : Lock κ) : Bool :=
  a.key = b.key && (a.exclusive || b.exclusive)

/-- An open transaction. -/
structure Txn (ρ κ : Type) where
  /-- The buffered changes, oldest first. -/
  changes : List (Change ρ) := []
  locks : List (Lock κ) := []

/-- The committed rows and the open transactions. -/
structure TxnDb (ι ρ κ : Type) where
  rows : List ρ
  txn : ι → Option (Txn ρ κ) := fun _ => none
  /-- The threads that ever opened a transaction. -/
  begun : List ι := []
  /-- The next value of the sequences. -/
  serial : Nat := 0

section Changes

variable [DecidableEq ρ]

/-- The old row goes and the new one comes. -/
def Change.apply (c : Change ρ) (rows : List ρ) : List ρ :=
  rows.filter (fun r => some r ≠ c.old) ++ c.new.toList

/-- Changes, one after the other. -/
def applyAll (changes : List (Change ρ)) (rows : List ρ) : List ρ :=
  changes.foldl (fun rows c => c.apply rows) rows

/-- The rows after a change. -/
@[simp]
theorem Change.mem_apply {c : Change ρ} {rows : List ρ} {r : ρ} :
    r ∈ c.apply rows ↔ r ∈ rows ∧ c.old ≠ some r ∨ c.new = some r := by
  have swap : some r ≠ c.old ↔ c.old ≠ some r := ne_comm
  simp only [Change.apply, List.mem_append, List.mem_filter, decide_eq_true_eq, Option.mem_toList,
    swap]

@[simp]
theorem Change.apply_insert {r : ρ} {rows : List ρ} :
    Change.apply { old := none, new := some r } rows = rows ++ [r] := by
  simp [Change.apply]

@[simp]
theorem applyAll_nil {rows : List ρ} : applyAll [] rows = rows :=
  rfl

@[simp]
theorem applyAll_cons {c : Change ρ} {changes : List (Change ρ)} {rows : List ρ} :
    applyAll (c :: changes) rows = applyAll changes (c.apply rows) :=
  rfl

/-- Changes in two parts. -/
theorem applyAll_append {changes changes' : List (Change ρ)} {rows : List ρ} :
    applyAll (changes ++ changes') rows = applyAll changes' (applyAll changes rows) :=
  List.foldl_append

/-- A row is there afterwards because it was there, or because some change put it in. -/
theorem mem_of_mem_applyAll {changes : List (Change ρ)} {rows : List ρ} {r : ρ}
    (mem : r ∈ applyAll changes rows) : r ∈ rows ∨ ∃ c ∈ changes, c.new = some r := by
  induction changes generalizing rows with
  | nil => exact .inl mem
  | cons c changes ih =>
      rcases ih mem with there | ⟨c', mem', put⟩
      · rcases Change.mem_apply.mp there with ⟨old, _⟩ | put
        · exact .inl old
        · exact .inr ⟨c, List.mem_cons_self, put⟩
      · exact .inr ⟨c', List.mem_cons_of_mem _ mem', put⟩

/-- As before, and a row that stays was not taken out. -/
theorem kept_or_put {changes : List (Change ρ)} {rows : List ρ} {r : ρ}
    (mem : r ∈ applyAll changes rows) :
    (r ∈ rows ∧ ∀ c ∈ changes, c.old ≠ some r) ∨ ∃ c ∈ changes, c.new = some r := by
  induction changes generalizing rows with
  | nil => exact .inl ⟨mem, fun c none => by cases none⟩
  | cons c changes ih =>
      rcases ih mem with ⟨there, kept⟩ | ⟨c', mem', put⟩
      · rcases Change.mem_apply.mp there with ⟨old, kept'⟩ | put
        · refine .inl ⟨old, fun c' mem' => ?_⟩
          rcases List.mem_cons.mp mem' with rfl | later
          · exact kept'
          · exact kept c' later
        · exact .inr ⟨c, List.mem_cons_self, put⟩
      · exact .inr ⟨c', List.mem_cons_of_mem _ mem', put⟩

/-- A row that no change takes out stays. -/
theorem mem_applyAll {changes : List (Change ρ)} {rows : List ρ} {r : ρ} (mem : r ∈ rows)
    (kept : ∀ c ∈ changes, c.old ≠ some r) : r ∈ applyAll changes rows := by
  induction changes generalizing rows with
  | nil => exact mem
  | cons c changes ih =>
      exact ih (Change.mem_apply.mpr (.inl ⟨mem, kept c List.mem_cons_self⟩))
        fun c' mem' => kept c' (List.mem_cons_of_mem _ mem')

/-- What a change puts in stays if no change takes it out. -/
theorem mem_applyAll_put {changes : List (Change ρ)} {c : Change ρ} {r : ρ}
    (mem : c ∈ changes) (put : c.new = some r) (kept : ∀ c' ∈ changes, c'.old ≠ some r)
    {rows : List ρ} : r ∈ applyAll changes rows := by
  induction changes generalizing rows with
  | nil => cases mem
  | cons first changes ih =>
      have kept' : ∀ c' ∈ changes, c'.old ≠ some r := fun c' mem' =>
        kept c' (List.mem_cons_of_mem _ mem')
      rcases List.mem_cons.mp mem with rfl | later
      · rw [applyAll_cons]
        exact mem_applyAll (Change.mem_apply.mpr (.inr put)) kept'
      · exact ih later kept'

/-- Whether a row is there afterwards depends on the rows only by whether it was there before. -/
theorem mem_applyAll_congr {changes : List (Change ρ)} {rows rows' : List ρ} {r : ρ}
    (same : r ∈ rows ↔ r ∈ rows') : r ∈ applyAll changes rows ↔ r ∈ applyAll changes rows' := by
  induction changes generalizing rows rows' with
  | nil => exact same
  | cons c changes ih =>
      refine ih ?_
      rw [Change.mem_apply, Change.mem_apply, same]

/-- A change of a row of a kind. -/
def Change.Touches (P : ρ → Prop) (c : Change ρ) : Prop :=
  ∃ r, P r ∧ (c.old = some r ∨ c.new = some r)

/-- Rows of a kind that no change touches. -/
theorem mem_applyAll_iff {P : ρ → Prop} {changes : List (Change ρ)}
    (none : ∀ c ∈ changes, ¬ c.Touches P) {rows : List ρ} {r : ρ} (kind : P r) :
    r ∈ applyAll changes rows ↔ r ∈ rows := by
  constructor
  · intro mem
    rcases mem_of_mem_applyAll mem with old | ⟨c, mem, put⟩
    · exact old
    · exact absurd ⟨r, kind, .inr put⟩ (none c mem)
  · intro mem
    exact mem_applyAll mem fun c mem' taken => none c mem' ⟨r, kind, .inl taken⟩

/-- Rows of a kind that one change touches, once or more often. -/
theorem mem_applyAll_same {P : ρ → Prop} {changes : List (Change ρ)} {c : Change ρ}
    (same : ∀ c' ∈ changes, c'.Touches P → c' = c) (there : c ∈ changes) {rows : List ρ} {r : ρ}
    (kind : P r) : r ∈ applyAll changes rows ↔ r ∈ rows ∧ c.old ≠ some r ∨ c.new = some r := by
  induction changes generalizing rows with
  | nil => cases there
  | cons first changes ih =>
      have later : ∀ c' ∈ changes, c'.Touches P → c' = c := fun c' mem =>
        same c' (List.mem_cons_of_mem _ mem)
      by_cases mem : c ∈ changes
      · rw [applyAll_cons, ih later mem, Change.mem_apply]
        by_cases touches : first.Touches P
        · cases same first List.mem_cons_self touches
          tauto
        · have old : first.old ≠ some r := fun taken => touches ⟨r, kind, .inl taken⟩
          have new : first.new ≠ some r := fun put => touches ⟨r, kind, .inr put⟩
          tauto
      · have untouched : ∀ c' ∈ changes, ¬ c'.Touches P := by
          intro c' mem' touches
          cases later c' mem' touches
          exact mem mem'
        have eq : c = first := (List.mem_cons.mp there).resolve_right mem
        rw [applyAll_cons, mem_applyAll_iff untouched kind, Change.mem_apply, eq]

end Changes

namespace TxnDb

variable [DecidableEq ι] [DecidableEq ρ] [DecidableEq κ] {db db' : TxnDb ι ρ κ} {i j : ι}

/-- What a statement of thread `i` reads. -/
def view (db : TxnDb ι ρ κ) (i : ι) : List ρ :=
  match db.txn i with
  | none => db.rows
  | some t => applyAll t.changes db.rows

/-- Another open transaction has one of these locked. -/
def blocked (db : TxnDb ι ρ κ) (i : ι) (locks : List (Lock κ)) : Bool :=
  db.begun.any fun j => j ≠ i &&
    match db.txn j with
    | none => false
    | some t => locks.any fun a => t.locks.any fun b => a.conflicts b

/-- A transaction is opened. -/
def start (db : TxnDb ι ρ κ) (i : ι) : TxnDb ι ρ κ :=
  { db with txn := Function.update db.txn i (some {}), begun := i :: db.begun }

/-- Buffered in a transaction, and committed at once outside. -/
def write (db : TxnDb ι ρ κ) (i : ι) (changes : List (Change ρ)) (locks : List (Lock κ)) :
    TxnDb ι ρ κ :=
  match db.txn i with
  | none => { db with rows := applyAll changes db.rows, serial := db.serial + 1 }
  | some t =>
    { db with
      txn := Function.update db.txn i (some ⟨t.changes ++ changes, t.locks ++ locks⟩)
      serial := db.serial + 1 }

/-- A lock without a change. -/
def take (db : TxnDb ι ρ κ) (i : ι) (lock : Lock κ) : TxnDb ι ρ κ :=
  match db.txn i with
  | none => db
  | some t =>
    { db with txn := Function.update db.txn i (some { t with locks := t.locks ++ [lock] }) }

/-- A transaction commits. -/
def finish (db : TxnDb ι ρ κ) (i : ι) : TxnDb ι ρ κ :=
  { db with rows := db.view i, txn := Function.update db.txn i none }

/-- A transaction is rolled back. -/
def abandon (db : TxnDb ι ρ κ) (i : ι) : TxnDb ι ρ κ :=
  { db with txn := Function.update db.txn i none }

/-- Without a transaction one sees the committed rows. -/
theorem view_of_none (none : db.txn i = none) : db.view i = db.rows := by
  simp only [view, none]

/-- In a transaction one sees its own changes over them. -/
theorem view_of_some {t : Txn ρ κ} (some : db.txn i = some t) :
    db.view i = applyAll t.changes db.rows := by
  simp only [view, some]

theorem abandon_of_none (none : db.txn i = none) : db.abandon i = db := by
  unfold abandon
  rw [← none, Function.update_eq_self]

/-! ## Locks -/

/-- Every transaction is known, its changes are locked, and no two transactions hold
conflicting locks. -/
structure Sound (locksOf : Change ρ → List (Lock κ)) (db : TxnDb ι ρ κ) : Prop where
  begun : ∀ i t, db.txn i = some t → i ∈ db.begun
  covered : ∀ i t, db.txn i = some t → ∀ c ∈ t.changes, ∀ a ∈ locksOf c, a ∈ t.locks
  apart : ∀ i j t u, i ≠ j → db.txn i = some t → db.txn j = some u →
    ∀ a ∈ t.locks, ∀ b ∈ u.locks, a.conflicts b = false

/-- A step of thread `i` that commits `changes`. -/
structure Moves (locksOf : Change ρ → List (Lock κ)) (i : ι) (changes : List (Change ρ))
    (db db' : TxnDb ι ρ κ) : Prop where
  rows : db'.rows = applyAll changes db.rows
  others : ∀ j, j ≠ i → db'.txn j = db.txn j
  free : ∀ j u, j ≠ i → db.txn j = some u → ∀ c ∈ changes, ∀ a ∈ locksOf c, ∀ b ∈ u.locks,
    a.conflicts b = false

/-- Locks that are free conflict with those of no other transaction. -/
theorem not_conflicts_of_not_blocked {locksOf : Change ρ → List (Lock κ)} (sound : db.Sound locksOf)
    {locks : List (Lock κ)} (free : db.blocked i locks = false) {u : Txn ρ κ} (ne : j ≠ i)
    (other : db.txn j = some u) {a b : Lock κ} (mem : a ∈ locks) (mem' : b ∈ u.locks) :
    a.conflicts b = false := by
  cases conflict : a.conflicts b with
  | false => rfl
  | true =>
      have blocks : db.blocked i locks = true := by
        refine List.any_eq_true.mpr ⟨j, sound.begun j u other, ?_⟩
        rw [Bool.and_eq_true]
        refine ⟨decide_eq_true ne, ?_⟩
        simp only [other]
        exact List.any_eq_true.mpr ⟨a, mem, List.any_eq_true.mpr ⟨b, mem', conflict⟩⟩
      rw [free] at blocks
      cases blocks

variable {locksOf : Change ρ → List (Lock κ)}

/-- A conflict is one for both. -/
theorem conflicts_comm {a b : Lock κ} : a.conflicts b = b.conflicts a := by
  simp only [Lock.conflicts, eq_comm, Bool.or_comm]

/-- Replacing the transaction of one thread by one whose locks are free. -/
theorem Sound.replace (sound : db.Sound locksOf) {t : Txn ρ κ}
    (known : i ∈ db'.begun) (grows : ∀ j ∈ db.begun, j ∈ db'.begun)
    (eq : db'.txn = Function.update db.txn i (some t))
    (covered : ∀ c ∈ t.changes, ∀ a ∈ locksOf c, a ∈ t.locks)
    (free : ∀ j u, j ≠ i → db.txn j = some u → ∀ a ∈ t.locks, ∀ b ∈ u.locks,
      a.conflicts b = false) : db'.Sound locksOf := by
  have cases : ∀ j u, db'.txn j = some u → j = i ∧ u = t ∨ j ≠ i ∧ db.txn j = some u := by
    intro j u other
    rw [eq] at other
    by_cases own : j = i
    · subst own
      rw [Function.update_self] at other
      exact .inl ⟨rfl, (Option.some.inj other).symm⟩
    · rw [Function.update_of_ne own] at other
      exact .inr ⟨own, other⟩
  refine ⟨fun j u other => ?_, fun j u other => ?_, fun j k u v ne other other' => ?_⟩
  · rcases cases j u other with ⟨rfl, _⟩ | ⟨_, old⟩
    · exact known
    · exact grows j (sound.begun j u old)
  · rcases cases j u other with ⟨_, rfl⟩ | ⟨_, old⟩
    · exact covered
    · exact sound.covered j u old
  · intro a mem b mem'
    rcases cases j u other with ⟨rfl, rfl⟩ | ⟨ne_i, old⟩
    · rcases cases k v other' with ⟨rfl, _⟩ | ⟨ne_i, old'⟩
      · exact absurd rfl ne
      · exact free k v ne_i old' a mem b mem'
    · rcases cases k v other' with ⟨rfl, rfl⟩ | ⟨_, old'⟩
      · rw [conflicts_comm]
        exact free j u ne_i old b mem' a mem
      · exact sound.apart j k u v ne old old' a mem b mem'

/-- Ending the transaction of one thread. -/
theorem Sound.end_ (sound : db.Sound locksOf) (begun : db'.begun = db.begun)
    (eq : db'.txn = Function.update db.txn i none) : db'.Sound locksOf := by
  have cases : ∀ j u, db'.txn j = some u → db.txn j = some u := by
    intro j u other
    rw [eq] at other
    by_cases own : j = i
    · subst own
      rw [Function.update_self] at other
      cases other
    · rwa [Function.update_of_ne own] at other
  refine ⟨fun j u other => ?_, fun j u other => sound.covered j u (cases j u other),
    fun j k u v ne other other' => sound.apart j k u v ne (cases j u other) (cases k v other')⟩
  rw [begun]
  exact sound.begun j u (cases j u other)

/-- Beginning a transaction is sound. -/
theorem Sound.start (sound : db.Sound locksOf) (i : ι) : (db.start i).Sound locksOf := by
  refine sound.replace List.mem_cons_self (fun j => List.mem_cons_of_mem _) rfl ?_ ?_
  · intro c mem
    cases mem
  · intro j u _ _ a mem
    cases mem

/-- So is rolling it back. -/
theorem Sound.abandon (sound : db.Sound locksOf) (i : ι) : (db.abandon i).Sound locksOf :=
  sound.end_ rfl rfl

/-- So is committing it. -/
theorem Sound.finish (sound : db.Sound locksOf) (i : ι) : (db.finish i).Sound locksOf :=
  sound.end_ rfl rfl

/-- So is a write whose locks are free. -/
theorem Sound.write (sound : db.Sound locksOf) {changes : List (Change ρ)}
    (free : db.blocked i (changes.flatMap locksOf) = false) :
    (db.write i changes (changes.flatMap locksOf)).Sound locksOf := by
  unfold TxnDb.write
  cases own : db.txn i with
  | none => exact ⟨sound.begun, sound.covered, sound.apart⟩
  | some t =>
      refine sound.replace (sound.begun i t own) (fun j mem => mem) rfl ?_ ?_
      · intro c mem a locked
        rcases List.mem_append.mp mem with old | new
        · exact List.mem_append_left _ (sound.covered i t own c old a locked)
        · exact List.mem_append_right _ (List.mem_flatMap.mpr ⟨c, new, locked⟩)
      · intro j u ne other a mem b mem'
        rcases List.mem_append.mp mem with old | new
        · exact sound.apart i j t u (Ne.symm ne) own other a old b mem'
        · exact not_conflicts_of_not_blocked sound free ne other new mem'

/-- So is a lock that is free. -/
theorem Sound.take (sound : db.Sound locksOf) {lock : Lock κ} (free : db.blocked i [lock] = false) :
    (db.take i lock).Sound locksOf := by
  unfold TxnDb.take
  cases own : db.txn i with
  | none => exact sound
  | some t =>
      refine sound.replace (sound.begun i t own) (fun j mem => mem) rfl ?_ ?_
      · intro c mem a locked
        exact List.mem_append_left _ (sound.covered i t own c mem a locked)
      · intro j u ne other a mem b mem'
        rcases List.mem_append.mp mem with old | new
        · exact sound.apart i j t u (Ne.symm ne) own other a old b mem'
        · exact not_conflicts_of_not_blocked sound free ne other new mem'

/-! ## Steps as the other threads see them -/

/-- A step that commits nothing. -/
theorem moves_nil (rows : db'.rows = db.rows) (others : ∀ j, j ≠ i → db'.txn j = db.txn j) :
    Moves locksOf i [] db db' := by
  refine ⟨rows, others, ?_⟩
  intro j u _ _ c mem
  cases mem

theorem moves_self : Moves locksOf i [] db db :=
  moves_nil rfl fun _ _ => rfl

theorem moves_start : Moves locksOf i [] db (db.start i) :=
  moves_nil rfl fun _ ne => Function.update_of_ne ne _ _

theorem moves_abandon : Moves locksOf i [] db (db.abandon i) :=
  moves_nil rfl fun _ ne => Function.update_of_ne ne _ _

theorem moves_take {lock : Lock κ} : Moves locksOf i [] db (db.take i lock) := by
  unfold take
  split
  · exact moves_self
  · exact moves_nil rfl fun _ ne => Function.update_of_ne ne _ _

/-- A write inside a transaction moves no committed row. -/
theorem moves_buffer {t : Txn ρ κ} (own : db.txn i = some t) {changes : List (Change ρ)}
    {locks : List (Lock κ)} : Moves locksOf i [] db (db.write i changes locks) := by
  unfold write
  simp only [own]
  exact moves_nil rfl fun _ ne => Function.update_of_ne ne _ _

/-- A write on its own moves the rows it changes. -/
theorem moves_write (sound : db.Sound locksOf) (own : db.txn i = none)
    {changes : List (Change ρ)} (free : db.blocked i (changes.flatMap locksOf) = false) :
    Moves locksOf i changes db (db.write i changes (changes.flatMap locksOf)) := by
  unfold write
  simp only [own]
  refine ⟨rfl, fun _ _ => rfl, ?_⟩
  intro j u ne other c mem a locked b mem'
  exact not_conflicts_of_not_blocked sound free ne other
    (List.mem_flatMap.mpr ⟨c, mem, locked⟩) mem'

/-- A commit moves the rows that were buffered. -/
theorem moves_finish (sound : db.Sound locksOf) {t : Txn ρ κ} (own : db.txn i = some t) :
    Moves locksOf i t.changes db (db.finish i) := by
  refine ⟨view_of_some own, fun _ ne => Function.update_of_ne ne _ _, ?_⟩
  intro j u ne other c mem a locked b mem'
  exact sound.apart i j t u (Ne.symm ne) own other a (sound.covered i t own c mem a locked) b mem'

/-! ## Constraints on pairs of rows -/

/-- The locks of two changes conflict. -/
def Excludes (locksOf : Change ρ → List (Lock κ)) (c c' : Change ρ) : Prop :=
  ∃ a ∈ locksOf c, ∃ b ∈ locksOf c', a.conflicts b = true

/-- No two rows are a forbidden pair. -/
def Clear (forbidden : ρ → ρ → Prop) (rows : List ρ) : Prop :=
  ∀ r ∈ rows, ∀ r' ∈ rows, ¬ forbidden r r'

/-- Changes of one row exclude each other, and so do changes that put in a forbidden pair. -/
structure Guarded (locksOf : Change ρ → List (Lock κ)) (regular : Change ρ → Prop)
    (forbidden : ρ → ρ → Prop) : Prop where
  row : ∀ c c' r, regular c → regular c' → (c.old = some r ∨ c.new = some r) →
    (c'.old = some r ∨ c'.new = some r) → Excludes locksOf c c'
  pair : ∀ c c' r r', regular c → regular c' → c.new = some r → c'.new = some r' →
    forbidden r r' ∨ forbidden r' r → Excludes locksOf c c'

section Pairs

variable {regular : Change ρ → Prop} {forbidden : ρ → ρ → Prop} {changes : List (Change ρ)}
  {u : Txn ρ κ}

/-- **What moves does not contradict what others have buffered**. -/
theorem not_excludes_of_moves (sound : db.Sound locksOf)
    (moves : Moves locksOf i changes db db') (ne : j ≠ i) (own : db.txn j = some u)
    {c c' : Change ρ} (mem : c ∈ changes) (mem' : c' ∈ u.changes) : ¬ Excludes locksOf c c' := by
  intro excludes
  obtain ⟨a, locked, b, locked', conflict⟩ := excludes
  have held := sound.covered j u own c' mem' b locked'
  rw [moves.free j u ne own c mem a locked b held] at conflict
  cases conflict

/-- A row that a transaction has put in is not touched by what another thread commits. -/
theorem mem_iff_of_put (sound : db.Sound locksOf) (moves : Moves locksOf i changes db db')
    (guarded : Guarded locksOf regular forbidden) (ok : ∀ c ∈ changes, regular c) (ne : j ≠ i)
    (own : db.txn j = some u) (ok' : ∀ c ∈ u.changes, regular c) {c : Change ρ}
    (mem : c ∈ u.changes) {r : ρ} (put : c.new = some r) : r ∈ db'.rows ↔ r ∈ db.rows := by
  rw [moves.rows]
  have untouched : ∀ c' ∈ changes, ¬ c'.Touches (· = r) := by
    intro c' mem' touches
    obtain ⟨r', rfl, touched⟩ := touches
    exact not_excludes_of_moves sound moves ne own mem' mem
      (guarded.row c' c r' (ok c' mem') (ok' c mem) touched (.inr put))
  exact mem_applyAll_iff untouched rfl

/-- What another thread commits leaves the view of a transaction clear. -/
theorem clear_view_of_moves (sound : db.Sound locksOf) (moves : Moves locksOf i changes db db')
    (guarded : Guarded locksOf regular forbidden) (ok : ∀ c ∈ changes, regular c) (ne : j ≠ i)
    (own : db.txn j = some u) (ok' : ∀ c ∈ u.changes, regular c)
    (committed : Clear forbidden db'.rows) (before : Clear forbidden (db.view j)) :
    Clear forbidden (db'.view j) := by
  have own' : db'.txn j = some u := (moves.others j ne).trans own
  rw [view_of_some own'] at ⊢
  rw [view_of_some own] at before
  -- a row that the transaction has put in was in its view before
  have stays : ∀ c ∈ u.changes, ∀ r, c.new = some r → r ∈ applyAll u.changes db'.rows →
      r ∈ applyAll u.changes db.rows := by
    intro c mem r put there
    exact (mem_applyAll_congr (mem_iff_of_put sound moves guarded ok ne own ok' mem put)).mp there
  -- of a forbidden pair with such a row, the other was there before, or was put in just now
  have other : ∀ c ∈ u.changes, ∀ r r', c.new = some r → forbidden r r' ∨ forbidden r' r →
      r' ∈ db'.rows → r' ∈ applyAll u.changes db'.rows → r' ∈ applyAll u.changes db.rows := by
    intro c mem r r' put bad there there'
    have old : r' ∈ db.rows := by
      rw [moves.rows] at there
      rcases mem_of_mem_applyAll there with old | ⟨c', mem', put'⟩
      · exact old
      · exact absurd (guarded.pair c' c r' r (ok c' mem') (ok' c mem) put' put bad.symm)
          (not_excludes_of_moves sound moves ne own mem' mem)
    exact (mem_applyAll_congr ⟨fun _ => old, fun _ => there⟩).mp there'
  intro r mem r' mem' bad
  rcases mem_of_mem_applyAll mem with there | ⟨c, change, put⟩
  · rcases mem_of_mem_applyAll mem' with there' | ⟨c', change', put'⟩
    · exact committed r there r' there' bad
    · exact before r (other c' change' r' r put' (.inr bad) there mem) r'
        (stays c' change' r' put' mem') bad
  · have mine := stays c change r put mem
    rcases mem_of_mem_applyAll mem' with there' | ⟨c', change', put'⟩
    · exact before r mine r' (other c change r r' put (.inl bad) there' mem') bad
    · exact before r mine r' (stays c' change' r' put' mem') bad

end Pairs

end TxnDb

end Conc
