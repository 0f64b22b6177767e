import Fulla.Conc.Txn

/-!
# Offices

An office is held by rows of a table, one for every holder.  It is handed over by two
statements: a row of the next holder is put in, and then the others are dismissed.  A thread
executes both in one transaction, or each of them on its own.

While a thread has raised someone outside a transaction, the office may have several holders.
`Office.Holds` says where every thread stands in a hand-over (`HandOver`), that the office has a
holder, and that it has only one while nobody is raised.  A transaction that has dismissed the
others has a holder's row locked, and so there is only one such transaction, and nobody else
dismisses the one it raises.
-/

namespace Conc

set_option linter.unusedSectionVars false

variable {ι ρ κ υ : Type}

/-- Rows that make somebody hold an office, and rows that need a holder. -/
structure Office (ρ υ : Type) where
  /-- Who holds the office by this row. -/
  holder : ρ → Option υ
  /-- There is such an office as long as this row is there. -/
  upholds : ρ → Prop

/-- Where a thread stands in a hand-over. -/
inductive HandOver (υ : Type) where
  | idle
  /-- In a transaction that leaves the office alone. -/
  | apart
  /-- Outside a transaction; the others are not dismissed yet. -/
  | raised (u : υ)
  /-- The same in a transaction. -/
  | raising (u : υ)
  /-- In a transaction, and the others are dismissed. -/
  | swapped (u : υ)
  /-- In a transaction that ends the office. -/
  | closing
deriving DecidableEq

namespace HandOver

/-- Nobody is raised outside a transaction. -/
def Settled (s : HandOver υ) : Prop :=
  ∀ u, s ≠ .raised u

/-- No hand-over is under way. -/
def Calm (s : HandOver υ) : Prop :=
  s = .idle ∨ s = .apart

/-- Somebody new holds the office. -/
def raise (s : HandOver υ) (u : υ) : HandOver υ :=
  match s with
  | .idle => .raised u
  | _ => .raising u

/-- The one before no longer does. -/
def dismiss : HandOver υ → HandOver υ
  | .raising u => .swapped u
  | _ => .idle

theorem Calm.settled {s : HandOver υ} (calm : s.Calm) : s.Settled := by
  intro u raised
  rcases calm with rfl | rfl <;> cases raised

end HandOver

namespace Office

section Definitions

variable [DecidableEq ρ] (O : Office ρ υ)

/-- The office has a holder. -/
def Held (rows : List ρ) : Prop :=
  ∃ r ∈ rows, ∃ u, O.holder r = some u

/-- Nobody but `u` holds the office. -/
def OnlyBy (u : υ) (rows : List ρ) : Prop :=
  ∀ r ∈ rows, ∀ v, O.holder r = some v → v = u

/-- The office has at most one holder. -/
def Sole (rows : List ρ) : Prop :=
  ∀ r ∈ rows, ∀ r' ∈ rows, ∀ u u', O.holder r = some u → O.holder r' = some u' → r = r'

/-- Some row needs a holder. -/
def Upheld (rows : List ρ) : Prop :=
  ∃ r ∈ rows, O.upholds r

/-- No row of a holder is touched. -/
def Inert (changes : List (Change ρ)) : Prop :=
  ∀ c ∈ changes, ∀ r, c.old = some r ∨ c.new = some r → O.holder r = none

/-- No office is founded. -/
def Founds (changes : List (Change ρ)) : Prop :=
  ∃ c ∈ changes, ∃ r, c.new = some r ∧ O.upholds r

/-- A row of `u` was put in, and is there. -/
def Raises (u : υ) (changes : List (Change ρ)) (rows : List ρ) : Prop :=
  ∃ r ∈ applyAll changes rows, O.holder r = some u ∧ ∃ c ∈ changes, c.new = some r

/-- A holder's row is touched, and who else is a holder afterwards was raised meanwhile. -/
structure Dismisses (raised : υ → Prop) (u : υ) (changes : List (Change ρ)) (rows : List ρ) :
    Prop where
  locked : ∃ r ∈ rows, ∃ v, O.holder r = some v ∧ ∃ c ∈ changes, c.Touches (· = r)
  others : ∀ r ∈ applyAll changes rows, ∀ v, O.holder r = some v →
    v = u ∨ raised v ∧ ∀ c ∈ changes, ¬ c.Touches (· = r)

/-- What is known of the transaction of a thread. -/
def At (raised : υ → Prop) (rows : List ρ) : HandOver υ → Option (Txn ρ κ) → Prop
  | .idle, txn => txn = none
  | .raised _, txn => txn = none
  | .apart, some t => O.Inert t.changes
  | .raising u, some t => O.Raises u t.changes rows
  | .swapped u, some t => O.Raises u t.changes rows ∧
      (O.Upheld rows → O.Dismisses raised u t.changes rows)
  | .closing, some t => ¬ O.Upheld (applyAll t.changes rows)
  | _, none => False

/-- Some hand-over has raised the user. -/
def Raised (stage : ι → HandOver υ) (u : υ) : Prop :=
  ∃ j, stage j = .raised u

variable [DecidableEq ι] [DecidableEq κ]

/-- Changes of one row exclude each other, and nobody holds the office by two rows. -/
structure Regular (locksOf : Change ρ → List (Lock κ)) (forbidden : ρ → ρ → Prop) : Prop where
  guarded : TxnDb.Guarded locksOf (fun _ => True) forbidden
  seat : ∀ r r' u, O.holder r = some u → O.holder r' = some u → r ≠ r' → forbidden r r'

/-- `single` says that there is to be one holder only. -/
structure Holds (locksOf : Change ρ → List (Lock κ)) (single : Prop) (db : TxnDb ι ρ κ)
    (stage : ι → HandOver υ) : Prop where
  sound : db.Sound locksOf
  at_ : ∀ j, O.At (Raised stage) db.rows (stage j) (db.txn j)
  found : ∀ j t, db.txn j = some t → ¬ O.Founds t.changes
  held : O.Upheld db.rows → O.Held db.rows
  sole : single → O.Upheld db.rows → (∀ u, ¬ Raised stage u) → O.Sole db.rows
  lone : O.Upheld db.rows → ∀ i j u v, stage i = .swapped u → stage j = .swapped v → i = j

end Definitions

section Rows

variable [DecidableEq ρ] {O : Office ρ υ} {rows : List ρ} {changes more : List (Change ρ)} {r : ρ}
  {u : υ}

theorem Upheld.before (upheld : O.Upheld (applyAll changes rows)) (founds : ¬ O.Founds changes) :
    O.Upheld rows := by
  obtain ⟨r, mem, upholds⟩ := upheld
  rcases mem_of_mem_applyAll mem with old | ⟨c, change, put⟩
  · exact ⟨r, old, upholds⟩
  · exact absurd ⟨c, change, r, put, upholds⟩ founds

theorem not_founds_append (founds : ¬ O.Founds changes) (founds' : ¬ O.Founds more) :
    ¬ O.Founds (changes ++ more) := by
  intro both
  obtain ⟨c, mem, new⟩ := both
  rcases List.mem_append.mp mem with mem | mem
  · exact founds ⟨c, mem, new⟩
  · exact founds' ⟨c, mem, new⟩

/-- Rows of holders stay as they are. -/
theorem Inert.mem_iff (inert : O.Inert changes) (holds : O.holder r = some u) :
    r ∈ applyAll changes rows ↔ r ∈ rows := by
  refine mem_applyAll_iff (P := (· = r)) (fun c mem touches => ?_) rfl
  obtain ⟨r', rfl, touched⟩ := touches
  cases (inert c mem r' touched).symm.trans holds

theorem Inert.append (inert : O.Inert changes) (inert' : O.Inert more) :
    O.Inert (changes ++ more) := by
  intro c mem
  rcases List.mem_append.mp mem with mem | mem
  · exact inert c mem
  · exact inert' c mem

theorem Inert.untouched (inert : O.Inert changes) (holds : O.holder r = some u) :
    ∀ c ∈ changes, ¬ c.Touches (· = r) := by
  intro c mem touches
  obtain ⟨r', rfl, touched⟩ := touches
  cases (inert c mem r' touched).symm.trans holds

theorem Inert.held (inert : O.Inert changes) (held : O.Held rows) :
    O.Held (applyAll changes rows) := by
  obtain ⟨r, mem, u, holds⟩ := held
  exact ⟨r, (inert.mem_iff holds).mpr mem, u, holds⟩

theorem Inert.sole (inert : O.Inert changes) (sole : O.Sole rows) :
    O.Sole (applyAll changes rows) := fun r mem r' mem' u u' holds holds' =>
  sole r ((inert.mem_iff holds).mp mem) r' ((inert.mem_iff holds').mp mem') u u' holds holds'

/-- One holder, whose row is unique. -/
theorem OnlyBy.sole {forbidden : ρ → ρ → Prop} (only : O.OnlyBy u rows)
    (unique : TxnDb.Clear forbidden rows)
    (seat : ∀ r r' v, O.holder r = some v → O.holder r' = some v → r ≠ r' → forbidden r r') :
    O.Sole rows := by
  intro r mem r' mem' v v' holds holds'
  by_contra ne
  cases only r mem v holds
  cases only r' mem' v' holds'
  exact unique r mem r' mem' (seat r r' _ holds holds' ne)

end Rows

section Steps

variable [DecidableEq ι] [DecidableEq ρ] [DecidableEq κ] {O : Office ρ υ}
  {locksOf : Change ρ → List (Lock κ)} {forbidden : ρ → ρ → Prop} {single : Prop}
  {db db' : TxnDb ι ρ κ} {stage : ι → HandOver υ} {i j : ι} {changes : List (Change ρ)}
  {t : Txn ρ κ} {s : HandOver υ} {r : ρ} {u : υ}

theorem Holds.idle (inv : O.Holds locksOf single db stage) (txn : db.txn i = none)
    (settled : (stage i).Settled) : stage i = .idle := by
  have at_ := inv.at_ i
  rw [txn] at at_
  cases eq : stage i <;> rw [eq] at at_
  case raised u => exact absurd eq (settled u)
  all_goals cases at_

theorem Holds.outside (inv : O.Holds locksOf single db stage) {s : HandOver υ} (at_ : stage i = s)
    (out : s = .idle ∨ s = .raised u) : db.txn i = none := by
  have before := inv.at_ i
  rw [at_] at before
  rcases out with rfl | rfl
  · exact before
  · exact before

/-- What a transaction touches, nobody else touches. -/
theorem not_touched (guarded : TxnDb.Guarded locksOf (fun _ => True) forbidden)
    (sound : db.Sound locksOf) (moves : TxnDb.Moves locksOf i changes db db') (ne : j ≠ i)
    (own : db.txn j = some t) {c : Change ρ} (mem : c ∈ t.changes) (touches : c.Touches (· = r)) :
    ∀ c' ∈ changes, ¬ c'.Touches (· = r) := by
  intro c' mem' touches'
  obtain ⟨r, rfl, touched⟩ := touches
  obtain ⟨r', rfl, touched'⟩ := touches'
  exact TxnDb.not_excludes_of_moves sound moves ne own mem' mem
    (guarded.row c' c r' trivial trivial touched' touched)

theorem mem_iff_of_touched (guarded : TxnDb.Guarded locksOf (fun _ => True) forbidden)
    (sound : db.Sound locksOf) (moves : TxnDb.Moves locksOf i changes db db') (ne : j ≠ i)
    (own : db.txn j = some t) {c : Change ρ} (mem : c ∈ t.changes) (touches : c.Touches (· = r)) :
    r ∈ db'.rows ↔ r ∈ db.rows := by
  rw [moves.rows]
  exact mem_applyAll_iff (not_touched guarded sound moves ne own mem touches) rfl

theorem Raises.of_moves (guarded : TxnDb.Guarded locksOf (fun _ => True) forbidden)
    (sound : db.Sound locksOf) (moves : TxnDb.Moves locksOf i changes db db') (ne : j ≠ i)
    (own : db.txn j = some t) (raises : O.Raises u t.changes db.rows) :
    O.Raises u t.changes db'.rows := by
  obtain ⟨r, mem, holds, c, change, put⟩ := raises
  have same : r ∈ db'.rows ↔ r ∈ db.rows :=
    mem_iff_of_touched guarded sound moves ne own change ⟨r, rfl, .inr put⟩
  exact ⟨r, (mem_applyAll_congr same).mpr mem, holds, c, change, put⟩

/-- A transaction that has dismissed the others, while another thread commits.  Of the holders
that thread puts in, it has raised the one; and if it dismisses the others itself, the row that
the transaction has locked is the one it keeps. -/
theorem Dismisses.of_moves (regular : O.Regular locksOf forbidden)
    (sound : db.Sound locksOf) (moves : TxnDb.Moves locksOf i changes db db') (ne : j ≠ i)
    (own : db.txn j = some t) (unique : TxnDb.Clear forbidden db'.rows)
    (fresh : ∀ r ∈ db'.rows, ∀ v, O.holder r = some v → r ∈ db.rows ∨ s = .raised v)
    (settles : ∀ v, stage i = .raised v → s ≠ .raised v → O.OnlyBy v db'.rows)
    (dismisses : O.Dismisses (Raised stage) u t.changes db.rows) :
    O.Dismisses (Raised (Function.update stage i s)) u t.changes db'.rows := by
  obtain ⟨kept, there, w, keeps, c, change, touches⟩ := dismisses.locked
  have there' : kept ∈ db'.rows :=
    (mem_iff_of_touched regular.guarded sound moves ne own change touches).mpr there
  refine ⟨⟨kept, there', w, keeps, c, change, touches⟩, fun r mem v holds => ?_⟩
  by_cases touched : ∃ c ∈ t.changes, c.Touches (· = r)
  · obtain ⟨c', change', touches'⟩ := touched
    have same := mem_iff_of_touched regular.guarded sound moves ne own change' touches'
    rcases dismisses.others r ((mem_applyAll_congr same).mp mem) v holds with eq | ⟨_, none_⟩
    · exact .inl eq
    · exact absurd touches' (none_ c' change')
  · have untouched : ∀ c ∈ t.changes, ¬ c.Touches (· = r) := fun c mem touches =>
      touched ⟨c, mem, touches⟩
    have now : r ∈ db'.rows := (mem_applyAll_iff untouched rfl).mp mem
    rcases fresh r now v holds with old | rfl
    · rcases dismisses.others r ((mem_applyAll_iff untouched rfl).mpr old) v holds with
        eq | ⟨⟨k, raised⟩, _⟩
      · exact .inl eq
      · by_cases still : k = i ∧ s ≠ .raised v
        · obtain ⟨rfl, ended⟩ := still
          have only := settles v raised ended
          cases only kept there' w keeps
          have eq : kept = r := by
            by_contra other
            exact unique kept there' r now (regular.seat kept r w keeps holds other)
          exact absurd (eq ▸ touches) (untouched c change)
        · refine .inr ⟨⟨k, ?_⟩, untouched⟩
          by_cases acts : k = i
          · subst acts
            rw [Function.update_self]
            exact not_not.mp fun ended => still ⟨rfl, ended⟩
          · rwa [Function.update_of_ne acts]
    · exact .inr ⟨⟨i, Function.update_self ..⟩, untouched⟩

theorem At.of_moves (regular : O.Regular locksOf forbidden)
    (inv : O.Holds locksOf single db stage) (moves : TxnDb.Moves locksOf i changes db db')
    (ne : j ≠ i) (founds : ¬ O.Founds changes) (unique : TxnDb.Clear forbidden db'.rows)
    (fresh : O.Upheld db'.rows → (∃ u, stage j = .swapped u) →
      ∀ r ∈ db'.rows, ∀ v, O.holder r = some v → r ∈ db.rows ∨ s = .raised v)
    (settles : ∀ v, stage i = .raised v → s ≠ .raised v → O.OnlyBy v db'.rows) :
    O.At (Raised (Function.update stage i s)) db'.rows (stage j) (db'.txn j) := by
  have before := inv.at_ j
  rw [moves.others j ne]
  have back : O.Upheld db'.rows → O.Upheld db.rows := fun upheld =>
    Upheld.before (moves.rows ▸ upheld) founds
  cases at_ : stage j <;> cases own : db.txn j <;>
    simp only [at_, own, At, reduceCtorEq] at before ⊢
  · exact before
  · exact Raises.of_moves regular.guarded inv.sound moves ne own before
  · refine ⟨Raises.of_moves regular.guarded inv.sound moves ne own before.1, fun upheld => ?_⟩
    exact Dismisses.of_moves regular inv.sound moves ne own unique
      (fresh upheld ⟨_, at_⟩) settles (before.2 (back upheld))
  · intro upheld
    obtain ⟨r, mem, upholds⟩ := upheld
    rcases mem_of_mem_applyAll mem with there | ⟨c, change, put⟩
    · rcases mem_of_mem_applyAll (moves.rows ▸ there) with old | ⟨c, change, put⟩
      · have same : r ∈ db'.rows ↔ r ∈ db.rows := ⟨fun _ => old, fun _ => there⟩
        exact before ⟨r, (mem_applyAll_congr same).mp mem, upholds⟩
      · exact founds ⟨c, change, r, put, upholds⟩
    · exact inv.found j _ own ⟨c, change, r, put, upholds⟩

/-- A step of thread `i` that keeps its own part in order. -/
theorem Holds.step (regular : O.Regular locksOf forbidden)
    (inv : O.Holds locksOf single db stage) (moves : TxnDb.Moves locksOf i changes db db')
    (sound : db'.Sound locksOf) (unique : TxnDb.Clear forbidden db'.rows)
    (founds : ¬ O.Founds changes)
    (own : O.At (Raised (Function.update stage i s)) db'.rows s (db'.txn i))
    (found : ∀ t, db'.txn i = some t → ¬ O.Founds t.changes)
    (held : O.Upheld db'.rows → O.Held db'.rows)
    (sole : single → O.Upheld db'.rows → (∀ u, ¬ Raised (Function.update stage i s) u) →
      O.Sole db'.rows)
    (lone : O.Upheld db'.rows → ∀ u, s = .swapped u → ∀ j ≠ i, ∀ v, stage j ≠ .swapped v)
    (fresh : O.Upheld db'.rows → ∀ j ≠ i, (∃ u, stage j = .swapped u) →
      ∀ r ∈ db'.rows, ∀ v, O.holder r = some v → r ∈ db.rows ∨ s = .raised v)
    (settles : ∀ v, stage i = .raised v → s ≠ .raised v → O.OnlyBy v db'.rows) :
    O.Holds locksOf single db' (Function.update stage i s) := by
  refine ⟨sound, fun j => ?_, fun j t txn => ?_, held, sole, fun upheld k l u v at_ at_' => ?_⟩
  · by_cases acts : j = i
    · subst acts
      rw [Function.update_self]
      exact own
    · rw [Function.update_of_ne acts]
      exact At.of_moves regular inv moves acts founds unique
        (fun upheld => fresh upheld j acts) settles
  · by_cases acts : j = i
    · subst acts
      exact found t txn
    · exact inv.found j t ((moves.others j acts).symm.trans txn)
  · have back : O.Upheld db.rows := Upheld.before (moves.rows ▸ upheld) founds
    by_cases acts : k = i
    · by_cases acts' : l = i
      · exact acts.trans acts'.symm
      · subst acts
        rw [Function.update_self] at at_
        rw [Function.update_of_ne acts'] at at_'
        exact absurd at_' (lone upheld u at_ l acts' v)
    · rw [Function.update_of_ne acts] at at_
      by_cases acts' : l = i
      · subst acts'
        rw [Function.update_self] at at_'
        exact absurd at_ (lone upheld v at_' k acts u)
      · rw [Function.update_of_ne acts'] at at_'
        exact inv.lone back k l u v at_ at_'

/-! ## Steps that commit nothing -/

/-- A step that commits nothing and leaves who is raised. -/
theorem Holds.still (regular : O.Regular locksOf forbidden)
    (inv : O.Holds locksOf single db stage) (moves : TxnDb.Moves locksOf i [] db db')
    (sound : db'.Sound locksOf) (unique : TxnDb.Clear forbidden db.rows)
    (own : O.At (Raised (Function.update stage i s)) db.rows s (db'.txn i))
    (found : ∀ t, db'.txn i = some t → ¬ O.Founds t.changes)
    (same : ∀ v, stage i = .raised v → s = .raised v)
    (lone : O.Upheld db.rows → ∀ u, s = .swapped u → ∀ j ≠ i, ∀ v, stage j ≠ .swapped v) :
    O.Holds locksOf single db' (Function.update stage i s) := by
  have rows : db'.rows = db.rows := moves.rows
  have raised : ∀ u, Raised stage u → Raised (Function.update stage i s) u := by
    intro u raises
    obtain ⟨k, at_⟩ := raises
    refine ⟨k, ?_⟩
    by_cases acts : k = i
    · subst acts
      rw [Function.update_self]
      exact same u at_
    · rwa [Function.update_of_ne acts]
  refine inv.step regular moves sound (rows ▸ unique) ?_ (rows ▸ own) found
    (rows ▸ inv.held) ?_ (rows ▸ lone) ?_ ?_
  · intro founds
    obtain ⟨c, mem, _⟩ := founds
    cases mem
  · intro one upheld none_
    rw [rows] at upheld ⊢
    exact inv.sole one upheld fun u raises => none_ u (raised u raises)
  · intro _ j _ _ r mem v _
    exact .inl (rows ▸ mem)
  · intro v at_ ended
    exact absurd (same v at_) ended

/-- The transaction ends without a commit. -/
theorem Holds.leave (regular : O.Regular locksOf forbidden)
    (inv : O.Holds locksOf single db stage) (unique : TxnDb.Clear forbidden db.rows)
    (calm : (stage i).Settled) :
    O.Holds locksOf single (db.abandon i) (Function.update stage i .idle) := by
  have ended : (db.abandon i).txn i = none := Function.update_self ..
  refine inv.still regular TxnDb.moves_abandon (inv.sound.abandon i) unique ended ?_
    (fun v at_ => absurd at_ (calm v)) ?_
  · intro t txn
    cases ended.symm.trans txn
  · intro _ u at_
    cases at_

theorem Holds.start (regular : O.Regular locksOf forbidden)
    (inv : O.Holds locksOf single db stage) (unique : TxnDb.Clear forbidden db.rows)
    (calm : (stage i).Settled) :
    O.Holds locksOf single (db.start i) (Function.update stage i .apart) := by
  have opened : (db.start i).txn i = some {} := Function.update_self ..
  refine inv.still regular TxnDb.moves_start (inv.sound.start i) unique ?_ ?_ ?_ ?_
  · rw [opened]
    intro c mem
    cases mem
  · intro t txn founds
    cases opened.symm.trans txn
    obtain ⟨c, mem, _⟩ := founds
    cases mem
  · intro v raised
    exact absurd raised (calm v)
  · intro _ u swapped
    cases swapped

theorem Holds.take (regular : O.Regular locksOf forbidden)
    (inv : O.Holds locksOf single db stage) (unique : TxnDb.Clear forbidden db.rows)
    {lock : Lock κ} (free : db.blocked i [lock] = false) :
    O.Holds locksOf single (db.take i lock) stage := by
  cases own : db.txn i with
  | none =>
      have same : db.take i lock = db := by
        unfold TxnDb.take
        rw [own]
      rw [same]
      exact inv
  | some t =>
      have txn : (db.take i lock).txn i = some { t with locks := t.locks ++ [lock] } := by
        simp only [TxnDb.take, own, Function.update_self]
      have kept := inv.still (s := stage i) regular TxnDb.moves_take
        (inv.sound.take free) unique ?_ ?_ (fun _ same => same) ?_
      · rwa [Function.update_eq_self] at kept
      · have before := inv.at_ i
        rw [Function.update_eq_self, txn]
        rw [own] at before
        cases at_ : stage i <;> rw [at_] at before
        all_goals first | exact before | cases before
      · intro t' txn'
        cases txn.symm.trans txn'
        exact inv.found i t own
      · intro upheld u at_ j ne v at_'
        exact ne (inv.lone upheld j i v u at_' at_)

/-- A step inside a transaction. -/
theorem Holds.buffer (regular : O.Regular locksOf forbidden)
    (inv : O.Holds locksOf single db stage) (moves : TxnDb.Moves locksOf i [] db db')
    (sound : db'.Sound locksOf) (unique : TxnDb.Clear forbidden db.rows)
    (txn : db.txn i = some t) {t' : Txn ρ κ} (txn' : db'.txn i = some t')
    (eq : t'.changes = t.changes ++ changes) (founds : ¬ O.Founds changes)
    (own : O.At (Raised (Function.update stage i s)) db.rows s (some t'))
    (lone : O.Upheld db.rows → ∀ u, s = .swapped u → ∀ j ≠ i, ∀ v, stage j ≠ .swapped v) :
    O.Holds locksOf single db' (Function.update stage i s) := by
  refine inv.still regular moves sound unique (txn' ▸ own) ?_ ?_ lone
  · intro t'' there
    cases txn'.symm.trans there
    rw [eq]
    exact not_founds_append (inv.found i t txn) founds
  · intro v raised
    have before := inv.at_ i
    rw [raised, txn] at before
    cases before

/-- Changes that leave the office alone. -/
theorem Holds.buffer_inert (regular : O.Regular locksOf forbidden)
    (inv : O.Holds locksOf single db stage) (moves : TxnDb.Moves locksOf i [] db db')
    (sound : db'.Sound locksOf) (unique : TxnDb.Clear forbidden db.rows)
    (txn : db.txn i = some t) {t' : Txn ρ κ} (txn' : db'.txn i = some t')
    (eq : t'.changes = t.changes ++ changes) (founds : ¬ O.Founds changes)
    (inert : O.Inert changes) : O.Holds locksOf single db' stage := by
  have raises : ∀ u, O.Raises u t.changes db.rows → O.Raises u t'.changes db.rows := by
    intro u before
    obtain ⟨r, mem, holds, c, change, put⟩ := before
    refine ⟨r, ?_, holds, c, ?_, put⟩
    · rw [eq, applyAll_append]
      exact (inert.mem_iff holds).mpr mem
    · rw [eq]
      exact List.mem_append_left changes change
  have own : O.At (Raised stage) db.rows (stage i) (some t') := by
    have before := inv.at_ i
    rw [txn] at before
    cases at_ : stage i <;> rw [at_] at before <;> simp only [At, reduceCtorEq] at before ⊢
    · rw [eq]
      exact before.append inert
    · exact raises _ before
    · refine ⟨raises _ before.1, fun upheld => ?_⟩
      have dismisses := before.2 upheld
      obtain ⟨r, there, v, holds, c, change, touches⟩ := dismisses.locked
      refine ⟨⟨r, there, v, holds, c, ?_, touches⟩, fun r mem v holds => ?_⟩
      · rw [eq]
        exact List.mem_append_left changes change
      · rw [eq, applyAll_append] at mem
        refine (dismisses.others r ((inert.mem_iff holds).mp mem) v holds).imp id fun raised => ?_
        refine ⟨raised.1, fun c mem' => ?_⟩
        rw [eq] at mem'
        rcases List.mem_append.mp mem' with earlier | now
        · exact raised.2 c earlier
        · exact inert.untouched holds c now
    · rw [eq, applyAll_append]
      exact fun upheld => before (Upheld.before upheld founds)
  have kept := inv.buffer (s := stage i) regular moves sound unique txn txn' eq founds
    (by rwa [Function.update_eq_self]) fun upheld u at_ j ne v at_' =>
      ne (inv.lone upheld j i v u at_' at_)
  rwa [Function.update_eq_self] at kept

/-- The next holder is put in. -/
theorem Holds.buffer_raise (regular : O.Regular locksOf forbidden)
    (inv : O.Holds locksOf single db stage) (moves : TxnDb.Moves locksOf i [] db db')
    (sound : db'.Sound locksOf) (unique : TxnDb.Clear forbidden db.rows)
    (txn : db.txn i = some t) {t' : Txn ρ κ} (txn' : db'.txn i = some t')
    (eq : t'.changes = t.changes ++ changes) (founds : ¬ O.Founds changes)
    (raises : O.Raises u changes (db.view i)) :
    O.Holds locksOf single db' (Function.update stage i (.raising u)) := by
  refine inv.buffer regular moves sound unique txn txn' eq founds ?_ ?_
  · obtain ⟨r, mem, holds, c, change, put⟩ := raises
    rw [TxnDb.view_of_some txn] at mem
    refine ⟨r, ?_, holds, c, ?_, put⟩
    · rw [eq, applyAll_append]
      exact mem
    · rw [eq]
      exact List.mem_append_right t.changes change
  · intro _ v swapped
    cases swapped

/-- The transaction has touched every row that a holder has. -/
theorem touched_of_dismissal (regular : O.Regular locksOf forbidden)
    (unique : TxnDb.Clear forbidden (applyAll t.changes db.rows))
    (raises : O.Raises u t.changes db.rows)
    (drops : ∀ r ∈ applyAll t.changes db.rows, ∀ v, O.holder r = some v → v ≠ u →
      ∃ c ∈ changes, c.old = some r) {v : υ} (there : r ∈ db.rows) (holds : O.holder r = some v) :
    ∃ c ∈ t.changes ++ changes, c.Touches (· = r) := by
  by_cases touched : ∃ c ∈ t.changes, c.Touches (· = r)
  · obtain ⟨c, change, touches⟩ := touched
    exact ⟨c, List.mem_append_left changes change, touches⟩
  · have seen : r ∈ applyAll t.changes db.rows :=
      (mem_applyAll_iff (fun c mem touches => touched ⟨c, mem, touches⟩) rfl).mpr there
    by_cases other : v = u
    · obtain ⟨m, mem, holds', c, change, put⟩ := raises
      have eq : r = m := by
        by_contra ne
        exact unique r seen m mem (regular.seat r m u (other ▸ holds) holds' ne)
      exact ⟨c, List.mem_append_left changes change, r, rfl, .inr (eq ▸ put)⟩
    · obtain ⟨c, change, old⟩ := drops r seen v holds other
      exact ⟨c, List.mem_append_right t.changes change, r, rfl, .inl old⟩

/-- Two transactions do not touch the same row. -/
theorem apart_of_touched (guarded : TxnDb.Guarded locksOf (fun _ => True) forbidden)
    (sound : db.Sound locksOf) (ne : i ≠ j) (own : db.txn i = some t) {t' : Txn ρ κ}
    (other : db.txn j = some t') {c c' : Change ρ} (mem : c ∈ t.changes) (mem' : c' ∈ t'.changes)
    (touches : c.Touches (· = r)) : ¬ c'.Touches (· = r) := by
  intro touches'
  obtain ⟨r, rfl, touched⟩ := touches
  obtain ⟨r', rfl, touched'⟩ := touches'
  obtain ⟨a, locked, b, locked', conflict⟩ := guarded.row c c' r' trivial trivial touched touched'
  cases (sound.apart i j t t' ne own other a (sound.covered i t own c mem a locked) b
    (sound.covered j t' other c' mem' b locked')).symm.trans conflict

/-- The others are dismissed. -/
theorem Holds.buffer_dismiss (regular : O.Regular locksOf forbidden)
    (inv : O.Holds locksOf single db stage) (moves : TxnDb.Moves locksOf i [] db db')
    (sound : db'.Sound locksOf) (unique : TxnDb.Clear forbidden db.rows)
    (views : TxnDb.Clear forbidden (db.view i))
    (txn : db.txn i = some t) {t' : Txn ρ κ} (txn' : db'.txn i = some t')
    (eq : t'.changes = t.changes ++ changes) (founds : ¬ O.Founds changes)
    (at_ : stage i = .raising u)
    (drops : ∀ r ∈ db.view i, ∀ v, O.holder r = some v → v ≠ u → ∃ c ∈ changes, c.old = some r)
    (keeps : ∀ r ∈ db.view i, O.holder r = some u → r ∈ applyAll changes (db.view i))
    (only : O.OnlyBy u (applyAll changes (db.view i))) :
    O.Holds locksOf single db' (Function.update stage i (.swapped u)) := by
  have raises : O.Raises u t.changes db.rows := by
    have before := inv.at_ i
    rw [at_, txn] at before
    exact before
  rw [TxnDb.view_of_some txn] at views drops keeps only
  have touched : ∀ r ∈ db.rows, ∀ v, O.holder r = some v →
      ∃ c ∈ t'.changes, c.Touches (· = r) := fun r there v holds =>
    eq ▸ touched_of_dismissal regular views raises drops there holds
  refine inv.buffer regular moves sound unique txn txn' eq founds ⟨?_, fun upheld => ⟨?_, ?_⟩⟩ ?_
  · obtain ⟨r, mem, holds, c, change, put⟩ := raises
    refine ⟨r, ?_, holds, c, ?_, put⟩
    · rw [eq, applyAll_append]
      exact keeps r mem holds
    · rw [eq]
      exact List.mem_append_left changes change
  · obtain ⟨r, there, v, holds⟩ := inv.held upheld
    exact ⟨r, there, v, holds, touched r there v holds⟩
  · intro r mem v holds
    rw [eq, applyAll_append] at mem
    exact .inl (only r mem v holds)
  -- another transaction that has dismissed the others has a holder's row locked
  · intro upheld _ _ j ne v at_'
    have other := inv.at_ j
    rw [at_'] at other
    cases own : db.txn j with
    | none =>
        rw [own] at other
        cases other
    | some w =>
        rw [own] at other
        obtain ⟨r, there, v, holds, c, change, touches⟩ := (other.2 upheld).locked
        obtain ⟨c', change', touches'⟩ := touched r there v holds
        exact apart_of_touched regular.guarded sound ne ((moves.others j ne).trans own) txn' change
          change' touches touches'

/-- The office ends, or the transaction that ends it goes on. -/
theorem Holds.buffer_close (regular : O.Regular locksOf forbidden)
    (inv : O.Holds locksOf single db stage) (moves : TxnDb.Moves locksOf i [] db db')
    (sound : db'.Sound locksOf) (unique : TxnDb.Clear forbidden db.rows)
    (txn : db.txn i = some t) {t' : Txn ρ κ} (txn' : db'.txn i = some t')
    (eq : t'.changes = t.changes ++ changes) (founds : ¬ O.Founds changes)
    (closes : ¬ O.Upheld (applyAll changes (db.view i))) :
    O.Holds locksOf single db' (Function.update stage i .closing) := by
  refine inv.buffer regular moves sound unique txn txn' eq founds ?_ ?_
  · rw [TxnDb.view_of_some txn, ← applyAll_append, ← eq] at closes
    exact closes
  · intro _ v swapped
    cases swapped

/-! ## Steps that commit -/

/-- A step outside a transaction. -/
theorem Holds.direct (regular : O.Regular locksOf forbidden)
    (inv : O.Holds locksOf single db stage) (moves : TxnDb.Moves locksOf i changes db db')
    (sound : db'.Sound locksOf) (unique : TxnDb.Clear forbidden db'.rows)
    (txn : db'.txn i = none) (founds : ¬ O.Founds changes)
    (out : s = .idle ∨ ∃ u, s = .raised u)
    (held : O.Upheld db'.rows → O.Held db'.rows)
    (sole : single → O.Upheld db'.rows → (∀ u, ¬ Raised (Function.update stage i s) u) →
      O.Sole db'.rows)
    (fresh : ∀ c ∈ changes, ∀ r, c.new = some r → ∀ v, O.holder r = some v → s = .raised v)
    (settles : ∀ v, stage i = .raised v → s ≠ .raised v → O.OnlyBy v db'.rows) :
    O.Holds locksOf single db' (Function.update stage i s) := by
  refine inv.step regular moves sound unique founds ?_ ?_ held sole ?_ ?_ settles
  · rcases out with rfl | ⟨u, rfl⟩
    · exact txn
    · exact txn
  · intro t there
    cases txn.symm.trans there
  · intro _ u swapped
    rcases out with rfl | ⟨v, rfl⟩
    · cases swapped
    · cases swapped
  · intro _ _ _ _ r mem v holds
    rcases mem_of_mem_applyAll (moves.rows ▸ mem) with old | ⟨c, change, put⟩
    · exact .inl old
    · exact .inr (fresh c change r put v holds)

/-- Holders are left alone or removed, but not all of them. -/
theorem Holds.direct_remove (regular : O.Regular locksOf forbidden)
    (inv : O.Holds locksOf single db stage) (moves : TxnDb.Moves locksOf i changes db db')
    (sound : db'.Sound locksOf) (unique : TxnDb.Clear forbidden db'.rows)
    (txn : db'.txn i = none) (founds : ¬ O.Founds changes) (at_ : stage i = .idle)
    (held : O.Held db.rows → O.Held db'.rows)
    (none_ : ∀ c ∈ changes, ∀ r, c.new = some r → O.holder r = none) :
    O.Holds locksOf single db' stage := by
  have back : O.Upheld db'.rows → O.Upheld db.rows := fun upheld =>
    Upheld.before (moves.rows ▸ upheld) founds
  have older : ∀ r ∈ db'.rows, ∀ u, O.holder r = some u → r ∈ db.rows := by
    intro r mem u holds
    rcases mem_of_mem_applyAll (moves.rows ▸ mem) with old | ⟨c, change, put⟩
    · exact old
    · cases (none_ c change r put).symm.trans holds
  have same : Function.update stage i .idle = stage := by
    rw [← at_, Function.update_eq_self]
  have kept := inv.direct (s := .idle) regular moves sound unique txn founds (.inl rfl)
    (fun upheld => held (inv.held (back upheld))) ?_ ?_ ?_
  · rwa [same] at kept
  · rw [same]
    intro one upheld calm r mem r' mem' u u' holds holds'
    exact inv.sole one (back upheld) calm r (older r mem u holds) r' (older r' mem' u' holds') u u'
      holds holds'
  · intro c change r put v holds
    cases (none_ c change r put).symm.trans holds
  · intro v raised
    cases at_.symm.trans raised

theorem Holds.direct_inert (regular : O.Regular locksOf forbidden)
    (inv : O.Holds locksOf single db stage) (moves : TxnDb.Moves locksOf i changes db db')
    (sound : db'.Sound locksOf) (unique : TxnDb.Clear forbidden db'.rows)
    (txn : db'.txn i = none) (founds : ¬ O.Founds changes) (at_ : stage i = .idle)
    (inert : O.Inert changes) : O.Holds locksOf single db' stage :=
  inv.direct_remove regular moves sound unique txn founds at_
    (fun held => moves.rows ▸ inert.held held) fun c change r put => inert c change r (.inr put)

/-- The next holder is put in. -/
theorem Holds.direct_raise (regular : O.Regular locksOf forbidden)
    (inv : O.Holds locksOf single db stage) (moves : TxnDb.Moves locksOf i changes db db')
    (sound : db'.Sound locksOf) (unique : TxnDb.Clear forbidden db'.rows)
    (txn : db'.txn i = none) (founds : ¬ O.Founds changes) (at_ : stage i = .idle)
    (raises : O.Raises u changes db.rows)
    (own : ∀ c ∈ changes, ∀ r, c.new = some r → ∀ v, O.holder r = some v → v = u) :
    O.Holds locksOf single db' (Function.update stage i (.raised u)) := by
  refine inv.direct regular moves sound unique txn founds (.inr ⟨u, rfl⟩) ?_ ?_ ?_ ?_
  · intro _
    obtain ⟨r, mem, holds, _⟩ := raises
    exact ⟨r, moves.rows ▸ mem, u, holds⟩
  · intro _ _ calm
    exact absurd ⟨i, Function.update_self ..⟩ (calm u)
  · intro c change r put v holds
    rw [own c change r put v holds]
  · intro v raised
    cases at_.symm.trans raised

/-- The others are dismissed. -/
theorem Holds.direct_dismiss (regular : O.Regular locksOf forbidden)
    (inv : O.Holds locksOf single db stage) (moves : TxnDb.Moves locksOf i changes db db')
    (sound : db'.Sound locksOf) (unique : TxnDb.Clear forbidden db'.rows)
    (txn : db'.txn i = none) (founds : ¬ O.Founds changes) (at_ : stage i = .raised u)
    (held : O.Held db'.rows) (only : O.OnlyBy u db'.rows)
    (none_ : ∀ c ∈ changes, ∀ r, c.new = some r → O.holder r = none) :
    O.Holds locksOf single db' (Function.update stage i .idle) := by
  refine inv.direct regular moves sound unique txn founds (.inl rfl) (fun _ => held) ?_ ?_ ?_
  · intro _ _ _
    exact only.sole unique regular.seat
  · intro c change r put v holds
    cases (none_ c change r put).symm.trans holds
  · intro v raised _
    cases at_.symm.trans raised
    exact only

/-- The others are not dismissed, since there are none. -/
theorem Holds.give_up (regular : O.Regular locksOf forbidden)
    (inv : O.Holds locksOf single db stage) (unique : TxnDb.Clear forbidden db.rows)
    (at_ : stage i = .raised u) (only : O.OnlyBy u db.rows) :
    O.Holds locksOf single db (Function.update stage i .idle) := by
  have txn : db.txn i = none := by
    have before := inv.at_ i
    rw [at_] at before
    exact before
  have moves : TxnDb.Moves locksOf i [] db db := TxnDb.moves_self
  refine inv.step regular moves inv.sound unique ?_ txn ?_ inv.held
    (fun _ _ _ => only.sole unique regular.seat) ?_ (fun _ _ _ _ _ mem _ _ => .inl mem) ?_
  · intro founds
    obtain ⟨c, mem, _⟩ := founds
    cases mem
  · intro t there
    cases txn.symm.trans there
  · intro _ v swapped
    cases swapped
  · intro v raised _
    cases at_.symm.trans raised
    exact only

/-- A transaction that has raised someone is not committed before the others are dismissed. -/
theorem Holds.commit (regular : O.Regular locksOf forbidden)
    (inv : O.Holds locksOf single db stage) (views : TxnDb.Clear forbidden (db.view i))
    (unique : TxnDb.Clear forbidden db.rows) (calm : (stage i).Settled)
    (whole : ∀ u, stage i ≠ .raising u) :
    O.Holds locksOf single (db.finish i) (Function.update stage i .idle) := by
  have ended : (db.finish i).txn i = none := Function.update_self ..
  cases own : db.txn i with
  | none =>
      have ends : db.finish i = db.abandon i := by
        unfold TxnDb.finish TxnDb.abandon
        rw [TxnDb.view_of_none own]
      rw [ends]
      exact inv.leave regular unique calm
  | some t =>
      have moves := TxnDb.moves_finish inv.sound own
      have before := inv.at_ i
      rw [own] at before
      have calm' : (∀ u, ¬ Raised (Function.update stage i .idle) u) → ∀ u, ¬ Raised stage u := by
        intro none_ u raised
        obtain ⟨k, at_⟩ := raised
        refine none_ u ⟨k, ?_⟩
        by_cases acts : k = i
        · subst acts
          exact absurd at_ (calm u)
        · rwa [Function.update_of_ne acts]
      have back : O.Upheld (db.finish i).rows → O.Upheld db.rows := fun upheld =>
        Upheld.before (moves.rows ▸ upheld) (inv.found i t own)
      refine inv.step (s := .idle) regular moves (inv.sound.finish i) views
        (inv.found i t own) ended ?_ ?_ ?_ ?_ ?_ (fun v raised => absurd raised (calm v))
      · intro t' there
        cases ended.symm.trans there
      · intro upheld
        rw [moves.rows] at upheld ⊢
        cases at_ : stage i <;> rw [at_] at before
        · cases before
        · exact before.held (inv.held (Upheld.before upheld (inv.found i t own)))
        · cases before
        · exact absurd at_ (whole _)
        · obtain ⟨r, mem, holds, _⟩ := before.1
          exact ⟨r, mem, _, holds⟩
        · exact absurd upheld before
      · intro one upheld none_
        have upheld' := back upheld
        rw [moves.rows] at upheld ⊢
        cases at_ : stage i <;> rw [at_] at before
        · cases before
        · exact Inert.sole before (inv.sole one upheld' (calm' none_))
        · cases before
        · exact absurd at_ (whole _)
        · rename_i u
          have only : O.OnlyBy u (applyAll t.changes db.rows) := by
            intro r mem v holds
            rcases (before.2 upheld').others r mem v holds with eq | ⟨raised, _⟩
            · exact eq
            · exact absurd raised (calm' none_ v)
          rw [TxnDb.view_of_some own] at views
          exact only.sole views regular.seat
        · exact absurd upheld before
      · intro _ u swapped
        cases swapped
      · intro upheld j ne swapped r mem v holds
        obtain ⟨w, at_'⟩ := swapped
        rw [moves.rows] at mem
        cases at_ : stage i <;> rw [at_] at before
        · cases before
        · exact .inl ((Inert.mem_iff before holds).mp mem)
        · cases before
        · exact absurd at_ (whole _)
        · exact absurd (inv.lone (back upheld) j i w _ at_' at_) ne
        · rw [moves.rows] at upheld
          exact absurd upheld before

end Steps

end Office

end Conc
