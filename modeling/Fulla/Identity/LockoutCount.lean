import Mathlib.Data.List.Dedup
import Fulla.Identity.FailedLogins

/-!
# No failed login is lost in turn

As long as every count finds the row it has read, the stored count is the initial
one plus the attempts that have counted, each of them once.  An attempt carries the
last time it has read from the clock, so that the lock it writes can be told from
the row it leaves.
-/

namespace Fulla.FailedLogins

open Conc

variable {ι : Type}

/-- Where an attempt stands. -/
inductive Stage where
  | fresh
  | clocked (t : Int)
  | counted (u : Int)

theorem Stage.fresh_ne_counted (u : Int) : Stage.fresh ≠ .counted u := by
  intro same
  cases same

theorem Stage.clocked_ne_counted (t u : Int) : Stage.clocked t ≠ .counted u := by
  intro same
  cases same

/-- The three columns of the lock. -/
def lockView (users : UserRows) (u : Int) : Option (Int × Int × Int) :=
  (users.find? u).map fun r => (r.failedLoginCount, r.lockedUntil, r.lastFailedLogin)

/-- The lock is the one that goes with the count, from a time that one of the attempts
that counted has read. -/
def Locked (log : List (UserEvent ι)) (u : Int) (lock : Int × Int × Int) : Prop :=
  lock.2.1 = lockedUntilAfter lock.1 lock.2.2 ∧
    ∃ e ∈ log, e.thread ∈ counters u log ∧ clockOf e = some lock.2.2

/-- The invariant of a run in turn that started in `s`. -/
structure Inv (s : UserRows) (w : UserWorld ι) (γ : ι → Stage) : Prop where
  clocked : ∀ i t, γ i = .clocked t → ∃ e ∈ w.log, e.thread = i ∧ clockOf e = some t
  counted : ∀ i u, i ∈ counters u w.log ↔ γ i = .counted u
  once : ∀ u, (counters u w.log).Nodup
  book : ∀ u lock, lockView s u = some lock → (∀ e ∈ w.log, resets u e = false) →
    ∃ lock', lockView w.db u = some lock' ∧ lock'.1 = lock.1 + (counters u w.log).length ∧
      (counters u w.log = [] ∨ Locked w.log u lock')

/-! ## Steps of the invariant -/

section Steps

variable {s : UserRows} {w w' : UserWorld ι} {γ : ι → Stage} {e : UserEvent ι}

/-- The log after one more step. -/
theorem counters_cons {u : Int} {log : List (UserEvent ι)} :
    counters u (e :: log) = (countsFor u e).toList ++ counters u log := by
  cases eq : countsFor u e <;> simp [counters, eq]

/-- A lock that was seen is in the log. -/
theorem Locked.mono {u : Int} {lock : Int × Int × Int} (locked : Locked w.log u lock)
    (log : w'.log = e :: w.log) : Locked w'.log u lock := by
  obtain ⟨until_, e', mem, thread, clock⟩ := locked
  refine ⟨until_, e', ?_, ?_, clock⟩
  · rw [log]
    exact List.mem_cons_of_mem _ mem
  · rw [log, counters_cons]
    exact List.mem_append_right _ thread

/-- A step that counts for nobody, and changes no lock but one it resets. -/
theorem Inv.frame (inv : Inv s w γ) (log : w'.log = e :: w.log)
    (silent : ∀ u, countsFor u e = none)
    (same : ∀ u, resets u e = false → lockView w'.db u = lockView w.db u) : Inv s w' γ := by
  have counters_eq (u : Int) : counters u w'.log = counters u w.log := by
    rw [log, counters_cons, silent u]
    rfl
  constructor
  case clocked =>
    intro i t stage
    obtain ⟨e', mem, rest⟩ := inv.clocked i t stage
    exact ⟨e', log ▸ List.mem_cons_of_mem _ mem, rest⟩
  case counted =>
    intro i u
    rw [counters_eq]
    exact inv.counted i u
  case once =>
    intro u
    rw [counters_eq]
    exact inv.once u
  case book =>
    intro u lock found unreset
    rw [log] at unreset
    obtain ⟨lock', found', count, locked⟩ := inv.book u lock found fun e' mem =>
      unreset e' (List.mem_cons_of_mem _ mem)
    refine ⟨lock', ?_, ?_, ?_⟩
    · rw [same u (unreset e List.mem_cons_self), found']
    · rw [counters_eq, count]
    · rw [counters_eq]
      exact locked.imp_right fun locked => locked.mono log

variable [DecidableEq ι] {i : ι}

/-- An attempt that has not counted may note what it has read from the clock. -/
theorem Inv.clock (inv : Inv s w γ) {t : Int} (fresh : ∀ u, γ i ≠ .counted u)
    (read : ∃ e ∈ w.log, e.thread = i ∧ clockOf e = some t) :
    Inv s w (Function.update γ i (.clocked t)) := by
  constructor
  case clocked =>
    intro j t' stage
    by_cases eq : j = i
    · rw [eq, Function.update_self] at stage
      cases stage
      rw [eq]
      exact read
    · rw [Function.update_of_ne eq] at stage
      exact inv.clocked j t' stage
  case counted =>
    intro j u
    rw [inv.counted j u]
    by_cases eq : j = i
    · subst eq
      rw [Function.update_self]
      exact iff_of_false (fresh u) (fun bad => nomatch bad)
    · rw [Function.update_of_ne eq]
  case once => exact inv.once
  case book => exact inv.book

/-- An attempt counts: one more than is there, with the lock of its clock. -/
theorem Inv.count (inv : Inv s w γ) {u t : Int} (log : w'.log = e :: w.log)
    (counts : countsFor u e = some i) (only : ∀ v ≠ u, countsFor v e = none)
    (clocked : γ i = .clocked t) {lock : Int × Int × Int} (before : lockView w.db u = some lock)
    (after : lockView w'.db u = some (lock.1 + 1, lockedUntilAfter (lock.1 + 1) t, t))
    (other : ∀ v ≠ u, lockView w'.db v = lockView w.db v) :
    Inv s w' (Function.update γ i (.counted u)) := by
  have counters_new : counters u w'.log = i :: counters u w.log := by
    rw [log, counters_cons, counts]
    rfl
  have counters_eq (v : Int) (ne : v ≠ u) : counters v w'.log = counters v w.log := by
    rw [log, counters_cons, only v ne]
    rfl
  have absent (v : Int) : i ∉ counters v w.log := by
    intro mem
    have counted := (inv.counted i v).mp mem
    rw [clocked] at counted
    cases counted
  constructor
  case clocked =>
    intro j t' stage
    by_cases eq : j = i
    · rw [eq, Function.update_self] at stage
      cases stage
    · rw [Function.update_of_ne eq] at stage
      obtain ⟨e', mem, rest⟩ := inv.clocked j t' stage
      exact ⟨e', log ▸ List.mem_cons_of_mem _ mem, rest⟩
  case counted =>
    intro j v
    by_cases eqv : v = u
    · subst eqv
      rw [counters_new, List.mem_cons]
      by_cases eq : j = i
      · simp [eq]
      · simp [eq, inv.counted j v]
    · rw [counters_eq v eqv]
      by_cases eq : j = i
      · subst eq
        rw [Function.update_self]
        exact iff_of_false (absent v) fun bad => eqv (Stage.counted.inj bad).symm
      · rw [Function.update_of_ne eq]
        exact inv.counted j v
  case once =>
    intro v
    by_cases eqv : v = u
    · subst eqv
      rw [counters_new]
      exact List.nodup_cons.mpr ⟨absent v, inv.once v⟩
    · rw [counters_eq v eqv]
      exact inv.once v
  case book =>
    intro v lock₀ found unreset
    obtain ⟨lock', found', count, locked⟩ := inv.book v lock₀ found fun e' mem =>
      unreset e' (log ▸ List.mem_cons_of_mem _ mem)
    by_cases eqv : v = u
    · subst eqv
      rw [before] at found'
      cases found'
      refine ⟨_, after, ?_, .inr ⟨rfl, ?_⟩⟩
      · rw [counters_new, List.length_cons]
        simp only
        omega
      · obtain ⟨e', mem, thread, read⟩ := inv.clocked i t clocked
        refine ⟨e', log ▸ List.mem_cons_of_mem _ mem, ?_, read⟩
        rw [counters_new, thread]
        exact List.mem_cons_self
    · rw [other v eqv, counters_eq v eqv]
      exact ⟨lock', found', count, locked.imp_right fun locked => locked.mono log⟩

end Steps

/-! ## Statements -/

section Statements

variable (m : UserMoment) (users : UserRows)

/-- The statement counts nothing. -/
def Plain : UserOp → Prop
  | .update _ (.lockout _ _ _) => False
  | _ => True

/-- A plain statement counts nothing. -/
theorem countsFor_of_plain {i : ι} {n : Nat} {o : UserOp} {r : o.Res} {pre : UserRows}
    (plain : Plain o) (u : Int) : countsFor u (⟨i, n, o, r, pre⟩ : UserEvent ι) = none := by
  cases o with
  | update id columns => cases columns <;> first | rfl | exact plain.elim
  | _ => rfl

/-- An update of other columns. -/
theorem lockView_update {id u : Int} {f : UserRow → UserRow} {same : ∀ r, (f r).id = r.id}
    (keeps : ∀ r, (f r).failedLoginCount = r.failedLoginCount ∧
      (f r).lockedUntil = r.lockedUntil ∧ (f r).lastFailedLogin = r.lastFailedLogin) :
    lockView (users.update id f same) u = lockView users u := by
  refine users.map_find?_update _ _ _ same _ fun r => ?_
  simp only [(keeps r).1, (keeps r).2.1, (keeps r).2.2]

/-- A plain statement leaves the lock as it is. -/
theorem lockView_of_plain {i : ι} {n : Nat} {o : UserOp} (plain : Plain o) (u : Int)
    (unreset : resets u (⟨i, n, o, (execUser m o users).1, users⟩ : UserEvent ι) = false) :
    lockView (execUser m o users).2 u = lockView users u := by
  cases o with
  | update id columns =>
      cases fault : m.fault with
      | true => simp [execUser, fault]
      | false =>
          simp only [execUser, fault, Bool.false_eq_true, if_false]
          cases columns with
          | lockout a b c => exact plain.elim
          | resetLockout =>
              have ne : u ≠ id := by
                intro eq
                simp [resets, execUser, fault, eq] at unreset
              unfold lockView
              rw [UserRows.find?_update, if_neg ne]
          | passwordHash h => exact lockView_update users fun _ => ⟨rfl, rfl, rfl⟩
          | newPassword h => exact lockView_update users fun _ => ⟨rfl, rfl, rfl⟩
          | pendingBinding c r => exact lockView_update users fun _ => ⟨rfl, rfl, rfl⟩
  | casBackupCodes id updated stored =>
      simp only [execUser]
      split
      · rfl
      · split
        · rfl
        · split
          · apply lockView_update
            · exact fun _ => rfl
            · exact fun _ => ⟨rfl, rfl, rfl⟩
          · rfl
  | _ => rfl

end Statements

/-! ## Attempts under the invariant -/

section Attempts

variable [DecidableEq ι] {α : Type} {env : Nat → UserMoment} {s : UserRows} {i : ι}

abbrev userHandler (env : Nat → UserMoment) : ι → Handler UserSig (UserWorld ι) :=
  World.handler fun n => execUser (env n)

/-- The rows are those of the start; the invariant holds as long as the run is in turn. -/
structure Shared (s : UserRows) (w : UserWorld ι) (γ : ι → Stage) : Prop where
  rows : ∀ id, (w.db.find? id).isSome = (s.find? id).isSome
  inv : (∀ e ∈ w.log, inTurn e = true) → Inv s w γ

omit [DecidableEq ι] in
/-- No row comes or goes. -/
theorem Shared.rows_next {w : UserWorld ι} {γ : ι → Stage} (shared : Shared s w γ) (o : UserOp)
    (id : Int) : ((userHandler env i o w).2.db.find? id).isSome = (s.find? id).isSome :=
  (execUser_rows (env w.tick) w.db o id).trans (shared.rows id)

omit [DecidableEq ι] in
/-- A plain statement keeps what is shared. -/
theorem Shared.plain {w : UserWorld ι} {γ : ι → Stage} {o : UserOp} (shared : Shared s w γ)
    (plain : Plain o) : Shared s (userHandler env i o w).2 γ := by
  refine ⟨shared.rows_next o, fun turn => ?_⟩
  have inv := shared.inv fun e mem => turn e (List.mem_cons_of_mem _ mem)
  exact inv.frame rfl (countsFor_of_plain plain) fun u => lockView_of_plain _ w.db plain u

/-- So does a program of them. -/
theorem keeps_plain {p : UserProg α} {g : Stage} (only : p.Only Plain) :
    Keeps (userHandler env) (Shared s) i (fun _ g' => g' = g) p g :=
  Keeps.of_only only (fun _ _ _ plain shared => shared.plain plain) fun _ => rfl

/-- The clock is read and noted. -/
theorem keeps_now {k : Int → UserProg α} {Q : α → Stage → Prop} {g : Stage}
    (fresh : ∀ u, g ≠ .counted u)
    (rest : ∀ t, Keeps (userHandler env) (Shared s) i Q (k t) (.clocked t)) :
    Keeps (userHandler env) (Shared s) i Q (statement .now >>= k) g := by
  intro w γ shared own
  refine ⟨.clocked (env w.tick).now, ?_, rest _⟩
  have kept : Shared s (userHandler env i .now w).2 γ := shared.plain trivial
  refine ⟨kept.rows, fun turn => (kept.inv turn).clock (own ▸ fresh) ?_⟩
  exact ⟨_, List.mem_cons_self, rfl, rfl⟩

/-- A count is written, or the run is no longer in turn. -/
theorem keeps_count {k : Bool → UserProg α} {Q : α → Stage → Prop} {u n t : Int}
    (present : (s.find? u).isSome = true)
    (rest : ∀ ok, Keeps (userHandler env) (Shared s) i Q (k ok) (.counted u)) :
    Keeps (userHandler env) (Shared s) i Q (statement (.update u (lockoutColumns n t)) >>= k)
      (.clocked t) := by
  intro w γ shared own
  refine ⟨.counted u, ⟨shared.rows_next _, fun turn => ?_⟩, rest _⟩
  have inv := shared.inv fun e mem => turn e (List.mem_cons_of_mem _ mem)
  have mine := turn _ List.mem_cons_self
  obtain ⟨row, found⟩ := Option.isSome_iff_exists.mp ((shared.rows u).trans present)
  cases fault : (env w.tick).fault with
  | true => simp [inTurn, lockoutColumns, execUser, fault] at mine
  | false =>
      have raised : nextFailedCount n = row.failedLoginCount + 1 := by
        simpa [inTurn, lockoutColumns, execUser, fault, found] using mine
      have stepped : execUser (env w.tick) (.update u (lockoutColumns n t)) w.db =
          (true, w.db.update u (lockoutColumns n t).apply
            fun r => (lockoutColumns n t).apply_id r) := by
        simp [execUser, fault]
      let e : UserEvent ι := ⟨i, w.tick, .update u (lockoutColumns n t),
        (execUser (env w.tick) (.update u (lockoutColumns n t)) w.db).1, w.db⟩
      have counts : countsFor u e = some i := if_pos ⟨congrArg Prod.fst stepped, rfl⟩
      have only : ∀ v ≠ u, countsFor v e = none := fun v ne => if_neg fun told => ne told.2.symm
      have before : lockView w.db u =
          some (row.failedLoginCount, row.lockedUntil, row.lastFailedLogin) := by
        simp [lockView, found]
      refine inv.count rfl counts only own before ?_ ?_
      · rw [World.handler_db, stepped]
        unfold lockView
        rw [UserRows.find?_update, if_pos rfl, found]
        simp [lockoutColumns, UserColumns.apply, raised]
      · intro v ne
        rw [World.handler_db, stepped]
        unfold lockView
        rw [UserRows.find?_update, if_neg ne]

omit [DecidableEq ι] in
theorem afterMatch_plain (user : UserRow) (password : String) :
    (AuthService.afterMatch user password).Only Plain :=
  AuthService.afterMatch_only (fun _ => trivial) (fun _ => trivial) (fun _ => trivial)
    (fun _ _ => trivial) user password

/-- The count of user `u`, whose row was there from the start. -/
theorem incrementFailedLogins_keeps {u t : Int} (present : (s.find? u).isSome = true) :
    Keeps (userHandler env) (Shared s) i (fun _ g => g = .counted u)
      (PostgresIdentityRepository.incrementFailedLogins u) (.clocked t) := by
  intro w γ shared own
  obtain ⟨row, found⟩ := Option.isSome_iff_exists.mp ((shared.rows u).trans present)
  cases fault : (env w.tick).fault with
  | true =>
      -- a refused look-up: the run is no longer in turn
      refine ⟨.counted u, ⟨shared.rows_next _, fun turn => ?_⟩, ?_⟩
      · have mine := turn _ List.mem_cons_self
        simp [inTurn, execUser, fault] at mine
      · simp only [World.handler_fst, execUser, fault, if_true]
        rfl
  | false =>
      refine ⟨γ i, ?_, ?_⟩
      · rw [Function.update_eq_self]
        exact shared.plain trivial
      · simp only [World.handler_fst, execUser, fault, Bool.false_eq_true, if_false, found]
        have key : row.id = u := Table.find?_key found
        rw [own, ← key]
        refine keeps_now (Stage.clocked_ne_counted t) fun t' => ?_
        exact keeps_count (k := .ret) (key ▸ present) fun _ => rfl

/-- **A password check counts one failure, or none**. -/
theorem checkFound_keeps (site : LoginSite) {user : UserRow} (password : String)
    (present : (s.find? user.id).isSome = true) :
    Keeps (userHandler env) (Shared s) i (fun r g => ∀ u, r = .wrongPassword u ↔ g = .counted u)
      (AuthService.checkFound site user password) .fresh := by
  refine keeps_now Stage.fresh_ne_counted fun now => ?_
  split
  · exact fun u => iff_of_false (by simp) (Stage.clocked_ne_counted now u)
  · split
    · exact fun u => iff_of_false (by simp) (Stage.clocked_ne_counted now u)
    · split
      · refine (incrementFailedLogins_keeps present).bind fun _ g counted => ?_
        subst counted
        intro u
        simp
      · refine (keeps_plain (afterMatch_plain user password)).bind fun _ g same => ?_
        subst same
        exact fun u => iff_of_false (by simp) (Stage.clocked_ne_counted now u)

/-- Whoever is found by name has a row from the start. -/
theorem findUser_keeps (identifier : String) :
    Keeps (userHandler env) (Shared s) i
      (fun r g => g = .fresh ∧ ∀ user, r = some user → (s.find? user.id).isSome = true)
      (AuthService.findUser identifier) .fresh := by
  have here {w : UserWorld ι} {γ : ι → Stage} (shared : Shared s w γ) (p : UserRow → Bool)
      (user : UserRow)
      (found : (if (env w.tick).fault then none else w.db.findOne p) = some user) :
      (s.find? user.id).isSome = true := by
    split at found
    · cases found
    · rw [← shared.rows, UserRows.find?_of_findOne found]
      rfl
  unfold AuthService.findUser
  split
  · intro w γ shared own
    refine ⟨.fresh, ?_, rfl, here shared _⟩
    rw [← own, Function.update_eq_self]
    exact shared.plain trivial
  · intro w γ shared own
    refine ⟨.fresh, ?_, rfl, here shared _⟩
    rw [← own, Function.update_eq_self]
    exact shared.plain trivial

/-- A login tells of the failure it has counted. -/
theorem validateUser_keeps (site : LoginSite) (identifier password : String) :
    Keeps (userHandler env) (Shared s) i (fun r g => ∀ u, r = .wrongPassword u ↔ g = .counted u)
      (AuthService.validateUser site identifier password) .fresh := by
  refine (findUser_keeps identifier).bind fun found g post => ?_
  obtain ⟨rfl, present⟩ := post
  cases found with
  | none => exact fun u => iff_of_false (by simp) (Stage.fresh_ne_counted u)
  | some user => exact checkFound_keeps site password (present user rfl)

/-- No other answer is the one to a wrong password. -/
theorem error_ne_wrongPassword {code detail : String} (ne : code ≠ "AUTH_INVALID_CREDENTIALS") :
    ForcedChangeReply.error code detail ≠ .wrongPassword := by
  intro eq
  exact ne (ForcedChangeReply.error.inj eq).1

/-- An attempt that is not answered as a wrong password has not counted. -/
theorem not_counted {reply : ForcedChangeReply} {g : Stage} {id : Int}
    (other : reply ≠ .wrongPassword) (fresh : ∀ u, g ≠ .counted u) (u : Int) :
    (reply = .wrongPassword ∧ u = id) ↔ g = .counted u :=
  iff_of_false (fun told => other told.1) (fresh u)

/-- So does the change of a password. -/
theorem changePassword_keeps (user : UserRow) (sessSub newPassword : String) {t : Int} :
    Keeps (userHandler env) (Shared s) i
      (fun r g => ∀ u, (r = .wrongPassword ∧ u = user.id) ↔ g = .counted u)
      (SessionController.changePassword user sessSub newPassword) (.clocked t) := by
  have step {o : UserOp} {α : Type} {k : o.Res → UserProg α} {Q : α → Stage → Prop}
      (plain : Plain o)
      (rest : ∀ r, Keeps (userHandler env) (Shared s) i Q (k r) (.clocked t)) :
      Keeps (userHandler env) (Shared s) i Q (statement o >>= k) (.clocked t) :=
    (keeps_plain (statement_only plain)).bind fun r g same => same ▸ rest r
  refine step (o := .hashPassword _) trivial fun newHash => ?_
  cases newHash with
  | none => exact not_counted (error_ne_wrongPassword (by decide)) (Stage.clocked_ne_counted t)
  | some newHash =>
      refine step (o := .update _ (.newPassword _)) trivial fun updated => ?_
      split
      · exact not_counted (error_ne_wrongPassword (by decide)) (Stage.clocked_ne_counted t)
      · refine step (o := .revokeAccessTokens _ _) trivial fun access => ?_
        split
        · exact not_counted (error_ne_wrongPassword (by decide)) (Stage.clocked_ne_counted t)
        · refine step (o := .revokeRefreshTokens _ _) trivial fun refresh => ?_
          split
          · exact not_counted (error_ne_wrongPassword (by decide)) (Stage.clocked_ne_counted t)
          · split
            · exact not_counted (by simp [ForcedChangeReply.wrongPassword])
                (Stage.clocked_ne_counted t)
            · exact not_counted (by simp [ForcedChangeReply.wrongPassword])
                (Stage.clocked_ne_counted t)

/-- So does a forced change on its user. -/
theorem changeFound_keeps (site : LoginSite) {user : UserRow}
    (sessSub oldPassword newPassword : String) (present : (s.find? user.id).isSome = true) :
    Keeps (userHandler env) (Shared s) i
      (fun r g => ∀ u, (r = .wrongPassword ∧ u = user.id) ↔ g = .counted u)
      (SessionController.changeFound site user sessSub oldPassword newPassword) .fresh := by
  refine keeps_now Stage.fresh_ne_counted fun now => ?_
  split
  · refine not_counted (fun eq => ?_) (Stage.clocked_ne_counted now)
    exact absurd (ForcedChangeReply.error.inj eq).2 (by decide)
  · split
    · refine keeps_now (Stage.clocked_ne_counted now) fun now' => ?_
      refine keeps_count present fun _ => ?_
      intro u
      constructor
      · intro told
        rw [told.2]
      · intro counted
        exact ⟨rfl, (Stage.counted.inj counted).symm⟩
    · exact changePassword_keeps user sessSub newPassword

theorem forcedChangeInput_refusal {site : LoginSite} {req : ForcedChangeRequest}
    {reply : ForcedChangeReply}
    (input : SessionController.forcedChangeInput site req = .error reply) :
    reply ≠ .wrongPassword := by
  unfold SessionController.forcedChangeInput at input
  split at input
  · cases input
    exact error_ne_wrongPassword (by decide)
  · split at input
    · cases input
      exact error_ne_wrongPassword (by decide)
    · split_ifs at input <;> cases input <;> exact error_ne_wrongPassword (by decide)

/-- So does a forced change as a whole. -/
theorem changePasswordForced_keeps (site : LoginSite) (req : ForcedChangeRequest) :
    Keeps (userHandler env) (Shared s) i
      (fun r g => ∀ u, (r = .wrongPassword ∧ stoInt (2 ^ 31) req.sessUserId = some u) ↔
        g = .counted u)
      (SessionController.changePasswordForced site req) .fresh := by
  have refused {reply : ForcedChangeReply} (other : reply ≠ .wrongPassword) (u : Int) :
      (reply = .wrongPassword ∧ stoInt (2 ^ 31) req.sessUserId = some u) ↔
        Stage.fresh = .counted u :=
    iff_of_false (fun told => other told.1) (Stage.fresh_ne_counted u)
  unfold SessionController.changePasswordForced
  split
  · next reply input => exact refused (forcedChangeInput_refusal input)
  · split
    · exact refused (error_ne_wrongPassword (by decide))
    · next internalId parsed =>
        intro w γ shared own
        refine ⟨.fresh, ?_, ?_⟩
        · rw [← own, Function.update_eq_self]
          exact shared.plain trivial
        · cases fault : (env w.tick).fault with
          | true =>
              simp only [World.handler_fst, execUser, fault, if_true]
              exact refused (error_ne_wrongPassword (by decide))
          | false =>
              simp only [World.handler_fst, execUser, fault, Bool.false_eq_true, if_false]
              cases live : (w.db.find? internalId).filter fun u => !u.deleted with
              | none => exact refused (error_ne_wrongPassword (by decide))
              | some user =>
                  have found : w.db.find? internalId = some user :=
                    (Option.filter_eq_some_iff.mp live).1
                  have key : user.id = internalId := Table.find?_key found
                  have present : (s.find? user.id).isSome = true := by
                    rw [← shared.rows, key, found]
                    rfl
                  refine (changeFound_keeps site _ _ _ present).mono fun r g told u => ?_
                  rw [← told u, parsed, key]
                  simp [eq_comm]

/-- An attempt has counted exactly if it is answered as a failure. -/
theorem prog_keeps (site : LoginSite) (attempt : Attempt) :
    Keeps (userHandler env) (Shared s) i (fun a g => ∀ u, fails u attempt a = true ↔ g = .counted u)
      (attempt.prog site) .fresh := by
  cases attempt with
  | login identifier password =>
      refine (validateUser_keeps site identifier password).bind fun r g told => ?_
      intro u
      rw [← told u]
      cases r <;> simp [fails]
  | changePasswordForced req =>
      refine (changePasswordForced_keeps site req).bind fun r g told => ?_
      intro u
      rw [← told u]
      simp [fails]

end Attempts

/-! ## Runs -/

section Runs

variable [DecidableEq ι] (site : LoginSite) (env : Nat → UserMoment) (attempts : ι → Attempt)
  (s : UserRows)

omit [DecidableEq ι] in
/-- The invariant holds at the start. -/
theorem Inv.start : Inv s (World.start s : UserWorld ι) fun _ => .fresh := by
  constructor
  case clocked => exact fun _ _ stage => nomatch stage
  case counted => exact fun _ u => iff_of_false List.not_mem_nil (Stage.fresh_ne_counted u)
  case once => exact fun _ => List.nodup_nil
  case book =>
    intro u lock found _
    exact ⟨lock, found, by simp [World.start, counters], .inl rfl⟩

omit [DecidableEq ι] in
/-- A failure is counted by the call of the step. -/
theorem thread_of_counts {u : Int} {e : UserEvent ι} {i : ι} (counts : countsFor u e = some i) :
    e.thread = i := by
  unfold countsFor at counts
  split at counts
  · split at counts
    · exact Option.some.inj counts
    · cases counts
  · cases counts

/-- Once all attempts of a run in turn have completed, those that failed on `u` are those
that have counted for it. -/
theorem failedAttempts_perm {c : Pool UserSig ι AttemptAnswer (UserWorld ι)} {γ : ι → Stage}
    {u : Int} (inv : Inv s c.store γ)
    (threads : ∀ i, Keeps (userHandler env) (Shared s) i
      (fun a g => ∀ u, fails u (attempts i) a = true ↔ g = .counted u) (c.prog i) (γ i))
    (completed : ∀ e ∈ c.store.log, (c.answer? e.thread).isSome = true) :
    (failedAttempts attempts u c).Perm (counters u c.store.log) := by
  have told {i : ι} {a : AttemptAnswer} (answered : c.answer? i = some a) :
      fails u (attempts i) a = true ↔ i ∈ counters u c.store.log := by
    rw [inv.counted]
    exact Pool.post_of_answer? (threads i) answered u
  refine (List.perm_ext_iff_of_nodup ((List.nodup_dedup _).filter _) (inv.once u)).mpr fun i => ?_
  constructor
  · intro failed
    obtain ⟨-, fails_⟩ := List.mem_filter.mp failed
    obtain ⟨a, answered, sat⟩ := (Option.any_eq_true _ _).mp fails_
    exact (told answered).mp sat
  · intro counted
    obtain ⟨e, mem, counts⟩ := List.mem_filterMap.mp counted
    have thread : e.thread = i := thread_of_counts counts
    obtain ⟨a, answered⟩ := Option.isSome_iff_exists.mp (completed e mem)
    rw [thread] at answered
    refine List.mem_filter.mpr ⟨List.mem_dedup.mpr (List.mem_map.mpr ⟨e, mem, thread⟩), ?_⟩
    rw [answered]
    exact (told answered).mpr counted

/-- In a run in turn, without a reset of user `u`, every failed attempt on `u` is counted
once, and with the fifth failure the account is locked from the time of a failure. -/
theorem failed_logins_counted (sched : List ι) (u : Int) (row₀ : UserRow)
    (found : s.find? u = some row₀)
    (completed : ∀ e ∈ (runAttempts site env attempts s sched).store.log,
      ((runAttempts site env attempts s sched).answer? e.thread).isSome = true)
    (unreset : ∀ e ∈ (runAttempts site env attempts s sched).store.log, resets u e = false)
    (turn : ∀ e ∈ (runAttempts site env attempts s sched).store.log, inTurn e = true) :
    let c := runAttempts site env attempts s sched
    let failed := failedAttempts attempts u c
    ∃ row, c.store.db.find? u = some row ∧
      row.failedLoginCount = row₀.failedLoginCount + failed.length ∧
      (failed ≠ [] →
        row.lockedUntil = lockedUntilAfter row.failedLoginCount row.lastFailedLogin ∧
          (5 ≤ row.failedLoginCount → row.lastFailedLogin + 60 ≤ row.lockedUntil) ∧
          ∃ e ∈ c.store.log, e.thread ∈ failed ∧ clockOf e = some row.lastFailedLogin) := by
  intro c failed
  let start : Pool UserSig ι AttemptAnswer (UserWorld ι) :=
    { store := World.start s, prog := fun i => (attempts i).prog site }
  have good : start.Good (userHandler env) (Shared s)
      (fun i a g => ∀ u, fails u (attempts i) a = true ↔ g = .counted u) :=
    ⟨fun _ => .fresh, ⟨fun _ => rfl, fun _ => Inv.start s⟩, fun i => prog_keeps site (attempts i)⟩
  obtain ⟨γ, shared, threads⟩ := Pool.run_keeps good sched
  have inv : Inv s c.store γ := shared.inv turn
  have perm : failed.Perm (counters u c.store.log) :=
    failedAttempts_perm env attempts s inv threads completed
  have initial : lockView s u =
      some (row₀.failedLoginCount, row₀.lockedUntil, row₀.lastFailedLogin) := by
    simp [lockView, found]
  obtain ⟨lock, view, count, locked⟩ := inv.book u _ initial unreset
  obtain ⟨row, stored, rfl⟩ := Option.map_eq_some_iff.mp view
  refine ⟨row, stored, ?_, fun some_ => ?_⟩
  · rw [perm.length_eq]
    exact count
  · obtain none_ | ⟨until_, e, mem, thread, clock⟩ := locked
    · exact absurd (perm.trans (none_ ▸ .refl _)).eq_nil some_
    · refine ⟨until_, fun reached => ?_, e, mem, perm.mem_iff.mpr thread, clock⟩
      rw [show row.lockedUntil = _ from until_]
      exact lockedUntilAfter_ge _ reached

end Runs

/-! ### Guesses side by side -/

/-- A hash matches only itself. -/
def sampleSite : LoginSite where
  allowLegacyHash := true
  verifyPassword password hash _ := password = hash
  hasherVerify password hash _ := password = hash

def sampleUsers : UserRows :=
  Table.empty.assign
    { id := 7, publicSub := "sub-7", username := "alice", passwordHash := "secret" }

/-- Four guesses at the login and one at the forced change. -/
def sampleAttempts : Fin 5 → Attempt
  | 4 => .changePasswordForced { sessUserId := "7", body := some ("guess", "new password") }
  | _ => .login "alice" "guess"

/-- A clock that goes on with every step. -/
def sampleEnv : Nat → UserMoment := fun n =>
  { now := 1000 + n }

/-- All five have read the row before the first of them writes it. -/
def sideBySide : List (Fin 5) :=
  [0, 1, 2, 3, 4, 0, 1, 2, 3, 4, 0, 1, 2, 3, 4, 0, 1, 2, 3, 4, 0, 1, 2, 3]

/-- Five wrong passwords leave a count of one and no lock. -/
theorem parallel_guesses_lost :
    ((runAttempts sampleSite sampleEnv sampleAttempts sampleUsers sideBySide).store.log.all fun e =>
        ((runAttempts sampleSite sampleEnv sampleAttempts sampleUsers sideBySide).answer?
          e.thread).isSome && !resets 7 e) = true ∧
      (failedAttempts sampleAttempts 7
        (runAttempts sampleSite sampleEnv sampleAttempts sampleUsers sideBySide)).length = 5 ∧
      ((runAttempts sampleSite sampleEnv sampleAttempts sampleUsers
        sideBySide).store.db.find? 7).map
        (fun u => (u.failedLoginCount, u.lockedUntil)) = some (1, 0) := by
  decide

/-- One after the other. -/
def oneByOne : List (Fin 5) :=
  [0, 0, 0, 0, 0, 1, 1, 1, 1, 1, 2, 2, 2, 2, 2, 3, 3, 3, 3, 3, 4, 4, 4, 4]

theorem failed_logins_counted_one_by_one :
    ∃ row, (runAttempts sampleSite sampleEnv sampleAttempts sampleUsers
        oneByOne).store.db.find? 7 = some row ∧
      row.failedLoginCount = 0 + (failedAttempts sampleAttempts 7
        (runAttempts sampleSite sampleEnv sampleAttempts sampleUsers oneByOne)).length := by
  obtain ⟨row, stored, count, -⟩ := failed_logins_counted sampleSite sampleEnv sampleAttempts
    sampleUsers oneByOne 7 _ rfl (by decide) (by decide) (by decide)
  exact ⟨row, stored, count⟩

end Fulla.FailedLogins
