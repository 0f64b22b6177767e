import Mathlib.Data.List.Dedup
import Fulla.Account.Services
import Fulla.Conc.Track

/-!
# The last administrator

The services that take an administrator away, their steps interleaved.  Each asks first whether
its target is the last active administrator (`isLastActiveAdmin`: three queries) and writes
later, so two calls can each count the target of the other.

A user stands who is active and has the role, or is about to be given it back by an assignment
that has cleared it.  `active_admin_remains`: as long as no write takes away the last user who
stands, there is an active administrator whenever no call is in progress.  A write that nothing has
come between since its guard passed takes none away (`sparesLast_of_passed`).
-/

namespace Fulla

open Conc

/-- A lock runs out; it does not come back by itself. -/
theorem AccountRow.activeAt_mono {u : AccountRow} {now later : Int} (active : u.activeAt now = true)
    (le : now ≤ later) : u.activeAt later = true := by
  simp only [AccountRow.activeAt, Bool.and_eq_true] at active ⊢
  refine ⟨active.1, ?_⟩
  cases eq : u.lockedUntil with
  | none => rfl
  | some lockedUntil =>
      have before := active.2
      rw [eq, Option.all_some, decide_eq_true_eq] at before
      rw [Option.all_some, decide_eq_true_eq]
      exact Int.le_trans before le

/-- The operation writes users or their roles. -/
def AccountOp.writesAccounts : AccountOp → Bool
  | .sql (.updateUser _ _) | .sql (.clearRoles _) | .insertNext _ _ _ => true
  | _ => false

/-- Any other operation leaves them, and time passes. -/
theorem execAccount_others {o : AccountOp} (others : o.writesAccounts = false) (m : AccountMoment)
    (db : AccountDb) :
    (execAccount m o db).2.users = db.users ∧ (execAccount m o db).2.roles = db.roles ∧
      (execAccount m o db).2.userRoles = db.userRoles ∧
        (execAccount m o db).2.clock = db.clock + m.elapsed := by
  cases o with
  | sql s =>
      simp only [execAccount, runStatement]
      split
      · exact ⟨rfl, rfl, rfl, rfl⟩
      · split
        · exact ⟨rfl, rfl, rfl, rfl⟩
        · next eval =>
            cases s with
            | updateUser | clearRoles => cases others
            | revokeAccessTokens | revokeRefreshTokens =>
                cases eval
                exact ⟨rfl, rfl, rfl, rfl⟩
            | effectSuccession organizationId nomineeUserId =>
                simp only [AccountStatement.eval] at eval
                split at eval
                · cases eval
                  exact ⟨rfl, rfl, rfl, rfl⟩
                · cases eval
                  exact ⟨rfl, rfl, rfl, rfl⟩
            | insertVerificationToken row =>
                simp only [AccountStatement.eval] at eval
                split at eval
                · cases eval
                · cases eval
                  exact ⟨rfl, rfl, rfl, rfl⟩
            | consumeVerificationToken =>
                cases eval
                exact ⟨rfl, rfl, rfl, rfl⟩
            | _ =>
                rw [AccountStatement.eval_query rfl eval]
                exact ⟨rfl, rfl, rfl, rfl⟩
  | insertNext => cases others
  | _ => exact ⟨rfl, rfl, rfl, rfl⟩

/-- No operation changes which roles there are, and time passes. -/
theorem execAccount_roles (m : AccountMoment) (o : AccountOp) (db : AccountDb) :
    (execAccount m o db).2.roles = db.roles ∧
      (execAccount m o db).2.clock = db.clock + m.elapsed := by
  cases writes : o.writesAccounts with
  | false =>
      obtain ⟨_, roles, _, clock⟩ := execAccount_others writes m db
      exact ⟨roles, clock⟩
  | true =>
      cases o with
      | insertNext userId first others =>
          simp only [execAccount, insertUserRole]
          split
          · exact ⟨rfl, rfl⟩
          · split
            · exact ⟨rfl, rfl⟩
            · exact ⟨rfl, rfl⟩
      | sql s =>
          simp only [execAccount, runStatement]
          split
          · exact ⟨rfl, rfl⟩
          · split
            · exact ⟨rfl, rfl⟩
            · next eval =>
                cases s with
                | updateUser id changes =>
                    rw [(AccountStatement.eval_updateUser eval).2]
                    exact ⟨rfl, rfl⟩
                | clearRoles id =>
                    cases eval
                    exact ⟨rfl, rfl⟩
                | _ => cases writes
      | _ => cases writes

/-- An update leaves the other rows. -/
theorem mem_changeUser_of_ne {users : Table AccountRow.id} {id : Int32} {c : UserChanges}
    {u : AccountRow} (row : u ∈ users.rows) (ne : u.id ≠ id) : u ∈ (changeUser users id c).rows :=
  List.mem_map.mpr ⟨u, row, if_neg (by simpa using ne)⟩

theorem mem_changeUser {users : Table AccountRow.id} {c : UserChanges} {u : AccountRow}
    (row : u ∈ users.rows) : c.apply u ∈ (changeUser users u.id c).rows :=
  List.mem_map.mpr ⟨u, row, if_pos (decide_eq_true rfl)⟩

namespace Account

open UserAdminService UserSelfServiceController

/-- The calls that can take an administrator away. -/
inductive AccountCall where
  | updateUser (userId : String) (body : Option (List (String × Json)))
  | deleteUser (actorId userId : String)
  | disableUser (userId : String)
  | assignUserRoles (userId : String) (body : Option (List (String × Json)))
  | deleteAccount (userId : String)

/-- The program that a call runs. -/
def AccountCall.prog : AccountCall → AccountProg
  | updateUser userId body => UserAdminService.updateUser userId body
  | deleteUser actorId userId => UserAdminService.deleteUser actorId userId
  | disableUser userId => UserAdminService.disableUser userId
  | assignUserRoles userId body => UserAdminService.assignUserRoles userId body
  | deleteAccount userId => UserSelfServiceController.deleteAccount userId

/-! ## Where a call stands -/

/-- How far a call has come. -/
inductive AdminStage where
  | idle
  /-- The target has been looked up. -/
  | found
  /-- The guard has been asked. -/
  | guarded
  /-- The roles are cleared; `keeps` when the guard was not asked. -/
  | cleared (id : Int32) (keeps : Bool)
  | inserting (id : Int32) (pending : List RoleRow)

namespace AdminStage

def next (g : AdminStage) : (o : AccountOp) → AccountSig.Res o → AdminStage
  | .sql (.liveUser _), _ | .sql (.liveUsersOfSub _), _ =>
    match g with
    | idle => found
    | g => g
  | .sql (.rolesNamed _), r =>
    match g, r with
    | found, _ => guarded
    | cleared id _, .ok roles => inserting id roles
    | g, _ => g
  | .sql (.clearRoles id), .ok _ =>
    match g with
    | found => cleared id true
    | _ => cleared id false
  | .insertNext id _ _, r => inserting id r.1.2
  | _, _ => g

/-- The changes leave an active user active. -/
def Harmless (changes : UserChanges) : Prop :=
  changes.deletedAt = none ∧ (changes.lockedUntil = none ∨ changes.lockedUntil = some 0)

/-- The steps that a call can take at its stage. -/
def fits (g : AdminStage) : AccountOp → Prop
  | .sql (.rolesNamed names) =>
    g = found ∨ ∃ id keeps, g = cleared id keeps ∧ (keeps = true → "admin" ∈ names)
  | .sql (.clearRoles _) => g = found ∨ g = guarded
  | .sql (.updateUser _ changes) => g = guarded ∨ Harmless changes
  | .insertNext id first others => g = inserting id (first :: others)
  | _ => True

/-- The answers of statements that do not fail. -/
def possible : (o : AccountOp) → AccountSig.Res o → Prop
  | .sql (.rolesNamed _), r => ∃ roles, r = .ok roles
  | .insertNext _ _ others, r => r.1.2.length = others.length
  | _, _ => True

/-- Nothing is to be given back. -/
def Settled : AdminStage → Prop
  | cleared _ keeps => keeps = false
  | inserting _ pending => pending = []
  | _ => True

end AdminStage

open AdminStage

section Follow

/-- The program takes its steps in the order of the stages. -/
abbrev AdminFollows (p : AccountProg) (g : AdminStage) : Prop :=
  p.Follows AdminStage.next fits (fun _ o r => possible o r) (fun _ g => g.Settled) g

/-- A statement fits, and so does what either callback makes of it. -/
theorem follows_sqlOr {G : Type} {next : G → (o : AccountOp) → AccountSig.Res o → G}
    {fits : G → AccountOp → Prop} {ok : G → (o : AccountOp) → AccountSig.Res o → Prop}
    {Q : Unit → G → Prop} {s : AccountStatement} {failed : String → AccountProg}
    {rest : s.Res → AccountProg} {g : G} (fit : fits g (.sql s))
    (fails : ∀ text, ok g (.sql s) (.error text) →
      Prog.Follows (S := AccountSig) next fits ok Q (failed text) (next g (.sql s) (.error text)))
    (goes : ∀ r, Prog.Follows (S := AccountSig) next fits ok Q (rest r) (next g (.sql s) (.ok r))) :
    Prog.Follows (S := AccountSig) next fits ok Q (sqlOr s failed rest) g := by
  refine ⟨fit, fun r possible => ?_⟩
  cases r with
  | error text => exact fails text possible
  | ok r => exact goes r

theorem respond_follows {answer : AccountAnswer} {g : AdminStage} (settled : g.Settled) :
    AdminFollows (respond answer) g :=
  ⟨trivial, fun _ _ => settled⟩

/-- The guard follows the stages. -/
theorem isLastActiveAdmin_follows {id : Int32} {onDone : Bool → AccountProg} {onError : AccountProg}
    (done : ∀ b, AdminFollows (onDone b) guarded) (error : AdminFollows onError guarded) :
    AdminFollows (isLastActiveAdmin id onDone onError) found := by
  unfold isLastActiveAdmin
  refine follows_sqlOr (.inl rfl) (fun _ _ => error) fun roles => ?_
  split
  · exact done false
  · refine follows_sqlOr trivial (fun _ _ => error) fun userRoles => ?_
    dsimp only
    split
    · exact done false
    · split
      · exact done true
      · refine ⟨trivial, fun now _ => follows_sqlOr trivial (fun _ _ => error) fun _ => done _⟩

/-- The successions do not lead away from the guard. -/
theorem effectPendingSuccessionsForUser_follows {id : Int32} {done : Bool → String → AccountProg}
    (all : ∀ b text, AdminFollows (done b text) guarded) :
    AdminFollows (effectPendingSuccessionsForUser id done) guarded := by
  have only : (successions id).Only fun o => fits guarded o ∧ ∀ r, next guarded o r = guarded :=
    successions_only ⟨trivial, fun _ => rfl⟩ (fun _ => ⟨trivial, fun _ => rfl⟩)
      (fun _ => ⟨trivial, fun _ => rfl⟩) (fun _ => ⟨trivial, fun _ => rfl⟩)
      fun _ _ => ⟨trivial, fun _ => rfl⟩
  rw [effectPendingSuccessionsForUser_eq]
  exact (only.stays (fun _ stays => stays.1) fun _ r stays => stays.2 r).after fun _ => all _ _

theorem withUserId_follows {userId : String} {rest : Int32 → AccountProg}
    (goes : ∀ id, AdminFollows (rest id) idle) : AdminFollows (withUserId userId rest) idle := by
  unfold withUserId
  split
  · exact respond_follows trivial
  · exact goes _

theorem updateFailed_follows {what : String} {g : AdminStage} (settled : g.Settled) :
    AdminFollows (updateFailed what) g := by
  unfold updateFailed
  split
  · exact respond_follows settled
  · split
    · exact respond_follows settled
    · exact respond_follows settled

/-- So does an update that is harmless, or guarded. -/
theorem proceedWithUpdate_follows {id : Int32} {body : List (String × Json)} {g : AdminStage}
    (settled : g.Settled) (fit : g = guarded ∨ Harmless (requestedChanges body)) :
    AdminFollows (proceedWithUpdate id body) g :=
  follows_sqlOr fit (fun _ _ => updateFailed_follows settled) fun _ => respond_follows settled

/-- An update without a lock. -/
theorem harmless_of_not_locked {body : List (String × Json)}
    (unlocked : boolMember body "locked" ≠ some true) : Harmless (requestedChanges body) := by
  refine ⟨rfl, ?_⟩
  simp only [requestedChanges]
  cases eq : boolMember body "locked" with
  | none => exact .inl rfl
  | some locked =>
      cases locked with
      | false => exact .inr rfl
      | true => exact absurd eq unlocked

/-- **The update of a user follows the stages**. -/
theorem updateUser_follows (userId : String) (body : Option (List (String × Json))) :
    AdminFollows (updateUser userId body) idle := by
  refine withUserId_follows fun id => ?_
  cases body with
  | none => exact respond_follows trivial
  | some body =>
      dsimp only
      split
      · exact respond_follows trivial
      · split
        · exact respond_follows trivial
        · split
          · exact respond_follows trivial
          · refine follows_sqlOr trivial (fun _ _ => respond_follows trivial) fun _ => ?_
            refine Prog.Follows.ite (fun unlocked => ?_) fun _ => ?_
            · exact proceedWithUpdate_follows trivial (.inr (harmless_of_not_locked unlocked))
            · refine isLastActiveAdmin_follows (fun b => ?_) (respond_follows trivial)
              exact Prog.Follows.ite (fun _ => respond_follows trivial) fun _ =>
                proceedWithUpdate_follows trivial (.inl rfl)

theorem revokeRefreshThenRespond_follows {id : Int32} {publicSub : String} {accessOk : Bool} :
    AdminFollows (revokeRefreshThenRespond id publicSub accessOk) guarded :=
  follows_sqlOr trivial (fun _ _ => respond_follows trivial) fun _ => respond_follows trivial

/-- **So does the deletion of a user**. -/
theorem deleteUser_follows (actorId userId : String) :
    AdminFollows (deleteUser actorId userId) idle := by
  refine withUserId_follows fun id => ?_
  refine follows_sqlOr trivial (fun _ _ => respond_follows trivial) fun row => ?_
  refine Prog.Follows.ite (fun _ => respond_follows trivial) fun _ => ?_
  refine isLastActiveAdmin_follows (fun b => ?_) (respond_follows trivial)
  refine Prog.Follows.ite (fun _ => respond_follows trivial) fun _ => ?_
  refine effectPendingSuccessionsForUser_follows fun ok text => ?_
  refine Prog.Follows.ite (fun _ => respond_follows trivial) fun _ => ?_
  refine ⟨trivial, fun now _ => ?_⟩
  refine follows_sqlOr (.inl rfl) (fun _ _ => respond_follows trivial) fun _ => ?_
  exact follows_sqlOr trivial (fun _ _ => revokeRefreshThenRespond_follows)
    fun _ => revokeRefreshThenRespond_follows

/-- **So does the lock of a user**. -/
theorem disableUser_follows (userId : String) : AdminFollows (disableUser userId) idle := by
  refine withUserId_follows fun id => ?_
  refine follows_sqlOr trivial (fun _ _ => respond_follows trivial) fun row => ?_
  refine isLastActiveAdmin_follows (fun b => ?_) (respond_follows trivial)
  refine Prog.Follows.ite (fun _ => respond_follows trivial) fun _ => ?_
  exact follows_sqlOr (.inl rfl) (fun _ _ => respond_follows trivial) fun _ =>
    respond_follows trivial

/-- **So does the deletion of one's own account**. -/
theorem deleteAccount_follows (userId : String) : AdminFollows (deleteAccount userId) idle := by
  have anonymize (anonUsername : String) :
      AdminFollows (anonymizeAndSoftDelete userId anonUsername) guarded := by
    refine follows_sqlOr trivial (fun _ _ => respond_follows trivial) fun rows => ?_
    cases rows with
    | nil => exact respond_follows trivial
    | cons u _ =>
        refine ⟨trivial, fun now _ => ?_⟩
        exact follows_sqlOr (.inl rfl) (fun _ _ => respond_follows trivial)
          fun _ => respond_follows trivial
  refine follows_sqlOr trivial (fun _ _ => respond_follows trivial) fun rows => ?_
  cases rows with
  | nil => exact respond_follows trivial
  | cons u _ =>
      refine isLastActiveAdmin_follows (fun b => ?_) (respond_follows trivial)
      refine Prog.Follows.ite (fun _ => respond_follows trivial) fun _ => ?_
      refine effectPendingSuccessionsForUser_follows fun ok text => ?_
      refine Prog.Follows.ite (fun _ => respond_follows trivial) fun _ => ?_
      refine follows_sqlOr trivial (fun _ _ => ⟨trivial, fun _ _ => anonymize _⟩) fun _ => ?_
      exact follows_sqlOr trivial (fun _ _ => ⟨trivial, fun _ _ => anonymize _⟩)
        fun _ => ⟨trivial, fun _ _ => anonymize _⟩

/-- So do the insertions of roles. -/
theorem awaitInserts_follows {id : Int32} (remaining : Nat) {pending : List RoleRow}
    (assigned : List String) (length : pending.length = remaining) :
    AdminFollows (awaitInserts id remaining pending assigned) (inserting id pending) := by
  induction remaining generalizing pending assigned with
  | zero => exact List.length_eq_zero_iff.mp length
  | succ remaining ih =>
      cases pending with
      | nil => cases length
      | cons first others =>
          refine ⟨rfl, fun r possible => ?_⟩
          obtain ⟨⟨role, rest⟩, outcome⟩ := r
          have left : rest.length = remaining := Eq.trans possible (Nat.succ.inj length)
          cases outcome with
          | error what =>
              exact Prog.Follows.ite (fun _ => ⟨trivial, fun _ _ => ih _ left⟩) fun _ => ih _ left
          | ok =>
              exact Prog.Follows.ite (fun _ => ⟨trivial, fun _ _ => ih _ left⟩) fun _ => ih _ left

/-- So does the change of the roles. -/
theorem proceedWithAssign_follows {id : Int32} {roleNames : List String} {g : AdminStage}
    (stage : g = guarded ∨ g = found ∧ "admin" ∈ roleNames) :
    AdminFollows (proceedWithAssign id roleNames) g := by
  have settled : g.Settled := by
    rcases stage with rfl | ⟨rfl, _⟩
    · trivial
    · trivial
  obtain ⟨keeps, cleared, kept⟩ : ∃ keeps,
      next g (.sql (.clearRoles id)) (.ok 0) = cleared id keeps ∧
        (keeps = true → "admin" ∈ roleNames) := by
    rcases stage with rfl | ⟨rfl, mem⟩
    · exact ⟨false, rfl, nofun⟩
    · exact ⟨true, rfl, fun _ => mem⟩
  refine follows_sqlOr (stage.symm.imp_left And.left)
    (fun _ _ => respond_follows settled) fun _ => ?_
  show AdminFollows _ (next g (.sql (.clearRoles id)) (.ok 0))
  rw [cleared]
  refine Prog.Follows.ite (fun empty => respond_follows ?_) fun _ => ?_
  · cases keeps with
    | false => rfl
    | true =>
        rw [List.isEmpty_iff.mp empty] at kept
        exact absurd (kept rfl) List.not_mem_nil
  · refine follows_sqlOr (.inr ⟨id, keeps, rfl, kept⟩) (fun _ no => absurd no nofun)
      fun resolved => ?_
    refine Prog.Follows.ite (fun empty => ?_) fun _ => awaitInserts_follows _ _ rfl
    exact respond_follows (List.isEmpty_iff.mp empty)

/-- **So does the assignment of roles**. -/
theorem assignUserRoles_follows (userId : String) (body : Option (List (String × Json))) :
    AdminFollows (assignUserRoles userId body) idle := by
  refine withUserId_follows fun id => ?_
  cases requested : requestedRoles body with
  | none => exact respond_follows trivial
  | some roleNames =>
      refine follows_sqlOr trivial (fun _ _ => respond_follows trivial) fun row => ?_
      refine Prog.Follows.ite (fun keeps => ?_) fun _ => ?_
      · exact proceedWithAssign_follows (.inr ⟨rfl, keeps⟩)
      · refine isLastActiveAdmin_follows (fun b => ?_) (respond_follows trivial)
        exact Prog.Follows.ite (fun _ => respond_follows trivial) fun _ =>
          proceedWithAssign_follows (.inl rfl)

/-- Every call follows the stages. -/
theorem accountCall_follows (call : AccountCall) : AdminFollows call.prog idle := by
  cases call with
  | updateUser userId body => exact updateUser_follows userId body
  | deleteUser actorId userId => exact deleteUser_follows actorId userId
  | disableUser userId => exact disableUser_follows userId
  | assignUserRoles userId body => exact assignUserRoles_follows userId body
  | deleteAccount userId => exact deleteAccount_follows userId

end Follow

/-! ## Active administrators -/

/-- The user has a role that is called admin. -/
def IsAdmin (db : AccountDb) (id : Int32) : Prop :=
  ∃ role ∈ db.roles.rows, role.name = "admin" ∧ ⟨id, role.id⟩ ∈ db.userRoles

/-- Some user is an administrator, not deleted and not locked. -/
def HasActiveAdmin (db : AccountDb) : Prop :=
  ∃ u ∈ db.users.rows, u.activeAt db.clock = true ∧ IsAdmin db u.id

instance (db : AccountDb) (id : Int32) : Decidable (IsAdmin db id) :=
  inferInstanceAs (Decidable (∃ role ∈ db.roles.rows, _))

instance (db : AccountDb) : Decidable (HasActiveAdmin db) :=
  inferInstanceAs (Decidable (∃ u ∈ db.users.rows, _))

/-! ### What the guard has seen -/

section Guard

variable {db : AccountDb} {m : AccountMoment} {id : Int32}

/-- The users the guard finds are those with the role. -/
theorem mem_adminIds {uid : Int32} :
    uid ∈ ((db.userRoles.filter fun r =>
      r.roleId ∈ (db.roles.rows.filter fun r => r.name ∈ ["admin"]).map (·.id)).map
        (·.userId)).dedup ↔ IsAdmin db uid := by
  simp only [List.mem_dedup, List.mem_map, List.mem_filter, decide_eq_true_eq, List.mem_singleton,
    IsAdmin]
  constructor
  · rintro ⟨⟨_, roleId⟩, ⟨row, role, ⟨mem, name⟩, rfl⟩, rfl⟩
    exact ⟨role, mem, name, row⟩
  · rintro ⟨role, mem, name, row⟩
    exact ⟨⟨uid, role.id⟩, ⟨row, role, ⟨mem, name⟩, rfl⟩, rfl⟩

/-- A statement that succeeds, and what follows it. -/
theorem run_sqlOr {α : Type} {s : AccountStatement} {failed : String → Prog AccountSig α}
    {rest : s.Res → Prog AccountSig α} {r : s.Res} {db' : AccountDb} (sound : m.fault = none)
    (eval : s.eval { db with clock := db.clock + m.elapsed } = .ok (r, db')) :
    (sqlOr s failed rest).run (execAccount m) db = (rest r).run (execAccount m) db' := by
  simp only [sqlOr, Prog.run_op, execAccount, runStatement, sound, eval]

/-- A statement that fails, and what follows it. -/
theorem run_sqlOr_faulty {α : Type} {s : AccountStatement} {failed : String → Prog AccountSig α}
    {rest : s.Res → Prog AccountSig α} {text : String} (faulty : m.fault = some text) :
    (sqlOr s failed rest).run (execAccount m) db =
      (failed text).run (execAccount m) { db with clock := db.clock + m.elapsed } := by
  simp only [sqlOr, Prog.run_op, execAccount, runStatement, faulty]

/-- A guard that lets the target go has found no administrator in it, or another one who is
active. -/
theorem lastAdminGuard_passed
    (passed : ((lastAdminGuard id).run (execAccount m) db).1 = some false) :
    ¬ IsAdmin db id ∨ ∃ u ∈ db.users.rows,
      u.activeAt ((lastAdminGuard id).run (execAccount m) db).2.clock = true ∧
        IsAdmin db u.id ∧ u.id ≠ id := by
  by_cases admin : IsAdmin db id
  · right
    cases faulty : m.fault with
    | some text =>
        rw [lastAdminGuard, isLastActiveAdmin, run_sqlOr_faulty faulty] at passed
        cases passed
    | none =>
        have listed := mem_adminIds.mpr admin
        obtain ⟨role, mem, name, _⟩ := admin
        have roles : (db.roles.rows.filter fun r => r.name ∈ ["admin"]).isEmpty = false := by
          rw [List.isEmpty_eq_false_iff_exists_mem]
          exact ⟨role, List.mem_filter.mpr ⟨mem, by simpa using name⟩⟩
        rw [lastAdminGuard, isLastActiveAdmin, run_sqlOr faulty rfl] at passed ⊢
        simp only [roles, Bool.false_eq_true, if_false] at passed ⊢
        rw [run_sqlOr faulty rfl] at passed ⊢
        simp only [not_not.mpr listed, if_false] at passed ⊢
        split at passed
        · cases passed
        · next alone =>
          rw [if_neg alone]
          rw [withNow, Prog.run_op, run_sqlOr faulty rfl] at passed ⊢
          have some_ := of_decide_eq_false (Option.some.inj passed)
          obtain ⟨u, found⟩ := List.length_pos_iff_exists_mem.mp (Nat.pos_of_ne_zero some_)
          simp only [List.mem_filter, decide_eq_true_eq, mem_adminIds] at found
          obtain ⟨row, ⟨other, ne⟩, active⟩ := found
          refine ⟨u, row, AccountRow.activeAt_mono active ?_, other, ne⟩
          exact Int.le_add_of_nonneg_right (Int.natCast_nonneg m.elapsed)
  · exact .inl admin
end Guard

/-! ### Who stands -/

section Stands

variable {ι : Type} [DecidableEq ι]

/-- The stage of a call, read off the log. -/
abbrev adminStage (i : ι) (log : List (AccountEvent ι)) : AdminStage :=
  track (S := AccountSig) AdminStage.next idle i log

/-- The roles of the user are cleared, and the role is about to be inserted again. -/
def GivesBack (g : AdminStage) (id : Int32) : Prop :=
  g = cleared id true ∨
    ∃ pending, g = inserting id pending ∧ ∃ role ∈ pending, role.name = "admin"

/-- The user is active, and an administrator or about to be one again. -/
def Stands (db : AccountDb) (log : List (AccountEvent ι)) (u : AccountRow) : Prop :=
  u ∈ db.users.rows ∧ u.activeAt db.clock = true ∧
    (IsAdmin db u.id ∨ ∃ i, GivesBack (adminStage i log) u.id)

/-- The user stands, and nobody else. -/
def LastStanding (db : AccountDb) (log : List (AccountEvent ι)) (id : Int32) : Prop :=
  (∃ u, Stands db log u ∧ u.id = id) ∧ ∀ u, Stands db log u → u.id = id

/-- No write that the guard was asked for takes away the last user who stands. -/
def SparesLast (e : AccountEvent ι) (log : List (AccountEvent ι)) : Prop :=
  match e.op with
  | .sql (.updateUser id changes) => Harmless changes ∨ ¬ LastStanding e.pre log id
  | .sql (.clearRoles id) => adminStage e.thread log = guarded → ¬ LastStanding e.pre log id
  | _ => True

/-- A write of the user the guard let go, with no user and no role written in between, spares the
last user who stands, unless an assignment is about to give its target the role back. -/
theorem sparesLast_of_passed {db : AccountDb} {m : AccountMoment} {e : AccountEvent ι}
    {log : List (AccountEvent ι)} {id : Int32}
    (passed : ((lastAdminGuard id).run (execAccount m) db).1 = some false)
    (users : e.pre.users = db.users) (roles : e.pre.roles = db.roles)
    (userRoles : e.pre.userRoles = db.userRoles)
    (later : ((lastAdminGuard id).run (execAccount m) db).2.clock ≤ e.pre.clock)
    (settled : ∀ i, ¬ GivesBack (adminStage i log) id)
    (write : e.op = .sql (.clearRoles id) ∨ ∃ changes, e.op = .sql (.updateUser id changes)) :
    SparesLast e log := by
  have admin (uid : Int32) : IsAdmin e.pre uid ↔ IsAdmin db uid := by
    rw [IsAdmin, IsAdmin, roles, userRoles]
  have spared : ¬ LastStanding e.pre log id := by
    rintro ⟨⟨u, ⟨_, _, holds⟩, rfl⟩, alone⟩
    rcases lastAdminGuard_passed passed with none | ⟨other, row, active, isAdmin, ne⟩
    · rcases holds with holds | ⟨i, back⟩
      · exact none ((admin _).mp holds)
      · exact settled i back
    · exact ne (alone other ⟨users ▸ row, AccountRow.activeAt_mono active later,
        .inl ((admin _).mpr isAdmin)⟩)
  obtain ⟨i, n, o, r, pre⟩ := e
  rcases write with rfl | ⟨changes, rfl⟩
  · exact fun _ => spared
  · exact .inr spared

/-- The invariant of a run: somebody stands, and nobody has taken too much. -/
structure Manned (w : AccountWorld ι) : Prop where
  stands : ∃ u, Stands w.db w.log u
  role : ∃ role ∈ w.db.roles.rows, role.name = "admin"
  clock : 0 ≤ w.db.clock
  pending : ∀ i id pending, adminStage i w.log = inserting id pending →
    ∀ role ∈ pending, role ∈ w.db.roles.rows

variable {w : AccountWorld ι} {i j : ι} {o : AccountOp} {r : AccountSig.Res o} {db : AccountDb}
  {m : AccountMoment} {u u' : AccountRow} {id : Int32}

/-- A step moves the stage of its own call. -/
theorem adminStage_own :
    adminStage i (w.push i o r db).log = AdminStage.next (adminStage i w.log) o r :=
  track_own

/-- It moves no other stage. -/
theorem adminStage_other (ne : j ≠ i) : adminStage j (w.push i o r db).log = adminStage j w.log :=
  track_other ne

/-- Whoever stands stands on, if the row stays active and the event takes neither the role nor
the prospect of it. -/
theorem Stands.push (stands : Stands w.db w.log u) (row : u' ∈ db.users.rows) (same : u'.id = u.id)
    (active : u'.activeAt db.clock = true)
    (holds : IsAdmin w.db u.id → IsAdmin db u.id ∨
      GivesBack (AdminStage.next (adminStage i w.log) o r) u.id)
    (gives : GivesBack (adminStage i w.log) u.id → IsAdmin db u.id ∨
      GivesBack (AdminStage.next (adminStage i w.log) o r) u.id) :
    Stands db (w.push i o r db).log u' := by
  have own : IsAdmin db u.id ∨ GivesBack (AdminStage.next (adminStage i w.log) o r) u.id →
      IsAdmin db u.id ∨ ∃ j, GivesBack (adminStage j (w.push i o r db).log) u.id := by
    refine Or.imp_right fun back => ⟨i, ?_⟩
    rwa [adminStage_own]
  refine ⟨row, active, ?_⟩
  rw [same]
  rcases stands.2.2 with admin | ⟨j, back⟩
  · exact own (holds admin)
  · by_cases eq : j = i
    · subst eq
      exact own (gives back)
    · exact .inr ⟨j, by rwa [adminStage_other eq]⟩

/-- Another one stands. -/
theorem exists_other (stands : ∃ u, Stands w.db w.log u) (spared : ¬ LastStanding w.db w.log id) :
    ∃ u, Stands w.db w.log u ∧ u.id ≠ id := by
  by_contra none
  push Not at none
  obtain ⟨u, stands⟩ := stands
  exact spared ⟨⟨u, stands, none u stands⟩, none⟩

omit [DecidableEq ι] in
theorem possible_execSound (done : execSound m i o w.db = some (r, db)) : possible o r := by
  have answer : (execAccount { m with fault := none } o w.db).1 = r :=
    congrArg Prod.fst (Option.some.inj done)
  subst answer
  cases o with
  | sql s =>
      cases s with
      | rolesNamed names => exact ⟨_, rfl⟩
      | _ => trivial
  | insertNext id first others =>
      have perm := (pickRole_perm m.pick first others).length_eq
      exact Nat.succ.inj perm
  | _ => trivial

/-- The prospect of the role stays, unless the role is inserted. -/
theorem GivesBack.next (back : GivesBack (adminStage i w.log) id)
    (role : ∃ role ∈ w.db.roles.rows, role.name = "admin") (fit : fits (adminStage i w.log) o)
    (done : execSound m i o w.db = some (r, db)) (others : o.writesAccounts = false) :
    GivesBack (AdminStage.next (adminStage i w.log) o r) id := by
  cases o with
  | sql s =>
      cases s with
      | updateUser | clearRoles => cases others
      | rolesNamed names =>
          cases done
          rcases back with at_ | ⟨pending, at_, _⟩
          · rw [at_] at fit ⊢
            rcases fit with no | ⟨_, _, same, kept⟩
            · cases no
            · cases same
              obtain ⟨role, mem, name⟩ := role
              refine .inr ⟨_, rfl, role, List.mem_filter.mpr ⟨mem, decide_eq_true ?_⟩, name⟩
              rw [name]
              exact kept rfl
          · rw [at_] at fit
            rcases fit with no | ⟨_, _, no, _⟩
            · cases no
            · cases no
      | _ =>
          rcases back with at_ | ⟨pending, at_, admin⟩
          · rw [at_]
            exact .inl rfl
          · rw [at_]
            exact .inr ⟨pending, rfl, admin⟩
  | insertNext => cases others
  | _ =>
      rcases back with at_ | ⟨pending, at_, admin⟩
      · rw [at_]
        exact .inl rfl
      · rw [at_]
        exact .inr ⟨pending, rfl, admin⟩

/-- The roles that a call still inserts are rows of the table. -/
theorem pending_next (fit : fits (adminStage i w.log) o)
    (before : ∀ id pending, adminStage i w.log = inserting id pending →
      ∀ role ∈ pending, role ∈ w.db.roles.rows)
    (done : execSound m i o w.db = some (r, db)) {pending : List RoleRow}
    (now : AdminStage.next (adminStage i w.log) o r = inserting id pending) :
    ∀ role ∈ pending, role ∈ w.db.roles.rows := by
  cases o with
  | insertNext userId first others =>
      cases done
      cases now
      have perm := pickRole_perm m.pick first others
      exact fun role mem => before _ _ fit role (perm.mem_iff.mp (List.mem_cons_of_mem _ mem))
  | sql s =>
      cases s with
      | rolesNamed names =>
          cases done
          rcases fit with at_ | ⟨_, _, at_, _⟩
          · rw [at_] at now
            cases now
          · rw [at_] at now
            cases now
            exact fun role mem => (List.mem_filter.mp mem).1
      | clearRoles userId =>
          cases done
          cases at_ : adminStage i w.log <;> rw [at_] at now <;> cases now
      | liveUser userId | liveUsersOfSub publicSub =>
          cases at_ : adminStage i w.log with
          | inserting id' pending' =>
              rw [at_] at now
              cases now
              exact before id pending at_
          | _ =>
              rw [at_] at now
              cases now
      | _ => exact before id pending now
  | _ => exact before id pending now

/-- A target that is not deleted or locked stays active. -/
theorem activeAt_apply {c : UserChanges} {now : Int} (harmless : Harmless c)
    (active : u.activeAt now = true) (epoch : 0 ≤ now) : (c.apply u).activeAt now = true := by
  simp only [AccountRow.activeAt, Bool.and_eq_true, UserChanges.apply, harmless.1] at active ⊢
  refine ⟨active.1, ?_⟩
  rcases harmless.2 with same | zero
  · rw [same]
    exact active.2
  · rw [zero]
    exact decide_eq_true epoch

/-- **Somebody stands after a step that writes no account**. -/
theorem stands_others (manned : Manned w) (fit : fits (adminStage i w.log) o)
    (done : execSound m i o w.db = some (r, db)) (others : o.writesAccounts = false) :
    ∃ u, Stands db (w.push i o r db).log u := by
  obtain ⟨u, stands⟩ := manned.stands
  have kept := execAccount_others others { m with fault := none } w.db
  rw [Option.some.inj done] at kept
  obtain ⟨users, roles, userRoles, clock⟩ := kept
  have admin : IsAdmin db u.id ↔ IsAdmin w.db u.id := by
    unfold IsAdmin
    rw [roles, userRoles]
  refine ⟨u, stands.push (users ▸ stands.1) rfl ?_ (fun holds => .inl (admin.mpr holds))
    fun back => .inr (back.next manned.role fit done others)⟩
  rw [clock]
  exact AccountRow.activeAt_mono stands.2.1 (by omega)

/-- Somebody stands after roles are cleared. -/
theorem stands_clearRoles (manned : Manned w)
    (fit : fits (adminStage i w.log) (.sql (.clearRoles id)))
    {r : Except String Nat} (done : execSound m i (.sql (.clearRoles id)) w.db = some (r, db))
    (spared : SparesLast ⟨i, w.tick, .sql (.clearRoles id), r, w.db⟩ w.log) :
    ∃ u, Stands db (w.push i (.sql (.clearRoles id)) r db).log u := by
  have later : w.db.clock ≤ w.db.clock + m.elapsed := by omega
  cases done
  have stays (u : AccountRow) (ne : u.id ≠ id) (holds : IsAdmin w.db u.id) :
      IsAdmin { w.db with userRoles := w.db.userRoles.filter fun r => r.userId ≠ id } u.id := by
    obtain ⟨role, mem, name, has⟩ := holds
    exact ⟨role, mem, name, List.mem_filter.mpr ⟨has, decide_eq_true ne⟩⟩
  rcases fit with at_ | at_
  · obtain ⟨u, stands⟩ := manned.stands
    refine ⟨u, stands.push stands.1 rfl (AccountRow.activeAt_mono stands.2.1 later)
      (fun holds => ?_) fun back => ?_⟩
    · by_cases eq : u.id = id
      · rw [at_, eq]
        exact .inr (.inl rfl)
      · exact .inl (stays u eq holds)
    · rw [at_] at back
      rcases back with no | ⟨_, no, _⟩
      · cases no
      · cases no
  · obtain ⟨u, stands, ne⟩ := exists_other manned.stands (spared at_)
    refine ⟨u, stands.push stands.1 rfl (AccountRow.activeAt_mono stands.2.1 later)
      (fun holds => .inl (stays u ne holds)) fun back => ?_⟩
    rw [at_] at back
    rcases back with no | ⟨_, no, _⟩
    · cases no
    · cases no

/-- Somebody stands after an update that spares the last one. -/
theorem stands_updateUser {changes : UserChanges} (manned : Manned w)
    {r : Except String Nat}
    (done : execSound m i (.sql (.updateUser id changes)) w.db = some (r, db))
    (spared : SparesLast ⟨i, w.tick, .sql (.updateUser id changes), r, w.db⟩ w.log) :
    ∃ u, Stands db (w.push i (.sql (.updateUser id changes)) r db).log u := by
  have later : w.db.clock ≤ w.db.clock + m.elapsed := by omega
  obtain ⟨u, stands⟩ := manned.stands
  simp only [execSound, execAccount, runStatement] at done
  split at done
  · cases done
    exact ⟨u, stands.push stands.1 rfl (AccountRow.activeAt_mono stands.2.1 later) .inl .inr⟩
  · next eval =>
      cases done
      cases (AccountStatement.eval_updateUser eval).2
      by_cases eq : u.id = id ∧ Harmless changes
      · obtain ⟨rfl, harmless⟩ := eq
        refine ⟨changes.apply u, stands.push (mem_changeUser stands.1) rfl ?_ .inl .inr⟩
        exact activeAt_apply harmless (AccountRow.activeAt_mono stands.2.1 later)
          (Int.le_trans manned.clock later)
      · obtain ⟨u', stands', ne⟩ : ∃ u, Stands w.db w.log u ∧ u.id ≠ id := by
          rcases spared with harmless | spared
          · exact ⟨u, stands, fun same => eq ⟨same, harmless⟩⟩
          · exact exists_other manned.stands spared
        exact ⟨u', stands'.push (mem_changeUser_of_ne stands'.1 ne) rfl
          (AccountRow.activeAt_mono stands'.2.1 later) .inl .inr⟩

/-- Somebody stands after a role is inserted. -/
theorem stands_insertNext {first : RoleRow} {others : List RoleRow} (manned : Manned w)
    (fit : fits (adminStage i w.log) (.insertNext id first others))
    {r : (RoleRow × List RoleRow) × Except String Unit}
    (done : execSound m i (.insertNext id first others) w.db = some (r, db)) :
    ∃ u, Stands db (w.push i (.insertNext id first others) r db).log u := by
  obtain ⟨u, stands⟩ := manned.stands
  have later : w.db.clock ≤ w.db.clock + m.elapsed := by omega
  have perm := pickRole_perm m.pick first others
  have picked : r.1 = pickRole m.pick first others :=
    congrArg (·.1.1) (Option.some.inj done).symm
  -- The insert leaves the role with the user, also when it was there.
  obtain ⟨users, roles, clock, has, stays⟩ : db.users = w.db.users ∧ db.roles = w.db.roles ∧
      db.clock = w.db.clock + m.elapsed ∧ ⟨id, r.1.1.id⟩ ∈ db.userRoles ∧
        ∀ row ∈ w.db.userRoles, row ∈ db.userRoles := by
    rw [picked]
    simp only [execSound, execAccount, insertUserRole] at done
    split at done
    · next there =>
        cases done
        exact ⟨rfl, rfl, rfl, there, fun _ mem => mem⟩
    · cases done
      exact ⟨rfl, rfl, rfl, List.mem_cons_self, fun _ => List.mem_cons_of_mem _⟩
  refine ⟨u, stands.push (users ▸ stands.1) rfl ?_ (fun holds => .inl ?_) fun back => ?_⟩
  · rw [clock]
    exact AccountRow.activeAt_mono stands.2.1 later
  · obtain ⟨role, mem, name, holds⟩ := holds
    exact ⟨role, roles ▸ mem, name, stays _ holds⟩
  · rw [fit] at back
    rcases back with no | ⟨pending, same, role, mem, name⟩
    · cases no
    · cases same
      rcases List.mem_cons.mp (perm.mem_iff.mpr mem) with rfl | rest
      · refine .inl ⟨_, roles ▸ manned.pending i _ _ fit _ mem, name, ?_⟩
        rwa [← picked]
      · exact .inr (.inr ⟨_, rfl, role, by rwa [picked], name⟩)

/-- **Somebody stands after every step**. -/
theorem stands_kept (manned : Manned w) (fit : fits (adminStage i w.log) o)
    (done : execSound m i o w.db = some (r, db))
    (spared : SparesLast ⟨i, w.tick, o, r, w.db⟩ w.log) :
    ∃ u, Stands db (w.push i o r db).log u := by
  cases writes : o.writesAccounts with
  | false => exact stands_others manned fit done writes
  | true =>
      cases o with
      | sql s =>
          cases s with
          | clearRoles id => exact stands_clearRoles manned fit done spared
          | updateUser id changes => exact stands_updateUser manned done spared
          | _ => cases writes
      | insertNext id first others => exact stands_insertNext manned fit done
      | _ => cases writes

/-- The invariant is kept by every step that spares the last administrator. -/
theorem manned_kept :
    KeptByFitting (execSound : Attempt AccountSig ι AccountDb AccountMoment) SparesLast
      AdminStage.next .idle fits (fun _ o r => possible o r) Manned := by
  intro w i o m r db manned fit done spared
  have fixed := execAccount_roles { m with fault := none } o w.db
  rw [Option.some.inj done] at fixed
  obtain ⟨roles, clock⟩ := fixed
  refine ⟨possible_execSound done, stands_kept manned fit done spared, ?_, ?_, ?_⟩
  · rw [World.push_db, roles]
    exact manned.role
  · have before := manned.clock
    rw [World.push_db, clock]
    omega
  · intro j id pending now
    rw [World.push_db, roles]
    by_cases eq : j = i
    · subst eq
      rw [adminStage_own] at now
      exact pending_next fit (manned.pending j) done now
    · rw [adminStage_other eq] at now
      exact manned.pending j id pending now

/-! ## Every run -/

/-- The call has made no step yet, or has come to its end. -/
def AtRest (c : AccountPool ι) (i : ι) : Prop :=
  (∀ e ∈ c.store.log, e.thread ≠ i) ∨ c.answer? i ≠ none

theorem adminStage_eq_idle {log : List (AccountEvent ι)} (none : ∀ e ∈ log, e.thread ≠ i) :
    adminStage i log = idle := by
  induction log with
  | nil => rfl
  | cons e log ih =>
      refine (if_neg (none e List.mem_cons_self)).trans (ih fun e mem => ?_)
      exact none e (List.mem_cons_of_mem _ mem)

/-- A settled call has nothing to give back. -/
theorem not_givesBack {g : AdminStage} (settled : g.Settled) : ¬ GivesBack g id := by
  rintro (rfl | ⟨pending, rfl, role, mem, _⟩)
  · cases settled
  · rw [show pending = [] from settled] at mem
    cases mem

/-- In every run in which no write takes away the last user who stands, there is an active
administrator whenever no call is in progress. -/
theorem active_admin_remains (db : AccountDb) (epoch : 0 ≤ db.clock) (start : HasActiveAdmin db)
    (calls : ι → AccountCall) (sched : List (ι × AccountMoment))
    (spared : Abides SparesLast (runAccounts db (fun i => (calls i).prog) sched).store.log) :
    let c := runAccounts db (fun i => (calls i).prog) sched
    (∀ i, AtRest c i) → HasActiveAdmin c.store.db := by
  intro c rest
  have manned : Manned (World.start db : AccountWorld ι) := by
    obtain ⟨u, row, active, admin⟩ := start
    obtain ⟨role, mem, name, _⟩ := id admin
    exact ⟨⟨u, row, active, .inl admin⟩, ⟨role, mem, name⟩, epoch, fun _ _ _ no => absurd no nofun⟩
  obtain ⟨manned, answers⟩ := Pool.play_follows (c := ⟨World.start db, fun i => (calls i).prog⟩)
    manned_kept manned rfl (fun i => accountCall_follows (calls i)) sched spared
  obtain ⟨u, row, active, admin | ⟨i, back⟩⟩ := manned.stands
  · exact ⟨u, row, active, admin⟩
  · refine absurd back (not_givesBack ?_)
    rcases rest i with none | answered
    · show (adminStage i c.store.log).Settled
      rw [adminStage_eq_idle none]
      trivial
    · obtain ⟨a, answered⟩ := Option.ne_none_iff_exists'.mp answered
      exact answers i a answered

end Stands

section Sample

/-- Two administrators. -/
def twoAdmins : AccountDb where
  users := ⟨[{ id := 1, publicSub := "a" }, { id := 2, publicSub := "b" }], by decide⟩
  roles := ⟨[⟨1, "admin"⟩], by decide⟩
  userRoles := [⟨1, 1⟩, ⟨2, 1⟩]
  clock := 1000

/-- One call deletes the first, the other disables the second. -/
def adminCalls (i : Bool) : AccountCall :=
  if i then .disableUser "2" else .deleteUser "b" "1"

/-- The two calls in the order of a schedule. -/
def adminPool (sched : List Bool) : AccountPool Bool :=
  runAccounts twoAdmins (fun i => (adminCalls i).prog) (sched.map fun i => (i, {}))

/-- The first is deleted while the second stands. -/
theorem active_admin_remains_after_one :
    HasActiveAdmin (adminPool (List.replicate 11 false)).store.db := by
  refine active_admin_remains twoAdmins (by decide) (by decide) adminCalls _ ?_ fun i => ?_
  · refine ⟨trivial, trivial, trivial, .inr fun last => ?_, trivial, trivial, trivial, trivial,
      trivial, trivial, trivial, trivial⟩
    exact absurd (last.2 { id := 2, publicSub := "b" } ⟨by decide, by decide, .inl (by decide)⟩)
      (by decide)
  · cases i with
    | false => exact .inr nofun
    | true => exact .inl (by decide)

/-- Both calls ask the guard before either writes. -/
theorem locked_out :
    let c := adminPool ((List.replicate 5 false ++ List.replicate 5 true) ++
      (List.replicate 8 false ++ List.replicate 2 true))
    HasActiveAdmin twoAdmins ∧ (∀ i, c.answer? i = some ()) ∧ ¬ HasActiveAdmin c.store.db := by
  refine ⟨by decide, ?_, by decide⟩
  intro i
  cases i
  · rfl
  · rfl

end Sample

end Account

end Fulla
