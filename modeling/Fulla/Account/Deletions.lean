import Mathlib.Data.List.Dedup
import Fulla.Account.LastAdmin

/-!
# Deletions of accounts

Calls of `deleteAccount`, their steps interleaved, and one call with failing statements.  The
name of a deleted account is `deleted_` and the seconds of the clock, so two deletions in one
second ask for one name, and the second is refused when its tokens are already revoked.

`deletions_unobstructed`: when every one of the calls succeeds, and when a call that answers an
error leaves tokens and ownerships as they were.
-/

namespace Fulla

namespace Account

open Conc UserSelfServiceController

/-! ## Where a deletion stands -/

/-- How far a deletion has come. -/
inductive DeletionStage where
  | idle
  | found (u : AccountRow)
  | checking (u : AccountRow) (roles : List RoleRow)
  /-- The account has the role of an administrator. -/
  | admin (u : AccountRow)
  | owning (u : AccountRow) (owned : List Nat)
  | walking (u : AccountRow) (orgIds : List Nat)
  | revoking (u : AccountRow)
  | written (u : AccountRow)
  /-- A statement has failed, and an error is about to be answered. -/
  | failed
  | answered (answer : AccountAnswer)

namespace DeletionStage

def next (g : DeletionStage) : (o : AccountOp) → AccountSig.Res o → DeletionStage
  | .sql (.liveUsersOfSub _), r =>
    match g, r with
    | idle, .ok (u :: _) => found u
    | revoking _, .ok (u :: _) => revoking u
    | _, _ => failed
  | .sql (.rolesNamed _), r =>
    match g, r with
    | found u, .ok roles => checking u roles
    | _, _ => failed
  | .sql (.userRolesIn _), r =>
    match g, r with
    | checking u _, .ok userRoles => if u.id ∈ userRoles.map (·.userId) then admin u else found u
    | _, _ => failed
  | .sql (.countActive _ _), r =>
    match r with
    | .ok _ => g
    | .error _ => failed
  | .sql (.ownedOrganizations _), r =>
    match g, r with
    | found u, .ok owned | checking u _, .ok owned | admin u, .ok owned => owning u owned
    | _, _ => failed
  | .sql (.pendingAmong _), r =>
    match g, r with
    | owning u _, .ok orgIds => walking u orgIds
    | _, _ => failed
  | .sql (.effectSuccession _ _), r =>
    match r with
    | .ok true => g
    | _ => failed
  | .sql (.revokeAccessTokens _ _), _ | .sql (.revokeRefreshTokens _ _), _ =>
    match g with
    | owning u _ | walking u _ | revoking u => revoking u
    | g => g
  | .sql (.updateUser _ _), r =>
    match g, r with
    | revoking u, .ok _ => written u
    | _, _ => failed
  | .respond answer, _ => answered answer
  | _, _ => g

/-- The name, the address, the password and the mark of a deleted account. -/
def deletion (username : String) (now : Int) : UserChanges where
  username := some username
  email := some none
  passwordHash := some "DELETED"
  deletedAt := some now

/-- The steps that a call can take at its stage. -/
def fits (g : DeletionStage) : AccountOp → Prop
  | .now | .sql (.pendingNomination _) | .sql (.liveUser _) => True
  | .sql (.liveUsersOfSub _) => g = idle ∨ ∃ u, g = revoking u
  | .sql (.rolesNamed names) => names = ["admin"] ∧ ∃ u, g = found u
  | .sql (.userRolesIn ids) => ∃ u roles, g = checking u roles ∧ ids = roles.map (·.id)
  | .sql (.countActive _ _) => ∃ u, g = admin u
  | .sql (.ownedOrganizations id) =>
    ∃ u, id = u.id ∧ (g = found u ∨ (∃ roles, g = checking u roles) ∨ g = admin u)
  | .sql (.pendingAmong ids) => ∃ u, g = owning u ids
  | .sql (.effectSuccession organizationId _) =>
    ∃ u orgIds, g = walking u orgIds ∧ organizationId ∈ orgIds
  | .sql (.revokeAccessTokens _ internalId) | .sql (.revokeRefreshTokens _ internalId) =>
    ∃ u, internalId = toString u.id.toInt ∧
      ((∃ owned, g = owning u owned) ∨ (∃ orgIds, g = walking u orgIds) ∨ g = revoking u)
  | .sql (.updateUser id changes) =>
    ∃ u, g = revoking u ∧ id = u.id ∧ ∃ username now, changes = deletion username now
  | .respond (.error _ _) => g = failed ∨ ∃ u, g = admin u
  | .respond .accountDeleted => ∃ u, g = written u
  | _ => False

end DeletionStage

open DeletionStage

section Follow

/-- The program takes its steps in the order of the stages. -/
abbrev DeletionFollows (p : AccountProg) (g : DeletionStage) : Prop :=
  p.Follows DeletionStage.next fits (fun _ _ _ => True) (fun _ g => ∃ a, g = answered a) g

theorem failed_follows {code text : String} : DeletionFollows (respondError code text) failed :=
  ⟨.inl rfl, fun _ _ => ⟨_, rfl⟩⟩

/-- The guard has been passed. -/
def Passed (u : AccountRow) (g : DeletionStage) : Prop :=
  g = found u ∨ (∃ roles, g = checking u roles) ∨ g = admin u

/-- The guard of the last administrator follows the stages. -/
theorem guard_follows {u : AccountRow} {onDone : Bool → AccountProg} {onError : AccountProg}
    (last : DeletionFollows (onDone true) (admin u))
    (goes : ∀ g, Passed u g → DeletionFollows (onDone false) g)
    (error : DeletionFollows onError failed) :
    DeletionFollows (isLastActiveAdmin u.id onDone onError) (found u) := by
  refine follows_sqlOr ⟨rfl, u, rfl⟩ (fun _ _ => error) fun roles => ?_
  show DeletionFollows _ (checking u roles)
  refine Prog.Follows.ite (fun _ => goes _ (.inr (.inl ⟨roles, rfl⟩))) fun _ => ?_
  refine follows_sqlOr ⟨u, roles, rfl, rfl⟩ (fun _ _ => error) fun userRoles => ?_
  show DeletionFollows _ (if u.id ∈ userRoles.map (·.userId) then admin u else found u)
  by_cases mem : u.id ∈ userRoles.map (·.userId)
  · rw [if_pos mem, if_neg (not_not_intro (List.mem_dedup.mpr mem))]
    refine Prog.Follows.ite (fun _ => last) fun _ => ⟨trivial, fun now _ => ?_⟩
    refine follows_sqlOr ⟨u, rfl⟩ (fun _ _ => error) fun others => ?_
    cases decide (others = 0) with
    | true => exact last
    | false => exact goes _ (.inr (.inr rfl))
  · rw [if_neg mem, if_pos fun no => mem (List.mem_dedup.mp no)]
    exact goes _ (.inl rfl)

/-- So does the walk through the organizations. -/
theorem walk_follows {u : AccountRow} {orgIds : List Nat} {done : Bool → String → AccountProg}
    (goes : ∀ text, DeletionFollows (done true text) (walking u orgIds))
    (error : ∀ text, DeletionFollows (done false text) failed) {rest : List Nat}
    (sub : ∀ org ∈ rest, org ∈ orgIds) :
    DeletionFollows (processNextOrg done rest) (walking u orgIds) := by
  induction rest with
  | nil => exact goes ""
  | cons org rest ih =>
      have ih := ih fun org mem => sub org (List.mem_cons_of_mem _ mem)
      refine follows_sqlOr trivial (fun _ _ => ih) fun pending => ?_
      cases pending with
      | none => exact ih
      | some pending =>
          refine follows_sqlOr trivial (fun _ _ => ih) fun _ => ?_
          refine follows_sqlOr ⟨u, orgIds, rfl, sub org List.mem_cons_self⟩ (fun _ _ => error _)
            fun ok => ?_
          cases ok with
          | true => exact ih
          | false => exact error _

/-- So do the successions as a whole. -/
theorem successions_follow {u : AccountRow} {done : Bool → String → AccountProg} {g : DeletionStage}
    (passed : Passed u g)
    (goes : ∀ g text, (∃ owned, g = owning u owned) ∨ (∃ orgIds, g = walking u orgIds) →
      DeletionFollows (done true text) g)
    (error : ∀ text, DeletionFollows (done false text) failed) :
    DeletionFollows (effectPendingSuccessionsForUser u.id done) g := by
  have failing (text : String) :
      DeletionStage.next g (.sql (.ownedOrganizations u.id)) (.error text) = failed := by
    rcases passed with rfl | ⟨_, rfl⟩ | rfl <;> rfl
  have goingOn (owned : List Nat) :
      DeletionStage.next g (.sql (.ownedOrganizations u.id)) (.ok owned) = owning u owned := by
    rcases passed with rfl | ⟨_, rfl⟩ | rfl <;> rfl
  refine follows_sqlOr ⟨u, rfl, passed⟩ (fun text _ => ?_) fun owned => ?_
  · rw [failing]
    exact error _
  · rw [goingOn]
    refine Prog.Follows.ite (fun _ => goes _ _ (.inl ⟨owned, rfl⟩)) fun _ => ?_
    refine follows_sqlOr ⟨u, rfl⟩ (fun _ _ => error _) fun orgIds => ?_
    exact walk_follows (fun text => goes _ text (.inr ⟨orgIds, rfl⟩)) error fun _ => id

/-- So does the write of the account. -/
theorem anonymize_follows {u : AccountRow} (userId anonUsername : String) :
    DeletionFollows (anonymizeAndSoftDelete userId anonUsername) (revoking u) := by
  refine follows_sqlOr (.inr ⟨u, rfl⟩) (fun _ _ => failed_follows) fun rows => ?_
  cases rows with
  | nil => exact failed_follows
  | cons u' _ =>
      refine ⟨trivial, fun now _ => ?_⟩
      refine follows_sqlOr ⟨u', rfl, rfl, anonUsername, now, rfl⟩ (fun _ _ => failed_follows)
        fun _ => ?_
      exact ⟨⟨u', rfl⟩, fun _ _ => ⟨_, rfl⟩⟩

/-- So do the revocations and the write. -/
theorem proceedWithDelete_follows {u : AccountRow} {g : DeletionStage} (userId : String)
    (stage : (∃ owned, g = owning u owned) ∨ ∃ orgIds, g = walking u orgIds) :
    DeletionFollows (proceedWithDelete userId u.id) g := by
  have anonymize : DeletionFollows
      (withNow fun now => anonymizeAndSoftDelete userId (makeAnonUsername now)) (revoking u) :=
    ⟨trivial, fun now _ => anonymize_follows userId _⟩
  have revoked {r : Except String Nat} {userId : String} :
      DeletionStage.next g (.sql (.revokeAccessTokens userId (toString u.id.toInt))) r =
        revoking u := by
    rcases stage with ⟨_, rfl⟩ | ⟨_, rfl⟩ <;> rfl
  refine follows_sqlOr ⟨u, rfl, stage.imp_right .inl⟩ (fun text _ => ?_) fun _ => ?_
  · rw [revoked]
    exact anonymize
  · rw [revoked]
    exact follows_sqlOr ⟨u, rfl, .inr (.inr rfl)⟩ (fun _ _ => anonymize) fun _ => anonymize

/-- **A deletion follows its stages**. -/
theorem deleteAccount_stages (userId : String) : DeletionFollows (deleteAccount userId) idle := by
  refine follows_sqlOr (.inl rfl) (fun _ _ => failed_follows) fun rows => ?_
  cases rows with
  | nil => exact failed_follows
  | cons u _ =>
      refine guard_follows ?_ (fun g passed => ?_) failed_follows
      · exact ⟨.inr ⟨u, rfl⟩, fun _ _ => ⟨_, rfl⟩⟩
      · show DeletionFollows (if false = true then _ else _) g
        rw [if_neg Bool.false_ne_true]
        refine successions_follow passed (fun g text stage => ?_) fun _ => failed_follows
        exact proceedWithDelete_follows userId stage

/-- Only the caller's own subject is looked up and revoked. -/
def OfSub (sub : String) : AccountOp → Prop
  | .sql (.liveUsersOfSub sub') | .sql (.revokeAccessTokens sub' _)
  | .sql (.revokeRefreshTokens sub' _) => sub' = sub
  | _ => True

theorem only_withNow {P : AccountOp → Prop} {rest : Int → AccountProg} (now : P .now)
    (goes : ∀ t, (rest t).Only P) : (withNow rest).Only P :=
  ⟨now, goes⟩

/-- A deletion asks for no account but the caller's. -/
theorem deleteAccount_only (sub : String) : (deleteAccount sub).Only (OfSub sub) := by
  have error (code text : String) : (respondError code text).Only (OfSub sub) :=
    ⟨trivial, fun _ => trivial⟩
  have anonymize : (withNow fun now => anonymizeAndSoftDelete sub (makeAnonUsername now)).Only
      (OfSub sub) := by
    refine only_withNow trivial fun now => ?_
    refine only_sqlOr rfl (fun _ => error _ _) fun rows => ?_
    cases rows with
    | nil => exact error _ _
    | cons u _ =>
        refine only_withNow trivial fun now => ?_
        exact only_sqlOr trivial (fun _ => error _ _) fun _ => ⟨trivial, fun _ => trivial⟩
  refine only_sqlOr rfl (fun _ => error _ _) fun rows => ?_
  cases rows with
  | nil => exact error _ _
  | cons u _ =>
      have guard : (lastAdminGuard u.id).Only (OfSub sub) :=
        lastAdminGuard_only trivial (fun _ => trivial) trivial (fun _ _ => trivial) u.id
      have walk : (successions u.id).Only (OfSub sub) :=
        successions_only trivial (fun _ => trivial) (fun _ => trivial) (fun _ => trivial)
          fun _ _ => trivial
      change (isLastActiveAdmin u.id _ _).Only (OfSub sub)
      rw [isLastActiveAdmin_eq]
      refine guard.bind fun answer => ?_
      rcases answer with _ | lastAdmin
      · exact error _ _
      cases lastAdmin with
      | true => exact error _ _
      | false =>
          rw [afterGuard, if_neg Bool.false_ne_true, effectPendingSuccessionsForUser_eq]
          refine walk.bind fun answer => ?_
          obtain ⟨ok, detail⟩ := answer
          cases ok with
          | false => exact error _ _
          | true =>
              refine only_sqlOr rfl (fun _ => anonymize) fun _ => ?_
              exact only_sqlOr rfl (fun _ => anonymize) fun _ => anonymize

end Follow

/-! ## The accounts -/

namespace DeletionStage

/-- The account that is to be deleted, once it is found. -/
def user? : DeletionStage → Option AccountRow
  | found u | checking u _ | admin u | owning u _ | walking u _ | revoking u | written u => some u
  | _ => none

/-- The account has been written. -/
def deleted : DeletionStage → Bool
  | written _ | answered .accountDeleted => true
  | _ => false

/-- The answer, if the call has given it. -/
def answers : DeletionStage → List AccountAnswer
  | answered answer => [answer]
  | _ => []

/-- Nothing has been written. -/
def early : DeletionStage → Bool
  | idle | found _ | checking _ _ | admin _ | owning _ _ => true
  | _ => false

/-- An error is answered or about to be. -/
def ended : DeletionStage → Bool
  | failed | answered (.error _ _) => true
  | _ => false

/-- The organizations of the user that have been looked up. -/
def orgIds : DeletionStage → List Nat
  | owning _ owned => owned
  | walking _ orgIds => orgIds
  | _ => []

end DeletionStage

section Accounts

/-- The rows after an update. -/
theorem mem_changeUser_iff {users : Table AccountRow.id} {id : Int32} {c : UserChanges}
    {v : AccountRow} : v ∈ (changeUser users id c).rows ↔
      ∃ u ∈ users.rows, (if u.id = id then c.apply u else u) = v := by
  refine List.mem_map.trans (exists_congr fun u => and_congr_right fun _ => ?_)
  simp only [decide_eq_true_eq]

/-- An update keeps the public subjects. -/
theorem map_publicSub_changeUser (users : Table AccountRow.id) (id : Int32) (c : UserChanges) :
    (changeUser users id c).rows.map (·.publicSub) = users.rows.map (·.publicSub) := by
  refine List.map_map.trans (List.map_congr_left fun u _ => ?_)
  simp only [Function.comp_apply, apply_ite, UserChanges.apply_publicSub, ite_self]

/-- The row is deleted under a name that no other user has. -/
def DeletedApart (users : List AccountRow) (u : AccountRow) : Prop :=
  u.deletedAt ≠ none ∧ ∃ name, u.username = some name ∧
    ∀ v ∈ users, v.username = some name → v.id = u.id

/-- The row of the account, as far as the deletion has come. -/
def RowOk (users : List AccountRow) (account : AccountRow) (g : DeletionStage) : Prop :=
  ∃ u ∈ users, u.id = account.id ∧ u.publicSub = account.publicSub ∧
    if g.deleted then DeletedApart users u else u.deletedAt = none

variable {ι : Type} [DecidableEq ι]

/-- The stage of a call, read off the log. -/
abbrev deletionStage (i : ι) (log : List (AccountEvent ι)) : DeletionStage :=
  track (S := AccountSig) DeletionStage.next idle i log

/-- Every call looks up and revokes by the subject of its account. -/
abbrev OwnSubs (accounts : ι → AccountRow) :
    AccountEvent ι → List (AccountEvent ι) → Prop :=
  FitsAll DeletionStage.next idle fun i _ => OfSub (accounts i).publicSub

/-- What the calls keep of the tables. -/
structure Accounted (accounts : ι → AccountRow) (w : AccountWorld ι) : Prop where
  apart : (w.db.users.rows.map (·.publicSub)).Nodup
  row : ∀ i, RowOk w.db.users.rows (accounts i) (deletionStage i w.log)
  user : ∀ i u, (deletionStage i w.log).user? = some u → u.id = (accounts i).id

variable {accounts : ι → AccountRow} {w : AccountWorld ι} {i j : ι} {o : AccountOp}
  {r : AccountSig.Res o} {db : AccountDb} {m : AccountMoment} {u : AccountRow}

/-- A step moves the stage of its own call. -/
theorem deletionStage_own :
    deletionStage i (w.push i o r db).log = DeletionStage.next (deletionStage i w.log) o r :=
  track_own

/-- It moves no other stage. -/
theorem deletionStage_other (ne : j ≠ i) :
    deletionStage j (w.push i o r db).log = deletionStage j w.log :=
  track_other ne

/-- Only an update deletes, only a look-up finds an account, and only a response answers. -/
theorem next_cases {g : DeletionStage} (fit : fits g o)
    (update : ∀ id changes, o ≠ .sql (.updateUser id changes)) :
    (DeletionStage.next g o r).deleted = g.deleted ∧
      ((∀ sub, o ≠ .sql (.liveUsersOfSub sub)) → ∀ u,
        (DeletionStage.next g o r).user? = some u → g.user? = some u) ∧
      ((∀ a, o ≠ .respond a) → (DeletionStage.next g o r).answers = g.answers) := by
  cases o with
  | now => exact ⟨rfl, fun _ _ same => same, fun _ => rfl⟩
  | respond answer =>
      cases answer with
      | error code text =>
          refine ⟨?_, fun _ _ no => absurd no nofun, fun no => absurd rfl (no _)⟩
          rcases fit with rfl | ⟨u, rfl⟩
          · rfl
          · rfl
      | accountDeleted =>
          obtain ⟨u, rfl⟩ := fit
          exact ⟨rfl, fun _ _ no => absurd no nofun, fun no => absurd rfl (no _)⟩
      | _ => cases fit
  | sql s =>
      cases s with
      | pendingNomination | liveUser => exact ⟨rfl, fun _ _ same => same, fun _ => rfl⟩
      | updateUser id changes => exact absurd rfl (update id changes)
      | liveUsersOfSub sub =>
          refine ⟨?_, fun no => absurd rfl (no sub), fun _ => ?_⟩
          · rcases fit with rfl | ⟨u, rfl⟩ <;> rcases r with _ | _ | _ <;> rfl
          · rcases fit with rfl | ⟨u, rfl⟩ <;> rcases r with _ | _ | _ <;> rfl
      | rolesNamed names =>
          obtain ⟨_, u, rfl⟩ := fit
          rcases r with _ | roles
          · exact ⟨rfl, fun _ _ no => absurd no nofun, fun _ => rfl⟩
          · exact ⟨rfl, fun _ _ same => same, fun _ => rfl⟩
      | userRolesIn ids =>
          obtain ⟨u, roles, rfl, _⟩ := fit
          rcases r with _ | userRoles
          · exact ⟨rfl, fun _ _ no => absurd no nofun, fun _ => rfl⟩
          · simp only [DeletionStage.next]
            split
            · exact ⟨rfl, fun _ _ same => same, fun _ => rfl⟩
            · exact ⟨rfl, fun _ _ same => same, fun _ => rfl⟩
      | countActive ids now =>
          obtain ⟨u, rfl⟩ := fit
          rcases r with _ | n
          · exact ⟨rfl, fun _ _ no => absurd no nofun, fun _ => rfl⟩
          · exact ⟨rfl, fun _ _ same => same, fun _ => rfl⟩
      | ownedOrganizations id =>
          obtain ⟨u, _, passed⟩ := fit
          rcases r with _ | owned
          · rcases passed with rfl | ⟨_, rfl⟩ | rfl
            · exact ⟨rfl, fun _ _ no => absurd no nofun, fun _ => rfl⟩
            · exact ⟨rfl, fun _ _ no => absurd no nofun, fun _ => rfl⟩
            · exact ⟨rfl, fun _ _ no => absurd no nofun, fun _ => rfl⟩
          · rcases passed with rfl | ⟨_, rfl⟩ | rfl
            · exact ⟨rfl, fun _ _ same => same, fun _ => rfl⟩
            · exact ⟨rfl, fun _ _ same => same, fun _ => rfl⟩
            · exact ⟨rfl, fun _ _ same => same, fun _ => rfl⟩
      | pendingAmong ids =>
          obtain ⟨u, rfl⟩ := fit
          rcases r with _ | orgIds
          · exact ⟨rfl, fun _ _ no => absurd no nofun, fun _ => rfl⟩
          · exact ⟨rfl, fun _ _ same => same, fun _ => rfl⟩
      | effectSuccession organizationId nominee =>
          obtain ⟨u, orgIds, rfl, _⟩ := fit
          rcases r with _ | _ | _
          · exact ⟨rfl, fun _ _ no => absurd no nofun, fun _ => rfl⟩
          · exact ⟨rfl, fun _ _ no => absurd no nofun, fun _ => rfl⟩
          · exact ⟨rfl, fun _ _ same => same, fun _ => rfl⟩
      | revokeAccessTokens | revokeRefreshTokens =>
          obtain ⟨u, _, ⟨_, rfl⟩ | ⟨_, rfl⟩ | rfl⟩ := fit
          · exact ⟨rfl, fun _ _ same => same, fun _ => rfl⟩
          · exact ⟨rfl, fun _ _ same => same, fun _ => rfl⟩
          · exact ⟨rfl, fun _ _ same => same, fun _ => rfl⟩
      | _ => cases fit
  | _ => cases fit

/-- The look-up of a call finds its account. -/
theorem found_row (accounted : Accounted accounts w) (mem : u ∈ w.db.users.rows)
    (sub : u.publicSub = (accounts i).publicSub) : u.id = (accounts i).id := by
  obtain ⟨u', mem', id, sub', _⟩ := accounted.row i
  rw [List.inj_on_of_nodup_map accounted.apart mem mem' (sub.trans sub'.symm), id]

/-- The account of a call is the one of its subject. -/
theorem user_next (accounted : Accounted accounts w) (fit : fits (deletionStage i w.log) o)
    (own : OfSub (accounts i).publicSub o) (done : execAccount m o w.db = (r, db))
    (user : (DeletionStage.next (deletionStage i w.log) o r).user? = some u) :
    u.id = (accounts i).id := by
  have before := accounted.user i
  have kept (lookUp : ∀ sub, o ≠ .sql (.liveUsersOfSub sub)) : u.id = (accounts i).id := by
    by_cases update : ∀ id changes, o ≠ .sql (.updateUser id changes)
    · exact before u ((next_cases fit update).2.1 lookUp u user)
    · push Not at update
      obtain ⟨id, changes, rfl⟩ := update
      obtain ⟨u', at_, _⟩ := fit
      rw [at_] at user before
      rcases r with _ | n
      · cases user
      · cases user
        exact before u rfl
  cases o with
  | sql s =>
      cases s with
      | liveUsersOfSub sub =>
          have own : sub = (accounts i).publicSub := own
          rcases r with _ | _ | ⟨u', rest⟩
          · rcases fit with at_ | ⟨_, at_⟩ <;> rw [at_] at user <;> cases user
          · rcases fit with at_ | ⟨_, at_⟩ <;> rw [at_] at user <;> cases user
          · have same : u' = u := by
              rcases fit with at_ | ⟨_, at_⟩ <;> rw [at_] at user <;> exact Option.some.inj user
            subst same
            have answer : (execAccount m (.sql (.liveUsersOfSub sub)) w.db).1 = .ok (u' :: rest) :=
              congrArg Prod.fst done
            have mem : u' ∈ w.db.users.rows.filter fun u =>
                u.publicSub = sub ∧ u.deletedAt = none := by
              simp only [execAccount, runStatement] at answer
              split at answer
              · cases answer
              · injection answer with rows
                rw [rows]
                exact List.mem_cons_self
            rw [List.mem_filter, decide_eq_true_eq] at mem
            exact found_row accounted mem.1 (mem.2.1.trans own)
      | _ =>
          refine kept fun sub same => ?_
          cases same
  | _ =>
      refine kept fun sub same => ?_
      cases same

/-- Only the last write of a deletion touches the accounts. -/
theorem writesAccounts_of_fits {g : DeletionStage} (fit : fits g o)
    (update : ∀ id changes, o ≠ .sql (.updateUser id changes)) : o.writesAccounts = false := by
  cases o with
  | sql s =>
      cases s with
      | updateUser id changes => exact absurd rfl (update id changes)
      | clearRoles => cases fit
      | _ => rfl
  | insertNext => cases fit
  | _ => rfl

omit [DecidableEq ι] in
/-- An update that is refused changes no user, and one that is made changes one row. -/
theorem users_updateUser {id : Int32} {changes : UserChanges} {r : Except String Nat}
    (done : execAccount m (.sql (.updateUser id changes)) w.db = (r, db)) :
    (∃ text, r = .error text) ∧ db.users = w.db.users ∨
      (∃ n, r = .ok n) ∧ changes.violated id w.db.users.rows = none ∧
        db.users = changeUser w.db.users id changes := by
  simp only [execAccount, runStatement] at done
  split at done
  · cases done
    exact .inl ⟨⟨_, rfl⟩, rfl⟩
  · split at done
    · cases done
      exact .inl ⟨⟨_, rfl⟩, rfl⟩
    · next eval =>
        cases done
        obtain ⟨free, rfl⟩ := AccountStatement.eval_updateUser eval
        exact .inr ⟨⟨_, rfl⟩, free, rfl⟩

/-- The name is nobody else's. -/
theorem ne_of_not_violated {id : Int32} {c : UserChanges} {users : List AccountRow} {name : String}
    (free : c.violated id users = none) (asked : c.username = some name) {v : AccountRow}
    (mem : v ∈ users) (ne : v.id ≠ id) : v.username ≠ some name := by
  intro same
  have taken :
      (users.any fun u => u.id ≠ id ∧ c.username ≠ none ∧ u.username = c.username) = true :=
    List.any_eq_true.mpr ⟨v, mem, decide_eq_true ⟨ne, by simp [asked], by rw [same, asked]⟩⟩
  rw [UserChanges.violated, if_pos taken] at free
  cases free

/-- The row of an account after its own deletion. -/
theorem rowOk_changed {users : Table AccountRow.id} {account : AccountRow} {username : String}
    {now : Int} {g : DeletionStage} (row : RowOk users.rows account g)
    (free : (deletion username now).violated account.id users.rows = none) (u : AccountRow) :
    RowOk (changeUser users account.id (deletion username now)).rows account (written u) := by
  obtain ⟨v, mem, id, sub, live⟩ := row
  refine ⟨(deletion username now).apply v, mem_changeUser_iff.mpr ⟨v, mem, if_pos id⟩, id, sub, ?_⟩
  refine ⟨nofun, username, rfl, fun v' mem' name => ?_⟩
  obtain ⟨before, there, rfl⟩ := mem_changeUser_iff.mp mem'
  by_cases same : before.id = account.id
  · rw [if_pos same]
    exact same.trans id.symm
  · rw [if_neg same] at name
    exact absurd name (ne_of_not_violated free rfl there same)

/-- The row of another account stays. -/
theorem rowOk_unchanged {users : Table AccountRow.id} {account : AccountRow} {id : Int32}
    {username : String} {now : Int} {g : DeletionStage} (row : RowOk users.rows account g)
    (ne : account.id ≠ id) (free : (deletion username now).violated id users.rows = none) :
    RowOk (changeUser users id (deletion username now)).rows account g := by
  obtain ⟨v, mem, key, sub, ok⟩ := row
  have other : v.id ≠ id := fun same => ne (key.symm.trans same)
  refine ⟨v, mem_changeUser_iff.mpr ⟨v, mem, if_neg other⟩, key, sub, ?_⟩
  split
  · next deleted =>
      rw [if_pos deleted] at ok
      obtain ⟨gone, name, has, apart⟩ := ok
      refine ⟨gone, name, has, fun v' mem' name' => ?_⟩
      obtain ⟨before, there, rfl⟩ := mem_changeUser_iff.mp mem'
      by_cases same : before.id = id
      · rw [if_pos same] at name'
        have asked : username = name := Option.some.inj name'
        subst asked
        exact absurd has (ne_of_not_violated free rfl mem other)
      · rw [if_neg same] at name' ⊢
        exact apart before there name'
  · next live =>
      rw [if_neg live] at ok
      exact ok

/-- **The tables are accounted for after every step**. -/
theorem Accounted.push (inj : ∀ i j, (accounts i).id = (accounts j).id → i = j)
    (accounted : Accounted accounts w) (fit : fits (deletionStage i w.log) o)
    (own : OfSub (accounts i).publicSub o) (done : execAccount m o w.db = (r, db)) :
    Accounted accounts (w.push i o r db) := by
  have user : ∀ j u, (deletionStage j (w.push i o r db).log).user? = some u →
      u.id = (accounts j).id := by
    intro j u user
    by_cases eq : j = i
    · subst eq
      rw [deletionStage_own] at user
      exact user_next accounted fit own done user
    · rw [deletionStage_other eq] at user
      exact accounted.user j u user
  by_cases update : ∀ id changes, o ≠ .sql (.updateUser id changes)
  · have users := (execAccount_others (writesAccounts_of_fits fit update) m w.db).1
    rw [done] at users
    refine ⟨?_, fun j => ?_, user⟩
    · rw [World.push_db, users]
      exact accounted.apart
    · rw [World.push_db, users]
      have row := accounted.row j
      by_cases eq : j = i
      · subst eq
        rw [deletionStage_own]
        unfold RowOk at row ⊢
        rw [(next_cases fit update).1]
        exact row
      · rw [deletionStage_other eq]
        exact row
  · push Not at update
    obtain ⟨id, changes, rfl⟩ := update
    obtain ⟨u, at_, rfl, username, now, rfl⟩ := fit
    have key : u.id = (accounts i).id := accounted.user i u (by rw [at_]; rfl)
    rcases users_updateUser done with ⟨⟨text, rfl⟩, users⟩ | ⟨⟨n, rfl⟩, free, users⟩
    · refine ⟨?_, fun j => ?_, user⟩
      · rw [World.push_db, users]
        exact accounted.apart
      · rw [World.push_db, users]
        have row := accounted.row j
        by_cases eq : j = i
        · subst eq
          rw [deletionStage_own, at_]
          rw [at_] at row
          exact row
        · rw [deletionStage_other eq]
          exact row
    · refine ⟨?_, fun j => ?_, user⟩
      · rw [World.push_db, users, map_publicSub_changeUser]
        exact accounted.apart
      · rw [World.push_db, users]
        have row := accounted.row j
        by_cases eq : j = i
        · subst eq
          rw [deletionStage_own, at_]
          rw [at_] at row
          rw [key] at free ⊢
          exact rowOk_changed row free u
        · rw [deletionStage_other eq]
          exact rowOk_unchanged row (fun same => eq (inj j i (same.trans key))) free

end Accounts

/-! ## Calls side by side -/

section SideBySide

variable {ι : Type} [DecidableEq ι] {accounts : ι → AccountRow} {w : AccountWorld ι} {i j : ι}
  {o : AccountOp} {r : AccountSig.Res o} {db : AccountDb} {m : AccountMoment} {u : AccountRow}

/-- The name that a deletion writes is free when it is written, and a nomination that it effects
is still pending. -/
def Unobstructed (e : AccountEvent ι) (_ : List (AccountEvent ι)) : Prop :=
  match e.op with
  | .sql (.updateUser id changes) => changes.violated id e.pre.users.rows = none
  | .sql (.effectSuccession organizationId nominee) =>
    e.pre.nominations.any fun v =>
      AccountStatement.isPending organizationId v ∧ v.nomineeUserId = nominee
  | _ => True

instance (e : AccountEvent ι) (log : List (AccountEvent ι)) : Decidable (Unobstructed e log) := by
  unfold Unobstructed
  split
  · infer_instance
  · infer_instance
  · infer_instance

/-- What the thread has answered, the latest first. -/
def answersOf (i : ι) : List (AccountEvent ι) → List AccountAnswer
  | [] => []
  | e :: log =>
    match e.op with
    | .respond answer => if e.thread = i then answer :: answersOf i log else answersOf i log
    | _ => answersOf i log

theorem answersOf_other (ne : j ≠ i) : answersOf j (w.push i o r db).log = answersOf j w.log := by
  cases o with
  | respond answer => exact if_neg ne.symm
  | _ => rfl

/-- The call has met with no error, and is about to meet none. -/
def Smooth (g : DeletionStage) (roles : List RoleRow) : Prop :=
  match g with
  | failed | admin _ => False
  | checking _ checked => ∀ role ∈ checked, role ∈ roles ∧ role.name = "admin"
  | answered answer => answer = .accountDeleted
  | _ => True

/-- The invariant of a run in which nothing is in the way. -/
structure GoingWell (accounts : ι → AccountRow) (w : AccountWorld ι) : Prop where
  accounted : Accounted accounts w
  users : ∀ i, ¬ IsAdmin w.db (accounts i).id
  smooth : ∀ i, Smooth (deletionStage i w.log) w.db.roles.rows
  answers : ∀ i, answersOf i w.log = (deletionStage i w.log).answers

/-- A step of a run in which nothing is in the way. -/
theorem smooth_next (well : GoingWell accounts w) (fit : fits (deletionStage i w.log) o)
    (own : OfSub (accounts i).publicSub o) (done : execSound m i o w.db = some (r, db))
    (unobstructed : Unobstructed ⟨i, w.tick, o, r, w.db⟩ w.log) :
    Smooth (DeletionStage.next (deletionStage i w.log) o r) w.db.roles.rows := by
  have before := well.smooth i
  have row := well.accounted.row i
  cases o with
  | now => exact before
  | respond answer =>
      cases answer with
      | error code text =>
          rcases fit with at_ | ⟨u, at_⟩
          · rw [at_] at before
            cases before
          · rw [at_] at before
            cases before
      | accountDeleted => rfl
      | _ => cases fit
  | sql s =>
      cases s with
      | pendingNomination | liveUser => exact before
      | updateUser id changes =>
          obtain ⟨u, at_, _⟩ := fit
          have free : changes.violated id w.db.users.rows = none := unobstructed
          simp only [execSound, execAccount, runStatement, AccountStatement.eval, free] at done
          cases done
          rw [at_]
          trivial
      | liveUsersOfSub sub =>
          have own : sub = (accounts i).publicSub := own
          cases done
          obtain ⟨v, mem, _, sub', live⟩ := row
          have there :
              v ∈ w.db.users.rows.filter fun u => u.publicSub = sub ∧ u.deletedAt = none := by
            rw [List.mem_filter, decide_eq_true_eq]
            refine ⟨mem, sub'.trans own.symm, ?_⟩
            rcases fit with at_ | ⟨_, at_⟩
            · rw [at_] at live
              exact live
            · rw [at_] at live
              exact live
          cases rows : w.db.users.rows.filter fun u => u.publicSub = sub ∧ u.deletedAt = none with
          | nil =>
              rw [rows] at there
              cases there
          | cons u rest =>
              rcases fit with at_ | ⟨_, at_⟩
              · rw [at_]
                trivial
              · rw [at_]
                trivial
      | rolesNamed names =>
          cases done
          obtain ⟨rfl, u, at_⟩ := fit
          rw [at_]
          intro role mem
          rw [List.mem_filter, decide_eq_true_eq, List.mem_singleton] at mem
          exact mem
      | userRolesIn ids =>
          cases done
          obtain ⟨u, roles, at_, rfl⟩ := fit
          have key : u.id = (accounts i).id := well.accounted.user i u (by rw [at_]; rfl)
          rw [at_] at before ⊢
          simp only [DeletionStage.next]
          split
          · next mem =>
              obtain ⟨row, has, user⟩ := List.mem_map.mp mem
              rw [List.mem_filter, decide_eq_true_eq] at has
              obtain ⟨role, checked, same⟩ := List.mem_map.mp has.2
              refine absurd ⟨role, (before role checked).1, (before role checked).2, ?_⟩
                (well.users i)
              rw [same, ← key, ← user]
              exact has.1
          · trivial
      | countActive ids now =>
          obtain ⟨u, at_⟩ := fit
          rw [at_] at before
          cases before
      | ownedOrganizations id =>
          cases done
          obtain ⟨u, _, at_ | ⟨_, at_⟩ | at_⟩ := fit
          · rw [at_]
            trivial
          · rw [at_]
            trivial
          · rw [at_]
            trivial
      | pendingAmong ids =>
          cases done
          obtain ⟨u, at_⟩ := fit
          rw [at_]
          trivial
      | effectSuccession organizationId nominee =>
          obtain ⟨u, orgIds, at_, _⟩ := fit
          have pending : w.db.nominations.any (fun v =>
            AccountStatement.isPending organizationId v ∧ v.nomineeUserId = nominee) = true :=
              unobstructed
          simp only [execSound, execAccount, runStatement, AccountStatement.eval, if_pos pending]
            at done
          cases done
          rw [at_]
          trivial
      | revokeAccessTokens | revokeRefreshTokens =>
          obtain ⟨u, _, ⟨_, at_⟩ | ⟨_, at_⟩ | at_⟩ := fit
          · rw [at_]
            trivial
          · rw [at_]
            trivial
          · rw [at_]
            trivial
      | _ => cases fit
  | _ => cases fit

/-- The answers of a call are those of its stage. -/
theorem answers_next (before : answersOf i w.log = (deletionStage i w.log).answers)
    (fit : fits (deletionStage i w.log) o) :
    answersOf i (w.push i o r db).log =
      (DeletionStage.next (deletionStage i w.log) o r).answers := by
  have others (quiet : ∀ a, o ≠ .respond a) : answersOf i (w.push i o r db).log =
      (DeletionStage.next (deletionStage i w.log) o r).answers := by
    have same : answersOf i (w.push i o r db).log = answersOf i w.log := by
      cases o with
      | respond a => exact absurd rfl (quiet a)
      | _ => rfl
    rw [same, before]
    by_cases update : ∀ id changes, o ≠ .sql (.updateUser id changes)
    · exact ((next_cases fit update).2.2 quiet).symm
    · push Not at update
      obtain ⟨id, changes, rfl⟩ := update
      obtain ⟨u, at_, _⟩ := fit
      rw [at_]
      rcases r with _ | _ <;> rfl
  cases o with
  | respond answer =>
      have nothing : (deletionStage i w.log).answers = [] := by
        cases answer with
        | error code text =>
            rcases fit with at_ | ⟨u, at_⟩
            · rw [at_]
              rfl
            · rw [at_]
              rfl
        | accountDeleted =>
            obtain ⟨u, at_⟩ := fit
            rw [at_]
            rfl
        | _ => cases fit
      refine (if_pos rfl).trans ?_
      rw [before, nothing]
      rfl
  | _ => exact others nofun

/-- A deletion takes no role away. -/
theorem isAdmin_kept (fit : fits (deletionStage i w.log) o)
    (done : execAccount m o w.db = (r, db)) (id : Int32) : IsAdmin db id ↔ IsAdmin w.db id := by
  have roles := (execAccount_roles m o w.db).1
  have userRoles : (execAccount m o w.db).2.userRoles = w.db.userRoles := by
    by_cases update : ∀ id changes, o ≠ .sql (.updateUser id changes)
    · exact (execAccount_others (writesAccounts_of_fits fit update) m w.db).2.2.1
    · push Not at update
      obtain ⟨id, changes, rfl⟩ := update
      simp only [execAccount, runStatement]
      split
      · rfl
      · split
        · rfl
        · next eval =>
            rw [(AccountStatement.eval_updateUser eval).2]
  rw [done] at roles userRoles
  unfold IsAdmin
  rw [roles, userRoles]

/-- **Every step keeps a run without obstacles going**. -/
theorem goingWell_kept (inj : ∀ i j, (accounts i).id = (accounts j).id → i = j) :
    KeptByFitting (execSound : Attempt AccountSig ι AccountDb AccountMoment)
      (fun e log => OwnSubs accounts e log ∧ Unobstructed e log) DeletionStage.next .idle fits
      (fun _ _ _ => True) (GoingWell accounts) := by
  rintro w i o m r db well fit done ⟨own, unobstructed⟩
  have executed : execAccount { m with fault := none } o w.db = (r, db) := Option.some.inj done
  refine ⟨trivial, well.accounted.push inj fit own executed, fun j => ?_, fun j => ?_, fun j => ?_⟩
  · rw [World.push_db, isAdmin_kept fit executed]
    exact well.users j
  · have roles := (execAccount_roles { m with fault := none } o w.db).1
    rw [executed] at roles
    rw [World.push_db, roles]
    by_cases eq : j = i
    · subst eq
      rw [deletionStage_own]
      exact smooth_next well fit own done unobstructed
    · rw [deletionStage_other eq]
      exact well.smooth j
  · by_cases eq : j = i
    · subst eq
      rw [deletionStage_own]
      exact answers_next (well.answers j) fit
    · rw [answersOf_other eq, deletionStage_other eq]
      exact well.answers j

theorem ownSubs (accounts : ι → AccountRow) {exec : Attempt AccountSig ι AccountDb AccountMoment}
    {db : AccountDb} (sched : List (ι × AccountMoment)) : Abides (OwnSubs accounts)
      ((Pool.mk (World.start db) fun i => deleteAccount (accounts i).publicSub).play exec
        sched).store.log :=
  Pool.play_fits (Q := fun _ _ _ => True) rfl
    (fun i => (deleteAccount_only (accounts i).publicSub).follows (fun _ _ only => only) idle) sched

/-- What every account is before the calls. -/
theorem accounted_start {db : AccountDb} (apart : (db.users.rows.map (·.publicSub)).Nodup)
    (live : ∀ i, accounts i ∈ db.users.rows ∧ (accounts i).deletedAt = none) :
    Accounted accounts (World.start db : AccountWorld ι) :=
  ⟨apart, fun i => ⟨accounts i, (live i).1, rfl, rfl, (live i).2⟩, fun _ _ no => absurd no nofun⟩

/-- What a run of deletions side by side comes to. -/
theorem side_by_side {db : AccountDb} (apart : (db.users.rows.map (·.publicSub)).Nodup)
    (inj : Function.Injective accounts)
    (live : ∀ i, accounts i ∈ db.users.rows ∧ (accounts i).deletedAt = none)
    (users : ∀ i, ¬ IsAdmin db (accounts i).id) (sched : List (ι × AccountMoment))
    (unobstructed : Abides Unobstructed
      (runAccounts db (fun i => deleteAccount (accounts i).publicSub) sched).store.log) :
    let c := runAccounts db (fun i => deleteAccount (accounts i).publicSub) sched
    ∀ i, c.answer? i = some () → answersOf i c.store.log = [.accountDeleted] ∧
      ∃ u ∈ c.store.db.users.rows, u.id = (accounts i).id ∧
        DeletedApart c.store.db.users.rows u := by
  intro c i answered
  have ids (i j : ι) (same : (accounts i).id = (accounts j).id) : i = j :=
    inj (List.inj_on_of_nodup_map db.users.nodup (live i).1 (live j).1 same)
  have start : GoingWell accounts (World.start db : AccountWorld ι) :=
    ⟨accounted_start apart live, users, fun _ => trivial, fun _ => rfl⟩
  obtain ⟨well, ends⟩ := Pool.play_follows (c := ⟨World.start db, fun i =>
    deleteAccount (accounts i).publicSub⟩) (goingWell_kept ids) start rfl
    (fun i => deleteAccount_stages (accounts i).publicSub) sched ((ownSubs accounts sched).and
      unobstructed)
  have well : GoingWell accounts c.store := well
  obtain ⟨answer, stands⟩ : ∃ a, deletionStage i c.store.log = .answered a := ends i () answered
  have smooth := well.smooth i
  rw [stands] at smooth
  cases smooth
  refine ⟨(well.answers i).trans (by rw [stands]; rfl), ?_⟩
  obtain ⟨u, mem, id, _, ok⟩ := well.accounted.row i
  rw [stands] at ok
  exact ⟨u, mem, id, ok⟩

end SideBySide

/-! ## One call that fails -/

/-- The user has an owner's seat in the organization. -/
def Seated (members : List OrganizationMember) (userId : Int32) (organizationId : Nat) : Prop :=
  ∃ m ∈ members, m.organizationId = organizationId ∧ m.userId = userId ∧ m.role = .owner

/-- The user is an owner of the organization. -/
def Owns (db : AccountDb) (userId : Int32) (organizationId : Nat) : Prop :=
  Seated db.members userId organizationId

/-- Tokens and the ownerships of the user are as they were. -/
def Intact (before after : AccountDb) (userId : Int32) : Prop :=
  after.accessTokens = before.accessTokens ∧ after.refreshTokens = before.refreshTokens ∧
    ∀ organizationId, Owns after userId organizationId ↔ Owns before userId organizationId

/-- At most one nomination of an organization is pending. -/
def OnePending (db : AccountDb) : Prop :=
  ∀ organizationId, (db.nominations.filter (AccountStatement.isPending organizationId)).length ≤ 1

section Failing

variable {ι : Type}

/-- The event revokes a token, or hands an ownership of the user over. -/
def Takes (userId : Int32) (e : AccountEvent ι) : Prop :=
  match e with
  | ⟨_, _, .sql (.effectSuccession organizationId nominee), .ok true, pre⟩ =>
    nominee ≠ userId ∧ Owns pre userId organizationId
  | ⟨_, _, .sql (.revokeAccessTokens publicSub internalId), .ok _, pre⟩ =>
    ∃ t ∈ pre.accessTokens, AccountStatement.revoke publicSub internalId t ≠ t
  | ⟨_, _, .sql (.revokeRefreshTokens publicSub internalId), .ok _, pre⟩ =>
    ∃ t ∈ pre.refreshTokens, AccountStatement.revoke publicSub internalId t ≠ t
  | _ => False

/-- A look-up does not find the account, or the update of it or a succession fails. -/
def Fails (e : AccountEvent ι) : Prop :=
  match e with
  | ⟨_, _, .sql (.liveUsersOfSub _), r, _⟩ => ∀ u rows, r ≠ .ok (u :: rows)
  | ⟨_, _, .sql (.updateUser _ _), .error _, _⟩ => True
  | ⟨_, _, .sql (.effectSuccession _ _), r, _⟩ => r ≠ .ok true
  | _ => False

/-- Something fails when something has been taken. -/
def FailsAfterTaking (userId : Int32) : List (AccountEvent ι) → Prop
  | [] => False
  | e :: log => Fails e ∧ (∃ e' ∈ log, Takes userId e') ∨ FailsAfterTaking userId log

end Failing

section SeatNominee

open AccountStatement

variable {members : List OrganizationMember} {organizationId org serial : Nat} {nominee uid : Int32}

/-- The other owners are demoted. -/
theorem seated_demoted : Seated (members.map fun m =>
    if m.organizationId = organizationId ∧ m.role = .owner ∧ m.userId ≠ nominee then
      { m with role := .admin }
    else m) uid org ↔ Seated members uid org ∧ (org = organizationId → uid = nominee) := by
  constructor
  · rintro ⟨m', mem, rfl, rfl, owner⟩
    obtain ⟨m, there, rfl⟩ := List.mem_map.mp mem
    split at owner
    · cases owner
    · next stays =>
        rw [if_neg stays]
        exact ⟨⟨m, there, rfl, rfl, owner⟩, fun same => by_contra fun ne => stays ⟨same, owner, ne⟩⟩
  · rintro ⟨⟨m, there, rfl, rfl, owner⟩, same⟩
    exact ⟨m, List.mem_map.mpr ⟨m, there, if_neg fun no => no.2.2 (same no.1)⟩, rfl, rfl, owner⟩

/-- The nominee's seat is promoted. -/
theorem seated_promoted : Seated (members.map fun m =>
    if decide (m.organizationId = organizationId ∧ m.userId = nominee) = true then
      { m with role := .owner }
    else m) uid org ↔ Seated members uid org ∨
      (org = organizationId ∧ uid = nominee) ∧
        ∃ m ∈ members, m.organizationId = organizationId ∧ m.userId = nominee := by
  constructor
  · rintro ⟨m', mem, rfl, rfl, owner⟩
    obtain ⟨m, there, rfl⟩ := List.mem_map.mp mem
    split at owner
    · next seat =>
        rw [if_pos seat]
        exact .inr ⟨of_decide_eq_true seat, m, there, of_decide_eq_true seat⟩
    · next other =>
        rw [if_neg other]
        exact .inl ⟨m, there, rfl, rfl, owner⟩
  · rintro (⟨m, there, rfl, rfl, owner⟩ | ⟨⟨rfl, rfl⟩, m, there, seat⟩)
    · refine ⟨_, List.mem_map.mpr ⟨m, there, rfl⟩, ?_⟩
      split
      · exact ⟨rfl, rfl, rfl⟩
      · exact ⟨rfl, rfl, owner⟩
    · refine ⟨_, List.mem_map.mpr ⟨m, there, rfl⟩, ?_⟩
      rw [if_pos (decide_eq_true seat)]
      exact ⟨seat.1, seat.2, rfl⟩

/-- The nominee becomes the only owner. -/
theorem seated_seatNominee : Seated (seatNominee organizationId nominee serial members) uid org ↔
    if org = organizationId then uid = nominee else Seated members uid org := by
  unfold seatNominee
  rw [seated_demoted]
  by_cases any :
    members.any (fun m => m.organizationId = organizationId ∧ m.userId = nominee) = true
  · rw [if_pos any, seated_promoted]
    obtain ⟨m, there, seat⟩ := List.any_eq_true.mp any
    split
    · next same =>
        exact ⟨fun held => held.2 same, fun eq =>
          ⟨.inr ⟨⟨same, eq⟩, m, there, of_decide_eq_true seat⟩, fun _ => eq⟩⟩
    · next ne => simp [ne]
  · have cons (m : OrganizationMember) : Seated (m :: members) uid org ↔
        (m.organizationId = org ∧ m.userId = uid ∧ m.role = .owner) ∨ Seated members uid org := by
      simp only [Seated, List.mem_cons, exists_eq_or_imp]
    rw [if_neg any, cons]
    split
    · next same =>
        exact ⟨fun held => held.2 same, fun eq => ⟨.inl ⟨same.symm, eq.symm, rfl⟩, fun _ => eq⟩⟩
    · next ne => simp [ne, Ne.symm ne]

end SeatNominee

/-- The operation revokes tokens or hands an organization over. -/
def writesHoldings : AccountOp → Bool
  | .sql (.effectSuccession _ _) | .sql (.revokeAccessTokens _ _) => true
  | .sql (.revokeRefreshTokens _ _) => true
  | _ => false

/-- The other operations leave tokens and organizations alone. -/
theorem execAccount_holdings {o : AccountOp} (others : writesHoldings o = false) (m : AccountMoment)
    (db : AccountDb) :
    (execAccount m o db).2.accessTokens = db.accessTokens ∧
      (execAccount m o db).2.refreshTokens = db.refreshTokens ∧
        (execAccount m o db).2.members = db.members ∧
          (execAccount m o db).2.nominations = db.nominations := by
  cases o with
  | sql s =>
      simp only [execAccount, runStatement]
      split
      · exact ⟨rfl, rfl, rfl, rfl⟩
      · split
        · exact ⟨rfl, rfl, rfl, rfl⟩
        · next eval =>
            cases s with
            | effectSuccession | revokeAccessTokens | revokeRefreshTokens => cases others
            | updateUser id changes =>
                rw [(AccountStatement.eval_updateUser eval).2]
                exact ⟨rfl, rfl, rfl, rfl⟩
            | clearRoles | consumeVerificationToken =>
                cases eval
                exact ⟨rfl, rfl, rfl, rfl⟩
            | insertVerificationToken row =>
                simp only [AccountStatement.eval] at eval
                split at eval
                · cases eval
                · cases eval
                  exact ⟨rfl, rfl, rfl, rfl⟩
            | _ =>
                rw [AccountStatement.eval_query rfl eval]
                exact ⟨rfl, rfl, rfl, rfl⟩
  | insertNext userId first others =>
      simp only [execAccount, insertUserRole]
      split
      · exact ⟨rfl, rfl, rfl, rfl⟩
      · split
        · exact ⟨rfl, rfl, rfl, rfl⟩
        · exact ⟨rfl, rfl, rfl, rfl⟩
  | _ => exact ⟨rfl, rfl, rfl, rfl⟩

section Holdings

open AccountStatement

/-- What is left of the holdings of an account that is being deleted. -/
structure Holdings (before : AccountDb) (u : AccountRow) (db : AccountDb) : Prop where
  access : db.accessTokens = before.accessTokens ∨
    db.accessTokens = before.accessTokens.map (revoke u.publicSub (toString u.id.toInt))
  refresh : db.refreshTokens = before.refreshTokens ∨
    db.refreshTokens = before.refreshTokens.map (revoke u.publicSub (toString u.id.toInt))
  owners : ∀ org, Owns db u.id org → Owns before u.id org
  /-- What has been handed over has no nomination left. -/
  lost : ∀ org, Owns before u.id org → Owns db u.id org ∨ ∀ v ∈ db.nominations, ¬ isPending org v
  agreed : ∀ org, ∀ v ∈ db.nominations, ∀ v' ∈ db.nominations, isPending org v → isPending org v' →
    v.nomineeUserId = v'.nomineeUserId

theorem Holdings.start {db : AccountDb} {u : AccountRow} (one : OnePending db) :
    Holdings db u db := by
  refine ⟨.inl rfl, .inl rfl, fun _ => id, fun _ => .inl,
    fun org v mem v' mem' pending pending' => ?_⟩
  have mem := List.mem_filter.mpr ⟨mem, pending⟩
  have mem' := List.mem_filter.mpr ⟨mem', pending'⟩
  have length := one org
  cases rows : db.nominations.filter (isPending org) with
  | nil =>
      rw [rows] at mem
      cases mem
  | cons x rest =>
      rw [rows] at mem mem' length
      have alone : rest = [] :=
        List.length_eq_zero_iff.mp (Nat.le_zero.mp (Nat.le_of_succ_le_succ length))
      subst alone
      rw [List.mem_singleton.mp mem, List.mem_singleton.mp mem']

/-- Revoking twice is revoking once. -/
theorem revoke_revoke (publicSub internalId : String) (t : OwnedToken) :
    revoke publicSub internalId (revoke publicSub internalId t) =
      revoke publicSub internalId t := by
  unfold revoke
  split
  · rfl
  · rfl

/-- A revocation changes nothing exactly if there is nothing to revoke. -/
theorem map_revoke_eq_self {publicSub internalId : String} {l : List OwnedToken} :
    l.map (revoke publicSub internalId) = l ↔ ¬ ∃ t ∈ l, revoke publicSub internalId t ≠ t := by
  push Not
  conv_lhs => rw [← List.map_id l]
  rw [List.map_map, List.map_inj_left]
  rfl

/-- The tokens after a revocation, which are as they were if there was nothing to revoke. -/
theorem revoked_again {before l : List OwnedToken} {publicSub internalId : String}
    (held : l = before ∨ l = before.map (revoke publicSub internalId)) :
    (l.map (revoke publicSub internalId) = before ∨
        l.map (revoke publicSub internalId) = before.map (revoke publicSub internalId)) ∧
      (l.map (revoke publicSub internalId) = before ↔
        (¬ ∃ t ∈ l, revoke publicSub internalId t ≠ t) ∧ l = before) := by
  rw [← map_revoke_eq_self]
  rcases held with rfl | rfl
  · exact ⟨.inr rfl, fun same => ⟨same, rfl⟩, fun same => same.1⟩
  · have again : (before.map (revoke publicSub internalId)).map (revoke publicSub internalId) =
        before.map (revoke publicSub internalId) := by
      rw [List.map_map]
      exact List.map_congr_left fun t _ => revoke_revoke publicSub internalId t
    rw [again]
    exact ⟨.inr rfl, fun same => ⟨rfl, same⟩, fun same => same.2⟩

variable {before : AccountDb} {u : AccountRow} {w : AccountWorld Unit} {o : AccountOp}
  {r : AccountSig.Res o} {db : AccountDb} {m : AccountMoment}

/-- What an event leaves of the holdings, and when it leaves them intact. -/
abbrev Effect (before : AccountDb) (u : AccountRow) (w : AccountWorld Unit) (o : AccountOp)
    (r : AccountSig.Res o) (db : AccountDb) : Prop :=
  Holdings before u db ∧ (Intact before db u.id ↔
    ¬ Takes u.id (⟨(), w.tick, o, r, w.db⟩ : AccountEvent Unit) ∧ Intact before w.db u.id)

/-- Nothing is taken when the tables stay. -/
theorem effect_of_same (holdings : Holdings before u w.db)
    (takes : ¬ Takes u.id (⟨(), w.tick, o, r, w.db⟩ : AccountEvent Unit))
    (access : db.accessTokens = w.db.accessTokens) (refresh : db.refreshTokens = w.db.refreshTokens)
    (members : db.members = w.db.members) (nominations : db.nominations = w.db.nominations) :
    Effect before u w o r db := by
  have owns (org : Nat) : Owns db u.id org ↔ Owns w.db u.id org := by
    unfold Owns
    rw [members]
  refine ⟨⟨?_, ?_, ?_, ?_, ?_⟩, ?_⟩
  · rw [access]
    exact holdings.access
  · rw [refresh]
    exact holdings.refresh
  · exact fun org owned => holdings.owners org ((owns org).mp owned)
  · rw [nominations]
    exact fun org owned => (holdings.lost org owned).imp_left (owns org).mpr
  · rw [nominations]
    exact holdings.agreed
  · rw [and_iff_right takes]
    unfold Intact
    rw [access, refresh]
    simp only [owns]

/-- What the revocation of the access tokens has done. -/
theorem effect_revokeAccess (holdings : Holdings before u w.db)
    {r : Except String Nat} (done : execAccount m
      (.sql (.revokeAccessTokens u.publicSub (toString u.id.toInt))) w.db = (r, db)) :
    Effect before u w (.sql (.revokeAccessTokens u.publicSub (toString u.id.toInt))) r db := by
  simp only [execAccount, runStatement] at done
  split at done
  · cases done
    exact effect_of_same holdings id rfl rfl rfl rfl
  · cases done
    obtain ⟨access, same⟩ := revoked_again holdings.access
    refine ⟨⟨access, holdings.refresh, holdings.owners, holdings.lost, holdings.agreed⟩, ?_⟩
    refine (and_congr_left fun _ => same).trans ?_
    exact and_assoc

/-- What the revocation of the refresh tokens has done. -/
theorem effect_revokeRefresh (holdings : Holdings before u w.db)
    {r : Except String Nat} (done : execAccount m
      (.sql (.revokeRefreshTokens u.publicSub (toString u.id.toInt))) w.db = (r, db)) :
    Effect before u w (.sql (.revokeRefreshTokens u.publicSub (toString u.id.toInt))) r db := by
  simp only [execAccount, runStatement] at done
  split at done
  · cases done
    exact effect_of_same holdings id rfl rfl rfl rfl
  · cases done
    obtain ⟨refresh, same⟩ := revoked_again holdings.refresh
    refine ⟨⟨holdings.access, refresh, holdings.owners, holdings.lost, holdings.agreed⟩, ?_⟩
    refine (and_congr_right fun _ => and_congr_left fun _ => same).trans ?_
    constructor
    · rintro ⟨access, ⟨takes, refresh⟩, owns⟩
      exact ⟨takes, access, refresh, owns⟩
    · rintro ⟨takes, access, refresh, owns⟩
      exact ⟨access, ⟨takes, refresh⟩, owns⟩

/-- A nomination that is still pending has not been touched. -/
theorem pending_of_accept {org org' : Nat} {nominee : Int32} {v : SuccessionNomination}
    (pending : isPending org' (accept org nominee v) = true) :
    accept org nominee v = v ∧ isPending org' v = true ∧
      ¬ (isPending org v = true ∧ v.nomineeUserId = nominee) := by
  unfold accept at pending ⊢
  split at pending
  · simp [isPending] at pending
  · next other => exact ⟨if_neg other, pending, other⟩

/-- What a succession has done. -/
theorem effect_effectSuccession {org : Nat} {nominee : Int32} (holdings : Holdings before u w.db)
    (owned : Owns before u.id org) {r : Except String Bool}
    (done : execAccount m (.sql (.effectSuccession org nominee)) w.db = (r, db)) :
    Effect before u w (.sql (.effectSuccession org nominee)) r db := by
  simp only [execAccount, runStatement] at done
  split at done
  · cases done
    exact effect_of_same holdings id rfl rfl rfl rfl
  · by_cases any :
      w.db.nominations.any (fun v => isPending org v ∧ v.nomineeUserId = nominee) = true
    · simp only [AccountStatement.eval, if_pos any] at done
      cases done
      obtain ⟨v, mem, matches_⟩ := List.any_eq_true.mp any
      obtain ⟨pending, named⟩ := of_decide_eq_true matches_
      have owner : Owns w.db u.id org := (holdings.lost org owned).resolve_right fun none =>
        none v mem pending
      have seated (org' : Nat) :
          Seated (seatNominee org nominee w.db.serial w.db.members) u.id org' ↔
            if org' = org then u.id = nominee else Owns w.db u.id org' :=
        seated_seatNominee
      refine ⟨⟨holdings.access, holdings.refresh, fun org' => ?_, fun org' before' => ?_, ?_⟩, ?_⟩
      · intro now
        have now := (seated org').mp now
        split at now
        · next same => exact same ▸ owned
        · exact holdings.owners org' now
      · by_cases same : org' = org
        · by_cases self : u.id = nominee
          · exact .inl ((seated org').mpr (by rwa [if_pos same]))
          · right
            intro v' mem' pending'
            obtain ⟨v₀, mem₀, rfl⟩ := List.mem_map.mp mem'
            obtain ⟨_, pending₀, other⟩ := pending_of_accept pending'
            rw [same] at pending₀
            exact other ⟨pending₀, (holdings.agreed org v₀ mem₀ v mem pending₀ pending).trans named⟩
        · refine (holdings.lost org' before').imp (fun held => (seated org').mpr ?_) fun none => ?_
          · rwa [if_neg same]
          · intro v' mem' pending'
            obtain ⟨v₀, mem₀, rfl⟩ := List.mem_map.mp mem'
            exact none v₀ mem₀ (pending_of_accept pending').2.1
      · intro org' v₁ mem₁ v₂ mem₂ pending₁ pending₂
        obtain ⟨x, there, rfl⟩ := List.mem_map.mp mem₁
        obtain ⟨y, there', rfl⟩ := List.mem_map.mp mem₂
        obtain ⟨same₁, pending₁, _⟩ := pending_of_accept pending₁
        obtain ⟨same₂, pending₂, _⟩ := pending_of_accept pending₂
        rw [same₁, same₂]
        exact holdings.agreed org' x there y there' pending₁ pending₂
      · by_cases self : nominee = u.id
        · have takes : ¬ Takes u.id (⟨(), w.tick, .sql (.effectSuccession org nominee), .ok true,
              w.db⟩ : AccountEvent Unit) := fun no => no.1 self
          have same (org' : Nat) :
              Seated (seatNominee org nominee w.db.serial w.db.members) u.id org' ↔
              Owns w.db u.id org' := by
            rw [seated]
            split
            · next eq => exact ⟨fun _ => eq ▸ owner, fun _ => self.symm⟩
            · rfl
          rw [and_iff_right takes]
          exact and_congr_right fun _ => and_congr_right fun _ => forall_congr' fun org' =>
            iff_congr (same org') Iff.rfl
        · constructor
          · intro intact
            have now := (intact.2.2 org).mpr owned
            have now := (seated org).mp now
            rw [if_pos rfl] at now
            exact absurd now.symm self
          · exact fun no => absurd ⟨self, owner⟩ no.1
    · simp only [AccountStatement.eval, if_neg any] at done
      cases done
      exact effect_of_same holdings id rfl rfl rfl rfl

/-- What every event of the call leaves of the holdings. -/
theorem effect (holdings : Holdings before u w.db) (fit : fits (deletionStage () w.log) o)
    (own : OfSub u.publicSub o) (key : ∀ v, (deletionStage () w.log).user? = some v → v.id = u.id)
    (owned : ∀ v orgIds, deletionStage () w.log = walking v orgIds → ∀ org ∈ orgIds,
      Owns before u.id org)
    (done : execAccount m o w.db = (r, db)) : Effect before u w o r db := by
  have others (quiet : writesHoldings o = false)
      (takes : ¬ Takes u.id (⟨(), w.tick, o, r, w.db⟩ : AccountEvent Unit)) :
      Effect before u w o r db := by
    have same := execAccount_holdings quiet m w.db
    rw [done] at same
    exact effect_of_same holdings takes same.1 same.2.1 same.2.2.1 same.2.2.2
  cases o with
  | sql s =>
      cases s with
      | effectSuccession org nominee =>
          obtain ⟨v, orgIds, at_, mem⟩ := fit
          exact effect_effectSuccession holdings (owned v orgIds at_ org mem) done
      | revokeAccessTokens sub internalId =>
          obtain rfl : sub = u.publicSub := own
          obtain ⟨v, rfl, stage⟩ := fit
          have same : v.id = u.id := by
            refine key v ?_
            rcases stage with ⟨_, at_⟩ | ⟨_, at_⟩ | at_ <;> rw [at_] <;> rfl
          rw [same] at done ⊢
          exact effect_revokeAccess holdings done
      | revokeRefreshTokens sub internalId =>
          obtain rfl : sub = u.publicSub := own
          obtain ⟨v, rfl, stage⟩ := fit
          have same : v.id = u.id := by
            refine key v ?_
            rcases stage with ⟨_, at_⟩ | ⟨_, at_⟩ | at_ <;> rw [at_] <;> rfl
          rw [same] at done ⊢
          exact effect_revokeRefresh holdings done
      | _ => exact others rfl id
  | _ => exact others rfl id

end Holdings

section Course

variable {before : AccountDb} {u : AccountRow} {w : AccountWorld Unit} {o : AccountOp}
  {r : AccountSig.Res o} {db : AccountDb} {m : AccountMoment} {g : DeletionStage}

/-- A stage at which nothing has been written comes of one, by an operation that writes nothing. -/
theorem early_next (fit : fits g o) (now : (DeletionStage.next g o r).early = true) :
    g.early = true ∧ writesHoldings o = false := by
  cases o with
  | now => exact ⟨now, rfl⟩
  | respond answer => cases now
  | sql s =>
      cases s with
      | pendingNomination | liveUser => exact ⟨now, rfl⟩
      | liveUsersOfSub sub =>
          rcases fit with rfl | ⟨v, rfl⟩
          · exact ⟨rfl, rfl⟩
          · rcases r with _ | _ | _ <;> cases now
      | rolesNamed names =>
          obtain ⟨_, v, rfl⟩ := fit
          exact ⟨rfl, rfl⟩
      | userRolesIn ids =>
          obtain ⟨v, roles, rfl, _⟩ := fit
          exact ⟨rfl, rfl⟩
      | countActive ids now =>
          obtain ⟨v, rfl⟩ := fit
          exact ⟨rfl, rfl⟩
      | ownedOrganizations id =>
          obtain ⟨v, _, rfl | ⟨_, rfl⟩ | rfl⟩ := fit
          · exact ⟨rfl, rfl⟩
          · exact ⟨rfl, rfl⟩
          · exact ⟨rfl, rfl⟩
      | pendingAmong ids =>
          obtain ⟨v, rfl⟩ := fit
          exact ⟨rfl, rfl⟩
      | effectSuccession org nominee =>
          obtain ⟨v, orgIds, rfl, _⟩ := fit
          rcases r with _ | _ | _ <;> cases now
      | revokeAccessTokens | revokeRefreshTokens =>
          obtain ⟨v, _, ⟨_, rfl⟩ | ⟨_, rfl⟩ | rfl⟩ := fit <;> cases now
      | updateUser id changes =>
          obtain ⟨v, rfl, _⟩ := fit
          rcases r with _ | _ <;> cases now
      | _ => cases fit
  | _ => cases fit

/-- What fails ends the call, and whatever ends it is a failure or comes before any write. -/
theorem ended_next (fit : fits g o) :
    (Fails (⟨(), w.tick, o, r, w.db⟩ : AccountEvent Unit) ∨ g.ended = true →
        (DeletionStage.next g o r).ended = true) ∧
      ((DeletionStage.next g o r).ended = true →
        ¬ Takes u.id (⟨(), w.tick, o, r, w.db⟩ : AccountEvent Unit) ∧
          (Fails (⟨(), w.tick, o, r, w.db⟩ : AccountEvent Unit) ∨ g.ended = true ∨
            g.early = true)) := by
  cases o with
  | now => exact ⟨fun h => h.resolve_left id, fun ends => ⟨id, .inr (.inl ends)⟩⟩
  | respond answer =>
      cases answer with
      | error code text =>
          refine ⟨fun _ => rfl, fun _ => ⟨id, .inr ?_⟩⟩
          rcases fit with rfl | ⟨v, rfl⟩
          · exact .inl rfl
          · exact .inr rfl
      | accountDeleted =>
          obtain ⟨v, rfl⟩ := fit
          exact ⟨fun h => h.elim False.elim nofun, nofun⟩
      | _ => cases fit
  | sql s =>
      cases s with
      | pendingNomination | liveUser =>
          exact ⟨fun h => h.resolve_left id, fun ends => ⟨id, .inr (.inl ends)⟩⟩
      | liveUsersOfSub sub =>
          rcases fit with rfl | ⟨v, rfl⟩
          · rcases r with _ | _ | ⟨v', rest⟩
            · exact ⟨fun _ => rfl, fun _ => ⟨id, .inr (.inr rfl)⟩⟩
            · exact ⟨fun _ => rfl, fun _ => ⟨id, .inr (.inr rfl)⟩⟩
            · exact ⟨fun h => h.elim (fun fails => absurd rfl (fails v' rest)) nofun, nofun⟩
          · rcases r with _ | _ | ⟨v', rest⟩
            · exact ⟨fun _ => rfl, fun _ => ⟨id, .inl fun _ _ same => by cases same⟩⟩
            · exact ⟨fun _ => rfl, fun _ => ⟨id, .inl fun _ _ same => by cases same⟩⟩
            · exact ⟨fun h => h.elim (fun fails => absurd rfl (fails v' rest)) nofun, nofun⟩
      | rolesNamed names =>
          obtain ⟨_, v, rfl⟩ := fit
          exact ⟨fun h => h.elim False.elim nofun, fun _ => ⟨id, .inr (.inr rfl)⟩⟩
      | userRolesIn ids =>
          obtain ⟨v, roles, rfl, _⟩ := fit
          exact ⟨fun h => h.elim False.elim nofun, fun _ => ⟨id, .inr (.inr rfl)⟩⟩
      | countActive ids now =>
          obtain ⟨v, rfl⟩ := fit
          exact ⟨fun h => h.elim False.elim nofun, fun _ => ⟨id, .inr (.inr rfl)⟩⟩
      | ownedOrganizations id' =>
          obtain ⟨v, _, passed⟩ := fit
          have begun : g.ended = false ∧ g.early = true := by
            rcases passed with rfl | ⟨_, rfl⟩ | rfl
            · exact ⟨rfl, rfl⟩
            · exact ⟨rfl, rfl⟩
            · exact ⟨rfl, rfl⟩
          refine ⟨fun h => ?_, fun _ => ⟨id, .inr (.inr begun.2)⟩⟩
          rw [begun.1] at h
          exact h.elim False.elim nofun
      | pendingAmong ids =>
          obtain ⟨v, rfl⟩ := fit
          exact ⟨fun h => h.elim False.elim nofun, fun _ => ⟨id, .inr (.inr rfl)⟩⟩
      | effectSuccession org nominee =>
          obtain ⟨v, orgIds, rfl, _⟩ := fit
          rcases r with _ | _ | _
          · exact ⟨fun _ => rfl, fun _ => ⟨id, .inl nofun⟩⟩
          · exact ⟨fun _ => rfl, fun _ => ⟨id, .inl nofun⟩⟩
          · exact ⟨fun h => h.elim (fun fails => absurd rfl fails) nofun, nofun⟩
      | revokeAccessTokens | revokeRefreshTokens =>
          obtain ⟨v, _, ⟨_, rfl⟩ | ⟨_, rfl⟩ | rfl⟩ := fit
          · exact ⟨fun h => h.elim False.elim nofun, nofun⟩
          · exact ⟨fun h => h.elim False.elim nofun, nofun⟩
          · exact ⟨fun h => h.elim False.elim nofun, nofun⟩
      | updateUser id' changes =>
          obtain ⟨v, rfl, _⟩ := fit
          rcases r with _ | _
          · exact ⟨fun _ => rfl, fun _ => ⟨id, .inl trivial⟩⟩
          · exact ⟨fun h => h.elim False.elim nofun, nofun⟩
      | _ => cases fit
  | _ => cases fit

/-- The organizations that are looked up are the user's. -/
theorem orgIds_next (fit : fits (deletionStage () w.log) o)
    (before' : ∀ org ∈ (deletionStage () w.log).orgIds, Owns before u.id org)
    (owners : ∀ org, Owns w.db u.id org → Owns before u.id org)
    (key : ∀ v, (deletionStage () w.log).user? = some v → v.id = u.id)
    (done : execAccount m o w.db = (r, db)) {org : Nat}
    (mem : org ∈ (DeletionStage.next (deletionStage () w.log) o r).orgIds) :
    Owns before u.id org := by
  cases o with
  | now => exact before' org mem
  | respond answer => cases mem
  | sql s =>
      cases s with
      | pendingNomination | liveUser => exact before' org mem
      | liveUsersOfSub sub =>
          rcases fit with at_ | ⟨v, at_⟩ <;> rw [at_] at mem <;>
            rcases r with _ | _ | _ <;> cases mem
      | rolesNamed names =>
          obtain ⟨_, v, at_⟩ := fit
          rw [at_] at mem
          rcases r with _ | _ <;> cases mem
      | userRolesIn ids =>
          obtain ⟨v, roles, at_, _⟩ := fit
          rw [at_] at mem
          rcases r with _ | userRoles
          · cases mem
          · simp only [DeletionStage.next] at mem
            split at mem <;> cases mem
      | countActive ids now =>
          obtain ⟨v, at_⟩ := fit
          rw [at_] at mem
          rcases r with _ | _ <;> cases mem
      | ownedOrganizations id =>
          obtain ⟨v, rfl, passed⟩ := fit
          have same : v.id = u.id := by
            refine key v ?_
            rcases passed with at_ | ⟨_, at_⟩ | at_ <;> rw [at_] <;> rfl
          rcases r with _ | owned
          · rcases passed with at_ | ⟨_, at_⟩ | at_ <;> rw [at_] at mem <;> cases mem
          · have mem : org ∈ owned := by
              rcases passed with at_ | ⟨_, at_⟩ | at_ <;> rw [at_] at mem <;> exact mem
            simp only [execAccount, runStatement] at done
            split at done
            · cases done
            · cases done
              obtain ⟨seat, there, rfl⟩ := List.mem_map.mp mem
              rw [List.mem_filter, decide_eq_true_eq] at there
              exact owners _ ⟨seat, there.1, rfl, there.2.1.trans same, there.2.2⟩
      | pendingAmong ids =>
          obtain ⟨v, at_⟩ := fit
          rw [at_] at mem before'
          rcases r with _ | orgIds
          · cases mem
          · simp only [execAccount, runStatement] at done
            split at done
            · cases done
            · cases done
              obtain ⟨nomination, there, rfl⟩ := List.mem_map.mp mem
              rw [List.mem_filter, decide_eq_true_eq] at there
              exact before' _ there.2.1
      | effectSuccession org nominee =>
          obtain ⟨v, orgIds, at_, _⟩ := fit
          rw [at_] at mem before'
          rcases r with _ | _ | _
          · cases mem
          · cases mem
          · exact before' _ mem
      | revokeAccessTokens | revokeRefreshTokens =>
          obtain ⟨v, _, ⟨_, at_⟩ | ⟨_, at_⟩ | at_⟩ := fit <;> rw [at_] at mem <;> cases mem
      | updateUser id changes =>
          obtain ⟨v, at_, _⟩ := fit
          rw [at_] at mem
          rcases r with _ | _ <;> cases mem
      | _ => cases fit
  | _ => cases fit

theorem writesHoldings_of_takes {e : AccountEvent Unit} {uid : Int32} (takes : Takes uid e) :
    writesHoldings e.op = true := by
  obtain ⟨i, n, o, r, pre⟩ := e
  cases o with
  | sql s =>
      cases s with
      | effectSuccession | revokeAccessTokens | revokeRefreshTokens => rfl
      | _ => cases takes
  | _ => cases takes

/-- How far a call has come, and what it has taken. -/
structure Charted (before : AccountDb) (u : AccountRow) (w : AccountWorld Unit) : Prop where
  accounted : Accounted (fun _ => u) w
  holdings : Holdings before u w.db
  answers : answersOf () w.log = (deletionStage () w.log).answers
  intact : Intact before w.db u.id ↔ ¬ ∃ e ∈ w.log, Takes u.id e
  early : (deletionStage () w.log).early = true → ¬ ∃ e ∈ w.log, Takes u.id e
  orgIds : ∀ org ∈ (deletionStage () w.log).orgIds, Owns before u.id org
  failing : FailsAfterTaking u.id w.log ↔
    (deletionStage () w.log).ended = true ∧ ∃ e ∈ w.log, Takes u.id e

/-- **Every step stays on the chart of its effects**. -/
theorem charted_kept : KeptByFitting
    (fun m _ o db => some (execAccount m o db) : Attempt AccountSig Unit AccountDb AccountMoment)
    (OwnSubs fun _ => u) DeletionStage.next .idle fits (fun _ _ _ => True) (Charted before u) := by
  rintro w ⟨⟩ o m r db charted fit done own
  have done : execAccount m o w.db = (r, db) := Option.some.inj done
  have key := charted.accounted.user ()
  have walked : ∀ v orgIds, deletionStage () w.log = walking v orgIds → ∀ org ∈ orgIds,
      Owns before u.id org := by
    intro v orgIds at_ org mem
    refine charted.orgIds org ?_
    rw [at_]
    exact mem
  obtain ⟨holdings, intact⟩ := effect charted.holdings fit own key walked done
  have taken : (∃ e ∈ (w.push () o r db).log, Takes u.id e) ↔
      Takes u.id (⟨(), w.tick, o, r, w.db⟩ : AccountEvent Unit) ∨ ∃ e ∈ w.log, Takes u.id e := by
    simp only [World.push_log, List.mem_cons, exists_eq_or_imp]
  obtain ⟨ends, fails⟩ := ended_next (w := w) (u := u) (r := r) fit
  refine ⟨trivial, charted.accounted.push (fun _ _ _ => rfl) fit own done, holdings,
    ?_, ?_, fun now => ?_, fun org mem => ?_, ?_⟩
  · rw [deletionStage_own]
    exact answers_next charted.answers fit
  · rw [World.push_db, intact, charted.intact, taken, not_or]
  · rw [deletionStage_own] at now
    obtain ⟨early, quiet⟩ := early_next fit now
    rw [taken, not_or]
    refine ⟨fun takes => ?_, charted.early early⟩
    rw [writesHoldings_of_takes takes] at quiet
    cases quiet
  · rw [deletionStage_own] at mem
    exact orgIds_next fit charted.orgIds charted.holdings.owners key done mem
  · rw [deletionStage_own, taken]
    show Fails _ ∧ (∃ e ∈ w.log, Takes u.id e) ∨ FailsAfterTaking u.id w.log ↔ _
    rw [charted.failing]
    constructor
    · rintro (⟨fails, taken⟩ | ⟨ended, taken⟩)
      · exact ⟨ends (.inl fails), .inr taken⟩
      · exact ⟨ends (.inr ended), .inr taken⟩
    · rintro ⟨ended, taken⟩
      obtain ⟨takes, why⟩ := fails ended
      have taken := taken.resolve_left takes
      rcases why with fails | ended | early
      · exact .inl ⟨fails, taken⟩
      · exact .inr ⟨ended, taken⟩
      · exact absurd taken (charted.early early)

/-- A call that has come to its end leaves everything after an error exactly if nothing has failed
when something had been taken. -/
theorem failing_alone {db : AccountDb} (apart : (db.users.rows.map (·.publicSub)).Nodup)
    (one : OnePending db) (live : u ∈ db.users.rows ∧ u.deletedAt = none)
    (sched : List (Unit × AccountMoment)) :
    let c := (Pool.mk (World.start db) fun _ : Unit => deleteAccount u.publicSub).play
      (fun m _ o db => some (execAccount m o db)) sched
    c.answer? () = some () →
      ((∀ a ∈ answersOf () c.store.log, a.isError = true → Intact db c.store.db u.id) ↔
        ¬ FailsAfterTaking u.id c.store.log) := by
  intro c answered
  have start : Charted db u (World.start db) := by
    have nothing : ¬ ∃ e ∈ ([] : List (AccountEvent Unit)), Takes u.id e := by simp
    refine ⟨accounted_start apart fun _ => live, Holdings.start one, rfl, ?_, fun _ => nothing,
      fun _ mem => absurd mem List.not_mem_nil, ?_⟩
    · exact ⟨fun _ => nothing, fun _ => ⟨rfl, rfl, fun _ => Iff.rfl⟩⟩
    · exact ⟨False.elim, fun no => nothing no.2⟩
  obtain ⟨charted, ends⟩ := Pool.play_follows (c := ⟨World.start db, fun _ : Unit =>
    deleteAccount u.publicSub⟩) charted_kept start rfl
    (fun _ => deleteAccount_stages u.publicSub) sched (ownSubs (fun _ => u) sched)
  have charted : Charted db u c.store := charted
  obtain ⟨answer, stands⟩ : ∃ a, deletionStage () c.store.log = .answered a := ends () () answered
  have answers : answersOf () c.store.log = [answer] := by
    rw [charted.answers, stands]
    rfl
  have ended : (deletionStage () c.store.log).ended = answer.isError := by
    rw [stands]
    cases answer <;> rfl
  rw [answers, charted.failing, ended, charted.intact]
  simp only [List.mem_singleton, forall_eq, not_and]

end Course

/-! ## Every run -/

/-- Calls for different accounts, none of an administrator, all succeed as long as no name is
taken and no nomination has gone when it is used; and one call under any failures leaves tokens
and ownerships after an error exactly if nothing fails when something has been taken. -/
theorem deletions_unobstructed {ι : Type} [DecidableEq ι] (db : AccountDb)
    (apart : (db.users.rows.map (·.publicSub)).Nodup) (one : OnePending db)
    (accounts : ι → AccountRow) (inj : Function.Injective accounts)
    (live : ∀ i, accounts i ∈ db.users.rows ∧ (accounts i).deletedAt = none) :
    ((∀ i, ¬ IsAdmin db (accounts i).id) → ∀ sched : List (ι × AccountMoment),
        let c := runAccounts db (fun i => deleteAccount (accounts i).publicSub) sched
        Abides Unobstructed c.store.log → ∀ i, c.answer? i = some () →
          answersOf i c.store.log = [.accountDeleted] ∧
            ∃ u ∈ c.store.db.users.rows, u.id = (accounts i).id ∧
              DeletedApart c.store.db.users.rows u) ∧
      ∀ i, ∀ sched : List (Unit × AccountMoment),
        let c :=
          (Pool.mk (World.start db) fun _ : Unit => deleteAccount (accounts i).publicSub).play
          (fun m _ o db => some (execAccount m o db)) sched
        c.answer? () = some () →
          ((∀ a ∈ answersOf () c.store.log, a.isError = true →
              Intact db c.store.db (accounts i).id) ↔
            ¬ FailsAfterTaking (accounts i).id c.store.log) :=
  ⟨fun users sched unobstructed => side_by_side apart inj live users sched unobstructed,
    fun i sched => failing_alone apart one (live i) sched⟩

section Sample

/-- Two callers with accounts of their own. -/
def caller : Bool → AccountRow
  | false => { id := 1, publicSub := "a", username := some "ann" }
  | true => { id := 2, publicSub := "b", username := some "bob" }

/-- A database with the two accounts. -/
def twoAccounts : AccountDb where
  users := ⟨[caller false, caller true], by decide⟩
  roles := ⟨[⟨1, "admin"⟩], List.nodup_singleton _⟩
  accessTokens := [⟨"t1", "a", false⟩, ⟨"t2", "b", false⟩]

/-- One call after the other; the second begins `elapsed` seconds later. -/
def inTurn (elapsed : Nat) : AccountPool Bool :=
  runAccounts twoAccounts (fun i => deleteAccount (caller i).publicSub)
    (List.replicate 11 (false, ({} : AccountMoment)) ++
      (true, { elapsed := elapsed }) :: List.replicate 10 (true, ({} : AccountMoment)))

theorem deletions_unobstructed_in_turn :
    answersOf false (inTurn 1).store.log = [.accountDeleted] ∧
      answersOf true (inTurn 1).store.log = [.accountDeleted] := by
  have inj : ∀ i j, caller i = caller j → i = j := by decide
  have live : ∀ i, caller i ∈ twoAccounts.users.rows ∧ (caller i).deletedAt = none := by decide
  have users : ∀ i, ¬ IsAdmin twoAccounts (caller i).id := by decide
  have free : Abides Unobstructed (inTurn 1).store.log := by decide +kernel
  have done := (deletions_unobstructed twoAccounts (by decide) (fun _ => Nat.zero_le _) caller
    (fun i j => inj i j) live).1 users _ free
  exact ⟨(done false rfl).1, (done true rfl).1⟩

/-- In one second both calls ask for one name: the second is refused, its token revoked. -/
theorem deletion_obstructed :
    let c := inTurn 0
    (∀ i, c.answer? i = some ()) ∧ (answersOf true c.store.log).all (·.isError) = true ∧
      ⟨"t2", "b", true⟩ ∈ c.store.db.accessTokens := by
  refine ⟨fun i => ?_, by decide, by decide⟩
  cases i
  · rfl
  · rfl

end Sample

end Account

end Fulla
