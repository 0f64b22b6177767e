import Mathlib.Algebra.Group.Nat.Defs
import Fulla.Account.Tables
import Fulla.Model.JsonText
import Fulla.Model.Text

/-!
# The services that change accounts

`UserAdminService.cc` (update, delete, disable, roles), `UserSelfServiceController::deleteAccount`
and `SuccessionGuard.cc`, as programs over the tables of the accounts.  A callback that answers
is a `respond` of its own, so that a run shows how often a call answers.

Audit records and the invalidation of cached reads change none of the tables and are left out.
-/

namespace Fulla

namespace Account

open Conc

/-- The answer of a call. -/
def respond (answer : AccountAnswer) : AccountProg :=
  Prog.call (S := AccountSig) (.respond answer)

/-- A call answers with an error. -/
def respondError (code detailForLog : String) : AccountProg :=
  respond (.error code detailForLog)

section Callbacks

variable {α : Type}

/-- A statement with its two callbacks. -/
def sqlOr (s : AccountStatement) (failed : String → Prog AccountSig α)
    (rest : s.Res → Prog AccountSig α) : Prog AccountSig α :=
  Prog.op (S := AccountSig) (.sql s) fun
    | .error text => failed text
    | .ok r => rest r

/-- `nowEpochSeconds()` -/
def withNow (rest : Int → Prog AccountSig α) : Prog AccountSig α :=
  Prog.op (S := AccountSig) .now rest

/-! ## The guard of the last administrator -/

/-- Whether the target is an administrator and no other one is active. -/
def isLastActiveAdmin (targetUserId : Int32) (onDone : Bool → Prog AccountSig α)
    (onError : Prog AccountSig α) : Prog AccountSig α :=
  sqlOr (.rolesNamed ["admin"]) (fun _ => onError) fun roles =>
    if roles.isEmpty then onDone false
    else
      sqlOr (.userRolesIn (roles.map (·.id))) (fun _ => onError) fun userRoles =>
        let adminIds := (userRoles.map (·.userId)).dedup
        if targetUserId ∉ adminIds then onDone false
        else
          let others := adminIds.filter fun uid => uid ≠ targetUserId
          if others.isEmpty then onDone true
          else
            withNow fun now => sqlOr (.countActive others now) (fun _ => onError)
              fun otherActiveAdmins => onDone (otherActiveAdmins = 0)

/-! ## The guard of the succession -/

/-- The nominations of the organizations take effect one after the other. -/
def processNextOrg (done : Bool → String → Prog AccountSig α) : List Nat → Prog AccountSig α
  | [] => done true ""
  | orgId :: orgIds =>
    -- A look-up that fails reads as no nomination, or as a nominee who is not live.
    sqlOr (.pendingNomination orgId) (fun _ => processNextOrg done orgIds) fun
      | none => processNextOrg done orgIds
      | some pending =>
        sqlOr (.liveUser pending.nomineeUserId) (fun _ => processNextOrg done orgIds) fun _ =>
          sqlOr (.effectSuccession orgId pending.nomineeUserId)
            (fun _ => done false s!"organization {orgId}") fun ok =>
              if ok then processNextOrg done orgIds else done false s!"organization {orgId}"

/-- The successions of all organizations that the user owns, one after the other. -/
def effectPendingSuccessionsForUser (userId : Int32) (done : Bool → String → Prog AccountSig α) :
    Prog AccountSig α :=
  let unread := done false "succession lookup failed"
  sqlOr (.ownedOrganizations userId) (fun _ => unread) fun owned =>
    if owned.isEmpty then done true ""
    else sqlOr (.pendingAmong owned) (fun _ => unread) (processNextOrg done)

/-- The answer of the guard, as a program of its own. -/
def lastAdminGuard (targetUserId : Int32) : Prog AccountSig (Option Bool) :=
  isLastActiveAdmin targetUserId (fun lastAdmin => .ret (some lastAdmin)) (.ret none)

/-- What the guard's callbacks do with its answer. -/
def afterGuard (onDone : Bool → Prog AccountSig α) (onError : Prog AccountSig α) :
    Option Bool → Prog AccountSig α
  | some lastAdmin => onDone lastAdmin
  | none => onError

theorem sqlOr_bind {β : Type} {s : AccountStatement} {failed : String → Prog AccountSig α}
    {rest : s.Res → Prog AccountSig α} {f : α → Prog AccountSig β} :
    (sqlOr s failed rest >>= f) =
      sqlOr s (fun text => failed text >>= f) fun r => rest r >>= f := by
  simp only [sqlOr, Prog.op_bind]
  congr 1
  funext r
  cases r <;> rfl

theorem isLastActiveAdmin_eq (targetUserId : Int32) (onDone : Bool → Prog AccountSig α)
    (onError : Prog AccountSig α) :
    isLastActiveAdmin targetUserId onDone onError =
      lastAdminGuard targetUserId >>= afterGuard onDone onError := by
  have error : (Prog.ret none : Prog AccountSig (Option Bool)) >>= afterGuard onDone onError =
      onError := rfl
  have done (b : Bool) : (Prog.ret (some b) : Prog AccountSig (Option Bool)) >>=
      afterGuard onDone onError = onDone b := rfl
  unfold lastAdminGuard isLastActiveAdmin
  simp only [sqlOr_bind, error, withNow]
  congr 1
  funext roles
  split
  · rw [done]
  · rw [sqlOr_bind]
    congr 1
    funext userRoles
    split
    · rw [done]
    · split
      · rw [done]
      · simp only [Prog.op_bind, sqlOr_bind, error, done]

/-- A statement with callbacks makes the statement and what they make. -/
theorem only_sqlOr {P : AccountOp → Prop} {s : AccountStatement}
    {failed : String → Prog AccountSig α} {rest : s.Res → Prog AccountSig α}
    (statement : P (.sql s))
    (fails : ∀ text, (failed text).Only P) (goes : ∀ r, (rest r).Only P) :
    (sqlOr s failed rest).Only P := by
  refine ⟨statement, fun r => ?_⟩
  cases r with
  | error text => exact fails text
  | ok r => exact goes r

/-- The statements of the guard. -/
theorem lastAdminGuard_only {P : AccountOp → Prop} (roles : P (.sql (.rolesNamed ["admin"])))
    (userRoles : ∀ roleIds, P (.sql (.userRolesIn roleIds))) (now : P .now)
    (count : ∀ ids t, P (.sql (.countActive ids t))) (targetUserId : Int32) :
    (lastAdminGuard targetUserId).Only P := by
  unfold lastAdminGuard isLastActiveAdmin
  refine only_sqlOr roles (fun _ => trivial) fun found => ?_
  split
  · trivial
  · refine only_sqlOr (userRoles _) (fun _ => trivial) fun found => ?_
    dsimp only
    split
    · trivial
    · split
      · trivial
      · exact ⟨now, fun t => only_sqlOr (count _ t) (fun _ => trivial) fun _ => trivial⟩

/-- What becomes of the organizations of the user, as a program of its own. -/
def successions (userId : Int32) : Prog AccountSig (Bool × String) :=
  effectPendingSuccessionsForUser userId fun ok detail => .ret (ok, detail)

theorem processNextOrg_eq (done : Bool → String → Prog AccountSig α) (orgIds : List Nat) :
    processNextOrg done orgIds =
      processNextOrg (fun ok detail => .ret (ok, detail)) orgIds >>=
        fun answer => done answer.1 answer.2 := by
  induction orgIds with
  | nil => rfl
  | cons orgId orgIds ih =>
      simp only [processNextOrg, sqlOr_bind, ← ih]
      congr 1
      funext pending
      cases pending with
      | none => exact ih
      | some pending =>
          simp only [sqlOr_bind, ← ih]
          congr 1
          funext user
          congr 1
          funext ok
          cases ok with
          | true => exact ih
          | false => rfl

theorem effectPendingSuccessionsForUser_eq (userId : Int32)
    (done : Bool → String → Prog AccountSig α) :
    effectPendingSuccessionsForUser userId done =
      successions userId >>= fun answer => done answer.1 answer.2 := by
  simp only [successions, effectPendingSuccessionsForUser, sqlOr_bind]
  congr 1
  funext owned
  cases owned with
  | nil => rfl
  | cons owned more =>
      change sqlOr _ _ _ = sqlOr _ _ _ >>= _
      rw [sqlOr_bind]
      congr 1
      funext orgIds
      exact processNextOrg_eq done orgIds

/-- The statements of the successions. -/
theorem successions_only {P : AccountOp → Prop} {userId : Int32}
    (owned : P (.sql (.ownedOrganizations userId)))
    (among : ∀ orgIds, P (.sql (.pendingAmong orgIds)))
    (pending : ∀ orgId, P (.sql (.pendingNomination orgId)))
    (nominee : ∀ nomineeUserId, P (.sql (.liveUser nomineeUserId)))
    (effect : ∀ orgId nomineeUserId, P (.sql (.effectSuccession orgId nomineeUserId))) :
    (successions userId).Only P := by
  refine only_sqlOr owned (fun _ => trivial) fun found => ?_
  split
  · trivial
  refine only_sqlOr (among _) (fun _ => trivial) fun orgIds => ?_
  induction orgIds with
  | nil => trivial
  | cons orgId orgIds ih =>
      refine only_sqlOr (pending orgId) (fun _ => ih) fun row => ?_
      cases row with
      | none => exact ih
      | some row =>
          refine only_sqlOr (nominee _) (fun _ => ih) fun _ => ?_
          refine only_sqlOr (effect _ _) (fun _ => trivial) fun ok => ?_
          cases ok with
          | true => exact ih
          | false => trivial

end Callbacks

/-! ## The administration of users -/

namespace UserAdminService

/-- `std::stoi(userId)` -/
def parseUserId (userId : String) : Option Int32 :=
  (stoInt (2 ^ 31) userId).map .ofInt

/-- A user id from a path, or an error. -/
def withUserId (userId : String) (rest : Int32 → AccountProg) : AccountProg :=
  match parseUserId userId with
  | none => respondError "VALIDATION_INVALID_INPUT" "userId must be an integer"
  | some id => rest id

/-- The time that stands for a lock without end. -/
def kLockedForeverSentinel : Int :=
  9999999999

/-- The member is missing or of the type. -/
def jsonMemberHasType (body : List (String × Json)) (name : String) (check : Json → Bool) : Bool :=
  (body.lookup name).all check

/-- The value is a text. -/
def isStringVal : Json → Bool
  | .str _ => true
  | _ => false

/-- The value is a flag. -/
def isBoolVal : Json → Bool
  | .bool _ => true
  | _ => false

/-- The members that `updateUser` reads have their types. -/
def wellTyped (body : List (String × Json)) : Bool :=
  jsonMemberHasType body "email" isStringVal &&
    jsonMemberHasType body "email_verified" isBoolVal &&
    jsonMemberHasType body "username" isStringVal &&
    jsonMemberHasType body "mfa_enabled" isBoolVal &&
    jsonMemberHasType body "must_change_password" isBoolVal &&
    jsonMemberHasType body "locked" isBoolVal

/-- A member that is a text. -/
def stringMember (body : List (String × Json)) (name : String) : Option String :=
  match body.lookup name with
  | some (.str s) => some s
  | _ => none

/-- A member that is a flag. -/
def boolMember (body : List (String × Json)) (name : String) : Option Bool :=
  match body.lookup name with
  | some (.bool b) => some b
  | _ => none

/-- The columns that `proceedWithUpdate` sets. -/
def requestedChanges (body : List (String × Json)) : UserChanges where
  email := (stringMember body "email").map fun email => some (normalizeEmail email)
  emailVerified := boolMember body "email_verified"
  username := stringMember body "username"
  mfaEnabled := boolMember body "mfa_enabled"
  mustChangePassword := boolMember body "must_change_password"
  lockedUntil := (boolMember body "locked").map fun locked =>
    if locked then kLockedForeverSentinel else 0

/-- The answer to an update that fails. -/
def updateFailed (what : String) : AccountProg :=
  if hasText "users_username_key" what then
    respondError "VALIDATION_USERNAME_TAKEN" "Username already exists"
  else if hasText "idx_users_email_unique" what then
    respondError "VALIDATION_EMAIL_TAKEN" "Email already in use"
  else respondError "DB_QUERY_ERROR" ("Failed to update user: " ++ what)

/-- The update itself, with the answers to its failures. -/
def proceedWithUpdate (id : Int32) (body : List (String × Json)) : AccountProg :=
  sqlOr (.updateUser id (requestedChanges body)) updateFailed fun _ => respond .userUpdated

/-- The answer for a user who does not exist. -/
def notFound : String → AccountProg := fun _ =>
  respondError "VALIDATION_RESOURCE_NOT_FOUND" "User not found"

/-- The answer when the guard could not be asked. -/
def guardFailed : AccountProg :=
  respondError "DB_QUERY_ERROR" "Failed to evaluate last-admin guard"

/-- `body`: the members of the JSON object, none for a body that is no JSON. -/
def updateUser (userId : String) (body : Option (List (String × Json))) : AccountProg :=
  withUserId userId fun id =>
    match body with
    | none => respondError "VALIDATION_INVALID_INPUT" "Invalid JSON body"
    | some body =>
      if (body.lookup "org_id").isSome then
        respondError "VALIDATION_INVALID_INPUT"
          ("org_id is no longer accepted; organization membership is managed " ++
            "via the organization APIs")
      else if !wellTyped body then
        respondError "VALIDATION_INVALID_INPUT" "One or more fields have an invalid type"
      else if requestedChanges body = {} then
        respondError "VALIDATION_INVALID_INPUT" "No updatable fields provided"
      else
        sqlOr (.liveUser id) notFound fun _ =>
          if boolMember body "locked" ≠ some true then proceedWithUpdate id body
          else
            isLastActiveAdmin id
              (fun lastAdmin =>
                if lastAdmin then
                  respondError "VALIDATION_RESOURCE_CONFLICT" "Cannot lock the last active admin"
                else proceedWithUpdate id body)
              guardFailed

/-- `finishDeleteResponse` after the second of the two revocations. -/
def revokeRefreshThenRespond (id : Int32) (publicSub : String) (accessOk : Bool) : AccountProg :=
  sqlOr (.revokeRefreshTokens publicSub (toString id.toInt))
    (fun _ => respond (.userDeleted id false)) fun _ => respond (.userDeleted id accessOk)

/-- `actorId`: the public subject of the caller. -/
def deleteUser (actorId userId : String) : AccountProg :=
  withUserId userId fun id => sqlOr (.liveUser id) notFound fun row =>
    if row.publicSub = actorId then
      respondError "VALIDATION_INVALID_INPUT" "Cannot delete your own account"
    else
      isLastActiveAdmin id
        (fun lastAdmin =>
          if lastAdmin then
            respondError "VALIDATION_RESOURCE_CONFLICT" "Cannot delete the last active admin"
          else
            effectPendingSuccessionsForUser id fun successionOk detail =>
              if !successionOk then
                respondError "DB_QUERY_ERROR"
                  ("deleteUser: ownership succession failed for " ++ detail)
              else
                withNow fun now => sqlOr (.updateUser id { deletedAt := some now })
                  (fun what => respondError "DB_QUERY_ERROR" ("Failed to delete user: " ++ what))
                  fun _ =>
                    sqlOr (.revokeAccessTokens row.publicSub (toString id.toInt))
                      (fun _ => revokeRefreshThenRespond id row.publicSub false)
                      fun _ => revokeRefreshThenRespond id row.publicSub true)
        guardFailed

/-- `UserAdminService::disableUser`. -/
def disableUser (userId : String) : AccountProg :=
  withUserId userId fun id => sqlOr (.liveUser id) notFound fun _ =>
    isLastActiveAdmin id
      (fun lastAdmin =>
        if lastAdmin then
          respondError "VALIDATION_RESOURCE_CONFLICT" "Cannot disable the last active admin"
        else
          sqlOr (.updateUser id { lockedUntil := some kLockedForeverSentinel })
            (fun what => respondError "DB_QUERY_ERROR" ("Failed to disable user: " ++ what))
            fun _ => respond (.userDisabled userId))
      guardFailed

/-- The callbacks of the concurrent inserts.  `remaining` counts down; the arrival that takes
it to zero answers. -/
def awaitInserts (id : Int32) : (remaining : Nat) → List RoleRow → (assigned : List String) →
    AccountProg
  | 0, _, _ | _, [], _ => return
  | remaining + 1, first :: others, assigned =>
    Prog.op (S := AccountSig) (.insertNext id first others) fun
      | ((role, pending), .ok ()) => do
        let assigned := assigned ++ [role.name]
        if remaining = 0 then respond (.rolesUpdated id assigned)
        awaitInserts id remaining pending assigned
      | ((_, pending), .error what) => do
        if remaining = 0 then
          respondError "DB_QUERY_ERROR" ("Failed to assign some roles: " ++ what)
        awaitInserts id remaining pending assigned

/-- The old roles are cleared and the new ones inserted. -/
def proceedWithAssign (id : Int32) (roleNames : List String) : AccountProg :=
  sqlOr (.clearRoles id)
    (fun what => respondError "DB_QUERY_ERROR" ("Failed to clear existing roles: " ++ what))
    fun _ =>
      if roleNames.isEmpty then respond (.rolesUpdated id [])
      else
        sqlOr (.rolesNamed roleNames)
          (fun what => respondError "DB_QUERY_ERROR" ("Failed to resolve role names: " ++ what))
          fun resolved =>
            if resolved.isEmpty then respond (.rolesUpdated id [])
            else awaitInserts id resolved.length resolved []

/-- The elements of `roles` that are strings, of a body that has such an array. -/
def requestedRoles (body : Option (List (String × Json))) : Option (List String) :=
  match body.bind (·.lookup "roles") with
  | some (.arr items) =>
    some (items.filterMap fun
      | .str name => some name
      | _ => none)
  | _ => none

/-- `UserAdminService::assignUserRoles`. -/
def assignUserRoles (userId : String) (body : Option (List (String × Json))) : AccountProg :=
  withUserId userId fun id =>
    match requestedRoles body with
    | none =>
      respondError "VALIDATION_MISSING_REQUIRED_FIELD" "Request body must contain a 'roles' array"
    | some roleNames =>
      sqlOr (.liveUser id) notFound fun _ =>
        if "admin" ∈ roleNames then proceedWithAssign id roleNames
        else
          isLastActiveAdmin id
            (fun lastAdmin =>
              if lastAdmin then
                respondError "VALIDATION_RESOURCE_CONFLICT"
                  "Cannot remove the admin role from the last active admin"
              else proceedWithAssign id roleNames)
            guardFailed

end UserAdminService

/-! ## The deletion of one's own account -/

namespace UserSelfServiceController

/-- The name that a deleted account gets. -/
def makeAnonUsername (timestamp : Int) : String :=
  "deleted_" ++ toString timestamp

/-- The write that deletes an account. -/
def anonymizeAndSoftDelete (userId anonUsername : String) : AccountProg :=
  sqlOr (.liveUsersOfSub userId)
    (fun what => respondError "DB_QUERY_ERROR" ("deleteAccount user lookup failed: " ++ what)) fun
      | [] => respondError "VALIDATION_RESOURCE_NOT_FOUND" "deleteAccount: user not found"
      | u :: _ =>
        withNow fun now =>
          sqlOr (.updateUser u.id {
              username := some anonUsername
              email := some none
              passwordHash := some "DELETED"
              deletedAt := some now })
            (fun what =>
              respondError "DB_QUERY_ERROR" ("deleteAccount user update failed: " ++ what))
            fun _ => respond .accountDeleted

/-- Revocation is best-effort: the account is deleted when it fails, too. -/
def proceedWithDelete (userId : String) (internalId : Int32) : AccountProg :=
  let anonymize := withNow fun now => anonymizeAndSoftDelete userId (makeAnonUsername now)
  sqlOr (.revokeAccessTokens userId (toString internalId.toInt)) (fun _ => anonymize) fun _ =>
    sqlOr (.revokeRefreshTokens userId (toString internalId.toInt)) (fun _ => anonymize)
      fun _ => anonymize

/-- `userId`: the public subject of the caller. -/
def deleteAccount (userId : String) : AccountProg :=
  sqlOr (.liveUsersOfSub userId)
    (fun what => respondError "DB_QUERY_ERROR" ("deleteAccount user lookup failed: " ++ what)) fun
      | [] => respondError "VALIDATION_RESOURCE_NOT_FOUND" "deleteAccount: user not found"
      | u :: _ =>
        isLastActiveAdmin u.id
          (fun lastAdmin =>
            if lastAdmin then
              respondError "VALIDATION_RESOURCE_CONFLICT"
                "Cannot delete the last active admin account"
            else
              effectPendingSuccessionsForUser u.id fun ok detail =>
                if !ok then
                  respondError "DB_QUERY_ERROR"
                    ("deleteAccount: ownership succession failed for " ++ detail)
                else proceedWithDelete userId u.id)
          (respondError "DB_QUERY_ERROR" "deleteAccount: failed to evaluate last-admin guard")

end UserSelfServiceController

/-! ## Calls side by side -/

section Pools

variable {ι : Type}

/-- The tables with the log of the steps. -/
abbrev AccountWorld (ι : Type) := World AccountSig ι AccountDb

abbrev AccountEvent (ι : Type) := Event AccountSig ι AccountDb

/-- The calls with what is left of each. -/
abbrev AccountPool (ι : Type) := Pool AccountSig ι Unit (AccountWorld ι)

/-- No statement fails by itself. -/
def execSound : Attempt AccountSig ι AccountDb AccountMoment := fun m _ o db =>
  some (execAccount { m with fault := none } o db)

/-- A run: which call takes its next step, and at what moment. -/
def runAccounts [DecidableEq ι] (db : AccountDb) (calls : ι → AccountProg)
    (sched : List (ι × AccountMoment)) : AccountPool ι :=
  (Pool.mk (World.start db) calls).play execSound sched

end Pools

end Account

end Fulla
