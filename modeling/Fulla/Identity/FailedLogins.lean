import Fulla.Identity.UserRows
import Fulla.Web.Site

/-!
# Counting failed logins

A wrong password is counted by `incrementFailedLogins` and, in a forced change of
the password, by the handler itself.  Both read the row and later write back the
count they read, plus one, with the lock that goes with it.

The first factor of a login is `AuthService::validateUser`; what the handler goes on
to do with its result does not touch the counter.
-/

namespace Fulla

open Conc

/-- `int` arithmetic. -/
def nextFailedCount (failedCount : Int) : Int :=
  (failedCount + 1).bmod (2 ^ 32)

/-- The lock grows with the number of failures. -/
def lockedUntilAfter (newFailedCount now : Int) : Int :=
  if newFailedCount ≥ 20 then now + 3600
  else if newFailedCount ≥ 15 then now + 1800
  else if newFailedCount ≥ 10 then now + 300
  else if newFailedCount ≥ 5 then now + 60
  else 0

theorem lockedUntilAfter_ge {n : Int} (now : Int) (reached : 5 ≤ n) :
    now + 60 ≤ lockedUntilAfter n now := by
  unfold lockedUntilAfter
  split_ifs <;> omega

/-- The columns a failure at time `now` writes, over the count that was read. -/
def lockoutColumns (failedCount now : Int) : UserColumns :=
  .lockout (nextFailedCount failedCount) (lockedUntilAfter (nextFailedCount failedCount) now) now

namespace PostgresIdentityRepository

/-- The clock is read before the row is known to be there. -/
def incrementFailedLogins (userId : Int) : UserProg Bool := do
  let found : Option (Option UserRow) ← statement (.selectById userId)
  match found with
  | none => return false
  | some user =>
    let now : Int ← statement .now
    match user with
    | none => return false
    | some user => statement (.update user.id (lockoutColumns user.failedLoginCount now))

/-- Find the row, then write some columns of it. -/
def findAndUpdate (userId : Int) (columns : UserColumns) : UserProg Bool := do
  let found : Option (Option UserRow) ← statement (.selectById userId)
  match found with
  | none => return false
  | some none => return false
  | some (some user) => statement (.update user.id columns)

/-- The count and the lock are cleared. -/
def resetFailedLogins (userId : Int) : UserProg Bool :=
  findAndUpdate userId .resetLockout

/-- The hash is replaced. -/
def updatePasswordHash (userId : Int) (newHash : String) : UserProg Bool :=
  findAndUpdate userId (.passwordHash newHash)

end PostgresIdentityRepository

/-- What the password checks need. -/
structure LoginSite where
  /-- `auth.allow_legacy_hash`. -/
  allowLegacyHash : Bool := false
  /-- `auth.min_password_length`. -/
  passwordMinLength : Nat := 8
  /-- The password, the stored hash and the legacy salt. -/
  verifyPassword : String → String → String → Bool
  /-- `PasswordHasher::verify`, of the same three. -/
  hasherVerify : String → String → String → Bool

/-- The callback of `validateUser` gets nothing in every case but the last. -/
inductive LoginResult where
  | unknown
  | locked
  | legacyRejected
  | wrongPassword (id : Int)
  | matched (user : UserRow)
deriving DecidableEq, Repr

namespace AuthService

variable (site : LoginSite)

/-- A failure to rehash does not matter. -/
def rehashLegacy (user : UserRow) (password : String) : UserProg Unit :=
  if isLegacyHash user.passwordHash then do
    let newHash : Option String ← statement (.hashPassword password)
    match newHash with
    | none => return ()
    | some newHash =>
      let _ ← PostgresIdentityRepository.updatePasswordHash user.id newHash
      return ()
  else return ()

/-- A successful login clears a count that is not zero. -/
def resetCounter (user : UserRow) : UserProg Bool :=
  if user.failedLoginCount > 0 then PostgresIdentityRepository.resetFailedLogins user.id
  else return true

/-- After a match: the counter is reset and a legacy password rehashed.  The source starts
both at once and looks at neither result. -/
def afterMatch (user : UserRow) (password : String) : UserProg Unit := do
  let _ ← resetCounter user
  rehashLegacy user password

/-- The counting of a failure goes on after the callback has run. -/
def checkFound (user : UserRow) (password : String) : UserProg LoginResult := do
  let now : Int ← statement .now
  if user.lockedUntil > now then return .locked
  else if !site.allowLegacyHash && isLegacyHash user.passwordHash then return .legacyRejected
  else if site.verifyPassword password user.passwordHash user.salt = false then
    let _ ← PostgresIdentityRepository.incrementFailedLogins user.id
    return .wrongPassword user.id
  else
    afterMatch user password
    return .matched user

/-- An identifier with `@` is an e-mail address. -/
def findUser (identifier : String) : UserProg (Option UserRow) :=
  if identifier.toList.contains '@' then statement (.findByEmail (normalizeEmail identifier))
  else statement (.findByUsername identifier)

/-- `AuthService::validateUser`. -/
def validateUser (identifier password : String) : UserProg LoginResult := do
  let found ← findUser identifier
  match found with
  | none => return .unknown
  | some user => checkFound site user password

end AuthService

/-! ## What the programs execute -/

section Only

variable {P : UserOp → Prop}

theorem statement_only {o : UserOp} (allowed : P o) : (statement o).Only P :=
  Prog.only_call.mpr allowed

theorem PostgresIdentityRepository.incrementFailedLogins_only (select : ∀ id, P (.selectById id))
    (now : P .now) (count : ∀ id failedCount t, P (.update id (lockoutColumns failedCount t)))
    (userId : Int) : (incrementFailedLogins userId).Only P := by
  refine (statement_only (select userId)).bind fun found => ?_
  match found with
  | none => trivial
  | some user =>
      refine (statement_only now).bind fun t => ?_
      match user with
      | none => trivial
      | some user => exact statement_only (count _ _ _)

theorem PostgresIdentityRepository.findAndUpdate_only (select : ∀ id, P (.selectById id))
    {columns : UserColumns} (update : ∀ id, P (.update id columns)) (userId : Int) :
    (findAndUpdate userId columns).Only P := by
  refine (statement_only (select userId)).bind fun found => ?_
  match found with
  | none => trivial
  | some none => trivial
  | some (some user) => exact statement_only (update user.id)

/-- A matched password resets the counter and writes a new hash, and executes nothing else that
writes. -/
theorem AuthService.afterMatch_only (select : ∀ id, P (.selectById id))
    (hash : ∀ password, P (.hashPassword password)) (reset : ∀ id, P (.update id .resetLockout))
    (rehash : ∀ id newHash, P (.update id (.passwordHash newHash))) (user : UserRow)
    (password : String) : (afterMatch user password).Only P := by
  have resets : (resetCounter user).Only P := by
    unfold resetCounter
    split
    · exact PostgresIdentityRepository.findAndUpdate_only select reset _
    · trivial
  refine resets.bind fun _ => ?_
  unfold rehashLegacy
  split
  · refine (statement_only (hash password)).bind fun newHash => ?_
    match newHash with
    | none => trivial
    | some newHash =>
        have update : (PostgresIdentityRepository.updatePasswordHash user.id newHash).Only P :=
          PostgresIdentityRepository.findAndUpdate_only select (fun id => rehash id newHash) _
        exact update.bind fun _ => trivial
  · trivial

end Only

/-! ## The forced change of a password -/

/-- What the handler reads of the session and of the body. -/
structure ForcedChangeRequest where
  /-- `userId` of the session; empty without one. -/
  sessUserId : String
  /-- `sub` of the session. -/
  sessSub : Option String := none
  mustChangePassword : Bool := true
  /-- `old_password` and `new_password` of a JSON body. -/
  body : Option (String × String)
deriving DecidableEq, Repr

/-- Details that end in the driver's text stand without it. -/
inductive ForcedChangeReply where
  | error (code detail : String)
  | changed (message : String)
deriving DecidableEq, Repr

/-- The answer to a wrong `old_password`. -/
def ForcedChangeReply.wrongPassword : ForcedChangeReply :=
  .error "AUTH_INVALID_CREDENTIALS" "password/change: current password is incorrect"

namespace SessionController

variable (site : LoginSite)

/-- The old and the new password, unless the request is refused at once. -/
def forcedChangeInput (req : ForcedChangeRequest) : Except ForcedChangeReply (String × String) :=
  if req.sessUserId = "" ∨ req.mustChangePassword = false then
    .error (.error "AUTH_SESSION_REQUIRED"
      "password/change: only available to a session flagged must_change_password")
  else
    match req.body with
    | none => .error (.error "VALIDATION_INVALID_INPUT" "password/change: a JSON body is required")
    | some (oldPassword, newPassword) =>
      if oldPassword = "" ∨ newPassword = "" then
        .error (.error "VALIDATION_MISSING_REQUIRED_FIELD"
          "password/change: old_password and new_password are required")
      else if newPassword.utf8ByteSize < site.passwordMinLength then
        .error (.error "VALIDATION_PASSWORD_TOO_SHORT"
          ("password/change: new password must be at least " ++ toString site.passwordMinLength ++
            " characters"))
      else if newPassword.utf8ByteSize > 128 then
        .error (.error "VALIDATION_INVALID_INPUT"
          "password/change: new password must be at most 128 characters")
      else .ok (oldPassword, newPassword)

/-- Once the old password has been verified. -/
def changePassword (user : UserRow) (sessSub newPassword : String) :
    UserProg ForcedChangeReply := do
  let newHash : Option String ← statement (.hashPassword newPassword)
  match newHash with
  | none => return .error "INTERNAL_ERROR" "Password hashing failed: "
  | some newHash =>
    let updated : Bool ← statement (.update user.id (.newPassword newHash))
    if updated = false then return .error "DB_QUERY_ERROR" "Failed to update password: "
    else
      let access : Bool ← statement (.revokeAccessTokens sessSub (toString user.id))
      if access = false then return .error "DB_QUERY_ERROR" "Failed to revoke access tokens: "
      else
        let refresh : Bool ← statement (.revokeRefreshTokens sessSub (toString user.id))
        if refresh = false then return .error "DB_QUERY_ERROR" "Failed to revoke refresh tokens: "
        else if user.email ≠ "" ∧ user.emailVerified = false then
          return .changed ("Password changed successfully. A verification " ++
            "email has been sent to your address — verify " ++ "it, then sign in.")
        else return .changed "Password changed successfully. Sign in again to continue."

/-- A failure is counted over the row that was read for the check. -/
def changeFound (user : UserRow) (sessSub oldPassword newPassword : String) :
    UserProg ForcedChangeReply := do
  let nowSecs : Int ← statement .now
  if user.lockedUntil > nowSecs then
    return .error "AUTH_INVALID_CREDENTIALS" "password/change: account is locked"
  else if site.hasherVerify oldPassword user.passwordHash user.salt = false then
    let nowSecs : Int ← statement .now
    let _ ← statement (.update user.id (lockoutColumns user.failedLoginCount nowSecs))
    return .wrongPassword
  else changePassword user sessSub newPassword

/-- `SessionController::changePasswordForced`. -/
def changePasswordForced (req : ForcedChangeRequest) : UserProg ForcedChangeReply :=
  match forcedChangeInput site req with
  | .error reply => return reply
  | .ok (oldPassword, newPassword) =>
    match stoInt (2 ^ 31) req.sessUserId with
    | none => return .error "AUTH_SESSION_REQUIRED" "password/change: invalid session user id"
    | some internalId => do
      let found : Option (Option UserRow) ← statement (.selectLiveById internalId)
      match found with
      | none => return .error "DB_QUERY_ERROR" "Failed to load user: "
      | some none =>
        return .error "VALIDATION_RESOURCE_NOT_FOUND" "password/change: user not found"
      | some (some user) =>
        changeFound site user (req.sessSub.getD req.sessUserId) oldPassword newPassword

end SessionController

namespace FailedLogins

/-! ## Attempts -/

/-- The two requests that check a password. -/
inductive Attempt where
  | login (identifier password : String)
  | changePasswordForced (req : ForcedChangeRequest)

/-- What they answer. -/
inductive AttemptAnswer where
  | login (result : LoginResult)
  | change (reply : ForcedChangeReply)
deriving DecidableEq

/-- The program that a request runs. -/
def Attempt.prog (site : LoginSite) : Attempt → UserProg AttemptAnswer
  | login identifier password =>
    AttemptAnswer.login <$> AuthService.validateUser site identifier password
  | changePasswordForced req =>
    AttemptAnswer.change <$> SessionController.changePasswordForced site req

/-- The attempt failed on the password of user `u`. -/
def fails (u : Int) : Attempt → AttemptAnswer → Bool
  | .login _ _, .login (.wrongPassword id) => id = u
  | .changePasswordForced req, .change reply =>
    reply = .wrongPassword && decide (stoInt (2 ^ 31) req.sessUserId = some u)
  | _, _ => false

/-- Run a schedule of attempts. -/
def runAttempts {ι : Type} [DecidableEq ι] (site : LoginSite) (env : Nat → UserMoment)
    (attempts : ι → Attempt) (s : UserRows) (sched : List ι) :
    Pool UserSig ι AttemptAnswer (UserWorld ι) :=
  Pool.run (World.handler fun n => execUser (env n))
    { store := World.start s, prog := fun i => (attempts i).prog site } sched

section Log

variable {ι : Type}

/-- The attempt, if the event has raised the count of `u`. -/
def countsFor (u : Int) : UserEvent ι → Option ι
  | ⟨i, _, .update id (.lockout _ _ _), ok, _⟩ =>
    if (ok : Bool) = true ∧ id = u then some i else none
  | _ => none

/-- The attempts that have counted for `u`, newest first. -/
def counters (u : Int) (log : List (UserEvent ι)) : List ι :=
  log.filterMap (countsFor u)

/-- The event has reset the count of `u`. -/
def resets (u : Int) : UserEvent ι → Bool
  | ⟨_, _, .update id .resetLockout, ok, _⟩ => (ok : Bool) && decide (id = u)
  | _ => false

/-- What an event read from the clock. -/
def clockOf : UserEvent ι → Option Int
  | ⟨_, _, .now, t, _⟩ => some t
  | _ => none

/-- No look-up by primary key and no count is refused, and a count finds the row it has
read: it sets one more than is there. -/
def inTurn : UserEvent ι → Bool
  | ⟨_, _, .selectById _, found, _⟩ => Option.isSome found
  | ⟨_, _, .update id (.lockout n _ _), ok, pre⟩ =>
    (ok : Bool) && (pre.find? id).all fun u => n = u.failedLoginCount + 1
  | _ => true

variable [DecidableEq ι]

/-- The attempts on `u` that have failed on its password. -/
def failedAttempts (attempts : ι → Attempt) (u : Int)
    (c : Pool UserSig ι AttemptAnswer (UserWorld ι)) : List ι :=
  (c.store.log.map fun e => e.thread).dedup.filter fun i =>
    (c.answer? i).any (fails u (attempts i))

end Log

end FailedLogins

end Fulla
