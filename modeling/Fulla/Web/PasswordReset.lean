import Fulla.Conc.History
import Fulla.Storage.Effects
import Fulla.Web.Site

/-!
# Password resets and changes

`PasswordResetService::confirmReset` and `UserSelfServiceController::changePassword`: each
changes the password by a chain of statements, the last of which revoke the tokens of the
user.  A statement that fails does nothing, and its error callback goes on or answers.
Logging is left out.

What is answered need not be what was done: the reset goes on after a failed revocation and
still answers that the sessions have been revoked, and the change revokes the tokens stored
under the public subject only.  `answers_kept_iff` says of every call of every run when its
answer is true, and that a reset token changes at most one password.
-/

namespace Fulla

open Conc

/-- A row of `password_reset_tokens`. -/
structure ResetToken where
  tokenHash : String
  userId : Int
  expiresAt : Int
  used : Bool := false
deriving DecidableEq, Repr

/-- Mapper update of the self service: the hash, and the forced change is over. -/
def User.changePassword (newHash : String) : User.Update where
  apply u := { u with passwordHash := newHash, salt := "", mustChangePassword := false }
  id_eq _ := rfl
  publicSub_eq _ := rfl
  mfaEnabled_eq _ := rfl

namespace PasswordReset

/-- The tables that the two handlers work on. -/
structure Accounts where
  users : Users
  db : Db := {}
  resetTokens : Table ResetToken.tokenHash := .empty

/-- The statements of the two handlers. -/
inductive Statement where
  | consumeToken
  | findUser
  | updateUser
  | revokeAccess
  | revokeRefresh
  | invalidateOthers
deriving DecidableEq, Repr

/-- What is fixed. -/
structure PasswordSite where
  crypto : CryptoProvider
  /-- `PasswordHasher::verify(password, hash, salt)`. -/
  verify : String → String → String → Bool
  passwordMinLength : Nat := 8

/-- What one call finds around it. -/
structure Surroundings where
  now : Int
  /-- `app().getDbClient()` answers. -/
  dbAvailable : Bool := true
  /-- `PasswordHasher::hash`, under the salt it draws; `none` when it throws. -/
  hash : String → Option String
  fails : Statement → Bool := fun _ => false
  /-- What the exceptions say. -/
  what : String := ""

/-- What a change of the password answers. -/
inductive Reply where
  | error (code detail : String)
  | changed (message : String) (note : Option String)
deriving DecidableEq, Repr

/-- The note of both handlers. -/
def sessionsRevoked : String :=
  "All existing sessions have been revoked"

namespace Accounts

variable (m : Surroundings)

/-- The statement does its work unless it fails. -/
def unlessFails (statement : Statement) (work : Accounts → Accounts) (s : Accounts) : Accounts :=
  if m.fails statement then s else work s

/-- `WHERE token_hash = $1 AND used = false AND expires_at > $2`. -/
def usableToken (s : Accounts) (tokenHash : String) : Option ResetToken :=
  (s.resetTokens.find? tokenHash).filter fun t => !t.used && m.now < t.expiresAt

/-- `findOne` by the primary key; no row is an error too. -/
def findUserById (s : Accounts) (id : Int) : Option User :=
  if m.fails .findUser then none else s.users.findOne fun u => u.id = id

/-- `UPDATE password_reset_tokens SET used = true` for the rows `sel` selects. -/
def useTokens (sel : ResetToken → Bool) (s : Accounts) : Accounts :=
  { s with
    resetTokens := s.resetTokens.updateWhere sel (fun t => { t with used := true }) fun _ => rfl }

/-- `UPDATE oauth2_access_tokens SET revoked = true` for the subjects `sel` selects. -/
def revokeAccess (sel : String → Bool) (s : Accounts) : Accounts :=
  { s with db := s.db.revokeAccessWhere fun a => sel a.userId }

/-- The refresh tokens of the selected users are revoked. -/
def revokeRefresh (sel : String → Bool) (s : Accounts) : Accounts :=
  { s with db := s.db.revokeRefreshWhere fun r => sel r.userId }

/-- The two statements; whether the first fails makes no difference to the second. -/
def revokeTokens (sel : String → Bool) (s : Accounts) : Accounts :=
  (s.unlessFails m .revokeAccess (revokeAccess sel)).unlessFails m .revokeRefresh
    (revokeRefresh sel)

end Accounts

/-! ## The handlers -/

variable (site : PasswordSite) (m : Surroundings)

/-- Both keys a token of the user may be stored under. -/
def underEitherKey (user : User) (subject : String) : Bool :=
  subject = user.publicSub || subject = toString user.id

/-- After the password is changed; every error callback goes on to the next statement. -/
def finishReset (user : User) (s : Accounts) : Reply × Accounts :=
  let s := s.revokeTokens m (underEitherKey user)
  let s := s.unlessFails m .invalidateOthers
    (Accounts.useTokens fun t => t.userId = user.id && !t.used)
  (.changed "Password reset successful" (some sessionsRevoked), s)

/-- `PasswordResetService::confirmReset`. -/
def confirmReset (token newPassword : String) (s : Accounts) : Reply × Accounts :=
  if token = "" ∨ newPassword = "" then
    (.error "VALIDATION_MISSING_REQUIRED_FIELD"
      "password-reset confirm: token and new_password are required", s)
  else if newPassword.utf8ByteSize < site.passwordMinLength then
    (.error "VALIDATION_PASSWORD_TOO_SHORT"
      ("password-reset confirm: password must be at least " ++ toString site.passwordMinLength ++
        " characters"), s)
  else if m.dbAvailable = false then
    (.error "DB_CONNECTION_ERROR" "Database unavailable", s)
  else if m.fails .consumeToken then
    (.error "DB_QUERY_ERROR" ("Reset token lookup failed: " ++ m.what), s)
  else
    let tokenHash := hashToken site.crypto token
    match s.usableToken m tokenHash with
    | none =>
      (.error "VALIDATION_RESET_TOKEN_INVALID"
        "password-reset confirm: token is invalid, expired, or already used", s)
    | some row =>
      let s := s.useTokens fun t => t.tokenHash = tokenHash
      match m.hash newPassword with
      | none => (.error "INTERNAL_ERROR" ("Password hashing failed: " ++ m.what), s)
      | some newHash =>
        match s.findUserById m row.userId with
        | none =>
          (.error "DB_QUERY_ERROR" ("Failed to find user for password update: " ++ m.what), s)
        | some user =>
          if m.fails .updateUser then
            (.error "DB_QUERY_ERROR" ("Failed to update password: " ++ m.what), s)
          else
            finishReset m user
              { s with users := s.users.update user.id (User.updatePasswordHash newHash) }

/-- After the password is changed; the note is left out once a statement has failed. -/
def finishChange (userId : String) (s : Accounts) : Reply × Accounts :=
  let note :=
    if m.fails .revokeAccess || m.fails .revokeRefresh then none else some sessionsRevoked
  (.changed "Password changed successfully" note, s.revokeTokens m fun subject => subject = userId)

/-- `userId` is the subject of the bearer token; `body` the two passwords of the JSON body. -/
def changePassword (userId : String) (body : Option (String × String)) (s : Accounts) :
    Reply × Accounts :=
  match body with
  | none => (.error "VALIDATION_INVALID_INPUT" "changePassword: JSON body is required", s)
  | some (oldPassword, newPassword) =>
    if oldPassword = "" ∨ newPassword = "" then
      (.error "VALIDATION_MISSING_REQUIRED_FIELD"
        "changePassword: old_password and new_password are required", s)
    else if newPassword.utf8ByteSize < site.passwordMinLength then
      (.error "VALIDATION_PASSWORD_TOO_SHORT"
        ("changePassword: new password must be at least " ++ toString site.passwordMinLength ++
          " characters"), s)
    else if m.dbAvailable = false then
      (.error "DB_CONNECTION_ERROR" "changePassword: database unavailable", s)
    else if m.fails .findUser then
      (.error "DB_QUERY_ERROR" ("changePassword lookup failed: " ++ m.what), s)
    else
      match s.users.findByPublicSub userId with
      | none => (.error "VALIDATION_RESOURCE_NOT_FOUND" "changePassword: user not found", s)
      | some user =>
        if site.verify oldPassword user.passwordHash user.salt = false then
          (.error "AUTH_INVALID_CREDENTIALS" "changePassword: current password is incorrect", s)
        else
          match m.hash newPassword with
          | none => (.error "INTERNAL_ERROR" ("Password hashing failed: " ++ m.what), s)
          | some newHash =>
            if m.fails .updateUser then
              (.error "DB_QUERY_ERROR" ("Password update failed: " ++ m.what), s)
            else
              finishChange m userId
                { s with users := s.users.update user.id (User.changePassword newHash) }

/-! ## Runs -/

/-- The two calls that change a password. -/
inductive Call where
  | confirmReset (token newPassword : String)
  | changePassword (userId : String) (body : Option (String × String))

/-- What a call does. -/
def Call.exec (m : Surroundings) (s : Accounts) : Call → Reply × Accounts
  | .confirmReset token newPassword => PasswordReset.confirmReset site m token newPassword s
  | .changePassword userId body => PasswordReset.changePassword site m userId body s

/-- A call and its surroundings. -/
abbrev Step := Surroundings × Call

/-- What a call does in its surroundings. -/
def Step.exec (s : Accounts) (step : Step) : Reply × Accounts :=
  step.2.exec site step.1 s

/-- The calls of a run, newest first, each with the tables it found. -/
def steps (start : Accounts) (calls : List Step) : List (Accounts × Step) :=
  (History.run (fun s step => (Step.exec site s step).2) start calls).1

/-! ## What an answer should mean -/

/-- The user whose password a call is about. -/
def subjectOf (s : Accounts) : Call → Option User
  | .confirmReset token _ =>
    (s.resetTokens.find? (hashToken site.crypto token)).bind fun row =>
      s.users.findOne fun u => u.id = row.userId
  | .changePassword userId _ => s.users.findByPublicSub userId

/-- The password a call asks for. -/
def requestedPassword : Call → Option String
  | .confirmReset _ newPassword => some newPassword
  | .changePassword _ body => body.map Prod.snd

/-- The stored hash of the user is one of the password. -/
def PasswordSet (s : Accounts) (user : User) (newHash : String) : Prop :=
  ∃ user', s.users.find? user.publicSub = some user' ∧ user'.id = user.id ∧
    user'.passwordHash = newHash ∧ user'.salt = ""

/-- No token of the user is good any more, under either key. -/
structure TokensRevoked (db : Db) (sel : String → Bool) : Prop where
  access : ∀ a ∈ db.accessTokens.rows, sel a.userId = true → a.revoked = true
  refresh : ∀ r ∈ db.refreshTokens.rows, sel r.userId = true → r.revoked = true

/-- No reset token of the user is usable. -/
def NoTokenUsable (s : Accounts) (now : Int) (user : User) : Prop :=
  ∀ t ∈ s.resetTokens.rows, t.userId = user.id → t.used = false → t.expiresAt ≤ now

/-- What the answer of the call promises. -/
structure Kept (e : Accounts × Step) : Prop where
  sessions : ∀ message, (Step.exec site e.1 e.2).1 = .changed message (some sessionsRevoked) →
    ∃ user newHash, subjectOf site e.1 e.2.2 = some user ∧
      (requestedPassword e.2.2).bind e.2.1.hash = some newHash ∧
      PasswordSet (Step.exec site e.1 e.2).2 user newHash ∧
      TokensRevoked (Step.exec site e.1 e.2).2.db (underEitherKey user)
  others : ∀ token newPassword, e.2.2 = .confirmReset token newPassword →
    ∀ message note, (Step.exec site e.1 e.2).1 = .changed message note →
    ∃ user, subjectOf site e.1 e.2.2 = some user ∧
      NoTokenUsable (Step.exec site e.1 e.2).2 e.2.1.now user

/-! ## When it does -/

/-- The user whose password a call changes: it passes every check and no statement fails before
the password is written. -/
def Changes (s : Accounts) (step : Step) (user : User) (newHash : String) : Prop :=
  subjectOf site s step.2 = some user ∧
    (requestedPassword step.2).bind step.1.hash = some newHash ∧
    step.1.dbAvailable = true ∧ step.1.fails .findUser = false ∧ step.1.fails .updateUser = false ∧
    match step.2 with
    | .confirmReset token newPassword =>
      token ≠ "" ∧ newPassword ≠ "" ∧ site.passwordMinLength ≤ newPassword.utf8ByteSize ∧
        step.1.fails .consumeToken = false ∧
        (s.usableToken step.1 (hashToken site.crypto token)).isSome
    | .changePassword _ body =>
      ∀ passwords, body = some passwords → passwords.1 ≠ "" ∧ passwords.2 ≠ "" ∧
        site.passwordMinLength ≤ passwords.2.utf8ByteSize ∧
        site.verify passwords.1 user.passwordHash user.salt = true

/-- A statement does not fail, or has nothing to do. -/
def DoneOrIdle (m : Surroundings) (statement : Statement) (idle : Prop) : Prop :=
  m.fails statement = false ∨ idle

/-- What a call that changes the password of the user must meet for its answer to be true. -/
def Clean (s : Accounts) (step : Step) (user : User) : Prop :=
  match step.2 with
  | .confirmReset token _ =>
    DoneOrIdle step.1 .revokeAccess
        (∀ a ∈ s.db.accessTokens.rows, underEitherKey user a.userId = true → a.revoked = true) ∧
      DoneOrIdle step.1 .revokeRefresh
        (∀ r ∈ s.db.refreshTokens.rows, underEitherKey user r.userId = true → r.revoked = true) ∧
      DoneOrIdle step.1 .invalidateOthers
        (∀ t ∈ s.resetTokens.rows, t.tokenHash ≠ hashToken site.crypto token →
          t.userId = user.id → t.used = false → t.expiresAt ≤ step.1.now)
  | .changePassword _ _ =>
    step.1.fails .revokeAccess = true ∨ step.1.fails .revokeRefresh = true ∨
      TokensRevoked s.db fun subject =>
        subject = toString user.id && subject ≠ user.publicSub

variable {site} {m}

namespace Accounts

variable {s : Accounts} {sel sel' : String → Bool}

/-- The access tokens that `sel'` selects are revoked after the statement for `sel`: those of the
others were before. -/
theorem access_revoked_iff :
    (∀ a ∈ (s.unlessFails m .revokeAccess (revokeAccess sel)).db.accessTokens.rows,
        sel' a.userId = true → a.revoked = true) ↔
      ∀ a ∈ s.db.accessTokens.rows, sel' a.userId = true →
        m.fails .revokeAccess = false ∧ sel a.userId = true ∨ a.revoked = true := by
  unfold unlessFails
  cases m.fails .revokeAccess with
  | true => simp
  | false =>
      simp only [Bool.false_eq_true, if_false, true_and, revokeAccess, Db.revokeAccessWhere,
        Table.forall_mem_updateWhere]
      refine forall_congr' fun a => forall_congr' fun _ => ?_
      cases sel a.userId <;> simp

theorem refresh_revoked_iff :
    (∀ r ∈ (s.unlessFails m .revokeRefresh (revokeRefresh sel)).db.refreshTokens.rows,
        sel' r.userId = true → r.revoked = true) ↔
      ∀ r ∈ s.db.refreshTokens.rows, sel' r.userId = true →
        m.fails .revokeRefresh = false ∧ sel r.userId = true ∨ r.revoked = true := by
  unfold unlessFails
  cases m.fails .revokeRefresh with
  | true => simp
  | false =>
      simp only [Bool.false_eq_true, if_false, true_and, revokeRefresh, Db.revokeRefreshWhere,
        Table.forall_mem_updateWhere]
      refine forall_congr' fun r => forall_congr' fun _ => ?_
      cases sel r.userId <;> simp

theorem unlessFails_refreshTokens {statement : Statement} {work : Accounts → Accounts}
    (own : (work s).db.refreshTokens = s.db.refreshTokens) :
    (s.unlessFails m statement work).db.refreshTokens = s.db.refreshTokens := by
  unfold unlessFails
  split
  · rfl
  · exact own

theorem unlessFails_accessTokens {statement : Statement} {work : Accounts → Accounts}
    (own : (work s).db.accessTokens = s.db.accessTokens) :
    (s.unlessFails m statement work).db.accessTokens = s.db.accessTokens := by
  unfold unlessFails
  split
  · rfl
  · exact own

/-- **When a revocation leaves no token**, by what it selects and what fails. -/
theorem tokensRevoked_iff :
    TokensRevoked (s.revokeTokens m sel).db sel' ↔
      (∀ a ∈ s.db.accessTokens.rows, sel' a.userId = true →
        m.fails .revokeAccess = false ∧ sel a.userId = true ∨ a.revoked = true) ∧
      ∀ r ∈ s.db.refreshTokens.rows, sel' r.userId = true →
        m.fails .revokeRefresh = false ∧ sel r.userId = true ∨ r.revoked = true := by
  have access : (s.revokeTokens m sel).db.accessTokens =
      (s.unlessFails m .revokeAccess (revokeAccess sel)).db.accessTokens :=
    unlessFails_accessTokens rfl
  have refresh : (s.unlessFails m .revokeAccess (revokeAccess sel)).db.refreshTokens =
      s.db.refreshTokens := unlessFails_refreshTokens rfl
  rw [← access_revoked_iff, ← access, ← refresh, ← refresh_revoked_iff]
  exact ⟨fun revoked => ⟨revoked.access, revoked.refresh⟩, fun both => ⟨both.1, both.2⟩⟩

/-- For the statement's own subjects: it does not fail, or it has nothing to do. -/
theorem tokensRevoked_own_iff :
    TokensRevoked (s.revokeTokens m sel).db sel ↔
      DoneOrIdle m .revokeAccess
          (∀ a ∈ s.db.accessTokens.rows, sel a.userId = true → a.revoked = true) ∧
        DoneOrIdle m .revokeRefresh
          (∀ r ∈ s.db.refreshTokens.rows, sel r.userId = true → r.revoked = true) := by
  rw [tokensRevoked_iff, DoneOrIdle, DoneOrIdle]
  cases m.fails .revokeAccess <;> cases m.fails .revokeRefresh <;> simp +contextual

/-- Of the subjects under either key, those under the public subject are covered. -/
theorem tokensRevoked_public_iff {user : User} (access : m.fails .revokeAccess = false)
    (refresh : m.fails .revokeRefresh = false) :
    TokensRevoked (s.revokeTokens m fun subject => subject = user.publicSub).db
        (underEitherKey user) ↔
      TokensRevoked s.db fun subject => subject = toString user.id && subject ≠ user.publicSub := by
  have split_ {β : Type} {rows : List β} {userId : β → String} {revoked : β → Bool} :
      (∀ b ∈ rows, underEitherKey user (userId b) = true →
          decide (userId b = user.publicSub) = true ∨ revoked b = true) ↔
        ∀ b ∈ rows, (userId b = toString user.id && userId b ≠ user.publicSub) = true →
          revoked b = true := by
    refine forall_congr' fun b => forall_congr' fun _ => ?_
    by_cases own : userId b = user.publicSub <;> simp [underEitherKey, own]
  rw [tokensRevoked_iff, access, refresh]
  simp only [true_and]
  rw [split_, split_]
  exact ⟨fun both => ⟨both.1, both.2⟩, fun revoked => ⟨revoked.access, revoked.refresh⟩⟩

end Accounts

/-! ## The chains -/

/-- The tables once the password is written. -/
def written (site : PasswordSite) (s : Accounts) (user : User) (newHash : String) :
    Call → Accounts
  | .confirmReset token _ =>
    { s.useTokens fun t => t.tokenHash = hashToken site.crypto token with
      users := s.users.update user.id (User.updatePasswordHash newHash) }
  | .changePassword _ _ =>
    { s with users := s.users.update user.id (User.changePassword newHash) }

/-- The rest of the chain. -/
def finish (m : Surroundings) (user : User) : Call → Accounts → Reply × Accounts
  | .confirmReset _ _ => finishReset m user
  | .changePassword userId _ => finishChange m userId

variable {s : Accounts} {step : Step} {user : User} {newHash : String}

/-- A call that changes a password sets it and then finishes. -/
theorem exec_of_changes (changes : Changes site s step user newHash) :
    Step.exec site s step = finish step.1 user step.2 (written site s user newHash step.2) := by
  obtain ⟨m, call⟩ := step
  obtain ⟨subject, hashed, available, finds, updates, passes⟩ := changes
  cases call with
  | confirmReset token newPassword =>
      dsimp only at subject hashed available finds updates passes
      obtain ⟨hasToken, hasPassword, long, consumes, usable⟩ := passes
      obtain ⟨row, found, user_⟩ := Option.bind_eq_some_iff.mp subject
      obtain ⟨row', usable⟩ := Option.isSome_iff_exists.mp usable
      cases (Option.filter_eq_some_iff.mp usable).1.symm.trans found
      have hashed : m.hash newPassword = some newHash := hashed
      simp only [Step.exec, Call.exec, confirmReset, hasToken, hasPassword, or_self, if_false,
        Nat.not_lt.mpr long, available, Bool.true_eq_false, consumes, Bool.false_eq_true, usable,
        hashed, Accounts.findUserById, finds, Accounts.useTokens, user_, updates]
      rfl
  | changePassword userId body =>
      dsimp only at subject hashed available finds updates passes
      obtain ⟨password, asked, hashed⟩ := Option.bind_eq_some_iff.mp hashed
      obtain ⟨passwords, rfl, rfl⟩ := Option.map_eq_some_iff.mp asked
      obtain ⟨hasOld, hasNew, long, verified⟩ := passes passwords rfl
      have subject : s.users.findByPublicSub userId = some user := subject
      simp only [Step.exec, Call.exec, changePassword, hasOld, hasNew, or_self, if_false,
        Nat.not_lt.mpr long, available, Bool.true_eq_false, finds, Bool.false_eq_true, subject,
        verified, hashed, updates]
      rfl

/-- An answer that tells of a change stands for one. -/
theorem changes_of_exec {message : String} {note : Option String}
    (answered : (Step.exec site s step).1 = .changed message note) :
    ∃ user newHash, Changes site s step user newHash := by
  obtain ⟨m, call⟩ := step
  cases call with
  | confirmReset token newPassword =>
      simp only [Step.exec, Call.exec, confirmReset] at answered
      split_ifs at answered with blank short unavailable fails updates
      · split at answered
        · cases answered
        · split at answered
          · cases answered
          · split at answered <;> cases answered
      · split at answered
        · cases answered
        · next row usable =>
            split at answered
            · cases answered
            · next newHash hashed =>
                split at answered
                · cases answered
                · next user found =>
                    have row_ := (Option.filter_eq_some_iff.mp usable).1
                    unfold Accounts.findUserById at found
                    split_ifs at found with finds
                    obtain ⟨hasToken, hasPassword⟩ := not_or.mp blank
                    refine ⟨user, newHash, Option.bind_eq_some_iff.mpr ⟨row, row_, found⟩, hashed,
                      ?_, ?_, ?_, hasToken, hasPassword, Nat.not_lt.mp short, ?_, ?_⟩
                    · simpa using unavailable
                    · simpa using finds
                    · simpa using updates
                    · simpa using fails
                    · exact Option.isSome_of_eq_some usable
  | changePassword userId body =>
      cases body with
      | none => cases answered
      | some passwords =>
          simp only [Step.exec, Call.exec, changePassword] at answered
          split_ifs at answered with blank short unavailable finds updates
          · split at answered
            · cases answered
            · split_ifs at answered
              split at answered <;> cases answered
          · split at answered
            · cases answered
            · next user found =>
                split_ifs at answered with verified
                split at answered
                · cases answered
                · next newHash hashed =>
                    obtain ⟨hasOld, hasNew⟩ := not_or.mp blank
                    refine ⟨user, newHash, found, hashed, ?_, ?_, ?_, ?_⟩
                    · simpa using unavailable
                    · simpa using finds
                    · simpa using updates
                    · intro passwords' same
                      cases same
                      exact ⟨hasOld, hasNew, Nat.not_lt.mp short, by simpa using verified⟩

/-! ## What the chains leave -/

/-- The subject of a call is a user of the table. -/
theorem find?_of_subjectOf {call : Call} (subject : subjectOf site s call = some user) :
    s.users.find? user.publicSub = some user := by
  cases call with
  | confirmReset token newPassword =>
      obtain ⟨row, -, found⟩ := Option.bind_eq_some_iff.mp subject
      exact Table.find?_eq_some.mpr ⟨(Users.mem_of_findOne found).1, rfl⟩
  | changePassword userId body =>
      have found := Users.find?_of_findByPublicSub subject
      rw [Table.find?_key found]
      exact found

theorem finish_users (m : Surroundings) (call : Call) (s : Accounts) :
    (finish m user call s).2.users = s.users := by
  have same (s : Accounts) {statement : Statement} {work : Accounts → Accounts}
      (own : (work s).users = s.users) : (s.unlessFails m statement work).users = s.users := by
    unfold Accounts.unlessFails
    split
    · rfl
    · exact own
  have tokens (s : Accounts) (sel : String → Bool) : (s.revokeTokens m sel).users = s.users :=
    (same _ rfl).trans (same _ rfl)
  cases call with
  | confirmReset token newPassword => exact (same _ rfl).trans (tokens _ _)
  | changePassword userId body => exact tokens _ _

/-- After a change the new password is the one that is stored. -/
theorem passwordSet (changes : Changes site s step user newHash) :
    PasswordSet (Step.exec site s step).2 user newHash := by
  have stored := find?_of_subjectOf changes.1
  rw [exec_of_changes changes, PasswordSet, finish_users]
  cases step.2 with
  | confirmReset token newPassword =>
      refine ⟨(User.updatePasswordHash newHash).apply user, ?_, rfl, rfl, rfl⟩
      simp [written, Users.update, stored]
  | changePassword userId body =>
      refine ⟨(User.changePassword newHash).apply user, ?_, rfl, rfl, rfl⟩
      simp [written, Users.update, stored]

/-- The reset tokens that a reset of the user leaves usable. -/
theorem noTokenUsable_finishReset {now : Int} {token : String} {s₀ : Accounts}
    (consumed : s₀.resetTokens =
      (s.useTokens fun t => t.tokenHash = hashToken site.crypto token).resetTokens) :
    NoTokenUsable (finishReset m user s₀).2 now user ↔
      DoneOrIdle m .invalidateOthers (∀ t ∈ s.resetTokens.rows,
        t.tokenHash ≠ hashToken site.crypto token → t.userId = user.id → t.used = false →
          t.expiresAt ≤ now) := by
  have tokens : (s₀.revokeTokens m (underEitherKey user)).resetTokens = s₀.resetTokens := by
    unfold Accounts.revokeTokens Accounts.unlessFails
    split_ifs <;> rfl
  simp only [finishReset, NoTokenUsable, DoneOrIdle, Accounts.unlessFails]
  cases m.fails .invalidateOthers with
  | true =>
      simp only [if_true, reduceCtorEq, false_or]
      rw [tokens, consumed, Accounts.useTokens]
      simp only [Table.forall_mem_updateWhere]
      refine forall_congr' fun t => forall_congr' fun _ => ?_
      by_cases own : t.tokenHash = hashToken site.crypto token <;> simp [own]
  | false =>
      simp only [Bool.false_eq_true, if_false, true_or, iff_true]
      rw [Accounts.useTokens, Table.forall_mem_updateWhere]
      intro t _ mine unused
      split_ifs at mine unused with own
      simp only [Bool.and_eq_true, decide_eq_true_eq, Bool.not_eq_true'] at own
      exact absurd ⟨mine, unused⟩ own

/-- A reset revokes by either key of the user. -/
theorem finishReset_db (m : Surroundings) (user : User) (s : Accounts) :
    (finishReset m user s).2.db = (s.revokeTokens m (underEitherKey user)).db := by
  simp only [finishReset, Accounts.unlessFails]
  split_ifs <;> rfl

/-- The answer of a reset is true just when each of its three statements has done its work. -/
theorem kept_confirmReset_iff {m : Surroundings} {token newPassword : String}
    (changes : Changes site s (m, .confirmReset token newPassword) user newHash) :
    Kept site (s, (m, .confirmReset token newPassword)) ↔
      Clean site s (m, .confirmReset token newPassword) user := by
  have exec := exec_of_changes changes
  have set_ := passwordSet changes
  obtain ⟨subject, hashed, -⟩ := changes
  have post : (Step.exec site s (m, .confirmReset token newPassword)).2 =
      (finishReset m user (written site s user newHash (.confirmReset token newPassword))).2 :=
    congrArg Prod.snd exec
  have tokens := @Accounts.tokensRevoked_own_iff m
    (written site s user newHash (.confirmReset token newPassword)) (underEitherKey user)
  rw [← finishReset_db, ← post] at tokens
  have consumed : (written site s user newHash (.confirmReset token newPassword)).resetTokens =
      (s.useTokens fun t => t.tokenHash = hashToken site.crypto token).resetTokens := rfl
  have others := @noTokenUsable_finishReset site m s user m.now token _ consumed
  rw [← post] at others
  constructor
  · intro kept
    obtain ⟨user', -, same, -, -, revoked⟩ :=
      kept.sessions "Password reset successful" (congrArg Prod.fst exec)
    obtain ⟨user'', same', unusable⟩ := kept.others token newPassword rfl
      "Password reset successful" _ (congrArg Prod.fst exec)
    cases subject.symm.trans same
    cases subject.symm.trans same'
    obtain ⟨access, refresh⟩ := tokens.mp revoked
    exact ⟨access, refresh, others.mp unusable⟩
  · rintro ⟨access, refresh, invalidated⟩
    refine ⟨fun _ _ => ⟨user, newHash, subject, hashed, set_, tokens.mpr ⟨access, refresh⟩⟩, ?_⟩
    intro _ _ _ _ _ _
    exact ⟨user, subject, others.mpr invalidated⟩

/-- The answer of a change is true just when it has no note, or every good token of the user is
stored under the public subject. -/
theorem kept_changePassword_iff {m : Surroundings} {userId : String}
    {body : Option (String × String)}
    (changes : Changes site s (m, .changePassword userId body) user newHash) :
    Kept site (s, (m, .changePassword userId body)) ↔
      Clean site s (m, .changePassword userId body) user := by
  have exec := exec_of_changes changes
  have set_ := passwordSet changes
  obtain ⟨subject, hashed, -⟩ := changes
  have public_ : user.publicSub = userId :=
    Table.find?_key (Users.find?_of_findByPublicSub subject)
  subst public_
  have post : (Step.exec site s (m, .changePassword user.publicSub body)).2 =
      (written site s user newHash (.changePassword user.publicSub body)).revokeTokens m
        fun subject => subject = user.publicSub := congrArg Prod.snd exec
  have answer : (Step.exec site s (m, .changePassword user.publicSub body)).1 =
      .changed "Password changed successfully"
        (if m.fails .revokeAccess || m.fails .revokeRefresh then none
        else some sessionsRevoked) := congrArg Prod.fst exec
  have vacuous : ∀ token newPassword,
      (.changePassword user.publicSub body : Call) = .confirmReset token newPassword →
        ∀ message note, (Step.exec site s (m, .changePassword user.publicSub body)).1 =
          .changed message note → ∃ user', subjectOf site s (.changePassword user.publicSub body) =
            some user' ∧ NoTokenUsable
              (Step.exec site s (m, .changePassword user.publicSub body)).2 m.now user' := by
    intro _ _ other
    cases other
  simp only [Clean]
  cases access : m.fails .revokeAccess with
  | true =>
      refine iff_of_true ⟨fun message noted => ?_, vacuous⟩ (.inl rfl)
      rw [answer, access] at noted
      cases noted
  | false =>
      cases refresh : m.fails .revokeRefresh with
      | true =>
          refine iff_of_true ⟨fun message noted => ?_, vacuous⟩ (.inr (.inl rfl))
          rw [answer, access, refresh] at noted
          cases noted
      | false =>
          rw [access, refresh] at answer
          have tokens := @Accounts.tokensRevoked_public_iff m
            (written site s user newHash (.changePassword user.publicSub body)) user access refresh
          rw [← post] at tokens
          simp only [reduceCtorEq, false_or]
          constructor
          · intro kept
            obtain ⟨user', -, same, -, -, revoked⟩ := kept.sessions _ answer
            cases subject.symm.trans same
            exact tokens.mp revoked
          · intro revoked
            exact ⟨fun _ _ => ⟨user, newHash, subject, hashed, set_, tokens.mpr revoked⟩, vacuous⟩

/-- What the condition on a call comes to. -/
theorem kept_iff (s : Accounts) (step : Step) :
    Kept site (s, step) ↔
      ∀ user newHash, Changes site s step user newHash → Clean site s step user := by
  have of_changes {user : User} {newHash : String} (changes : Changes site s step user newHash) :
      Kept site (s, step) ↔ Clean site s step user := by
    obtain ⟨m, call⟩ := step
    cases call with
    | confirmReset token newPassword => exact kept_confirmReset_iff changes
    | changePassword userId body => exact kept_changePassword_iff changes
  refine ⟨fun kept user newHash changes => (of_changes changes).mp kept, fun clean => ?_⟩
  by_cases some_ : ∃ user newHash, Changes site s step user newHash
  · obtain ⟨user, newHash, changes⟩ := some_
    exact (of_changes changes).mpr (clean user newHash changes)
  · exact ⟨fun _ answered => absurd (changes_of_exec answered) some_,
      fun _ _ _ _ _ answered => absurd (changes_of_exec answered) some_⟩

/-! ## A reset token -/

/-- The call changes a password with the reset token of that hash. -/
def ResetsWith (site : PasswordSite) (tokenHash : String) (e : Accounts × Step) : Prop :=
  ∃ token newPassword, e.2.2 = .confirmReset token newPassword ∧
    hashToken site.crypto token = tokenHash ∧ ∃ user newHash, Changes site e.1 e.2 user newHash

/-- The reset token of that hash is used. -/
def Used (s : Accounts) (tokenHash : String) : Prop :=
  ∃ t, s.resetTokens.find? tokenHash = some t ∧ t.used = true

/-- What is used stays used. -/
def UsedStays (s s' : Accounts) : Prop :=
  ∀ k, Used s k → Used s' k

theorem UsedStays.refl {s : Accounts} : UsedStays s s := fun _ used =>
  used

theorem UsedStays.trans {a b c : Accounts} (ab : UsedStays a b) (bc : UsedStays b c) :
    UsedStays a c := fun k used =>
  bc k (ab k used)

theorem UsedStays.of_eq {s s' : Accounts} (same : s'.resetTokens = s.resetTokens) :
    UsedStays s s' := by
  intro k used
  rw [Used, same]
  exact used

/-- Used links stay used when more are used. -/
theorem usedStays_useTokens (sel : ResetToken → Bool) (s : Accounts) :
    UsedStays s (s.useTokens sel) := by
  rintro k ⟨t, found, used⟩
  refine ⟨if sel t then { t with used := true } else t, ?_, ?_⟩
  · simp [Accounts.useTokens, found]
  · split
    · rfl
    · exact used

theorem usedStays_users (s : Accounts) (users : Users) :
    UsedStays s { s with users := users } :=
  .of_eq rfl

/-- So they do when a statement fails. -/
theorem usedStays_unlessFails {statement : Statement} {work : Accounts → Accounts}
    (own : UsedStays s (work s)) : UsedStays s (s.unlessFails m statement work) := by
  unfold Accounts.unlessFails
  split
  · exact .refl
  · exact own

theorem usedStays_revokeTokens (sel : String → Bool) (s : Accounts) :
    UsedStays s (s.revokeTokens m sel) :=
  (usedStays_unlessFails (.of_eq rfl)).trans (usedStays_unlessFails (.of_eq rfl))

theorem usedStays_finishReset (user : User) (s : Accounts) :
    UsedStays s (finishReset m user s).2 :=
  (usedStays_revokeTokens _ s).trans (usedStays_unlessFails (usedStays_useTokens _ _))

/-- So they do over a reset. -/
theorem usedStays_confirmReset (token newPassword : String) :
    UsedStays s (confirmReset site m token newPassword s).2 := by
  unfold confirmReset
  split
  · exact .refl
  split
  · exact .refl
  split
  · exact .refl
  split
  · exact .refl
  dsimp only
  split
  · exact .refl
  split
  · exact usedStays_useTokens _ s
  split
  · exact usedStays_useTokens _ s
  split
  · exact usedStays_useTokens _ s
  · exact ((usedStays_useTokens _ s).trans (usedStays_users _ _)).trans (usedStays_finishReset _ _)

/-- So they do over a change. -/
theorem usedStays_changePassword (userId : String) (body : Option (String × String)) :
    UsedStays s (changePassword site m userId body s).2 := by
  unfold changePassword
  split
  · exact .refl
  split
  · exact .refl
  split
  · exact .refl
  split
  · exact .refl
  split
  · exact .refl
  split
  · exact .refl
  split
  · exact .refl
  split
  · exact .refl
  split
  · exact .refl
  · exact (usedStays_users s _).trans (usedStays_revokeTokens _ _)

/-- **A used link stays used over every call**. -/
theorem usedStays_exec (s : Accounts) (step : Step) : UsedStays s (Step.exec site s step).2 := by
  obtain ⟨m, call⟩ := step
  cases call with
  | confirmReset token newPassword => exact usedStays_confirmReset token newPassword
  | changePassword userId body => exact usedStays_changePassword userId body

/-- A reset finds its token unused and leaves it used. -/
theorem used_of_resetsWith {tokenHash : String} (resets : ResetsWith site tokenHash (s, step)) :
    ¬ Used s tokenHash ∧ Used (Step.exec site s step).2 tokenHash := by
  obtain ⟨m, call⟩ := step
  obtain ⟨token, newPassword, rfl, rfl, user, newHash, changes⟩ := resets
  have exec := exec_of_changes changes
  obtain ⟨-, -, -, -, -, -, -, -, -, usable⟩ := changes
  obtain ⟨row, usable⟩ := Option.isSome_iff_exists.mp usable
  obtain ⟨found, fresh⟩ := Option.filter_eq_some_iff.mp usable
  constructor
  · rintro ⟨row', found', used⟩
    cases found.symm.trans found'
    simp [used] at fresh
  · rw [exec]
    refine usedStays_finishReset user _ _ ⟨{ row with used := true }, ?_, rfl⟩
    simp [written, Accounts.useTokens, found, Table.find?_key found]

/-! ## Every run -/

/-- In every run of the two calls, under any failures: the answer of a call is true just when
the call does not change a password or is clean; and no two calls change a password with one
reset token. -/
theorem answers_kept_iff (site : PasswordSite) (start : Accounts) (calls : List Step) :
    (∀ e ∈ steps site start calls, Kept site e ↔
      ∀ user newHash, Changes site e.1 e.2 user newHash → Clean site e.1 e.2 user) ∧
    ∀ tokenHash, (steps site start calls).Pairwise fun e e' =>
      ¬ (ResetsWith site tokenHash e ∧ ResetsWith site tokenHash e') := by
  refine ⟨fun e _ => kept_iff e.1 e.2, fun tokenHash => ?_⟩
  have every : History.Each (fun _ _ => True) (steps site start calls) :=
    History.each_of_forall fun _ _ => trivial
  have invariant := History.run_invariant
    (I := fun h s => (h.Pairwise fun e e' =>
        ¬ (ResetsWith site tokenHash e ∧ ResetsWith site tokenHash e')) ∧
      ∀ e ∈ h, ResetsWith site tokenHash e → Used s tokenHash) ?_ ?_ calls every
  · exact invariant.1
  · exact ⟨List.Pairwise.nil, fun _ mem => by cases mem⟩
  · rintro h s step ⟨apart, used⟩ -
    refine ⟨List.pairwise_cons.mpr ⟨?_, apart⟩, ?_⟩
    · rintro e mem ⟨now, before⟩
      exact (used_of_resetsWith now).1 (used e mem before)
    · intro e mem resets
      rcases List.mem_cons.mp mem with rfl | old
      · exact (used_of_resetsWith resets).2
      · exact usedStays_exec s step tokenHash (used e old resets)

/-! ## Two answers that are not true -/

/-- The hash of a password is the password itself. -/
def sampleSite : PasswordSite where
  crypto := { sha256 := fun _ => [], sha256Hex := id, base64UrlEncode := fun _ => "" }
  verify password hash _ := password = hash

/-- One user, with tokens and a reset link. -/
def sampleAccounts : Accounts where
  users :=
    { rows := [{ id := 7, publicSub := "sub-ana", username := "ana", email := "ana@example.org"
                 passwordHash := "old-password" }]
      nodup := by decide }
  db :=
    { accessTokens := Table.empty.assign
        { token := "a", clientId := "app", userId := "7", scope := "openid", expiresAt := 5000 } }
  resetTokens := Table.empty.assign { tokenHash := "LINK", userId := 7, expiresAt := 2000 }

/-- Surroundings in which nothing fails. -/
def quiet : Surroundings where
  now := 1000
  hash password := some password

/-- A reset whose revocation fails. -/
def failedRevocation : Step :=
  ({ quiet with fails := fun statement => statement = .revokeAccess },
    .confirmReset "link" "new-password")

/-- A change of the password. -/
def numericToken : Step :=
  (quiet, .changePassword "sub-ana" (some ("old-password", "new-password")))

/-- The reset with a failing statement, and the change without any failure, both answer that all
sessions have been revoked, and the token under the numeric id is as good as before. -/
theorem sessions_outlive_the_answer :
    ((Step.exec sampleSite sampleAccounts failedRevocation).1 =
        .changed "Password reset successful" (some sessionsRevoked) ∧
      ((Step.exec sampleSite sampleAccounts failedRevocation).2.db.accessTokens.find? "a").map
        OAuth2AccessToken.revoked = some false) ∧
    (Step.exec sampleSite sampleAccounts numericToken).1 =
        .changed "Password changed successfully" (some sessionsRevoked) ∧
      ((Step.exec sampleSite sampleAccounts numericToken).2.db.accessTokens.find? "a").map
        OAuth2AccessToken.revoked = some false := by
  decide

end PasswordReset

end Fulla
