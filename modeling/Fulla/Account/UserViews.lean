import Fulla.Account.Tables
import Fulla.Identity.FailedLogins

/-!
# One table of users, three readings

The web controllers (`User`), the identity service (`UserRow`) and the account services
(`AccountRow`) read different columns of the table `users`.  The row of the identity service has
the most; the other two are readings of it.  Look-ups and updates are the same in each reading, and
the password check of the web controllers is the program of the identity service, run on its own.
-/

namespace Fulla

open Conc

/-! ## The reading of the web controllers -/

/-- The row as the web controllers read it; `codes` reads the text of the backup codes. -/
def UserRow.user (codes : Option String → List String) (r : UserRow) : User where
  id := r.id
  publicSub := r.publicSub
  username := r.username
  email := r.email
  passwordHash := r.passwordHash
  salt := r.salt
  emailVerified := r.emailVerified
  mfaEnabled := r.mfaEnabled
  mustChangePassword := r.mustChangePassword
  lockedUntil := r.lockedUntil
  failedLoginCount := r.failedLoginCount.toNat
  mfaSecret := r.mfaSecret
  mfaBackupCodes := codes r.mfaBackupCodes
  mfaPendingClientId := r.mfaPendingClientId
  mfaPendingRedirectUri := r.mfaPendingRedirectUri
  deleted := r.deleted

/-- The two tables hold the same rows. -/
def Shows (codes : Option String → List String) (users : Users) (rows : UserRows) : Prop :=
  users.rows = rows.rows.map (UserRow.user codes)

/-- The update of the web controllers does to its reading what the columns do to the row. -/
def UserColumns.Does (codes : Option String → List String) (columns : UserColumns)
    (f : User.Update) (r : UserRow) : Prop :=
  (columns.apply r).user codes = f.apply (r.user codes)

section Web

variable {codes : Option String → List String} {users : Users} {rows : UserRows} {r : UserRow}

/-- The count of the web controllers does not wrap; that of the source does so at `2 ^ 31`. -/
theorem lockoutColumns_does (now : Int) (low : 0 ≤ r.failedLoginCount)
    (high : r.failedLoginCount < 2 ^ 31 - 1) :
    (lockoutColumns r.failedLoginCount now).Does codes (User.incrementFailedLogins now) r := by
  have next : nextFailedCount r.failedLoginCount = r.failedLoginCount + 1 := by
    rw [nextFailedCount]
    exact Int.bmod_eq_of_le (by omega) (by omega)
  have count : (r.failedLoginCount + 1).toNat = r.failedLoginCount.toNat + 1 := by omega
  have lock : lockedUntilAfter (r.failedLoginCount + 1) now =
      ((User.incrementFailedLogins now).apply (r.user codes)).lockedUntil := by
    simp only [lockedUntilAfter, User.incrementFailedLogins, UserRow.user]
    split_ifs <;> omega
  unfold UserColumns.Does lockoutColumns
  rw [next]
  simp only [UserColumns.apply, UserRow.user, count, lock]
  rfl

theorem resetLockout_does : UserColumns.resetLockout.Does codes User.resetFailedLogins r :=
  rfl

theorem passwordHash_does (newHash : String) :
    (UserColumns.passwordHash newHash).Does codes (User.updatePasswordHash newHash) r :=
  rfl

theorem pendingBinding_does (clientId redirectUri : Option String) :
    (UserColumns.pendingBinding clientId redirectUri).Does codes
      (User.setPendingBinding clientId redirectUri) r :=
  rfl

/-- A look-up finds the reading of the row that is found. -/
theorem Shows.findOne (shows : Shows codes users rows) (p : User → Bool) :
    users.findOne p = (rows.findOne fun r => p (r.user codes)).map (UserRow.user codes) := by
  have filtered : users.rows.filter p =
      (rows.rows.filter fun r => p (r.user codes)).map (UserRow.user codes) := by
    rw [shows, List.filter_map]
    rfl
  unfold Users.findOne UserRows.findOne
  rw [filtered]
  generalize rows.rows.filter (fun r => p (r.user codes)) = hits
  rcases hits with _ | ⟨one, _ | ⟨two, more⟩⟩
  · rfl
  · rfl
  · rfl

/-- An update in both readings. -/
theorem Shows.update (shows : Shows codes users rows) {id : Int} {f : User.Update}
    {columns : UserColumns} (does : ∀ r ∈ rows.rows, r.id = id → columns.Does codes f r) :
    Shows codes (users.update id f) (rows.update id columns.apply columns.apply_id) := by
  change users.rows.map _ = (rows.rows.map _).map _
  rw [shows, List.map_map, List.map_map]
  refine List.map_congr_left fun r mem => ?_
  change (if decide (r.id = id) then f.apply (r.user codes) else r.user codes) =
    (if decide (r.id = id) then columns.apply r else r).user codes
  by_cases eq : r.id = id
  · rw [if_pos (decide_eq_true eq), if_pos (decide_eq_true eq)]
    exact (does r mem eq).symm
  · rw [if_neg (by simp [eq]), if_neg (by simp [eq])]

end Web

/-! ## The password check -/

/-- Both models meet the same configuration and the same moment, and nothing fails. -/
structure SameMoment (site : Site) (around : Around) (login : LoginSite) (m : UserMoment)
    (password : String) : Prop where
  legacy : login.allowLegacyHash = site.allowLegacyHash
  verify : login.verifyPassword = site.verifyPassword
  now : m.now = around.now
  hash : m.hashPassword password = around.hashPassword
  sound : m.fault = false
  found : around.userLookupFails = false
  written : ∀ kind, around.writeFails kind = false

/-- The account that a result of the identity service stands for. -/
def LoginResult.user? (codes : Option String → List String) : LoginResult → Option User
  | .matched r => some (r.user codes)
  | _ => none

section Login

variable {codes : Option String → List String} {users : Users} {rows : UserRows} {r : UserRow}
  {site : Site} {around : Around} {login : LoginSite} {m : UserMoment} {password : String}

/-- A program that starts with a statement goes on with its answer. -/
theorem run_statement_bind {o : UserOp} {answer : o.Res} {rows' : UserRows} {α : Type}
    (executes : execUser m o rows = (answer, rows')) (next : o.Res → UserProg α) :
    (statement o >>= next).run (execUser m) rows = (next answer).run (execUser m) rows' := by
  rw [Prog.run_bind]
  change (next (execUser m o rows).1).run (execUser m) (execUser m o rows).2 = _
  rw [executes]

theorem execUser_update (sound : m.fault = false) (id : Int) (columns : UserColumns) :
    execUser m (.update id columns) rows =
      (true, rows.update id columns.apply columns.apply_id) := by
  rw [execUser, sound, if_neg Bool.false_ne_true]

theorem execUser_selectById (sound : m.fault = false) (id : Int) :
    execUser m (.selectById id) rows = (some (rows.find? id), rows) := by
  rw [execUser, sound, if_neg Bool.false_ne_true]

/-- Finding a row that is there and updating it is the update. -/
theorem run_findAndUpdate (sound : m.fault = false) (found : rows.find? r.id = some r)
    (columns : UserColumns) :
    (PostgresIdentityRepository.findAndUpdate r.id columns).run (execUser m) rows =
      (true, rows.update r.id columns.apply columns.apply_id) := by
  refine (run_statement_bind (execUser_selectById sound r.id) _).trans ?_
  rw [found]
  exact execUser_update sound r.id columns

/-- So is counting a failure, over the count that was found. -/
theorem run_incrementFailedLogins (sound : m.fault = false) (found : rows.find? r.id = some r) :
    (PostgresIdentityRepository.incrementFailedLogins r.id).run (execUser m) rows =
      (true, rows.update r.id (lockoutColumns r.failedLoginCount m.now).apply
        (lockoutColumns r.failedLoginCount m.now).apply_id) := by
  refine (run_statement_bind (execUser_selectById sound r.id) _).trans ?_
  rw [found]
  exact execUser_update sound r.id (lockoutColumns r.failedLoginCount m.now)

/-- The look-up by name or address. -/
theorem Shows.run_findUser (shows : Shows codes users rows)
    (same : SameMoment site around login m password) (identifier : String) :
    ∃ found, (AuthService.findUser identifier).run (execUser m) rows = (found, rows) ∧
      around.findUser users identifier = found.map (UserRow.user codes) ∧
      ∀ r, found = some r → rows.find? r.id = some r := by
  have lookup (p : UserRow → Bool) :
      (if m.fault then none else rows.findOne p, rows) = (rows.findOne p, rows) := by
    rw [same.sound, if_neg Bool.false_ne_true]
  unfold AuthService.findUser Around.findUser
  rw [same.found, if_neg Bool.false_ne_true]
  split
  · exact ⟨_, lookup fun u => u.email = normalizeEmail identifier && !u.deleted,
      shows.findOne _, fun r found => UserRows.find?_of_findOne found⟩
  · exact ⟨_, lookup fun u => u.username = identifier && !u.deleted,
      shows.findOne _, fun r found => UserRows.find?_of_findOne found⟩

theorem SameMoment.write (same : SameMoment site around login m password) (kind : UserWrite)
    (users : Users) (id : Int) (f : User.Update) :
    around.write kind users id f = users.update id f := by
  rw [Around.write, same.written, if_neg Bool.false_ne_true]

/-- The counter that is cleared after a match; the row is still there. -/
theorem Shows.run_resetCounter (shows : Shows codes users rows)
    (same : SameMoment site around login m password) (found : rows.find? r.id = some r) :
    ∃ rows' r', (AuthService.resetCounter r).run (execUser m) rows = (true, rows') ∧
      Shows codes (if (r.user codes).failedLoginCount > 0 then
        around.write .failedLogins users r.id User.resetFailedLogins else users) rows' ∧
      rows'.find? r'.id = some r' ∧ r'.id = r.id := by
  have count : (r.user codes).failedLoginCount > 0 ↔ r.failedLoginCount > 0 := by
    change r.failedLoginCount.toNat > 0 ↔ _
    omega
  unfold AuthService.resetCounter
  by_cases counted : r.failedLoginCount > 0
  · refine ⟨rows.update r.id UserColumns.resetLockout.apply UserColumns.resetLockout.apply_id,
      UserColumns.resetLockout.apply r, ?_, ?_, ?_, rfl⟩
    · rw [if_pos counted]
      exact run_findAndUpdate same.sound found .resetLockout
    · rw [if_pos (count.mpr counted), same.write]
      exact shows.update fun _ _ _ => resetLockout_does
    · rw [UserRows.find?_update, UserColumns.apply_id, if_pos rfl, found]
      rfl
  · refine ⟨rows, r, ?_, ?_, found, rfl⟩
    · rw [if_neg counted]
      rfl
    · rw [if_neg (mt count.mp counted)]
      exact shows

/-- The legacy hash that is replaced. -/
theorem Shows.run_rehashLegacy (shows : Shows codes users rows)
    (same : SameMoment site around login m password) {r' : UserRow}
    (found : rows.find? r'.id = some r') (key : r'.id = r.id) :
    Shows codes
      (match isLegacyHash r.passwordHash, around.hashPassword with
        | true, some newHash =>
          around.write .passwordHash users r.id (User.updatePasswordHash newHash)
        | _, _ => users)
      ((AuthService.rehashLegacy r password).run (execUser m) rows).2 := by
  have hashed : execUser m (.hashPassword password) rows = (around.hashPassword, rows) := by
    rw [execUser, same.hash]
  unfold AuthService.rehashLegacy
  cases isLegacyHash r.passwordHash with
  | false => exact shows
  | true =>
      rw [if_pos rfl, run_statement_bind hashed]
      cases around.hashPassword with
      | none => exact shows
      | some newHash =>
          simp only [same.write]
          rw [Prog.run_bind, PostgresIdentityRepository.updatePasswordHash, ← key,
            run_findAndUpdate same.sound found]
          exact shows.update fun _ _ _ => passwordHash_does newHash

/-- What is left after a match. -/
theorem Shows.run_afterMatch (shows : Shows codes users rows)
    (same : SameMoment site around login m password) (found : rows.find? r.id = some r) :
    Shows codes (around.afterMatch users (r.user codes))
      ((AuthService.afterMatch r password).run (execUser m) rows).2 := by
  obtain ⟨rows', r', ran, shows', found', key⟩ := shows.run_resetCounter same found
  unfold AuthService.afterMatch
  rw [Prog.run_bind, ran]
  exact shows'.run_rehashLegacy same found' key

/-- The row that was found, checked. -/
theorem Shows.run_checkFound (shows : Shows codes users rows)
    (same : SameMoment site around login m password) (found : rows.find? r.id = some r)
    (low : 0 ≤ r.failedLoginCount) (high : r.failedLoginCount < 2 ^ 31 - 1)
    {identifier : String} (web : around.findUser users identifier = some (r.user codes)) :
    let ran := (AuthService.checkFound login r password).run (execUser m) rows
    (validateUser site around users identifier password).1 = ran.1.user? codes ∧
      Shows codes (validateUser site around users identifier password).2 ran.2 := by
  have now : execUser m .now rows = (around.now, rows) := by
    rw [execUser, same.now]
  have counted : Shows codes
      (around.write .failedLogins users r.id (User.incrementFailedLogins around.now))
      ((PostgresIdentityRepository.incrementFailedLogins r.id).run (execUser m) rows).2 := by
    rw [run_incrementFailedLogins same.sound found, same.write, ← same.now]
    refine shows.update fun r' mem eq => ?_
    obtain rfl : r' = r :=
      Option.some.inj ((Table.mem_rows_iff.mp mem).symm.trans (eq ▸ found))
    exact lockoutColumns_does m.now low high
  unfold validateUser AuthService.checkFound
  rw [web, run_statement_bind now, same.legacy, same.verify]
  dsimp only [UserRow.user]
  split_ifs
  · exact ⟨rfl, shows⟩
  · exact ⟨rfl, shows⟩
  · rw [Prog.run_bind]
    exact ⟨rfl, counted⟩
  · rw [Prog.run_bind]
    exact ⟨rfl, shows.run_afterMatch same found⟩

/-- Run on its own, the password check of the identity service gives the account and the table
of the web controllers. -/
theorem Shows.run_validateUser (shows : Shows codes users rows)
    (same : SameMoment site around login m password)
    (counts : ∀ r ∈ rows.rows, 0 ≤ r.failedLoginCount ∧ r.failedLoginCount < 2 ^ 31 - 1)
    (identifier : String) :
    let ran := (AuthService.validateUser login identifier password).run (execUser m) rows
    (validateUser site around users identifier password).1 = ran.1.user? codes ∧
      Shows codes (validateUser site around users identifier password).2 ran.2 := by
  obtain ⟨found, ran, web, row⟩ := shows.run_findUser same identifier
  unfold AuthService.validateUser
  rw [Prog.run_bind, ran]
  match found with
  | none =>
      unfold validateUser
      rw [web]
      exact ⟨rfl, shows⟩
  | some r =>
      have here : rows.find? r.id = some r := row r rfl
      obtain ⟨low, high⟩ := counts r (Table.mem_rows_iff.mpr here)
      exact shows.run_checkFound same here low high web

end Login

/-! ## The reading of the account services -/

/-- The row of the identity service has the columns of the account; a column that is `NULL` is
read as the default of its type. -/
structure AccountRow.Reads (a : AccountRow) (r : UserRow) : Prop where
  id : r.id = a.id.toInt
  publicSub : r.publicSub = a.publicSub
  username : r.username = a.username.getD ""
  email : r.email = a.email.getD ""
  emailVerified : r.emailVerified = a.emailVerified
  mfaEnabled : r.mfaEnabled = a.mfaEnabled
  mustChangePassword : r.mustChangePassword = a.mustChangePassword
  passwordHash : r.passwordHash = a.passwordHash
  lockedUntil : r.lockedUntil = a.lockedUntil.getD 0
  deleted : r.deleted = a.deletedAt.isSome

/-- The changed columns of an account, in the row of the identity service. -/
def UserChanges.onRow (c : UserChanges) (r : UserRow) : UserRow :=
  { r with
    username := c.username.getD r.username
    email := (c.email.map fun email => email.getD "").getD r.email
    emailVerified := c.emailVerified.getD r.emailVerified
    mfaEnabled := c.mfaEnabled.getD r.mfaEnabled
    mustChangePassword := c.mustChangePassword.getD r.mustChangePassword
    passwordHash := c.passwordHash.getD r.passwordHash
    lockedUntil := c.lockedUntil.getD r.lockedUntil
    deleted := c.deletedAt.isSome || r.deleted }

theorem UserChanges.onRow_id (c : UserChanges) (r : UserRow) : (c.onRow r).id = r.id :=
  rfl

section Account

variable {a : AccountRow} {r : UserRow}

/-- A change of an account in both readings. -/
theorem AccountRow.Reads.apply (reads : a.Reads r) (c : UserChanges) :
    (c.apply a).Reads (c.onRow r) where
  id := reads.id
  publicSub := reads.publicSub
  username := by
    change c.username.getD r.username = (c.username.orElse fun _ => a.username).getD ""
    cases c.username <;> simp [reads.username]
  email := by
    change (c.email.map _).getD r.email = (c.email.getD a.email).getD ""
    cases c.email <;> simp [reads.email]
  emailVerified := congrArg c.emailVerified.getD reads.emailVerified
  mfaEnabled := congrArg c.mfaEnabled.getD reads.mfaEnabled
  mustChangePassword := congrArg c.mustChangePassword.getD reads.mustChangePassword
  passwordHash := congrArg c.passwordHash.getD reads.passwordHash
  lockedUntil := by
    change c.lockedUntil.getD r.lockedUntil = (c.lockedUntil.orElse fun _ => a.lockedUntil).getD 0
    cases c.lockedUntil <;> simp [reads.lockedUntil]
  deleted := by
    change (c.deletedAt.isSome || r.deleted) = (c.deletedAt.orElse fun _ => a.deletedAt).isSome
    cases c.deletedAt <;> simp [reads.deleted]

/-- The accounts that are counted as active are those that a login finds and does not hold
off: a lock that is `NULL` is read as one that ended with the epoch. -/
theorem AccountRow.Reads.activeAt_iff (reads : a.Reads r) {now : Int} (epoch : 0 ≤ now) :
    a.activeAt now ↔ r.deleted = false ∧ ¬ r.lockedUntil > now := by
  rw [reads.deleted, reads.lockedUntil, AccountRow.activeAt]
  cases a.lockedUntil with
  | none => simp [epoch]
  | some lockedUntil => simp

/-- The two tables hold the same accounts. -/
def ReadsAll (accounts : Table AccountRow.id) (rows : UserRows) : Prop :=
  ∀ id : Int32, Option.Rel AccountRow.Reads (accounts.find? id) (rows.find? id.toInt)

/-- They still do when one account is changed in both. -/
theorem ReadsAll.changeUser {accounts : Table AccountRow.id} {rows : UserRows}
    (reads : ReadsAll accounts rows) (id : Int32) (c : UserChanges) :
    ReadsAll (changeUser accounts id c) (rows.update id.toInt c.onRow c.onRow_id) := by
  intro id'
  rw [find?_changeUser, UserRows.find?_update]
  by_cases eq : id' = id
  · rw [if_pos eq, if_pos (congrArg Int32.toInt eq)]
    match accounts.find? id', rows.find? id'.toInt, reads id' with
    | _, _, .none => exact .none
    | _, _, .some reads => exact .some (reads.apply c)
  · rw [if_neg eq, if_neg (mt Int32.toInt_inj.mp eq)]
    exact reads id'

/-- A login finds rows that are not deleted. -/
theorem findUser_live {m : UserMoment} {rows : UserRows} {identifier : String}
    (found : ((AuthService.findUser identifier).run (execUser m) rows).1 = some r) :
    rows.find? r.id = some r ∧ r.deleted = false := by
  have live {p : UserRow → Bool}
      (found : (if m.fault then none else rows.findOne fun u => p u && !u.deleted) = some r) :
      rows.find? r.id = some r ∧ r.deleted = false := by
    obtain ⟨-, found⟩ := Option.ite_none_left_eq_some.mp found
    have sat := UserRows.sat_of_findOne found
    rw [Bool.and_eq_true, Bool.not_eq_true'] at sat
    exact ⟨UserRows.find?_of_findOne found, sat.2⟩
  unfold AuthService.findUser at found
  split at found
  · exact live (p := fun u => u.email = normalizeEmail identifier) found
  · exact live (p := fun u => u.username = identifier) found

/-- So an account that the account services have deleted logs in no more. -/
theorem ReadsAll.deleted_not_found {accounts : Table AccountRow.id} {rows : UserRows}
    (reads : ReadsAll accounts rows) {id : Int32} (found : accounts.find? id = some a)
    (deleted : a.deletedAt.isSome) {m : UserMoment} {identifier : String}
    (login : ((AuthService.findUser identifier).run (execUser m) rows).1 = some r) :
    r.id ≠ id.toInt := by
  intro eq
  obtain ⟨here, live⟩ := findUser_live login
  have both := reads id
  rw [found, ← eq, here] at both
  obtain ⟨reads⟩ := both
  rw [reads.deleted, deleted] at live
  cases live

end Account

end Fulla
