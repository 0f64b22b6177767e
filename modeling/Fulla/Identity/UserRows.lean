import Fulla.Conc.Pool
import Fulla.Conc.Table
import Fulla.Model.Text

/-!
# The table of users, statement by statement

`users` and the statements that signing in sends to it, each atomic.  Nothing
holds a row between two statements of one request: the mappers read a row, change
some columns of the copy and write those columns back by primary key.

`Web/Site.lean` treats a request as one step; here the steps of many requests
interleave.
-/

namespace Fulla

open Conc

/-- A row of `users`. -/
structure UserRow where
  id : Int
  publicSub : String
  username : String
  email : String := ""
  passwordHash : String
  salt : String := ""
  emailVerified : Bool := false
  mfaEnabled : Bool := false
  mustChangePassword : Bool := false
  /-- `NULL` reads as zero, here and in the next two columns. -/
  failedLoginCount : Int := 0
  lockedUntil : Int := 0
  lastFailedLogin : Int := 0
  mfaSecret : String := ""
  /-- A JSON text, or `NULL`. -/
  mfaBackupCodes : Option String := none
  mfaPendingClientId : Option String := none
  mfaPendingRedirectUri : Option String := none
  deleted : Bool := false
deriving DecidableEq, Repr

/-- The table of users. -/
abbrev UserRows := Table UserRow.id

/-- The columns a mapper has marked as changed, with their new values. -/
inductive UserColumns where
  /-- `incrementFailedLogins` and `changePasswordForced`. -/
  | lockout (failedLoginCount lockedUntil lastFailedLogin : Int)
  /-- `resetFailedLogins`. -/
  | resetLockout
  /-- `updatePasswordHash`. -/
  | passwordHash (newHash : String)
  /-- A forced change of the password. -/
  | newPassword (newHash : String)
  | pendingBinding (clientId redirectUri : Option String)
deriving DecidableEq, Repr

namespace UserColumns

/-- The columns that an update sets. -/
def apply (u : UserRow) : UserColumns → UserRow
  | lockout failedLoginCount lockedUntil lastFailedLogin =>
    { u with
      failedLoginCount := failedLoginCount, lockedUntil := lockedUntil
      lastFailedLogin := lastFailedLogin }
  | resetLockout => { u with failedLoginCount := 0, lockedUntil := 0 }
  | passwordHash newHash => { u with passwordHash := newHash, salt := "" }
  | newPassword newHash =>
    { u with passwordHash := newHash, salt := "", mustChangePassword := false }
  | pendingBinding clientId redirectUri =>
    { u with mfaPendingClientId := clientId, mfaPendingRedirectUri := redirectUri }

@[simp]
theorem apply_id (c : UserColumns) (u : UserRow) : (c.apply u).id = u.id := by
  cases c <;> rfl

@[simp]
theorem apply_publicSub (c : UserColumns) (u : UserRow) :
    (c.apply u).publicSub = u.publicSub := by
  cases c <;> rfl

end UserColumns

namespace UserRows

/-- `Mapper::findOne`: no row and more than one are both errors. -/
def findOne (users : UserRows) (p : UserRow → Bool) : Option UserRow :=
  match users.rows.filter p with
  | [user] => some user
  | _ => none

theorem find?_of_findOne {users : UserRows} {p : UserRow → Bool} {user : UserRow}
    (found : users.findOne p = some user) : users.find? user.id = some user := by
  unfold findOne at found
  split at found
  · next only =>
      cases found
      exact Table.mem_rows_iff.mp (List.mem_filter.mp (only ▸ List.mem_singleton_self _)).1
  · cases found

theorem sat_of_findOne {users : UserRows} {p : UserRow → Bool} {user : UserRow}
    (found : users.findOne p = some user) : p user = true := by
  unfold findOne at found
  split at found
  · next only =>
      cases found
      exact (List.mem_filter.mp (only ▸ List.mem_singleton_self _)).2
  · cases found

/-- Rewrite the row of a primary key. -/
def update (users : UserRows) (id : Int) (f : UserRow → UserRow) (same : ∀ u, (f u).id = u.id) :
    UserRows :=
  users.updateWhere (fun u => u.id = id) f same

theorem find?_update (users : UserRows) (id id' : Int) (f : UserRow → UserRow)
    (same : ∀ u, (f u).id = u.id) :
    (users.update id f same).find? id' =
      if id' = id then (users.find? id').map f else users.find? id' := by
  rw [update, Table.find?_updateWhere]
  cases found : users.find? id' with
  | none => simp
  | some u =>
      have key : u.id = id' := Table.find?_key found
      by_cases eq : id' = id
      · simp [key, eq]
      · simp [key, eq]

/-- What an update leaves alone of every row, it leaves alone of the table. -/
theorem map_find?_update {β : Type} (users : UserRows) (id id' : Int) (f : UserRow → UserRow)
    (same : ∀ u, (f u).id = u.id) (view : UserRow → β) (keeps : ∀ u, view (f u) = view u) :
    ((users.update id f same).find? id').map view = (users.find? id').map view := by
  rw [find?_update]
  split
  · rw [Option.map_map]
    congr 1
    funext u
    exact keeps u
  · rfl

end UserRows

/-- The statements on the table, and the clock. -/
inductive UserOp where
  /-- The clock. -/
  | now
  /-- The three look-ups of `PostgresIdentityRepository`, over rows not deleted; an
  exception is a miss. -/
  | findByUsername (username : String)
  | findByEmail (email : String)
  | findByPublicSub (publicSub : String)
  /-- By primary key, deleted or not; the outer `none` is an exception. -/
  | selectById (id : Int)
  /-- By primary key, not deleted. -/
  | selectLiveById (id : Int)
  /-- By `public_sub`, not deleted. -/
  | selectLiveByPublicSub (publicSub : String)
  /-- By `public_sub`, deleted or not. -/
  | selectByPublicSub (publicSub : String)
  /-- `Mapper::update` of some columns by primary key: whether the server accepted it. -/
  | update (id : Int) (columns : UserColumns)
  /-- `UPDATE ... SET mfa_backup_codes = $1 WHERE id = $2 AND mfa_backup_codes = $3
  RETURNING id`: whether there was such a row. -/
  | casBackupCodes (id : Int) (updated stored : String)
  /-- A salted hash of the password, unless hashing throws. -/
  | hashPassword (password : String)
  /-- The two batch revocations after a change of the password. -/
  | revokeAccessTokens (publicSub id : String)
  | revokeRefreshTokens (publicSub id : String)
deriving DecidableEq

/-- What a statement returns. -/
abbrev UserOp.Res : UserOp → Type
  | now => Int
  | findByUsername _ => Option UserRow
  | findByEmail _ => Option UserRow
  | findByPublicSub _ => Option UserRow
  | selectById _ => Option (Option UserRow)
  | selectLiveById _ => Option (Option UserRow)
  | selectLiveByPublicSub _ => Option (Option UserRow)
  | selectByPublicSub _ => Option (Option UserRow)
  | update _ _ => Bool
  | casBackupCodes _ _ _ => Option Bool
  | hashPassword _ => Option String
  | revokeAccessTokens _ _ => Bool
  | revokeRefreshTokens _ _ => Bool

/-- The operations of a call. -/
abbrev UserSig : Sig where
  Op := UserOp
  Res := UserOp.Res

/-- A program over the users. -/
abbrev UserProg := Prog UserSig

def statement (o : UserOp) : UserProg o.Res :=
  Prog.call (S := UserSig) o

/-- What one statement finds around it. -/
structure UserMoment where
  now : Int
  /-- The server refuses the statement. -/
  fault : Bool := false
  hashPassword : String → Option String := fun _ => none

/-- One statement; the token tables are not part of this state. -/
def execUser (m : UserMoment) : Handler UserSig UserRows
  | .now, s => (m.now, s)
  | .findByUsername username, s =>
    (if m.fault then none else s.findOne fun u => u.username = username && !u.deleted, s)
  | .findByEmail email, s =>
    (if m.fault then none else s.findOne fun u => u.email = email && !u.deleted, s)
  | .findByPublicSub publicSub, s =>
    (if m.fault then none else s.findOne fun u => u.publicSub = publicSub && !u.deleted, s)
  | .selectById id, s => (if m.fault then none else some (s.find? id), s)
  | .selectLiveById id, s =>
    (if m.fault then none else some ((s.find? id).filter fun u => !u.deleted), s)
  | .selectLiveByPublicSub publicSub, s =>
    (if m.fault then none
    else some (s.rows.find? fun u => u.publicSub = publicSub && !u.deleted), s)
  | .selectByPublicSub publicSub, s =>
    (if m.fault then none else some (s.rows.find? fun u => u.publicSub = publicSub), s)
  | .update id columns, s =>
    if m.fault then (false, s) else (true, s.update id columns.apply fun u => columns.apply_id u)
  | .casBackupCodes id updated stored, s =>
    if m.fault then (none, s)
    else
      match s.find? id with
      | none => (some false, s)
      | some u =>
        if u.mfaBackupCodes = some stored then
          (some true, s.update id (fun u => { u with mfaBackupCodes := some updated }) fun _ => rfl)
        else (some false, s)
  | .hashPassword password, s => (m.hashPassword password, s)
  | .revokeAccessTokens _ _, s => (!m.fault, s)
  | .revokeRefreshTokens _ _, s => (!m.fault, s)

/-- The public subjects never change. -/
theorem execUser_publicSub (m : UserMoment) (users : UserRows) (o : UserOp) (id : Int) :
    ((execUser m o users).2.find? id).map (fun u => u.publicSub) =
      (users.find? id).map fun u => u.publicSub := by
  cases o with
  | update u columns =>
      simp only [execUser]
      split
      · rfl
      · exact users.map_find?_update _ _ _ columns.apply_id _ columns.apply_publicSub
  | casBackupCodes u updated stored =>
      simp only [execUser]
      split
      · rfl
      · split
        · rfl
        · split
          · apply users.map_find?_update
            · exact fun _ => rfl
            · exact fun _ => rfl
          · rfl
  | _ => rfl

/-- Rows are neither added nor removed. -/
theorem execUser_rows (m : UserMoment) (users : UserRows) (o : UserOp) (id : Int) :
    ((execUser m o users).2.find? id).isSome = (users.find? id).isSome := by
  have subs := congrArg Option.isSome (execUser_publicSub m users o id)
  rwa [Option.isSome_map, Option.isSome_map] at subs

abbrev UserEvent (ι : Type) := Event UserSig ι UserRows

/-- The users with the log of the steps. -/
abbrev UserWorld (ι : Type) := World UserSig ι UserRows

end Fulla
