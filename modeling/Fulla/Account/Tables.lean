import Mathlib.Data.List.Perm.Basic
import Fulla.Conc.Table
import Fulla.Conc.Waiting
import Fulla.Org.Schema

/-!
# The tables of the accounts

The rows that the administration of users, the deletion of one's own account and the
verification of addresses share, and the statements they send, each atomic.  A mapper reads a
row, changes columns of a copy and writes the changed columns back by primary key.

The concurrent inserts of a list of roles are one operation that is repeated: the surroundings
choose which insert completes next (`AccountOp.insertNext`).  Lengths of texts and foreign keys
are not checked here; a statement may fail for any reason.
-/

namespace Fulla

open Conc

/-- A row of `users`. -/
structure AccountRow where
  id : Int32
  publicSub : String
  username : Option String := none
  email : Option String := none
  emailVerified : Bool := false
  mfaEnabled : Bool := false
  mustChangePassword : Bool := false
  passwordHash : String := ""
  lockedUntil : Option Int := some 0
  deletedAt : Option Int := none
deriving DecidableEq, Repr

/-- A row of `roles`. -/
structure RoleRow where
  id : Int32
  name : String
deriving DecidableEq, Repr

/-- A row of `user_roles`. -/
structure UserRoleRow where
  userId : Int32
  roleId : Int32
deriving DecidableEq, Repr

/-- A row of `oauth2_access_tokens` or of `oauth2_refresh_tokens`. -/
structure OwnedToken where
  tokenHash : String
  /-- The public subject, or the internal id for a social login. -/
  userId : String
  revoked : Bool := false
deriving DecidableEq, Repr

/-- A row of `email_verification_tokens`. -/
structure VerificationToken where
  tokenHash : String
  userId : Int32
  email : String
  expiresAt : Int
deriving DecidableEq, Repr

/-- The tables that the account services share. -/
structure AccountDb where
  users : Table AccountRow.id
  roles : Table RoleRow.id
  userRoles : List UserRoleRow := []
  accessTokens : List OwnedToken := []
  refreshTokens : List OwnedToken := []
  members : List OrganizationMember := []
  nominations : List SuccessionNomination := []
  verificationTokens : List VerificationToken := []
  /-- Seconds. -/
  clock : Int := 0
  /-- The next value of the sequence of `organization_members`. -/
  serial : Nat := 0

/-! ## Changed columns -/

/-- The columns of a row that a mapper has marked as changed. -/
structure UserChanges where
  username : Option String := none
  /-- `setEmail` or `setEmailToNull`. -/
  email : Option (Option String) := none
  emailVerified : Option Bool := none
  mfaEnabled : Option Bool := none
  mustChangePassword : Option Bool := none
  passwordHash : Option String := none
  lockedUntil : Option Int := none
  deletedAt : Option Int := none
deriving DecidableEq, Repr

namespace UserChanges

/-- The columns that are set, the others as they were. -/
def apply (c : UserChanges) (u : AccountRow) : AccountRow :=
  { u with
    username := c.username.orElse fun _ => u.username
    email := c.email.getD u.email
    emailVerified := c.emailVerified.getD u.emailVerified
    mfaEnabled := c.mfaEnabled.getD u.mfaEnabled
    mustChangePassword := c.mustChangePassword.getD u.mustChangePassword
    passwordHash := c.passwordHash.getD u.passwordHash
    lockedUntil := c.lockedUntil.orElse fun _ => u.lockedUntil
    deletedAt := c.deletedAt.orElse fun _ => u.deletedAt }

@[simp]
theorem apply_id (c : UserChanges) (u : AccountRow) : (c.apply u).id = u.id :=
  rfl

@[simp]
theorem apply_publicSub (c : UserChanges) (u : AccountRow) :
    (c.apply u).publicSub = u.publicSub :=
  rfl

/-- The unique index that the changes of the row `id` violate.  `NULL` violates none. -/
def violated (c : UserChanges) (id : Int32) (users : List AccountRow) : Option String :=
  if users.any fun u => u.id ≠ id ∧ c.username ≠ none ∧ u.username = c.username then
    some "users_username_key"
  else if users.any fun u => u.id ≠ id ∧ u.email ≠ none ∧ some u.email = c.email then
    some "idx_users_email_unique"
  else none

end UserChanges

/-- The users with the changes in the row `id`. -/
def changeUser (users : Table AccountRow.id) (id : Int32) (c : UserChanges) :
    Table AccountRow.id :=
  users.updateWhere (fun u => u.id = id) c.apply c.apply_id

theorem find?_changeUser (users : Table AccountRow.id) (id id' : Int32) (c : UserChanges) :
    (changeUser users id c).find? id' =
      if id' = id then (users.find? id').map c.apply else users.find? id' := by
  rw [changeUser, Table.find?_updateWhere]
  cases found : users.find? id' with
  | none => simp
  | some u =>
      have key : u.id = id' := Table.find?_key found
      by_cases same : id' = id
      · simp [key, same]
      · simp [key, same]

/-! ## Statements -/

/-- Neither deleted nor locked at `now`. -/
def AccountRow.activeAt (u : AccountRow) (now : Int) : Bool :=
  u.deletedAt = none && (u.lockedUntil.all fun lockedUntil => lockedUntil ≤ now)

/-- The statements of the account services. -/
inductive AccountStatement where
  /-- `findOne` among the rows that are not deleted. -/
  | liveUser (id : Int32)
  | user (id : Int32)
  | liveUsersOfSub (publicSub : String)
  | rolesNamed (names : List String)
  | userRolesIn (roleIds : List Int32)
  | countActive (ids : List Int32) (now : Int)
  | ownedOrganizations (userId : Int32)
  | pendingAmong (organizationIds : List Nat)
  | pendingNomination (organizationId : Nat)
  | clearRoles (userId : Int32)
  | updateUser (id : Int32) (changes : UserChanges)
  | revokeAccessTokens (publicSub internalId : String)
  | revokeRefreshTokens (publicSub internalId : String)
  /-- A transaction: promotion, demotion of the other owners, and the mark. -/
  | effectSuccession (organizationId : Nat) (nomineeUserId : Int32)
  | insertVerificationToken (row : VerificationToken)
  | consumeVerificationToken (tokenHash : String) (now : Int)
deriving DecidableEq, Repr

namespace AccountStatement

/-- What a statement returns. -/
abbrev Res : AccountStatement → Type
  | liveUser _ | user _ => AccountRow
  | liveUsersOfSub _ => List AccountRow
  | rolesNamed _ => List RoleRow
  | userRolesIn _ => List UserRoleRow
  | countActive _ _ => Nat
  | ownedOrganizations _ => List Nat
  | pendingAmong _ => List Nat
  | pendingNomination _ => Option SuccessionNomination
  | clearRoles _ | updateUser _ _ | revokeAccessTokens _ _ | revokeRefreshTokens _ _ => Nat
  | effectSuccession _ _ => Bool
  | insertVerificationToken _ => Unit
  | consumeVerificationToken _ _ => List VerificationToken

/-- `revoked = true` for both forms of the subject. -/
def revoke (publicSub internalId : String) (t : OwnedToken) : OwnedToken :=
  if t.userId = publicSub ∨ t.userId = internalId then { t with revoked := true } else t

/-- The nominee's seat becomes the only owner's. -/
def seatNominee (organizationId : Nat) (nomineeUserId : Int32) (serial : Nat)
    (members : List OrganizationMember) : List OrganizationMember :=
  let isSeat (m : OrganizationMember) : Bool :=
    m.organizationId = organizationId ∧ m.userId = nomineeUserId
  let promoted :=
    if members.any isSeat then
      members.map fun m => if isSeat m then { m with role := .owner } else m
    else ⟨serial, organizationId, nomineeUserId, .owner⟩ :: members
  promoted.map fun m =>
    if m.organizationId = organizationId ∧ m.role = .owner ∧ m.userId ≠ nomineeUserId then
      { m with role := .admin }
    else m

/-- The nomination is one of the organization, and is open. -/
def isPending (organizationId : Nat) (v : SuccessionNomination) : Bool :=
  v.organizationId = organizationId ∧ v.accepted = false

/-- The nominations with those of the organization and the nominee accepted. -/
def accept (organizationId : Nat) (nomineeUserId : Int32) (v : SuccessionNomination) :
    SuccessionNomination :=
  if isPending organizationId v ∧ v.nomineeUserId = nomineeUserId then { v with accepted := true }
  else v

/-- What the statement answers and leaves, or the text of the exception. -/
def eval (db : AccountDb) : (s : AccountStatement) → Except String (s.Res × AccountDb)
  | liveUser id =>
    match (db.users.find? id).filter fun u => u.deletedAt = none with
    | none => .error "0 rows found"
    | some row => .ok (row, db)
  | user id =>
    match db.users.find? id with
    | none => .error "0 rows found"
    | some row => .ok (row, db)
  | liveUsersOfSub publicSub =>
    .ok (db.users.rows.filter fun u => u.publicSub = publicSub ∧ u.deletedAt = none, db)
  | rolesNamed names => .ok (db.roles.rows.filter fun r => r.name ∈ names, db)
  | userRolesIn roleIds => .ok (db.userRoles.filter fun r => r.roleId ∈ roleIds, db)
  | countActive ids now =>
    .ok ((db.users.rows.filter fun u => u.id ∈ ids ∧ u.activeAt now).length, db)
  | ownedOrganizations userId =>
    .ok ((db.members.filter fun m => m.userId = userId ∧ m.role = .owner).map
      (·.organizationId), db)
  | pendingAmong organizationIds =>
    .ok ((db.nominations.filter fun v =>
      v.organizationId ∈ organizationIds ∧ v.accepted = false).map (·.organizationId), db)
  | pendingNomination organizationId =>
    .ok (db.nominations.find? (isPending organizationId), db)
  | clearRoles userId =>
    .ok ((db.userRoles.filter fun r => r.userId = userId).length,
      { db with userRoles := db.userRoles.filter fun r => r.userId ≠ userId })
  | updateUser id changes =>
    match changes.violated id db.users.rows with
    | some index => .error s!"duplicate key value violates unique constraint \"{index}\""
    | none =>
      .ok (if (db.users.find? id).isSome then 1 else 0,
        { db with users := changeUser db.users id changes })
  | revokeAccessTokens publicSub internalId =>
    .ok ((db.accessTokens.filter fun t => t.userId = publicSub ∨ t.userId = internalId).length,
      { db with accessTokens := db.accessTokens.map (revoke publicSub internalId) })
  | revokeRefreshTokens publicSub internalId =>
    .ok ((db.refreshTokens.filter fun t => t.userId = publicSub ∨ t.userId = internalId).length,
      { db with refreshTokens := db.refreshTokens.map (revoke publicSub internalId) })
  | effectSuccession organizationId nomineeUserId =>
    if db.nominations.any fun v => isPending organizationId v ∧ v.nomineeUserId = nomineeUserId then
      .ok (true,
        { db with
          members := seatNominee organizationId nomineeUserId db.serial db.members
          nominations := db.nominations.map (accept organizationId nomineeUserId)
          serial := db.serial + 1 })
    else .ok (false, db)
  | insertVerificationToken row =>
    if db.verificationTokens.any fun t => t.tokenHash = row.tokenHash then
      .error "duplicate key value violates unique constraint \"email_verification_tokens_pkey\""
    else .ok ((), { db with verificationTokens := row :: db.verificationTokens })
  | consumeVerificationToken tokenHash now =>
    let consumed (t : VerificationToken) : Bool := t.tokenHash = tokenHash ∧ now < t.expiresAt
    .ok (db.verificationTokens.filter consumed,
      { db with verificationTokens := db.verificationTokens.filter fun t => !consumed t })

end AccountStatement

/-- An update that is made. -/
theorem AccountStatement.eval_updateUser {db db' : AccountDb} {id : Int32} {c : UserChanges}
    {r : Nat} (eval : (AccountStatement.updateUser id c).eval db = .ok (r, db')) :
    c.violated id db.users.rows = none ∧ db' = { db with users := changeUser db.users id c } := by
  simp only [AccountStatement.eval] at eval
  split at eval
  · cases eval
  · next free =>
      cases eval
      exact ⟨free, rfl⟩

/-! ## Operations -/

/-- What a call answers. -/
inductive AccountAnswer where
  | error (code detailForLog : String)
  | rolesUpdated (userId : Int32) (roles : List String)
  | userUpdated
  | userDisabled (userId : String)
  | userDeleted (userId : Int32) (tokensRevoked : Bool)
  | accountDeleted
  | emailVerified
deriving DecidableEq, Repr

/-- The answer is an error. -/
def AccountAnswer.isError : AccountAnswer → Bool
  | .error _ _ => true
  | _ => false

/-- The operations of a call. -/
inductive AccountOp where
  | now
  | secureToken
  | sql (s : AccountStatement)
  /-- Of the inserts into `user_roles` under way, the one that completes next. -/
  | insertNext (userId : Int32) (first : RoleRow) (others : List RoleRow)
  | sendMail (address rawToken : String)
  | respond (answer : AccountAnswer)
deriving DecidableEq, Repr

/-- An exception of the database carries its text. -/
abbrev AccountSig : Sig where
  Op := AccountOp
  Res
    | .now => Int
    | .secureToken => String
    | .sql s => Except String s.Res
    | .insertNext _ _ _ => (RoleRow × List RoleRow) × Except String Unit
    | .sendMail _ _ => Unit
    | .respond _ => Unit

/-- A call of the account services. -/
abbrev AccountProg := Prog AccountSig Unit

/-- What the surroundings decide about one step. -/
structure AccountMoment where
  /-- Seconds since the step before. -/
  elapsed : Nat := 0
  /-- The text of the exception of a statement that fails. -/
  fault : Option String := none
  /-- Which insert completes. -/
  pick : Nat := 0
  token : String := ""
deriving DecidableEq, Repr

/-- The role that is picked, and the others. -/
def pickRole (pick : Nat) (first : RoleRow) (others : List RoleRow) : RoleRow × List RoleRow :=
  match others[pick]? with
  | none => (first, others)
  | some role => (role, first :: others.eraseIdx pick)

theorem pickRole_perm (pick : Nat) (first : RoleRow) (others : List RoleRow) :
    ((pickRole pick first others).1 :: (pickRole pick first others).2).Perm (first :: others) := by
  unfold pickRole
  split
  · exact .refl _
  · next role at_ =>
      obtain ⟨bound, rfl⟩ := List.getElem?_eq_some_iff.mp at_
      exact (List.Perm.swap first others[pick] _).trans
        ((List.getElem_cons_eraseIdx_perm bound).cons first)

/-- One insert into `user_roles`. -/
def insertUserRole (fault : Option String) (userId : Int32) (role : RoleRow) (db : AccountDb) :
    Except String Unit × AccountDb :=
  match fault with
  | some text => (.error text, db)
  | none =>
    if ⟨userId, role.id⟩ ∈ db.userRoles then
      (.error "duplicate key value violates unique constraint \"user_roles_pkey\"", db)
    else (.ok (), { db with userRoles := ⟨userId, role.id⟩ :: db.userRoles })

/-- A statement fails with its error or takes effect. -/
def runStatement (fault : Option String) (s : AccountStatement) (db : AccountDb) :
    Except String s.Res × AccountDb :=
  match fault with
  | some text => (.error text, db)
  | none =>
    match s.eval db with
    | .error text => (.error text, db)
    | .ok (r, db') => (.ok r, db')

/-- Time passes, and the operation is executed. -/
def execAccount (m : AccountMoment) : Handler AccountSig AccountDb := fun o db =>
  let db := { db with clock := db.clock + m.elapsed }
  match o with
  | .now => (db.clock, db)
  | .secureToken => (m.token, db)
  | .sql s => runStatement m.fault s db
  | .insertNext userId first others =>
    let picked := pickRole m.pick first others
    ((picked, (insertUserRole m.fault userId picked.1 db).1),
      (insertUserRole m.fault userId picked.1 db).2)
  | .sendMail _ _ => ((), db)
  | .respond _ => ((), db)

/-! ## Operations that only read -/

/-- The statement only reads. -/
def AccountStatement.isQuery : AccountStatement → Bool
  | .liveUser _ | .user _ | .liveUsersOfSub _ | .rolesNamed _ | .userRolesIn _ => true
  | .countActive _ _ | .ownedOrganizations _ | .pendingAmong _ | .pendingNomination _ => true
  | _ => false

/-- The operation changes nothing. -/
def AccountOp.reads : AccountOp → Bool
  | .now | .secureToken => true
  | .sql s => s.isQuery
  | _ => false

theorem AccountStatement.eval_query {s : AccountStatement} (query : s.isQuery = true)
    {db db' : AccountDb} {r : s.Res} (eval : s.eval db = .ok (r, db')) : db' = db := by
  cases s with
  | liveUser id =>
      simp only [AccountStatement.eval] at eval
      split at eval
      · cases eval
      · cases eval
        rfl
  | user id =>
      simp only [AccountStatement.eval] at eval
      split at eval
      · cases eval
      · cases eval
        rfl
  | clearRoles | updateUser | revokeAccessTokens | revokeRefreshTokens | effectSuccession
  | insertVerificationToken | consumeVerificationToken => cases query
  | _ =>
      cases eval
      rfl

/-- Only time passes. -/
theorem execAccount_reads {o : AccountOp} (reads : o.reads = true) (m : AccountMoment)
    (db : AccountDb) : (execAccount m o db).2 = { db with clock := db.clock + m.elapsed } := by
  cases o with
  | now | secureToken => rfl
  | sql s =>
      simp only [execAccount, runStatement]
      split
      · rfl
      · split
        · rfl
        · next eval => exact AccountStatement.eval_query reads eval
  | insertNext | sendMail | respond => cases reads

end Fulla
