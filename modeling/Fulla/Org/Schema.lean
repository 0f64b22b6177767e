import Fulla.Conc.Txn

/-!
# The organization tables

The rows of the tables that the organization services share, what each statement of the
services reads or changes, and what it locks.  A unique index is a key of the rows it covers:
a statement that puts in a row waits for the transactions that touch a row of the same key, and
fails if such a row is committed.  A row that refers to an organization is put in under a shared
lock on the reference, which a change of the organization's slug excludes.
-/

namespace Fulla

open Conc

/-- The roles of a member. -/
inductive OrgRole where
  | owner
  | admin
  | member
deriving DecidableEq, Repr

/-- The statuses of a consent request. -/
inductive RequestStatus where
  | pending
  | approved
  | rejected
deriving DecidableEq, Repr

/-- A row of `organizations`. -/
structure Organization where
  id : Nat
  slug : String
  /-- `deleted_at` is set. -/
  deleted : Bool := false
deriving DecidableEq, Repr

/-- A row of `organization_members`. -/
structure OrganizationMember where
  id : Nat
  organizationId : Nat
  userId : Int32
  role : OrgRole
deriving DecidableEq, Repr

/-- A row of `organization_invitations`. -/
structure OrganizationInvitation where
  id : Nat
  organizationId : Nat
  email : String
  role : OrgRole
  /-- The hash of the raw token. -/
  token : String
  expiresAt : Int
  acceptedAt : Option Int := none
deriving DecidableEq, Repr

/-- `getValueOfAcceptedAt().secondsSinceEpoch() != 0`, where a missing value is read as 0. -/
def OrganizationInvitation.accepted (v : OrganizationInvitation) : Bool :=
  v.acceptedAt.getD 0 ≠ 0

/-- A row of `organization_succession_nominations`. -/
structure SuccessionNomination where
  id : Nat
  organizationId : Nat
  nomineeUserId : Int32
  /-- `accepted_at` is set. -/
  accepted : Bool := false
deriving DecidableEq, Repr

/-- A row of `organization_consents`. -/
structure OrganizationConsent where
  organizationId : Nat
  clientId : String
  scopeName : String
  grantedBy : Int32
  /-- `revoked_at` is set. -/
  revoked : Bool := false
deriving DecidableEq, Repr

/-- A row of `organization_consent_requests`. -/
structure OrganizationConsentRequest where
  id : Nat
  organizationId : Nat
  clientId : String
  requestedBy : Int32
  status : RequestStatus := .pending
deriving DecidableEq, Repr

/-- A row of any of the tables. -/
inductive OrgRow where
  | organization (row : Organization)
  | member (row : OrganizationMember)
  | invitation (row : OrganizationInvitation)
  | nomination (row : SuccessionNomination)
  | consent (row : OrganizationConsent)
  | request (row : OrganizationConsentRequest)
deriving DecidableEq, Repr

/-- What can be locked: rows, entries of unique indexes, references to an organization and
the advisory locks. -/
inductive OrgKey where
  | organization (id : Nat)
  | slug (slug : String)
  | reference (organizationId : Nat)
  | member (id : Nat)
  | seat (organizationId : Nat) (userId : Int32)
  | invitation (id : Nat)
  | token (token : String)
  | pendingInvitation (organizationId : Nat) (email : String)
  | nomination (id : Nat)
  | pendingNomination (organizationId : Nat)
  | consent (organizationId : Nat) (clientId scopeName : String)
  | request (id : Nat)
  | pendingRequest (organizationId : Nat) (clientId : String) (requestedBy : Int32)
  | advisory (hash : Int32)
deriving DecidableEq, Repr

namespace OrgRow

/-- The primary key and the entries in the unique indexes, the partial ones included. -/
def keys : OrgRow → List OrgKey
  | organization r => [.organization r.id, .slug r.slug]
  | member r => [.member r.id, .seat r.organizationId r.userId]
  | invitation r => .invitation r.id :: .token r.token ::
    if r.acceptedAt = none then [.pendingInvitation r.organizationId r.email] else []
  | nomination r => .nomination r.id ::
    if r.accepted then [] else [.pendingNomination r.organizationId]
  | consent r => [.consent r.organizationId r.clientId r.scopeName]
  | request r => .request r.id ::
    if r.status = .pending then [.pendingRequest r.organizationId r.clientId r.requestedBy] else []

/-- The organization a row refers to. -/
def refersTo : OrgRow → Option Nat
  | organization _ => none
  | member r => some r.organizationId
  | invitation r => some r.organizationId
  | nomination r => some r.organizationId
  | consent r => some r.organizationId
  | request r => some r.organizationId

/-- The row of an organization. -/
def organization? : OrgRow → Option Organization
  | organization r => some r
  | _ => none

/-- Two rows with a key in common, which a unique index forbids. -/
def SharesKey (r r' : OrgRow) : Prop :=
  r ≠ r' ∧ ∃ k ∈ r.keys, k ∈ r'.keys

end OrgRow

/-- What a statement does to one row. -/
abbrev OrgChange := Change OrgRow

/-- What a statement holds until its transaction ends. -/
abbrev OrgLock := Lock OrgKey

/-- The keys of the rows a change touches, and the reference to the organization: shared by a
row that is put in, exclusive for a change of the organization. -/
def orgLocks (c : OrgChange) : List OrgLock :=
  ((c.old.toList ++ c.new.toList).flatMap OrgRow.keys).map (fun k => { key := k }) ++
    ((c.old.toList ++ c.new.toList).filterMap OrgRow.organization?).map
      (fun o => { key := .reference o.id }) ++
    match c.old, c.new.bind OrgRow.refersTo with
    | none, some organizationId => [{ key := .reference organizationId, exclusive := false }]
    | _, _ => []

/-- Some row that is put in has a key of another row. -/
def violates (rows : List OrgRow) (changes : List OrgChange) : Bool :=
  changes.any fun c => c.new.any fun new => rows.any fun r =>
    some r ≠ c.old && r.keys.any fun k => k ∈ new.keys

/-- The rows of one table. -/
structure OrgTable (α : Type) where
  get : OrgRow → Option α
  put : α → OrgRow
  get_eq : ∀ r a, get r = some a ↔ r = put a

namespace OrgTable

/-- The table `organizations`. -/
def organizations : OrgTable Organization where
  get := OrgRow.organization?
  put := .organization
  get_eq r a := by cases r <;> simp [OrgRow.organization?]

/-- The table `organization_members`. -/
def members : OrgTable OrganizationMember where
  get
    | .member r => some r
    | _ => none
  put := .member
  get_eq r a := by cases r <;> simp

/-- The table `organization_invitations`. -/
def invitations : OrgTable OrganizationInvitation where
  get
    | .invitation r => some r
    | _ => none
  put := .invitation
  get_eq r a := by cases r <;> simp

/-- The table `organization_succession_nominations`. -/
def nominations : OrgTable SuccessionNomination where
  get
    | .nomination r => some r
    | _ => none
  put := .nomination
  get_eq r a := by cases r <;> simp

/-- The table `organization_consents`. -/
def consents : OrgTable OrganizationConsent where
  get
    | .consent r => some r
    | _ => none
  put := .consent
  get_eq r a := by cases r <;> simp

/-- The table `organization_consent_requests`. -/
def requests : OrgTable OrganizationConsentRequest where
  get
    | .request r => some r
    | _ => none
  put := .request
  get_eq r a := by cases r <;> simp

variable {α : Type} (t : OrgTable α)

/-- The rows of this table. -/
def of (rows : List OrgRow) : List α :=
  rows.filterMap t.get

/-- The selected rows, each with what it becomes; a row that becomes nothing is deleted. -/
def changes (rows : List OrgRow) (selects : α → Bool) (becomes : α → Option α) :
    List OrgChange :=
  ((t.of rows).filter selects).map fun a =>
    { old := some (t.put a), new := (becomes a).map t.put }

theorem mem_of {rows : List OrgRow} {a : α} : a ∈ t.of rows ↔ t.put a ∈ rows := by
  simp [of, t.get_eq]

theorem mem_changes {rows : List OrgRow} {selects : α → Bool} {becomes : α → Option α}
    {c : OrgChange} :
    c ∈ t.changes rows selects becomes ↔ ∃ a, t.put a ∈ rows ∧ selects a = true ∧
      c = { old := some (t.put a), new := (becomes a).map t.put } := by
  simp only [changes, List.mem_map, List.mem_filter, mem_of, and_assoc]
  exact exists_congr fun a => and_congr_right fun _ => and_congr_right fun _ => eq_comm

end OrgTable

open OrgTable

/-! ## Queries -/

/-- The `SELECT`s of the services. -/
inductive OrgQuery where
  /-- By slug, `deleted_at IS NULL`. -/
  | organization (slug : String)
  /-- `slug LIKE '<slug>#del-%'` -/
  | tombstones (slug : String)
  | membership (organizationId : Nat) (userId : Int32)
  | owners (organizationId : Nat)
  | ownedBy (userId : Int32)
  | pendingInvitations (organizationId : Nat)
  | invitation (token : String)
  | pendingNomination (organizationId : Nat)
  | request (id : Nat)
  | hasActiveConsent (organizationId : Nat) (clientId : String)
deriving DecidableEq

/-- `LIKE` with a prefix that holds no wildcard. -/
def isTombstoneOf (slug : String) (o : Organization) : Bool :=
  (slug ++ "#del-").toList.isPrefixOf o.slug.toList

namespace OrgQuery

/-- What a query returns. -/
abbrev Res : OrgQuery → Type
  | organization _ => Option Organization
  | tombstones _ => List Organization
  | membership _ _ => Option OrganizationMember
  | owners _ => List OrganizationMember
  | ownedBy _ => List OrganizationMember
  | pendingInvitations _ => Nat
  | invitation _ => Option OrganizationInvitation
  | pendingNomination _ => Option SuccessionNomination
  | request _ => Option OrganizationConsentRequest
  | hasActiveConsent _ _ => Bool

/-- The rows that a query finds. -/
def eval (rows : List OrgRow) : (q : OrgQuery) → q.Res
  | organization slug => (organizations.of rows).find? fun o => o.slug = slug ∧ o.deleted = false
  | tombstones slug => (organizations.of rows).filter (isTombstoneOf slug)
  | membership organizationId userId =>
    (members.of rows).find? fun m => m.organizationId = organizationId ∧ m.userId = userId
  | owners organizationId =>
    (members.of rows).filter fun m => m.organizationId = organizationId ∧ m.role = .owner
  | ownedBy userId => (members.of rows).filter fun m => m.userId = userId ∧ m.role = .owner
  | pendingInvitations organizationId =>
    ((invitations.of rows).filter fun v =>
      v.organizationId = organizationId ∧ v.acceptedAt = none).length
  | invitation token => (invitations.of rows).find? fun v => v.token = token
  | pendingNomination organizationId =>
    (nominations.of rows).find? fun n => n.organizationId = organizationId ∧ n.accepted = false
  | request id => (requests.of rows).find? fun r => r.id = id
  | hasActiveConsent organizationId clientId =>
    (consents.of rows).any fun c =>
      c.organizationId = organizationId ∧ c.clientId = clientId ∧ c.revoked = false

end OrgQuery

/-! ## Statements -/

/-- The statements of the services that write. -/
inductive OrgStatement where
  | insertOrganization (slug : String)
  | insertMember (organizationId : Nat) (userId : Int32) (role : OrgRole)
  /-- `Mapper::update`, by primary key. -/
  | setRole (id : Nat) (role : OrgRole)
  /-- `SET role = 'admin' WHERE organization_id = $1 AND role = 'owner' AND user_id <> $2` -/
  | demoteOthers (organizationId : Nat) (userId : Int32)
  | deleteMember (organizationId : Nat) (userId : Int32)
  | insertInvitation (organizationId : Nat) (email : String) (role : OrgRole) (token : String)
    (expiresAt : Int)
  | stampInvitation (id : Nat) (acceptedAt : Int)
  /-- `WHERE organization_id = $1 AND nominee_user_id = $2 AND accepted_at IS NULL` -/
  | acceptNomination (organizationId : Nat) (nomineeUserId : Int32)
  | upsertConsent (organizationId : Nat) (clientId scope : String) (grantedBy : Int32)
  /-- `WHERE id = $1 AND status = 'pending'` -/
  | decidePending (requestId : Nat) (status : RequestStatus)
  | resolveOtherPending (organizationId : Nat) (clientId : String) (exceptRequestId : Nat)
  | withdrawOwnPending (organizationId requestId : Nat) (requesterId : Int32)
  /-- The six statements of the deletion. -/
  | softDelete (organizationId : Nat)
  | voidInvitations (organizationId : Nat)
  | voidNominations (organizationId : Nat)
  | revokeConsents (organizationId : Nat)
  /-- `oauth2_client_owners`, which nothing here reads. -/
  | suspendClients (organizationId : Nat)
  | detachMembers (organizationId : Nat)
deriving DecidableEq

/-- The row number or the number of affected rows, and the changes. -/
abbrev StatementResult := Option (Nat × List OrgChange)

/-- One new row, which returns its id. -/
def insertRow (serial : Nat) (row : OrgRow) : StatementResult :=
  some (serial, [{ old := none, new := some row }])

/-- The number of rows that are changed. -/
def affect (changes : List OrgChange) : StatementResult :=
  some (changes.length, changes)

/-- `VARCHAR(50)` -/
def kSlugLength : Nat := 50

/-- What a soft deletion leaves of an organization. -/
def tombstone (o : Organization) : Organization :=
  { o with slug := o.slug ++ "#del-" ++ toString o.id, deleted := true }

namespace OrgStatement

/-- None when the statement fails on the rows it finds. -/
def eval (serial : Nat) (rows : List OrgRow) : OrgStatement → StatementResult
  | insertOrganization slug => insertRow serial (.organization { id := serial, slug := slug })
  | insertMember organizationId userId role =>
    insertRow serial (.member ⟨serial, organizationId, userId, role⟩)
  | setRole id role =>
    affect (members.changes rows (fun m => m.id = id) fun m => some { m with role := role })
  | demoteOthers organizationId userId =>
    affect (members.changes rows
      (fun m => m.organizationId = organizationId ∧ m.role = .owner ∧ m.userId ≠ userId)
      fun m => some { m with role := .admin })
  | deleteMember organizationId userId =>
    affect (members.changes rows
      (fun m => m.organizationId = organizationId ∧ m.userId = userId) fun _ => none)
  | insertInvitation organizationId email role token expiresAt =>
    insertRow serial (.invitation
      { id := serial, organizationId := organizationId, email := email, role := role
        token := token, expiresAt := expiresAt })
  | stampInvitation id acceptedAt =>
    affect (invitations.changes rows (fun v => v.id = id)
      fun v => some { v with acceptedAt := some acceptedAt })
  | acceptNomination organizationId nomineeUserId =>
    affect (nominations.changes rows
      (fun n => n.organizationId = organizationId ∧ n.nomineeUserId = nomineeUserId ∧
        n.accepted = false)
      fun n => some { n with accepted := true })
  | upsertConsent organizationId clientId scope grantedBy =>
    let same : OrganizationConsent → Bool := fun c =>
      c.organizationId = organizationId ∧ c.clientId = clientId ∧ c.scopeName = scope
    if (consents.of rows).any same then
      affect (consents.changes rows same
        fun c => some { c with revoked := false, grantedBy := grantedBy })
    else insertRow serial (.consent
      { organizationId := organizationId, clientId := clientId, scopeName := scope
        grantedBy := grantedBy })
  | decidePending requestId status =>
    affect (requests.changes rows (fun r => r.id = requestId ∧ r.status = .pending)
      fun r => some { r with status := status })
  | resolveOtherPending organizationId clientId exceptRequestId =>
    affect (requests.changes rows
      (fun r => r.organizationId = organizationId ∧ r.clientId = clientId ∧
        r.status = .pending ∧ r.id ≠ exceptRequestId)
      fun r => some { r with status := .approved })
  | withdrawOwnPending organizationId requestId requesterId =>
    affect (requests.changes rows
      (fun r => r.id = requestId ∧ r.organizationId = organizationId ∧
        r.requestedBy = requesterId ∧ r.status = .pending)
      fun _ => none)
  | softDelete organizationId =>
    let live : Organization → Bool := fun o => o.id = organizationId ∧ o.deleted = false
    if (organizations.of rows).any fun o => live o && kSlugLength < (tombstone o).slug.length then
      none
    else affect (organizations.changes rows live fun o => some (tombstone o))
  | voidInvitations organizationId =>
    affect (invitations.changes rows
      (fun v => v.organizationId = organizationId ∧ v.acceptedAt = none) fun _ => none)
  | voidNominations organizationId =>
    affect (nominations.changes rows
      (fun n => n.organizationId = organizationId ∧ n.accepted = false) fun _ => none)
  | revokeConsents organizationId =>
    affect (consents.changes rows
      (fun c => c.organizationId = organizationId ∧ c.revoked = false)
      fun c => some { c with revoked := true })
  | suspendClients _ => affect []
  | detachMembers organizationId =>
    affect (members.changes rows (fun m => m.organizationId = organizationId) fun _ => none)

end OrgStatement

end Fulla
