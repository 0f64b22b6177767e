import Fulla.Conc.Waiting
import Fulla.Model.Text
import Fulla.Org.Schema

/-!
# The organization services

`OrgMemberService.cc` and `OrganizationService.cc` with the repositories they use, as programs
over the organization tables: one operation for every statement, for the begin and the end of a
transaction and for every advisory lock.  A statement of a thread with an open transaction runs
in it, and a statement that fails rolls it back.

A consent that is saved without waiting for the result is put on a queue, from which a thread
of its own takes it.
-/

namespace Fulla

open Conc

/-- The columns of a user that the services read. -/
structure ResolvedUser where
  id : Int32
  email : String
  emailVerified : Bool := false
deriving DecidableEq, Repr

/-- What the services are wired with. -/
structure OrgSite where
  /-- The live user of the `userId` attribute. -/
  users : String → Option ResolvedUser
  /-- Whether a user id belongs to a live user. -/
  liveUser : Int32 → Bool := fun _ => true
  /-- The advisory lock of a key. -/
  hashtext : String → Int32
  hashToken : String → String
  /-- `open_platform.enabled` -/
  enabled : Bool := true
  maxOrgsPerUser : Int := 3
  maxPendingInvitationsPerOrg : Int := 20
  /-- The empty text for a value that is accepted. -/
  validatePrimaryColor : String → String := fun _ => ""
  validateBrandUri : String → String := fun _ => ""

/-- A consent that is saved in the background. -/
structure ConsentSave where
  organizationId : Nat
  grantedBy : Int32
  clientId : String
  scope : String
deriving DecidableEq, Repr

/-- The operations of a call. -/
inductive OrgOp where
  | resolveCaller (userId : String)
  | liveUser (userId : Int32)
  | now
  | secureToken
  | clientScopes (clientId : String)
  | query (q : OrgQuery)
  | statement (s : OrgStatement)
  | newTransaction
  | advisoryLock (key : String)
  | commit
  | rollback
  /-- `saveConsent` whose callback does nothing. -/
  | detach (save : ConsentSave)
  /-- The next detached save starts. -/
  | awaitSave

/-- None is an exception of the database. -/
abbrev OrgSig : Sig where
  Op := OrgOp
  Res
    | .resolveCaller _ => Option (Option ResolvedUser)
    | .liveUser _ => Option Bool
    | .now => Int
    | .secureToken => String
    | .clientScopes _ => Option (List String)
    | .query q => Option q.Res
    | .statement _ => Option Nat
    | .newTransaction => Bool
    | .advisoryLock _ => Bool
    | .commit => Bool
    | .rollback => Unit
    | .detach _ => Unit
    | .awaitSave => ConsentSave

/-- A call of the services. -/
abbrev OrgProg := Prog OrgSig

def orgStep (o : OrgOp) : OrgProg (OrgSig.Res o) :=
  Prog.call (S := OrgSig) o

/-! ## Execution -/

/-- What the surroundings decide about one step. -/
structure OrgMoment where
  fault : Bool := false
  now : Int := 0
  token : String := ""
  /-- The registered scopes of a client. -/
  scopes : String → List String := fun _ => []

/-- The tables with their transactions, and the saves that wait in the background. -/
structure OrgStore (ι : Type) where
  db : TxnDb ι OrgRow OrgKey
  queue : List ConsentSave := []

namespace OrgStore

variable {ι : Type} [DecidableEq ι]

/-- The transaction of the thread, if there is one, is rolled back. -/
def fail (s : OrgStore ι) (i : ι) : OrgStore ι :=
  { s with db := s.db.abandon i }

end OrgStore

/-- A statement inside the transaction of its call, or committed on its own. -/
def execStatement {ι : Type} [DecidableEq ι] (i : ι) (statement : OrgStatement)
    (s : OrgStore ι) : Option (Option Nat × OrgStore ι) :=
  match statement.eval s.db.serial (s.db.view i) with
  | none => some (none, s.fail i)
  | some (n, changes) =>
    if s.db.blocked i (changes.flatMap orgLocks) then none
    else if violates (s.db.view i) changes then some (none, s.fail i)
    else some (some n, { s with db := s.db.write i changes (changes.flatMap orgLocks) })

/-- What an operation does and answers; `none` while it waits for a lock. -/
def execOrg {ι : Type} [DecidableEq ι] (site : OrgSite) :
    Attempt OrgSig ι (OrgStore ι) OrgMoment := fun m i o s =>
  match o with
  | .resolveCaller userId => some (if m.fault then none else some (site.users userId), s)
  | .liveUser userId => some (if m.fault then none else some (site.liveUser userId), s)
  | .now => some (m.now, s)
  | .secureToken => some (m.token, s)
  | .clientScopes clientId => some (if m.fault then none else some (m.scopes clientId), s)
  | .query q =>
    if m.fault then some (none, s.fail i) else some (some (q.eval (s.db.view i)), s)
  | .statement statement =>
    if m.fault then some (none, s.fail i) else execStatement i statement s
  | .newTransaction =>
    if m.fault then some (false, s) else some (true, { s with db := s.db.start i })
  | .advisoryLock key =>
    if m.fault then some (false, s.fail i)
    else
      let lock : OrgLock := { key := .advisory (site.hashtext key) }
      if s.db.blocked i [lock] then none else some (true, { s with db := s.db.take i lock })
  | .commit =>
    if m.fault then some (false, s.fail i) else some (true, { s with db := s.db.finish i })
  | .rollback => some ((), s.fail i)
  | .detach save => some ((), { s with queue := s.queue ++ [save] })
  | .awaitSave =>
    match s.queue with
    | [] => none
    | save :: queue => some (save, { s with queue := queue })

/-! ## Answers -/

/-- What a call answers. -/
inductive OrgAnswer where
  | error (code detail : String)
  | organizationCreated (slug : String)
  | memberRemoved
  | invitationCreated (id : Nat) (email : String) (role : OrgRole) (token : String)
    (expiresAt : Int)
  | invitationAccepted (organizationId : Nat) (role : OrgRole)
  | successionAccepted (ownerUserId : Int32)
  | ownershipTransferred (organizationId : Nat) (ownerUserId : Int32)
  | organizationDeleted (id : Nat)
  /-- Without scopes when nothing was written. -/
  | requestApproved (id : Nat) (clientId : String) (scopes : Option (List String))
  | requestRejected (id : Nat) (clientId : String)
  | requestWithdrawn (id : Nat)
  | consentSaved (ok : Bool)
deriving DecidableEq, Repr

/-- A call ends with an error. -/
def respondError (code detail : String) : OrgProg OrgAnswer :=
  return .error code detail

/-! ## Shared steps -/

/-- The locks one after another, in the order of the caller. -/
def takeNextLock {α : Type} (onLocked : OrgProg α) (onError : String → α) :
    List String → OrgProg α
  | [] => onLocked
  | key :: keys => do
    let held : Bool ← orgStep (.advisoryLock key)
    if held then takeNextLock onLocked onError keys
    else return onError ("advisory lock failed for key " ++ key)

/-- A transaction that takes its advisory locks first. -/
def withAdvisoryXactLock {α : Type} (keys : List String) (onLocked : OrgProg α)
    (onError : String → α) : OrgProg α := do
  let txn : Bool ← orgStep .newTransaction
  if txn then takeNextLock onLocked onError keys
  else return onError "failed to acquire transaction (timeout)"

/-- The user who calls, or an error. -/
def resolveCaller (userId : String) (onResolved : ResolvedUser → OrgProg OrgAnswer) :
    OrgProg OrgAnswer := do
  let users : Option (Option ResolvedUser) ← orgStep (.resolveCaller userId)
  match users with
  | none => respondError "DB_QUERY_ERROR" "user lookup failed"
  | some none => respondError "VALIDATION_RESOURCE_NOT_FOUND" "user not found"
  | some (some user) => onResolved user

/-- The live organization of a slug, or an error. -/
def findOrgBySlug (slug : String) (onFound : Organization → OrgProg OrgAnswer) :
    OrgProg OrgAnswer := do
  let org : Option (Option Organization) ← orgStep (.query (.organization slug))
  match org with
  | some (some org) => onFound org
  | _ => respondError "VALIDATION_RESOURCE_NOT_FOUND" "organization not found"

/-- The look-up of `OrganizationService.cc`, which tells an exception from a missing row. -/
def findLiveOrg (slug : String) (onFound : Organization → OrgProg OrgAnswer) :
    OrgProg OrgAnswer := do
  let org : Option (Option Organization) ← orgStep (.query (.organization slug))
  match org with
  | none => respondError "DB_QUERY_ERROR" "org lookup failed"
  | some none => respondError "VALIDATION_RESOURCE_NOT_FOUND" "organization not found"
  | some (some org) => onFound org

/-- The membership of a user, if there is one. -/
def getMembership (organizationId : Nat) (userId : Int32)
    (onCheck : Option OrganizationMember → OrgProg OrgAnswer) : OrgProg OrgAnswer := do
  let row : Option (Option OrganizationMember) ←
    orgStep (.query (.membership organizationId userId))
  match row with
  | none => respondError "DB_QUERY_ERROR" "membership lookup failed"
  | some row => onCheck row

/-- Owners and administrators manage an organization. -/
def isManagerRole (role : OrgRole) : Bool :=
  role = .owner || role = .admin

/-- A member of the organization with a manager's role. -/
def isManager (row : Option OrganizationMember) : Bool :=
  row.any fun m => isManagerRole m.role

/-! ## Creating organizations -/

/-- `^[a-z0-9][a-z0-9-]{1,48}[a-z0-9]$` -/
def validSlug (slug : String) : Bool :=
  let alnum : Char → Bool := fun c => c.isDigit || c.isLower
  let cs := slug.toList
  decide (3 ≤ cs.length) && decide (cs.length ≤ 50) && cs.all (fun c => alnum c || c = '-') &&
    cs.head?.any alnum && cs.getLast?.any alnum

/-- The slugs that no organization may have. -/
def kReservedSlugs : List String :=
  ["admin", "api", "me", "oauth2", "callback", "login", "logout", "register", "settings", "apps",
    "organizations", "new", "org"]

/-- The body of a creation. -/
structure CreateOrgRequest where
  slug : String
  name : String
  logoUri : String := ""
  primaryColor : String := ""
deriving DecidableEq, Repr

/-- The checks of the brand fields, and then the rest. -/
def checkBrand (site : OrgSite) (r : CreateOrgRequest) (rest : OrgProg OrgAnswer) :
    OrgProg OrgAnswer :=
  if site.validatePrimaryColor r.primaryColor ≠ "" then
    respondError "VALIDATION_FORMAT_ERROR"
      ("create org: " ++ site.validatePrimaryColor r.primaryColor)
  else if site.validateBrandUri r.logoUri ≠ "" then
    respondError "VALIDATION_FORMAT_ERROR" ("create org: " ++ site.validateBrandUri r.logoUri)
  else rest

namespace OrgMemberService

/-- The organization and its owner; the answer waits for the commit. -/
def insertOrgRow (slug : String) (caller : ResolvedUser) : OrgProg OrgAnswer := do
  let orgId : Option Nat ← orgStep (.statement (.insertOrganization slug))
  match orgId with
  | none =>
    respondError "VALIDATION_RESOURCE_CONFLICT" "create org: slug already exists or DB error"
  | some orgId =>
    let member : Option Nat ← orgStep (.statement (.insertMember orgId caller.id .owner))
    match member with
    | none => respondError "DB_QUERY_ERROR" "create org: owner membership insert failed"
    | some _ =>
      let committed : Bool ← orgStep .commit
      if committed then return .organizationCreated slug
      else respondError "DB_QUERY_ERROR" "create org: commit failed"

/-- A refusal after which the transaction, which has written nothing, ends. -/
def refuseAndEnd (code detail : String) : OrgProg OrgAnswer := do
  let _ : Bool ← orgStep .commit
  respondError code detail

/-- The quota and the tombstones, under the lock of the user. -/
def createOrgLocked (site : OrgSite) (slug : String) (caller : ResolvedUser) :
    OrgProg OrgAnswer := do
  let owned : Option (List OrganizationMember) ← orgStep (.query (.ownedBy caller.id))
  match owned with
  | none => respondError "DB_QUERY_ERROR" "quota check failed"
  | some owned =>
    if (owned.length : Int) ≥ site.maxOrgsPerUser then
      refuseAndEnd "VALIDATION_RESOURCE_CONFLICT"
        ("create org: organization quota exceeded (" ++ toString site.maxOrgsPerUser ++ ")")
    else
      let tombs : Option (List Organization) ← orgStep (.query (.tombstones slug))
      match tombs with
      | none => respondError "DB_QUERY_ERROR" "create org: tombstone check failed"
      | some tombs =>
        if tombs ≠ [] then
          refuseAndEnd "VALIDATION_RESOURCE_CONFLICT"
            "create org: this slug was used by a deleted organization and cannot be re-registered"
        else insertOrgRow slug caller

/-- `OrgMemberService::createOrg`, under the quota of the user. -/
def createOrg (site : OrgSite) (userId : String) (r : CreateOrgRequest) : OrgProg OrgAnswer :=
  if site.enabled = false then
    respondError "AUTHZ_ACCESS_DENIED" "organization self-service is disabled on this deployment"
  else if validSlug r.slug = false then
    respondError "VALIDATION_FORMAT_ERROR"
      "create org: slug must be 3-50 chars, lowercase alphanumeric + hyphens"
  else if r.slug ∈ kReservedSlugs then
    respondError "VALIDATION_FORMAT_ERROR" "create org: slug is reserved"
  else if r.name = "" ∨ r.name.utf8ByteSize > 100 then
    respondError "VALIDATION_MISSING_REQUIRED_FIELD" "create org: name is required (<=100 chars)"
  else checkBrand site r <| resolveCaller userId fun caller =>
    withAdvisoryXactLock ["quota:user:" ++ toString caller.id.toInt]
      (createOrgLocked site r.slug caller)
      fun err => .error "DB_QUERY_ERROR" ("create org: quota serialization failed: " ++ err)

/-- A creation is refused at once, or it looks the caller up and goes on under the lock. -/
theorem createOrg_cases (site : OrgSite) (userId : String) (r : CreateOrgRequest) :
    (∃ code detail, createOrg site userId r = respondError code detail) ∨
      createOrg site userId r = resolveCaller userId fun caller =>
        withAdvisoryXactLock ["quota:user:" ++ toString caller.id.toInt]
          (createOrgLocked site r.slug caller) fun err =>
          .error "DB_QUERY_ERROR" ("create org: quota serialization failed: " ++ err) := by
  unfold createOrg checkBrand
  split_ifs
  all_goals first | exact .inl ⟨_, _, rfl⟩ | exact .inr rfl

end OrgMemberService

namespace OrganizationService

/-- The admin endpoint: no lock, and no transaction. -/
def create (site : OrgSite) (r : CreateOrgRequest) : OrgProg OrgAnswer :=
  if validSlug r.slug = false then
    respondError "VALIDATION_FORMAT_ERROR"
      "create org: slug must be 3-50 chars, lowercase alphanumeric + hyphens"
  else if r.name = "" then
    respondError "VALIDATION_MISSING_REQUIRED_FIELD" "create org: name is required"
  else checkBrand site r do
    let tombs : Option (List Organization) ← orgStep (.query (.tombstones r.slug))
    match tombs with
    | none => respondError "DB_QUERY_ERROR" "create org: tombstone check failed"
    | some tombs =>
      if tombs ≠ [] then
        respondError "VALIDATION_RESOURCE_CONFLICT"
          "create org: this slug was used by a deleted organization and cannot be re-registered"
      else
        let orgId : Option Nat ← orgStep (.statement (.insertOrganization r.slug))
        match orgId with
        | none =>
          respondError "VALIDATION_RESOURCE_CONFLICT" "create org: slug already exists or DB error"
        | some _ => return .organizationCreated r.slug

/-- It is refused at once, or looks for the tombstones of the slug. -/
theorem create_cases (site : OrgSite) (r : CreateOrgRequest) :
    (∃ code detail, create site r = respondError code detail) ∨
      create site r = (do
        let tombs : Option (List Organization) ← orgStep (.query (.tombstones r.slug))
        match tombs with
        | none => respondError "DB_QUERY_ERROR" "create org: tombstone check failed"
        | some tombs =>
          if tombs ≠ [] then
            respondError "VALIDATION_RESOURCE_CONFLICT"
              "create org: this slug was used by a deleted organization and cannot be re-registered"
          else
            let orgId : Option Nat ← orgStep (.statement (.insertOrganization r.slug))
            match orgId with
            | none =>
              respondError "VALIDATION_RESOURCE_CONFLICT"
                "create org: slug already exists or DB error"
            | some _ => return .organizationCreated r.slug) := by
  unfold create checkBrand
  split_ifs
  all_goals first | exact .inl ⟨_, _, rfl⟩ | exact .inr rfl

/-! ## Deleting an organization -/

/-- The statements of the cascade in order, and the commit; the first that fails ends it. -/
def cascade (orgId : Nat) : List OrgStatement → OrgProg OrgAnswer
  | [] => do
    let committed : Bool ← orgStep .commit
    if committed then return .organizationDeleted orgId
    else
      respondError "DB_QUERY_ERROR"
        "delete org cascade failed (transaction rolled back): commit failed"
  | statement :: rest => do
    let done : Option Nat ← orgStep (.statement statement)
    match done with
    | none =>
      respondError "DB_QUERY_ERROR" "delete org cascade failed (transaction rolled back)"
    | some _ => cascade orgId rest

/-- `OrganizationService::deleteOrg`: the cascade in one transaction, under the organization's
lock. -/
def deleteOrg (slug : String) : OrgProg OrgAnswer :=
  findLiveOrg slug fun org =>
    withAdvisoryXactLock ["org:" ++ toString org.id]
      (cascade org.id
        [.softDelete org.id, .voidInvitations org.id, .voidNominations org.id,
          .revokeConsents org.id, .suspendClients org.id, .detachMembers org.id])
      fun err => .error "DB_QUERY_ERROR" ("delete org: lock acquisition failed: " ++ err)

end OrganizationService

/-! ## Invitations -/

/-- Three days. -/
def kInviteTtlSeconds : Int := 72 * 3600

namespace OrgMemberService

/-- The insertion of an invitation, with a fresh token. -/
def proceedWithInvitationInsert (site : OrgSite) (organizationId : Nat) (email : String)
    (role : OrgRole) : OrgProg OrgAnswer := do
  let rawToken : String ← orgStep .secureToken
  let now : Int ← orgStep .now
  let id : Option Nat ← orgStep (.statement (.insertInvitation organizationId email role
    (site.hashToken rawToken) (now + kInviteTtlSeconds)))
  match id with
  | none =>
    respondError "VALIDATION_RESOURCE_CONFLICT"
      "invite: a pending invitation for this email already exists or DB error"
  | some id =>
    let committed : Bool ← orgStep .commit
    if committed then
      return .invitationCreated id email role rawToken (now + kInviteTtlSeconds)
    else respondError "DB_QUERY_ERROR" "invite: commit failed"

/-- The cap of pending invitations, under the lock of the organization's quota. -/
def createInvitationLocked (site : OrgSite) (organizationId : Nat) (email : String)
    (role : OrgRole) : OrgProg OrgAnswer := do
  let pending : Option Nat ← orgStep (.query (.pendingInvitations organizationId))
  match pending with
  | none => respondError "DB_QUERY_ERROR" "invite: pending count failed"
  | some pending =>
    if (pending : Int) ≥ site.maxPendingInvitationsPerOrg then
      refuseAndEnd "VALIDATION_RESOURCE_CONFLICT"
        "invite: too many pending invitations for this organization"
    else proceedWithInvitationInsert site organizationId email role

/-- `OrgMemberService::createInvitation`, under the quota of the organization. -/
def createInvitation (site : OrgSite) (userId slug address : String) (role : OrgRole) :
    OrgProg OrgAnswer :=
  let email := normalizeEmail address
  if email = "" ∨ '@' ∉ email.toList then
    respondError "VALIDATION_FORMAT_ERROR" "invite: a valid email is required"
  else if role = .owner then
    respondError "VALIDATION_INVALID_INPUT" "invite: role must be member or admin"
  else resolveCaller userId fun caller => findOrgBySlug slug fun org =>
    getMembership org.id caller.id fun row =>
      if isManager row = false then
        respondError "AUTHZ_ACCESS_DENIED" "owner or admin role required"
      else withAdvisoryXactLock ["quota:org:" ++ toString org.id]
        (createInvitationLocked site org.id email role)
        fun err => .error "DB_QUERY_ERROR" ("invite: cap serialization failed: " ++ err)

/-- The member row, and then the stamp: two statements. -/
def joinByInvitation (caller : ResolvedUser) (invite : OrganizationInvitation) :
    OrgProg OrgAnswer := do
  let member : Option Nat ← orgStep (.statement (.insertMember invite.organizationId caller.id
    (if invite.role = .admin then .admin else .member)))
  match member with
  | none =>
    respondError "VALIDATION_RESOURCE_CONFLICT" "accept invite: already a member or DB error"
  | some _ =>
    let now : Int ← orgStep .now
    let stamped : Option Nat ← orgStep (.statement (.stampInvitation invite.id now))
    match stamped with
    | none => respondError "DB_QUERY_ERROR" "accept invite: stamp failed"
    | some _ => return .invitationAccepted invite.organizationId invite.role

/-- The checks on the invitation that was read. -/
def acceptRead (caller : ResolvedUser) (invite : OrganizationInvitation) : OrgProg OrgAnswer :=
  if invite.accepted then
    respondError "VALIDATION_RESOURCE_CONFLICT" "accept invite: invitation already accepted"
  else if invite.email ≠ normalizeEmail caller.email then
    respondError "AUTHZ_ACCESS_DENIED"
      "accept invite: the invitation was issued to a different email address"
  else do
    let now : Int ← orgStep .now
    if invite.expiresAt < now then
      respondError "VALIDATION_INVALID_INPUT" "accept invite: invitation expired"
    else joinByInvitation caller invite

/-- `OrgMemberService::acceptInvitation`. -/
def acceptInvitation (site : OrgSite) (userId token : String) : OrgProg OrgAnswer :=
  if token = "" then
    respondError "VALIDATION_MISSING_REQUIRED_FIELD" "accept invite: token is required"
  else resolveCaller userId fun caller =>
    if normalizeEmail caller.email = "" ∨ '@' ∉ (normalizeEmail caller.email).toList then
      respondError "VALIDATION_INVALID_INPUT"
        "accept invite: your account has no email address to match the invitation"
    else if caller.emailVerified = false then
      respondError "AUTHZ_ACCESS_DENIED"
        "accept invite: verify your email address before accepting an invitation"
    else do
      let invite : Option (Option OrganizationInvitation) ←
        orgStep (.query (.invitation (site.hashToken token)))
      match invite with
      | some (some invite) => acceptRead caller invite
      | _ => respondError "VALIDATION_RESOURCE_NOT_FOUND" "accept invite: invalid token"

/-! ## Removing members -/

/-- `OrgMemberService::removeMember`. -/
def removeMember (userId slug : String) (target : Option Int32) : OrgProg OrgAnswer :=
  match target with
  | none => respondError "VALIDATION_FORMAT_ERROR" "remove member: invalid user id"
  | some targetUserId =>
    resolveCaller userId fun caller => findOrgBySlug slug fun org =>
      getMembership org.id caller.id fun row =>
        match row with
        | none => respondError "VALIDATION_RESOURCE_NOT_FOUND" "organization not found"
        | some own =>
          let selfRemoval : Bool := caller.id = targetUserId
          let allowed : Bool :=
            match own.role with
            | .owner => !selfRemoval
            | .admin => true
            | .member => selfRemoval
          if allowed = false then
            respondError "AUTHZ_ACCESS_DENIED" "insufficient role for this removal"
          else getMembership org.id targetUserId fun row =>
            match row with
            | none => respondError "VALIDATION_RESOURCE_NOT_FOUND" "target is not a member"
            | some targetRow =>
              if targetRow.role = .owner then
                respondError "AUTHZ_ACCESS_DENIED"
                  "the organization owner cannot be removed (transfer is out of scope)"
              else if own.role = .admin ∧ targetRow.role = .admin ∧ selfRemoval = false then
                respondError "AUTHZ_ACCESS_DENIED" "admins can only remove members"
              else do
                let count : Option Nat ← orgStep (.statement (.deleteMember org.id targetUserId))
                match count with
                | none => respondError "DB_QUERY_ERROR" "member removal failed"
                | some 0 => respondError "VALIDATION_RESOURCE_NOT_FOUND" "membership not found"
                | some _ => return .memberRemoved

end OrgMemberService

namespace OrganizationService

/-- The row is deleted, or the answer says that there was none. -/
def deleteMembership (orgId : Nat) (targetUserId : Int32) : OrgProg OrgAnswer := do
  let removed : Option Nat ← orgStep (.statement (.deleteMember orgId targetUserId))
  match removed with
  | none => respondError "DB_QUERY_ERROR" "remove member failed"
  | some 0 => respondError "VALIDATION_RESOURCE_NOT_FOUND" "membership not found"
  | some _ => return .memberRemoved

/-- The admin endpoint; owners are counted before one of them is removed. -/
def removeMember (slug : String) (target : Option Int32) : OrgProg OrgAnswer :=
  match target with
  | none => respondError "VALIDATION_INVALID_INPUT" "remove member: userId must be an integer"
  | some targetUserId => findLiveOrg slug fun org => do
    let row : Option (Option OrganizationMember) ←
      orgStep (.query (.membership org.id targetUserId))
    match row with
    | none => respondError "DB_QUERY_ERROR" "membership lookup failed"
    | some none => respondError "VALIDATION_RESOURCE_NOT_FOUND" "membership not found"
    | some (some membership) =>
      if membership.role = .owner then do
        let owners : Option (List OrganizationMember) ← orgStep (.query (.owners org.id))
        match owners with
        | none => respondError "DB_QUERY_ERROR" "owner count failed"
        | some owners =>
          if owners.length ≤ 1 then
            respondError "VALIDATION_RESOURCE_CONFLICT"
              "remove member: transfer ownership before removing the last owner"
          else deleteMembership org.id targetUserId
      else deleteMembership org.id targetUserId

/-! ## Moving the ownership -/

/-- The last statement of a transfer by an administrator. -/
def demoteOthersAndRespond (orgId : Nat) (targetUserId : Int32) : OrgProg OrgAnswer := do
  let demoted : Option Nat ← orgStep (.statement (.demoteOthers orgId targetUserId))
  match demoted with
  | none =>
    respondError "DB_QUERY_ERROR"
      "demote previous owners failed (target is already owner; retry is idempotent)"
  | some _ => return .ownershipTransferred orgId targetUserId

/-- The target becomes an owner, and then every other owner an admin: two statements. -/
def promoteAndDemote (orgId : Nat) (targetUserId : Int32) : OrgProg OrgAnswer := do
  let row : Option (Option OrganizationMember) ← orgStep (.query (.membership orgId targetUserId))
  match row with
  | none => respondError "DB_QUERY_ERROR" "membership lookup failed"
  | some (some row) =>
    let count : Option Nat ← orgStep (.statement (.setRole row.id .owner))
    match count with
    | none => respondError "DB_QUERY_ERROR" "promote membership failed"
    | some 0 =>
      respondError "VALIDATION_RESOURCE_CONFLICT"
        "target left the organization during the transfer; retry"
    | some _ => demoteOthersAndRespond orgId targetUserId
  | some none =>
    let seat : Option Nat ← orgStep (.statement (.insertMember orgId targetUserId .owner))
    match seat with
    | none => respondError "DB_QUERY_ERROR" "create owner membership failed"
    | some _ => demoteOthersAndRespond orgId targetUserId

/-- Without a number when the body has no integer `user_id`. -/
def transferOwnership (slug : String) (requestedUserId : Option Int) : OrgProg OrgAnswer :=
  match requestedUserId with
  | none =>
    respondError "VALIDATION_INVALID_INPUT"
      "transfer ownership: JSON body with integer user_id required"
  | some requested =>
    if requested ≤ 0 ∨ requested > 2147483647 then
      respondError "VALIDATION_INVALID_INPUT" "transfer ownership: user_id is out of range"
    else findLiveOrg slug fun org => do
      let targetUserId := Int32.ofInt requested
      let user : Option Bool ← orgStep (.liveUser targetUserId)
      match user with
      | none => respondError "DB_QUERY_ERROR" "user lookup failed"
      | some false => respondError "VALIDATION_RESOURCE_NOT_FOUND" "user not found"
      | some true => promoteAndDemote org.id targetUserId

end OrganizationService

namespace OrgSuccessionRepository

/-- Nothing is left of the swap unless a pending nomination of the nominee is marked. -/
def demoteAndMark (orgId : Nat) (nomineeUserId : Int32) : OrgProg Bool := do
  let demoted : Option Nat ← orgStep (.statement (.demoteOthers orgId nomineeUserId))
  match demoted with
  | none => return false
  | some _ =>
    let marked : Option Nat ← orgStep (.statement (.acceptNomination orgId nomineeUserId))
    match marked with
    | none => return false
    | some 0 =>
      let () ← orgStep .rollback
      return false
    | some _ => orgStep .commit

/-- `OrgSuccessionRepository::effectSuccession`, in one transaction. -/
def effectSuccession (orgId : Nat) (nomineeUserId : Int32) : OrgProg Bool :=
  withAdvisoryXactLock []
    (do
      let row : Option (Option OrganizationMember) ←
        orgStep (.query (.membership orgId nomineeUserId))
      match row with
      | none => return false
      | some (some row) =>
        let count : Option Nat ← orgStep (.statement (.setRole row.id .owner))
        match count with
        | none => return false
        | some 0 =>
          let () ← orgStep .rollback
          return false
        | some _ => demoteAndMark orgId nomineeUserId
      | some none =>
        let seat : Option Nat ← orgStep (.statement (.insertMember orgId nomineeUserId .owner))
        match seat with
        | none => return false
        | some _ => demoteAndMark orgId nomineeUserId)
    fun _ => false

end OrgSuccessionRepository

namespace OrgMemberService

/-- `OrgMemberService::acceptSuccession`. -/
def acceptSuccession (userId slug : String) : OrgProg OrgAnswer :=
  resolveCaller userId fun caller => findOrgBySlug slug fun org => do
    let pending : Option (Option SuccessionNomination) ←
      orgStep (.query (.pendingNomination org.id))
    match pending with
    | some (some pending) =>
      if pending.nomineeUserId ≠ caller.id then
        respondError "AUTHZ_ACCESS_DENIED" "only the nominated successor may accept"
      else
        let ok ← OrgSuccessionRepository.effectSuccession org.id caller.id
        if ok then return .successionAccepted caller.id
        else
          respondError "VALIDATION_RESOURCE_CONFLICT"
            "succession no longer pending or the swap failed; retry"
    | _ => respondError "VALIDATION_RESOURCE_NOT_FOUND" "no pending successor nomination"

end OrgMemberService

/-! ## Consent requests -/

namespace OrgConsentRepository

/-- `OrgConsentRepository::saveConsent`, in one transaction. -/
def saveConsent (save : ConsentSave) : OrgProg Bool :=
  withAdvisoryXactLock
    ["orgconsent:" ++ toString save.organizationId ++ ":" ++ save.clientId]
    (do
      let done : Option Nat ← orgStep (.statement (.upsertConsent save.organizationId
        save.clientId save.scope save.grantedBy))
      match done with
      | none => return false
      | some _ => orgStep .commit)
    fun _ => false

end OrgConsentRepository

/-- A save that was detached, by a thread of its own. -/
def runDetachedSave : OrgProg OrgAnswer := do
  let save : ConsentSave ← orgStep .awaitSave
  let ok ← OrgConsentRepository.saveConsent save
  return .consentSaved ok

namespace OrgMemberService

/-- The saves of the other scopes are sent into the background. -/
def detachAll (organizationId : Nat) (grantedBy : Int32) (clientId : String) :
    List String → OrgProg Unit
  | [] => return ()
  | scope :: scopes => do
    let () ← orgStep (.detach ⟨organizationId, grantedBy, clientId, scope⟩)
    detachAll organizationId grantedBy clientId scopes

/-- The decision of an approval; how many rows changed is not looked at. -/
def decideApproved (row : OrganizationConsentRequest) (scopes : List String) :
    OrgProg OrgAnswer := do
  let _ : Option Nat ← orgStep (.statement (.decidePending row.id .approved))
  let _ : Option Nat ← orgStep
    (.statement (.resolveOtherPending row.organizationId row.clientId row.id))
  return .requestApproved row.id row.clientId (some scopes)

/-- The consent rows of an approval: the first is waited for. -/
def grantScopes (caller : ResolvedUser) (row : OrganizationConsentRequest) :
    List String → OrgProg OrgAnswer
  | [] => decideApproved row []
  | first :: others => do
    let success ← OrgConsentRepository.saveConsent
      ⟨row.organizationId, caller.id, row.clientId, first⟩
    if success then do
      detachAll row.organizationId caller.id row.clientId others
      decideApproved row (first :: others)
    else
      respondError "INTERNAL_ERROR" ("failed to save organization consent for scope: " ++ first)

/-- What an approval does with the request it has read. -/
def approveRow (caller : ResolvedUser) (row : OrganizationConsentRequest) : OrgProg OrgAnswer :=
  if row.status = .rejected then
    respondError "VALIDATION_RESOURCE_CONFLICT" "consent request was rejected"
  else do
    let active : Option Bool ←
      orgStep (.query (.hasActiveConsent row.organizationId row.clientId))
    -- an exception of this query counts as no consent
    if row.status = .approved ∧ active = some true then
      return .requestApproved row.id row.clientId none
    else
      let scopes : Option (List String) ← orgStep (.clientScopes row.clientId)
      match scopes with
      | none => respondError "DB_QUERY_ERROR" "client scope lookup failed"
      | some scopes => grantScopes caller row scopes

/-- The steps that an approval and a rejection share. -/
def withRequest (userId slug : String) (requestId : Nat)
    (onRow : ResolvedUser → OrganizationConsentRequest → OrgProg OrgAnswer) : OrgProg OrgAnswer :=
  resolveCaller userId fun caller => findOrgBySlug slug fun org =>
    getMembership org.id caller.id fun member =>
      if isManager member = false then
        respondError "AUTHZ_ACCESS_DENIED" "owner or admin role required"
      else do
        let row : Option (Option OrganizationConsentRequest) ←
          orgStep (.query (.request requestId))
        match row with
        | none => respondError "DB_QUERY_ERROR" "consent request lookup failed"
        | some none => respondError "VALIDATION_RESOURCE_NOT_FOUND" "consent request not found"
        | some (some row) =>
          if row.organizationId ≠ org.id then
            respondError "VALIDATION_RESOURCE_NOT_FOUND" "consent request not found"
          else onRow caller row

/-- `OrgMemberService::approveConsentRequest`. -/
def approveConsentRequest (userId slug : String) (requestId : Option Nat) : OrgProg OrgAnswer :=
  match requestId with
  | none =>
    respondError "VALIDATION_INVALID_INPUT" "approve consent request: numeric request id required"
  | some requestId => withRequest userId slug requestId approveRow

/-- What a rejection does with the request it has read. -/
def rejectRow (row : OrganizationConsentRequest) : OrgProg OrgAnswer :=
  if row.status ≠ .pending then
    respondError "VALIDATION_RESOURCE_CONFLICT" "consent request is already decided"
  else do
    let flipped : Option Nat ← orgStep (.statement (.decidePending row.id .rejected))
    match flipped with
    | none => respondError "VALIDATION_RESOURCE_CONFLICT" "consent request is already decided"
    | some 0 => respondError "VALIDATION_RESOURCE_CONFLICT" "consent request is already decided"
    | some _ => return .requestRejected row.id row.clientId

/-- `OrgMemberService::rejectConsentRequest`. -/
def rejectConsentRequest (userId slug : String) (requestId : Option Nat) : OrgProg OrgAnswer :=
  match requestId with
  | none =>
    respondError "VALIDATION_INVALID_INPUT" "reject consent request: numeric request id required"
  | some requestId => withRequest userId slug requestId fun _ row => rejectRow row

/-- `OrgMemberService::withdrawConsentRequest`. -/
def withdrawConsentRequest (userId slug : String) (requestId : Option Nat) : OrgProg OrgAnswer :=
  match requestId with
  | none =>
    respondError "VALIDATION_INVALID_INPUT" "withdraw consent request: numeric request id required"
  | some requestId =>
    resolveCaller userId fun caller => findOrgBySlug slug fun org =>
      getMembership org.id caller.id fun member =>
        match member with
        | none => respondError "VALIDATION_RESOURCE_NOT_FOUND" "organization not found"
        | some _ => do
          let deleted : Option Nat ← orgStep
            (.statement (.withdrawOwnPending org.id requestId caller.id))
          match deleted with
          | none => respondError "VALIDATION_RESOURCE_NOT_FOUND" "consent request not found"
          | some 0 => respondError "VALIDATION_RESOURCE_NOT_FOUND" "consent request not found"
          | some _ => return .requestWithdrawn requestId

end OrgMemberService

end Fulla
