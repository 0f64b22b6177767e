import Fulla.Access.Scopes
import Fulla.Conc.Checks
import Fulla.Conc.Table
import Fulla.Protocol.TokenService
import Fulla.Web.Session

/-!
# The site: users, configuration and what a request meets

The part of the server the browser-facing handlers share: the `users` table and
the password check of `identity/AuthService.cc`, the configuration they read, the
issuance guard of `OAuth2Plugin.cc`, the validation rules of `RuleSet.cc`, and
the answers they give.

`Site` is fixed; `Around` is what may differ from request to request: the clock,
the store's moments, the ports and which writes to the user table fail.  The
cryptography (`verifyPassword`, TOTP, SHA-256), `std::regex_match` and the
organisation gate are functions of these records, arbitrary in every theorem.
-/

namespace Fulla

open Conc

/-! ## Users -/

/-- A row of `users`, as far as signing in reads it. -/
structure User where
  id : Int
  publicSub : String
  username : String
  email : String
  passwordHash : String
  salt : String := ""
  emailVerified : Bool := false
  mfaEnabled : Bool := false
  mustChangePassword : Bool := false
  lockedUntil : Int := 0
  failedLoginCount : Nat := 0
  mfaSecret : String := ""
  /-- The stored hashes; a text that is no JSON array holds none. -/
  mfaBackupCodes : List String := []
  mfaPendingClientId : Option String := none
  mfaPendingRedirectUri : Option String := none
  deleted : Bool := false
deriving DecidableEq, Repr

/-- `public_sub` has a unique index. -/
abbrev Users := Table User.publicSub

namespace Users

/-- Drogon's `findOne`: no row and more than one row are both errors. -/
def findOne (users : Users) (p : User → Bool) : Option User :=
  match users.rows.filter p with
  | [user] => some user
  | _ => none

theorem mem_of_findOne {users : Users} {p : User → Bool} {user : User}
    (found : users.findOne p = some user) : user ∈ users.rows ∧ p user = true := by
  unfold findOne at found
  split at found
  · next only =>
      cases found
      exact List.mem_filter.mp (only ▸ List.mem_singleton_self _)
  · cases found

/-- The row of an address, if it is not deleted. -/
def findByEmail (users : Users) (email : String) : Option User :=
  users.findOne fun u => u.email = email && !u.deleted

/-- The row of a name, if it is not deleted. -/
def findByUsername (users : Users) (username : String) : Option User :=
  users.findOne fun u => u.username = username && !u.deleted

/-- The row of a public subject, if it is not deleted. -/
def findByPublicSub (users : Users) (publicSub : String) : Option User :=
  (users.find? publicSub).filter fun u => !u.deleted

theorem find?_of_findByPublicSub {users : Users} {publicSub : String} {user : User}
    (found : users.findByPublicSub publicSub = some user) : users.find? publicSub = some user :=
  (Option.filter_eq_some_iff.mp found).1

end Users

/-- What a handler may change of a row: everything but the identity and the MFA flag. -/
structure User.Update where
  apply : User → User
  id_eq : ∀ u, (apply u).id = u.id
  publicSub_eq : ∀ u, (apply u).publicSub = u.publicSub
  mfaEnabled_eq : ∀ u, (apply u).mfaEnabled = u.mfaEnabled

namespace Users

/-- Rewrite the rows of internal id `id`. -/
def update (users : Users) (id : Int) (f : User.Update) : Users :=
  users.updateWhere (fun u => u.id = id) f.apply f.publicSub_eq

/-- The same users: nobody appears, disappears, changes identity or MFA enrolment. -/
def SameUsers (users users' : Users) : Prop :=
  ∀ sub, (users'.find? sub).map (fun u => (u.id, u.mfaEnabled)) =
    (users.find? sub).map fun u => (u.id, u.mfaEnabled)

theorem SameUsers.refl (users : Users) : SameUsers users users := fun _ =>
  rfl

theorem SameUsers.trans {a b c : Users} (ab : SameUsers a b) (bc : SameUsers b c) :
    SameUsers a c := fun sub =>
  (bc sub).trans (ab sub)

/-- An update changes no identity. -/
theorem sameUsers_update (users : Users) (id : Int) (f : User.Update) :
    SameUsers users (users.update id f) := by
  intro sub
  rw [update, Table.find?_updateWhere, Option.map_map]
  congr 1
  funext u
  simp only [Function.comp_apply]
  split
  · rw [f.id_eq, f.mfaEnabled_eq]
  · rfl

end Users

namespace User

/-- `incrementFailedLogins`: the lock grows with the number of failures. -/
def incrementFailedLogins (now : Int) : Update where
  apply u :=
    let newFailedCount := u.failedLoginCount + 1
    { u with
      failedLoginCount := newFailedCount
      lockedUntil :=
        if newFailedCount ≥ 20 then now + 3600
        else if newFailedCount ≥ 15 then now + 1800
        else if newFailedCount ≥ 10 then now + 300
        else if newFailedCount ≥ 5 then now + 60
        else 0 }
  id_eq _ := rfl
  publicSub_eq _ := rfl
  mfaEnabled_eq _ := rfl

/-- The count and the lock are cleared. -/
def resetFailedLogins : Update where
  apply u := { u with failedLoginCount := 0, lockedUntil := 0 }
  id_eq _ := rfl
  publicSub_eq _ := rfl
  mfaEnabled_eq _ := rfl

/-- The hash is replaced, and the old salt goes with it. -/
def updatePasswordHash (newHash : String) : Update where
  apply u := { u with passwordHash := newHash, salt := "" }
  id_eq _ := rfl
  publicSub_eq _ := rfl
  mfaEnabled_eq _ := rfl

/-- The client that waits for the second factor. -/
def setPendingBinding (clientId redirectUri : Option String) : Update where
  apply u := { u with mfaPendingClientId := clientId, mfaPendingRedirectUri := redirectUri }
  id_eq _ := rfl
  publicSub_eq _ := rfl
  mfaEnabled_eq _ := rfl

/-- The codes that are left. -/
def setBackupCodes (stored : List String) : Update where
  apply u := { u with mfaBackupCodes := stored }
  id_eq _ := rfl
  publicSub_eq _ := rfl
  mfaEnabled_eq _ := rfl

end User

/-! ## Configuration and surroundings -/

/-- The configuration, and the functions that the source has from elsewhere. -/
structure Site where
  /-- `auth.require_pkce_for_public`; on unless a deployment opts out. -/
  requirePkce : Bool := true
  /-- `auth.require_email_verification`. -/
  requireEmailVerification : Bool := false
  /-- `auth.allow_http_redirect_uri`. -/
  allowHttpRedirectUri : Bool := false
  /-- `auth.allow_legacy_hash`. -/
  allowLegacyHash : Bool := false
  adminScopes : List String := defaultAdminScopes
  /-- `std::regex_match` of a pattern and a value. -/
  regexMatch : String → String → Bool
  /-- The password, the stored hash and the legacy salt. -/
  verifyPassword : String → String → String → Bool
  /-- `totp::verifyCode` of a secret, a code and the time. -/
  verifyTotp : String → String → Int → Bool
  sha256Hex : String → String
  /-- Memory deployments hold no backup codes and no organisations. -/
  memoryStorage : Bool := false
  /-- The MFA service is injected; otherwise the handler reads the table itself. -/
  mfaServiceWired : Bool := true
  tokenService : TokenService

/-- What the organization gate decides. -/
inductive OrgContextDecision where
  | none
  | proceed (orgId : Int)
  | invalid
  | mfaRequired
  | storageError
deriving DecidableEq, Repr

/-- `MembershipLookup` of `ClientOwnersRepository`. -/
inductive MembershipLookup where
  | found (role : String)
  | noRow
  | error (what : String)
deriving DecidableEq, Repr

/-- The writes to the user table that a request may make. -/
inductive UserWrite where
  | failedLogins
  | passwordHash
  | pendingBinding
  | backupCodes
  | clearPending
deriving DecidableEq, Repr

/-- What one request meets. -/
structure Around where
  now : Int
  /-- The moments of the token service's operations. -/
  env : Env
  getClient : String → Option OAuth2Client
  /-- The user look-ups fail and find nobody. -/
  userLookupFails : Bool := false
  writeFails : UserWrite → Bool := fun _ => false
  /-- What a failing statement reports. -/
  dbError : String := ""
  /-- The fresh hash of a legacy password, unless hashing throws. -/
  hashPassword : Option String := none
  /-- `ISubjectResolver`, over the subject mapping. -/
  resolveSubject : String → Option Int := fun _ => none
  /-- `OAuth2Plugin::getInternalUserId`. -/
  getInternalUserId : String → Option Int := fun _ => none
  roleProvider : Option RoleProvider := none
  hasOrgConsentForUser : Option (Int → String → String → Bool) := none
  /-- `OrgContextGate::validate` of `org_id`, client, user and `amr`. -/
  orgGate : String → String → Int → String → OrgContextDecision := fun _ _ _ _ => .storageError
  findMembership : Int → Int → MembershipLookup := fun _ _ => .noRow
  saveUserConsent : Int → String → String → Bool := fun _ _ _ => true
  saveOrgConsent : Int → Int → String → String → Bool := fun _ _ _ _ => true
  /-- The nonce `generateSecureToken` draws for the consent form. -/
  consentCsrf : String := ""

/-- The arguments of a call of `generateAuthorizationCode`. -/
structure CodeRequest where
  clientId : String
  subject : String
  scope : String
  redirectUri : String
  codeChallenge : String
  codeChallengeMethod : String
  nonce : String
  authTime : Int
  amr : String
  orgId : Option Int := none
deriving DecidableEq, Repr

/-- A code that was generated: what it was asked for, and the raw code. -/
structure IssuedCode extends CodeRequest where
  code : String
deriving DecidableEq, Repr

/-- What the requests change: the session, the users, the consents and the store. -/
structure WebState where
  session : Session := {}
  users : Users
  /-- Rows of user, client and scope. -/
  consents : List (Int × String × String) := []
  db : Db

/-! ## Requests and answers -/

/-- The form of `login`. -/
structure LoginRequest where
  username : String
  password : String
  clientId : String := ""
  redirectUri : String := ""
  scope : String := ""
  state : String := ""
  codeChallenge : String := ""
  codeChallengeMethod : String := ""
  nonce : String := ""
  orgId : String := ""
  /-- `json=true` asks for JSON in place of a redirect. -/
  json : Bool := false
deriving DecidableEq, Repr

/-- The form of `verifyLogin`. -/
structure VerifyLoginRequest where
  mfaToken : String
  code : String
  clientId : String
  redirectUri : String
  scope : String := ""
  nonce : String := ""
  codeVerifier : String := ""
deriving DecidableEq, Repr

/-- The parameters of `authorize`. -/
structure AuthorizeRequest where
  responseType : String
  clientId : String
  redirectUri : String
  scope : String := ""
  state : String := ""
  codeChallenge : String := ""
  codeChallengeMethod : String := ""
  nonce : String := ""
  prompt : String := ""
  maxAge : String := ""
  orgId : String := ""
deriving DecidableEq, Repr

/-- The form of `consent`. -/
structure ConsentRequest where
  clientId : String
  userId : String
  scope : String := ""
  redirectUri : String
  state : String := ""
  /-- `deny`, or anything else to approve. -/
  action : String := "approve"
  codeChallenge : String := ""
  codeChallengeMethod : String := ""
  nonce : String := ""
  consentCsrf : String := ""
deriving DecidableEq, Repr

/-- A request to one of the four handlers. -/
inductive Request where
  | login (r : LoginRequest)
  | verifyLogin (r : VerifyLoginRequest)
  | authorize (r : AuthorizeRequest)
  | consent (r : ConsentRequest)
deriving DecidableEq, Repr

/-- What they answer. -/
inductive Response where
  /-- `HttpResponder::respondIfErrors`. -/
  | validation (errors : List String)
  /-- `respondError`: an error code and the detail that goes to the log. -/
  | error (code detail : String)
  /-- A plain page. -/
  | page (status : Nat) (body : String)
  /-- A redirect to the client with `error`, `error_description` and `state`. -/
  | oauthError (redirectUri error description state : String)
  /-- A redirect to the login page, which carries the request along. -/
  | loginScreen (request : AuthorizeRequest)
  | changePasswordScreen (clientId : String)
  | passwordChangeRequired
  | mfaRequired (mfaToken : String)
  /-- A redirect to the consent page, with the subject and the form's nonce. -/
  | consentScreen (request : AuthorizeRequest) (userId consentCsrf : String)
  /-- A redirect with `code` and `state`, or the same as JSON. -/
  | code (redirectUri code state : String) (json : Bool)
  | tokens (json : TokenJson) (backupCodesRemaining : Option Nat)
deriving DecidableEq, Repr

/-- An error answer, as opposed to a step of the flow or a success. -/
def Response.isError : Response → Bool
  | validation _ | error _ _ | oauthError _ _ _ _ => true
  | page status _ => status ≥ 400
  | _ => false

/-- What a handler answers, the state it leaves and the code it minted. -/
structure Outcome where
  answer : Response
  state : WebState
  minted : Option IssuedCode := none

/-! ## The password check -/

/-- The hash has no format. -/
def isLegacyHash (storedHash : String) : Bool :=
  (afterText "$pbkdf2-sha256$" storedHash).isNone

/-- A write to the rows of one user, unless it fails. -/
def Around.write (around : Around) (kind : UserWrite) (users : Users) (id : Int)
    (f : User.Update) : Users :=
  if around.writeFails kind then users else users.update id f

theorem Around.sameUsers_write (around : Around) (kind : UserWrite) (users : Users) (id : Int)
    (f : User.Update) : users.SameUsers (around.write kind users id f) := by
  unfold Around.write
  split
  · exact .refl users
  · exact users.sameUsers_update id f

/-- The look-up by name or address, which can fail. -/
def Around.findUser (around : Around) (users : Users) (identifier : String) : Option User :=
  if around.userLookupFails then none
  else if identifier.toList.contains '@' then users.findByEmail (normalizeEmail identifier)
  else users.findByUsername identifier

/-- After a match: the failure counter is reset, a legacy password rehashed. -/
def Around.afterMatch (around : Around) (users : Users) (user : User) : Users :=
  let users :=
    if user.failedLoginCount > 0 then
      around.write .failedLogins users user.id User.resetFailedLogins
    else users
  match isLegacyHash user.passwordHash, around.hashPassword with
  | true, some newHash =>
    around.write .passwordHash users user.id (User.updatePasswordHash newHash)
  | _, _ => users

/-- The account whose password matched, and the table after the attempt. -/
def validateUser (site : Site) (around : Around) (users : Users) (identifier password : String) :
    Option User × Users :=
  match around.findUser users identifier with
  | none => (none, users)
  | some user =>
    if user.lockedUntil > around.now then (none, users)
    else if !site.allowLegacyHash && isLegacyHash user.passwordHash then (none, users)
    else if site.verifyPassword password user.passwordHash user.salt = false then
      (none, around.write .failedLogins users user.id (User.incrementFailedLogins around.now))
    else (some user, around.afterMatch users user)

theorem Around.find?_of_findUser {around : Around} {users : Users} {identifier : String}
    {user : User} (found : around.findUser users identifier = some user) :
    users.find? user.publicSub = some user := by
  unfold Around.findUser at found
  rw [← Table.mem_rows_iff]
  split at found
  · cases found
  · split at found
    · exact (Users.mem_of_findOne found).1
    · exact (Users.mem_of_findOne found).1

/-- The matched account is a row of the table before the call. -/
theorem find?_of_validateUser {site : Site} {around : Around} {users : Users}
    {identifier password : String} {user : User}
    (valid : (validateUser site around users identifier password).1 = some user) :
    users.find? user.publicSub = some user := by
  unfold validateUser at valid
  split at valid
  · cases valid
  · next found =>
      split_ifs at valid
      cases valid
      exact Around.find?_of_findUser found

theorem Around.sameUsers_afterMatch (around : Around) (users : Users) (user : User) :
    users.SameUsers (around.afterMatch users user) := by
  have reset : users.SameUsers (if user.failedLoginCount > 0 then
      around.write .failedLogins users user.id User.resetFailedLogins else users) := by
    split
    · exact around.sameUsers_write _ _ _ _
    · exact .refl users
  unfold Around.afterMatch
  dsimp only
  split
  · exact reset.trans (around.sameUsers_write _ _ _ _)
  · exact reset

/-- Nor does a login. -/
theorem sameUsers_validateUser (site : Site) (around : Around) (users : Users)
    (identifier password : String) :
    users.SameUsers (validateUser site around users identifier password).2 := by
  unfold validateUser
  split
  · exact .refl users
  · split_ifs
    · exact .refl users
    · exact .refl users
    · exact around.sameUsers_write _ _ _ _
    · exact around.sameUsers_afterMatch _ _

/-- What the login policy decides. -/
inductive LoginDecision where
  | proceed
  | denyEmailNotVerified
  | requireMfa
deriving DecidableEq, Repr

/-- Email verification takes precedence over MFA. -/
def evaluateLoginPolicy (user : User) (requireEmailVerification : Bool) : LoginDecision :=
  if requireEmailVerification && !user.emailVerified then .denyEmailNotVerified
  else if user.mfaEnabled then .requireMfa
  else .proceed

/-! ## The issuance guard -/

/-- A failed `CodeIssuanceGuardResult`. -/
structure GuardFailure where
  errorCode : String
  detail : String
deriving DecidableEq, Repr

/-- Client existence, a registered `redirect_uri`, and scopes within the allowlist. -/
def checkCodeIssuanceGuards (around : Around) (clientId redirectUri scope : String) :
    Except GuardFailure Unit := do
  refuseIf (clientId = "" || redirectUri = "")
    ⟨"VALIDATION_MISSING_REQUIRED_FIELD", "code issuance requires client_id and redirect_uri"⟩
  let client ← orRefuse (around.getClient clientId)
    ⟨"VALIDATION_INVALID_INPUT", "unknown client_id '" ++ clientId ++ "'"⟩
  refuseIf (!client.isRegisteredRedirectUri redirectUri)
    ⟨"VALIDATION_REDIRECT_URI_NOT_REGISTERED",
      "redirect_uri is not registered for client '" ++ clientId ++ "'"⟩
  refuseIf (scope ≠ "" && !client.allowsAllScopes scope)
    ⟨"VALIDATION_INVALID_INPUT",
      "requested scope exceeds the scopes registered for client '" ++ clientId ++ "'"⟩
  return ()

/-- What a client and its redirect URI have passed. -/
theorem checkCodeIssuanceGuards_ok {around : Around} {clientId redirectUri scope : String}
    (passed : checkCodeIssuanceGuards around clientId redirectUri scope = .ok ()) :
    ∃ client, around.getClient clientId = some client ∧
      client.isRegisteredRedirectUri redirectUri = true ∧ client.allowsAllScopes scope = true := by
  simp only [checkCodeIssuanceGuards, bind_eq_ok, refuseIf_eq_ok, orRefuse_eq_ok, exists_const]
    at passed
  obtain ⟨-, client, found, registered, scopes, -⟩ := passed
  refine ⟨client, found, by simpa using registered, ?_⟩
  by_cases empty : scope = ""
  · rw [empty]
    exact client.allowsAllScopes_empty
  · simpa [empty] using scopes

/-- `OAuth2Plugin::validateRedirectUri`. -/
def validateRedirectUri (around : Around) (clientId redirectUri : String) : Bool :=
  match around.getClient clientId with
  | none => false
  | some client => client.isRegisteredRedirectUri redirectUri

/-! ## Running the token service -/

/-- Run a program of the token service with nothing else going on. -/
def WebState.runStore {α : Type} (w : WebState) (around : Around) (p : StoreProg α) :
    α × WebState :=
  let ran := p.run (World.handler (exec around.env) ()) (World.start w.db)
  (ran.1, { w with db := ran.2.db })

/-- Ask for a code; the code that is generated is the one the store holds. -/
def issue (site : Site) (around : Around) (w : WebState) (request : CodeRequest)
    (failed succeeded : String → Response) : Outcome :=
  match w.runStore around (site.tokenService.generateAuthorizationCode request.clientId
      request.subject request.scope request.redirectUri request.codeChallenge
      request.codeChallengeMethod request.nonce request.authTime request.amr request.orgId) with
  | (.error reason, w') => { answer := failed reason, state := w' }
  | (.ok code, w') =>
    { answer := succeeded code, state := w', minted := some { request with code := code } }

section Issue

variable {site : Site} {around : Around} {w : WebState} {request : CodeRequest}
  {failed succeeded : String → Response}

/-- Issuing touches nothing but the store. -/
theorem issue_state :
    (issue site around w request failed succeeded).state =
      { w with db := (issue site around w request failed succeeded).state.db } := by
  unfold issue WebState.runStore
  dsimp only
  split
  · next eq => exact (Prod.mk.inj eq).2 ▸ rfl
  · next eq => exact (Prod.mk.inj eq).2 ▸ rfl

/-- Issuing a code leaves the session. -/
@[simp]
theorem issue_session :
    (issue site around w request failed succeeded).state.session = w.session := by
  rw [issue_state]

@[simp]
theorem issue_users : (issue site around w request failed succeeded).state.users = w.users := by
  rw [issue_state]

/-- The code that is issued is the one asked for. -/
theorem issue_minted {minted : IssuedCode}
    (issued : (issue site around w request failed succeeded).minted = some minted) :
    minted.toCodeRequest = request := by
  unfold issue at issued
  split at issued
  · cases issued
  · cases issued
    rfl

end Issue

end Fulla
