import Fulla.Web.Rules

/-!
# The browser-facing handlers

`SessionController::login`, `SessionController::consent`,
`AuthorizationEndpointController::authorize` and `MfaController::verifyLogin`, each
as the source orders its checks and its writes.  The checks that only read are
`Except Response` programs; the writes stand between them, where an early answer
leaves those already made in place.

Metrics, audit records and the rotation of the session identifier are left out.
-/

namespace Fulla

open Conc

/-! ## Session writes -/

namespace Session

/-- Every key is erased before it is inserted. -/
def signIn (s : Session) (user : User) (now : Int) : Session :=
  { s with
    userId := some (toString user.id)
    sub := some user.publicSub
    authTime := some now
    amr := some "pwd"
    mfaPending := none
    mustChangePassword := none }

/-- The pause at the second factor, with the challenge of the login request. -/
def pauseForMfa (s : Session) (codeChallenge codeChallengeMethod : String) : Session :=
  { s with
    mfaCodeChallenge := some codeChallenge
    mfaCodeChallengeMethod := some codeChallengeMethod
    mfaPending := insert s.mfaPending true }

/-- `elevateSessionAfterMfa`: the challenge kept at the pause is erased with the rest. -/
def elevateAfterMfa (s : Session) (now : Int) : Session :=
  { s with
    authTime := some now
    amr := some "pwd mfa"
    mfaPending := none
    mfaCodeChallenge := none
    mfaCodeChallengeMethod := none }

end Session

/-- The engine over the ports of one request and the recorded consents. -/
def Around.scopePorts (around : Around) (w : WebState) : ScopePorts where
  subjectResolver := some around.resolveSubject
  roleProvider := around.roleProvider
  hasUserConsent := some fun id clientId scope => w.consents.contains (id, clientId, scope)
  hasOrgConsentForUser := around.hasOrgConsentForUser

/-- The engine on the requested scopes, with the consents of the moment. -/
def evaluateScopes (site : Site) (around : Around) (w : WebState) (clientId subject : String)
    (scopes : List String) : ScopeValidationSummary :=
  AuthorizationService.evaluateScopes around.getClient site.adminScopes (around.scopePorts w)
    clientId subject scopes

/-! ## Login -/

/-- The organisation named by the login request, if any. -/
def loginOrg (around : Around) (w : WebState) (r : LoginRequest) (user : User) :
    Except Response (Option Int) :=
  if r.orgId = "" then .ok none
  else
    match around.orgGate r.orgId r.clientId user.id (Session.text w.session.amr) with
    | .proceed orgId => .ok (some orgId)
    | .mfaRequired =>
      .error (.error "AUTH_MFA_REQUIRED" "login: organization requires multi-factor authentication")
    | _ =>
      .error (.error "VALIDATION_INVALID_INPUT" "login: invalid or unauthorized org_id parameter")

/-- Only the scopes the engine does not reject. -/
def loginScope (site : Site) (around : Around) (w : WebState) (r : LoginRequest) (user : User) :
    Except Response String :=
  if r.scope = "" then .ok ""
  else
    let summary := evaluateScopes site around w r.clientId (toString user.id) (splitSpaces r.scope)
    let validScope := joinSpaces summary.granted
    if validScope = "" then
      .error (.error "VALIDATION_INVALID_SCOPE"
        "login: none of the requested scopes are authorized for this user")
    else .ok validScope

/-- Checks 3 and 4 and the code they lead to; the session is the one just signed in. -/
def loginGrant (site : Site) (around : Around) (w : WebState) (r : LoginRequest) (user : User) :
    Except Response CodeRequest := do
  orAnswer (checkCodeIssuanceGuards around r.clientId r.redirectUri r.scope) fun guard =>
    .error guard.errorCode ("login: " ++ guard.detail)
  refuseIf (site.requirePkce && r.codeChallenge = "")
    (.oauthError r.redirectUri "invalid_request"
      "PKCE (code_challenge) is required for public clients" r.state)
  refuseIf (r.codeChallenge ≠ "" && !Pkce.isValidCodeChallengeFormat r.codeChallenge)
    (.oauthError r.redirectUri "invalid_request"
      "code_challenge must be 43-128 characters of [A-Za-z0-9-._~]" r.state)
  let orgId ← loginOrg around w r user
  let scope ← loginScope site around w r user
  return {
    clientId := r.clientId
    subject := user.publicSub
    scope := scope
    redirectUri := r.redirectUri
    codeChallenge := r.codeChallenge
    codeChallengeMethod := r.codeChallengeMethod
    nonce := r.nonce
    authTime := w.session.authTime.getD 0
    amr := Session.text w.session.amr
    orgId := orgId }

/-- The session is paused first, so that it stays paused when the binding cannot be
written. -/
def pauseLogin (around : Around) (w : WebState) (r : LoginRequest) (user : User) : Outcome :=
  let w := { w with session := w.session.pauseForMfa r.codeChallenge r.codeChallengeMethod }
  match w.users.findOne (fun u => u.id = user.id), around.writeFails .pendingBinding with
  | some _, false =>
    { answer := .mfaRequired user.publicSub
      state := { w with
        users := w.users.update user.id
          (User.setPendingBinding (some r.clientId) (some r.redirectUri)) } }
  | _, _ =>
    { answer := .error "DB_QUERY_ERROR"
        ("login: failed to persist MFA pending binding: " ++ around.dbError)
      state := w }

/-- `onValidated` after the session writes. -/
def loginMatched (site : Site) (around : Around) (w : WebState) (r : LoginRequest)
    (user : User) : Outcome :=
  if user.mustChangePassword then
    { answer := if r.json then .passwordChangeRequired else .changePasswordScreen r.clientId
      state := { w with
        session := { w.session with
          mustChangePassword := Session.insert w.session.mustChangePassword true } } }
  else
    match evaluateLoginPolicy user site.requireEmailVerification with
    | .denyEmailNotVerified =>
      { answer := .error "AUTHZ_ACCESS_DENIED" "login: email not verified", state := w }
    | .requireMfa => pauseLogin around w r user
    | .proceed =>
      match loginGrant site around w r user with
      | .error answer => { answer := answer, state := w }
      | .ok request =>
        issue site around w request
          (fun reason => .error "INTERNAL_ERROR"
            ("login: failed to generate authorization code: " ++ reason))
          fun code => .code r.redirectUri code r.state r.json

/-- `SessionController::login`. -/
def login (site : Site) (around : Around) (w : WebState) (r : LoginRequest) : Outcome :=
  let errors := RuleSet.login site r.username r.password
  if errors ≠ [] then { answer := .validation errors, state := w }
  else
    match validateUser site around w.users r.username r.password with
    | (none, users) =>
      { answer := .error "AUTH_INVALID_CREDENTIALS" "login: invalid credentials"
        state := { w with users := users } }
    | (some user, users) =>
      loginMatched site around
        { w with session := w.session.signIn user around.now, users := users } r user

/-! ## Second factor -/

/-- A backup code is matched by its hash, in either hex case, and removed. -/
def attemptBackupCode (site : Site) (around : Around) (users : Users) (user : User)
    (code : String) : Option Nat × Users :=
  if site.memoryStorage || code = "" then (none, users)
  else
    match user.mfaBackupCodes.findIdx? fun entry =>
        toLowerAscii entry = toLowerAscii (site.sha256Hex code) with
    | none => (none, users)
    | some i =>
      if around.writeFails .backupCodes then (none, users)
      else
        let updated := user.mfaBackupCodes.eraseIdx i
        (some updated.length, users.update user.id (User.setBackupCodes updated))

/-- The injected service insists on an enabled enrolment with a secret. -/
def verifyTotpCode (site : Site) (around : Around) (user : User) (code : String) : Bool :=
  if site.mfaServiceWired then
    user.mfaEnabled && user.mfaSecret ≠ "" && site.verifyTotp user.mfaSecret code around.now
  else site.verifyTotp user.mfaSecret code around.now

/-- Whether TOTP or else a backup code verifies, the codes left in the second case,
and the table afterwards. -/
def secondFactor (site : Site) (around : Around) (users : Users) (user : User)
    (code : String) : Option (Option Nat) × Users :=
  if verifyTotpCode site around user code then (some none, users)
  else
    match attemptBackupCode site around users user code with
    | (none, users) => (none, users)
    | (some remaining, users) => (some (some remaining), users)

/-- The account is named by the request, not by the session. -/
def verifyLoginUser (site : Site) (around : Around) (w : WebState) (r : VerifyLoginRequest) :
    Except Response User := do
  refuseIf (r.mfaToken = "" || r.code = "")
    (.error "VALIDATION_MISSING_REQUIRED_FIELD" "verifyLogin: mfa_token and code are required")
  refuseIf (r.clientId = "" || r.redirectUri = "")
    (.error "VALIDATION_MISSING_REQUIRED_FIELD"
      "verifyLogin: client_id and redirect_uri are required to issue tokens after MFA")
  refuseIf (Session.flag w.session.mustChangePassword)
    (.error "AUTH_PASSWORD_CHANGE_REQUIRED"
      "verifyLogin: change the account password before tokens are issued")
  refuseIf (!site.mfaServiceWired && around.userLookupFails)
    (.error "DB_QUERY_ERROR" ("MFA login verify failed: " ++ around.dbError))
  let user ← orRefuse (if around.userLookupFails then none else w.users.findByPublicSub r.mfaToken)
    (.error "AUTH_INVALID_CREDENTIALS" "verifyLogin: invalid MFA session")
  refuseIf (user.lockedUntil > around.now)
    (.error "AUTH_INVALID_CREDENTIALS" "verifyLogin: account is locked")
  return user

/-- The scope of the code, with the default of the controller. -/
def verifyLoginScope (r : VerifyLoginRequest) : String :=
  if r.scope = "" then "openid profile email" else r.scope

/-- After the elevation: the legacy path passes no challenge at all. -/
def verifyLoginGrant (site : Site) (around : Around) (w : WebState) (r : VerifyLoginRequest)
    (user : User) : Except Response CodeRequest := do
  orAnswer
    (checkCodeIssuanceGuards around r.clientId r.redirectUri (verifyLoginScope r)) fun guard =>
    .error "AUTH_INVALID_CREDENTIALS"
      ("verifyLogin: code issuance guard rejected the request: " ++ guard.detail)
  refuseIf (r.clientId ≠ user.mfaPendingClientId.getD "" ||
      r.redirectUri ≠ user.mfaPendingRedirectUri.getD "")
    (.error "AUTH_INVALID_CREDENTIALS"
      "verifyLogin: client/redirect_uri does not match login session")
  return {
    clientId := r.clientId
    subject := user.publicSub
    scope := verifyLoginScope r
    redirectUri := r.redirectUri
    codeChallenge := if site.mfaServiceWired then Session.text w.session.mfaCodeChallenge else ""
    codeChallengeMethod :=
      if site.mfaServiceWired then Session.text w.session.mfaCodeChallengeMethod else ""
    nonce := r.nonce
    authTime := around.now
    amr := "pwd mfa" }

/-- The code just minted is exchanged at once. -/
def exchangeAfterMfa (site : Site) (around : Around) (issued : Outcome) (code : String)
    (r : VerifyLoginRequest) (user : User) (remaining : Option Nat) : Outcome :=
  let exchanged := issued.state.runStore around (site.tokenService.exchangeCodeForToken code
    r.clientId "" r.redirectUri (if site.mfaServiceWired then r.codeVerifier else ""))
  match exchanged.1 with
  | .error error description =>
    { issued with
      answer := .error "INTERNAL_ERROR" ("verifyLogin: failed to exchange authorization code: " ++
        if description = "" then error else description)
      state := exchanged.2 }
  | .thrown what => { issued with answer := .page 500 what, state := exchanged.2 }
  | .tokens json =>
    { issued with
      answer := .tokens json (if site.mfaServiceWired then remaining else none)
      state := { exchanged.2 with
        users := around.write .clearPending exchanged.2.users user.id
          (User.setPendingBinding none none) } }

/-- `onTotpVerified`: the session is elevated before anything else is checked. -/
def onTotpVerified (site : Site) (around : Around) (w : WebState) (r : VerifyLoginRequest)
    (user : User) (remaining : Option Nat) : Outcome :=
  let w := { w with session := w.session.elevateAfterMfa around.now }
  match verifyLoginGrant site around w r user with
  | .error answer => { answer := answer, state := w }
  | .ok request =>
    let issued := issue site around w request
      (fun reason => .error "INTERNAL_ERROR"
        ("verifyLogin: failed to generate authorization code: " ++ reason))
      fun code => .code r.redirectUri code "" false
    match issued.minted with
    | none => issued
    | some minted => exchangeAfterMfa site around issued minted.code r user remaining

/-- `MfaController::verifyLogin`. -/
def verifyLogin (site : Site) (around : Around) (w : WebState) (r : VerifyLoginRequest) :
    Outcome :=
  match verifyLoginUser site around w r with
  | .error answer => { answer := answer, state := w }
  | .ok user =>
    match secondFactor site around w.users user r.code with
    | (none, users) =>
      { answer := .error "AUTH_INVALID_CREDENTIALS" "verifyLogin: TOTP or backup code is incorrect"
        state := { w with users := users } }
    | (some remaining, users) =>
      onTotpVerified site around { w with users := users } r user remaining

/-! ## Authorize -/

/-- Seconds, or negative when absent, malformed or negative. -/
def maxAgeSeconds (r : AuthorizeRequest) : Int :=
  if r.maxAge = "" then -1
  else
    match stoInt (2 ^ 63) r.maxAge with
    | none => -1
    | some n => if n < 0 then -1 else n

/-- The session is older than the request allows. -/
def maxAgeExceeded (around : Around) (session : Session) (r : AuthorizeRequest) : Bool :=
  let sessAuthTime := session.authTime.getD 0
  maxAgeSeconds r ≥ 0 && (sessAuthTime ≤ 0 || around.now - sessAuthTime > maxAgeSeconds r)

/-- The organization that the code is issued for, or an answer. -/
def authorizeOrg (around : Around) (w : WebState) (r : AuthorizeRequest) :
    Except Response (Option Int) :=
  let decision :=
    if r.orgId = "" then OrgContextDecision.none
    else
      let internalUserId := (stoInt (2 ^ 31) (Session.text w.session.userId)).getD 0
      if internalUserId ≤ 0 then .invalid
      else around.orgGate r.orgId r.clientId internalUserId (Session.text w.session.amr)
  match decision with
  | .proceed orgId => .ok (some orgId)
  | .none => .ok none
  | .mfaRequired =>
    .error (.page 403 ("This organization requires multi-factor authentication. " ++
      "Sign in with MFA, then retry the authorization request."))
  | _ => .error (.page 400 "Invalid or unauthorized org_id parameter.")

/-- What a request that passes every check leads to. -/
inductive AuthorizeNext where
  | askConsent (orgId : Option Int)
  | issueCode (request : CodeRequest)
deriving DecidableEq, Repr

/-- The request itself, the client and the challenge. -/
def authorizeRequestChecks (site : Site) (around : Around) (r : AuthorizeRequest) :
    Except Response Unit := do
  let errors := RuleSet.oauth2Authorize site r.clientId r.redirectUri r.responseType r.scope
  refuseIf (errors ≠ []) (.validation errors)
  let promptValues := splitSpaces r.prompt
  refuseIf (promptValues.contains "none" && promptValues.length > 1)
    (.page 400 "prompt=none cannot be combined with other prompt values (OIDC Core §3.1.2.1)")
  refuseIf (r.state = "")
    (.page 400 ("state parameter is required for CSRF protection. " ++
      "Please include a state parameter in your authorization request."))
  refuseIf (r.state.utf8ByteSize < 8 || r.state.utf8ByteSize > 512)
    (.page 400 "state parameter must be between 8 and 512 characters.")
  refuseIf (r.state.toList.any fun c => c = '?' || c = '#' || c = '&')
    (.page 400 "state parameter contains invalid characters.")
  refuseIf (around.getClient r.clientId).isNone (.page 400 "Invalid client_id")
  refuseIf (!validateRedirectUri around r.clientId r.redirectUri) (.page 400 "Invalid redirect_uri")
  let challenged := r.codeChallenge ≠ ""
  refuseIf (challenged && r.codeChallengeMethod = "plain")
    (.oauthError r.redirectUri "invalid_request"
      "code_challenge_method 'plain' is not allowed; use S256" r.state)
  refuseIf (challenged && r.codeChallengeMethod = "")
    (.oauthError r.redirectUri "invalid_request"
      "code_challenge_method is required when code_challenge is present (S256)" r.state)
  refuseIf (challenged && r.codeChallengeMethod ≠ "S256")
    (.oauthError r.redirectUri "invalid_request" "code_challenge_method must be 'S256'" r.state)
  refuseIf (challenged && !Pkce.isValidCodeChallengeFormat r.codeChallenge)
    (.oauthError r.redirectUri "invalid_request"
      "code_challenge must be 43-128 characters of [A-Za-z0-9-._~]" r.state)
  return ()

/-- A session that is signed in, not paused at the second factor, not flagged for a
password change, and young enough. -/
def authorizeSessionChecks (around : Around) (session : Session) (r : AuthorizeRequest) :
    Except Response Unit := do
  let unusable := Session.text session.userId = "" || Session.text session.sub = "" ||
    Session.flag session.mfaPending || Session.flag session.mustChangePassword
  refuseIf (unusable && (splitSpaces r.prompt).contains "none")
    (.oauthError r.redirectUri "login_required"
      "prompt=none requested but no fully authenticated session" r.state)
  refuseIf (unusable && Session.flag session.mustChangePassword)
    (.changePasswordScreen r.clientId)
  refuseIf unusable (.loginScreen r)
  refuseIf ((splitSpaces r.prompt).contains "login" || maxAgeExceeded around session r)
    (.loginScreen r)
  return ()

/-- The answer to a scope list with an invalid member. -/
def scopeErrorAnswer (r : AuthorizeRequest) (summary : ScopeValidationSummary) : Response :=
  let desc := summary.invalidReasons.headD "scope validation failed"
  .oauthError r.redirectUri (if hasText "admin_role" desc then "access_denied" else "invalid_scope")
    desc r.state

/-- All checks of `authorize`, and what comes after them. -/
def authorizeGrant (site : Site) (around : Around) (w : WebState) (r : AuthorizeRequest) :
    Except Response AuthorizeNext := do
  authorizeRequestChecks site around r
  authorizeSessionChecks around w.session r
  let orgId ← authorizeOrg around w r
  let summary := evaluateScopes site around w r.clientId (Session.text w.session.userId)
    (splitSpaces r.scope)
  refuseIf summary.hasErrors (scopeErrorAnswer r summary)
  let needsConsent := summary.needsConsent || (splitSpaces r.prompt).contains "consent"
  refuseIf (needsConsent && (splitSpaces r.prompt).contains "none")
    (.oauthError r.redirectUri "consent_required"
      "prompt=none requested but user interaction (consent) is required" r.state)
  refuseIf (!needsConsent && site.requirePkce && r.codeChallenge = "")
    (.oauthError r.redirectUri "invalid_request"
      "PKCE (code_challenge) is required for public clients" r.state)
  return if needsConsent then .askConsent orgId else .issueCode {
    clientId := r.clientId
    subject := Session.text w.session.sub
    scope := r.scope
    redirectUri := r.redirectUri
    codeChallenge := r.codeChallenge
    codeChallengeMethod := r.codeChallengeMethod
    nonce := r.nonce
    authTime := w.session.authTime.getD 0
    amr := Session.text w.session.amr
    orgId := orgId }

/-- The two slots the consent form will be checked against. -/
def Session.awaitConsent (s : Session) (around : Around) (r : AuthorizeRequest)
    (orgId : Option Int) : Session :=
  { s with
    pendingConsentCsrfSlots :=
      ConsentCsrfSlots.mint s.pendingConsentCsrfSlots around.consentCsrf around.now
    pendingOrgContextSlots :=
      match orgId with
      | none => s.pendingOrgContextSlots
      | some id => OrgContextSlots.mint s.pendingOrgContextSlots r.state id around.now }

/-- `AuthorizationEndpointController::authorize`. -/
def authorize (site : Site) (around : Around) (w : WebState) (r : AuthorizeRequest) : Outcome :=
  match authorizeGrant site around w r with
  | .error answer => { answer := answer, state := w }
  | .ok (.askConsent orgId) =>
    { answer := .consentScreen r (Session.text w.session.sub) around.consentCsrf
      state := { w with session := w.session.awaitConsent around r orgId } }
  | .ok (.issueCode request) =>
    issue site around w request
      (fun _ => .oauthError r.redirectUri "server_error" "Failed to generate authorization code"
        r.state)
      fun code => .code r.redirectUri code r.state false

/-! ## Consent -/

/-- Gates 1 to 3; the nonce is spent. -/
def consentGates (around : Around) (session : Session) (r : ConsentRequest) :
    Except Response (List ConsentCsrfSlot) := do
  let sessSub := Session.text session.sub
  refuseIf (sessSub = "" || Session.text session.userId = "")
    (.error "AUTH_SESSION_REQUIRED" "consent: an authenticated session is required")
  refuseIf (r.userId ≠ sessSub)
    (.error "AUTHZ_ACCESS_DENIED" "consent: user_id does not match the authenticated session")
  refuseIf (Session.flag session.mfaPending)
    (.error "AUTH_MFA_REQUIRED" "consent: complete MFA verification before granting consent")
  refuseIf (Session.flag session.mustChangePassword)
    (.error "AUTH_PASSWORD_CHANGE_REQUIRED"
      "consent: change the account password before granting consent")
  orRefuse (ConsentCsrfSlots.consume session.pendingConsentCsrfSlots r.consentCsrf around.now)
    (.error "VALIDATION_INVALID_INPUT" "consent: missing, expired, or mismatched consent_csrf")

/-- The checks of an approval; the internal id of the consenting user. -/
def consentChecks (site : Site) (around : Around) (r : ConsentRequest) : Except Response Int := do
  refuseIf (site.requirePkce && r.codeChallenge = "")
    (.error "VALIDATION_INVALID_INPUT" "consent: PKCE (code_challenge) is required")
  orAnswer (checkCodeIssuanceGuards around r.clientId r.redirectUri r.scope) fun guard =>
    .error guard.errorCode ("consent: " ++ guard.detail)
  refuseIf (r.codeChallenge ≠ "" && !Pkce.isValidCodeChallengeFormat r.codeChallenge)
    (.error "VALIDATION_FORMAT_ERROR"
      "consent: code_challenge must be 43-128 characters of [A-Za-z0-9-._~]")
  orRefuse (around.getInternalUserId r.userId)
    (.error "INTERNAL_ERROR" "consent: failed to get user mapping")

/-- The gate is run again for a stashed organisation, and the user's role there decides
whether consent is recorded for the organisation. -/
def consentOrg (site : Site) (around : Around) (r : ConsentRequest) (internalUserId : Int)
    (sessAmr : String) : Option Int → Except Response (Option Int × Bool)
  | none => .ok (none, false)
  | some stashed =>
    match around.orgGate (toString stashed) r.clientId internalUserId sessAmr with
    | .proceed orgId =>
      if site.memoryStorage then
        .error (.error "INTERNAL_ERROR" "consent: organization membership storage unavailable")
      else
        match around.findMembership orgId internalUserId with
        | .error what =>
          .error (.error "INTERNAL_ERROR" ("consent: membership role lookup failed: " ++ what))
        | .noRow =>
          .error (.error "VALIDATION_INVALID_INPUT" "consent: invalid or unauthorized org context")
        | .found role => .ok (some orgId, role = "owner" || role = "admin")
    | .mfaRequired =>
      .error (.error "AUTH_MFA_REQUIRED"
        "consent: organization requires multi-factor authentication")
    | _ => .error (.error "VALIDATION_INVALID_INPUT" "consent: invalid or unauthorized org context")

/-- Only a failure to record the first scope is reported. -/
def recordConsents (site : Site) (around : Around) (r : ConsentRequest) (uid : Int)
    (orgId : Option Int) (writeOrgConsent : Bool) (consents : List (Int × String × String)) :
    Except Response (List (Int × String × String)) :=
  match splitSpaces r.scope with
  | [] => .ok consents
  | firstScope :: rest =>
    match orgId, writeOrgConsent with
    | some org, true =>
      if site.memoryStorage then
        .error (.error "INTERNAL_ERROR" "consent: organization consent storage unavailable")
      else if around.saveOrgConsent org uid r.clientId firstScope then .ok consents
      else
        .error (.error "INTERNAL_ERROR"
          ("consent: failed to save organization consent for scope: " ++ firstScope))
    | _, _ =>
      if around.saveUserConsent uid r.clientId firstScope then
        .ok ((firstScope :: rest.filter (around.saveUserConsent uid r.clientId)).map
          (fun s => (uid, r.clientId, s)) ++ consents)
      else
        .error (.error "INTERNAL_ERROR"
          ("consent: failed to save user consent for scope: " ++ firstScope))

/-- The user has refused. -/
def consentDeny (around : Around) (r : ConsentRequest) : Response :=
  if validateRedirectUri around r.clientId r.redirectUri then
    .oauthError r.redirectUri "access_denied" "User denied consent" r.state
  else
    .error "VALIDATION_REDIRECT_URI_NOT_REGISTERED"
      "consent: deny redirect_uri is not registered for the client"

/-- The organisation slot of the request's `state` is spent before the gate is run. -/
def consentApprove (site : Site) (around : Around) (w : WebState) (r : ConsentRequest)
    (uid : Int) : Outcome :=
  let sessAmr := Session.text w.session.amr
  let slots := OrgContextSlots.consume w.session.pendingOrgContextSlots r.state around.now
  let w := { w with session := { w.session with pendingOrgContextSlots := slots.2 } }
  match consentOrg site around r uid sessAmr slots.1 with
  | .error answer => { answer := answer, state := w }
  | .ok (orgId, writeOrgConsent) =>
    match recordConsents site around r uid orgId writeOrgConsent w.consents with
    | .error answer => { answer := answer, state := w }
    | .ok consents =>
      issue site around { w with consents := consents }
        { clientId := r.clientId
          subject := r.userId
          scope := r.scope
          redirectUri := r.redirectUri
          codeChallenge := r.codeChallenge
          codeChallengeMethod := r.codeChallengeMethod
          nonce := r.nonce
          authTime := w.session.authTime.getD 0
          amr := sessAmr
          orgId := orgId }
        (fun _ => .oauthError r.redirectUri "server_error" "Failed to generate authorization code"
          r.state)
        fun code => .code r.redirectUri code r.state false

/-- `SessionController::consent`. -/
def consent (site : Site) (around : Around) (w : WebState) (r : ConsentRequest) : Outcome :=
  match consentGates around w.session r with
  | .error answer => { answer := answer, state := w }
  | .ok slots =>
    let w := { w with session := { w.session with pendingConsentCsrfSlots := slots } }
    if r.action = "deny" then { answer := consentDeny around r, state := w }
    else
      match consentChecks site around r with
      | .error answer => { answer := answer, state := w }
      | .ok uid => consentApprove site around w r uid

/-! ## Requests -/

/-- A request and its handler. -/
def handle (site : Site) (around : Around) (w : WebState) : Request → Outcome
  | .login r => login site around w r
  | .verifyLogin r => verifyLogin site around w r
  | .authorize r => authorize site around w r
  | .consent r => consent site around w r

/-- The state after a request. -/
def next (site : Site) (w : WebState) (r : Around × Request) : WebState :=
  (handle site r.1 w r.2).state

end Fulla
