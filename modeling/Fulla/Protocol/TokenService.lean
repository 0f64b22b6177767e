import Fulla.Protocol.ClaimValues
import Fulla.Protocol.TokenCrypto

/-!
# The token service

`TokenService.cc`: issuing authorization codes, exchanging them for token pairs,
rotating refresh tokens and the look-ups and revocations around them.  Every
repository or port call of the source is an operation, and a callback is the rest
of the program, so a pool of these programs has the interleavings of the source.

A collaborator that may be left unwired is an `Option` or a flag of
`TokenService`.  Where the source throws (the value objects `Subject` and
`PkceChallenge` reject their arguments, and a mapped claim can have a number that
does not fit) the answer is `TokenResponse.thrown`.
-/

namespace Fulla

open Conc

/-- The JSON of a successful token response. -/
structure TokenJson where
  accessToken : String
  tokenType : String
  expiresIn : Int
  refreshToken : String
  /-- Only the code exchange returns roles. -/
  roles : Option (List String)
  idToken : Option String
deriving DecidableEq, Repr

/-- What the token endpoint gets back. -/
inductive TokenResponse where
  | error (error description : String)
  | tokens (json : TokenJson)
  | thrown (what : String)
deriving DecidableEq, Repr

/-- The tokens, or the exception that has kept them back. -/
def TokenResponse.ofAnswer : Except String TokenJson → TokenResponse
  | .error what => .thrown what
  | .ok json => .tokens json

theorem TokenResponse.ofAnswer_ne_error {answer : Except String TokenJson}
    {error description : String} : ofAnswer answer ≠ .error error description := by
  cases answer <;> nofun

/-- `makeError`; the description is left out of the JSON when it is empty. -/
def makeError (error : String) (desc : String := "") : TokenResponse :=
  .error error desc

/-- What the id-token path uses of `JwkManager`. -/
structure JwkManager where
  isInitialized : Bool
  signJwt : Json → String

/-- The service with the collaborators that are injected; a missing one is `none` or `false`. -/
structure TokenService where
  clients : Bool := true
  grants : Option GrantRepository
  tokens : Option TokenRepository
  crypto : Option CryptoProvider
  auditSink : Bool := false
  subjectResolver : Bool := false
  /-- Wired, and whether it answers `supportsSubjectLookup`. -/
  roleProvider : Option Bool := none
  orgContextResolver : Bool := false
  claimMappingsProvider : Bool := false
  userProfileResolver : Bool := false
  subjectNormalizer : Bool := false
  jwkManager : Option JwkManager := none
  /-- jsoncpp, for the profile documents. -/
  jsonCpp : Jwk.JsonCpp := ⟨fun _ => .ok none, fun _ => [], 0⟩
  authCodeTtl : Int
  accessTokenTtl : Int
  refreshTokenTtl : Int
  issuer : String

/-! ## Claims -/

/-- The `org_ctx` claim: the binding of the code or token and the current roles. -/
def orgCtxClaim (orgId : Int) (ctx : OrgContextInfo) : Json :=
  .obj [("org_id", .int orgId), ("org_name", .str ctx.orgName),
    ("roles", .arr (ctx.roles.map Json.str))]

/-- The claim `org_ctx`, when the organization could be resolved. -/
def setOrgCtx (orgId : Option Int) (orgCtx : Option OrgContextInfo) (claims : Json) : Json :=
  match orgCtx, orgId with
  | some ctx, some id => claims.set "org_ctx" (orgCtxClaim id ctx)
  | _, _ => claims

/-- The claims every id token starts with. -/
def baseClaims (issuer sub aud : String) (iat exp : Int) : Json :=
  .obj [("iss", .str issuer), ("sub", .str sub), ("aud", .str aud), ("iat", .int iat),
    ("exp", .int exp)]

/-- `amr` as an array, and `acr` as the string `2` when it holds `mfa`. -/
def setAmr (amr : String) (claims : Json) : Json :=
  let methods := splitSpaces amr
  if methods.isEmpty then claims
  else
    (claims.set "amr" (.arr (methods.map Json.str))).set "acr"
      (.str (if methods.contains "mfa" then "2" else "1"))

/-- The mapped claims overwrite those of the same name. -/
def mergeClaims (claims : Json) : Json → Json
  | .obj members => members.foldl (fun acc m => acc.set m.1 m.2) claims
  | _ => claims

namespace TokenService

variable (svc : TokenService)

/-- An audit event, when a sink is injected. -/
def audit (action outcome actorId targetType targetId : String) : StoreProg Unit :=
  if svc.auditSink then
    ask (.audit
      { actorType := "user", actorId := actorId, action := action
        targetType := targetType, targetId := targetId, outcome := outcome })
  else return ()

/-- `none` when `Subject` refuses an empty subject. -/
def resolveRoles (subject : String) : StoreProg (Option (List String)) :=
  match svc.roleProvider with
  | none => return some []
  | some true => some <$> (ask (.getRolesBySubject subject) : StoreProg (List String))
  | some false =>
    if svc.subjectResolver = false then return some []
    else if subject = "" then return none
    else do
      let internalUserId : Option Int ← ask (.resolveSubject subject)
      match internalUserId with
      | none => return some []
      | some id => some <$> (ask (.getRoles id) : StoreProg (List String))

/-- The binding selects the context; the `org` scope releases it. -/
def resolveOrgContextForClaims (subject : String) (orgId : Option Int) (scope : String) :
    StoreProg (Option OrgContextInfo) :=
  match orgId with
  | none => return none
  | some id =>
    if svc.orgContextResolver && scopeContains scope "org" then ask (.resolveOrgContext subject id)
    else return none

/-- The claim of a mapping, if its source has a value. -/
def publish (profile : String) (claims : Json) (m : ClaimMappingEntry) : Except String Json := do
  match ← resolveClaimSourceValueImpl svc.jsonCpp m.sourcePath profile.toUTF8.toList with
  | some value => return claims.set m.claimName (.str value)
  | none => return claims

/-- The claims of the mappings one after the other; the exception of one ends the loop. -/
def mapClaims (mappings : List ClaimMappingEntry) (profile : String) : Except String Json :=
  mappings.foldlM (svc.publish profile) (.obj [])

/-- The claims that the mappings of the client add. -/
def resolveMappedClaims (subject scope target : String) : StoreProg (Except String Json) :=
  if (svc.claimMappingsProvider && svc.userProfileResolver) = false then return .ok (.obj [])
  else do
    let mappings : List ClaimMappingEntry ← ask .getEnabledMappings
    let active := mappings.filter fun m =>
      (m.includeIn = "both" || m.includeIn = target) && scopeContains scope m.scopeName
    if active.isEmpty then return .ok (.obj [])
    else
      let profileJson : Option String ← ask (.resolveUserProfile subject)
      match profileJson with
      | none => return .ok (.obj [])
      | some profile => return svc.mapClaims active profile

/-- The tail of both token responses: an id token for an `openid` scope, or an exception. -/
def withIdToken (userId scope : String) (claims : Json) (json : TokenJson) :
    StoreProg (Except String TokenJson) :=
  match svc.jwkManager with
  | none => return .ok json
  | some jwk =>
    if jwk.isInitialized && scopeContains scope "openid" then do
      let mapped : Except String Json ← svc.resolveMappedClaims userId scope "id_token"
      return mapped.map fun mapped =>
        let idToken := jwk.signJwt (mergeClaims claims mapped)
        if idToken = "" then json else { json with idToken := some idToken }
    else return .ok json

/-- The challenge method defaults to `plain`; `none` when `PkceChallenge` refuses it. -/
def validatePkceCodeVerifier (crypto : CryptoProvider)
    (codeVerifier codeChallenge codeChallengeMethod : String) : Option Bool :=
  let method := if codeChallengeMethod = "" then "plain" else codeChallengeMethod
  if method ≠ "S256" ∧ method ≠ "plain" then none
  else some (Pkce.verifyCodeVerifier crypto codeVerifier codeChallenge method)

/-! ## Issuing a code -/

/-- Why no code was issued, or the raw code. -/
def generateAuthorizationCode (clientId subject scope redirectUri codeChallenge
    codeChallengeMethod nonce : String) (authTime : Int) (amr : String) (orgId : Option Int) :
    StoreProg (Except String String) :=
  match svc.grants, svc.crypto with
  | some grants, some crypto => do
    let code ← generateSecureToken crypto 32
    if code = "" then return .error "CSPRNG failure"
    else if nonce.utf8ByteSize > 512 then return .error "nonce exceeds 512 characters"
    else
      let now ← nowSeconds
      grants.saveAuthCode
        { code := hashToken crypto code, clientId := clientId, userId := subject, scope := scope
          redirectUri := redirectUri, codeChallenge := codeChallenge
          codeChallengeMethod := codeChallengeMethod, nonce := nonce
          expiresAt := now + svc.authCodeTtl, authTime := authTime, amr := amr, orgId := orgId }
      return .ok code
  | _, _ => return .error "Storage not initialized"

/-! ## Exchanging a code -/

/-- An exception leaves the callback before the audit. -/
def auditIssued (userId : String) : Except String TokenJson → StoreProg Unit
  | .error _ => return ()
  | .ok _ => svc.audit "token_issued" "success" userId "token" ""

/-- What the exchange checks on the consumed code before it looks at the clock. -/
def checkCode (crypto : CryptoProvider) (clientId codeVerifier : String)
    (authCode : OAuth2AuthCode) : Option TokenResponse :=
  if authCode.clientId ≠ clientId then
    some (makeError "invalid_grant" "Authorization code was issued to another client")
  else if authCode.codeChallenge = "" then none
  else if codeVerifier = "" then some (makeError "invalid_grant" "PKCE validation failed")
  else
    match validatePkceCodeVerifier crypto codeVerifier authCode.codeChallenge
        authCode.codeChallengeMethod with
    | none =>
      some (.thrown ("PkceChallenge: method must be 'S256' or 'plain', got '" ++
        authCode.codeChallengeMethod ++ "'"))
    | some false => some (makeError "invalid_grant" "PKCE validation failed")
    | some true => none

/-- The access token both grants persist. -/
def newAccessToken (crypto : CryptoProvider) (raw clientId userId scope : String)
    (orgId : Option Int) (now : Int) : OAuth2AccessToken :=
  { token := hashToken crypto raw, clientId := clientId, userId := userId, scope := scope
    issuedAt := now, expiresAt := now + svc.accessTokenTtl, issuer := svc.issuer
    orgId := orgId, audience := clientId }

/-- The refresh token that goes with it. -/
def newRefreshToken (crypto : CryptoProvider) (raw rawAccess clientId userId scope : String)
    (orgId : Option Int) (familyId : String) (now : Int) : OAuth2RefreshToken :=
  { token := hashToken crypto raw, accessToken := hashToken crypto rawAccess
    clientId := clientId, userId := userId, scope := scope
    expiresAt := now + svc.refreshTokenTtl, familyId := familyId, orgId := orgId }

/-- The claims of the id token of an exchange. -/
def codeClaims (authCode : OAuth2AuthCode) (orgCtx : Option OrgContextInfo) (now : Int) : Json :=
  let claims := baseClaims svc.issuer authCode.userId authCode.clientId now
    (now + svc.accessTokenTtl)
  let claims := if authCode.nonce = "" then claims else claims.set "nonce" (.str authCode.nonce)
  let claims :=
    if authCode.authTime > 0 then claims.set "auth_time" (.int authCode.authTime) else claims
  setOrgCtx authCode.orgId orgCtx (setAmr authCode.amr claims)

/-- From a consumed, checked and unexpired code to the saved pair and the answer. -/
def issueForCode (tokens : TokenRepository) (crypto : CryptoProvider) (authCode : OAuth2AuthCode)
    (now : Int) : StoreProg TokenResponse := do
  let orgCtx ← svc.resolveOrgContextForClaims authCode.userId authCode.orgId authCode.scope
  let roles ← svc.resolveRoles authCode.userId
  match roles with
  | none => return .thrown "Subject: value must not be empty"
  | some roles =>
    let tokenStr ← generateSecureToken crypto 32
    let refreshTokenStr ← generateSecureToken crypto 32
    let familyId ← generateSecureToken crypto 16
    if tokenStr = "" ∨ refreshTokenStr = "" ∨ familyId = "" then
      svc.audit "token_issued" "failure" authCode.userId "token" ""
      return makeError "server_error" "Token generation failed"
    else
      let ok ← tokens.saveTokenPair
        (svc.newAccessToken crypto tokenStr authCode.clientId authCode.userId authCode.scope
          authCode.orgId now)
        (svc.newRefreshToken crypto refreshTokenStr tokenStr authCode.clientId authCode.userId
          authCode.scope authCode.orgId familyId now)
      if ok = false then
        svc.audit "token_issued" "failure" authCode.userId "token" ""
        return makeError "server_error" "Failed to persist token pair"
      else
        let answer ← svc.withIdToken authCode.userId authCode.scope
          (svc.codeClaims authCode orgCtx now)
          { accessToken := tokenStr, tokenType := "Bearer", expiresIn := svc.accessTokenTtl
            refreshToken := refreshTokenStr, roles := some roles, idToken := none }
        svc.auditIssued authCode.userId answer
        return .ofAnswer answer

/-- `TokenService::exchangeCodeForToken`. -/
def exchangeCodeForToken (code clientId clientSecret redirectUri codeVerifier : String) :
    StoreProg TokenResponse :=
  match svc.clients, svc.grants, svc.tokens, svc.crypto with
  | true, some grants, some tokens, some crypto => do
    let isValid : Bool ← ask (.validateClient clientId clientSecret)
    if isValid = false then return makeError "invalid_client" "Client authentication failed"
    else
      let authCodeOpt ← grants.consumeAuthCode (hashToken crypto code) redirectUri
      match authCodeOpt with
      | none => return makeError "invalid_grant" "Invalid authorization code"
      | some authCode =>
        match checkCode crypto clientId codeVerifier authCode with
        | some refusal => return refusal
        | none =>
          let now ← nowSeconds
          if now > authCode.expiresAt then return makeError "invalid_grant" "Code expired"
          else svc.issueForCode tokens crypto authCode now
  | _, _, _, _ => return makeError "server_error"

/-! ## Rotating a refresh token -/

/-- The presented token could not be revoked: reuse of a known family, or nothing. -/
def refuseRefresh (tokens : TokenRepository) (hashedRt : String) : StoreProg TokenResponse := do
  let maybeRevoked ← tokens.getRefreshToken hashedRt
  match maybeRevoked with
  | none => return makeError "invalid_grant" "Invalid or revoked refresh token"
  | some rt =>
    if rt.revoked ∧ rt.familyId ≠ "" then
      svc.audit "refresh_token_reuse_detected" "failure" rt.userId "token_family" rt.familyId
      tokens.revokeTokenFamily rt.familyId
      return makeError "invalid_grant" "Token reuse detected"
    else return makeError "invalid_grant" "Invalid or revoked refresh token"

/-- The rotation body, under the (possibly normalized) subject. -/
def rotate (tokens : TokenRepository) (crypto : CryptoProvider) (storedRt : OAuth2RefreshToken)
    (now : Int) (subject : String) : StoreProg TokenResponse := do
  let orgCtx ← svc.resolveOrgContextForClaims subject storedRt.orgId storedRt.scope
  let newTokenStr ← generateSecureToken crypto 32
  let newRefreshTokenStr ← generateSecureToken crypto 32
  if newTokenStr = "" ∨ newRefreshTokenStr = "" then
    return makeError "server_error" "Token generation failed"
  else
    let ok ← tokens.saveTokenPair
      (svc.newAccessToken crypto newTokenStr storedRt.clientId subject storedRt.scope
        storedRt.orgId now)
      (svc.newRefreshToken crypto newRefreshTokenStr newTokenStr storedRt.clientId subject
        storedRt.scope storedRt.orgId storedRt.familyId now)
    if ok = false then return makeError "server_error" "Failed to persist token pair"
    else
      svc.audit "token_refreshed" "success" subject "token" ""
      let answer ← svc.withIdToken subject storedRt.scope
        (setOrgCtx storedRt.orgId orgCtx
          (baseClaims svc.issuer subject storedRt.clientId now (now + svc.accessTokenTtl)))
        { accessToken := newTokenStr, tokenType := "Bearer", expiresIn := svc.accessTokenTtl
          refreshToken := newRefreshTokenStr, roles := none, idToken := none }
      return .ofAnswer answer

/-- A numeric subject of a legacy family is translated once, or the rotation refused. -/
def normalizedSubject (userId : String) : StoreProg (Option String) :=
  if isNumeric userId = false then return some userId
  else if svc.subjectNormalizer = false then do
    svc.audit "refresh_subject_normalization_failed" "failure" userId "token" ""
    return none
  else do
    let normalized : Option String ← ask (.normalizeSubject userId)
    match normalized with
    | none =>
      svc.audit "refresh_subject_normalization_failed" "failure" userId "token" ""
      return none
    | some subject =>
      if subject = "" then
        svc.audit "refresh_subject_normalization_failed" "failure" userId "token" ""
        return none
      else return some subject

/-- `TokenService::refreshAccessToken`. -/
def refreshAccessToken (refreshTokenStr clientId : String) : StoreProg TokenResponse :=
  match svc.tokens, svc.crypto with
  | some tokens, some crypto => do
    let hashedRt := hashToken crypto refreshTokenStr
    let storedRt ← tokens.atomicRevokeRefreshToken hashedRt
    match storedRt with
    | none => svc.refuseRefresh tokens hashedRt
    | some storedRt =>
      if storedRt.clientId ≠ clientId then return makeError "invalid_grant" "Client mismatch"
      else
        let now ← nowSeconds
        if now > storedRt.expiresAt then return makeError "invalid_grant" "Token expired"
        else
          let subject ← svc.normalizedSubject storedRt.userId
          match subject with
          | none => return makeError "invalid_grant" "Legacy subject cannot be normalized"
          | some subject => svc.rotate tokens crypto storedRt now subject
  | _, _ => return makeError "server_error"

/-! ## Look-ups and revocations -/

/-- `TokenService::validateAccessToken`: stored, not revoked, neither expired nor too early. -/
def validateAccessToken (token : String) : StoreProg (Option OAuth2AccessToken) :=
  match svc.tokens, svc.crypto with
  | some tokens, some crypto => do
    let t ← tokens.getAccessToken (hashToken crypto token)
    match t with
    | none => return none
    | some t =>
      if t.revoked then return none
      else
        let now ← nowSeconds
        if now > t.expiresAt then return none else return some t
  | _, _ => return none

/-- `TokenService::revokeAccessToken`. -/
def revokeAccessToken (token revokedBy : String) : StoreProg Unit :=
  match svc.tokens, svc.crypto with
  | some tokens, some crypto => tokens.revokeAccessToken (hashToken crypto token) revokedBy
  | _, _ => return ()

/-- `TokenService::revokeRefreshToken`. -/
def revokeRefreshToken (token : String) : StoreProg Unit :=
  match svc.tokens, svc.crypto with
  | some tokens, some crypto => tokens.revokeRefreshToken (hashToken crypto token)
  | _, _ => return ()

end TokenService

end Fulla
