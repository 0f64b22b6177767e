import Fulla.Access.Clients
import Fulla.Device.DeviceCodes
import Fulla.Protocol.Calls
import Fulla.Web.Rules

/-!
# The token endpoint

`TokenEndpointController::token`: the validation rules, the credentials from the
`Authorization` header or the parameters, the rate limiter, the gate on the
declared authentication method and the registered grants, and the four grants
behind it.

A request is a program over the token service's signature and the operations the
controller adds to it; every callback of the source is the rest of a program.
Metrics and response headers are left out.
-/

namespace Fulla

open Conc

/-! ## Operations of the controller -/

/-- What the endpoint does beyond the store. -/
inductive EndpointOp where
  /-- `plugin->getClient`. -/
  | getClient (clientId : String)
  /-- `plugin->saveAccessToken`; a failure is only logged. -/
  | saveAccessToken (token : OAuth2AccessToken)
  /-- The organisation of the client's owner row, if it has one. -/
  | findOwnerRow (clientId : String)
  /-- `RateLimiter::checkThrottled`: whether the key has to wait. -/
  | checkThrottled (key : String)
  | recordSuccess (key : String)
  | recordFailure (key : String)
  /-- `OpenSslUuidGenerator::generate`. -/
  | uuid
  | device (o : DeviceOp)

abbrev EndpointSig : Sig where
  Op := EndpointOp
  Res
    | .getClient _ => Option OAuth2Client
    | .saveAccessToken _ => Unit
    | .findOwnerRow _ => Option Int
    | .checkThrottled _ => Bool
    | .recordSuccess _ => Unit
    | .recordFailure _ => Unit
    | .uuid => String
    | .device o => o.Res

/-- The store and the endpoint. -/
abbrev TokenSig := StoreSig.sum EndpointSig

/-- A request to the token endpoint. -/
abbrev TokenProg := Prog TokenSig

/-- One operation of the endpoint. -/
def endpoint (o : EndpointOp) : TokenProg (EndpointSig.Res o) :=
  Prog.call (S := TokenSig) (.inr o)

/-- A program of the token service. -/
def store {α : Type} (p : StoreProg α) : TokenProg α :=
  p.inl

/-- The data of the grant and token repositories, and the device codes. -/
structure TokenDb where
  db : Db := {}
  devices : DeviceCodes := .empty
deriving DecidableEq

/-- What one step finds around it. -/
structure TokenMoment where
  store : Moment
  throttled : String → Bool := fun _ => false
  ownerOrg : String → Option Int := fun _ => none
  uuid : String := ""

/-- `saveAccessToken` of the token repositories. -/
def TokenBackend.saveAccessToken (m : Moment) (token : OAuth2AccessToken) (db : Db) :
    TokenBackend → Db
  | .memory => (MemoryTokenRepository.saveAccessToken m token db).2
  | .postgres =>
    if m.fault = false ∧ Sql.accessFits db token then
      match db.accessTokens.insertNew (Sql.accessRow m token) with
      | some accessTokens => { db with accessTokens := accessTokens }
      | none => db
    else db

/-- One operation over a fixed client repository. -/
def execToken (clients : ClientRepository) (tokens : TokenBackend) (m : TokenMoment) :
    Handler TokenSig TokenDb
  | .inl o, s =>
    let out := execOp { m.store with validateClient := clients.validateClient } o s.db
    (out.1, { s with db := out.2 })
  | .inr (.getClient clientId), s => (clients.getClient clientId, s)
  | .inr (.saveAccessToken token), s =>
    ((), { s with db := tokens.saveAccessToken m.store token s.db })
  | .inr (.findOwnerRow clientId), s => (m.ownerOrg clientId, s)
  | .inr (.checkThrottled key), s => (m.throttled key, s)
  | .inr (.recordSuccess _), s => ((), s)
  | .inr (.recordFailure _), s => ((), s)
  | .inr .uuid, s => (m.uuid, s)
  | .inr (.device o), s =>
    let out := o.exec m.store.fault s.db.clientIds s.devices
    (out.1, { s with devices := out.2 })

/-! ## Requests and answers -/

/-- A `POST`: the `Authorization` header, the parameters of query and body, the peer. -/
structure TokenRequest where
  authorization : String := ""
  params : List (String × String) := []
  ip : String := ""
deriving DecidableEq, Repr

/-- `getParameter`, and `operator[]` on a copy of the map. -/
def TokenRequest.param (req : TokenRequest) (key : String) : String :=
  (req.params.lookup key).getD ""

/-- `getParameters().count(key) > 0`. -/
def TokenRequest.hasParam (req : TokenRequest) (key : String) : Bool :=
  (req.params.lookup key).isSome

/-- The body of an answer with tokens. -/
structure TokenBody where
  accessToken : String
  tokenType : String := "Bearer"
  expiresIn : Int
  refreshToken : Option String := none
  scope : Option String := none
  roles : Option (List String) := none
  idToken : Option String := none
deriving DecidableEq, Repr

/-- What the endpoint answers. -/
inductive TokenReply where
  /-- `interval` is the member only `slow_down` has. -/
  | error (status : Nat) (error description : String) (interval : Option Int)
  | tokens (body : TokenBody)
  | text (status : Nat) (body : String)
  /-- An exception left the callback: nothing is answered. -/
  | thrown (what : String)
deriving DecidableEq, Repr

/-- `OAuth2ErrorHandler::getHttpStatusCode`, from the error catalogue. -/
def getHttpStatusCode (errorCode : String) : Nat :=
  if errorCode = "invalid_client" then 401
  else if errorCode = "server_error" then 500
  else if errorCode = "temporarily_unavailable" then 503
  else if errorCode = "access_denied" then 403
  else 400

/-- `sendErrorResponse`, and the error JSON of the token service. -/
def TokenReply.ofError (error : String) (description : String := "") : TokenReply :=
  .error (getHttpStatusCode error) error description none

/-- An error JSON with a status of its own. -/
def TokenReply.withStatus (status : Nat) (error : String) (description : String := "") :
    TokenReply :=
  .error status error description none

/-- The response of the two grants the token service answers. -/
def TokenReply.ofService : TokenResponse → TokenReply
  | .error code description => .ofError code description
  | .thrown what => .thrown what
  | .tokens json =>
    .tokens
      { accessToken := json.accessToken, tokenType := json.tokenType, expiresIn := json.expiresIn
        refreshToken := some json.refreshToken, roles := json.roles, idToken := json.idToken }

/-- Whether the rate limiter counts the answer as a success; `none` without an answer. -/
def TokenReply.success? : TokenReply → Option Bool
  | .error .. => some false
  | .tokens _ => some true
  | .text _ _ => some false
  | .thrown _ => none

/-! ## Validation rules -/

/-- The letters of a token. -/
def TOKEN_PATTERN : String :=
  "^[a-zA-Z0-9._-]+$"

namespace RuleSet

/-- At least 32 characters of the pattern. -/
def validateToken (site : Site) (token : String) : Option String :=
  if token = "" then some "token is required"
  else if token.utf8ByteSize < 32 then some "Token must be at least 32 characters"
  else if site.regexMatch TOKEN_PATTERN token = false then some "Format is invalid"
  else none

/-- One of the four grants. -/
def validateGrantType (type : String) : Option String :=
  if type = "" then some "grant_type is required"
  else if type ≠ "authorization_code" ∧ type ≠ "refresh_token" ∧ type ≠ "client_credentials" ∧
      type ≠ "urn:ietf:params:oauth:grant-type:device_code" then
    some ("grant_type must be 'authorization_code', 'refresh_token', " ++
      "'client_credentials', or 'urn:ietf:params:oauth:grant-type:device_code'")
  else none

/-- `RuleSet::oauth2Token`. -/
def oauth2Token (site : Site) (req : TokenRequest) : List String :=
  let grantType := req.param "grant_type"
  (validateGrantType grantType).toList ++
    (if grantType = "authorization_code" then
      ((validateToken site (req.param "code")).map ("code: " ++ ·)).toList ++
        (if req.param "client_id" = "" then []
        else (validateClientId site (req.param "client_id")).toList)
    else if grantType = "refresh_token" then
      ((validateToken site (req.param "refresh_token")).map ("refresh_token: " ++ ·)).toList
    else [])

end RuleSet

/-! ## The handler -/

/-- The plugin and the libraries as the controller sees them. -/
structure TokenEndpoint where
  pluginLoaded : Bool := true
  /-- Rules, token service and storage type. -/
  site : Site
  crypto : CryptoProvider
  base64Decode : String → String
  /-- `storage_type` is `redis`. -/
  redisStorage : Bool := false
  /-- `app().getDbClient()` answers. -/
  dbAvailable : Bool := true

/-- The credentials of a request and how they arrived. -/
structure ClientCredentials where
  clientId : String
  clientSecret : String
  authScheme : String
deriving DecidableEq, Repr

/-- The header has the form `Basic ...`. -/
def TokenRequest.basic? (req : TokenRequest) : Option String :=
  afterText "Basic " req.authorization

/-- Client id and secret of a `Basic` header that decodes to something with a colon. -/
def TokenRequest.basicPair (decode : String → String) (req : TokenRequest) :
    Option (String × String) :=
  match req.basic? with
  | none => none
  | some encoded =>
    let decoded := (decode encoded).toList
    if decoded.contains ':' then
      some (String.ofList (decoded.takeWhile (· ≠ ':')),
        String.ofList ((decoded.dropWhile (· ≠ ':')).drop 1))
    else none

/-- Header first; whatever it leaves empty is taken from the parameters. -/
def TokenRequest.credentials (decode : String → String) (req : TokenRequest) :
    ClientCredentials :=
  let header := (req.basicPair decode).getD ("", "")
  { clientId := if header.1 = "" then req.param "client_id" else header.1
    clientSecret := if header.2 = "" then req.param "client_secret" else header.2
    authScheme := if req.basic?.isSome then "Basic" else "" }

/-- The error description, or empty when the declared method is respected. -/
def enforceClientAuthMethod (declaredMethod : String) (creds : ClientCredentials)
    (secretInBody : Bool) : String :=
  if declaredMethod = "" then ""
  else if declaredMethod = "none" then
    if creds.clientSecret ≠ "" then
      "client declared token_endpoint_auth_method=none but supplied a client_secret"
    else ""
  else if declaredMethod = "client_secret_basic" then
    if creds.authScheme ≠ "Basic" then
      "client requires token_endpoint_auth_method=client_secret_basic (HTTP Basic)"
    else if secretInBody then
      "client_secret must not be sent in the body for client_secret_basic clients"
    else ""
  else if declaredMethod = "client_secret_post" then
    if creds.authScheme = "Basic" then
      "client requires token_endpoint_auth_method=client_secret_post (body)"
    else ""
  else "client declared unrecognized token_endpoint_auth_method '" ++ declaredMethod ++ "'"

/-- A registered grant, or a refresh that one of the registered grants implies. -/
def grantAllowed (allowedGrantTypes : List String) (grantType : String) : Bool :=
  allowedGrantTypes.any fun registered =>
    registered = grantType ||
      (grantType = "refresh_token" &&
        (registered = "authorization_code" ||
          registered = "urn:ietf:params:oauth:grant-type:device_code"))

namespace TokenEndpoint

variable (ep : TokenEndpoint)

/-- `ScopeChecker.h`: tabs in front of a token are skipped. -/
def hasScope (tokenScopes requiredScope : String) : Bool :=
  requiredScope = "" ||
    (splitChars ' ' tokenScopes.toList).any fun t =>
      t.dropWhile (· = '\t') = requiredScope.toList

/-- `fulla::drogon::utils::generateSecureToken`, which never comes back empty-handed. -/
def generateSecureToken (bytes : Nat) : TokenProg String := do
  let buffer : Option (List UInt8) ← store (ask (.secureRandomBytes bytes))
  match buffer with
  | some b => return ep.crypto.base64UrlEncode b
  | none =>
    let first : String ← endpoint .uuid
    let second : String ← endpoint .uuid
    return first ++ second

/-- `OAuth2Plugin::signIdToken` without authentication time and methods. -/
def signIdToken (subject clientId : String) : TokenProg String :=
  match ep.site.tokenService.jwkManager with
  | none => return ""
  | some jwk =>
    if jwk.isInitialized then do
      let now ← store nowSeconds
      return jwk.signJwt (baseClaims ep.site.tokenService.issuer subject clientId now
        (now + ep.site.tokenService.accessTokenTtl))
    else return ""

/-! ### authorization_code and refresh_token -/

/-- `grant_type=authorization_code`. -/
def authorizationCodeGrant (req : TokenRequest) (creds : ClientCredentials) :
    TokenProg TokenReply := do
  let result ← store (ep.site.tokenService.exchangeCodeForToken (req.param "code") creds.clientId
    creds.clientSecret (req.param "redirect_uri") (req.param "code_verifier"))
  return .ofService result

/-- `OAuth2Plugin::refreshAccessToken`. -/
def refreshAccessToken (refreshToken clientId : String) : TokenProg TokenReply :=
  if ep.redisStorage then
    return .ofError "unsupported_grant_type"
      ("refresh_token grant is not supported with storage_type=\"redis\" " ++
        "(deprecated mode without refresh-token persistence); use " ++ "storage_type=\"postgres\"")
  else do
    let result ← store (ep.site.tokenService.refreshAccessToken refreshToken clientId)
    return .ofService result

/-- `grant_type=refresh_token`. -/
def refreshTokenGrant (req : TokenRequest) (creds : ClientCredentials) : TokenProg TokenReply := do
  let client : Option OAuth2Client ← endpoint (.getClient creds.clientId)
  match client with
  | none => return .ofError "invalid_client" "Unknown client_id"
  | some client =>
    if client.clientType = .confidential then
      if creds.clientSecret = "" then
        return .ofError "invalid_client" "Client authentication required for refresh_token grant"
      else
        let valid : Bool ← store (ask (.validateClient creds.clientId creds.clientSecret))
        if valid = false then return .ofError "invalid_client" "Client authentication failed"
        else ep.refreshAccessToken (req.param "refresh_token") creds.clientId
    else ep.refreshAccessToken (req.param "refresh_token") creds.clientId

/-! ### client_credentials -/

/-- The requested scopes, or all registered ones; an error where there are none. -/
def grantedScope (client : OAuth2Client) (requestedScope : String) : Except TokenReply String :=
  if requestedScope ≠ "" then
    if client.allowsAllScopes requestedScope = false then
      .error (.withStatus 400 "invalid_scope"
        "Requested scope exceeds the scopes registered for this client")
    else .ok requestedScope
  else if client.allowedScopes.isEmpty then
    .error (.withStatus 400 "invalid_scope"
      "No scope requested and no default scope registered for this client")
  else .ok (joinSpaces client.allowedScopes)

/-- No refresh token, and the subject is the client itself. -/
def mintCcToken (clientId scope : String) (orgId : Option Int) : TokenProg TokenReply := do
  let tokenStr ← ep.generateSecureToken 32
  let nowSecs ← store nowSeconds
  let svc := ep.site.tokenService
  endpoint (.saveAccessToken
    { token := hashToken ep.crypto tokenStr, clientId := clientId, userId := "client:" ++ clientId
      scope := scope, issuedAt := nowSecs, expiresAt := nowSecs + svc.accessTokenTtl
      issuer := svc.issuer, orgId := orgId, audience := clientId })
  return .tokens { accessToken := tokenStr, expiresIn := svc.accessTokenTtl, scope := some scope }

/-- `grant_type=client_credentials`. -/
def clientCredentialsGrant (req : TokenRequest) (creds : ClientCredentials) :
    TokenProg TokenReply :=
  if creds.clientId = "" ∨ creds.clientSecret = "" then
    return .withStatus 401 "invalid_client"
      "Client authentication required for client_credentials grant"
  else do
    let valid : Bool ← store (ask (.validateClient creds.clientId creds.clientSecret))
    if valid = false then
      return .withStatus 401 "invalid_client" "Client authentication failed"
    else
      let client : Option OAuth2Client ← endpoint (.getClient creds.clientId)
      match client with
      | none => return .withStatus 401 "invalid_client"
      | some client =>
        if client.clientType = .public_ then
          return .withStatus 401 "unauthorized_client"
            "Public clients cannot use client_credentials grant"
        else
          match grantedScope client (req.param "scope") with
          | .error refusal => return refusal
          | .ok scope =>
            -- memory deployments have no owner rows to look at
            if ep.site.memoryStorage || !ep.dbAvailable then
              ep.mintCcToken creds.clientId scope none
            else
              let orgId : Option Int ← endpoint (.findOwnerRow creds.clientId)
              ep.mintCcToken creds.clientId scope orgId

/-! ### device_code -/

/-- The pair of a consumed device code; `userId` and `scope` were read before the
code was consumed. -/
def mintDeviceTokens (clientId userId scope : String) (now : Int) : TokenProg TokenReply := do
  let accessTokenStr ← ep.generateSecureToken 32
  let refreshTokenStr ← ep.generateSecureToken 32
  let familyId ← ep.generateSecureToken 16
  let svc := ep.site.tokenService
  let accessToken : OAuth2AccessToken :=
    { token := hashToken ep.crypto accessTokenStr, clientId := clientId, userId := userId
      scope := scope, issuedAt := now, expiresAt := now + svc.accessTokenTtl
      issuer := svc.issuer }
  let refreshToken : OAuth2RefreshToken :=
    { token := hashToken ep.crypto refreshTokenStr, accessToken := accessToken.token
      clientId := clientId, userId := userId, scope := scope
      expiresAt := now + svc.refreshTokenTtl, familyId := familyId }
  let ok ← store
    (match svc.tokens with
    | some tokens => tokens.saveTokenPair accessToken refreshToken
    | none => return false)
  if ok = false then return .withStatus 500 "server_error" "Failed to persist token pair"
  else
    let body : TokenBody :=
      { accessToken := accessTokenStr, expiresIn := svc.accessTokenTtl
        refreshToken := some refreshTokenStr, scope := if scope = "" then none else some scope }
    if hasScope scope "openid" then
      let idToken ← ep.signIdToken userId clientId
      return .tokens (if idToken = "" then body else { body with idToken := some idToken })
    else return .tokens body

/-- Consume an approved code, then mint. -/
def redeemDeviceCode (clientId deviceCodeHash : String) (row : DeviceCode) (now : Int) :
    TokenProg TokenReply := do
  let consumed : Option Bool ← endpoint (.device (.consume deviceCodeHash))
  match consumed with
  | none => return .withStatus 500 "server_error" "Failed to consume device code"
  | some false =>
    return .withStatus 400 "invalid_grant" "device code already consumed or no longer approved"
  | some true => ep.mintDeviceTokens clientId row.userId row.scope now

/-- A poll that came too soon is told to slow down, by five seconds more. -/
def pollPending (deviceCodeHash : String) (row : DeviceCode) (now : Int) :
    TokenProg TokenReply := do
  if row.lastPolledAt > 0 ∧ now - row.lastPolledAt < row.intervalSeconds then
    let newInterval := row.intervalSeconds + 5
    let _ ← endpoint (.device (.slowDown deviceCodeHash newInterval now))
    return .error 400 "slow_down" "Polling too frequently; increase the polling interval"
      (some newInterval)
  else
    let _ ← endpoint (.device (.polled deviceCodeHash now))
    return .withStatus 400 "authorization_pending" "The authorization request is still pending"

/-- The checks on the row a poll has found. -/
def pollFound (clientId deviceCodeHash : String) (row : DeviceCode) : TokenProg TokenReply :=
  if row.clientId ≠ clientId then
    return .withStatus 400 "invalid_grant" "client_id mismatch"
  else do
    let now ← store nowSeconds
    if now ≥ row.expiresAt then
      return .withStatus 400 "expired_token" "The device_code has expired"
    else
      match row.status with
      | .pending => pollPending deviceCodeHash row now
      | .denied =>
        return .withStatus 400 "access_denied" "The user denied the authorization request"
      | .approved => ep.redeemDeviceCode clientId deviceCodeHash row now
      | _ => return .withStatus 400 "invalid_grant" "Invalid device code status"

/-- What becomes of a device code, by its status. -/
def runDeviceCodeLookup (clientId deviceCodeHash : String) : TokenProg TokenReply := do
  let found : Option (Option DeviceCode) ← endpoint (.device (.selectByHash deviceCodeHash))
  match found with
  | none => return .withStatus 500 "server_error" "Failed to process device code"
  | some none => return .withStatus 400 "invalid_grant" "Invalid device_code"
  | some (some row) => ep.pollFound clientId deviceCodeHash row

/-- The device code grant. -/
def deviceCodeGrant (req : TokenRequest) (creds : ClientCredentials) : TokenProg TokenReply :=
  let deviceCode := req.param "device_code"
  let clientId := if creds.clientId = "" then req.param "client_id" else creds.clientId
  if deviceCode = "" ∨ clientId = "" then
    return .withStatus 400 "invalid_request" "device_code and client_id are required"
  else
    let deviceCodeHash := hashToken ep.crypto deviceCode
    if ep.dbAvailable = false then
      return .withStatus 500 "server_error" "Database not available"
    else do
      let client : Option OAuth2Client ← endpoint (.getClient clientId)
      match client with
      | none => return .withStatus 401 "invalid_client" "Client authentication failed"
      | some client =>
        if client.clientType = .public_ then ep.runDeviceCodeLookup clientId deviceCodeHash
        else
          let valid : Bool ← store (ask (.validateClient clientId creds.clientSecret))
          if valid = false then
            return .withStatus 401 "invalid_client" "Client authentication failed"
          else ep.runDeviceCodeLookup clientId deviceCodeHash

/-! ### Dispatch -/

/-- The grant that is asked for. -/
def dispatchGrant (req : TokenRequest) (creds : ClientCredentials) : TokenProg TokenReply :=
  let grantType := req.param "grant_type"
  if grantType = "authorization_code" then ep.authorizationCodeGrant req creds
  else if grantType = "refresh_token" then ep.refreshTokenGrant req creds
  else if grantType = "client_credentials" then ep.clientCredentialsGrant req creds
  else if grantType = "urn:ietf:params:oauth:grant-type:device_code" then
    ep.deviceCodeGrant req creds
  else
    return .withStatus 400 "unsupported_grant_type"
      ("Supported types: authorization_code, refresh_token, client_credentials, " ++
        "urn:ietf:params:oauth:grant-type:device_code")

/-- What a client that was found is turned away with before any grant runs. -/
def gate (req : TokenRequest) (creds : ClientCredentials) (client : OAuth2Client) :
    Option TokenReply :=
  let grantType := req.param "grant_type"
  let methodErr := enforceClientAuthMethod client.tokenEndpointAuthMethod creds
    (req.hasParam "client_secret")
  if methodErr ≠ "" then some (.withStatus 401 "invalid_client" methodErr)
  else if client.allowedGrantTypes ≠ [] ∧ grantType ≠ "" ∧
      grantAllowed client.allowedGrantTypes grantType = false then
    some (.ofError "unauthorized_client" ("Client is not registered for grant_type: " ++ grantType))
  else none

/-- The gate, for a client that is found, and the grant. -/
def gatedGrant (req : TokenRequest) (creds : ClientCredentials) : TokenProg TokenReply := do
  let client : Option OAuth2Client ← endpoint (.getClient creds.clientId)
  match client.bind (gate req creds) with
  | some refusal => return refusal
  | none => ep.dispatchGrant req creds

/-- The bucket of an address and a client. -/
def rateLimitKey (req : TokenRequest) (clientId : String) : String :=
  req.ip ++ "|" ++ if clientId = "" then "-" else clientId

/-- The answer drives the failure counter of the key. -/
def accounted (key : String) (reply : TokenReply) : TokenProg TokenReply := do
  match reply.success? with
  | some true => endpoint (.recordSuccess key)
  | some false => endpoint (.recordFailure key)
  | none => pure ()
  return reply

/-- `TokenEndpointController::token`. -/
def token (req : TokenRequest) : TokenProg TokenReply :=
  match RuleSet.oauth2Token ep.site req with
  | error :: _ => return .ofError "invalid_request" error
  | [] =>
    if ep.pluginLoaded = false then return .text 500 "OAuth2 Plugin not loaded"
    else do
      let creds := req.credentials ep.base64Decode
      let key := rateLimitKey req creds.clientId
      let limited : Bool ← endpoint (.checkThrottled key)
      if limited then
        return .withStatus 429 "invalid_request" "Too many failed attempts; please retry later"
      else
        let reply ← ep.gatedGrant req creds
        accounted key reply

end TokenEndpoint

/-- An endpoint for the concrete runs. -/
def Sample.endpoint (backend : TokenBackend) : TokenEndpoint where
  site :=
    { regexMatch := fun _ _ => true, verifyPassword := fun _ _ _ => false
      verifyTotp := fun _ _ _ => false, sha256Hex := id
      tokenService := Sample.service.over .postgres backend Sample.crypto }
  crypto := Sample.crypto
  base64Decode := id

end Fulla
