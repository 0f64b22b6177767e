import Fulla.Device.DeviceFlow
import Fulla.Protocol.Introspection

/-!
# The access tokens that are saved

An access token is built in five places: the exchange of a code, the rotation of a
refresh token, the client credentials and the device code of the token endpoint, and the
social login.  A complete token names its client as audience, the configured issuer, and
an expiry that is one lifetime after its issue; the last two places leave the audience
out.  The `INSERT`s of the Postgres repository then write neither the audience nor the
times of issue and start.

`saved_tokens_complete_iff` says of every request which saved tokens are complete, and
of every saved token when Postgres reports its fields as they were saved.
-/

namespace Fulla

open Conc

/-! ## The social login -/

/-- What a social login answers. -/
inductive SocialReply where
  | error (code detailForLog : String)
  | tokens (body : TokenBody)
deriving DecidableEq, Repr

namespace SocialTokenIssuer

/-- The client of `external_auth.social_token_client_id`, if one is configured. -/
def socialTokenClientId (configured : Option String) : String :=
  match configured with
  | some v => if v = "" then "fulla-portal" else v
  | none => "fulla-portal"

variable (ep : TokenEndpoint)

/-- The pair is built outside the token service; the refresh token has no family. -/
def issueTokensForRegisteredClient (provider userPublicSub clientId scope : String) :
    TokenProg SocialReply :=
  if ep.pluginLoaded = false then
    return .error "INTERNAL_ERROR" (provider ++ " login: OAuth2Plugin not available")
  else if userPublicSub = "" then
    return .error "INTERNAL_ERROR" (provider ++ " login: no public subject resolved")
  else do
    let accessTokenStr ← ep.generateSecureToken 32
    let refreshTokenStr ← ep.generateSecureToken 32
    let now ← store nowSeconds
    let svc := ep.site.tokenService
    let accessToken : OAuth2AccessToken :=
      { token := hashToken ep.crypto accessTokenStr, clientId := clientId
        userId := userPublicSub, scope := scope, issuedAt := now
        expiresAt := now + svc.accessTokenTtl, issuer := svc.issuer }
    let refreshToken : OAuth2RefreshToken :=
      { token := hashToken ep.crypto refreshTokenStr, accessToken := accessToken.token
        clientId := clientId, userId := userPublicSub, scope := scope
        expiresAt := now + svc.refreshTokenTtl }
    let ok ← store
      (match svc.tokens with
      | some tokens => tokens.saveTokenPair accessToken refreshToken
      | none => return false)
    if ok = false then
      return .error "INTERNAL_ERROR" (provider ++ " login: failed to persist token pair")
    else
      store (ask (.audit
        { actorType := "user", actorId := userPublicSub, action := "SOCIAL_LOGIN_TOKEN_ISSUED"
          targetType := "token", targetId := clientId, outcome := "success" }))
      return .tokens
        { accessToken := accessTokenStr, expiresIn := svc.accessTokenTtl
          refreshToken := some refreshTokenStr }

/-- Only for a client that is registered. -/
def issueTokensForUser (configured : Option String) (provider userPublicSub : String) :
    TokenProg SocialReply :=
  if ep.pluginLoaded = false then
    return .error "INTERNAL_ERROR" (provider ++ " login: OAuth2Plugin not available")
  else if userPublicSub = "" then
    return .error "INTERNAL_ERROR" (provider ++ " login: no public subject resolved")
  else do
    let clientId := socialTokenClientId configured
    let clientRow : Option OAuth2Client ← endpoint (.getClient clientId)
    match clientRow with
    | none =>
      return .error "INTERNAL_ERROR" (provider ++ " login: social token client not registered")
    | some _ =>
      issueTokensForRegisteredClient ep provider userPublicSub clientId "openid profile email"

theorem socialTokenClientId_ne (configured : Option String) :
    socialTokenClientId configured ≠ "" := by
  unfold socialTokenClientId
  split
  · split
    · decide
    · next nonempty => exact nonempty
  · decide

end SocialTokenIssuer

/-! ## What is saved -/

namespace MintedTokens

/-- The access token an operation saves. -/
def savedAccess? : TokenSig.Op → Option OAuth2AccessToken
  | .inl (.mem (.saveTokenPair a _)) => some a
  | .inl (.sql (.insertTokenPair a _)) => some a
  | .inr (.saveAccessToken a) => some a
  | _ => none

/-- An access token the operation saves satisfies `P`. -/
def Saves (P : OAuth2AccessToken → Prop) (o : TokenSig.Op) : Prop :=
  ∀ a, savedAccess? o = some a → P a

/-- The claims of a token that are never empty. -/
structure Complete (svc : TokenService) (a : OAuth2AccessToken) : Prop where
  audience : a.audience = a.clientId
  issuer : a.issuer = svc.issuer
  lifetime : a.expiresAt = a.issuedAt + svc.accessTokenTtl

section Programs

variable {α : Type} {P : OAuth2AccessToken → Prop}

/-- An operation that saves no access token saves only good ones. -/
theorem saves_none {o : TokenSig.Op} (none' : savedAccess? o = none) : Saves P o := by
  intro a saved
  cases none'.symm.trans saved

/-- A program of the token service that saves nothing. -/
theorem quiet_saves {p : StoreProg α} (quiet : p.Only Quiet) :
    p.Only fun o => Saves P (.inl o) := by
  refine quiet.mono ?_
  intro o quiet
  refine saves_none ?_
  have noSave := quiet.noSave
  cases o with
  | env o => rfl
  | mem o => cases o <;> first | rfl | cases noSave
  | sql o => cases o <;> first | rfl | cases noSave
  | redis o => rfl

/-- A program over the store, as one over the endpoint. -/
theorem store_saves {p : StoreProg α} (only : p.Only fun o => Saves P (.inl o)) :
    (store p).Only (Saves P) :=
  only.inl

theorem endpoint_saves {o : EndpointOp} (none' : savedAccess? (.inr o) = none) :
    (endpoint o).Only (Saves P) :=
  Prog.only_call.mpr (saves_none none')

/-- An operation that saves one good token. -/
theorem saves_one {o : TokenSig.Op} {a : OAuth2AccessToken} (one : savedAccess? o = some a)
    (sat : P a) : Saves P o := by
  intro a' saved
  cases one.symm.trans saved
  exact sat

/-- The save of a pair whose access token is good. -/
theorem saveTokenPair_saves (tokens : TokenBackend) {a : OAuth2AccessToken}
    (r : OAuth2RefreshToken) (sat : P a) :
    (tokens.repository.saveTokenPair a r).Only fun o => Saves P (.inl o) := by
  cases tokens with
  | memory => exact Prog.only_call.mpr (saves_one rfl sat)
  | postgres => exact Prog.only_call.mpr (saves_one rfl sat)

theorem generateSecureToken_saves (ep : TokenEndpoint) (bytes : Nat) :
    (ep.generateSecureToken bytes).Only (Saves P) := by
  refine (store_saves (quiet_saves (ask_quiet _))).bind fun buffer => ?_
  cases buffer with
  | some b => trivial
  | none => exact (endpoint_saves rfl).bind fun _ => (endpoint_saves rfl).bind fun _ => trivial

end Programs

/-! ### The token service -/

section Service

variable (svc : TokenService) (grants : GrantBackend) (tokens : TokenBackend)
  (crypto : CryptoProvider) {P : OAuth2AccessToken → Prop}

/-- The tokens of a code or of a rotation are built by one function. -/
def OfService (P : OAuth2AccessToken → Prop) : Prop :=
  ∀ raw clientId userId scope orgId now, P (svc.newAccessToken crypto raw clientId userId scope
    orgId now)

/-- An exchange saves what the service builds. -/
theorem issueForCode_saves (sat : OfService svc crypto P) (authCode : OAuth2AuthCode) (now : Int) :
    (svc.issueForCode tokens.repository crypto authCode now).Only fun o => Saves P (.inl o) := by
  unfold TokenService.issueForCode
  refine (quiet_saves (resolveOrgContextForClaims_quiet svc _ _ _)).bind fun orgCtx => ?_
  refine (quiet_saves (resolveRoles_quiet svc _)).bind fun roles => ?_
  cases roles with
  | none => trivial
  | some roles =>
      refine (quiet_saves (generateSecureToken_quiet _ _)).bind fun tokenStr => ?_
      refine (quiet_saves (generateSecureToken_quiet _ _)).bind fun refreshTokenStr => ?_
      refine (quiet_saves (generateSecureToken_quiet _ _)).bind fun familyId => ?_
      split
      · exact (quiet_saves (audit_quiet svc _ _ _ _ _)).bind fun _ => trivial
      · refine (saveTokenPair_saves tokens _ (sat ..)).bind fun ok => ?_
        split
        · exact (quiet_saves (audit_quiet svc _ _ _ _ _)).bind fun _ => trivial
        · refine (quiet_saves (withIdToken_quiet svc _ _ _ _)).bind fun answer => ?_
          exact (quiet_saves (auditIssued_quiet svc _ _)).bind fun _ => trivial

/-- So does a rotation. -/
theorem rotate_saves (sat : OfService svc crypto P) (storedRt : OAuth2RefreshToken) (now : Int)
    (subject : String) :
    (svc.rotate tokens.repository crypto storedRt now subject).Only fun o => Saves P (.inl o) := by
  unfold TokenService.rotate
  refine (quiet_saves (resolveOrgContextForClaims_quiet svc _ _ _)).bind fun orgCtx => ?_
  refine (quiet_saves (generateSecureToken_quiet _ _)).bind fun newTokenStr => ?_
  refine (quiet_saves (generateSecureToken_quiet _ _)).bind fun newRefreshTokenStr => ?_
  split
  · trivial
  · refine (saveTokenPair_saves tokens _ (sat ..)).bind fun ok => ?_
    split
    · trivial
    · refine (quiet_saves (audit_quiet svc _ _ _ _ _)).bind fun _ => ?_
      exact (quiet_saves (withIdToken_quiet svc _ _ _ _)).bind fun _ => trivial

/-- So does a call of `exchangeCodeForToken`. -/
theorem exchangeCodeForToken_saves (sat : OfService svc crypto P)
    (code clientId clientSecret redirectUri codeVerifier : String) :
    ((svc.over grants tokens crypto).exchangeCodeForToken code clientId clientSecret redirectUri
      codeVerifier).Only fun o => Saves P (.inl o) := by
  unfold TokenService.exchangeCodeForToken
  split
  · next clients grants' tokens' crypto' eqC eqG eqT eqK =>
      cases eqG
      cases eqT
      cases eqK
      refine (quiet_saves (ask_quiet _)).bind fun isValid => ?_
      split
      · trivial
      · refine (quiet_saves (consumeAuthCode_quiet grants _ _)).bind fun authCodeOpt => ?_
        cases authCodeOpt with
        | none => trivial
        | some authCode =>
            dsimp only
            split
            · trivial
            · refine (quiet_saves nowSeconds_quiet).bind fun now => ?_
              split
              · trivial
              · exact issueForCode_saves (svc.over grants tokens crypto) tokens crypto sat _ _
  · trivial

/-- So does a call of `refreshAccessToken`. -/
theorem refreshAccessToken_saves (sat : OfService svc crypto P) (refreshToken clientId : String) :
    ((svc.over grants tokens crypto).refreshAccessToken refreshToken clientId).Only
      fun o => Saves P (.inl o) := by
  have cas : (tokens.repository.atomicRevokeRefreshToken (hashToken crypto refreshToken)).Only
      Quiet := by
    cases tokens with
    | memory => exact mem_quiet (by exact ⟨rfl, rfl⟩)
    | postgres => exact sql_quiet (by exact ⟨rfl, rfl⟩)
  refine (quiet_saves cas).bind fun storedRt => ?_
  cases storedRt with
  | none => exact quiet_saves (refuseRefresh_quiet _ tokens _)
  | some storedRt =>
      dsimp only
      split
      · trivial
      · refine (quiet_saves nowSeconds_quiet).bind fun now => ?_
        split
        · trivial
        · refine (quiet_saves (normalizedSubject_quiet _ _)).bind fun subject => ?_
          cases subject with
          | none => trivial
          | some subject =>
              exact rotate_saves (svc.over grants tokens crypto) tokens crypto sat _ _ _

end Service

/-! ### The endpoint and the social login -/

/-- A token as every one of the five places builds it, complete or not. -/
structure Minted (svc : TokenService) (complete : Prop) (a : OAuth2AccessToken) : Prop where
  unrevoked : a.revoked = false
  noStart : a.notBefore = 0
  complete_iff : Complete svc a ↔ complete

/-- What the service builds is minted with every claim. -/
theorem newAccessToken_minted (svc : TokenService) (crypto : CryptoProvider) {complete : Prop}
    (yes : complete) : OfService svc crypto (Minted svc complete) :=
  fun _ _ _ _ _ _ => ⟨rfl, rfl, iff_of_true ⟨rfl, rfl, rfl⟩ yes⟩

/-- Without an audience the token of a named client is not complete. -/
theorem minted_without_audience {svc : TokenService} {a : OAuth2AccessToken} {complete : Prop}
    (unrevoked : a.revoked = false) (noStart : a.notBefore = 0) (without : a.audience = "")
    (named : a.clientId ≠ "") (no : ¬ complete) : Minted svc complete a := by
  refine ⟨unrevoked, noStart, iff_of_false (fun whole => named ?_) no⟩
  rw [← whole.audience, without]

section Endpoint

variable (ep : TokenEndpoint) (grants : GrantBackend) (tokens : TokenBackend) {complete : Prop}

/-- The token of the client itself is minted with every claim. -/
theorem mintCcToken_saves (yes : complete) (clientId scope : String) (orgId : Option Int) :
    ((ep.onStores grants tokens).mintCcToken clientId scope orgId).Only
      (Saves (Minted ep.site.tokenService complete)) := by
  refine (generateSecureToken_saves _ _).bind fun tokenStr => ?_
  refine (store_saves (quiet_saves nowSeconds_quiet)).bind fun now => ?_
  refine Prog.Only.bind (Prog.only_call.mpr (saves_one rfl ?_)) fun _ => trivial
  exact ⟨rfl, rfl, iff_of_true ⟨rfl, rfl, rfl⟩ yes⟩

/-- So is what its grant saves. -/
theorem clientCredentialsGrant_saves (yes : complete) (req : TokenRequest)
    (creds : ClientCredentials) :
    ((ep.onStores grants tokens).clientCredentialsGrant req creds).Only
      (Saves (Minted ep.site.tokenService complete)) := by
  unfold TokenEndpoint.clientCredentialsGrant
  split
  · trivial
  · refine (store_saves (quiet_saves (ask_quiet _))).bind fun valid => ?_
    split
    · trivial
    · refine (endpoint_saves rfl).bind fun client => ?_
      cases client with
      | none => trivial
      | some client =>
          dsimp only
          split
          · trivial
          · split
            · trivial
            · split
              · exact mintCcToken_saves ep grants tokens yes _ _ _
              · refine (endpoint_saves rfl).bind fun orgId => ?_
                exact mintCcToken_saves ep grants tokens yes _ _ _

/-- So is what the refresh grant saves. -/
theorem refreshTokenGrant_saves (yes : complete) (req : TokenRequest) (creds : ClientCredentials) :
    ((ep.onStores grants tokens).refreshTokenGrant req creds).Only
      (Saves (Minted ep.site.tokenService complete)) := by
  have refresh : ((ep.onStores grants tokens).refreshAccessToken (req.param "refresh_token")
      creds.clientId).Only (Saves (Minted ep.site.tokenService complete)) := by
    unfold TokenEndpoint.refreshAccessToken
    split
    · trivial
    · refine Prog.Only.bind (store_saves ?_) fun _ => trivial
      exact refreshAccessToken_saves ep.site.tokenService grants tokens ep.crypto
        (newAccessToken_minted _ _ yes) _ _
  refine (endpoint_saves rfl).bind fun client => ?_
  cases client with
  | none => trivial
  | some client =>
      dsimp only
      split
      · split
        · trivial
        · refine (store_saves (quiet_saves (ask_quiet _))).bind fun valid => ?_
          split
          · trivial
          · exact refresh
      · exact refresh

/-- **The token of a device is minted without an audience**. -/
theorem mintDeviceTokens_saves (no : ¬ complete) {clientId : String} (named : clientId ≠ "")
    (userId scope : String) (now : Int) :
    ((ep.onStores grants tokens).mintDeviceTokens clientId userId scope now).Only
      (Saves (Minted ep.site.tokenService complete)) := by
  refine (generateSecureToken_saves _ _).bind fun accessTokenStr => ?_
  refine (generateSecureToken_saves _ _).bind fun refreshTokenStr => ?_
  refine (generateSecureToken_saves _ _).bind fun familyId => ?_
  refine Prog.Only.bind (store_saves (saveTokenPair_saves tokens _
    (minted_without_audience rfl rfl rfl named no))) fun ok => ?_
  split
  · trivial
  · dsimp only
    split
    · refine Prog.Only.bind ?_ fun idToken => trivial
      unfold TokenEndpoint.signIdToken
      split
      · trivial
      · split
        · exact (store_saves (quiet_saves nowSeconds_quiet)).bind fun _ => trivial
        · trivial
    · trivial

/-- So is what a look-up of a device code leads to. -/
theorem runDeviceCodeLookup_saves (no : ¬ complete) {clientId : String} (named : clientId ≠ "")
    (deviceCodeHash : String) :
    ((ep.onStores grants tokens).runDeviceCodeLookup clientId deviceCodeHash).Only
      (Saves (Minted ep.site.tokenService complete)) := by
  refine (endpoint_saves rfl).bind fun found => ?_
  cases found with
  | none => trivial
  | some found =>
      cases found with
      | none => trivial
      | some row =>
          dsimp only
          unfold TokenEndpoint.pollFound
          split
          · trivial
          · refine (store_saves (quiet_saves nowSeconds_quiet)).bind fun now => ?_
            split
            · trivial
            · split
              · unfold TokenEndpoint.pollPending
                split
                · exact (endpoint_saves rfl).bind fun _ => trivial
                · exact (endpoint_saves rfl).bind fun _ => trivial
              · trivial
              · refine (endpoint_saves rfl).bind fun consumed => ?_
                split
                · trivial
                · trivial
                · exact mintDeviceTokens_saves ep grants tokens no named _ _ _
              · trivial

/-- So is what the device code grant saves. -/
theorem deviceCodeGrant_saves (no : ¬ complete) (req : TokenRequest) (creds : ClientCredentials) :
    ((ep.onStores grants tokens).deviceCodeGrant req creds).Only
      (Saves (Minted ep.site.tokenService complete)) := by
  unfold TokenEndpoint.deviceCodeGrant
  dsimp only
  generalize (if creds.clientId = "" then req.param "client_id" else creds.clientId) = clientId
  split
  · trivial
  · next present =>
      have named : clientId ≠ "" := fun empty => present (.inr empty)
      split
      · trivial
      · refine (endpoint_saves rfl).bind fun client => ?_
        cases client with
        | none => trivial
        | some client =>
            dsimp only
            split
            · exact runDeviceCodeLookup_saves ep grants tokens no named _
            · refine (store_saves (quiet_saves (ask_quiet _))).bind fun valid => ?_
              split
              · trivial
              · exact runDeviceCodeLookup_saves ep grants tokens no named _

/-- Whether the request is answered by a grant that builds complete tokens. -/
def audienceSet (req : TokenRequest) : Prop :=
  req.param "grant_type" ≠ "urn:ietf:params:oauth:grant-type:device_code"

/-- **What a request saves is minted**, with every claim or without the audience, by its grant. -/
theorem token_saves (req : TokenRequest) :
    ((ep.onStores grants tokens).token req).Only
      (Saves (Minted ep.site.tokenService (audienceSet req))) := by
  unfold TokenEndpoint.token
  split
  · trivial
  · split
    · trivial
    · refine (endpoint_saves rfl).bind fun limited => ?_
      split
      · trivial
      · refine Prog.Only.bind ?_ fun reply => ?_
        · refine (endpoint_saves rfl).bind fun client => ?_
          split
          · trivial
          · unfold TokenEndpoint.dispatchGrant
            dsimp only
            split
            · next grant =>
                refine Prog.Only.bind (store_saves ?_) fun _ => trivial
                exact exchangeCodeForToken_saves ep.site.tokenService grants tokens ep.crypto
                  (newAccessToken_minted _ _ (by rw [audienceSet, grant]; decide)) _ _ _ _ _
            · split
              · next grant =>
                  exact refreshTokenGrant_saves ep grants tokens
                    (by rw [audienceSet, grant]; decide) _ _
              · split
                · next grant =>
                    exact clientCredentialsGrant_saves ep grants tokens
                      (by rw [audienceSet, grant]; decide) _ _
                · split
                  · next grant =>
                      exact deviceCodeGrant_saves ep grants tokens (fun set => set grant) _ _
                  · trivial
        · unfold TokenEndpoint.accounted
          split
          · exact (endpoint_saves rfl).bind fun _ => trivial
          · exact (endpoint_saves rfl).bind fun _ => trivial
          · trivial

/-- The token of a social login is minted without an audience. -/
theorem issueTokensForUser_saves (configured : Option String) (provider userPublicSub : String) :
    (SocialTokenIssuer.issueTokensForUser (ep.onStores grants tokens) configured provider
      userPublicSub).Only (Saves (Minted ep.site.tokenService False)) := by
  unfold SocialTokenIssuer.issueTokensForUser
  split
  · trivial
  · split
    · trivial
    · refine (endpoint_saves rfl).bind fun clientRow => ?_
      cases clientRow with
      | none => trivial
      | some client =>
          dsimp only
          unfold SocialTokenIssuer.issueTokensForRegisteredClient
          split
          · trivial
          · refine (generateSecureToken_saves _ _).bind fun accessTokenStr => ?_
            refine (generateSecureToken_saves _ _).bind fun refreshTokenStr => ?_
            refine (store_saves (quiet_saves nowSeconds_quiet)).bind fun now => ?_
            refine Prog.Only.bind (store_saves (saveTokenPair_saves tokens _
              (minted_without_audience rfl rfl rfl
                (SocialTokenIssuer.socialTokenClientId_ne configured) id))) fun ok => ?_
            split
            · trivial
            · exact (store_saves (quiet_saves (ask_quiet _))).bind fun _ => trivial

end Endpoint

/-! ## Postgres -/

/-- The second the columns with a default get when the row is inserted at moment `m`. -/
def stamp (m : Moment) : Int :=
  ((m.now + 500) / 1000 : Nat)

/-- Postgres has taken the token at moment `m`, alone or with a refresh token. -/
inductive Inserted (m : Moment) (a : OAuth2AccessToken) (db : Db) : Db → Prop
  | pair {r : OAuth2RefreshToken} {db' : Db}
      (done : SqlOp.exec m (.insertTokenPair a r) db = (true, db')) : Inserted m a db db'
  | single (ok : m.fault = false) (fits : Sql.accessFits db a = true)
      (absent : db.accessTokens.find? a.token = none) :
      Inserted m a db (TokenBackend.postgres.saveAccessToken m a db)

/-- The row of a token that was inserted. -/
theorem Inserted.row {m : Moment} {a : OAuth2AccessToken} {db db' : Db}
    (inserted : Inserted m a db db') :
    db'.accessTokens.find? a.token = some (Sql.accessRow m a) := by
  cases inserted with
  | @pair r db' done =>
      cases fault : m.fault with
      | true =>
          rw [SqlOp.exec_of_fault fault] at done
          cases congrArg Prod.fst done
      | false =>
          rw [SqlOp.exec_of_ok (by simp [fault])] at done
          change Sql.insertTokenPair m a r db = (true, db') at done
          unfold Sql.insertTokenPair at done
          split at done
          · split at done
            · next accessTokens refreshTokens insertAccess _ =>
                cases done
                rw [(Table.insertNew_eq_some.mp insertAccess).2]
                simp [Sql.accessRow]
            · cases congrArg Prod.fst done
          · cases congrArg Prod.fst done
  | single ok fits absent =>
      have inserts :=
        Table.insertNew_of_absent (t := db.accessTokens) (a := Sql.accessRow m a) absent
      rw [TokenBackend.saveAccessToken, if_pos ⟨ok, fits⟩, inserts]
      simp [Sql.accessRow]

/-- What introspection reports of the fields is what was saved. -/
structure Reported (a : OAuth2AccessToken) (r : TokenIntrospection) : Prop where
  aud : r.aud = a.audience
  iss : r.iss = a.issuer
  iat : r.iat = a.issuedAt
  nbf : r.nbf = a.notBefore
  orgId : r.orgId = a.orgId

/-- Introspection of a saved token reports the columns of its row. -/
theorem reported_iff {m m' : Moment} {a : OAuth2AccessToken} {db db' : Db}
    (inserted : Inserted m a db db') (unrevoked : a.revoked = false) (ok : m'.fault = false)
    (unexpired : m'.seconds < a.expiresAt) :
    Reported a ((PostgresTokenRepository.introspectToken a.token).run (execOp m') db').1 ↔
      a.audience = "" ∧ a.issuedAt = stamp m ∧ a.notBefore = stamp m := by
  have alive : ¬ ((Sql.accessRow m a).revoked = true ∨
      (Sql.accessRow m a).expiresAt < m'.seconds) := by
    intro dead
    rcases dead with flagged | late
    · cases unrevoked.symm.trans flagged
    · exact absurd (Int.lt_trans late unexpired) (Int.lt_irrefl _)
  rw [PostgresTokenRepository.introspectToken_run ok inserted.row, if_neg alive]
  constructor
  · intro reported
    exact ⟨reported.aud.symm, reported.iat.symm, reported.nbf.symm⟩
  · intro same
    rcases same with ⟨audience, issued, start⟩
    exact ⟨audience.symm, rfl, issued.symm, start.symm, rfl⟩

/-! ## Saved tokens -/

/-- A request that mints access tokens. -/
inductive Issuance where
  | token (req : TokenRequest)
  | social (configured : Option String) (provider userPublicSub : String)

/-- The program of a request; what it answers is not looked at here. -/
def Issuance.prog (ep : TokenEndpoint) : Issuance → TokenProg Unit
  | token req => (fun _ => ()) <$> ep.token req
  | social configured provider userPublicSub =>
    (fun _ => ()) <$> SocialTokenIssuer.issueTokensForUser ep configured provider userPublicSub

/-- A code, a refresh token or client credentials, and neither a device code nor a social
login. -/
def Issuance.setsAudience : Issuance → Prop
  | token req => audienceSet req
  | social _ _ _ => False

/-- Every access token that a request saves, whatever it is answered on the way, is
complete if and only if the request is none for a device code and no social login; and
Postgres reports the fields of a saved token as they were saved if and only if it was
saved without an audience and with the second of the `INSERT` as both its times. -/
theorem saved_tokens_complete_iff (ep : TokenEndpoint) (grants : GrantBackend)
    (tokens : TokenBackend) :
    (∀ issuance : Issuance, (issuance.prog (ep.onStores grants tokens)).Only (Saves fun a =>
        a.revoked = false ∧ a.notBefore = 0 ∧
          (Complete ep.site.tokenService a ↔ issuance.setsAudience))) ∧
      ∀ (m m' : Moment) (a : OAuth2AccessToken) (db db' : Db), Inserted m a db db' →
        a.revoked = false → m'.fault = false → m'.seconds < a.expiresAt →
        (Reported a ((PostgresTokenRepository.introspectToken a.token).run (execOp m') db').1 ↔
          a.audience = "" ∧ a.issuedAt = stamp m ∧ a.notBefore = stamp m) := by
  have minted : ∀ {complete : Prop} (o : TokenSig.Op),
      Saves (Minted ep.site.tokenService complete) o → Saves (fun a => a.revoked = false ∧
        a.notBefore = 0 ∧ (Complete ep.site.tokenService a ↔ complete)) o := by
    intro complete o saves a saved
    exact ⟨(saves a saved).unrevoked, (saves a saved).noStart, (saves a saved).complete_iff⟩
  constructor
  · intro issuance
    cases issuance with
    | token req => exact (token_saves ep grants tokens req).map.mono minted
    | social configured provider userPublicSub =>
        exact (issueTokensForUser_saves ep grants tokens configured provider
          userPublicSub).map.mono minted
  · intro m m' a db db' inserted unrevoked ok unexpired
    exact reported_iff inserted unrevoked ok unexpired

/-- The token of a code exchange of `app` in second 1000. -/
def exchanged : OAuth2AccessToken :=
  Sample.service.newAccessToken Sample.crypto (Sample.drawn 6) "app" "alice" "openid" none 1000

theorem saved_tokens_complete_iff_exchanged :
    ¬ Reported exchanged ((PostgresTokenRepository.introspectToken exchanged.token).run
      (execOp { now := 1001000 })
      (TokenBackend.postgres.saveAccessToken { now := 1000000 } exchanged Sample.db)).1 := by
  intro reported
  have iff := (saved_tokens_complete_iff (Sample.endpoint .postgres) .memory .postgres).2
    { now := 1000000 } { now := 1001000 } exchanged Sample.db _
    (.single rfl (by decide) (by decide)) rfl rfl (by decide)
  exact absurd (iff.mp reported).1 (by decide)

/-- A social login saves a token without an audience; and the complete token of a code
exchange, saved in Postgres, is reported without its audience. -/
theorem incomplete_and_unreported :
    (∃ a ∈ ((SocialTokenIssuer.issueTokensForUser (Sample.endpoint .memory) none "github"
          "sub-7").run
        (World.handler (fun n => execToken
          { getClient := fun id => some { clientId := id, clientType := .public_ }
            validateClient := fun _ _ => true } .memory { store := Sample.envAt 1000 n }) ())
        (World.start { db := Sample.db })).2.db.db.accessTokens.rows,
      a.clientId = "fulla-portal" ∧ a.audience = "") ∧
      Complete Sample.service exchanged ∧
      ((PostgresTokenRepository.introspectToken exchanged.token).run (execOp { now := 1001000 })
        (TokenBackend.postgres.saveAccessToken { now := 1000000 } exchanged Sample.db)).1.aud ≠
        exchanged.audience := by
  refine ⟨by decide, ⟨rfl, rfl, rfl⟩, by decide⟩

end MintedTokens

end Fulla
