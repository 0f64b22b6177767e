import Fulla.Web.TokenEndpoint

/-!
# Client authentication at the token endpoint

Every grant of the token endpoint comes by the client store before it comes by
any other: the gate looks the client up, and the grant behind it validates the
secret or asks for the client's type.  `token_stores_authenticated`: in every
interleaving of token requests, an operation on a grant, token or device store is
made for a client that exists, has presented its secret if it is confidential, by
the method it declared, and is registered for the grant.

A public client presents no secret, whatever method it declared; only what
contradicts the declaration is refused (`undeclared_method_accepted`).
-/

namespace Fulla.ClientAuth

open Conc

/-! ## What a request has shown -/

section Shown

variable (decode : String → String) (req : TokenRequest)

/-- Nothing in the request contradicts the declared method. -/
def methodRespected (method : String) : Bool :=
  if method = "" then true
  else if method = "none" then (req.credentials decode).clientSecret = ""
  else if method = "client_secret_basic" then
    req.basic?.isSome && !req.hasParam "client_secret"
  else if method = "client_secret_post" then req.basic?.isNone
  else false

/-- The secret arrived by the declared method. -/
def secretArrived (method : String) : Bool :=
  if method = "client_secret_basic" then (req.basicPair decode).any fun pair => pair.2 ≠ ""
  else if method = "client_secret_post" then req.param "client_secret" ≠ ""
  else true

/-- The declared method was used. -/
def methodUsed (method : String) : Bool :=
  methodRespected decode req method && secretArrived decode req method

/-- A refresh is implied by the grants that issue refresh tokens. -/
def GrantRegistered (allowedGrantTypes : List String) (grantType : String) : Prop :=
  allowedGrantTypes = [] ∨ grantType ∈ allowedGrantTypes ∨
    (grantType = "refresh_token" ∧
      ("authorization_code" ∈ allowedGrantTypes ∨
        "urn:ietf:params:oauth:grant-type:device_code" ∈ allowedGrantTypes))

/-- The client of the request and everything it has shown. -/
structure Authenticated (store : ClientStore) : Prop where
  client : ∃ client,
    store.repository.getClient (req.credentials decode).clientId = some client ∧
      store.SecretValidated client (req.credentials decode).clientSecret ∧
      methodRespected decode req client.tokenEndpointAuthMethod = true ∧
      (client.clientType = .confidential →
        methodUsed decode req client.tokenEndpointAuthMethod = true) ∧
      GrantRegistered client.allowedGrantTypes (req.param "grant_type")

end Shown

/-! ## The gate -/

section Gate

variable {decode : String → String} {req : TokenRequest} {client : OAuth2Client}

theorem methodRespected_of_enforce {method : String}
    (passed : enforceClientAuthMethod method (req.credentials decode)
      (req.hasParam "client_secret") = "") :
    methodRespected decode req method = true := by
  unfold enforceClientAuthMethod at passed
  unfold methodRespected
  split at passed
  · next empty => rw [if_pos empty]
  · next declared =>
      rw [if_neg declared]
      split at passed
      · next isNone =>
          rw [if_pos isNone]
          split at passed
          · exact absurd passed (by decide)
          · next absent => simpa using absent
      · next notNone =>
          rw [if_neg notNone]
          split at passed
          · next basic =>
              rw [if_pos basic]
              split at passed
              · exact absurd passed (by decide)
              · next scheme =>
                  split at passed
                  · exact absurd passed (by decide)
                  · next noBody =>
                      have header : req.basic?.isSome = true := by
                        by_contra missing
                        simp [TokenRequest.credentials, missing] at scheme
                      simp [header, noBody]
          · next notBasic =>
              rw [if_neg notBasic]
              split at passed
              · next post =>
                  rw [if_pos post]
                  split at passed
                  · exact absurd passed (by decide)
                  · next scheme =>
                      have missing : req.basic? = none := by
                        by_contra present
                        have header : req.basic?.isSome = true :=
                          Option.isSome_iff_ne_none.mpr present
                        simp [TokenRequest.credentials, header] at scheme
                      simp [missing]
              · simp at passed

/-- A secret that respects the declared method has arrived by it. -/
theorem methodUsed_of_secret {method : String}
    (respected : methodRespected decode req method = true)
    (secret : (req.credentials decode).clientSecret ≠ "") :
    methodUsed decode req method = true := by
  unfold methodUsed
  rw [respected, Bool.true_and]
  unfold secretArrived
  split
  · next basic =>
      have noBody : req.hasParam "client_secret" = false := by
        simp [methodRespected, basic] at respected
        exact respected.2
      have absent : req.param "client_secret" = "" := by
        simp only [TokenRequest.hasParam, Option.isSome_eq_false_iff, Option.isNone_iff_eq_none]
          at noBody
        simp [TokenRequest.param, noBody]
      cases pair : req.basicPair decode with
      | none => simp [TokenRequest.credentials, pair, absent] at secret
      | some p =>
          by_contra empty
          simp only [Option.any_some, decide_eq_true_eq, not_not] at empty
          simp [TokenRequest.credentials, pair, empty, absent] at secret
  · split
    · next post =>
        have noHeader : req.basic? = none := by
          simpa [methodRespected, post] using respected
        have noPair : req.basicPair decode = none := by
          simp [TokenRequest.basicPair, noHeader]
        simpa [TokenRequest.credentials, noPair] using secret
    · rfl

theorem grantRegistered_of_allowed {allowedGrantTypes : List String} {grantType : String}
    (allowed : grantAllowed allowedGrantTypes grantType = true) :
    GrantRegistered allowedGrantTypes grantType := by
  obtain ⟨registered, mem, same⟩ := List.any_eq_true.mp allowed
  rw [Bool.or_eq_true, Bool.and_eq_true, Bool.or_eq_true] at same
  simp only [decide_eq_true_eq] at same
  rcases same with rfl | ⟨refresh, rfl | rfl⟩
  · exact .inr (.inl mem)
  · exact .inr (.inr ⟨refresh, .inl mem⟩)
  · exact .inr (.inr ⟨refresh, .inr mem⟩)

/-- A client that passes the gate and has validated is authenticated. -/
theorem authenticated_of_gate {store : ClientStore}
    (found : store.repository.getClient (req.credentials decode).clientId = some client)
    (validated : store.SecretValidated client (req.credentials decode).clientSecret)
    (passed : TokenEndpoint.gate req (req.credentials decode) client = none)
    (named : req.param "grant_type" ≠ "") : Authenticated decode req store := by
  unfold TokenEndpoint.gate at passed
  dsimp only at passed
  split at passed
  · cases passed
  · next method =>
      have respected := methodRespected_of_enforce (not_not.mp method)
      have used : client.clientType = .confidential →
          methodUsed decode req client.tokenEndpointAuthMethod = true :=
        fun confidential => methodUsed_of_secret respected (validated confidential).1
      split at passed
      · cases passed
      · next grant =>
          refine ⟨client, found, validated, respected, used, ?_⟩
          by_cases unrestricted : client.allowedGrantTypes = []
          · exact .inl unrestricted
          · apply grantRegistered_of_allowed
            by_contra refused
            exact grant ⟨unrestricted, named, by simpa using refused⟩

/-- The device grant reads the same client id again. -/
theorem clientId_again :
    (if (req.credentials decode).clientId = "" then req.param "client_id"
      else (req.credentials decode).clientId) = (req.credentials decode).clientId := by
  split
  · next empty =>
      rw [empty]
      by_contra present
      unfold TokenRequest.credentials at empty
      dsimp only at empty
      split at empty
      · exact present empty
      · next header => exact header empty
  · rfl

end Gate

/-! ## The grants -/

/-- The client look-ups answer as the repository does; the rest may answer anything. -/
def AnsweredBy (clients : ClientRepository) : (o : TokenSig.Op) → TokenSig.Res o → Prop
  | .inl (.env (.validateClient clientId clientSecret)), r =>
    r = clients.validateClient clientId clientSecret
  | .inr (.getClient clientId), r => r = clients.getClient clientId
  | _, _ => True

/-- The operation reads or writes a grant, token or device store; saving a token or
a pair of them is such an operation. -/
def touchesStores : TokenSig.Op → Bool
  | .inl (.env _) => false
  | .inl _ => true
  | .inr (.saveAccessToken _) => true
  | .inr (.device _) => true
  | .inr _ => false

section Grants

variable (ep : TokenEndpoint) (req : TokenRequest) (clients : ClientRepository)
  {creds : ClientCredentials} {Auth : Prop}

/-- Only for an authenticated client. -/
abbrev Guarded (Auth : Prop) (o : TokenSig.Op) : Prop :=
  touchesStores o = true → Auth

theorem guarded_of {Auth : Prop} {o : TokenSig.Op} (outside : touchesStores o = false) :
    Guarded Auth o := by
  intro inside
  rw [outside] at inside
  cases inside

/-- Once the client is authenticated, a program may do what it wants. -/
theorem along_of_auth {α : Type} {p : TokenProg α} (auth : Auth) :
    p.Along (AnsweredBy clients) (Guarded Auth) :=
  Prog.along_of_forall fun _ _ => auth

/-- Asking for the client, with the repository's answer. -/
theorem along_getClient {α : Type} {clientId : String} {f : Option OAuth2Client → TokenProg α}
    (rest : (f (clients.getClient clientId)).Along (AnsweredBy clients) (Guarded Auth)) :
    ((endpoint (.getClient clientId) : TokenProg (Option OAuth2Client)) >>= f).Along
      (AnsweredBy clients) (Guarded Auth) := by
  refine Prog.along_call (guarded_of rfl) ?_
  intro r answered
  have eq : r = clients.getClient clientId := answered
  rw [eq]
  exact rest

/-- Validating the client, with the repository's answer. -/
theorem along_validateClient {α : Type} {clientId clientSecret : String}
    {f : Bool → TokenProg α}
    (rest : (f (clients.validateClient clientId clientSecret)).Along (AnsweredBy clients)
      (Guarded Auth)) :
    ((store (ask (.validateClient clientId clientSecret)) : TokenProg Bool) >>= f).Along
      (AnsweredBy clients) (Guarded Auth) := by
  refine Prog.along_call (S := TokenSig)
    (o := .inl (.env (.validateClient clientId clientSecret))) (guarded_of rfl) ?_
  intro r answered
  have eq : r = clients.validateClient clientId clientSecret := answered
  rw [eq]
  exact rest

variable {clients}

theorem authorizationCodeGrant_along
    (auth : clients.validateClient creds.clientId creds.clientSecret = true → Auth) :
    (ep.authorizationCodeGrant req creds).Along (AnsweredBy clients) (Guarded Auth) := by
  refine Prog.Along.bind (Prog.Along.inl ?_) fun _ => Prog.along_ret
  unfold TokenService.exchangeCodeForToken
  split
  · refine Prog.along_call (guarded_of rfl) ?_
    intro valid answered
    have eq : valid = clients.validateClient creds.clientId creds.clientSecret := answered
    split
    · exact Prog.along_ret
    · next accepted =>
        have valid' : clients.validateClient creds.clientId creds.clientSecret = true := by
          rw [← eq]
          simpa using accepted
        exact Prog.along_of_forall fun _ _ => auth valid'
  · exact Prog.along_ret

theorem refreshTokenGrant_along
    (public_ : ∀ client, clients.getClient creds.clientId = some client →
      client.clientType ≠ .confidential → Auth)
    (auth : clients.validateClient creds.clientId creds.clientSecret = true → Auth) :
    (ep.refreshTokenGrant req creds).Along (AnsweredBy clients) (Guarded Auth) := by
  refine along_getClient clients ?_
  cases found : clients.getClient creds.clientId with
  | none => exact Prog.along_ret
  | some client =>
      dsimp only
      split
      · split
        · exact Prog.along_ret
        · refine along_validateClient clients ?_
          split
          · exact Prog.along_ret
          · next accepted => exact along_of_auth clients (auth (by simpa using accepted))
      · next open_ => exact along_of_auth clients (public_ client found open_)

theorem clientCredentialsGrant_along
    (auth : clients.validateClient creds.clientId creds.clientSecret = true → Auth) :
    (ep.clientCredentialsGrant req creds).Along (AnsweredBy clients) (Guarded Auth) := by
  unfold TokenEndpoint.clientCredentialsGrant
  split
  · exact Prog.along_ret
  · refine along_validateClient clients ?_
    split
    · exact Prog.along_ret
    · next accepted => exact along_of_auth clients (auth (by simpa using accepted))

theorem deviceCodeGrant_along
    (again : (if creds.clientId = "" then req.param "client_id" else creds.clientId) =
      creds.clientId)
    (public_ : ∀ client, clients.getClient creds.clientId = some client →
      client.clientType ≠ .confidential → Auth)
    (auth : clients.validateClient creds.clientId creds.clientSecret = true → Auth) :
    (ep.deviceCodeGrant req creds).Along (AnsweredBy clients) (Guarded Auth) := by
  unfold TokenEndpoint.deviceCodeGrant
  rw [again]
  dsimp only
  split
  · exact Prog.along_ret
  · split
    · exact Prog.along_ret
    · refine along_getClient clients ?_
      cases found : clients.getClient creds.clientId with
      | none => exact Prog.along_ret
      | some client =>
          dsimp only
          split
          · next open_ =>
              refine along_of_auth clients (public_ client found ?_)
              rw [open_]
              decide
          · refine along_validateClient clients ?_
            split
            · exact Prog.along_ret
            · next accepted => exact along_of_auth clients (auth (by simpa using accepted))

end Grants

/-! ## The endpoint -/

section Endpoint

variable (ep : TokenEndpoint) (store : ClientStore) (req : TokenRequest)

theorem gatedGrant_along :
    (ep.gatedGrant req (req.credentials ep.base64Decode)).Along (AnsweredBy store.repository)
      (Guarded (Authenticated ep.base64Decode req store)) := by
  refine along_getClient store.repository ?_
  split
  · exact Prog.along_ret
  · next passed =>
      have gate : ∀ client, store.repository.getClient
          (req.credentials ep.base64Decode).clientId = some client →
          TokenEndpoint.gate req (req.credentials ep.base64Decode) client = none := by
        intro client found
        rw [found] at passed
        exact passed
      have public_ (named : req.param "grant_type" ≠ "") : ∀ client,
          store.repository.getClient (req.credentials ep.base64Decode).clientId = some client →
          client.clientType ≠ .confidential → Authenticated ep.base64Decode req store := by
        intro client found open_
        exact authenticated_of_gate found (fun bad => absurd bad open_) (gate client found) named
      have auth (named : req.param "grant_type" ≠ "") :
          store.repository.validateClient (req.credentials ep.base64Decode).clientId
            (req.credentials ep.base64Decode).clientSecret = true →
          Authenticated ep.base64Decode req store := by
        intro valid
        obtain ⟨client, found, validated⟩ := ClientStore.validateClient_sound valid
        exact authenticated_of_gate found validated (gate client found) named
      unfold TokenEndpoint.dispatchGrant
      dsimp only
      split
      · next grant =>
          exact authorizationCodeGrant_along ep req (auth (by rw [grant]; decide))
      · split
        · next grant =>
            have named : req.param "grant_type" ≠ "" := by rw [grant]; decide
            exact refreshTokenGrant_along ep req (public_ named) (auth named)
        · split
          · next grant =>
              exact clientCredentialsGrant_along ep req (auth (by rw [grant]; decide))
          · split
            · next grant =>
                have named : req.param "grant_type" ≠ "" := by rw [grant]; decide
                exact deviceCodeGrant_along ep req clientId_again (public_ named) (auth named)
            · exact Prog.along_ret

theorem token_along :
    (ep.token req).Along (AnsweredBy store.repository)
      (Guarded (Authenticated ep.base64Decode req store)) := by
  unfold TokenEndpoint.token
  split
  · exact Prog.along_ret
  · split
    · exact Prog.along_ret
    · refine Prog.along_call (guarded_of rfl) ?_
      intro limited _
      split
      · exact Prog.along_ret
      · refine Prog.Along.bind (gatedGrant_along ep store req) fun reply => ?_
        unfold TokenEndpoint.accounted
        split
        · exact Prog.along_call (guarded_of rfl) fun _ _ => Prog.along_ret
        · exact Prog.along_call (guarded_of rfl) fun _ _ => Prog.along_ret
        · exact Prog.along_ret

end Endpoint

/-! ## Runs -/

section Runs

variable {ι : Type} [DecidableEq ι]

/-- All requests are still to be handled. -/
def startRequests (ep : TokenEndpoint) (requests : ι → TokenRequest) (s : TokenDb) :
    Pool TokenSig ι TokenReply (World TokenSig ι TokenDb) where
  store := World.start s
  prog i := ep.token (requests i)

/-- Run a schedule of the requests over a client repository that does not change. -/
def runRequests (env : Nat → TokenMoment) (clients : ClientRepository) (tokens : TokenBackend)
    (ep : TokenEndpoint) (requests : ι → TokenRequest) (s : TokenDb) (sched : List ι) :
    Pool TokenSig ι TokenReply (World TokenSig ι TokenDb) :=
  (startRequests ep requests s).run
    (World.handler fun n => execToken clients tokens (env n)) sched

theorem execToken_answeredBy (clients : ClientRepository) (tokens : TokenBackend)
    (m : TokenMoment) (o : TokenSig.Op) (s : TokenDb) :
    AnsweredBy clients o (execToken clients tokens m o s).1 := by
  unfold AnsweredBy
  split
  · rfl
  · rfl
  · trivial

/-- Whatever a token request does to a grant, token or device store, it does for an
authenticated client. -/
theorem token_stores_authenticated (env : Nat → TokenMoment) (store : ClientStore)
    (tokens : TokenBackend) (ep : TokenEndpoint) (requests : ι → TokenRequest) (s : TokenDb)
    (sched : List ι) :
    ∀ e ∈ (runRequests env store.repository tokens ep requests s sched).store.log,
      touchesStores e.op = true → Authenticated ep.base64Decode (requests e.thread) store := by
  let Shown (i : ι) : TokenSig.Op → Prop :=
    Guarded (Authenticated ep.base64Decode (requests i) store)
  have along : ∀ i, ((startRequests ep requests s).prog i).Along (AnsweredBy store.repository)
      (Shown i) := fun i => token_along ep store (requests i)
  exact World.run_along
    (fun n o db => execToken_answeredBy store.repository tokens (env n) o db) rfl along sched

/-- A code of `app` waits for its exchange. -/
def sampleDb : TokenDb :=
  { db :=
      { Sample.db with
        authCodes := Table.empty.assign
          { code := "CODECODECODECODECODECODECODECODE", clientId := "app", userId := "alice"
            scope := "openid", redirectUri := "", codeChallenge := "", codeChallengeMethod := ""
            nonce := "", expiresAt := 2000 } } }

/-- The exchange, with nothing but the client's name. -/
def namedExchange : TokenRequest :=
  { params := [("grant_type", "authorization_code"),
      ("code", "CODECODECODECODECODECODECODECODE"), ("client_id", "app")] }

/-- A token or a pair of tokens is saved. -/
def savesTokens : TokenSig.Op → Bool
  | .inl (.mem (.saveTokenPair _ _)) => true
  | .inl (.sql (.insertTokenPair _ _)) => true
  | .inr (.saveAccessToken _) => true
  | _ => false

/-- `app` is confidential and declares `client_secret_post`. -/
def confidentialStore : ClientStore :=
  .memory (Table.empty.assign
    { clientId := "app", clientType := .confidential, clientSecretHash := "s3cret"
      tokenEndpointAuthMethod := "client_secret_post" })

/-- The exchange, with the secret in the body. -/
def secretExchange : TokenRequest :=
  { params := namedExchange.params ++ [("client_secret", "s3cret")] }

theorem token_stores_authenticated_secret_sent :
    ∃ e ∈ (runRequests (fun n => { store := Sample.envAt 1000 n }) confidentialStore.repository
        .memory (Sample.endpoint .memory) (fun _ : Unit => secretExchange) sampleDb
        (List.replicate 14 ())).store.log,
      savesTokens e.op = true ∧ Authenticated id secretExchange confidentialStore := by
  have saved : ((runRequests (fun n => { store := Sample.envAt 1000 n })
      confidentialStore.repository .memory (Sample.endpoint .memory)
      (fun _ : Unit => secretExchange) sampleDb (List.replicate 14 ())).store.log.any fun e =>
        savesTokens e.op && touchesStores e.op) = true := by
    decide +kernel
  obtain ⟨e, logged, both⟩ := List.any_eq_true.mp saved
  rw [Bool.and_eq_true] at both
  exact ⟨e, logged, both.1, token_stores_authenticated _ _ _ _ _ _ _ e logged both.2⟩

/-! ### Clients that show less -/

/-- `app` is public and declares `client_secret_post`. -/
def publicPostStore : ClientStore :=
  .postgres id (Table.empty.assign
    { clientId := "app", clientType := "PUBLIC", tokenEndpointAuthMethod := "client_secret_post" })

/-- `app` has a secret in the Redis store, and `clientType` happens to be confidential. -/
def redisClients : ClientRepository :=
  redisClientRepository id (Table.empty.assign
    { clientId := "app", secret := some "s3cret", salt := some "" }) .confidential

/-- A pair is saved for a public client that sent no secret though it declared
`client_secret_post`, and over the Redis client store for a client that has a secret
and did not send it. -/
theorem undeclared_method_accepted :
    (((runRequests (fun n => { store := Sample.envAt 1000 n }) publicPostStore.repository .postgres
          (Sample.endpoint .postgres) (fun _ : Unit => namedExchange) sampleDb
          (List.replicate 14 ())).store.log.any fun e => savesTokens e.op) = true ∧
        (publicPostStore.repository.getClient "app").map (·.tokenEndpointAuthMethod) =
          some "client_secret_post" ∧
        methodUsed id namedExchange "client_secret_post" = false) ∧
      ((runRequests (fun n => { store := Sample.envAt 1000 n }) redisClients .memory
          (Sample.endpoint .memory) (fun _ : Unit => namedExchange) sampleDb
          (List.replicate 14 ())).store.log.any fun e => savesTokens e.op) = true ∧
        (redisClients.getClient "app").map (fun c => (c.clientType, c.clientSecretHash)) =
          some (.confidential, "s3cret") ∧
        (namedExchange.credentials id).clientSecret = "" := by
  decide +kernel

end Runs

end Fulla.ClientAuth
