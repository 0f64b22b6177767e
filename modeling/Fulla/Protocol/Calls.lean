import Fulla.Protocol.TokenService
import Fulla.Storage.Effects

/-!
# Concurrent calls of the token service

A run of the service is a pool in which every thread is one call.  `runCalls`
executes a schedule of their atomic operations from a given database; the log of
the resulting world says which thread did what, and in which state.

Most programs neither save a token pair nor delete an access token (`Quiet`);
whatever those do to the token tables is covered by `execOp_decays`.
-/

namespace Fulla

open Conc

/-- A call of the token service, or a sweep of the repositories. -/
inductive Call where
  | generateAuthorizationCode (clientId subject scope redirectUri codeChallenge
      codeChallengeMethod nonce : String) (authTime : Int) (amr : String) (orgId : Option Int)
  | exchangeCodeForToken (code clientId clientSecret redirectUri codeVerifier : String)
  | refreshAccessToken (refreshToken clientId : String)
  | validateAccessToken (token : String)
  | revokeAccessToken (token revokedBy : String)
  | revokeRefreshToken (token : String)
  | purgeExpired
deriving DecidableEq

/-- What such a call answers. -/
inductive Answer where
  | code (result : Except String String)
  | token (response : TokenResponse)
  | access (token : Option OAuth2AccessToken)
  | done

/-- The sweep of the cleanup service over both repositories. -/
def TokenService.purgeExpired (svc : TokenService) : StoreProg Unit := do
  match svc.grants with
  | some grants => grants.purgeExpired
  | none => return ()
  match svc.tokens with
  | some tokens => tokens.purgeExpired
  | none => return ()

/-- The program that a call runs. -/
def Call.prog (svc : TokenService) : Call → StoreProg Answer
  | generateAuthorizationCode clientId subject scope redirectUri codeChallenge
      codeChallengeMethod nonce authTime amr orgId =>
    Answer.code <$> svc.generateAuthorizationCode clientId subject scope redirectUri codeChallenge
      codeChallengeMethod nonce authTime amr orgId
  | exchangeCodeForToken code clientId clientSecret redirectUri codeVerifier =>
    Answer.token <$>
      svc.exchangeCodeForToken code clientId clientSecret redirectUri codeVerifier
  | refreshAccessToken refreshToken clientId =>
    Answer.token <$> svc.refreshAccessToken refreshToken clientId
  | validateAccessToken token => Answer.access <$> svc.validateAccessToken token
  | revokeAccessToken token revokedBy =>
    (fun _ => Answer.done) <$> svc.revokeAccessToken token revokedBy
  | revokeRefreshToken token => (fun _ => Answer.done) <$> svc.revokeRefreshToken token
  | purgeExpired => (fun _ => Answer.done) <$> svc.purgeExpired

/-- The service with everything it needs for tokens wired to the given backends. -/
def TokenService.over (svc : TokenService) (grants : GrantBackend) (tokens : TokenBackend)
    (crypto : CryptoProvider) : TokenService :=
  { svc with
    grants := some grants.repository
    tokens := some tokens.repository
    crypto := some crypto }

/-- All calls are still to be made. -/
def startCalls {ι : Type} (svc : TokenService) (calls : ι → Call) (db : Db) :
    Pool StoreSig ι Answer (StoreWorld ι) where
  store := World.start db
  prog i := (calls i).prog svc

/-- Run a schedule of the calls. -/
def runCalls {ι : Type} [DecidableEq ι] (env : Env) (svc : TokenService) (calls : ι → Call)
    (db : Db) (sched : List ι) : Pool StoreSig ι Answer (StoreWorld ι) :=
  (startCalls svc calls db).run (World.handler (exec env)) sched

/-- No token has been issued yet. -/
def Db.withoutTokens (db : Db) : Db :=
  { db with accessTokens := .empty, refreshTokens := .empty }

/-- The pair an event has saved. -/
def savedBy {ι : Type} : StoreEvent ι → Option (OAuth2AccessToken × OAuth2RefreshToken)
  | ⟨_, _, .mem (.saveTokenPair a r), ok, _⟩ => if (ok : Bool) then some (a, r) else none
  | ⟨_, _, .sql (.insertTokenPair a r), ok, _⟩ => if (ok : Bool) then some (a, r) else none
  | _ => none

/-- An operation that saves no pair has saved none, whatever it answered. -/
theorem savedBy_eq_none {ι : Type} {e : StoreEvent ι} (noSave : savedPair? e.op = none) :
    savedBy e = none := by
  obtain ⟨i, n, o, res, pre⟩ := e
  cases o with
  | env o => rfl
  | mem o => cases o <;> first | rfl | cases noSave
  | sql o => cases o <;> first | rfl | cases noSave
  | redis o => rfl

/-! ## Quiet programs -/

section Quiet

variable {α : Type} (svc : TokenService)

/-- Asking a port neither saves a pair nor deletes an access token. -/
theorem ask_quiet (o : EnvOp) : (ask o).Only Quiet :=
  Prog.only_call.mpr ⟨rfl, rfl⟩

/-- A program of one quiet operation on the maps. -/
theorem mem_quiet {o : MemOp} (quiet : Quiet (.mem o)) : (mem o).Only Quiet :=
  Prog.only_call.mpr quiet

/-- A program of one quiet statement. -/
theorem sql_quiet {o : SqlOp} (quiet : Quiet (.sql o)) : (sql o).Only Quiet :=
  Prog.only_call.mpr quiet

/-- A Redis command is quiet: tokens are not kept there. -/
theorem redis_quiet (o : RedisOp) : (redis o).Only Quiet :=
  Prog.only_call.mpr ⟨rfl, rfl⟩

/-- Everything the environment is asked but a draw satisfies `P`. -/
def OnPorts (P : StoreOp → Prop) : Prop :=
  ∀ o : EnvOp, (∀ n, o ≠ .secureRandomBytes n) → P (.env o)

section Ports

variable {P : StoreOp → Prop} (ports : OnPorts P)

include ports

/-- Asking a port other than the random source satisfies what all ports do. -/
theorem ask_only {o : EnvOp} (noDraw : ∀ n, o ≠ .secureRandomBytes n) : (ask o).Only P :=
  Prog.only_call.mpr (ports o noDraw)

/-- An audit record only asks ports. -/
theorem audit_only (action outcome actorId targetType targetId : String) :
    (svc.audit action outcome actorId targetType targetId).Only P := by
  unfold TokenService.audit
  split
  · exact ask_only ports (by nofun)
  · trivial

/-- So does the resolution of roles. -/
theorem resolveRoles_only (subject : String) : (svc.resolveRoles subject).Only P := by
  unfold TokenService.resolveRoles
  split
  · trivial
  · exact (ask_only ports (by nofun)).map
  · split
    · trivial
    · split
      · trivial
      · refine (ask_only ports (by nofun)).bind fun id => ?_
        cases id with
        | none => trivial
        | some id => exact (ask_only ports (by nofun)).map

/-- So does that of the organization. -/
theorem resolveOrgContextForClaims_only (subject : String) (orgId : Option Int)
    (scope : String) : (svc.resolveOrgContextForClaims subject orgId scope).Only P := by
  unfold TokenService.resolveOrgContextForClaims
  split
  · trivial
  · split
    · exact ask_only ports (by nofun)
    · trivial

/-- So does that of the mapped claims. -/
theorem resolveMappedClaims_only (subject scope target : String) :
    (svc.resolveMappedClaims subject scope target).Only P := by
  unfold TokenService.resolveMappedClaims
  split
  · trivial
  · refine (ask_only ports (by nofun)).bind fun mappings => ?_
    dsimp only
    split
    · trivial
    · refine (ask_only ports (by nofun)).bind fun profile => ?_
      cases profile <;> trivial

/-- So does the making of the id token. -/
theorem withIdToken_only (userId scope : String) (claims : Json) (json : TokenJson) :
    (svc.withIdToken userId scope claims json).Only P := by
  unfold TokenService.withIdToken
  split
  · trivial
  · split
    · exact (resolveMappedClaims_only svc ports _ _ _).bind fun _ => trivial
    · trivial

/-- So does the audit record of an issued token. -/
theorem auditIssued_only (userId : String) (answer : Except String TokenJson) :
    (svc.auditIssued userId answer).Only P := by
  cases answer with
  | error what => trivial
  | ok json => exact audit_only svc ports _ _ _ _ _

/-- So does the normalization of the subject. -/
theorem normalizedSubject_only (userId : String) : (svc.normalizedSubject userId).Only P := by
  have refuse (s : String) : (do
      svc.audit "refresh_subject_normalization_failed" "failure" s "token" ""
      return none : StoreProg (Option String)).Only P :=
    (audit_only svc ports _ _ _ _ _).bind fun _ => trivial
  unfold TokenService.normalizedSubject
  split
  · trivial
  · split
    · exact refuse _
    · refine (ask_only ports (by nofun)).bind fun normalized => ?_
      cases normalized with
      | none => exact refuse _
      | some subject =>
          dsimp only
          split
          · exact refuse _
          · trivial

end Ports

/-- The ports are quiet. -/
theorem quiet_ports : OnPorts Quiet :=
  fun _ _ => ⟨rfl, rfl⟩

/-- So is the clock. -/
theorem nowSeconds_quiet : nowSeconds.Only Quiet :=
  ask_quiet _

/-- A token is made by one draw of random bytes. -/
theorem generateSecureToken_only {P : StoreOp → Prop} (crypto : CryptoProvider) {n : Nat}
    (draw : P (.env (.secureRandomBytes n))) : (generateSecureToken crypto n).Only P := by
  refine Prog.Only.bind (Prog.only_call.mpr draw) fun buffer => ?_
  cases buffer <;> trivial

section Saves

variable {P : StoreOp → Prop} (ports : OnPorts P) (draw : ∀ n, P (.env (.secureRandomBytes n)))
  {tokens : TokenRepository}
  (save : ∀ a r, r.accessToken = a.token → (tokens.saveTokenPair a r).Only P)
  (crypto : CryptoProvider)

include ports draw save

/-- What an exchange does after the code is consumed: draws, ports and the save of one pair. -/
theorem issueForCode_only (authCode : OAuth2AuthCode) (now : Int) :
    (svc.issueForCode tokens crypto authCode now).Only P := by
  unfold TokenService.issueForCode
  refine (resolveOrgContextForClaims_only svc ports _ _ _).bind fun orgCtx => ?_
  refine (resolveRoles_only svc ports _).bind fun roles => ?_
  cases roles with
  | none => trivial
  | some roles =>
      refine (generateSecureToken_only crypto (draw _)).bind fun tokenStr => ?_
      refine (generateSecureToken_only crypto (draw _)).bind fun refreshTokenStr => ?_
      refine (generateSecureToken_only crypto (draw _)).bind fun familyId => ?_
      split
      · exact (audit_only svc ports _ _ _ _ _).bind fun _ => trivial
      · refine (save _ _ rfl).bind fun ok => ?_
        split
        · exact (audit_only svc ports _ _ _ _ _).bind fun _ => trivial
        · exact (withIdToken_only svc ports _ _ _ _).bind fun _ =>
            (auditIssued_only svc ports _ _).bind fun _ => trivial

/-- A rotation: draws, ports, the compare-and-set and the save of one pair. -/
theorem rotate_only (storedRt : OAuth2RefreshToken) (now : Int) (subject : String) :
    (svc.rotate tokens crypto storedRt now subject).Only P := by
  unfold TokenService.rotate
  refine (resolveOrgContextForClaims_only svc ports _ _ _).bind fun orgCtx => ?_
  refine (generateSecureToken_only crypto (draw _)).bind fun newTokenStr => ?_
  refine (generateSecureToken_only crypto (draw _)).bind fun newRefreshTokenStr => ?_
  split
  · trivial
  · refine (save _ _ rfl).bind fun ok => ?_
    split
    · trivial
    · exact (audit_only svc ports _ _ _ _ _).bind fun _ =>
        (withIdToken_only svc ports _ _ _ _).bind fun _ => trivial

end Saves

/-- Making a token is quiet. -/
theorem generateSecureToken_quiet (crypto : CryptoProvider) (n : Nat) :
    (generateSecureToken crypto n).Only Quiet :=
  generateSecureToken_only crypto ⟨rfl, rfl⟩

theorem audit_quiet (action outcome actorId targetType targetId : String) :
    (svc.audit action outcome actorId targetType targetId).Only Quiet :=
  audit_only svc quiet_ports _ _ _ _ _

theorem resolveRoles_quiet (subject : String) : (svc.resolveRoles subject).Only Quiet :=
  resolveRoles_only svc quiet_ports _

theorem resolveOrgContextForClaims_quiet (subject : String) (orgId : Option Int)
    (scope : String) : (svc.resolveOrgContextForClaims subject orgId scope).Only Quiet :=
  resolveOrgContextForClaims_only svc quiet_ports _ _ _

theorem withIdToken_quiet (userId scope : String) (claims : Json) (json : TokenJson) :
    (svc.withIdToken userId scope claims json).Only Quiet :=
  withIdToken_only svc quiet_ports _ _ _ _

theorem auditIssued_quiet (userId : String) (answer : Except String TokenJson) :
    (svc.auditIssued userId answer).Only Quiet :=
  auditIssued_only svc quiet_ports _ _

theorem normalizedSubject_quiet (userId : String) :
    (svc.normalizedSubject userId).Only Quiet :=
  normalizedSubject_only svc quiet_ports _

end Quiet

/-! ### Repositories -/

section Repositories

variable (grants : GrantBackend) (tokens : TokenBackend)

/-- On every backend, saving a code leaves the tokens alone. -/
theorem saveAuthCode_quiet (code : OAuth2AuthCode) :
    (grants.repository.saveAuthCode code).Only Quiet := by
  cases grants with
  | memory => exact mem_quiet (by exact ⟨rfl, rfl⟩)
  | redis => exact nowSeconds_quiet.bind fun _ => (redis_quiet _).bind fun _ => trivial
  | postgres => exact (sql_quiet (by exact ⟨rfl, rfl⟩)).bind fun _ => trivial

/-- So does consuming one. -/
theorem consumeAuthCode_quiet (code redirectUri : String) :
    (grants.repository.consumeAuthCode code redirectUri).Only Quiet := by
  cases grants with
  | memory => exact mem_quiet (by exact ⟨rfl, rfl⟩)
  | redis => exact (redis_quiet _).bind fun _ => trivial
  | postgres =>
      refine (sql_quiet (by exact ⟨rfl, rfl⟩)).bind fun row => ?_
      cases row with
      | none => trivial
      | some row =>
          dsimp only
          split <;> trivial

/-- So does the sweep of the codes. -/
theorem purgeGrants_quiet : grants.repository.purgeExpired.Only Quiet := by
  cases grants with
  | memory => exact mem_quiet (by exact ⟨rfl, rfl⟩)
  | redis => trivial
  | postgres =>
      exact nowSeconds_quiet.bind fun _ => (sql_quiet (by exact ⟨rfl, rfl⟩)).bind fun _ => trivial

/-- Reading an access token is quiet. -/
theorem getAccessToken_quiet (token : String) :
    (tokens.repository.getAccessToken token).Only Quiet := by
  cases tokens with
  | memory => exact mem_quiet (by exact ⟨rfl, rfl⟩)
  | postgres => exact (sql_quiet (by exact ⟨rfl, rfl⟩)).bind fun _ => trivial

/-- So is reading a refresh token. -/
theorem getRefreshToken_quiet (token : String) :
    (tokens.repository.getRefreshToken token).Only Quiet := by
  cases tokens with
  | memory => exact mem_quiet (by exact ⟨rfl, rfl⟩)
  | postgres => exact (sql_quiet (by exact ⟨rfl, rfl⟩)).bind fun _ => trivial

/-- So is revoking one: the row stays. -/
theorem revokeRefreshToken_quiet (token : String) :
    (tokens.repository.revokeRefreshToken token).Only Quiet := by
  cases tokens with
  | memory => exact mem_quiet (by exact ⟨rfl, rfl⟩)
  | postgres => exact (sql_quiet (by exact ⟨rfl, rfl⟩)).bind fun _ => trivial

/-- The statements that revoke a family keep the rows. -/
theorem postgres_revokeTokenFamily_quiet (familyId : String) :
    (PostgresTokenRepository.revokeTokenFamily familyId).Only Quiet := by
  unfold PostgresTokenRepository.revokeTokenFamily
  split
  · trivial
  · refine (sql_quiet (by exact ⟨rfl, rfl⟩)).bind fun ok => ?_
    split
    · exact (sql_quiet (by exact ⟨rfl, rfl⟩)).bind fun _ => trivial
    · trivial

/-- So does the revocation of a family on the other backends. -/
theorem revokeTokenFamily_quiet (familyId : String) :
    (tokens.repository.revokeTokenFamily familyId).Only Quiet := by
  cases tokens with
  | memory => exact mem_quiet (by exact ⟨rfl, rfl⟩)
  | postgres => exact postgres_revokeTokenFamily_quiet familyId

/-- A revoked access token keeps its row. -/
theorem revokeAccessToken_quiet (token revokedBy : String) :
    (tokens.repository.revokeAccessToken token revokedBy).Only Quiet := by
  cases tokens with
  | memory => exact mem_quiet (by exact ⟨rfl, rfl⟩)
  | postgres =>
      refine nowSeconds_quiet.bind fun now => ?_
      refine (sql_quiet (by exact ⟨rfl, rfl⟩)).bind fun found => ?_
      cases found with
      | none => trivial
      | some _ =>
          refine (sql_quiet (by exact ⟨rfl, rfl⟩)).bind fun audited => ?_
          split
          · refine (sql_quiet (by exact ⟨rfl, rfl⟩)).bind fun rt => ?_
            cases rt with
            | none => trivial
            | some rt =>
                dsimp only
                split
                · exact postgres_revokeTokenFamily_quiet _
                · exact (sql_quiet (by exact ⟨rfl, rfl⟩)).bind fun _ => trivial
          · refine (sql_quiet (by exact ⟨rfl, rfl⟩)).bind fun simple => ?_
            split
            · refine (sql_quiet (by exact ⟨rfl, rfl⟩)).bind fun rt => ?_
              cases rt with
              | none => trivial
              | some rt => exact (sql_quiet (by exact ⟨rfl, rfl⟩)).bind fun _ => trivial
            · trivial

/-- The sweep of the tokens removes rows and saves none. -/
theorem purgeTokens_noSave : tokens.repository.purgeExpired.Only NoSave := by
  cases tokens with
  | memory => exact Prog.only_call.mpr rfl
  | postgres => exact ⟨rfl, fun _ => ⟨rfl, fun _ => ⟨rfl, fun _ => ⟨rfl, fun _ => trivial⟩⟩⟩⟩

/-! ### Calls -/

/-- A refusal of a refresh token revokes a family at most. -/
theorem refuseRefresh_quiet (svc : TokenService) (tokens : TokenBackend) (hashedRt : String) :
    (svc.refuseRefresh tokens.repository hashedRt).Only Quiet := by
  unfold TokenService.refuseRefresh
  refine (getRefreshToken_quiet tokens _).bind fun maybeRevoked => ?_
  cases maybeRevoked with
  | none => trivial
  | some rt =>
      dsimp only
      split
      · exact (audit_quiet svc _ _ _ _ _).bind fun _ =>
          (revokeTokenFamily_quiet tokens _).bind fun _ => trivial
      · trivial

/-- The issue of a code is quiet. -/
theorem generateAuthorizationCode_quiet (svc : TokenService) (grants : GrantBackend)
    (tokens : TokenBackend) (crypto : CryptoProvider) (clientId subject scope redirectUri
    codeChallenge codeChallengeMethod nonce : String) (authTime : Int) (amr : String)
    (orgId : Option Int) :
    ((svc.over grants tokens crypto).generateAuthorizationCode clientId subject scope redirectUri
      codeChallenge codeChallengeMethod nonce authTime amr orgId).Only Quiet := by
  refine (generateSecureToken_quiet _ _).bind fun code => ?_
  split
  · trivial
  · split
    · trivial
    · exact nowSeconds_quiet.bind fun _ => (saveAuthCode_quiet grants _).bind fun _ => trivial

/-- So is the validation of an access token. -/
theorem validateAccessToken_quiet (svc : TokenService) (grants : GrantBackend)
    (tokens : TokenBackend) (crypto : CryptoProvider) (token : String) :
    ((svc.over grants tokens crypto).validateAccessToken token).Only Quiet := by
  refine (getAccessToken_quiet tokens _).bind fun t => ?_
  cases t with
  | none => trivial
  | some t =>
      dsimp only
      split
      · trivial
      · refine nowSeconds_quiet.bind fun now => ?_
        split <;> trivial

end Repositories

/-! ## Threads that revoke and save

The ghost rule for the two operations of the service that do more than age the
token tables, for either backend and any shared invariant. -/

section Rules

variable {ι G α : Type} [DecidableEq ι] {env : Env} {I : StoreWorld ι → (ι → G) → Prop} {i : ι}

/-- The invariant survives every step that saves no pair and only lets tokens decay. -/
def Framed (I : StoreWorld ι → (ι → G) → Prop) : Prop :=
  ∀ {i : ι} {e : StoreEvent ι} {w w' : StoreWorld ι} {γ : ι → G}, I w γ → w.db.Decays w'.db →
    World.Stepped i e w w' → savedBy e = none → I w' γ

/-- What saves no pair leaves the ghost state of a call alone. -/
theorem Framed.keeps_noSave (framed : Framed I) {p : StoreProg α} {g : G} (only : p.Only NoSave) :
    Keeps (World.handler (exec env)) I i (fun _ g' => g' = g) p g := by
  refine Keeps.of_only only ?_ fun _ => rfl
  intro o w γ noSave inv
  exact framed inv (execOp_decays (env w.tick) w.db noSave) World.handler_stepped
    (savedBy_eq_none noSave)

/-- So does what is quiet. -/
theorem Framed.keeps_quiet (framed : Framed I) {p : StoreProg α} {g : G} (only : p.Only Quiet) :
    Keeps (World.handler (exec env)) I i (fun _ g' => g' = g) p g :=
  framed.keeps_noSave (only.mono fun _ quiet => quiet.noSave)

/-- What a call may end with: nothing is asked. -/
theorem Framed.keeps_rest (framed : Framed I) {p : StoreProg α} {g : G} (only : p.Only Quiet) :
    Keeps (World.handler (exec env)) I i (fun _ _ => True) p g :=
  (framed.keeps_quiet only).mono fun _ _ _ => trivial

variable (tokens : TokenBackend)

/-- The save of a pair, on every backend: it fails without a trace or it stores the pair. -/
theorem keeps_saveTokenPair {Q : Bool → G → Prop} {a : OAuth2AccessToken} {r : OAuth2RefreshToken}
    {g : G}
    (failed : ∀ e w w' γ, I w γ → γ i = g → World.Stepped i e w w' → savedBy e = none →
      w'.db = w.db → ∃ g', I w' (Function.update γ i g') ∧ Q false g')
    (stored : ∀ e w w' γ, I w γ → γ i = g → World.Stepped i e w w' → savedBy e = some (a, r) →
      w.db.Stores a r w'.db → ∃ g', I w' (Function.update γ i g') ∧ Q true g') :
    Keeps (World.handler (exec env)) I i Q (tokens.repository.saveTokenPair a r) g := by
  cases tokens with
  | memory =>
      intro w γ inv own
      exact stored _ w _ γ inv own World.handler_stepped rfl
        (MemoryTokenRepository.saveTokenPair_stores _ a r w.db)
  | postgres =>
      intro w γ inv own
      let o : StoreOp := .sql (.insertTokenPair a r)
      have step : World.Stepped i ⟨i, w.tick, o, (exec env w.tick o w.db).1, w.db⟩ w
          (World.handler (exec env) i o w).2 := World.handler_stepped
      rcases SqlOp.insertTokenPair_cases (env w.tick) a r w.db with same | ⟨db', eq, -, stores⟩
      · have answer : (exec env w.tick o w.db).1 = false := congrArg Prod.fst same
        rw [answer] at step
        obtain ⟨g', inv', post⟩ := failed _ w _ γ inv own step rfl (congrArg Prod.snd same)
        exact ⟨g', inv', answer ▸ post⟩
      · have answer : (exec env w.tick o w.db).1 = true := congrArg Prod.fst eq
        have after : (World.handler (exec env) i o w).2.db = db' := congrArg Prod.snd eq
        rw [answer] at step
        obtain ⟨g', inv', post⟩ := stored _ w _ γ inv own step rfl (after ▸ stores)
        exact ⟨g', inv', answer ▸ post⟩

/-- The compare-and-set on a refresh token, on every backend, is one step. -/
theorem keeps_atomicRevokeRefreshToken {Q : Option OAuth2RefreshToken → G → Prop} {token : String}
    {g : G}
    (step : ∀ e w w' γ answer, I w γ → γ i = g → World.Stepped i e w w' → savedBy e = none →
      w.db.Cas token answer w'.db → ∃ g', I w' (Function.update γ i g') ∧ Q answer g') :
    Keeps (World.handler (exec env)) I i Q
      (tokens.repository.atomicRevokeRefreshToken token) g := by
  cases tokens with
  | memory =>
      intro w γ inv own
      exact step _ w _ γ _ inv own World.handler_stepped rfl
        (MemoryTokenRepository.atomicRevokeRefreshToken_cas token w.db)
  | postgres =>
      intro w γ inv own
      exact step _ w _ γ _ inv own World.handler_stepped rfl
        (SqlOp.casRevokeRefresh_cas (env w.tick) token w.db)

end Rules

/-! ## A concrete service

Small stand-ins for the cryptographic provider and the surroundings, on which the
runs of the examples are computed: an encoder that keeps a letter for the leading
byte, no hashing, and a CSPRNG whose leading byte is the number of the step and
which fails from step 26 on. -/

namespace Sample

/-- A provider whose hash is the identity, so that a run can be read. -/
def crypto : CryptoProvider where
  sha256 s := s.toList.map fun c => UInt8.ofNat c.toNat
  sha256Hex s := s
  base64UrlEncode bytes := String.ofList ((bytes.take 1).map fun b => Char.ofNat (65 + b.toNat))

/-- Every step happens in second `t`. -/
def envAt (t : Nat) : Env := fun n =>
  { now := 1000 * t
    random := fun length =>
      if n < 26 ∧ 0 < length then some (UInt8.ofNat n :: List.replicate (length - 1) 0)
      else none }

/-- The string that step `n` draws. -/
def drawn (n : Nat) : String :=
  String.ofList [Char.ofNat (65 + n)]

/-- A service without optional collaborators. -/
def service : TokenService where
  grants := none
  tokens := none
  crypto := none
  authCodeTtl := 600
  accessTokenTtl := 3600
  refreshTokenTtl := 86400
  issuer := "https://id.example"

/-- A server that knows one client. -/
def db : Db :=
  { clientIds := ["app"] }

end Sample

end Fulla
