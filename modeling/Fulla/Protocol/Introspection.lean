import Fulla.Protocol.Calls
import Fulla.Storage.RedisTokens

/-!
# Introspection and validation

`introspectToken` of the repositories and `TokenService::validateAccessToken` judge a
token by predicates of their own.  On the Postgres and the Redis repository the two
agree at every instant.  `MemoryTokenRepository::getAccessToken` alone compares the
expiry strictly, so there they differ in the second in which an unrevoked token
expires, and in no other.
-/

namespace Fulla

open Conc

namespace PostgresTokenRepository

/-- What is reported of an active access token. -/
def accessIntrospection (a : OAuth2AccessToken) : TokenIntrospection :=
  { active := true, clientId := a.clientId, exp := a.expiresAt, iat := a.issuedAt, iss := a.issuer
    aud := a.audience, nbf := a.notBefore, sub := a.userId, scope := a.scope, orgId := a.orgId }

/-- The clock is read first; a name that is no access token's may be a refresh token's. -/
def introspectToken (token : String) : StoreProg TokenIntrospection := do
  let now ← nowSeconds
  let found : Option OAuth2AccessToken ← sql (.selectAccess token)
  match found with
  | some a =>
    return if a.revoked ∨ a.expiresAt < now then {} else accessIntrospection a
  | none =>
    let found : Option OAuth2RefreshToken ← sql (.selectRefresh token)
    match found with
    | some r =>
      return if r.revoked ∨ r.expiresAt < now then {}
        else
          { active := true, clientId := r.clientId, exp := r.expiresAt, sub := r.userId
            scope := r.scope, orgId := r.orgId }
    | none => return {}

/-- An access token that is there is judged by its row, unless the server refuses. -/
theorem introspectToken_run {m : Moment} {db : Db} {token : String} {a : OAuth2AccessToken}
    (ok : m.fault = false) (found : db.accessTokens.find? token = some a) :
    ((introspectToken token).run (execOp m) db).1 =
      if a.revoked ∨ a.expiresAt < m.seconds then {} else accessIntrospection a := by
  simp [introspectToken, nowSeconds, ask, sql, Prog.call, execOp, SqlOp.exec, ok, SqlOp.effect,
    Sql.selectAccess, found, EnvOp.answer]
  rfl

end PostgresTokenRepository

/-- `introspectToken` of the repository. -/
def TokenBackend.introspectToken : TokenBackend → String → StoreProg TokenIntrospection
  | memory, token => mem (.introspectToken token)
  | postgres, token => PostgresTokenRepository.introspectToken token

namespace TokenService

/-- `TokenService::introspectToken`. -/
def introspectToken (svc : TokenService) (tokens : TokenBackend) (token : String) :
    StoreProg (Option TokenIntrospection) :=
  match svc.tokens, svc.crypto with
  | some _, some crypto => some <$> tokens.introspectToken (hashToken crypto token)
  | _, _ => return none

/-- What `validateAccessToken` does with the answer of the repository. -/
def accepted {S : Sig} (nowSeconds : Prog S Int) :
    Option OAuth2AccessToken → Prog S (Option OAuth2AccessToken)
  | none => return none
  | some t =>
    if t.revoked then return none
    else do
      let now ← nowSeconds
      if now > t.expiresAt then return none else return some t

theorem validateAccessToken_eq (svc : TokenService) (grants : GrantBackend) (tokens : TokenBackend)
    (crypto : CryptoProvider) (token : String) :
    (svc.over grants tokens crypto).validateAccessToken token =
      tokens.repository.getAccessToken (hashToken crypto token) >>= accepted nowSeconds := by
  unfold validateAccessToken
  refine congrArg (tokens.repository.getAccessToken (hashToken crypto token) >>= ·) ?_
  funext t
  cases t <;> rfl

end TokenService

/-- `TokenService::validateAccessToken` over the Redis repository. -/
def RedisTokenRepository.validateAccessToken (crypto : CryptoProvider) (token : String) :
    RedisTokenProg (Except String (Option OAuth2AccessToken)) := do
  let t ← getAccessToken (hashToken crypto token)
  match t with
  | .error what => return .error what
  | .ok t => .ok <$> TokenService.accepted (redisToken .clock) t

namespace Introspection

section Store

variable (svc : TokenService) (grants : GrantBackend) (crypto : CryptoProvider) (m : Moment)
  (db : Db) (token : String)

/-- Introspection at moment `m` reports the token active. -/
def Active (tokens : TokenBackend) : Prop :=
  ∃ r, (((svc.over grants tokens crypto).introspectToken tokens token).run (execOp m) db).1 =
    some r ∧ r.active = true

/-- Validation at moment `m` accepts the token. -/
def Accepted (tokens : TokenBackend) : Prop :=
  (((svc.over grants tokens crypto).validateAccessToken token).run (execOp m) db).1.isSome = true

/-- The string is not that of a refresh token. -/
def NoRefreshToken : Prop :=
  db.accessTokens.find? (hashToken crypto token) = none →
    db.refreshTokens.find? (hashToken crypto token) = none

/-- This is the second in which the token, still unrevoked, expires. -/
def ExpiresNow : Prop :=
  ∃ a, db.accessTokens.find? (hashToken crypto token) = some a ∧ a.revoked = false ∧
    a.expiresAt = m.seconds

variable {svc grants crypto m db token}

theorem accepted_isSome {S : Sig} {σ : Type} {h : Handler S σ} {s : σ} {now : Prog S Int}
    {t : Option OAuth2AccessToken} :
    ((TokenService.accepted now t).run h s).1.isSome = true ↔
      ∃ a, t = some a ∧ a.revoked = false ∧ (now.run h s).1 ≤ a.expiresAt := by
  cases t with
  | none => simp [TokenService.accepted]
  | some a =>
      cases revoked : a.revoked with
      | true => simp [TokenService.accepted, revoked]
      | false =>
          by_cases late : (now.run h s).1 > a.expiresAt
          · simp [TokenService.accepted, revoked, late]
          · simp [TokenService.accepted, revoked, late, Int.not_lt.mp late]

theorem accepted_iff {tokens : TokenBackend} :
    Accepted svc grants crypto m db token tokens ↔
      ∃ a, ((tokens.repository.getAccessToken (hashToken crypto token)).run (execOp m) db).1 =
        some a ∧ a.revoked = false ∧ m.seconds ≤ a.expiresAt := by
  rw [Accepted, TokenService.validateAccessToken_eq, Prog.run_bind, accepted_isSome]
  rfl

theorem active_iff {tokens : TokenBackend} :
    Active svc grants crypto m db token tokens ↔
      ((tokens.introspectToken (hashToken crypto token)).run (execOp m) db).1.active = true := by
  have eq : (((svc.over grants tokens crypto).introspectToken tokens token).run (execOp m) db).1 =
      some ((tokens.introspectToken (hashToken crypto token)).run (execOp m) db).1 :=
    congrArg Prod.fst (Prog.run_bind ..)
  rw [Active, eq]
  simp

/-- The test both `introspectToken`s make of a token they have found. -/
theorem judged_active {revoked : Bool} {expiresAt now : Int} {r : TokenIntrospection}
    (live : r.active = true) :
    (if revoked = true ∨ expiresAt < now then ({} : TokenIntrospection) else r).active = true ↔
      revoked = false ∧ now ≤ expiresAt := by
  split
  · next dead =>
      refine iff_of_false (by simp) fun alive => ?_
      rcases dead with flagged | late
      · exact absurd (flagged.symm.trans alive.1) (by decide)
      · omega
  · next alive =>
      refine iff_of_true live ⟨?_, ?_⟩
      · simpa using fun flagged => alive (.inl flagged)
      · exact Int.not_lt.mp fun late => alive (.inr late)

/-! ### Memory -/

theorem active_memory (access : NoRefreshToken crypto db token) :
    Active svc grants crypto m db token .memory ↔
      ∃ a, db.accessTokens.find? (hashToken crypto token) = some a ∧ a.revoked = false ∧
        m.seconds ≤ a.expiresAt := by
  rw [active_iff]
  change (MemoryTokenRepository.introspectToken m (hashToken crypto token) db).1.active = true ↔ _
  unfold MemoryTokenRepository.introspectToken
  cases found : db.accessTokens.find? (hashToken crypto token) with
  | none => simp [access found]
  | some a =>
      simp only [apply_ite Prod.fst, judged_active, Option.some.injEq, exists_eq_left']

theorem accepted_memory :
    Accepted svc grants crypto m db token .memory ↔
      ∃ a, db.accessTokens.find? (hashToken crypto token) = some a ∧ a.revoked = false ∧
        m.seconds < a.expiresAt := by
  rw [accepted_iff]
  change (∃ a, (MemoryTokenRepository.getAccessToken m (hashToken crypto token) db).1 = some a ∧
    a.revoked = false ∧ m.seconds ≤ a.expiresAt) ↔ _
  unfold MemoryTokenRepository.getAccessToken
  cases found : db.accessTokens.find? (hashToken crypto token) with
  | none => simp
  | some a =>
      dsimp only
      by_cases live : a.expiresAt > m.seconds ∧ a.revoked = false
      · rw [if_pos live]
        exact iff_of_true ⟨a, rfl, live.2, Int.le_of_lt live.1⟩ ⟨a, rfl, live.2, live.1⟩
      · rw [if_neg live]
        refine iff_of_false (by simp) ?_
        intro found
        obtain ⟨b, same, fresh, later⟩ := found
        cases same
        exact live ⟨later, fresh⟩

/-- The strict comparison of `getAccessToken` matters in one second only. -/
theorem agrees_memory_iff (access : NoRefreshToken crypto db token) :
    (Active svc grants crypto m db token .memory ↔ Accepted svc grants crypto m db token .memory) ↔
      ¬ ExpiresNow crypto m db token := by
  rw [active_memory access, accepted_memory]
  constructor
  · intro agree now
    obtain ⟨a, found, fresh, expires⟩ := now
    obtain ⟨b, found', -, later⟩ := agree.mp ⟨a, found, fresh, by omega⟩
    cases found.symm.trans found'
    omega
  · intro not
    constructor
    · intro active
      obtain ⟨a, found, fresh, due⟩ := active
      have other : a.expiresAt ≠ m.seconds := fun expires => not ⟨a, found, fresh, expires⟩
      exact ⟨a, found, fresh, by omega⟩
    · intro accepted
      obtain ⟨a, found, fresh, later⟩ := accepted
      exact ⟨a, found, fresh, Int.le_of_lt later⟩

/-! ### Postgres -/

theorem active_postgres (access : NoRefreshToken crypto db token) :
    Active svc grants crypto m db token .postgres ↔
      m.fault = false ∧ ∃ a, db.accessTokens.find? (hashToken crypto token) = some a ∧
        a.revoked = false ∧ m.seconds ≤ a.expiresAt := by
  rw [active_iff]
  cases fault : m.fault with
  | true =>
      -- the server refuses both look-ups
      simp [TokenBackend.introspectToken, PostgresTokenRepository.introspectToken, nowSeconds, ask,
        sql, Prog.call, execOp, SqlOp.exec, fault, SqlOp.refused]
  | false =>
      cases found : db.accessTokens.find? (hashToken crypto token) with
      | none =>
          simp [TokenBackend.introspectToken, PostgresTokenRepository.introspectToken, nowSeconds,
            ask, sql, Prog.call, execOp, SqlOp.exec, fault, SqlOp.effect, Sql.selectAccess, found,
            Sql.selectRefresh, access found]
      | some a =>
          change (((PostgresTokenRepository.introspectToken (hashToken crypto token)).run
            (execOp m) db).1).active = true ↔ _
          rw [PostgresTokenRepository.introspectToken_run fault found, judged_active rfl]
          simp

theorem accepted_postgres :
    Accepted svc grants crypto m db token .postgres ↔
      m.fault = false ∧ ∃ a, db.accessTokens.find? (hashToken crypto token) = some a ∧
        a.revoked = false ∧ m.seconds ≤ a.expiresAt := by
  rw [accepted_iff]
  cases fault : m.fault with
  | true =>
      simp [TokenBackend.repository, postgresTokenRepository,
        PostgresTokenRepository.getAccessToken, sql, Prog.call, execOp, SqlOp.exec, fault,
        SqlOp.refused]
  | false =>
      cases found : db.accessTokens.find? (hashToken crypto token) <;>
        simp [TokenBackend.repository, postgresTokenRepository,
          PostgresTokenRepository.getAccessToken, sql, Prog.call, execOp, SqlOp.exec, fault,
          SqlOp.effect, Sql.selectAccess, found]

theorem agrees_postgres (access : NoRefreshToken crypto db token) :
    Active svc grants crypto m db token .postgres ↔
      Accepted svc grants crypto m db token .postgres := by
  rw [active_postgres access, accepted_postgres]

end Store

/-! ### Redis -/

section Redis

variable (crypto : CryptoProvider) (m : RedisMoment) (keys : RedisTokenKeys) (token : String)

/-- The Redis repository reports the token as active. -/
def ActiveRedis : Prop :=
  ∃ r, ((RedisTokenRepository.introspectToken (hashToken crypto token)).run
    (execRedisToken m) keys).1 = .ok r ∧ r.active = true

/-- The Redis repository validates the token. -/
def AcceptedRedis : Prop :=
  ∃ a, ((RedisTokenRepository.validateAccessToken crypto token).run
    (execRedisToken m) keys).1 = .ok (some a)

variable {crypto m keys token}

/-- Validation judges what the repository has answered. -/
theorem validateRedis_run {t : Option OAuth2AccessToken}
    (got : (RedisTokenRepository.getAccessToken (hashToken crypto token)).run (execRedisToken m)
      keys = (.ok t, keys)) :
    ((RedisTokenRepository.validateAccessToken crypto token).run (execRedisToken m) keys).1 =
      .ok ((TokenService.accepted (redisToken .clock) t).run (execRedisToken m) keys).1 := by
  rw [RedisTokenRepository.validateAccessToken, Prog.run_bind, got]
  exact congrArg Prod.fst (Prog.run_bind ..)

/-- Both read one entry, and each compares its expiry with the clock in its own words. -/
theorem agrees_redis (all : RedisTokenRepository.AllWellFormed keys) :
    ActiveRedis crypto m keys token ↔ AcceptedRedis crypto m keys token := by
  unfold ActiveRedis AcceptedRedis
  by_cases there : ∃ json, RedisTokenRepository.answer m keys (hashToken crypto token) =
      some (some json)
  · obtain ⟨json, found⟩ := there
    obtain ⟨members, rfl, typed⟩ := RedisTokenRepository.wellFormed_of_get all found
    obtain ⟨revoked, flag⟩ := RedisTokenRepository.boolAt_of_typed typed (k := "revoked") rfl
    obtain ⟨expiresAt, expiry⟩ := RedisTokenRepository.intAt_of_typed typed (k := "expires_at") rfl
    obtain ⟨r, introspected, active⟩ :=
      RedisTokenRepository.readIntrospection_ok typed m.seconds flag expiry
    obtain ⟨a, read, rfl, rfl⟩ :=
      RedisTokenRepository.readAccessToken_ok typed (hashToken crypto token) flag expiry
    have got : (RedisTokenRepository.getAccessToken (hashToken crypto token)).run
        (execRedisToken m) keys = (.ok (some a), keys) := by
      rw [RedisTokenRepository.getAccessToken_found found, read]
      rfl
    have accepts : ((TokenService.accepted (redisToken .clock) (some a)).run (execRedisToken m)
        keys).1.isSome = true ↔ a.revoked = false ∧ m.seconds ≤ a.expiresAt := by
      rw [accepted_isSome]
      simp only [Option.some.injEq, exists_eq_left']
      rfl
    rw [RedisTokenRepository.introspectToken_found found, introspected, validateRedis_run got]
    simp only [Except.ok.injEq, exists_eq_left', ← Option.isSome_iff_exists, accepts, active,
      not_or, Bool.not_eq_true, Int.not_lt]
  · have absent : ∀ json, RedisTokenRepository.answer m keys (hashToken crypto token) ≠
        some (some json) := fun json found => there ⟨json, found⟩
    rw [RedisTokenRepository.introspectToken_absent absent,
      validateRedis_run (RedisTokenRepository.getAccessToken_absent absent)]
    simp [TokenService.accepted]

end Redis

/-! ## Agreement -/

/-- Introspection and validation agree on the Postgres and the Redis repository, and on
the memory repository exactly outside the second in which the token expires. -/
theorem introspection_agrees_iff (svc : TokenService) (grants : GrantBackend)
    (crypto : CryptoProvider) :
    (∀ m db token, NoRefreshToken crypto db token →
        ((Active svc grants crypto m db token .memory ↔
            Accepted svc grants crypto m db token .memory) ↔ ¬ ExpiresNow crypto m db token) ∧
          (Active svc grants crypto m db token .postgres ↔
            Accepted svc grants crypto m db token .postgres)) ∧
      ∀ (ι : Type) [DecidableEq ι] (env : Nat → RedisMoment) (calls : ι → RedisTokenRepository.Call)
        (sched : List ι) (m : RedisMoment) (token : String),
        ActiveRedis crypto m (RedisTokenRepository.runCalls env calls sched).store.db token ↔
          AcceptedRedis crypto m
            (RedisTokenRepository.runCalls env calls sched).store.db token := by
  constructor
  · intro m db token access
    exact ⟨agrees_memory_iff access, agrees_postgres access⟩
  · intro ι _ env calls sched m token
    exact agrees_redis (RedisTokenRepository.run_wellFormed env calls sched)

/-- A code is issued and exchanged in second 1000. -/
def sampleCalls : Bool → Call
  | false => .generateAuthorizationCode "app" "alice" "openid" "" "" "" "" 0 "" none
  | true => .exchangeCodeForToken (Sample.drawn 0) "app" "" "" ""

/-- The store after an exchange. -/
def sampleDb : Db :=
  (runCalls (Sample.envAt 1000) (Sample.service.over .memory .memory Sample.crypto) sampleCalls
    Sample.db (List.replicate 3 false ++ List.replicate 7 true)).store.db

theorem introspection_agrees_iff_exchanged :
    NoRefreshToken Sample.crypto sampleDb (Sample.drawn 6) ∧
      (Active Sample.service .memory Sample.crypto { now := 4599000 } sampleDb
          (Sample.drawn 6) .memory ↔
        Accepted Sample.service .memory Sample.crypto { now := 4599000 } sampleDb
          (Sample.drawn 6) .memory) := by
  have access : NoRefreshToken Sample.crypto sampleDb (Sample.drawn 6) := by
    unfold NoRefreshToken
    decide
  have row : sampleDb.accessTokens.find? (hashToken Sample.crypto (Sample.drawn 6)) =
      some { token := Sample.drawn 6, clientId := "app", userId := "alice", scope := "openid"
             expiresAt := 4600, issuedAt := 1000, issuer := "https://id.example"
             audience := "app", notBefore := 1000 } := by
    decide
  refine ⟨access, ((introspection_agrees_iff Sample.service .memory Sample.crypto).1
    { now := 4599000 } _ _ access).1.mpr fun now => ?_⟩
  obtain ⟨a, found, -, expires⟩ := now
  cases row.symm.trans found
  exact absurd expires (by decide)

/-- In the second in which it expires the token is active and not accepted. -/
theorem active_but_not_accepted :
    Active Sample.service .memory Sample.crypto { now := 4600000 } sampleDb
        (Sample.drawn 6) .memory ∧
      ¬ Accepted Sample.service .memory Sample.crypto { now := 4600000 } sampleDb
        (Sample.drawn 6) .memory := by
  constructor
  · exact ⟨_, rfl, by decide⟩
  · unfold Accepted
    decide

end Introspection

end Fulla
