import Fulla.Cache.CachedTokens
import Fulla.Conc.Checks
import Fulla.Protocol.Introspection

/-!
# What the introspection endpoint answers

`TokenEndpointController::introspect` after the caller has authenticated.  The verdict
is formed in three places (the wiring of the service, the token store, the status of
the client's owner), and one builder writes the members of every answer that comes with
an introspection, active or not.  So an inactive answer has other members than `active`
as soon as the service is wired.
-/

namespace Fulla

open Conc

/-! ## The stores -/

/-- What a method of the token cache calls back with while the cache server and the wrapped
repository answer like this. -/
def TokenTask.answer (answers : (o : TokenCacheSig.Op) → TokenCacheSig.Res o) :
    TokenTask → Option TokenAnswer
  | .done => none
  | .op (.callback _ a) _ => some a
  | .op o next => TokenTask.answer answers (next (answers o))
  | .fork _ next => TokenTask.answer answers next

/-- A token store and the state it is in when the token is looked up. -/
inductive TokenStore where
  | memory (m : Moment) (db : Db)
  | postgres (m : Moment) (db : Db)
  | redis (m : RedisMoment) (keys : RedisTokenKeys)
  /-- The token cache over Postgres; the cache server may refuse the commands. -/
  | cached (cfg : TokenCache) (clock : Nat) (refused : Bool) (keys : CacheKeys) (m : Moment)
      (db : Db)

namespace TokenStore

/-- `getStorageType()`. -/
def storageType : TokenStore → String
  | memory _ _ => "memory"
  | postgres _ _ => "postgres"
  | redis _ _ => "redis"
  | cached _ _ _ _ _ _ => "postgres"

/-- The single operations of the cache and what is around it. -/
def cacheAnswers (clock : Nat) (refused : Bool) (keys : CacheKeys) (m : Moment) (db : Db) :
    (o : TokenCacheSig.Op) → TokenCacheSig.Res o
  | .redis c => if refused then c.failure else (c.exec clock keys).1
  | .impl (.getAccessToken token) =>
    ((PostgresTokenRepository.getAccessToken token).run (execOp m) db).1
  | .impl (.introspectToken token) =>
    some ((PostgresTokenRepository.introspectToken token).run (execOp m) db).1
  | .impl (.revokeAccessToken _ _) => ()
  | .impl (.saveAccessToken _) => ()
  | .time => m.seconds
  | .loopTime => clock
  | .timer _ => ()
  | .callback _ _ => ()

/-- `introspectToken` of the repository; `none` when an exception keeps it from calling
back. -/
def introspectToken : TokenStore → String → Option (Option TokenIntrospection)
  | memory m db, token =>
    some (some ((TokenBackend.memory.introspectToken token).run (execOp m) db).1)
  | postgres m db, token =>
    some (some ((TokenBackend.postgres.introspectToken token).run (execOp m) db).1)
  | redis m keys, token =>
    match ((RedisTokenRepository.introspectToken token).run (execRedisToken m) keys).1 with
    | .ok r => some (some r)
    | .error _ => none
  | cached cfg clock refused keys m db, token =>
    match TokenTask.answer (cacheAnswers clock refused keys m db)
      (RedisCachedTokenRepository.introspectToken cfg 0 token) with
    | some (.introspection _ r) => some r
    | _ => none

end TokenStore

namespace TokenService

/-- `TokenService::introspectToken` over any of the stores. -/
def introspectIn (svc : TokenService) (store : TokenStore) (token : String) :
    Option (Option TokenIntrospection) :=
  match svc.tokens, svc.crypto with
  | some _, some crypto => store.introspectToken (hashToken crypto token)
  | _, _ => some none

theorem introspectToken_wired {svc : TokenService} {tokens : TokenRepository}
    {crypto : CryptoProvider} (repository : svc.tokens = some tokens)
    (wired : svc.crypto = some crypto) (backend : TokenBackend) (token : String) (m : Moment)
    (db : Db) :
    ((svc.introspectToken backend token).run (execOp m) db).1 =
      some ((backend.introspectToken (hashToken crypto token)).run (execOp m) db).1 := by
  unfold introspectToken
  rw [repository, wired]
  exact congrArg Prod.fst (Prog.run_bind ..)

/-- Over a database the method is the program of the service. -/
theorem introspectIn_run (svc : TokenService) (token : String) (m : Moment) (db : Db) :
    svc.introspectIn (.memory m db) token =
        some ((svc.introspectToken .memory token).run (execOp m) db).1 ∧
      svc.introspectIn (.postgres m db) token =
        some ((svc.introspectToken .postgres token).run (execOp m) db).1 := by
  unfold introspectIn
  cases repository : svc.tokens with
  | none => simp [introspectToken, repository]
  | some tokens =>
      cases wired : svc.crypto with
      | none => simp [introspectToken, repository, wired]
      | some crypto =>
          rw [introspectToken_wired repository wired, introspectToken_wired repository wired]
          exact ⟨rfl, rfl⟩

end TokenService

/-! ## The endpoint -/

namespace TokenEndpointController

/-- `if (given) response[k] = v;` -/
def withMember (given : Bool) (k : String) (v : Json) (response : Json) : Json :=
  if given then response.set k v else response

/-- The builder of the source's `respondWith`; `cfgIssuer` is the configured issuer. -/
def respondWith (cfgIssuer : String) (introspection : TokenIntrospection) (active : Bool) : Json :=
  let response := Json.null.set "active" (.bool active)
  let response := response.set "client_id" (.str introspection.clientId)
  let response := response.set "token_type" (.str "Bearer")
  let response := withMember (introspection.exp > 0) "exp" (.int introspection.exp) response
  let response := withMember (introspection.iat > 0) "iat" (.int introspection.iat) response
  let response := withMember (introspection.nbf > 0) "nbf" (.int introspection.nbf) response
  let response := withMember (introspection.sub ≠ "") "sub" (.str introspection.sub) response
  let response :=
    match introspection.orgId with
    | some orgId => response.set "org_id" (.int orgId)
    | none => response
  let response := withMember (introspection.aud ≠ "") "aud" (.str introspection.aud) response
  let response :=
    if introspection.iss ≠ "" then response.set "iss" (.str introspection.iss)
    else withMember (cfgIssuer ≠ "") "iss" (.str cfgIssuer) response
  withMember (introspection.scope ≠ "") "scope" (.str introspection.scope) response

/-- The callback of `introspectToken`.  `ownerStatus` is what `lookupOwnerStatus` answers;
nothing, for a client without an owner or when it fails, leaves the token active. -/
def onIntrospection (cfgIssuer storageType : String) (ownerStatus : String → Option String) :
    Option TokenIntrospection → Json
  | none => Json.null.set "active" (.bool false)
  | some introspection =>
    if !introspection.active then respondWith cfgIssuer introspection false
    else if storageType ≠ "memory" then
      let suspended :=
        match ownerStatus introspection.clientId with
        | some status => decide (status ≠ "active")
        | none => false
      respondWith cfgIssuer introspection !suspended
    else respondWith cfgIssuer introspection true

/-- The body of the answer, if there is one. -/
def introspect (svc : TokenService) (cfgIssuer : String) (store : TokenStore)
    (ownerStatus : String → Option String) (token : String) : Option Json :=
  (svc.introspectIn store token).map (onIntrospection cfgIssuer store.storageType ownerStatus)

/-! ## The members of an answer -/

section Members

variable {given : Bool} {k k' : String} {v response : Json}

theorem get_withMember (other : k' ≠ k) :
    (withMember given k v response).get k' = response.get k' := by
  unfold withMember
  split
  · rw [Json.get_set, if_neg other]
  · rfl

theorem isMember_withMember :
    (withMember given k v response).isMember k' = true ↔
      (given = true ∧ k' = k) ∨ response.isMember k' = true := by
  unfold withMember
  split
  · next given => simp [Json.isMember_set, given]
  · next absent => simp [absent]

end Members

theorem get_active_respondWith (cfgIssuer : String) (introspection : TokenIntrospection)
    (active : Bool) : (respondWith cfgIssuer introspection active).get "active" = .bool active := by
  unfold respondWith
  cases introspection.orgId <;> by_cases iss : introspection.iss ≠ "" <;>
    simp [get_withMember, Json.get_set, iss]

/-- Whatever the verdict, the client is named. -/
theorem isMember_respondWith (cfgIssuer : String) (introspection : TokenIntrospection)
    (active : Bool) : (respondWith cfgIssuer introspection active).isMember "client_id" = true := by
  unfold respondWith
  cases introspection.orgId <;> by_cases iss : introspection.iss ≠ "" <;>
    simp [isMember_withMember, Json.isMember_set, iss]

end TokenEndpointController

/-! ## What a store says of a token -/

/-- The row of the name, an access token's before a refresh token's, is the client's, not
revoked and not expired. -/
def Db.Vouches (db : Db) (seconds : Int) (token client : String) : Prop :=
  match db.accessTokens.find? token with
  | some a => a.revoked = false ∧ seconds ≤ a.expiresAt ∧ a.clientId = client
  | none =>
    ∃ r, db.refreshTokens.find? token = some r ∧ r.revoked = false ∧ seconds ≤ r.expiresAt ∧
      r.clientId = client

namespace TokenStore

/-- What the cache server has for the introspection of a token; nothing without a server. -/
def cacheLookup (cfg : TokenCache) (clock : Nat) (refused : Bool) (keys : CacheKeys)
    (token : String) : Option RevokedThenGet :=
  if cfg.redisClient = true ∧ refused = false then
    ((RedisCommand.revokedThenGet (RedisCachedTokenRepository.revokedKey token)
      (RedisCachedTokenRepository.introspectKey token)).exec clock keys).1
  else none

/-- The store holds the token as a live one of the client. -/
def Live : TokenStore → String → String → Prop
  | memory m db, token, client => db.Vouches m.seconds token client
  | postgres m db, token, client => m.fault = false ∧ db.Vouches m.seconds token client
  | redis m keys, token, client =>
    ∃ json expiresAt, RedisTokenRepository.answer m keys token = some (some json) ∧
      json ≠ .null ∧ json.boolAt "revoked" = .ok false ∧ json.intAt "expires_at" = .ok expiresAt ∧
      m.seconds ≤ expiresAt ∧ json.textAt "client_id" = .ok client
  | cached cfg clock refused keys m db, token, client =>
    match cacheLookup cfg clock refused keys token with
    | some .revoked => False
    | some (.value v) =>
      match RedisCachedTokenRepository.deserializeIntrospection cfg.json v with
      | .error _ => False
      | .ok (some r) => r.active = true ∧ r.clientId = client
      | .ok none => m.fault = false ∧ db.Vouches m.seconds token client
    | _ => m.fault = false ∧ db.Vouches m.seconds token client

/-- Reading the entry of the token raises an exception, so nothing is answered. -/
def Unreadable : TokenStore → String → Prop
  | memory _ _, _ => False
  | postgres _ _, _ => False
  | redis m keys, token =>
    ∃ json what, RedisTokenRepository.answer m keys token = some (some json) ∧ json ≠ .null ∧
      RedisTokenRepository.readIntrospection m.seconds json = .error what
  | cached cfg clock refused keys _ _, token =>
    ∃ v what, cacheLookup cfg clock refused keys token = some (.value v) ∧
      RedisCachedTokenRepository.deserializeIntrospection cfg.json v = .error what

/-- The store gives no answer, or an introspection that is active just for a live token. -/
def Judges (store : TokenStore) (token : String) : Prop :=
  (store.introspectToken token = none ∧ store.Unreadable token) ∨
    ∃ r, store.introspectToken token = some (some r) ∧ ¬ store.Unreadable token ∧
      ∀ client, store.Live token client ↔ r.active = true ∧ r.clientId = client

/-! ### Rows -/

theorem judged_iff {revoked : Bool} {expiresAt now : Int} {r : TokenIntrospection}
    {client : String} (live : r.active = true) :
    ((if revoked = true ∨ expiresAt < now then ({} : TokenIntrospection) else r).active = true ∧
        (if revoked = true ∨ expiresAt < now then ({} : TokenIntrospection) else r).clientId =
          client) ↔
      revoked = false ∧ now ≤ expiresAt ∧ r.clientId = client := by
  by_cases dead : revoked = true ∨ expiresAt < now
  · rw [if_pos dead]
    refine iff_of_false (by simp) ?_
    intro held
    obtain ⟨fresh, due, -⟩ := held
    rcases dead with flagged | late
    · exact absurd (flagged.symm.trans fresh) (by decide)
    · omega
  · rw [if_neg dead]
    obtain ⟨fresh, due⟩ : revoked = false ∧ now ≤ expiresAt := by simpa [not_or] using dead
    simp [fresh, due, live]

theorem vouches_memory (m : Moment) (db : Db) (token client : String) :
    db.Vouches m.seconds token client ↔
      (MemoryTokenRepository.introspectToken m token db).1.active = true ∧
        (MemoryTokenRepository.introspectToken m token db).1.clientId = client := by
  unfold Db.Vouches MemoryTokenRepository.introspectToken
  cases db.accessTokens.find? token with
  | some a =>
      simp only [apply_ite Prod.fst]
      exact Iff.symm (judged_iff rfl)
  | none =>
      cases db.refreshTokens.find? token with
      | none => simp
      | some r =>
          simp only [apply_ite Prod.fst, Option.some.injEq, exists_eq_left']
          exact Iff.symm (judged_iff rfl)

/-- Postgres judges the rows like the memory repository, as long as it answers. -/
theorem postgres_run (m : Moment) (db : Db) (token : String) :
    ((PostgresTokenRepository.introspectToken token).run (execOp m) db).1 =
      if m.fault = true then {} else (MemoryTokenRepository.introspectToken m token db).1 := by
  cases fault : m.fault with
  | true =>
      simp [PostgresTokenRepository.introspectToken, nowSeconds, ask, sql, Prog.call, execOp,
        SqlOp.exec, fault, SqlOp.refused]
  | false =>
      unfold MemoryTokenRepository.introspectToken
      cases found : db.accessTokens.find? token with
      | some a =>
          rw [PostgresTokenRepository.introspectToken_run fault found, if_neg Bool.false_ne_true,
            apply_ite Prod.fst]
          rfl
      | none =>
          cases refresh : db.refreshTokens.find? token with
          | none =>
              simp [PostgresTokenRepository.introspectToken, nowSeconds, ask, sql, Prog.call,
                execOp, SqlOp.exec, fault, SqlOp.effect, Sql.selectAccess, found,
                Sql.selectRefresh, refresh]
          | some r =>
              simp [PostgresTokenRepository.introspectToken, nowSeconds, ask, sql, Prog.call,
                execOp, SqlOp.exec, fault, SqlOp.effect, Sql.selectAccess, found,
                Sql.selectRefresh, refresh, EnvOp.answer, apply_ite Prod.fst]
              rfl

theorem vouches_postgres (m : Moment) (db : Db) (token client : String) :
    (m.fault = false ∧ db.Vouches m.seconds token client) ↔
      ((PostgresTokenRepository.introspectToken token).run (execOp m) db).1.active = true ∧
        ((PostgresTokenRepository.introspectToken token).run (execOp m) db).1.clientId =
          client := by
  rw [postgres_run, vouches_memory]
  cases m.fault <;> simp

/-! ### Entries -/

theorem judges_memory (m : Moment) (db : Db) (token : String) : (memory m db).Judges token :=
  .inr ⟨_, rfl, not_false, vouches_memory m db token⟩

theorem judges_postgres (m : Moment) (db : Db) (token : String) : (postgres m db).Judges token :=
  .inr ⟨_, rfl, not_false, vouches_postgres m db token⟩

/-- An entry that can be read says itself whether it is live. -/
theorem readIntrospection_judges {now : Int} {json : Json} {r : TokenIntrospection}
    (read : RedisTokenRepository.readIntrospection now json = .ok r) (client : String) :
    (∃ expiresAt, json.boolAt "revoked" = .ok false ∧ json.intAt "expires_at" = .ok expiresAt ∧
        now ≤ expiresAt ∧ json.textAt "client_id" = .ok client) ↔
      r.active = true ∧ r.clientId = client := by
  obtain ⟨revoked, flag, read⟩ := Conc.bind_eq_ok.mp read
  obtain ⟨expiresAt, expiry, read⟩ := Conc.bind_eq_ok.mp read
  simp only [flag, expiry, Except.ok.injEq]
  by_cases dead : revoked = true ∨ expiresAt < now
  · cases (if_pos dead).symm.trans read
    refine iff_of_false ?_ (by simp)
    intro held
    obtain ⟨_, fresh, rfl, due, -⟩ := held
    rcases dead with flagged | late
    · exact absurd (flagged.symm.trans fresh) (by decide)
    · omega
  · obtain ⟨clientId, named, read⟩ := Conc.bind_eq_ok.mp ((if_neg dead).symm.trans read)
    obtain ⟨issuedAt, -, read⟩ := Conc.bind_eq_ok.mp read
    obtain ⟨issuer, -, read⟩ := Conc.bind_eq_ok.mp read
    obtain ⟨audience, -, read⟩ := Conc.bind_eq_ok.mp read
    obtain ⟨notBefore, -, read⟩ := Conc.bind_eq_ok.mp read
    obtain ⟨userId, -, read⟩ := Conc.bind_eq_ok.mp read
    obtain ⟨scope, -, read⟩ := Conc.bind_eq_ok.mp read
    obtain ⟨orgId, -, read⟩ := Conc.bind_eq_ok.mp read
    cases read
    obtain ⟨fresh, due⟩ : revoked = false ∧ now ≤ expiresAt := by simpa [not_or] using dead
    simp [fresh, due, named]

theorem introspectToken_entry {m : RedisMoment} {keys : RedisTokenKeys} {token : String}
    {json : Json} (found : RedisTokenRepository.answer m keys token = some (some json))
    (there : json ≠ .null) :
    ((RedisTokenRepository.introspectToken token).run (execRedisToken m) keys).1 =
      RedisTokenRepository.readIntrospection m.seconds json := by
  simp only [RedisTokenRepository.introspectToken, redisToken, Prog.call, Prog.op_bind, Prog.run_op]
  rw [show (execRedisToken m (.get (RedisTokenRepository.tokenKey token)) keys).1 = _ from found]
  cases json with
  | null => exact absurd rfl there
  | _ => rfl

theorem introspectToken_noEntry {m : RedisMoment} {keys : RedisTokenKeys} {token : String}
    (none : ∀ json, RedisTokenRepository.answer m keys token = some (some json) → json = .null) :
    ((RedisTokenRepository.introspectToken token).run (execRedisToken m) keys).1 = .ok {} := by
  simp only [RedisTokenRepository.introspectToken, redisToken, Prog.call, Prog.op_bind, Prog.run_op]
  rcases found : (execRedisToken m (.get (RedisTokenRepository.tokenKey token)) keys).1 with
    _ | _ | json
  · rfl
  · rfl
  · rw [none json found]
    rfl

theorem judges_redis (m : RedisMoment) (keys : RedisTokenKeys) (token : String) :
    (redis m keys).Judges token := by
  unfold Judges introspectToken Unreadable Live
  by_cases entry : ∃ json, RedisTokenRepository.answer m keys token = some (some json) ∧
      json ≠ .null
  · obtain ⟨json, found, there⟩ := entry
    simp only [introspectToken_entry found there]
    simp only [found, Option.some.injEq]
    cases read : RedisTokenRepository.readIntrospection m.seconds json with
    | error what => exact .inl ⟨rfl, json, what, rfl, there, read⟩
    | ok r =>
        refine .inr ⟨r, rfl, ?_, fun client => ?_⟩
        · rintro ⟨_, what, rfl, -, raised⟩
          cases read.symm.trans raised
        · rw [← readIntrospection_judges read]
          constructor
          · rintro ⟨_, expiresAt, rfl, -, rest⟩
            exact ⟨expiresAt, rest⟩
          · rintro ⟨expiresAt, rest⟩
            exact ⟨json, expiresAt, rfl, there, rest⟩
  · have none : ∀ json, RedisTokenRepository.answer m keys token = some (some json) →
        json = .null := fun json found => by_contra fun there => entry ⟨json, found, there⟩
    simp only [introspectToken_noEntry none]
    refine .inr ⟨{}, rfl, ?_, fun client => iff_of_false ?_ (by simp)⟩
    · rintro ⟨json, what, found, there, -⟩
      exact there (none json found)
    · rintro ⟨json, expiresAt, found, there, -⟩
      exact there (none json found)

/-- A miss is answered by the wrapped repository; the filling is not waited for. -/
theorem answer_introspectAndFill (cfg : TokenCache)
    (answers : (o : TokenCacheSig.Op) → TokenCacheSig.Res o) (token : String) :
    TokenTask.answer answers (RedisCachedTokenRepository.introspectAndFill cfg 0 token) =
      some (.introspection token (answers (.impl (.introspectToken token)))) := by
  simp only [RedisCachedTokenRepository.introspectAndFill, TokenTask.answer]
  cases answers (.impl (.introspectToken token)) with
  | none => rfl
  | some r =>
      dsimp only
      split <;> rfl

theorem answer_lookup (cfg : TokenCache) (clock : Nat) (refused : Bool) (keys : CacheKeys)
    (m : Moment) (db : Db) (token : String) :
    TokenTask.answer (cacheAnswers clock refused keys m db)
        (RedisCachedTokenRepository.introspectToken cfg 0 token) =
      TokenTask.answer (cacheAnswers clock refused keys m db)
        (RedisCachedTokenRepository.onIntrospectionLookup cfg 0 token
          (cacheLookup cfg clock refused keys token)) := by
  unfold RedisCachedTokenRepository.introspectToken cacheLookup
  cases cfg.redisClient with
  | false => rfl
  | true => cases refused <;> rfl

/-- The cached method calls back with what the cache has, or with the answer of Postgres. -/
theorem introspectToken_cached (cfg : TokenCache) (clock : Nat) (refused : Bool)
    (keys : CacheKeys) (m : Moment) (db : Db) (token : String) :
    (cached cfg clock refused keys m db).introspectToken token =
      match cacheLookup cfg clock refused keys token with
      | some .revoked => some (some {})
      | some (.value v) =>
        match RedisCachedTokenRepository.deserializeIntrospection cfg.json v with
        | .error _ => none
        | .ok (some r) => some (some r)
        | .ok none =>
          some (some ((PostgresTokenRepository.introspectToken token).run (execOp m) db).1)
      | _ => some (some ((PostgresTokenRepository.introspectToken token).run (execOp m) db).1) := by
  rw [introspectToken, answer_lookup]
  rcases cacheLookup cfg clock refused keys token with _ | _ | v | _
  · rfl
  · rfl
  · rw [RedisCachedTokenRepository.onIntrospectionLookup]
    dsimp only
    rcases RedisCachedTokenRepository.deserializeIntrospection cfg.json v with _ | _ | r
    · rfl
    · dsimp only
      rw [answer_introspectAndFill]
      rfl
    · rfl
  · rw [RedisCachedTokenRepository.onIntrospectionLookup, answer_introspectAndFill]
    rfl

theorem judges_cached (cfg : TokenCache) (clock : Nat) (refused : Bool) (keys : CacheKeys)
    (m : Moment) (db : Db) (token : String) :
    (cached cfg clock refused keys m db).Judges token := by
  simp only [Judges, introspectToken_cached, Live, Unreadable]
  rcases cacheLookup cfg clock refused keys token with _ | _ | v | _
  · exact .inr ⟨_, rfl, by simp, vouches_postgres m db token⟩
  · exact .inr ⟨{}, rfl, by simp, fun client => by simp⟩
  · dsimp only
    cases read : RedisCachedTokenRepository.deserializeIntrospection cfg.json v with
    | error what => exact .inl ⟨rfl, v, what, rfl, read⟩
    | ok entry =>
        have readable : ¬ ∃ v' what, some (RevokedThenGet.value v) = some (.value v') ∧
            RedisCachedTokenRepository.deserializeIntrospection cfg.json v' = .error what := by
          rintro ⟨_, what, same, raised⟩
          cases same
          cases read.symm.trans raised
        cases entry with
        | none => exact .inr ⟨_, rfl, readable, vouches_postgres m db token⟩
        | some r => exact .inr ⟨r, rfl, readable, fun client => Iff.rfl⟩
  · exact .inr ⟨_, rfl, by simp, vouches_postgres m db token⟩

/-- Every store judges the tokens by what it holds. -/
theorem judges (store : TokenStore) (token : String) : store.Judges token := by
  cases store with
  | memory m db => exact judges_memory m db token
  | postgres m db => exact judges_postgres m db token
  | redis m keys => exact judges_redis m keys token
  | cached cfg clock refused keys m db => exact judges_cached cfg clock refused keys m db token

end TokenStore

/-! ## Inactive answers -/

namespace TokenEndpointController

/-- An answer that says `active = false` says nothing else. -/
def Bare (body : Json) : Prop :=
  body.get "active" = .bool false → ∀ k, body.isMember k = true → k = "active"

/-- The overlay applies: the store is not the memory one, and the owner of the client has a
status other than `active`. -/
def Suspended (store : TokenStore) (ownerStatus : String → Option String) (client : String) :
    Prop :=
  store.storageType ≠ "memory" ∧ ∃ status, ownerStatus client = some status ∧ status ≠ "active"

/-- The service has no repository or no crypto provider, no answer is given at all, or the
token is a live one of a client that is not suspended. -/
def NothingToHide (svc : TokenService) (store : TokenStore) (ownerStatus : String → Option String)
    (token : String) : Prop :=
  svc.tokens = none ∨
    match svc.crypto with
    | none => True
    | some crypto =>
      store.Unreadable (hashToken crypto token) ∨
        ∃ client, store.Live (hashToken crypto token) client ∧ ¬ Suspended store ownerStatus client

theorem bare_unwired : Bare (Json.null.set "active" (.bool false)) := by
  intro _ k member
  rw [Json.isMember_set] at member
  exact member.resolve_right Bool.false_ne_true

/-- The builder's answer is bare only if it says that the token is active. -/
theorem bare_respondWith (cfgIssuer : String) (introspection : TokenIntrospection)
    (active : Bool) : Bare (respondWith cfgIssuer introspection active) ↔ active = true := by
  unfold Bare
  rw [get_active_respondWith]
  cases active with
  | true => simp
  | false =>
      refine iff_of_false (fun bare => ?_) Bool.false_ne_true
      exact absurd (bare rfl _ (isMember_respondWith ..)) (by decide)

/-- The overlay turns an active introspection into an inactive answer. -/
theorem onIntrospection_some (cfgIssuer : String) (store : TokenStore)
    (ownerStatus : String → Option String) (introspection : TokenIntrospection) :
    ∃ active, onIntrospection cfgIssuer store.storageType ownerStatus (some introspection) =
        respondWith cfgIssuer introspection active ∧
      (active = true ↔
        introspection.active = true ∧ ¬ Suspended store ownerStatus introspection.clientId) := by
  unfold onIntrospection Suspended
  cases live : introspection.active with
  | false => exact ⟨false, by simp [live], by simp⟩
  | true =>
      by_cases memory : store.storageType = "memory"
      · exact ⟨true, by simp [live, memory], by simp [memory]⟩
      · cases owner : ownerStatus introspection.clientId with
        | none => exact ⟨true, by simp [live, memory, owner], by simp⟩
        | some status =>
            exact ⟨decide (status = "active"), by simp [live, memory, owner], by simp [memory]⟩

/-- There is an answer that does not come from an introspection, none, or one whose verdict
is active just where there is nothing to hide. -/
theorem introspect_cases (svc : TokenService) (cfgIssuer : String) (store : TokenStore)
    (ownerStatus : String → Option String) (token : String) :
    (introspect svc cfgIssuer store ownerStatus token =
        some (Json.null.set "active" (.bool false)) ∧
      NothingToHide svc store ownerStatus token) ∨
    (introspect svc cfgIssuer store ownerStatus token = none ∧
      NothingToHide svc store ownerStatus token) ∨
    ∃ introspection active, introspect svc cfgIssuer store ownerStatus token =
        some (respondWith cfgIssuer introspection active) ∧
      (active = true ↔ NothingToHide svc store ownerStatus token) := by
  unfold introspect NothingToHide TokenService.introspectIn
  cases svc.tokens with
  | none => exact .inl ⟨rfl, .inl rfl⟩
  | some tokens =>
      cases svc.crypto with
      | none => exact .inl ⟨rfl, .inr trivial⟩
      | some crypto =>
          rcases store.judges (hashToken crypto token) with silent | judged
          · obtain ⟨silent, unreadable⟩ := silent
            exact .inr (.inl ⟨congrArg _ silent, .inr (.inl unreadable)⟩)
          · obtain ⟨r, answered, readable, live⟩ := judged
            obtain ⟨active, body, verdict⟩ := onIntrospection_some cfgIssuer store ownerStatus r
            refine .inr (.inr ⟨r, active, ?_, ?_⟩)
            · simp only [answered, Option.map_some, body]
            · simp [verdict, readable, live]

/-- The one inactive answer that is bare. -/
theorem inactive_body {svc : TokenService} {cfgIssuer : String} {store : TokenStore}
    {ownerStatus : String → Option String} {token : String} {body : Json}
    (hidden : NothingToHide svc store ownerStatus token)
    (answered : introspect svc cfgIssuer store ownerStatus token = some body)
    (inactive : body.get "active" = .bool false) :
    body = Json.null.set "active" (.bool false) := by
  rcases introspect_cases svc cfgIssuer store ownerStatus token with
    ⟨eq, -⟩ | ⟨silent, -⟩ | ⟨r, active, eq, verdict⟩
  · exact Option.some.inj (answered.symm.trans eq)
  · cases silent.symm.trans answered
  · cases eq.symm.trans answered
    rw [get_active_respondWith, verdict.mpr hidden] at inactive
    cases inactive

/-- An answer is bare exactly where there is nothing to hide, and the inactive answers of
two such states are the same. -/
theorem inactive_bare_iff (svc : TokenService) (cfgIssuer : String) (store : TokenStore)
    (ownerStatus : String → Option String) (token : String) :
    ((∀ body, introspect svc cfgIssuer store ownerStatus token = some body → Bare body) ↔
        NothingToHide svc store ownerStatus token) ∧
    ∀ (svc' : TokenService) (cfgIssuer' : String) (store' : TokenStore)
      (ownerStatus' : String → Option String) (token' : String),
      NothingToHide svc store ownerStatus token → NothingToHide svc' store' ownerStatus' token' →
      ∀ body body', introspect svc cfgIssuer store ownerStatus token = some body →
        introspect svc' cfgIssuer' store' ownerStatus' token' = some body' →
        body.get "active" = .bool false → body'.get "active" = .bool false → body = body' := by
  constructor
  · rcases introspect_cases svc cfgIssuer store ownerStatus token with
      ⟨answered, hidden⟩ | ⟨silent, hidden⟩ | ⟨r, active, answered, verdict⟩
    · refine iff_of_true (fun body eq => ?_) hidden
      cases answered.symm.trans eq
      exact bare_unwired
    · refine iff_of_true (fun body eq => ?_) hidden
      cases silent.symm.trans eq
    · rw [answered, ← verdict, ← bare_respondWith cfgIssuer r active]
      simp
  · intro svc' cfgIssuer' store' ownerStatus' token' hidden hidden' body body' answered answered'
      inactive inactive'
    rw [inactive_body hidden answered inactive, inactive_body hidden' answered' inactive']

/-- An access token of a client whose owner is suspended. -/
def suspendedDb : Db :=
  { Sample.db with
    accessTokens := Table.empty.assign
      { token := "T", clientId := "app", userId := "alice", scope := "openid", expiresAt := 10 } }

/-- The answers for a suspended and for an unknown token both name a client, and the first
names the user. -/
theorem suspended_answer_reveals :
    ∃ svc : TokenService, ∃ body body',
      introspect svc "https://id.example" (.postgres { now := 0 } suspendedDb)
          (fun _ => some "suspended") "T" = some body ∧
        body.get "active" = .bool false ∧ body.get "sub" = .str "alice" ∧
        introspect svc "https://id.example" (.postgres { now := 0 } suspendedDb)
          (fun _ => some "suspended") "U" = some body' ∧
        body'.get "active" = .bool false ∧ body'.isMember "client_id" = true ∧
        body'.isMember "sub" = false :=
  ⟨Sample.service.over .postgres .postgres Sample.crypto, _, _, rfl, rfl, rfl, rfl, rfl, rfl, rfl⟩

end TokenEndpointController

end Fulla
