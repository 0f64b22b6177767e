import Fulla.Protocol.RefreshFailure

/-!
# Authorization codes through Redis

A code is written as a JSON object, rewritten by the script that consumes it and read
into a record again.  The writer leaves out what is empty: the challenge method goes
with the challenge, and a time that is not positive is not written.  `ReadBack` lists
what comes back of the saved record; `ReadBack.checkCode` and `ReadBack.codeClaims` say
that the exchange cannot tell the two records apart.
-/

namespace Fulla.CodeRoundTrip

open Conc RedisFormat

/-- cjson prints the numbers of the code exactly. -/
def ExactNumbers (c : OAuth2AuthCode) : Prop :=
  Redis.cjsonNumber c.expiresAt = c.expiresAt ∧ Redis.cjsonNumber c.authTime = c.authTime ∧
    ∀ id, c.orgId = some id → Redis.cjsonNumber id = id

/-- `c'` is what the consumption of the saved code `c` delivers. -/
structure ReadBack (c c' : OAuth2AuthCode) : Prop where
  clientId : c'.clientId = c.clientId
  userId : c'.userId = c.userId
  scope : c'.scope = c.scope
  redirectUri : c'.redirectUri = c.redirectUri
  codeChallenge : c'.codeChallenge = c.codeChallenge
  codeChallengeMethod : c'.codeChallengeMethod =
    if c.codeChallenge = "" then "" else c.codeChallengeMethod
  nonce : c'.nonce = c.nonce
  authTime : c'.authTime = if c.authTime > 0 then c.authTime else 0
  amr : c'.amr = c.amr
  orgId : c'.orgId = c.orgId
  expiresAt : c'.expiresAt = c.expiresAt

/-- The checks of the exchange see no difference. -/
theorem ReadBack.checkCode {c c' : OAuth2AuthCode} (back : ReadBack c c')
    (crypto : CryptoProvider) (clientId codeVerifier : String) :
    TokenService.checkCode crypto clientId codeVerifier c' =
      TokenService.checkCode crypto clientId codeVerifier c := by
  unfold TokenService.checkCode
  rw [back.clientId, back.codeChallenge, back.codeChallengeMethod]
  by_cases empty : c.codeChallenge = ""
  · simp only [empty, if_true]
  · simp only [empty, if_false]

/-- Nor do the claims of the id token. -/
theorem ReadBack.codeClaims {c c' : OAuth2AuthCode} (back : ReadBack c c') (svc : TokenService)
    (orgCtx : Option OrgContextInfo) (now : Int) :
    svc.codeClaims c' orgCtx now = svc.codeClaims c orgCtx now := by
  unfold TokenService.codeClaims
  rw [back.userId, back.clientId, back.nonce, back.authTime, back.orgId, back.amr]
  by_cases known : c.authTime > 0
  · simp only [known, if_true]
  · simp only [known, if_false, gt_iff_lt, Int.lt_irrefl]

/-- The writer, the script and the reader one after the other. -/
theorem readBack_of_script {c : OAuth2AuthCode} (exact' : ExactNumbers c) (code : String) :
    ReadBack c { Redis.deserializeCode code
      (Redis.cjsonRoundTrip { Redis.serializeCode c with used := true }) with used := true } := by
  obtain ⟨expiry, time, org⟩ := exact'
  constructor
  all_goals simp only [Redis.deserializeCode, Redis.cjsonRoundTrip, Redis.serializeCode]
  case codeChallenge => split <;> simp_all
  case codeChallengeMethod => split <;> rfl
  case nonce => split <;> simp_all
  case authTime =>
      split
      · simp [time]
      · rfl
  case amr => split <;> simp_all
  case orgId =>
      cases id : c.orgId with
      | none => rfl
      | some id' => simp [org id' id]
  case expiresAt => exact expiry

/-! ## Issued and consumed -/

/-- The fields of `c` as the arguments of a request for a code. -/
def issue (svc : TokenService) (c : OAuth2AuthCode) : StoreProg (Except String String) :=
  svc.generateAuthorizationCode c.clientId c.userId c.scope c.redirectUri c.codeChallenge
    c.codeChallengeMethod c.nonce c.authTime c.amr c.orgId

/-- `c` is the record built for the code `raw` by a request that began at step `n`. -/
structure Built (env : Env) (svc : TokenService) (crypto : CryptoProvider) (n : Nat) (raw : String)
    (c : OAuth2AuthCode) : Prop where
  code : c.code = hashToken crypto raw
  expiresAt : c.expiresAt = (env (n + 1)).seconds + svc.authCodeTtl
  unused : c.used = false

/-- The lifetime of the entry, from the clock at step `n`. -/
def lifetime (env : Env) (n : Nat) (c : OAuth2AuthCode) : Nat :=
  if c.expiresAt > (env n).seconds then (c.expiresAt - (env n).seconds).toNat else 1

section Run

variable {ι : Type} {env : Env} {i : ι} {svc : TokenService} {tokens : TokenBackend}
  {crypto : CryptoProvider} {c : OAuth2AuthCode} {w : StoreWorld ι}

theorem saveAuthCode_sat (c : OAuth2AuthCode) (w : StoreWorld ι) :
    Prog.Sat (World.handler (exec env) i) w (RedisGrantRepository.saveAuthCode c) fun _ w' =>
      w'.tick = w.tick + 2 ∧
        w'.db = ((RedisOp.setex (Redis.codeKey c.code) (lifetime env w.tick c)
          (Redis.serializeCode c)).exec (env (w.tick + 1)) w.db).2 :=
  ⟨rfl, rfl⟩

/-- The record `c` is determined by the arguments and by what `Built` says of it. -/
theorem Built.eq {n : Nat} {raw : String} (built : Built env svc crypto n raw c) :
    { code := hashToken crypto raw, clientId := c.clientId, userId := c.userId, scope := c.scope
      redirectUri := c.redirectUri, codeChallenge := c.codeChallenge
      codeChallengeMethod := c.codeChallengeMethod, nonce := c.nonce
      expiresAt := (env (n + 1)).seconds + svc.authCodeTtl, authTime := c.authTime, amr := c.amr
      orgId := c.orgId : OAuth2AuthCode } = c := by
  obtain ⟨code, expiresAt, unused⟩ := built
  rw [← code, ← expiresAt, ← unused]

/-- An issued code was sent to the server in the fourth step. -/
theorem issue_sat (w : StoreWorld ι) :
    Prog.Sat (World.handler (exec env) i) w (issue (svc.over .redis tokens crypto) c)
      fun answer w' => ∀ raw, answer = .ok raw → Built env svc crypto w.tick raw c →
        w'.tick = w.tick + 4 ∧
          w'.db = ((RedisOp.setex (Redis.codeKey c.code) (lifetime env (w.tick + 2) c)
            (Redis.serializeCode c)).exec (env (w.tick + 3)) w.db).2 := by
  refine (RefreshFailure.generateSecureToken_sat crypto w).bind ?_
  intro raw w₁ drawn
  rcases drawn with ⟨-, elapsed₁⟩
  split
  · intro raw' issued
    cases issued
  · split
    · intro raw' issued
      cases issued
    · refine (RefreshFailure.ask_sat .nowSeconds w₁).bind ?_
      intro now w₂ asked
      rcases asked with ⟨rfl, elapsed₂⟩
      have elapsed := elapsed₁.trans elapsed₂
      rw [elapsed₁.tick]
      refine (saveAuthCode_sat _ w₂).bind ?_
      intro _ w₃ saved raw' issued built
      cases issued
      have ttl : (svc.over .redis tokens crypto).authCodeTtl = svc.authCodeTtl := rfl
      rw [EnvOp.answer, ttl, built.eq, elapsed.tick, elapsed.db] at saved
      exact saved

/-- The entry of a code the server has accepted, until its time is up. -/
theorem lookup_setex {m : Moment} {db : Db} {key : String} {ttl now : Nat} {value : CodeJson}
    (stored : ((RedisOp.setex key ttl value).exec m db).1 = true)
    (alive : now ≤ m.now + ttl * 1000) :
    Redis.lookup now key ((RedisOp.setex key ttl value).exec m db).2 =
      some { key := key, value := value, expireAt := some (m.now + ttl * 1000) } := by
  have accepted : ¬ m.fault = true := by
    intro fault
    rw [RedisOp.exec_of_fault fault] at stored
    cases stored
  rw [RedisOp.exec_of_ok accepted] at stored ⊢
  change (Redis.setex m.now key ttl value db).1 = true at stored
  change Redis.lookup now key (Redis.setex m.now key ttl value db).2 = _
  unfold Redis.setex at stored ⊢
  split at stored
  · next fits =>
      rw [if_pos fits]
      simp [Redis.lookup, RedisEntry.alive, alive]
  · cases stored

/-- A consumption that is in time and repeats the redirect URI delivers the record.  The script
gets the URI up to its first NUL, so the URI is to have none. -/
theorem consumeAuthCode_readBack {m : Moment} (w : StoreWorld ι) (numbers : ExactNumbers c)
    (unused : c.used = false) (clean : NulFree c.redirectUri) {ttl : Nat} {db : Db}
    (saved : w.db =
      ((RedisOp.setex (Redis.codeKey c.code) ttl (Redis.serializeCode c)).exec m db).2)
    (stored : ((RedisOp.setex (Redis.codeKey c.code) ttl (Redis.serializeCode c)).exec m db).1 =
      true)
    (ok : (env w.tick).fault = false) (alive : (env w.tick).now ≤ m.now + ttl * 1000) :
    Prog.Sat (World.handler (exec env) i) w
      (RedisGrantRepository.consumeAuthCode c.code c.redirectUri)
      fun answer _ => ∃ c', answer = some c' ∧ ReadBack c c' := by
  have found := lookup_setex stored alive
  rw [← saved] at found
  have matching : ¬ ((Redis.serializeCode c).redirectUri ≠ "" ∧
      c.redirectUri ≠ (Redis.serializeCode c).redirectUri) := by
    simp [Redis.serializeCode]
  have script := Redis.consumeScript_match found (by simp [Redis.serializeCode, unused]) matching
  have answer : (RedisOp.exec (env w.tick)
      (.consumeScript (Redis.codeKey c.code) (cString c.redirectUri)) w.db).1 =
      some (Redis.cjsonRoundTrip { Redis.serializeCode c with used := true }) := by
    rw [cString_of_nulFree clean, RedisOp.exec_of_ok (by simp [ok])]
    exact congrArg Prod.fst script
  refine ⟨_, ?_, readBack_of_script numbers c.code⟩
  change (Option.map _ (RedisOp.exec (env w.tick)
      (.consumeScript (Redis.codeKey c.code) (cString c.redirectUri)) w.db).1) = _
  rw [answer]
  rfl

end Run

/-- A code whose redirect URI has no NUL is issued over Redis and consumed with this URI before
it expires: the record that is delivered has the fields of the saved one, except that a
challenge method without a challenge and a time that is not positive are dropped, and the
checks and the claims of the exchange are those of the saved record. -/
theorem consumed_code_reads_back {ι : Type} (env : Env) (i : ι) (svc : TokenService)
    (tokens : TokenBackend) (crypto : CryptoProvider) (w w' : StoreWorld ι) (raw : String)
    (c : OAuth2AuthCode) (clock : ∀ m n, m ≤ n → (env m).now ≤ (env n).now)
    (issued : (issue (svc.over .redis tokens crypto) c).run (World.handler (exec env) i) w =
      (.ok raw, w'))
    (built : Built env svc crypto w.tick raw c)
    (stored : ((RedisOp.setex (Redis.codeKey c.code) (lifetime env (w.tick + 2) c)
      (Redis.serializeCode c)).exec (env (w.tick + 3)) w.db).1 = true)
    (ok : (env (w.tick + 4)).fault = false)
    (unexpired : (env (w.tick + 4)).seconds < c.expiresAt) (numbers : ExactNumbers c)
    (clean : NulFree c.redirectUri) :
    ∃ c', ((GrantBackend.redis.repository.consumeAuthCode (hashToken crypto raw) c.redirectUri).run
        (World.handler (exec env) i) w').1 = some c' ∧
      ReadBack c c' ∧
      (∀ clientId codeVerifier, TokenService.checkCode crypto clientId codeVerifier c' =
        TokenService.checkCode crypto clientId codeVerifier c) ∧
      ∀ orgCtx now, svc.codeClaims c' orgCtx now = svc.codeClaims c orgCtx now := by
  have sent : Prog.Sat (World.handler (exec env) i) w (issue (svc.over .redis tokens crypto) c) _ :=
    issue_sat w
  rw [Prog.Sat, issued] at sent
  obtain ⟨tick, saved⟩ := sent raw rfl built
  dsimp only at tick saved
  have alive : (env w'.tick).now ≤ (env (w.tick + 3)).now + lifetime env (w.tick + 2) c * 1000 := by
    rw [tick]
    have read := clock (w.tick + 2) (w.tick + 3) (by omega)
    have later := clock (w.tick + 2) (w.tick + 4) (by omega)
    unfold lifetime
    unfold Moment.seconds at unexpired ⊢
    split <;> omega
  have delivered : Prog.Sat (World.handler (exec env) i) w'
      (RedisGrantRepository.consumeAuthCode c.code c.redirectUri) _ :=
    consumeAuthCode_readBack w' numbers built.unused clean saved stored (by rw [tick]; exact ok)
      alive
  obtain ⟨c', answer, back⟩ := delivered
  rw [built.code] at answer
  exact ⟨c', answer, back, fun _ _ => back.checkCode .., fun _ _ => back.codeClaims ..⟩

/-- A code issued in second 1000 with the given challenge and method. -/
def sampleCode (codeChallenge codeChallengeMethod : String) : OAuth2AuthCode :=
  { code := hashToken Sample.crypto (Sample.drawn 0), clientId := "app", userId := "alice"
    scope := "openid", redirectUri := "https://app.example/cb", codeChallenge := codeChallenge
    codeChallengeMethod := codeChallengeMethod, nonce := "n1", expiresAt := 1600, authTime := 990
    amr := "pwd", orgId := some 5 }

/-- The issue of the code over Redis. -/
def sampleIssue (c : OAuth2AuthCode) : Except String String × StoreWorld (Fin 1) :=
  (issue (Sample.service.over .redis .memory Sample.crypto) c).run
    (World.handler (exec (Sample.envAt 1000)) 0) (World.start Sample.db)

theorem consumed_code_reads_back_pkce :
    (sampleIssue (sampleCode "abc" "S256")).1 = .ok (Sample.drawn 0) ∧
      ∃ c',
        ((GrantBackend.redis.repository.consumeAuthCode (hashToken Sample.crypto (Sample.drawn 0))
          "https://app.example/cb").run (World.handler (exec (Sample.envAt 1000)) 0)
          (sampleIssue (sampleCode "abc" "S256")).2).1 = some c' ∧
        ReadBack (sampleCode "abc" "S256") c' := by
  have issued : (sampleIssue (sampleCode "abc" "S256")).1 = .ok (Sample.drawn 0) := by
    decide
  obtain ⟨c', answer, back, -⟩ := consumed_code_reads_back (Sample.envAt 1000) (0 : Fin 1)
    Sample.service .memory Sample.crypto (World.start Sample.db)
    (sampleIssue (sampleCode "abc" "S256")).2 (Sample.drawn 0) (sampleCode "abc" "S256")
    (fun _ _ _ => Nat.le_refl _) (Prod.ext issued rfl) ⟨rfl, by decide, rfl⟩ (by decide) rfl
    (by decide) ⟨by decide, by decide, fun id eq => by cases eq; decide⟩ (by decide)
  exact ⟨issued, c', answer, back⟩

/-- A method without a challenge is not what is delivered. -/
theorem method_without_challenge_dropped :
    (sampleIssue (sampleCode "" "S256")).1 = .ok (Sample.drawn 0) ∧
      ExactNumbers (sampleCode "" "S256") ∧
      ∃ c',
        ((GrantBackend.redis.repository.consumeAuthCode (hashToken Sample.crypto (Sample.drawn 0))
          "https://app.example/cb").run (World.handler (exec (Sample.envAt 1000)) 0)
          (sampleIssue (sampleCode "" "S256")).2).1 = some c' ∧
        c'.codeChallengeMethod ≠ (sampleCode "" "S256").codeChallengeMethod := by
  refine ⟨by decide, ⟨by decide, by decide, fun id eq => by cases eq; decide⟩, ?_⟩
  have delivered : ((GrantBackend.redis.repository.consumeAuthCode
      (hashToken Sample.crypto (Sample.drawn 0)) "https://app.example/cb").run
      (World.handler (exec (Sample.envAt 1000)) 0) (sampleIssue (sampleCode "" "S256")).2).1 =
      some { sampleCode "" "" with used := true } := by
    decide
  exact ⟨_, delivered, by decide⟩

end Fulla.CodeRoundTrip
