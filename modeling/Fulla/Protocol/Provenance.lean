import Fulla.Protocol.Calls
import Mathlib.Logic.Relation

/-!
# Provenance of token pairs

Every token pair goes back to an authorization code: an exchange that consumed the
code and passed every check saved the first pair of the family, and rotations
added the others.  `Descends` is that chain, read off the log of a run, and
`Carries` says what a pair inherits along it: client, scope and organisation
unchanged, the subject up to the subject normalizer.

`token_provenance`: in every run of any calls of the service, every stored token
descends from a code whose data it carries; a pair saved by an exchange was saved for
an unused, unexpired code of that client, under its redirect URI and its PKCE
verifier; and a refresh token names the access token it was saved with.  The
argument does not depend on the stores, so it is made for all of them at once.
-/

namespace Fulla.Provenance

open Conc

variable {ι : Type} {env : Env} {crypto : CryptoProvider} {calls : ι → Call}
  {grants : GrantBackend}

/-! ## What an exchange must have passed -/

/-- The code stored under `k`, as a consumption reads it. -/
def storedCode (db : Db) (k : String) : GrantBackend → Option OAuth2AuthCode
  | .memory => db.authCodes.find? k
  | .redis => (db.redis.find? (Redis.codeKey k)).map fun e =>
      Redis.deserializeCode k (Redis.cjsonRoundTrip e.value)
  | .postgres => db.authCodes.find? k

/-- The redirect URI that a store compares; Redis gets it as a C string. -/
def presented (redirectUri : String) : GrantBackend → String
  | .redis => RedisFormat.cString redirectUri
  | _ => redirectUri

/-- The operation that consumes a code. -/
def consumeOp (k redirectUri : String) : GrantBackend → StoreOp
  | .memory => .mem (.consumeAuthCode k redirectUri)
  | .redis => .redis (.consumeScript (Redis.codeKey k) (presented redirectUri .redis))
  | .postgres => .sql (.consumeCode k)

/-- The event consumed the unused code stored under `hash`. -/
structure Consumes (grants : GrantBackend) (hash redirectUri : String) (g : OAuth2AuthCode)
    (e : StoreEvent ι) : Prop where
  op : e.op = consumeOp hash redirectUri grants
  unused : ∃ g₀, storedCode e.pre hash grants = some g₀ ∧ g₀.used = false ∧
    g = { g₀ with used := true }
  redirect : g.redirectUri ≠ "" → presented redirectUri grants = g.redirectUri

/-- The event read `now` from the clock. -/
structure ReadsClock (env : Env) (now : Int) (e : StoreEvent ι) : Prop where
  op : e.op = .env .nowSeconds
  time : (env e.tick).seconds = now

/-- Call `i` consumed `g`, and then read a clock that had not passed its expiry. -/
def Timely (grants : GrantBackend) (env : Env) (log : List (StoreEvent ι)) (i : ι)
    (hash redirectUri : String)
    (g : OAuth2AuthCode) (now : Int) : Prop :=
  ∃ e ∈ log, ∃ e' ∈ log, e.thread = i ∧ e'.thread = i ∧ e.tick < e'.tick ∧
    Consumes grants hash redirectUri g e ∧ ReadsClock env now e'

/-- Everything the exchange by call `i` checked on the code. -/
structure Accepted (grants : GrantBackend) (env : Env) (crypto : CryptoProvider)
    (log : List (StoreEvent ι)) (i : ι)
    (code clientId redirectUri codeVerifier : String) (g : OAuth2AuthCode) (now : Int) :
    Prop where
  timely : Timely grants env log i (hashToken crypto code) redirectUri g now
  client : g.clientId = clientId
  unexpired : now ≤ g.expiresAt
  pkce : g.codeChallenge ≠ "" → codeVerifier ≠ "" ∧
    TokenService.validatePkceCodeVerifier crypto codeVerifier g.codeChallenge
      g.codeChallengeMethod = some true

/-! ### Deliveries -/

section Deliveries

variable {m : Moment} {db : Db} {hash redirectUri : String}

/-- The code `g` was stored unused under `hash`, and its redirect URI is repeated. -/
def Deliverable (grants : GrantBackend) (db : Db) (hash redirectUri : String)
    (g : OAuth2AuthCode) : Prop :=
  (∃ g₀, storedCode db hash grants = some g₀ ∧ g₀.used = false ∧ g = { g₀ with used := true }) ∧
    (g.redirectUri ≠ "" → presented redirectUri grants = g.redirectUri)

/-- A code that the memory repository delivers was deliverable. -/
theorem memory_deliverable {g : OAuth2AuthCode}
    (delivered : (MemoryGrantRepository.consumeAuthCode hash redirectUri db).1 = some g) :
    Deliverable .memory db hash redirectUri g := by
  unfold MemoryGrantRepository.consumeAuthCode at delivered
  split at delivered
  · cases delivered
  · next g₀ found =>
      split at delivered
      · cases delivered
      · next unused =>
          split at delivered
          · cases delivered
          · next matching =>
              cases delivered
              refine ⟨⟨g₀, found, by simpa using unused, rfl⟩, fun recorded => ?_⟩
              by_contra differs
              exact matching ⟨recorded, differs⟩

/-- So is one that Postgres delivers, when the redirect URIs agree. -/
theorem postgres_deliverable {g : OAuth2AuthCode}
    (delivered : ((SqlOp.consumeCode hash).exec m db).1 = some g)
    (matching : ¬ (g.redirectUri ≠ "" ∧ redirectUri ≠ g.redirectUri)) :
    Deliverable .postgres db hash redirectUri g := by
  by_cases fault : m.fault = true
  · rw [SqlOp.exec_of_fault fault] at delivered
    cases delivered
  · rw [SqlOp.exec_of_ok fault] at delivered
    simp only [SqlOp.effect, Sql.consumeCode] at delivered
    split at delivered
    · cases delivered
    · next g₀ found =>
        split at delivered
        · cases delivered
        · next unused =>
            cases delivered
            refine ⟨⟨g₀, found, by simpa using unused, rfl⟩, fun recorded => ?_⟩
            by_contra differs
            exact matching ⟨recorded, differs⟩

/-- So is one that Redis delivers. -/
theorem redis_deliverable {json : CodeJson}
    (delivered : ((RedisOp.consumeScript (Redis.codeKey hash)
      (presented redirectUri .redis)).exec m db).1 = some json) :
    Deliverable .redis db hash redirectUri
      { Redis.deserializeCode hash json with used := true } := by
  by_cases fault : m.fault = true
  · rw [RedisOp.exec_of_fault fault] at delivered
    cases delivered
  · rw [RedisOp.exec_of_ok fault] at delivered
    simp only [RedisOp.effect, Redis.consumeScript] at delivered
    split at delivered
    · cases delivered
    · next e found =>
        have stored : db.redis.find? (Redis.codeKey hash) = some e :=
          (Option.filter_eq_some_iff.mp found).1
        split at delivered
        · cases delivered
        · next unused =>
            split at delivered
            · cases delivered
            · next matching =>
                cases delivered
                refine ⟨⟨Redis.deserializeCode hash (Redis.cjsonRoundTrip e.value), ?_, ?_, rfl⟩,
                  fun recorded => ?_⟩
                · rw [storedCode, stored]
                  rfl
                · exact Bool.eq_false_iff.mpr unused
                · by_contra differs
                  exact matching ⟨recorded, differs⟩

end Deliveries

/-- A code that is accepted belongs to the client, and its challenge to the verifier. -/
theorem checkCode_eq_none {clientId codeVerifier : String} {g : OAuth2AuthCode}
    (passed : TokenService.checkCode crypto clientId codeVerifier g = none) :
    g.clientId = clientId ∧ (g.codeChallenge ≠ "" → codeVerifier ≠ "" ∧
      TokenService.validatePkceCodeVerifier crypto codeVerifier g.codeChallenge
        g.codeChallengeMethod = some true) := by
  unfold TokenService.checkCode at passed
  split at passed
  · cases passed
  · next client =>
      refine ⟨not_not.mp client, fun recorded => ?_⟩
      rw [if_neg recorded] at passed
      split at passed
      · cases passed
      · next verifier =>
          refine ⟨verifier, ?_⟩
          split at passed
          · cases passed
          · cases passed
          · assumption

/-! ## The chain of a family -/

/-- The pair goes back to `g` by an exchange and any number of rotations. -/
inductive Descends (grants : GrantBackend) (env : Env) (crypto : CryptoProvider) (calls : ι → Call)
    (log : List (StoreEvent ι)) :
    OAuth2AccessToken → OAuth2RefreshToken → OAuth2AuthCode → Prop
  | exchanged {e : StoreEvent ι} {a : OAuth2AccessToken} {r : OAuth2RefreshToken}
      {g : OAuth2AuthCode} {code clientId clientSecret redirectUri codeVerifier : String}
      {now : Int} (mem : e ∈ log) (saved : savedBy e = some (a, r))
      (call : calls e.thread =
        .exchangeCodeForToken code clientId clientSecret redirectUri codeVerifier)
      (accepted : Accepted grants env crypto log e.thread code clientId redirectUri
        codeVerifier g now) :
      Descends grants env crypto calls log a r g
  | rotated {e : StoreEvent ι} {a a' : OAuth2AccessToken} {r r' : OAuth2RefreshToken}
      {g : OAuth2AuthCode} {raw clientId : String}
      (before : Descends grants env crypto calls log a r g) (mem : e ∈ log)
      (saved : savedBy e = some (a', r')) (call : calls e.thread = .refreshAccessToken raw clientId)
      (presented : r.token = hashToken crypto raw) (family : r'.familyId = r.familyId) :
      Descends grants env crypto calls log a' r' g

/-- The normalizer has answered `v` for `u`. -/
def Normalizes (env : Env) (u v : String) : Prop :=
  ∃ n, (env n).normalizeSubject u = some v

/-- What a token inherits from the code at the root of its family. -/
structure Carries (env : Env) (g : OAuth2AuthCode) (clientId userId scope : String)
    (orgId : Option Int) : Prop where
  client : clientId = g.clientId
  user : Relation.ReflTransGen (Normalizes env) g.userId userId
  scope : scope = g.scope
  org : orgId = g.orgId

/-- What a refresh token carries depends on its identity. -/
theorem Carries.of_refresh {g : OAuth2AuthCode} {r r₀ : OAuth2RefreshToken}
    (carries : Carries env g r₀.clientId r₀.userId r₀.scope r₀.orgId)
    (identity : r.identity = r₀.identity) : Carries env g r.clientId r.userId r.scope r.orgId := by
  rcases OAuth2RefreshToken.identity_eq_iff.mp identity with
    ⟨-, -, client, user, scope, -, -, org⟩
  rw [client, user, scope, org]
  exact carries

/-- What an access token carries depends on its identity. -/
theorem Carries.of_access {g : OAuth2AuthCode} {a a₀ : OAuth2AccessToken}
    (carries : Carries env g a₀.clientId a₀.userId a₀.scope a₀.orgId)
    (identity : a.identity = a₀.identity) : Carries env g a.clientId a.userId a.scope a.orgId := by
  rcases OAuth2AccessToken.identity_eq_iff.mp identity with ⟨-, client, user, scope, -, org⟩
  rw [client, user, scope, org]
  exact carries

/-- A pair that descends from a code and carries its data. -/
structure Traced (grants : GrantBackend) (env : Env) (crypto : CryptoProvider) (calls : ι → Call)
    (log : List (StoreEvent ι)) (a : OAuth2AccessToken) (r : OAuth2RefreshToken)
    (g : OAuth2AuthCode) : Prop where
  descends : Descends grants env crypto calls log a r g
  link : r.accessToken = a.token
  access : Carries env g a.clientId a.userId a.scope a.orgId
  refresh : Carries env g r.clientId r.userId r.scope r.orgId

section Mono

variable {log : List (StoreEvent ι)} (e : StoreEvent ι) {i : ι} {g : OAuth2AuthCode} {now : Int}

/-- What was timely stays so in a longer log. -/
theorem Timely.mono {hash redirectUri : String}
    (timely : Timely grants env log i hash redirectUri g now) :
    Timely grants env (e :: log) i hash redirectUri g now := by
  rcases timely with ⟨e₁, mem₁, e₂, mem₂, rest⟩
  exact ⟨e₁, List.mem_cons_of_mem _ mem₁, e₂, List.mem_cons_of_mem _ mem₂, rest⟩

/-- What was accepted stays so in a longer log. -/
theorem Accepted.mono {code clientId redirectUri codeVerifier : String}
    (accepted : Accepted grants env crypto log i code clientId redirectUri codeVerifier g now) :
    Accepted grants env crypto (e :: log) i code clientId redirectUri codeVerifier g now :=
  { accepted with timely := accepted.timely.mono e }

/-- A descent stays one in a longer log. -/
theorem Descends.mono {a : OAuth2AccessToken} {r : OAuth2RefreshToken}
    (descends : Descends grants env crypto calls log a r g) :
    Descends grants env crypto calls (e :: log) a r g := by
  induction descends with
  | exchanged mem saved call accepted =>
      exact .exchanged (List.mem_cons_of_mem _ mem) saved call (accepted.mono e)
  | rotated before mem saved call presented family ih =>
      exact .rotated ih (List.mem_cons_of_mem _ mem) saved call presented family

/-- A trace stays one in a longer log. -/
theorem Traced.mono {a : OAuth2AccessToken} {r : OAuth2RefreshToken}
    (traced : Traced grants env crypto calls log a r g) :
    Traced grants env crypto calls (e :: log) a r g :=
  { traced with descends := traced.descends.mono e }

end Mono

/-! ## The invariant -/

/-- What a call has in its hands between two steps. -/
structure Held where
  /-- The code it has consumed, with the hash and the redirect URI it presented. -/
  code : Option (String × String × OAuth2AuthCode) := none
  /-- The clock it has read since. -/
  time : Option Int := none
  /-- The refresh token it has revoked. -/
  token : Option OAuth2RefreshToken := none

/-- The invariant of a run: where every stored code and token comes from. -/
structure Inv (grants : GrantBackend) (env : Env) (crypto : CryptoProvider) (calls : ι → Call)
    (w : StoreWorld ι)
    (γ : ι → Held) : Prop where
  past : ∀ e ∈ w.log, e.tick < w.tick
  refresh : ∀ k r, w.db.refreshTokens.find? k = some r →
    ∃ a r₀ g, r.identity = r₀.identity ∧ Traced grants env crypto calls w.log a r₀ g
  access : ∀ k a, w.db.accessTokens.find? k = some a →
    ∃ a₀ r g, a.identity = a₀.identity ∧ Traced grants env crypto calls w.log a₀ r g
  exchanges : ∀ e ∈ w.log, ∀ a r, savedBy e = some (a, r) →
    ∀ code clientId clientSecret redirectUri codeVerifier,
      calls e.thread = .exchangeCodeForToken code clientId clientSecret redirectUri codeVerifier →
      ∃ g now, Accepted grants env crypto w.log e.thread code clientId redirectUri
        codeVerifier g now ∧
        Traced grants env crypto calls w.log a r g
  code : ∀ i hash redirectUri g, (γ i).code = some (hash, redirectUri, g) →
    ∃ e ∈ w.log, e.thread = i ∧ Consumes grants hash redirectUri g e
  time : ∀ i hash redirectUri g now, (γ i).code = some (hash, redirectUri, g) →
    (γ i).time = some now → Timely grants env w.log i hash redirectUri g now
  token : ∀ i r, (γ i).token = some r →
    ∃ a r₀ g, r.identity = r₀.identity ∧ Traced grants env crypto calls w.log a r₀ g

section Steps

variable {w w' : StoreWorld ι} {γ : ι → Held} {i : ι} {e : StoreEvent ι}

/-- A step that saves no pair, with the hands of every call as they were. -/
theorem Inv.frame (inv : Inv grants env crypto calls w γ) (decays : w.db.Decays w'.db)
    (step : World.Stepped i e w w') (unsaved : savedBy e = none) :
    Inv grants env crypto calls w' γ := by
  constructor
  case past =>
    intro e' mem
    rw [step.log] at mem
    rw [step.tick]
    rcases List.mem_cons.mp mem with rfl | before
    · rw [step.time]
      omega
    · have := inv.past e' before
      omega
  case refresh =>
    intro k r' found'
    rcases decays.refresh k r' found' with ⟨r, found, aged⟩
    rcases inv.refresh k r found with ⟨a, r₀, g, identity, traced⟩
    rw [step.log]
    exact ⟨a, r₀, g, aged.identity.trans identity, traced.mono e⟩
  case access =>
    intro k a' found'
    rcases decays.access k a' found' with ⟨a, found, aged⟩
    rcases inv.access k a found with ⟨a₀, r, g, identity, traced⟩
    rw [step.log]
    exact ⟨a₀, r, g, aged.identity.trans identity, traced.mono e⟩
  case exchanges =>
    intro e' mem a r saved code clientId clientSecret redirectUri codeVerifier call
    rw [step.log] at mem
    rcases List.mem_cons.mp mem with rfl | before
    · rw [unsaved] at saved
      cases saved
    · rcases inv.exchanges e' before a r saved _ _ _ _ _ call with ⟨g, now, accepted, traced⟩
      rw [step.log]
      exact ⟨g, now, accepted.mono e, traced.mono e⟩
  case code =>
    intro j hash redirectUri g held
    rcases inv.code j hash redirectUri g held with ⟨e', mem, rest⟩
    rw [step.log]
    exact ⟨e', List.mem_cons_of_mem _ mem, rest⟩
  case time =>
    intro j hash redirectUri g now held read
    rw [step.log]
    exact (inv.time j hash redirectUri g now held read).mono e
  case token =>
    intro j r held
    rcases inv.token j r held with ⟨a, r₀, g, identity, traced⟩
    rw [step.log]
    exact ⟨a, r₀, g, identity, traced.mono e⟩

/-- Call `i` saves a pair that goes back to `g`. -/
theorem Inv.store (inv : Inv grants env crypto calls w γ) (step : World.Stepped i e w w')
    {a : OAuth2AccessToken} {r : OAuth2RefreshToken} (saved : savedBy e = some (a, r))
    (stores : w.db.Stores a r w'.db) {g : OAuth2AuthCode}
    (traced : Traced grants env crypto calls (e :: w.log) a r g)
    (exchange : ∀ code clientId clientSecret redirectUri codeVerifier,
      calls i = .exchangeCodeForToken code clientId clientSecret redirectUri codeVerifier →
      ∃ now, Accepted grants env crypto w.log i code clientId redirectUri codeVerifier g now) :
    Inv grants env crypto calls w' γ := by
  rcases stores.access with ⟨a', identityA, -, access⟩
  rcases stores.refresh with ⟨r', identityR, -, refresh⟩
  have log : w'.log = e :: w.log := step.log
  constructor
  case past =>
    intro e' mem
    rw [log] at mem
    rw [step.tick]
    rcases List.mem_cons.mp mem with rfl | before
    · rw [step.time]
      omega
    · have := inv.past e' before
      omega
  case refresh =>
    intro k r₁ found
    rw [refresh] at found
    rw [log]
    split at found
    · cases found
      exact ⟨a, r, g, identityR, traced⟩
    · rcases inv.refresh k r₁ found with ⟨a₁, r₀, g₁, identity, traced₁⟩
      exact ⟨a₁, r₀, g₁, identity, traced₁.mono e⟩
  case access =>
    intro k a₁ found
    rw [access] at found
    rw [log]
    split at found
    · cases found
      exact ⟨a, r, g, identityA, traced⟩
    · rcases inv.access k a₁ found with ⟨a₀, r₁, g₁, identity, traced₁⟩
      exact ⟨a₀, r₁, g₁, identity, traced₁.mono e⟩
  case exchanges =>
    intro e' mem a₁ r₁ saved₁ code clientId clientSecret redirectUri codeVerifier call
    rw [log] at mem ⊢
    rcases List.mem_cons.mp mem with rfl | before
    · rw [saved] at saved₁
      cases saved₁
      rw [step.thread] at call ⊢
      rcases exchange code clientId clientSecret redirectUri codeVerifier call with ⟨now, accepted⟩
      exact ⟨g, now, accepted.mono e', traced⟩
    · rcases inv.exchanges e' before a₁ r₁ saved₁ _ _ _ _ _ call with ⟨g₁, now, accepted, traced₁⟩
      exact ⟨g₁, now, accepted.mono e, traced₁.mono e⟩
  case code =>
    intro j hash redirectUri g₁ held
    rcases inv.code j hash redirectUri g₁ held with ⟨e', mem, rest⟩
    rw [log]
    exact ⟨e', List.mem_cons_of_mem _ mem, rest⟩
  case time =>
    intro j hash redirectUri g₁ now held read
    rw [log]
    exact (inv.time j hash redirectUri g₁ now held read).mono e
  case token =>
    intro j r₁ held
    rcases inv.token j r₁ held with ⟨a₁, r₀, g₁, identity, traced₁⟩
    rw [log]
    exact ⟨a₁, r₀, g₁, identity, traced₁.mono e⟩

variable [DecidableEq ι]

/-- Call `i` takes something new into its hands, for which the facts are at hand. -/
theorem Inv.hold (inv : Inv grants env crypto calls w γ) {g' : Held}
    (code : ∀ hash redirectUri g, g'.code = some (hash, redirectUri, g) →
      ∃ e ∈ w.log, e.thread = i ∧ Consumes grants hash redirectUri g e)
    (time : ∀ hash redirectUri g now, g'.code = some (hash, redirectUri, g) →
      g'.time = some now → Timely grants env w.log i hash redirectUri g now)
    (token : ∀ r, g'.token = some r →
      ∃ a r₀ g, r.identity = r₀.identity ∧ Traced grants env crypto calls w.log a r₀ g) :
    Inv grants env crypto calls w (Function.update γ i g') := by
  refine { inv with code := ?_, time := ?_, token := ?_ }
  · intro j hash redirectUri g held
    by_cases eq : j = i
    · subst eq
      rw [Function.update_self] at held
      exact code hash redirectUri g held
    · rw [Function.update_of_ne eq] at held
      exact inv.code j hash redirectUri g held
  · intro j hash redirectUri g now held read
    by_cases eq : j = i
    · subst eq
      rw [Function.update_self] at held read
      exact time hash redirectUri g now held read
    · rw [Function.update_of_ne eq] at held read
      exact inv.time j hash redirectUri g now held read
  · intro j r held
    by_cases eq : j = i
    · subst eq
      rw [Function.update_self] at held
      exact token r held
    · rw [Function.update_of_ne eq] at held
      exact inv.token j r held

end Steps

/-! ## The calls, thread by thread -/

section Threads

variable [DecidableEq ι] {i : ι} {held : Held}

omit [DecidableEq ι] in
/-- Steps that save no pair keep the invariant. -/
theorem Inv.framed : Framed (Inv grants env crypto calls) :=
  fun inv decays step unsaved => inv.frame decays step unsaved

/-- A step that may take a code into the hands of call `i`. -/
theorem Inv.consume {w : StoreWorld ι} {γ : ι → Held} (inv : Inv grants env crypto calls w γ)
    {hash redirectUri : String} {a : Option OAuth2AuthCode}
    (noSave : NoSave (consumeOp hash redirectUri grants))
    (delivered : ∀ g, a = some g → Deliverable grants w.db hash redirectUri g) :
    Inv grants env crypto calls
      (World.handler (exec env) i (consumeOp hash redirectUri grants) w).2
      (Function.update γ i { code := a.map fun g => (hash, redirectUri, g) }) := by
  refine (inv.frame (execOp_decays (env w.tick) w.db noSave) World.handler_stepped
    (savedBy_eq_none noSave)).hold ?_ ?_ ?_
  · intro hash' redirectUri' g taken
    rcases Option.map_eq_some_iff.mp taken with ⟨g', eq, same⟩
    cases same
    rcases delivered g eq with ⟨unused, redirect⟩
    exact ⟨_, List.mem_cons_self .., rfl, rfl, unused, redirect⟩
  · intro _ _ _ _ _ read
    cases read
  · intro _ taken
    cases taken

/-- **The step that consumes the code**. -/
theorem keeps_consumeAuthCode (hash redirectUri : String) :
    Keeps (World.handler (exec env)) (Inv grants env crypto calls) i
      (fun answer held => held = { code := answer.map fun g => (hash, redirectUri, g) })
      (grants.repository.consumeAuthCode hash redirectUri) { } := by
  cases grants with
  | memory =>
      intro w γ inv own
      exact ⟨_, inv.consume rfl fun g eq => memory_deliverable eq, rfl⟩
  | redis =>
      intro w γ inv own
      refine ⟨_, inv.consume rfl fun g eq => ?_, rfl⟩
      rcases Option.map_eq_some_iff.mp eq with ⟨json, delivered, rfl⟩
      exact redis_deliverable delivered
  | postgres =>
      intro w γ inv own
      have refused : Inv .postgres env crypto calls
          (World.handler (exec env) i (consumeOp hash redirectUri .postgres) w).2
          (Function.update γ i { }) := inv.consume (a := none) rfl fun _ none => by cases none
      cases row : (World.handler (exec env) i (StoreOp.sql (.consumeCode hash)) w).1 with
      | none => exact ⟨{ }, refused, rfl⟩
      | some g =>
          dsimp only [Prog.bind]
          split
          · exact ⟨{ }, refused, rfl⟩
          · next matching =>
              refine ⟨_, inv.consume (a := some g) rfl fun g' eq => ?_, rfl⟩
              cases eq
              exact postgres_deliverable row matching

/-- The clock is read. -/
theorem keeps_nowSeconds :
    Keeps (World.handler (exec env)) (Inv grants env crypto calls) i
      (fun now held' => held' = { held with time := some now }) nowSeconds held := by
  intro w γ inv own
  have framed : Inv grants env crypto calls (World.handler (exec env) i (.env .nowSeconds) w).2 γ :=
    inv.frame .refl World.handler_stepped rfl
  refine ⟨{ held with time := some (env w.tick).seconds }, framed.hold ?_ ?_ ?_, rfl⟩
  · intro hash redirectUri g taken
    exact framed.code i hash redirectUri g (by rw [own]; exact taken)
  · intro hash redirectUri g now taken read
    rcases inv.code i hash redirectUri g (by rw [own]; exact taken) with ⟨e, mem, mine, consumes⟩
    refine ⟨e, List.mem_cons_of_mem _ mem, _, List.mem_cons_self .., mine, rfl, inv.past e mem,
      consumes, rfl, ?_⟩
    exact Option.some.inj read
  · intro r taken
    exact framed.token i r (by rw [own]; exact taken)

variable (svc : TokenService) {tokens : TokenBackend}

/-! ### Exchange -/

/-- **The step that saves the pair of an exchange**. -/
theorem keeps_saveExchanged {code clientId clientSecret redirectUri codeVerifier : String}
    (call : calls i = .exchangeCodeForToken code clientId clientSecret redirectUri codeVerifier)
    {g : OAuth2AuthCode} {now : Int}
    (checked : TokenService.checkCode crypto clientId codeVerifier g = none)
    (unexpired : now ≤ g.expiresAt) (tokenStr refreshTokenStr familyId : String) :
    Keeps (World.handler (exec env)) (Inv grants env crypto calls) i (fun _ _ => True)
      (tokens.repository.saveTokenPair
        (svc.newAccessToken crypto tokenStr g.clientId g.userId g.scope g.orgId now)
        (svc.newRefreshToken crypto refreshTokenStr tokenStr g.clientId g.userId g.scope g.orgId
          familyId now))
      { code := some (hashToken crypto code, redirectUri, g), time := some now } := by
  apply keeps_saveTokenPair
  · intro e w w' γ inv own step unsaved db
    refine ⟨γ i, ?_, trivial⟩
    rw [Function.update_eq_self]
    exact inv.frame (by rw [db]; exact .refl) step unsaved
  · intro e w w' γ inv own step saved stores
    refine ⟨γ i, ?_, trivial⟩
    rw [Function.update_eq_self]
    have accepted :
        Accepted grants env crypto w.log i code clientId redirectUri codeVerifier g now := by
      rcases checkCode_eq_none checked with ⟨client, pkce⟩
      exact ⟨inv.time i _ _ _ _ (by rw [own]) (by rw [own]), client, unexpired, pkce⟩
    have descends := Descends.exchanged (List.mem_cons_self ..) saved (step.thread ▸ call)
      (step.thread ▸ accepted.mono e)
    have carries : Carries env g g.clientId g.userId g.scope g.orgId := ⟨rfl, .refl, rfl, rfl⟩
    refine inv.store step saved stores ⟨descends, rfl, carries, carries⟩ ?_
    intro code' clientId' clientSecret' redirectUri' codeVerifier' call'
    rw [call] at call'
    cases call'
    exact ⟨now, accepted⟩

/-- What an exchange does after the code is accepted. -/
theorem keeps_issueForCode {code clientId clientSecret redirectUri codeVerifier : String}
    (call : calls i = .exchangeCodeForToken code clientId clientSecret redirectUri codeVerifier)
    {g : OAuth2AuthCode} {now : Int}
    (checked : TokenService.checkCode crypto clientId codeVerifier g = none)
    (unexpired : now ≤ g.expiresAt) :
    Keeps (World.handler (exec env)) (Inv grants env crypto calls) i (fun _ _ => True)
      (svc.issueForCode tokens.repository crypto g now)
      { code := some (hashToken crypto code, redirectUri, g), time := some now } := by
  unfold TokenService.issueForCode
  refine (Inv.framed.keeps_quiet (resolveOrgContextForClaims_quiet svc _ _ _)).bind ?_
  intro orgCtx _ same
  subst same
  refine (Inv.framed.keeps_quiet (resolveRoles_quiet svc _)).bind ?_
  intro answer _ same
  subst same
  rcases answer with _ | roles
  · trivial
  refine (Inv.framed.keeps_quiet (generateSecureToken_quiet _ _)).bind ?_
  intro tokenStr _ same
  subst same
  refine (Inv.framed.keeps_quiet (generateSecureToken_quiet _ _)).bind ?_
  intro refreshTokenStr _ same
  subst same
  refine (Inv.framed.keeps_quiet (generateSecureToken_quiet _ _)).bind ?_
  intro familyId _ same
  subst same
  split
  · exact Inv.framed.keeps_rest ((audit_quiet svc _ _ _ _ _).bind fun _ => trivial)
  · refine Keeps.bind (keeps_saveExchanged svc call checked unexpired _ _ _) fun ok g' _ => ?_
    split
    · exact Inv.framed.keeps_rest ((audit_quiet svc _ _ _ _ _).bind fun _ => trivial)
    · exact Inv.framed.keeps_rest ((withIdToken_quiet svc _ _ _ _).bind fun _ =>
        (auditIssued_quiet svc _ _).bind fun _ => trivial)

/-- An exchange as a whole. -/
theorem keeps_exchangeCodeForToken {code clientId clientSecret redirectUri codeVerifier : String}
    (call : calls i = .exchangeCodeForToken code clientId clientSecret redirectUri codeVerifier) :
    Keeps (World.handler (exec env)) (Inv grants env crypto calls) i (fun _ _ => True)
      ((svc.over grants tokens crypto).exchangeCodeForToken code clientId clientSecret
        redirectUri codeVerifier) { } := by
  unfold TokenService.exchangeCodeForToken
  split
  · next grants' tokens' crypto' _ wiredG wiredT wiredC =>
      cases wiredG
      cases wiredT
      cases wiredC
      refine (Inv.framed.keeps_quiet (ask_quiet _)).bind ?_
      intro isValid _ same
      subst same
      split
      · trivial
      · refine Keeps.bind (keeps_consumeAuthCode _ _) ?_
        intro answer _ same
        subst same
        rcases answer with _ | g
        · trivial
        · dsimp only [Option.map_some]
          split
          · trivial
          · next checked =>
              refine Keeps.bind keeps_nowSeconds ?_
              intro now _ same
              subst same
              split
              · trivial
              · next unexpired =>
                  exact keeps_issueForCode _ call checked (by omega)
  · trivial

/-! ### Rotation -/

/-- The subject stays, or is what the normalizer answers for it. -/
theorem keeps_normalizedSubject (userId : String) :
    Keeps (World.handler (exec env)) (Inv grants env crypto calls) i
      (fun answer held' => held' = held ∧
        ∀ subject, answer = some subject → subject = userId ∨ Normalizes env userId subject)
      (svc.normalizedSubject userId) held := by
  have refuse : Keeps (World.handler (exec env)) (Inv grants env crypto calls) i
      (fun answer held' => held' = held ∧
        ∀ subject, answer = some subject → subject = userId ∨ Normalizes env userId subject)
      (do
        svc.audit "refresh_subject_normalization_failed" "failure" userId "token" ""
        return none : StoreProg (Option String)) held := by
    refine Keeps.bind (Inv.framed.keeps_quiet (audit_quiet svc _ _ _ _ _)) ?_
    intro _ held' same
    exact ⟨same, fun _ none => by cases none⟩
  unfold TokenService.normalizedSubject
  split
  · exact ⟨rfl, fun subject eq => Or.inl (Option.some.inj eq).symm⟩
  · split
    · exact refuse
    · apply Keeps.stutter
      · intro w γ inv _
        exact inv.frame .refl World.handler_stepped rfl
      · intro w γ _ _
        cases normalized :
            (World.handler (exec env) i (StoreOp.env (.normalizeSubject userId)) w).1 with
        | none => exact refuse
        | some subject =>
            dsimp only [Prog.bind]
            split
            · exact refuse
            · refine ⟨rfl, fun subject' eq => Or.inr ⟨w.tick, ?_⟩⟩
              cases eq
              exact normalized

/-- **The step that saves the pair of a rotation**. -/
theorem keeps_saveRotated {raw clientId : String}
    (call : calls i = .refreshAccessToken raw clientId)
    {r : OAuth2RefreshToken} (presented : r.token = hashToken crypto raw) {subject : String}
    (normal : subject = r.userId ∨ Normalizes env r.userId subject) (now : Int)
    (tokenStr refreshTokenStr : String) (revoked : held.token = some r) :
    Keeps (World.handler (exec env)) (Inv grants env crypto calls) i (fun _ _ => True)
      (tokens.repository.saveTokenPair
        (svc.newAccessToken crypto tokenStr r.clientId subject r.scope r.orgId now)
        (svc.newRefreshToken crypto refreshTokenStr tokenStr r.clientId subject r.scope r.orgId
          r.familyId now)) held := by
  apply keeps_saveTokenPair
  · intro e w w' γ inv own step unsaved db
    refine ⟨γ i, ?_, trivial⟩
    rw [Function.update_eq_self]
    exact inv.frame (by rw [db]; exact .refl) step unsaved
  · intro e w w' γ inv own step saved stores
    refine ⟨γ i, ?_, trivial⟩
    rw [Function.update_eq_self]
    rcases inv.token i r (by rw [own]; exact revoked) with ⟨a, r₀, g, identity, traced⟩
    have family : r.familyId = r₀.familyId := OAuth2RefreshToken.familyId_of_identity identity
    have descends := Descends.rotated (traced.descends.mono e) (List.mem_cons_self ..) saved
      (step.thread ▸ call) ((OAuth2RefreshToken.token_of_identity identity).symm.trans presented)
      family
    have inherited : Carries env g r.clientId r.userId r.scope r.orgId :=
      traced.refresh.of_refresh identity
    have carries : Carries env g r.clientId subject r.scope r.orgId := by
      refine { inherited with user := ?_ }
      rcases normal with same | normalized
      · rw [same]
        exact inherited.user
      · exact inherited.user.tail normalized
    refine inv.store step saved stores ⟨descends, rfl, carries, carries⟩ ?_
    intro code' clientId' clientSecret' redirectUri' codeVerifier' call'
    rw [call] at call'
    cases call'

/-- A rotation as a whole. -/
theorem keeps_rotate {raw clientId : String} (call : calls i = .refreshAccessToken raw clientId)
    {r : OAuth2RefreshToken} (presented : r.token = hashToken crypto raw) {subject : String}
    (normal : subject = r.userId ∨ Normalizes env r.userId subject) (now : Int)
    (revoked : held.token = some r) :
    Keeps (World.handler (exec env)) (Inv grants env crypto calls) i (fun _ _ => True)
      (svc.rotate tokens.repository crypto r now subject) held := by
  unfold TokenService.rotate
  refine (Inv.framed.keeps_quiet (resolveOrgContextForClaims_quiet svc _ _ _)).bind ?_
  intro orgCtx _ same
  subst same
  refine (Inv.framed.keeps_quiet (generateSecureToken_quiet _ _)).bind ?_
  intro newTokenStr _ same
  subst same
  refine (Inv.framed.keeps_quiet (generateSecureToken_quiet _ _)).bind ?_
  intro newRefreshTokenStr _ same
  subst same
  split
  · trivial
  · refine Keeps.bind (keeps_saveRotated svc call presented normal now _ _ revoked)
      fun ok g' _ => ?_
    split
    · trivial
    · exact Inv.framed.keeps_rest ((audit_quiet svc _ _ _ _ _).bind fun _ =>
        (withIdToken_quiet svc _ _ _ _).bind fun _ => trivial)

/-- The revoked token is one the store held, under the presented hash. -/
theorem keeps_revokePresented (hashedRt : String) :
    Keeps (World.handler (exec env)) (Inv grants env crypto calls) i
      (fun answer held => held = { token := answer } ∧ ∀ r, answer = some r → r.token = hashedRt)
      (tokens.repository.atomicRevokeRefreshToken hashedRt) { } := by
  apply keeps_atomicRevokeRefreshToken
  intro e w w' γ answer inv own step unsaved cas
  rcases cas with ⟨rfl, db⟩ | ⟨r, r', found, live, rfl, identity, db⟩
  · refine ⟨{ }, ?_, rfl, fun _ none => by cases none⟩
    rw [← own, Function.update_eq_self]
    exact inv.frame (by rw [db]; exact .refl) step unsaved
  · have decays : w.db.Decays w'.db := db ▸ Db.revokeRefreshWhere_decays _ _
    have framed : Inv grants env crypto calls w' γ := inv.frame decays step unsaved
    refine ⟨{ token := some r' }, framed.hold ?_ ?_ ?_, rfl, ?_⟩
    · intro _ _ _ taken
      cases taken
    · intro _ _ _ _ taken
      cases taken
    · intro r'' taken
      cases taken
      rcases inv.refresh hashedRt r found with ⟨a, r₀, g, same, traced⟩
      rw [step.log]
      exact ⟨a, r₀, g, identity.trans same, traced.mono e⟩
    · intro r'' eq
      cases eq
      rw [OAuth2RefreshToken.token_of_identity identity]
      exact Table.find?_key found

/-- A refresh as a whole. -/
theorem keeps_refreshAccessToken {raw clientId : String}
    (call : calls i = .refreshAccessToken raw clientId) :
    Keeps (World.handler (exec env)) (Inv grants env crypto calls) i (fun _ _ => True)
      ((svc.over grants tokens crypto).refreshAccessToken raw clientId) { } := by
  unfold TokenService.refreshAccessToken
  split
  · next tokens' crypto' wiredT wiredC =>
      cases wiredT
      cases wiredC
      refine Keeps.bind (keeps_revokePresented _) ?_
      intro answer _ result
      rcases result with ⟨rfl, presented⟩
      rcases answer with _ | r
      · exact Inv.framed.keeps_rest (refuseRefresh_quiet _ tokens _)
      · dsimp only
        split
        · trivial
        · refine Keeps.bind keeps_nowSeconds ?_
          intro now _ same
          subst same
          split
          · trivial
          · refine Keeps.bind (keeps_normalizedSubject _ _) ?_
            intro answer _ result
            rcases result with ⟨rfl, normal⟩
            rcases answer with _ | subject
            · trivial
            · exact keeps_rotate _ call (presented r rfl) (normal subject rfl) now rfl
  · trivial

/-- Every call keeps the invariant. -/
theorem keeps_call (i : ι) :
    Keeps (World.handler (exec env)) (Inv grants env crypto calls) i (fun _ _ => True)
      ((calls i).prog (svc.over grants tokens crypto)) { } := by
  cases call : calls i with
  | generateAuthorizationCode clientId subject scope redirectUri challenge method nonce time amr
      orgId =>
      exact Inv.framed.keeps_rest
        (generateAuthorizationCode_quiet svc grants tokens crypto _ _ _ _ _ _ _ _
        _ _).map
  | exchangeCodeForToken code clientId secret redirectUri verifier =>
      exact (keeps_exchangeCodeForToken svc call).bind fun _ _ _ => trivial
  | refreshAccessToken raw clientId =>
      exact (keeps_refreshAccessToken svc call).bind fun _ _ _ => trivial
  | validateAccessToken token =>
      exact Inv.framed.keeps_rest (validateAccessToken_quiet svc grants tokens crypto _).map
  | revokeAccessToken token revokedBy =>
      exact Inv.framed.keeps_rest (revokeAccessToken_quiet tokens _ _).map
  | revokeRefreshToken token => exact Inv.framed.keeps_rest (revokeRefreshToken_quiet tokens _).map
  | purgeExpired =>
      refine (Inv.framed.keeps_noSave (Prog.Only.map ?_)).mono fun _ _ _ => trivial
      exact ((purgeGrants_quiet grants).mono fun _ quiet => quiet.noSave).bind fun _ =>
        purgeTokens_noSave tokens

end Threads

/-! ## Runs -/

/-- A store without tokens satisfies it. -/
theorem inv_start (calls : ι → Call) (db : Db) :
    Inv grants env crypto calls (World.start db.withoutTokens) fun _ => { } := by
  constructor <;> simp [World.start, Db.withoutTokens]

/-- **The invariant after every run**. -/
theorem inv_runCalls [DecidableEq ι] (env : Env) (svc : TokenService) (grants : GrantBackend)
    (tokens : TokenBackend) (crypto : CryptoProvider) (calls : ι → Call) (db : Db)
    (sched : List ι) :
    ∃ γ, Inv grants env crypto calls
      (runCalls env (svc.over grants tokens crypto) calls db.withoutTokens sched).store γ := by
  have good : (startCalls (svc.over grants tokens crypto) calls db.withoutTokens).Good
      (World.handler (exec env)) (Inv grants env crypto calls) fun _ _ _ => True :=
    ⟨fun _ => { }, inv_start calls db, keeps_call svc⟩
  rcases Pool.run_keeps good sched with ⟨γ, inv, -⟩
  exact ⟨γ, inv⟩

/-- In every run of any number of calls, from a store without tokens:
every stored refresh token and every stored access token was saved in a pair that
descends from an authorization code and carries its data, the refresh token naming
the access token of its pair; and a pair saved by an exchange was saved for a code
that passed every check. -/
theorem token_provenance [DecidableEq ι] (env : Env) (svc : TokenService)
    (grants : GrantBackend) (tokens : TokenBackend) (crypto : CryptoProvider) (calls : ι → Call)
    (db : Db) (sched : List ι) :
    let w := (runCalls env (svc.over grants tokens crypto) calls db.withoutTokens sched).store
    (∀ k r, w.db.refreshTokens.find? k = some r → ∃ a r₀ g,
        r.identity = r₀.identity ∧ Traced grants env crypto calls w.log a r₀ g ∧
        r.accessToken = a.token ∧ Carries env g r.clientId r.userId r.scope r.orgId) ∧
      (∀ k a, w.db.accessTokens.find? k = some a → ∃ a₀ r g,
        a.identity = a₀.identity ∧ Traced grants env crypto calls w.log a₀ r g ∧
        Carries env g a.clientId a.userId a.scope a.orgId) ∧
      ∀ e ∈ w.log, ∀ a r, savedBy e = some (a, r) →
        ∀ code clientId clientSecret redirectUri codeVerifier,
          calls e.thread =
            .exchangeCodeForToken code clientId clientSecret redirectUri codeVerifier →
          ∃ g now,
            Accepted grants env crypto w.log e.thread code clientId redirectUri codeVerifier g now ∧
            Traced grants env crypto calls w.log a r g := by
  rcases inv_runCalls env svc grants tokens crypto calls db sched with ⟨γ, inv⟩
  refine ⟨?_, ?_, inv.exchanges⟩
  · intro k r found
    rcases inv.refresh k r found with ⟨a, r₀, g, identity, traced⟩
    refine ⟨a, r₀, g, identity, traced, ?_, traced.refresh.of_refresh identity⟩
    exact (OAuth2RefreshToken.accessToken_of_identity identity).trans traced.link
  · intro k a found
    rcases inv.access k a found with ⟨a₀, r, g, identity, traced⟩
    exact ⟨a₀, r, g, identity, traced, traced.access.of_access identity⟩

end Fulla.Provenance
