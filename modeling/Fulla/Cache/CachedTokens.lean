import Fulla.Cache.Server
import Fulla.Cache.TokenEntries
import Fulla.Model.Text
import Fulla.Storage.Memory

/-!
# The token cache

`RedisCachedTokenRepository` in front of an `ITokenRepository`: the four methods that
touch the cache, as programs that leave tasks in flight.  The other methods go to the
wrapped repository as they are; what they do there happens between the steps.

The callbacks of the wrapped repository and the ones of the server run some time after
the operation they are for: what they read from a clock they read in a step of its own.
-/

namespace Fulla

open Conc

/-- The operations of `ITokenRepository` that the cached methods use. -/
inductive TokenImplOp where
  | getAccessToken (token : String)
  | introspectToken (token : String)
  | revokeAccessToken (token revokedBy : String)
  | saveAccessToken (token : OAuth2AccessToken)

/-- What the calls of the wrapped repository answer. -/
abbrev TokenImplSig : Sig where
  Op := TokenImplOp
  Res
    | .getAccessToken _ => Option OAuth2AccessToken
    | .introspectToken _ => Option TokenIntrospection
    | .revokeAccessToken _ _ => Unit
    | .saveAccessToken _ => Unit

/-- What the callback of a call gets; the token is the one the call is about. -/
inductive TokenAnswer where
  | accessToken (token : String) (t : Option OAuth2AccessToken)
  | introspection (token : String) (r : Option TokenIntrospection)
  | revoked (token : String)
  | saved
deriving DecidableEq, Repr

/-- The operations of the token cache. -/
abbrev TokenCacheSig := CacheSig TokenImplSig TokenAnswer

/-- A call of the token cache, with what it has sent into the background. -/
abbrev TokenTask := Async TokenCacheSig

/-- What the cached repository is configured with, and the JSON library. -/
structure TokenCache where
  json : JsonText
  /-- A Redis client is injected. -/
  redisClient : Bool := true
  accessTokenMaxTtlSeconds : Int := 60

/-- A value that is not positive is the default. -/
def TokenCache.maxTtl (cfg : TokenCache) : Int :=
  if cfg.accessTokenMaxTtlSeconds > 0 then cfg.accessTokenMaxTtlSeconds else 60

namespace RedisCachedTokenRepository

/-- The key of an access token. -/
def accessKey (token : String) : String :=
  "fulla:cache:token:access:" ++ token

/-- The key of the marker that a revocation leaves. -/
def revokedKey (token : String) : String :=
  "fulla:cache:token:revoked:" ++ token

/-- The key of an introspection. -/
def introspectKey (token : String) : String :=
  "fulla:cache:token:introspect:" ++ token

/-- Call the user back. -/
def reply (since : Nat) (a : TokenAnswer) : TokenTask :=
  .op (.callback since a) fun _ => .done

variable (cfg : TokenCache)

/-- Keep a payload for what is left of its lifetime, `maxTtl` at most; one that has expired
is not kept. -/
def fill (now : Int) (key payload : String) (expiresAt : Int) (next : TokenTask) : TokenTask :=
  let remaining := expiresAt - now
  if remaining > 0 then .send (.redis (.set key payload (min remaining cfg.maxTtl).toNat)) next
  else next

/-! ## Methods -/

/-- On a miss: ask the wrapped repository and keep what it answers. -/
def readAndFill (since : Nat) (token : String) : TokenTask :=
  .op (.impl (.getAccessToken token)) fun
    | none => reply since (.accessToken token none)
    | some t => .op .time fun now =>
      fill cfg now (accessKey token) (serializeAccessToken cfg.json t) t.expiresAt
        (reply since (.accessToken token (some t)))

/-- The wrapped repository alone. -/
def delegateAccessToken (since : Nat) (token : String) : TokenTask :=
  .op (.impl (.getAccessToken token)) fun t => reply since (.accessToken token t)

/-- What the answer of the script leads to; a text that is no token is a miss. -/
def onAccessLookup (since : Nat) (token : String) : Option RevokedThenGet → TokenTask
  | none => delegateAccessToken since token
  | some .revoked => reply since (.accessToken token none)
  | some (.value v) =>
    match deserializeAccessToken cfg.json v with
    | .error _ => .done
    | .ok (some cached) => reply since (.accessToken token (some cached))
    | .ok none => readAndFill cfg since token
  | some .miss => readAndFill cfg since token

/-- `RedisCachedTokenRepository::getAccessToken`: the marker is looked for before the entry. -/
def getAccessToken (since : Nat) (token : String) : TokenTask :=
  if cfg.redisClient then
    .op (.redis (.revokedThenGet (revokedKey token) (accessKey token)))
      (onAccessLookup cfg since token)
  else delegateAccessToken since token

/-- Keep an introspection if the access entry proves that it is one of an access token. -/
def fillIntrospection (token : String) (r : TokenIntrospection) : TokenTask :=
  .op (.redis (.exists_ (accessKey token))) fun ex =>
    if ex = some true then
      .op .time fun now =>
        fill cfg now (introspectKey token) (serializeIntrospection cfg.json r) r.exp .done
    else .done

/-- The path of a miss: the repository is asked and its answer stored. -/
def introspectAndFill (since : Nat) (token : String) : TokenTask :=
  .op (.impl (.introspectToken token)) fun
    | none => reply since (.introspection token none)
    | some r =>
      if r.active then
        .fork (fillIntrospection cfg token r) (reply since (.introspection token (some r)))
      else reply since (.introspection token (some r))

/-- The repository is asked and nothing is stored. -/
def delegateIntrospection (since : Nat) (token : String) : TokenTask :=
  .op (.impl (.introspectToken token)) fun r => reply since (.introspection token r)

/-- What the reply of the script leads to. -/
def onIntrospectionLookup (since : Nat) (token : String) : Option RevokedThenGet → TokenTask
  | none => delegateIntrospection since token
  | some .revoked => reply since (.introspection token (some { active := false }))
  | some (.value v) =>
    match deserializeIntrospection cfg.json v with
    | .error _ => .done
    | .ok (some cached) => reply since (.introspection token (some cached))
    | .ok none => introspectAndFill cfg since token
  | some .miss => introspectAndFill cfg since token

/-- `RedisCachedTokenRepository::introspectToken`. -/
def introspectToken (since : Nat) (token : String) : TokenTask :=
  if cfg.redisClient then
    .op (.redis (.revokedThenGet (revokedKey token) (introspectKey token)))
      (onIntrospectionLookup cfg since token)
  else delegateIntrospection since token

/-- Nothing of the invalidation is waited for. -/
def revokeAccessToken (since : Nat) (token revokedBy : String) : TokenTask :=
  .op (.impl (.revokeAccessToken token revokedBy)) fun _ =>
    if cfg.redisClient then
      .op .loopTime fun now =>
        .send (.redis (.set (revokedKey token) "1" 60)) <|
        invalidateWithDoubleDelete now (accessKey token) kDefaultDoubleDeleteDelayMs <|
        invalidateWithDoubleDelete now (introspectKey token) kDefaultDoubleDeleteDelayMs <|
        reply since (.revoked token)
    else reply since (.revoked token)

/-- A token is saved in the repository and then stored. -/
def saveAccessToken (since : Nat) (token : OAuth2AccessToken) : TokenTask :=
  .op (.impl (.saveAccessToken token)) fun _ =>
    if cfg.redisClient then
      .op .time fun now =>
        fill cfg now (accessKey token.token) (serializeAccessToken cfg.json token) token.expiresAt
          (reply since .saved)
    else reply since .saved

/-! ## What the methods can do at all -/

section Only

variable {cfg} {P : TokenCacheSig.Op → Prop}

theorem fill_only {now expiresAt : Int} {key payload : String} {next : TokenTask}
    (set : ∀ ttl, P (.redis (.set key payload ttl))) (rest : next.Only P) :
    (fill cfg now key payload expiresAt next).Only P := by
  unfold fill
  dsimp only
  split
  · exact ⟨⟨set _, fun _ => trivial⟩, rest⟩
  · exact rest

/-- Sending a fill into the background is safe. -/
theorem fill_safe {σ M : Type}
    {exec : M → (o : TokenCacheSig.Op) → σ → Option (TokenCacheSig.Res o × σ)}
    {inv : σ → List (TaskEvent TokenCacheSig σ) → Prop} {log : List (TaskEvent TokenCacheSig σ)}
    {now expiresAt : Int} {key payload : String} {next : TokenTask}
    (set : ∀ ttl, Async.Safe exec inv (.op (.redis (.set key payload ttl)) fun _ => .done) log)
    (rest : next.Safe exec inv log) :
    (fill cfg now key payload expiresAt next).Safe exec inv log := by
  unfold fill
  dsimp only
  split
  · exact .send (set _) rest
  · exact rest

theorem revokeAccessToken_only {since : Nat} {token revokedBy : String}
    (impl : P (.impl (.revokeAccessToken token revokedBy))) (loopTime : P .loopTime)
    (marker : P (.redis (.set (revokedKey token) "1" 60)))
    (del : ∀ delayed, P (.redis (.del (accessKey token) delayed)) ∧
      P (.redis (.del (introspectKey token) delayed)))
    (timer : ∀ due, P (.timer due)) (callback : P (.callback since (.revoked token))) :
    (revokeAccessToken cfg since token revokedBy).Only P := by
  have answer : (reply since (.revoked token)).Only P := ⟨callback, fun _ => trivial⟩
  refine ⟨impl, fun _ => ?_⟩
  dsimp only
  split
  · refine ⟨loopTime, fun now => ⟨⟨marker, fun _ => trivial⟩, ?_⟩⟩
    apply invalidateWithDoubleDelete_only (fun delayed => (del delayed).1) timer
    exact invalidateWithDoubleDelete_only (fun delayed => (del delayed).2) timer answer
  · exact answer

theorem saveAccessToken_only {since : Nat} {token : OAuth2AccessToken}
    (impl : P (.impl (.saveAccessToken token))) (time : P .time)
    (set : ∀ payload ttl, P (.redis (.set (accessKey token.token) payload ttl)))
    (callback : P (.callback since .saved)) : (saveAccessToken cfg since token).Only P := by
  have answer : (reply since .saved).Only P := ⟨callback, fun _ => trivial⟩
  refine ⟨impl, fun _ => ?_⟩
  dsimp only
  split
  · exact ⟨time, fun _ => fill_only (set _) answer⟩
  · exact answer

theorem introspectToken_only {since : Nat} {token : String}
    (lookup : P (.redis (.revokedThenGet (revokedKey token) (introspectKey token))))
    (impl : P (.impl (.introspectToken token))) (time : P .time)
    (exists_ : P (.redis (.exists_ (accessKey token))))
    (set : ∀ payload ttl, P (.redis (.set (introspectKey token) payload ttl)))
    (callback : ∀ r, P (.callback since (.introspection token r))) :
    (introspectToken cfg since token).Only P := by
  have answer (r : Option TokenIntrospection) : (reply since (.introspection token r)).Only P :=
    ⟨callback r, fun _ => trivial⟩
  have delegate : (delegateIntrospection since token).Only P := ⟨impl, answer⟩
  have fills (r : TokenIntrospection) : (fillIntrospection cfg token r).Only P := by
    refine ⟨exists_, fun ex => ?_⟩
    dsimp only
    split
    · exact ⟨time, fun _ => fill_only (set _) trivial⟩
    · trivial
  have miss : (introspectAndFill cfg since token).Only P := by
    refine ⟨impl, fun r => ?_⟩
    cases r with
    | none => exact answer none
    | some r =>
        dsimp only
        split
        · exact ⟨fills r, answer _⟩
        · exact answer _
  unfold introspectToken
  split
  · refine ⟨lookup, fun found => ?_⟩
    match found with
    | none => exact delegate
    | some .revoked => exact answer _
    | some .miss => exact miss
    | some (.value v) =>
        dsimp only [onIntrospectionLookup]
        split
        · trivial
        · exact answer _
        · exact miss
  · exact delegate

end Only

/-! ## Keys -/

/-- A key belongs to one token. -/
theorem accessKey_inj {a b : String} (same : accessKey a = accessKey b) : a = b :=
  (String.append_right_inj _).mp same

theorem introspectKey_inj {a b : String} (same : introspectKey a = introspectKey b) : a = b :=
  (String.append_right_inj _).mp same

/-- The keys of tokens and of markers are apart. -/
theorem accessKey_ne_revokedKey (a b : String) : accessKey a ≠ revokedKey b :=
  append_ne_of_take 19 (by decide) (by decide) (by decide) a b

theorem accessKey_ne_introspectKey (a b : String) : accessKey a ≠ introspectKey b :=
  append_ne_of_take 19 (by decide) (by decide) (by decide) a b

theorem introspectKey_ne_revokedKey (a b : String) : introspectKey a ≠ revokedKey b :=
  append_ne_of_take 19 (by decide) (by decide) (by decide) a b

end RedisCachedTokenRepository

/-! ## Runs -/

/-- The calls that a client of the cache makes. -/
inductive TokenCall where
  | getAccessToken (token : String)
  | introspectToken (token : String)
  | revokeAccessToken (token revokedBy : String)
  | saveAccessToken (token : OAuth2AccessToken)

/-- The program of a call that begins after `since` steps. -/
def TokenCall.prog (cfg : TokenCache) (since : Nat) : TokenCall → TokenTask
  | getAccessToken token => RedisCachedTokenRepository.getAccessToken cfg since token
  | introspectToken token => RedisCachedTokenRepository.introspectToken cfg since token
  | revokeAccessToken token revokedBy =>
    RedisCachedTokenRepository.revokeAccessToken cfg since token revokedBy
  | saveAccessToken token => RedisCachedTokenRepository.saveAccessToken cfg since token

abbrev TokenEvent (W : Type) := TaskEvent TokenCacheSig (CacheState W)

/-- A call is started, or something that is in flight happens. -/
abbrev TokenMove (X : Type) := Move TokenCall (CacheMoment X)

/-- Calls, and what they have in flight, in any order, from an empty cache. -/
def runTokens {W X : Type} (cfg : TokenCache) (impl : Wrapped TokenImplSig W X) (w : W)
    (moves : List (TokenMove X)) : Tasks TokenCacheSig (CacheState W) :=
  Tasks.run (execCache impl) (TokenCall.prog cfg) { store := { wrapped := w } } moves

/-! ## The memory repository -/

/-- What a step finds around the memory repository: the time, and perhaps the rotation of a
refresh token that another request has just completed. -/
structure MemoryAround where
  moment : Moment
  rotated : Option String := none

/-- The memory repository as the wrapped one. -/
def memoryTokens : Wrapped TokenImplSig Db MemoryAround where
  exec x
    | .getAccessToken token => MemoryTokenRepository.getAccessToken x.moment token
    | .introspectToken token => fun db =>
      (some (MemoryTokenRepository.introspectToken x.moment token db).1,
        (MemoryTokenRepository.introspectToken x.moment token db).2)
    | .revokeAccessToken token revokedBy =>
      MemoryTokenRepository.revokeAccessToken x.moment token revokedBy
    | .saveAccessToken token => MemoryTokenRepository.saveAccessToken x.moment token
  meanwhile x db :=
    match x.rotated with
    | none => db
    | some token => (MemoryTokenRepository.atomicRevokeRefreshToken token db).2

namespace MemoryTokenRepository

variable (m : Moment) (token : String) (db : Db)

@[simp]
theorem getAccessToken_snd : (getAccessToken m token db).2 = db := by
  unfold getAccessToken
  split
  · rfl
  · split <;> rfl

@[simp]
theorem introspectToken_snd : (introspectToken m token db).2 = db := by
  unfold introspectToken
  split
  · split <;> rfl
  · split
    · split <;> rfl
    · rfl

@[simp]
theorem atomicRevokeRefreshToken_accessTokens :
    (atomicRevokeRefreshToken token db).2.accessTokens = db.accessTokens := by
  unfold atomicRevokeRefreshToken
  split
  · rfl
  · split <;> rfl

end MemoryTokenRepository

theorem memoryTokens_meanwhile (x : MemoryAround) (db : Db) :
    (memoryTokens.meanwhile x db).accessTokens = db.accessTokens := by
  unfold memoryTokens
  dsimp only
  split
  · rfl
  · exact MemoryTokenRepository.atomicRevokeRefreshToken_accessTokens _ db

end Fulla
