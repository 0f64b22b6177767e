import Fulla.Cache.Server
import Fulla.Model.JsonText

/-!
# The user read cache

`UserReadCache` keeps the roles and the profile of a user in Redis, under the text by
which the reader names the user: the number or the public subject.  A look-up of the roles
also finds the entry of the profile and keeps its text in a memo of the process, which the
next look-up of the profile takes.

A writer of the data calls `invalidateUser` with both names after its write.  What fetches
and writes the data is a parameter.
-/

namespace Fulla

open Conc

/-! ## Operations -/

/-- The calls of the repository behind the cache, and a writer's change. -/
inductive UserRepoOp (Change : Type) where
  | getUserRoles (subject : String)
  | getUserInfo (subject : String)
  /-- A write to the data of the user with this number and this public subject. -/
  | write (subject publicSub : String) (change : Change)

abbrev UserRepoSig (Change : Type) : Sig where
  Op := UserRepoOp Change
  Res
    | .getUserRoles _ => List String
    | .getUserInfo _ => Option Json
    | .write _ _ _ => Bool

/-- What a reader delivers, with the text by which the user was named. -/
inductive UserAnswer where
  | roles (subject : String) (r : List String)
  | profile (subject : String) (p : Option Json)

/-- The user that an answer is about. -/
def UserAnswer.subject : UserAnswer → String
  | roles subject _ => subject
  | profile subject _ => subject

/-- The look-up of both keys and the memo of the profile it brings along. -/
inductive MemoOp where
  /-- `MGET`; `none` is the callback with a `RedisException`. -/
  | mget (rKey pKey : String)
  | memoProfilePayload (subject payload : String)
  | takeMemoizedProfile (subject : String)
  | dropMemo (subject : String)

abbrev MemoSig : Sig where
  Op := MemoOp
  Res
    | .mget _ _ => Option (Option String × Option String)
    | .memoProfilePayload _ _ => Unit
    | .takeMemoizedProfile _ => Option String
    | .dropMemo _ => Unit

/-- The operations of the user cache. -/
abbrev UserCacheSig (Change : Type) : Sig :=
  (CacheSig (UserRepoSig Change) UserAnswer).sum MemoSig

/-- A call of the user cache, with what it has sent into the background. -/
abbrev UserTask (Change : Type) := Async (UserCacheSig Change)

/-- The server of the cache with the memo. -/
structure UserState (W : Type) where
  server : CacheState W
  /-- The payload and the time at which it was kept. -/
  memo : String → Option (String × Nat) := fun _ => none

/-- `kMemoTtl`, in milliseconds. -/
def kMemoTtl : Nat :=
  2000

/-- Memos whose time is up are never taken, so when they are pruned is left out. -/
def execMemo {W : Type} (refused : Bool) :
    (o : MemoOp) → UserState W → MemoSig.Res o × UserState W
  | .mget rKey pKey, s =>
    (if refused then none
      else some (s.server.keys.find? s.server.clock rKey, s.server.keys.find? s.server.clock pKey),
      s)
  | .memoProfilePayload subject payload, s =>
    ((), { s with memo := Function.update s.memo subject (some (payload, s.server.clock)) })
  | .takeMemoizedProfile subject, s =>
    (((s.memo subject).filter fun entry => s.server.clock ≤ entry.2 + kMemoTtl).map Prod.fst,
      { s with memo := Function.update s.memo subject none })
  | .dropMemo subject, s => ((), { s with memo := Function.update s.memo subject none })

/-- What an operation does and answers; `none` if it cannot happen now. -/
def execUsers {Change W X : Type} (impl : Wrapped (UserRepoSig Change) W X) (m : CacheMoment X) :
    (o : (UserCacheSig Change).Op) → UserState W →
      Option ((UserCacheSig Change).Res o × UserState W)
  | .inl o, s => (execCache impl m o s.server).map fun a => (a.1, { s with server := a.2 })
  | .inr o, s => some (execMemo m.refused o { s with server := s.server.pass impl m })

/-! ## Payloads -/

namespace UserReadCache

/-- Seconds that a profile is kept, unless configured. -/
def kDefaultProfileTtlSeconds : Int :=
  300

/-- Seconds that roles are kept, unless configured. -/
def kDefaultRolesTtlSeconds : Int :=
  120

/-- Seconds that the absence of a user is kept. -/
def kNegativeTtlSeconds : Nat :=
  60

/-- What is stored for a user who does not exist. -/
def kAbsentMarker : String :=
  r#"{"__user_absent__":true}"#

/-- The key of a profile. -/
def profileKey (subject : String) : String :=
  "fulla:cache:user:profile:" ++ subject

/-- The key of the roles. -/
def rolesKey (subject : String) : String :=
  "fulla:cache:user:roles:" ++ subject

end UserReadCache

open UserReadCache in
/-- What the cache is configured with, and the JSON library. -/
structure UserReadCache where
  json : JsonText
  /-- A Redis client is configured, and with it the hook of the writers. -/
  redisClient : Bool := true
  profileTtlSeconds : Int := kDefaultProfileTtlSeconds
  rolesTtlSeconds : Int := kDefaultRolesTtlSeconds
  doubleDeleteDelayMs : Int := kDefaultDoubleDeleteDelayMs

namespace UserReadCache

/-- A value that is not positive is the default. -/
def configured (ttlSeconds default : Int) : Nat :=
  (if ttlSeconds > 0 then ttlSeconds else default).toNat

/-- The roles as the text of a JSON array. -/
def rolesPayload (json : JsonText) (roles : List String) : String :=
  json.write (.arr (roles.map Json.str))

/-- That there is no such user is kept as a marker. -/
def profilePayload (json : JsonText) : Option Json → String
  | none => kAbsentMarker
  | some profile => json.write profile

/-- A text that is no array is taken for a miss. -/
def readRoles (json : JsonText) (text : String) : Except String (Option (List String)) :=
  match json.parse text with
  | some (.arr items) => some <$> items.mapM Json.asString
  | _ => .ok none

/-- What a text of a profile is answered with, unless it is corrupt. -/
def readProfile (json : JsonText) (text : String) : Option (Option Json) :=
  if text = kAbsentMarker then some none
  else
    match json.parse text with
    | some (.obj members) => some (some (.obj members))
    | _ => none

/-! ## Readers -/

section Methods

variable {Change : Type} (cfg : UserReadCache)

/-- The callback of a reader. -/
def reply (since : Nat) (a : UserAnswer) : UserTask Change :=
  .op (.inl (.callback since a)) fun _ => .done

/-- Storing the roles that were fetched. -/
def fillRoles (subject : String) (roles : List String) (next : UserTask Change) : UserTask Change :=
  .send (.inl (.redis (.set (rolesKey subject) (rolesPayload cfg.json roles)
    (configured cfg.rolesTtlSeconds kDefaultRolesTtlSeconds)))) next

/-- An absence is kept for less time than a profile. -/
def profileTtl (profile : Option Json) : Nat :=
  if profile.isSome then configured cfg.profileTtlSeconds kDefaultProfileTtlSeconds
  else kNegativeTtlSeconds

/-- Storing the profile that was fetched, or its absence. -/
def fillProfile (subject : String) (profile : Option Json) (next : UserTask Change) :
    UserTask Change :=
  .send (.inl (.redis (.set (profileKey subject) (profilePayload cfg.json profile)
    (profileTtl cfg profile)))) next

/-- The path of a miss for roles. -/
def fetchAndFillRoles (since : Nat) (subject : String) : UserTask Change :=
  .op (.inl (.impl (.getUserRoles subject))) fun roles =>
    fillRoles cfg subject roles (reply since (.roles subject roles))

/-- The path of a miss for the profile. -/
def fetchAndFillProfile (since : Nat) (subject : String) : UserTask Change :=
  .op (.inl (.impl (.getUserInfo subject))) fun profile =>
    fillProfile cfg subject profile (reply since (.profile subject profile))

/-- The memo for the next look-up of the profile. -/
def piggyback (subject : String) (payload : Option String) (next : UserTask Change) :
    UserTask Change :=
  match payload with
  | none => next
  | some payload => .op (.inr (.memoProfilePayload subject payload)) fun _ => next

/-- An item that is no text throws in the callback of the client library, and the call is never
answered. -/
def onRolesLookup (since : Nat) (subject : String) :
    Option (Option String × Option String) → UserTask Change
  | some (some text, payload) =>
    piggyback subject payload <|
      match readRoles cfg.json text with
      | .error _ => .done
      | .ok (some roles) => reply since (.roles subject roles)
      | .ok none => fetchAndFillRoles cfg since subject
  | _ => fetchAndFillRoles cfg since subject

/-- `UserReadCache::getRoles`. -/
def getRoles (since : Nat) (subject : String) : UserTask Change :=
  if cfg.redisClient then
    .op (.inr (.mget (rolesKey subject) (profileKey subject))) (onRolesLookup cfg since subject)
  else .op (.inl (.impl (.getUserRoles subject))) fun roles => reply since (.roles subject roles)

/-- Deliver the profile if the text holds one. -/
def deliverProfile (since : Nat) (subject : String) (text : Option String)
    (otherwise : UserTask Change) : UserTask Change :=
  match text.bind (readProfile cfg.json) with
  | some profile => reply since (.profile subject profile)
  | none => otherwise

/-- What the reply of the `GET` of a profile leads to. -/
def onProfileLookup (since : Nat) (subject : String) (found : Option (Option String)) :
    UserTask Change :=
  deliverProfile cfg since subject found.join (fetchAndFillProfile cfg since subject)

/-- The look-up of a profile that the memo does not hold. -/
def lookUpProfile (since : Nat) (subject : String) : UserTask Change :=
  .op (.inl (.redis (.words ["GET", profileKey subject]))) (onProfileLookup cfg since subject)

/-- `UserReadCache::getProfile`; the memo is asked before Redis. -/
def getProfile (since : Nat) (subject : String) : UserTask Change :=
  if cfg.redisClient then
    .op (.inr (.takeMemoizedProfile subject)) fun memoized =>
      deliverProfile cfg since subject memoized (lookUpProfile cfg since subject)
  else
    .op (.inl (.impl (.getUserInfo subject))) fun profile => reply since (.profile subject profile)

/-! ## Writers -/

/-- `DEL` now and after the delay; the calling thread goes on. -/
def doubleDelete (key : String) (next : UserTask Change) : UserTask Change :=
  .op (.inl .loopTime) fun now =>
    .fork (invalidateWithDoubleDelete now key cfg.doubleDeleteDelayMs .done).left next

/-- The hook of the plugin: the memo first, then both keys. -/
def hook (subject : String) (next : UserTask Change) : UserTask Change :=
  .op (.inr (.dropMemo subject)) fun _ =>
    doubleDelete cfg (profileKey subject) (doubleDelete cfg (rolesKey subject) next)

/-- Every name of the user that there is. -/
def invalidateUser (subject publicSub : String) : UserTask Change :=
  if cfg.redisClient then
    let second : UserTask Change :=
      if publicSub ≠ "" ∧ publicSub ≠ subject then hook cfg publicSub .done else .done
    if subject ≠ "" then hook cfg subject second else second
  else .done

/-- A writer of users or roles: it invalidates after a write that has succeeded. -/
def write (subject publicSub : String) (change : Change) : UserTask Change :=
  .op (.inl (.impl (.write subject publicSub change))) fun ok =>
    if ok then invalidateUser cfg subject publicSub else .done

end Methods

end UserReadCache

/-! ## Runs -/

/-- The calls of a reader, and the change of a writer. -/
inductive UserCall (Change : Type) where
  | getRoles (subject : String)
  | getProfile (subject : String)
  | write (subject publicSub : String) (change : Change)

/-- The task that a call starts. -/
def UserCall.prog {Change : Type} (cfg : UserReadCache) (since : Nat) :
    UserCall Change → UserTask Change
  | getRoles subject => UserReadCache.getRoles cfg since subject
  | getProfile subject => UserReadCache.getProfile cfg since subject
  | write subject publicSub change => UserReadCache.write cfg subject publicSub change

abbrev UserReadEvent (Change W : Type) := TaskEvent (UserCacheSig Change) (UserState W)

/-- A call is started, or something that is in flight happens. -/
abbrev UserMove (Change X : Type) := Move (UserCall Change) (CacheMoment X)

/-- A run over a repository, from an empty cache and an empty memo. -/
def runUsers {Change W X : Type} (cfg : UserReadCache) (impl : Wrapped (UserRepoSig Change) W X)
    (w : W) (moves : List (UserMove Change X)) : Tasks (UserCacheSig Change) (UserState W) :=
  Tasks.run (execUsers impl) (UserCall.prog cfg) { store := { server := { wrapped := w } } } moves

/-! ## What a step can do -/

section Steps

variable {Change W X : Type} {impl : Wrapped (UserRepoSig Change) W X} {m : CacheMoment X}
  {s s' : UserState W}

theorem execUsers_cache {o : CacheOp (UserRepoSig Change) UserAnswer}
    {r : (CacheSig (UserRepoSig Change) UserAnswer).Res o}
    (stepped : execUsers impl m (.inl o) s = some (r, s')) :
    execCache impl m o s.server = some (r, s'.server) ∧ s'.memo = s.memo := by
  obtain ⟨a, answered, eq⟩ := Option.map_eq_some_iff.mp stepped
  cases eq
  exact ⟨answered, rfl⟩

/-- All that a step can do to a key: keep it, set it or delete it. -/
theorem execUsers_key {o : (UserCacheSig Change).Op} {r : (UserCacheSig Change).Res o}
    (stepped : execUsers impl m o s = some (r, s')) (key : String) :
    s'.server.keys key = s.server.keys key ∨
      (∃ value ttl,
        (⟨o, r, s, s'⟩ : UserReadEvent Change W) =
            ⟨.inl (.redis (.set key value ttl)), true, s, s'⟩ ∧
          s'.server.keys key =
            some { value := value, expireAt := s'.server.clock + ttl * 1000 }) ∨
      ∃ delayed,
        (⟨o, r, s, s'⟩ : UserReadEvent Change W) =
            ⟨.inl (.redis (.del key delayed)), true, s, s'⟩ ∧
          s'.server.keys key = none := by
  cases o with
  | inl o =>
      rcases execCache_key (execUsers_cache stepped).1 key with
        same | ⟨value, ttl, set, now⟩ | ⟨delayed, del, gone⟩
      · exact .inl same
      · cases set
        exact .inr (.inl ⟨value, ttl, rfl, now⟩)
      · cases del
        exact .inr (.inr ⟨delayed, rfl, gone⟩)
  | inr o =>
      cases o <;> cases stepped <;> exact .inl rfl

/-- All that a step can do to a memo: keep it, store it or take it away. -/
theorem execUsers_memo {o : (UserCacheSig Change).Op} {r : (UserCacheSig Change).Res o}
    (stepped : execUsers impl m o s = some (r, s')) (subject : String) :
    s'.memo subject = s.memo subject ∨
      (∃ payload time,
        (⟨o, r, s, s'⟩ : UserReadEvent Change W) =
            ⟨.inr (.memoProfilePayload subject payload), (), s, s'⟩ ∧
          s'.memo subject = some (payload, time)) ∨
      s'.memo subject = none := by
  cases o with
  | inl o => exact .inl (congrFun (execUsers_cache stepped).2 subject)
  | inr o =>
      cases o with
      | mget rKey pKey =>
          cases stepped
          exact .inl rfl
      | memoProfilePayload subject' payload =>
          cases stepped
          by_cases eq : subject = subject'
          · subst eq
            exact .inr (.inl ⟨payload, _, rfl, Function.update_self ..⟩)
          · exact .inl (Function.update_of_ne eq _ _)
      | takeMemoizedProfile subject' =>
          cases stepped
          by_cases eq : subject = subject'
          · subst eq
            exact .inr (.inr (Function.update_self ..))
          · exact .inl (Function.update_of_ne eq _ _)
      | dropMemo subject' =>
          cases stepped
          by_cases eq : subject = subject'
          · subst eq
            exact .inr (.inr (Function.update_self ..))
          · exact .inl (Function.update_of_ne eq _ _)

end Steps

end Fulla
