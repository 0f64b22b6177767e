import Mathlib.Algebra.Group.Int.Defs
import Mathlib.Algebra.Group.Nat.Defs
import Fulla.Conc.Pool
import Fulla.Model.JsonText

/-!
# The Redis token repository

`RedisTokenRepository` keeps an access token as a JSON object under
`oauth2:token:<token>`; refresh tokens are not kept at all.  jsoncpp reads back what
it wrote, so an entry is the JSON value itself; the accessors still throw on a value
of the wrong kind, and an exception leaves the callback.

`RedisTokenRepository.run_wellFormed`: in every interleaving of calls, every entry is
an object whose members have the kinds the readers expect.
-/

namespace Fulla

open Conc

/-- An entry and the millisecond it expires at. -/
structure TokenJsonEntry where
  value : Json
  expireAt : Nat

/-- The keys of the server that hold access tokens. -/
abbrev RedisTokenKeys := String → Option TokenJsonEntry

/-- The entry under `key`, unless its time is up. -/
def RedisTokenKeys.find? (keys : RedisTokenKeys) (now : Nat) (key : String) : Option Json :=
  ((keys key).filter fun e => now ≤ e.expireAt).map TokenJsonEntry.value

/-- What one step finds around it. -/
structure RedisMoment where
  /-- Milliseconds since the epoch. -/
  now : Nat
  /-- The server answers the command with an error and does nothing. -/
  fault : Bool := false

/-- The clock in whole seconds. -/
def RedisMoment.seconds (m : RedisMoment) : Int :=
  (m.now / 1000 : Nat)

/-- The operations of `RedisTokenRepository`. -/
inductive RedisTokenOp where
  /-- `std::time(nullptr)` and the seconds of `system_clock`. -/
  | clock
  | setex (key : String) (ttl : Nat) (value : Json)
  | get (key : String)

abbrev RedisTokenSig : Sig where
  Op := RedisTokenOp
  Res
    | .clock => Int
    | .setex _ _ _ => Bool
    | .get _ => Option (Option Json)

/-- The server refuses an expiry that overflows its millisecond clock. -/
def execRedisToken (m : RedisMoment) : Handler RedisTokenSig RedisTokenKeys
  | .clock, keys => (m.seconds, keys)
  | .setex key ttl value, keys =>
    if m.fault = false ∧ m.now + ttl * 1000 < 2 ^ 63 then
      (true, Function.update keys key (some { value := value, expireAt := m.now + ttl * 1000 }))
    else (false, keys)
  | .get key, keys => (if m.fault then none else some (keys.find? m.now key), keys)

/-- A call of the repository. -/
abbrev RedisTokenProg := Prog RedisTokenSig

def redisToken (o : RedisTokenOp) : RedisTokenProg (RedisTokenSig.Res o) :=
  Prog.call (S := RedisTokenSig) o

/-- `if (json.isMember(k))`, and what the field keeps otherwise. -/
def Json.ifMember {α : Type} (root : Json) (k : String) (read : Except String α) (default : α) :
    Except String α := do
  if ← root.hasMember k then read else return default

namespace RedisTokenRepository

/-- The key of a token. -/
def tokenKey (token : String) : String :=
  "oauth2:token:" ++ token

/-- The object `saveAccessToken` builds. -/
def accessTokenMembers (t : OAuth2AccessToken) : List (String × Json) :=
  ([("client_id", .str t.clientId), ("user_id", .str t.userId), ("scope", .str t.scope),
    ("expires_at", .int t.expiresAt), ("revoked", .bool t.revoked), ("issued_at", .int t.issuedAt),
    ("issuer", .str t.issuer), ("audience", .str t.audience), ("not_before", .int t.notBefore),
    ("introspect_count", .int t.introspectCount), ("revoked_at", .int t.revokedAt),
    ("revoked_by", .str t.revokedBy)] : List (String × Json)) ++
  match t.orgId with
  | none => []
  | some id => [("org_id", Json.int id)]

/-- The token is written with the seconds it still has, and the answer is not waited for. -/
def saveAccessToken (t : OAuth2AccessToken) : RedisTokenProg Unit := do
  let nowSec : Int ← redisToken .clock
  let ttl : Nat := if t.expiresAt > nowSec then (t.expiresAt - nowSec).toNat else 1
  let _ ← redisToken (.setex (tokenKey t.token) ttl (.obj (accessTokenMembers t)))
  return ()

/-- The assignments of `getAccessToken`. -/
def readAccessToken (tokenStr : String) (json : Json) : Except String OAuth2AccessToken := do
  return {
    token := tokenStr
    clientId := ← json.textAt "client_id"
    userId := ← json.textAt "user_id"
    scope := ← json.textAt "scope"
    expiresAt := ← json.intAt "expires_at"
    revoked := ← json.boolAt "revoked"
    issuedAt := ← json.ifMember "issued_at" (json.intAt "issued_at") 0
    issuer := ← json.ifMember "issuer" (json.textAt "issuer") ""
    audience := ← json.ifMember "audience" (json.textAt "audience") ""
    notBefore := ← json.ifMember "not_before" (json.intAt "not_before") 0
    introspectCount := ← json.ifMember "introspect_count" (json.intAt "introspect_count") 0
    revokedAt := ← json.ifMember "revoked_at" (json.intAt "revoked_at") 0
    revokedBy := ← json.ifMember "revoked_by" (json.textAt "revoked_by") ""
    orgId := ← json.ifMember "org_id" (some <$> json.intAt "org_id") none }

/-- Revoked and expired tokens are found too. -/
def getAccessToken (token : String) :
    RedisTokenProg (Except String (Option OAuth2AccessToken)) := do
  let found : Option (Option Json) ← redisToken (.get (tokenKey token))
  match found with
  | some (some json) =>
    match json with
    | .null => return .ok none
    | json => return some <$> readAccessToken token json
  | _ => return .ok none

/-- The answer for a token that was found, at the given second. -/
def readIntrospection (now : Int) (json : Json) : Except String TokenIntrospection := do
  let revoked ← json.boolAt "revoked"
  let expiresAt ← json.intAt "expires_at"
  if revoked ∨ expiresAt < now then return {}
  else return {
    active := true
    clientId := ← json.textAt "client_id"
    exp := expiresAt
    iat := ← json.ifMember "issued_at" (json.intAt "issued_at") now
    iss := ← json.ifMember "issuer" (json.textAt "issuer") ""
    aud := ← json.ifMember "audience" (json.textAt "audience") ""
    nbf := ← json.ifMember "not_before" (json.intAt "not_before") now
    sub := ← json.textAt "user_id"
    scope := ← json.textAt "scope"
    orgId := ← json.ifMember "org_id" (some <$> json.intAt "org_id") none }

/-- An introspection reads the entry of the token. -/
def introspectToken (token : String) : RedisTokenProg (Except String TokenIntrospection) := do
  let found : Option (Option Json) ← redisToken (.get (tokenKey token))
  match found with
  | some (some json) =>
    match json with
    | .null => return .ok {}
    | json =>
      let now : Int ← redisToken .clock
      return readIntrospection now json
  | _ => return .ok {}

/-- Read, change, write back for an hour: another write may come between. -/
def revokeAccessToken (token revokedBy : String) : RedisTokenProg (Except String Unit) := do
  let found : Option (Option Json) ← redisToken (.get (tokenKey token))
  match found with
  | some (some json) =>
    match json with
    | .null => return .ok ()
    | .obj members =>
      let now : Int ← redisToken .clock
      let updated := (((Json.obj members).set "revoked" (.bool true)).set "revoked_at"
        (.int now)).set "revoked_by" (.str revokedBy)
      let _ ← redisToken (.setex (tokenKey token) 3600 updated)
      return .ok ()
    | _ => return .error "requires objectValue"
  | _ => return .ok ()

/-! ## Calls -/

/-- A call of the repository, by another request. -/
inductive Call where
  | saveAccessToken (t : OAuth2AccessToken)
  | getAccessToken (token : String)
  | introspectToken (token : String)
  | revokeAccessToken (token revokedBy : String)

/-- The program of a call; what it answers is not looked at here. -/
def Call.prog : Call → RedisTokenProg Unit
  | saveAccessToken t => RedisTokenRepository.saveAccessToken t
  | getAccessToken token => (fun _ => ()) <$> RedisTokenRepository.getAccessToken token
  | introspectToken token => (fun _ => ()) <$> RedisTokenRepository.introspectToken token
  | revokeAccessToken token revokedBy =>
    (fun _ => ()) <$> RedisTokenRepository.revokeAccessToken token revokedBy

/-- Run a schedule of calls on a server that holds no tokens yet. -/
def runCalls {ι : Type} [DecidableEq ι] (env : Nat → RedisMoment) (calls : ι → Call)
    (sched : List ι) : Pool RedisTokenSig ι Unit (World RedisTokenSig ι RedisTokenKeys) :=
  Pool.run (World.handler fun n => execRedisToken (env n))
    { store := World.start fun _ => none, prog := fun i => (calls i).prog } sched

/-! ## Well-formed entries -/

/-- The kinds of value the readers expect. -/
inductive Kind where
  | text
  | number
  | flag

/-- The value is of the kind. -/
def Kind.fits : Kind → Json → Bool
  | text, .str _ => true
  | number, .int _ => true
  | flag, .bool _ => true
  | _, _ => false

/-- The kind that each member of an entry has. -/
def memberKind : String → Option Kind
  | "client_id" | "user_id" | "scope" | "issuer" | "audience" | "revoked_by" => some .text
  | "expires_at" | "issued_at" | "not_before" | "introspect_count" | "revoked_at" | "org_id" =>
    some .number
  | "revoked" => some .flag
  | _ => none

/-- Every member that is there has the kind its readers expect. -/
def Typed (members : List (String × Json)) : Prop :=
  ∀ k kind, memberKind k = some kind → ∀ v, members.lookup k = some v → kind.fits v = true

/-- An object with typed members. -/
def WellFormed (json : Json) : Prop :=
  ∃ members, json = .obj members ∧ Typed members

section Reads

variable {members : List (String × Json)} {k : String}

/-- A text member of a typed entry is read. -/
theorem textAt_of_typed (typed : Typed members) (kind : memberKind k = some .text) :
    ∃ s, (Json.obj members).textAt k = .ok s := by
  cases found : members.lookup k with
  | none => exact ⟨"", by simp [Json.textAt, Json.getOr, found, Json.asString, bind, Except.bind]⟩
  | some v =>
      have fits := typed k _ kind v found
      cases v with
      | str s => exact ⟨s, Json.textAt_obj found⟩
      | _ => cases fits

theorem intAt_of_typed (typed : Typed members) (kind : memberKind k = some .number) :
    ∃ n, (Json.obj members).intAt k = .ok n := by
  cases found : members.lookup k with
  | none => exact ⟨0, by simp [Json.intAt, Json.getOr, found, Json.asInt64, bind, Except.bind]⟩
  | some v =>
      have fits := typed k _ kind v found
      cases v with
      | int n => exact ⟨n, Json.intAt_obj found⟩
      | _ => cases fits

theorem boolAt_of_typed (typed : Typed members) (kind : memberKind k = some .flag) :
    ∃ b, (Json.obj members).boolAt k = .ok b := by
  cases found : members.lookup k with
  | none => exact ⟨false, by simp [Json.boolAt, Json.getOr, found, Json.asBool, bind, Except.bind]⟩
  | some v =>
      have fits := typed k _ kind v found
      cases v with
      | bool b => exact ⟨b, Json.boolAt_obj found⟩
      | _ => cases fits

/-- An optional member is read without an exception if a mandatory one would be. -/
theorem ifMember_ok {α : Type} {read : Except String α} (k : String) (default : α)
    (ok : ∃ a, read = .ok a) : ∃ a, (Json.obj members).ifMember k read default = .ok a := by
  obtain ⟨a, read⟩ := ok
  unfold Json.ifMember
  rw [Json.hasMember_obj]
  cases (members.lookup k).isSome with
  | true => exact ⟨a, read⟩
  | false => exact ⟨default, rfl⟩

theorem orgAt_of_typed (typed : Typed members) :
    ∃ id, some <$> (Json.obj members).intAt "org_id" = .ok id := by
  obtain ⟨n, eq⟩ := intAt_of_typed typed (k := "org_id") rfl
  exact ⟨some n, by rw [eq]; rfl⟩

/-- A well-formed entry is read without an exception. -/
theorem readAccessToken_ok (typed : Typed members) (token : String) {revoked : Bool}
    {expiresAt : Int} (flag : (Json.obj members).boolAt "revoked" = .ok revoked)
    (expiry : (Json.obj members).intAt "expires_at" = .ok expiresAt) :
    ∃ t, readAccessToken token (.obj members) = .ok t ∧ t.revoked = revoked ∧
      t.expiresAt = expiresAt := by
  obtain ⟨_, clientId⟩ := textAt_of_typed typed (k := "client_id") rfl
  obtain ⟨_, userId⟩ := textAt_of_typed typed (k := "user_id") rfl
  obtain ⟨_, scope⟩ := textAt_of_typed typed (k := "scope") rfl
  obtain ⟨_, issuedAt⟩ := ifMember_ok "issued_at" 0 (intAt_of_typed typed (k := "issued_at") rfl)
  obtain ⟨_, issuer⟩ := ifMember_ok "issuer" "" (textAt_of_typed typed (k := "issuer") rfl)
  obtain ⟨_, audience⟩ := ifMember_ok "audience" "" (textAt_of_typed typed (k := "audience") rfl)
  obtain ⟨_, notBefore⟩ := ifMember_ok "not_before" 0 (intAt_of_typed typed (k := "not_before") rfl)
  obtain ⟨_, count⟩ := ifMember_ok "introspect_count" 0
    (intAt_of_typed typed (k := "introspect_count") rfl)
  obtain ⟨_, revokedAt⟩ := ifMember_ok "revoked_at" 0 (intAt_of_typed typed (k := "revoked_at") rfl)
  obtain ⟨_, revokedBy⟩ := ifMember_ok "revoked_by" ""
    (textAt_of_typed typed (k := "revoked_by") rfl)
  obtain ⟨_, orgId⟩ := ifMember_ok "org_id" none (orgAt_of_typed typed)
  unfold readAccessToken
  rw [clientId, userId, scope, expiry, flag, issuedAt, issuer, audience, notBefore, count,
    revokedAt, revokedBy, orgId]
  exact ⟨_, rfl, rfl, rfl⟩

/-- A well-formed entry is introspected without an exception, as its flag and expiry say. -/
theorem readIntrospection_ok (typed : Typed members) (now : Int) {revoked : Bool}
    {expiresAt : Int} (flag : (Json.obj members).boolAt "revoked" = .ok revoked)
    (expiry : (Json.obj members).intAt "expires_at" = .ok expiresAt) :
    ∃ r, readIntrospection now (.obj members) = .ok r ∧
      (r.active = true ↔ ¬ (revoked = true ∨ expiresAt < now)) := by
  obtain ⟨_, clientId⟩ := textAt_of_typed typed (k := "client_id") rfl
  obtain ⟨_, userId⟩ := textAt_of_typed typed (k := "user_id") rfl
  obtain ⟨_, scope⟩ := textAt_of_typed typed (k := "scope") rfl
  obtain ⟨_, issuedAt⟩ := ifMember_ok "issued_at" now (intAt_of_typed typed (k := "issued_at") rfl)
  obtain ⟨_, issuer⟩ := ifMember_ok "issuer" "" (textAt_of_typed typed (k := "issuer") rfl)
  obtain ⟨_, audience⟩ := ifMember_ok "audience" "" (textAt_of_typed typed (k := "audience") rfl)
  obtain ⟨_, notBefore⟩ := ifMember_ok "not_before" now
    (intAt_of_typed typed (k := "not_before") rfl)
  obtain ⟨_, orgId⟩ := ifMember_ok "org_id" none (orgAt_of_typed typed)
  unfold readIntrospection
  rw [flag, expiry]
  by_cases dead : revoked = true ∨ expiresAt < now
  · exact ⟨{}, if_pos dead, by simp [dead]⟩
  · rw [clientId, userId, scope, issuedAt, issuer, audience, notBefore, orgId]
    exact ⟨_, if_neg dead, by simp [dead]⟩

end Reads

/-! ## Writing a member -/

/-- Setting a member of its kind keeps an entry well formed. -/
theorem wellFormed_set {json : Json} (wf : WellFormed json) {k : String} {v : Json} {kind : Kind}
    (own : memberKind k = some kind) (fits : kind.fits v = true) : WellFormed (json.set k v) := by
  obtain ⟨members, rfl, typed⟩ := wf
  obtain ⟨members', eq, lookups⟩ := Json.set_lookup members k v
  refine ⟨members', eq, fun k' kind' expected w found => ?_⟩
  rw [lookups] at found
  by_cases same : k' = k
  · subst same
    rw [if_pos rfl] at found
    cases found
    cases own.symm.trans expected
    exact fits
  · rw [if_neg same] at found
    exact typed k' kind' expected w found

/-- What `saveAccessToken` writes. -/
theorem wellFormed_saved (t : OAuth2AccessToken) : WellFormed (.obj (accessTokenMembers t)) := by
  refine ⟨_, rfl, fun k kind expected v found => ?_⟩
  have pair : (k, v) ∈ accessTokenMembers t := by
    obtain ⟨before, after, eq, -⟩ := List.lookup_eq_some_iff.mp found
    rw [eq]
    exact List.mem_append_right before List.mem_cons_self
  have fitting :
      (accessTokenMembers t).all (fun m => (memberKind m.1).all (·.fits m.2)) = true := by
    unfold accessTokenMembers
    cases t.orgId <;> rfl
  have fits := List.all_eq_true.mp fitting _ pair
  rw [expected] at fits
  exact fits

/-! ## Reading one entry -/

section Answers

variable {m : RedisMoment} {keys : RedisTokenKeys} {token : String}
  {members : List (String × Json)}

/-- What the server answers to the look-up of a token. -/
abbrev answer (m : RedisMoment) (keys : RedisTokenKeys) (token : String) : Option (Option Json) :=
  (execRedisToken m (.get (tokenKey token)) keys).1

/-- Without an entry there is no token. -/
theorem getAccessToken_absent (absent : ∀ json, answer m keys token ≠ some (some json)) :
    (getAccessToken token).run (execRedisToken m) keys = (.ok none, keys) := by
  simp only [getAccessToken, redisToken, Prog.call, Prog.op_bind, Prog.run_op]
  rcases eq : (execRedisToken m (.get (tokenKey token)) keys).1 with _ | _ | json
  · rfl
  · rfl
  · exact absurd eq (absent json)

/-- An entry is read as a token. -/
theorem getAccessToken_found (found : answer m keys token = some (some (.obj members))) :
    (getAccessToken token).run (execRedisToken m) keys =
      (some <$> readAccessToken token (.obj members), keys) := by
  simp only [getAccessToken, redisToken, Prog.call, Prog.op_bind, Prog.run_op]
  rw [show (execRedisToken m (.get (tokenKey token)) keys).1 = _ from found]
  rfl

/-- Without an entry the introspection is inactive. -/
theorem introspectToken_absent (absent : ∀ json, answer m keys token ≠ some (some json)) :
    ((introspectToken token).run (execRedisToken m) keys).1 = .ok {} := by
  simp only [introspectToken, redisToken, Prog.call, Prog.op_bind, Prog.run_op]
  rcases eq : (execRedisToken m (.get (tokenKey token)) keys).1 with _ | _ | json
  · rfl
  · rfl
  · exact absurd eq (absent json)

/-- An entry is read as an introspection. -/
theorem introspectToken_found (found : answer m keys token = some (some (.obj members))) :
    ((introspectToken token).run (execRedisToken m) keys).1 =
      readIntrospection m.seconds (.obj members) := by
  simp only [introspectToken, redisToken, Prog.call, Prog.op_bind, Prog.run_op]
  rw [show (execRedisToken m (.get (tokenKey token)) keys).1 = _ from found]
  rfl

end Answers

/-! ## Runs -/

/-- Every entry, also one whose time is up, is well-formed. -/
def AllWellFormed (keys : RedisTokenKeys) : Prop :=
  ∀ key e, keys key = some e → WellFormed e.value

theorem wellFormed_of_find {keys : RedisTokenKeys} (all : AllWellFormed keys) {now : Nat}
    {key : String} {json : Json} (found : keys.find? now key = some json) : WellFormed json := by
  obtain ⟨e, live, rfl⟩ := Option.map_eq_some_iff.mp found
  exact all key e (Option.filter_eq_some_iff.mp live).1

/-- What the server answers to `GET`. -/
theorem wellFormed_of_get {m : RedisMoment} {keys : RedisTokenKeys} (all : AllWellFormed keys)
    {key : String} {json : Json}
    (answer : (execRedisToken m (.get key) keys).1 = some (some json)) :
    WellFormed json := by
  have read : (if m.fault then none else some (keys.find? m.now key)) = some (some json) := answer
  split at read
  · cases read
  · exact wellFormed_of_find all (Option.some.inj read)

/-- A `SETEX` of a well-formed entry keeps all well formed. -/
theorem setex_wellFormed {m : RedisMoment} {keys : RedisTokenKeys} (all : AllWellFormed keys)
    {key : String} {ttl : Nat} {value : Json} (wf : WellFormed value) :
    AllWellFormed (execRedisToken m (.setex key ttl value) keys).2 := by
  simp only [execRedisToken]
  split
  · intro key' e found
    dsimp only at found
    by_cases eq : key' = key
    · subst eq
      rw [Function.update_self] at found
      cases found
      exact wf
    · rw [Function.update_of_ne eq] at found
      exact all key' e found
  · exact all

section Runs

variable {ι : Type} [DecidableEq ι] {env : Nat → RedisMoment} {i : ι}

/-- The calls need no ghost value. -/
abbrev Safe {α : Type} (env : Nat → RedisMoment) (i : ι) (p : RedisTokenProg α) : Prop :=
  Keeps (World.handler fun n => execRedisToken (env n))
    (fun (w : World RedisTokenSig ι RedisTokenKeys) (_ : ι → Unit) => AllWellFormed w.db) i
    (fun _ _ => True) p ()

theorem clock_safe {α : Type} {k : Int → RedisTokenProg α} (rest : ∀ now, Safe env i (k now)) :
    Safe env i (redisToken .clock >>= k) :=
  Keeps.stutter (fun _ _ all _ => all) fun _ _ _ _ => rest _

theorem setex_safe {α : Type} {key : String} {ttl : Nat} {value : Json}
    {k : Bool → RedisTokenProg α} (wf : WellFormed value) (rest : ∀ ok, Safe env i (k ok)) :
    Safe env i (redisToken (.setex key ttl value) >>= k) :=
  Keeps.stutter (fun _ _ all _ => setex_wellFormed all wf) fun _ _ _ _ => rest _

/-- What was read is well-formed. -/
theorem get_safe {α : Type} {key : String} {k : Option (Option Json) → RedisTokenProg α}
    (rest : ∀ found, (∀ json, found = some (some json) → WellFormed json) → Safe env i (k found)) :
    Safe env i (redisToken (.get key) >>= k) :=
  Keeps.stutter (fun _ _ all _ => all) fun _ _ all _ =>
    rest _ fun _ answer => wellFormed_of_get all answer

/-- Reading a token is safe. -/
theorem getAccessToken_safe (token : String) : Safe env i (getAccessToken token) := by
  refine get_safe fun found _ => ?_
  rcases found with _ | _ | json
  · trivial
  · trivial
  · cases json <;> trivial

theorem introspectToken_safe (token : String) : Safe env i (introspectToken token) := by
  refine get_safe fun found _ => ?_
  rcases found with _ | _ | json
  · trivial
  · trivial
  · cases json with
    | null => trivial
    | _ => exact clock_safe fun _ => trivial

/-- So is revoking one. -/
theorem revokeAccessToken_safe (token revokedBy : String) :
    Safe env i (revokeAccessToken token revokedBy) := by
  refine get_safe fun found read => ?_
  rcases found with _ | _ | json
  · trivial
  · trivial
  · cases json with
    | obj members =>
        refine clock_safe fun now => setex_safe ?_ fun _ => trivial
        have flagged := wellFormed_set (read _ rfl) (k := "revoked") (v := .bool true) rfl rfl
        have dated := wellFormed_set flagged (k := "revoked_at") (v := .int now) rfl rfl
        exact wellFormed_set dated (k := "revoked_by") (v := .str revokedBy) rfl rfl
    | _ => trivial

/-- So is every call. -/
theorem prog_safe (call : Call) : Safe env i call.prog := by
  cases call with
  | saveAccessToken t =>
      exact clock_safe fun _ => setex_safe (wellFormed_saved t) fun _ => trivial
  | getAccessToken token => exact (getAccessToken_safe token).bind fun _ _ _ => trivial
  | introspectToken token => exact (introspectToken_safe token).bind fun _ _ _ => trivial
  | revokeAccessToken token revokedBy =>
      exact (revokeAccessToken_safe token revokedBy).bind fun _ _ _ => trivial

/-- **Every entry of a run is well formed**. -/
theorem run_wellFormed (env : Nat → RedisMoment) (calls : ι → Call) (sched : List ι) :
    AllWellFormed (runCalls env calls sched).store.db := by
  have start : AllWellFormed fun _ => none := by
    intro key e found
    cases found
  let c : Pool RedisTokenSig ι Unit (World RedisTokenSig ι RedisTokenKeys) :=
    { store := World.start fun _ => none, prog := fun i => (calls i).prog }
  have good : c.Good (World.handler fun n => execRedisToken (env n))
      (fun w (_ : ι → Unit) => AllWellFormed w.db) (fun _ _ _ => True) :=
    ⟨fun _ => (), start, fun i => prog_safe (calls i)⟩
  obtain ⟨_, all, _⟩ := Pool.run_keeps good sched
  exact all

end Runs

end RedisTokenRepository

end Fulla
