import Mathlib.Algebra.Group.Int.Defs
import Mathlib.Algebra.Group.Nat.Defs
import Fulla.Model.RedisFormat
import Fulla.Storage.Db

/-!
# Redis commands of the grant repository

`RedisGrantRepository` keeps a code as a JSON object under `oauth2:code:<code>`.
The commands are `SETEX`, `GET` and the Lua script of `consumeAuthCode`, each
atomic on the server and run against the server's own clock.  jsoncpp's writer
and parser are inverse to each other; cjson, which the script decodes and encodes
with, prints a number with fourteen significant digits.  Keys and arguments are
passed as C strings and end at their first NUL; a NUL inside a JSON text is escaped.
-/

namespace Fulla

open Conc

namespace Redis

/-- The JSON object `saveAuthCode` builds; empty members are omitted. -/
def serializeCode (c : OAuth2AuthCode) : CodeJson where
  clientId := c.clientId
  userId := c.userId
  scope := c.scope
  redirectUri := c.redirectUri
  expiresAt := c.expiresAt
  used := c.used
  codeChallenge := if c.codeChallenge = "" then none else some c.codeChallenge
  codeChallengeMethod := if c.codeChallenge = "" then none else some c.codeChallengeMethod
  nonce := if c.nonce = "" then none else some c.nonce
  authTime := if c.authTime > 0 then some c.authTime else none
  amr := if c.amr = "" then none else some c.amr
  orgId := c.orgId

/-- The record read back from the object: an absent member is jsoncpp's default. -/
def deserializeCode (code : String) (j : CodeJson) : OAuth2AuthCode where
  code := code
  clientId := j.clientId
  userId := j.userId
  scope := j.scope
  redirectUri := j.redirectUri
  codeChallenge := j.codeChallenge.getD ""
  codeChallengeMethod := j.codeChallengeMethod.getD ""
  nonce := j.nonce.getD ""
  expiresAt := j.expiresAt
  used := j.used
  authTime := j.authTime.getD 0
  amr := j.amr.getD ""
  orgId := j.orgId

/-- The key as the server gets it. -/
def codeKey (code : String) : String :=
  RedisFormat.cString ("oauth2:code:" ++ code)

/-- A number after `cjson.decode` and `cjson.encode`: fourteen digits survive. -/
def cjsonNumber (n : Int) : Int :=
  if n.natAbs < 10 ^ 14 then n
  else
    let unit : Int := 10 ^ ((Nat.toDigits 10 n.natAbs).length - 14)
    (n + unit / 2) / unit * unit

/-- What is left of the numbers after `cjson.decode` and `cjson.encode`. -/
def cjsonRoundTrip (j : CodeJson) : CodeJson :=
  { j with
    expiresAt := cjsonNumber j.expiresAt
    authTime := j.authTime.map cjsonNumber
    orgId := j.orgId.map cjsonNumber }

/-- The entry under `key`, unless its time is up. -/
def lookup (now : Nat) (key : String) (db : Db) : Option RedisEntry :=
  (db.redis.find? key).filter (·.alive now)

/-- The server refuses an expiry that overflows its millisecond clock. -/
def setex (now : Nat) (key : String) (ttl : Nat) (value : CodeJson) (db : Db) : Bool × Db :=
  if now + ttl * 1000 < 2 ^ 63 then
    (true, { db with
      redis :=
        db.redis.assign { key := key, value := value, expireAt := some (now + ttl * 1000) } })
  else (false, db)

/-- `GET`. -/
def get (now : Nat) (key : String) (db : Db) : Option CodeJson × Db :=
  ((lookup now key db).map RedisEntry.value, db)

/-- The `TTL` command: the remaining time rounded to seconds, `-1` without expiry. -/
def ttl (now : Nat) (e : RedisEntry) : Int :=
  match e.expireAt with
  | none => -1
  | some t => ((t - now + 500) / 1000 : Nat)

/-- The Lua script of `consumeAuthCode`, with `KEYS[1]` and `ARGV[1]`. -/
def consumeScript (now : Nat) (key redirectUri : String) (db : Db) : Option CodeJson × Db :=
  match lookup now key db with
  | none => (none, db)
  | some e =>
    let json := e.value
    if json.used then (none, db)
    else if json.redirectUri ≠ "" ∧ redirectUri ≠ json.redirectUri then (none, db)
    else
      let newVal := cjsonRoundTrip { json with used := true }
      let expireAt := if ttl now e > 0 then some (now + (ttl now e).toNat * 1000) else none
      (some newVal,
        { db with redis := db.redis.assign { key := key, value := newVal, expireAt := expireAt } })

section Script

variable {now : Nat} {key redirectUri : String} {db : Db} {e : RedisEntry}

theorem consumeScript_absent (absent : lookup now key db = none) :
    consumeScript now key redirectUri db = (none, db) := by
  simp only [consumeScript, absent]

theorem consumeScript_used (found : lookup now key db = some e) (used : e.value.used = true) :
    consumeScript now key redirectUri db = (none, db) := by
  simp only [consumeScript, found, used, if_true]

theorem consumeScript_mismatch (found : lookup now key db = some e)
    (unused : ¬ e.value.used = true)
    (differs : e.value.redirectUri ≠ "" ∧ redirectUri ≠ e.value.redirectUri) :
    consumeScript now key redirectUri db = (none, db) := by
  simp only [consumeScript, found]
  rw [if_neg unused, if_pos differs]

/-- The entry the script writes back. -/
def consumed (now : Nat) (key : String) (e : RedisEntry) : RedisEntry where
  key := key
  value := cjsonRoundTrip { e.value with used := true }
  expireAt := if ttl now e > 0 then some (now + (ttl now e).toNat * 1000) else none

theorem consumeScript_match (found : lookup now key db = some e) (unused : ¬ e.value.used = true)
    (matching : ¬ (e.value.redirectUri ≠ "" ∧ redirectUri ≠ e.value.redirectUri)) :
    consumeScript now key redirectUri db =
      (some (consumed now key e).value,
        { db with redis := db.redis.assign (consumed now key e) }) := by
  simp only [consumeScript, found]
  rw [if_neg unused, if_neg matching]
  rfl

end Script

end Redis

/-- The commands of the Redis repository. -/
inductive RedisOp where
  | setex (key : String) (ttl : Nat) (value : CodeJson)
  | get (key : String)
  | consumeScript (key redirectUri : String)

namespace RedisOp

/-- What a command answers. -/
abbrev Res : RedisOp → Type
  | setex _ _ _ => Bool
  | get _ => Option CodeJson
  | consumeScript _ _ => Option CodeJson

/-- The reply of a command that fails. -/
def refused : (o : RedisOp) → o.Res
  | setex _ _ _ => false
  | get _ => none
  | consumeScript _ _ => none

/-- The command on a server that is up. -/
def effect (m : Moment) : (o : RedisOp) → Db → o.Res × Db
  | setex key ttl value => Redis.setex m.now key ttl value
  | get key => Redis.get m.now key
  | consumeScript key uri => Redis.consumeScript m.now key uri

/-- A command fails or takes effect. -/
def exec (m : Moment) (o : RedisOp) (db : Db) : o.Res × Db :=
  if m.fault then (o.refused, db) else o.effect m db

theorem exec_of_fault {m : Moment} {o : RedisOp} {db : Db} (fault : m.fault = true) :
    o.exec m db = (o.refused, db) :=
  if_pos fault

theorem exec_of_ok {m : Moment} {o : RedisOp} {db : Db} (ok : ¬ m.fault = true) :
    o.exec m db = o.effect m db :=
  if_neg ok

end RedisOp

end Fulla
