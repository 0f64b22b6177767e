import Fulla.Conc.Pool
import Fulla.Storage.Memory
import Fulla.Storage.Postgres
import Fulla.Storage.Redis

/-!
# Repositories as programs

`StoreSig` is the signature of everything the oauth2 services do to the outside:
reading the clock and the CSPRNG, asking a port, calling a locked method of a
memory repository, sending an SQL statement or a Redis command.  `GrantRepository`
and `TokenRepository` are the interfaces `IGrantRepository` and
`ITokenRepository`; a method is a program over `StoreSig`, because the Postgres
ones send more than one statement and the interleavings of those matter.
-/

namespace Fulla

open Conc

/-- The clock, the CSPRNG and the ports. -/
inductive EnvOp where
  | nowSeconds
  | secureRandomBytes (length : Nat)
  | validateClient (clientId clientSecret : String)
  | resolveSubject (subject : String)
  | getRolesBySubject (subject : String)
  | getRoles (internalUserId : Int)
  | resolveOrgContext (subject : String) (orgId : Int)
  | normalizeSubject (subject : String)
  | getEnabledMappings
  | resolveUserProfile (subject : String)
  | audit (event : AuditEvent)

namespace EnvOp

/-- What an operation of the surroundings answers. -/
abbrev Res : EnvOp → Type
  | nowSeconds => Int
  | secureRandomBytes _ => Option (List UInt8)
  | validateClient _ _ => Bool
  | resolveSubject _ => Option Int
  | getRolesBySubject _ => List String
  | getRoles _ => List String
  | resolveOrgContext _ _ => Option OrgContextInfo
  | normalizeSubject _ => Option String
  | getEnabledMappings => List ClaimMappingEntry
  | resolveUserProfile _ => Option String
  | audit _ => Unit

/-- The answer at a moment. -/
def answer (m : Moment) : (o : EnvOp) → o.Res
  | nowSeconds => m.seconds
  | secureRandomBytes n => m.random n
  | validateClient c s => m.validateClient c s
  | resolveSubject s => m.resolveSubject s
  | getRolesBySubject s => m.getRolesBySubject s
  | getRoles u => m.getRoles u
  | resolveOrgContext s o => m.resolveOrgContext s o
  | normalizeSubject s => m.normalizeSubject s
  | getEnabledMappings => m.getEnabledMappings
  | resolveUserProfile s => m.resolveUserProfile s
  | audit _ => ()

end EnvOp

/-- The operations of a program over the store. -/
inductive StoreOp where
  | env (o : EnvOp)
  | mem (o : MemOp)
  | sql (o : SqlOp)
  | redis (o : RedisOp)

abbrev StoreSig : Sig where
  Op := StoreOp
  Res
    | .env o => o.Res
    | .mem o => o.Res
    | .sql o => o.Res
    | .redis o => o.Res

/-- One operation at one moment; the environment operations leave the data alone. -/
def execOp (m : Moment) : Handler StoreSig Db
  | .env o, db => (o.answer m, db)
  | .mem o, db => o.exec m db
  | .sql o, db => o.exec m db
  | .redis o, db => o.exec m db

/-- The surroundings of every step of a run, by the number of steps before it. -/
abbrev Env := Nat → Moment

/-- Execution in a run: step `n` happens at moment `env n`. -/
def exec (env : Env) : Nat → Handler StoreSig Db := fun n => execOp (env n)

/-- A program over the store. -/
abbrev StoreProg := Prog StoreSig

/-- One step of a run over the store. -/
abbrev StoreEvent (ι : Type) := Event StoreSig ι Db

abbrev StoreWorld (ι : Type) := World StoreSig ι Db

/-- Ask the surroundings. -/
def ask (o : EnvOp) : StoreProg o.Res :=
  Prog.call (S := StoreSig) (.env o)

/-- One call of a memory repository. -/
def mem (o : MemOp) : StoreProg o.Res :=
  Prog.call (S := StoreSig) (.mem o)

def sql (o : SqlOp) : StoreProg o.Res :=
  Prog.call (S := StoreSig) (.sql o)

/-- One Redis command. -/
def redis (o : RedisOp) : StoreProg o.Res :=
  Prog.call (S := StoreSig) (.redis o)

/-- `std::time(nullptr)`. -/
def nowSeconds : StoreProg Int :=
  ask .nowSeconds

/-! ## Interfaces -/

/-- The port `IGrantRepository`, as far as it is used. -/
structure GrantRepository where
  saveAuthCode : OAuth2AuthCode → StoreProg Unit
  getAuthCode : String → StoreProg (Option OAuth2AuthCode)
  consumeAuthCode : String → String → StoreProg (Option OAuth2AuthCode)
  purgeExpired : StoreProg Unit

/-- The port `ITokenRepository`, as far as it is used. -/
structure TokenRepository where
  saveTokenPair : OAuth2AccessToken → OAuth2RefreshToken → StoreProg Bool
  getAccessToken : String → StoreProg (Option OAuth2AccessToken)
  getRefreshToken : String → StoreProg (Option OAuth2RefreshToken)
  revokeRefreshToken : String → StoreProg Unit
  atomicRevokeRefreshToken : String → StoreProg (Option OAuth2RefreshToken)
  revokeTokenFamily : String → StoreProg Unit
  revokeAccessToken : String → String → StoreProg Unit
  purgeExpired : StoreProg Unit

/-! ## Memory -/

/-- The memory repository as the port. -/
def memoryGrantRepository : GrantRepository where
  saveAuthCode code := mem (.saveAuthCode code)
  getAuthCode code := mem (.getAuthCode code)
  consumeAuthCode code redirectUri := mem (.consumeAuthCode code redirectUri)
  purgeExpired := mem .purgeExpiredGrants

/-- The memory repository as the port. -/
def memoryTokenRepository : TokenRepository where
  saveTokenPair a r := mem (.saveTokenPair a r)
  getAccessToken t := mem (.getAccessToken t)
  getRefreshToken t := mem (.getRefreshToken t)
  revokeRefreshToken t := mem (.revokeRefreshToken t)
  atomicRevokeRefreshToken t := mem (.atomicRevokeRefreshToken t)
  revokeTokenFamily f := mem (.revokeTokenFamily f)
  revokeAccessToken t revokedBy := mem (.revokeAccessToken t revokedBy)
  purgeExpired := mem .purgeExpiredTokens

/-! ## Postgres -/

namespace PostgresGrantRepository

/-- The insertion error is only logged. -/
def saveAuthCode (code : OAuth2AuthCode) : StoreProg Unit := do
  let _ ← sql (.insertCode code)
  return ()

/-- The conditional `UPDATE` comes first; the `redirect_uri` is compared on the row
it returned. -/
def consumeAuthCode (code redirectUri : String) : StoreProg (Option OAuth2AuthCode) := do
  match ← (sql (.consumeCode code) : StoreProg (Option OAuth2AuthCode)) with
  | none => return none
  | some row =>
    if row.redirectUri ≠ "" ∧ redirectUri ≠ row.redirectUri then return none
    else return some row

/-- Expired codes are deleted by one statement. -/
def purgeExpired : StoreProg Unit := do
  let now ← nowSeconds
  let _ ← sql (.deleteExpiredCodes now)
  return ()

end PostgresGrantRepository

/-- The Postgres repository as the port. -/
def postgresGrantRepository : GrantRepository where
  saveAuthCode := PostgresGrantRepository.saveAuthCode
  getAuthCode code := sql (.selectCode code)
  consumeAuthCode := PostgresGrantRepository.consumeAuthCode
  purgeExpired := PostgresGrantRepository.purgeExpired

namespace PostgresTokenRepository

/-- `getAccessToken` reads only these columns. -/
def getAccessToken (token : String) : StoreProg (Option OAuth2AccessToken) := do
  let row : Option OAuth2AccessToken ← sql (.selectAccess token)
  return row.map fun a =>
    { token := a.token, clientId := a.clientId, userId := a.userId, scope := a.scope,
      expiresAt := a.expiresAt, revoked := a.revoked, orgId := a.orgId }

/-- Unlike the memory repository this finds revoked and expired tokens too. -/
def getRefreshToken (token : String) : StoreProg (Option OAuth2RefreshToken) := do
  let row : Option OAuth2RefreshToken ← sql (.selectRefresh token)
  return row.map Sql.refreshRow

/-- One `UPDATE`, whatever it matches. -/
def revokeRefreshToken (token : String) : StoreProg Unit := do
  let _ ← sql (.revokeRefresh token)
  return ()

/-- Two statements: nothing keeps another request from running between them.  The
second is skipped when the first fails; either way the callback runs. -/
def revokeTokenFamily (familyId : String) : StoreProg Unit :=
  if familyId = "" then return ()
  else do
    let ok : Bool ← sql (.revokeFamilyRefresh familyId)
    if ok then
      let _ ← sql (.revokeFamilyAccess familyId)
      return ()
    else return ()

/-- The access token first, then the refresh-token family behind it.  When the
audited update fails, the fallback revokes only the paired refresh token. -/
def revokeAccessToken (token revokedBy : String) : StoreProg Unit := do
  let now ← nowSeconds
  let found : Option OAuth2AccessToken ← sql (.selectAccess token)
  match found with
  | none => return ()
  | some _ =>
    let audited : Bool ← sql (.revokeAccessAudited now token revokedBy)
    if audited then
      let rt : Option OAuth2RefreshToken ← sql (.selectRefreshByAccess token)
      match rt with
      | none => return ()
      | some rt =>
        if rt.familyId ≠ "" then revokeTokenFamily rt.familyId
        else
          let _ ← sql (.revokeRefresh rt.token)
          return ()
    else
      let simple : Bool ← sql (.revokeAccess token)
      if simple then
        let rt : Option OAuth2RefreshToken ← sql (.selectRefreshByAccess token)
        match rt with
        | none => return ()
        | some rt =>
          let _ ← sql (.revokeRefresh rt.token)
          return ()
      else return ()

/-- Expired tokens are deleted, table by table. -/
def purgeExpired : StoreProg Unit := do
  let now ← nowSeconds
  let _ ← sql (.deleteExpiredAccess now)
  let _ ← sql (.deleteExpiredRefresh now)
  let _ ← sql (.archiveExpiredTokens 30)
  return ()

end PostgresTokenRepository

/-- The Postgres repository as the port. -/
def postgresTokenRepository : TokenRepository where
  saveTokenPair a r := sql (.insertTokenPair a r)
  getAccessToken := PostgresTokenRepository.getAccessToken
  getRefreshToken := PostgresTokenRepository.getRefreshToken
  revokeRefreshToken := PostgresTokenRepository.revokeRefreshToken
  atomicRevokeRefreshToken t := sql (.casRevokeRefresh t)
  revokeTokenFamily := PostgresTokenRepository.revokeTokenFamily
  revokeAccessToken := PostgresTokenRepository.revokeAccessToken
  purgeExpired := PostgresTokenRepository.purgeExpired

/-! ## Redis -/

namespace RedisGrantRepository

/-- The lifetime is computed from the caller's clock, and is at least a second. -/
def saveAuthCode (code : OAuth2AuthCode) : StoreProg Unit := do
  let nowSec ← nowSeconds
  let ttl : Nat := if code.expiresAt > nowSec then (code.expiresAt - nowSec).toNat else 1
  let _ ← redis (.setex (Redis.codeKey code.code) ttl (Redis.serializeCode code))
  return ()

/-- The entry is read and turned into a record. -/
def getAuthCode (code : String) : StoreProg (Option OAuth2AuthCode) := do
  let json : Option CodeJson ← redis (.get (Redis.codeKey code))
  return json.map (Redis.deserializeCode code)

/-- The consuming script runs on the server, in one step. -/
def consumeAuthCode (code redirectUri : String) : StoreProg (Option OAuth2AuthCode) := do
  let json : Option CodeJson ← redis
    (.consumeScript (Redis.codeKey code) (RedisFormat.cString redirectUri))
  return json.map fun j => { Redis.deserializeCode code j with used := true }

end RedisGrantRepository

/-- Expiry is left to the server: `purgeExpired` does nothing. -/
def redisGrantRepository : GrantRepository where
  saveAuthCode := RedisGrantRepository.saveAuthCode
  getAuthCode := RedisGrantRepository.getAuthCode
  consumeAuthCode := RedisGrantRepository.consumeAuthCode
  purgeExpired := return ()

/-! ## Choice of backend -/

/-- Where the codes are kept. -/
inductive GrantBackend where
  | memory
  | redis
  | postgres
deriving DecidableEq, Repr

/-- The repository of a backend. -/
def GrantBackend.repository : GrantBackend → GrantRepository
  | memory => memoryGrantRepository
  | redis => redisGrantRepository
  | postgres => postgresGrantRepository

/-- Where the tokens are kept. -/
inductive TokenBackend where
  | memory
  | postgres
deriving DecidableEq, Repr

/-- The repository of a backend. -/
def TokenBackend.repository : TokenBackend → TokenRepository
  | memory => memoryTokenRepository
  | postgres => postgresTokenRepository

end Fulla
