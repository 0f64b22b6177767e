import Fulla.Storage.Db

/-!
# The memory repositories

Every method of `MemoryGrantRepository` and `MemoryTokenRepository` holds the
repository's one recursive mutex from its first to its last statement, so it is
one atomic step: a function of the moment, the arguments and the data.

`saveTokenPair` is not overridden by the memory repository.  The default of the
interface saves the access token and, from the callback and hence under the same
lock, the refresh token, so the pair is one step as well.
-/

namespace Fulla

open Conc

namespace MemoryGrantRepository

/-- The map entry is overwritten. -/
def saveAuthCode (code : OAuth2AuthCode) (db : Db) : Unit × Db :=
  ((), { db with authCodes := db.authCodes.assign code })

/-- An expired code is erased on the way. -/
def getAuthCode (m : Moment) (code : String) (db : Db) : Option OAuth2AuthCode × Db :=
  match db.authCodes.find? code with
  | none => (none, db)
  | some c =>
    if c.expiresAt > m.seconds then (some c, db)
    else (none, { db with authCodes := db.authCodes.erase code })

/-- A `redirect_uri` recorded at authorization time must be repeated exactly; the
expiry is not looked at. -/
def consumeAuthCode (code redirectUri : String) (db : Db) : Option OAuth2AuthCode × Db :=
  match db.authCodes.find? code with
  | none => (none, db)
  | some c =>
    if c.used then (none, db)
    else if c.redirectUri ≠ "" ∧ redirectUri ≠ c.redirectUri then (none, db)
    else (some { c with used := true }, db.markUsed code)

/-- The codes that expired before the current second are erased. -/
def purgeExpired (m : Moment) (db : Db) : Unit × Db :=
  ((), { db with authCodes := db.authCodes.keep fun c => ¬ c.expiresAt < m.seconds })

end MemoryGrantRepository

namespace MemoryTokenRepository

/-- A token without times is issued now and valid from now on. -/
def tokenWithDefaults (m : Moment) (token : OAuth2AccessToken) : OAuth2AccessToken :=
  { token with
    issuedAt := if token.issuedAt = 0 then m.seconds else token.issuedAt
    notBefore := if token.notBefore = 0 then m.seconds else token.notBefore }

/-- The map entry is overwritten by the token with its defaults. -/
def saveAccessToken (m : Moment) (token : OAuth2AccessToken) (db : Db) : Unit × Db :=
  ((), { db with accessTokens := db.accessTokens.assign (tokenWithDefaults m token) })

/-- The map entry is overwritten. -/
def saveRefreshToken (token : OAuth2RefreshToken) (db : Db) : Unit × Db :=
  ((), { db with refreshTokens := db.refreshTokens.assign token })

/-- The default of `ITokenRepository`, under one lock. -/
def saveTokenPair (m : Moment) (at' : OAuth2AccessToken) (rt : OAuth2RefreshToken) (db : Db) :
    Bool × Db :=
  (true, (saveRefreshToken rt (saveAccessToken m at' db).2).2)

/-- Only a token that is neither expired nor revoked is found. -/
def getAccessToken (m : Moment) (token : String) (db : Db) : Option OAuth2AccessToken × Db :=
  match db.accessTokens.find? token with
  | none => (none, db)
  | some t => if t.expiresAt > m.seconds ∧ t.revoked = false then (some t, db) else (none, db)

/-- Only a token that is neither expired nor revoked is found. -/
def getRefreshToken (m : Moment) (token : String) (db : Db) : Option OAuth2RefreshToken × Db :=
  match db.refreshTokens.find? token with
  | none => (none, db)
  | some t => if t.expiresAt > m.seconds ∧ t.revoked = false then (some t, db) else (none, db)

/-- The entry is marked, if it is there. -/
def revokeRefreshToken (token : String) (db : Db) : Unit × Db :=
  ((), db.revokeRefreshWhere fun r => r.token = token)

/-- Compare-and-set of the `revoked` flag; the record is returned as it is after it. -/
def atomicRevokeRefreshToken (token : String) (db : Db) : Option OAuth2RefreshToken × Db :=
  match db.refreshTokens.find? token with
  | none => (none, db)
  | some t =>
    if t.revoked then (none, db)
    else (some { t with revoked := true }, db.revokeRefreshWhere fun r => r.token = token)

/-- One turn of the loop of `revokeTokenFamily` over the refresh tokens. -/
def revokeTokenFamilyStep (familyId : String) (db : Db) (rt : OAuth2RefreshToken) : Db :=
  if rt.familyId = familyId then
    (db.revokeRefreshWhere fun r => r.token = rt.token).revokeAccessWhere fun a =>
      a.token = rt.accessToken
  else db

/-- The empty family is not special here: it is the family of every token without one. -/
def revokeTokenFamily (familyId : String) (db : Db) : Unit × Db :=
  ((), db.refreshTokens.rows.foldl (revokeTokenFamilyStep familyId) db)

/-- An access token by that name is looked for first, then a refresh token. -/
def introspectToken (m : Moment) (token : String) (db : Db) : TokenIntrospection × Db :=
  match db.accessTokens.find? token with
  | some a =>
    if a.revoked ∨ a.expiresAt < m.seconds then ({ }, db)
    else
      ({ active := true, clientId := a.clientId, exp := a.expiresAt, iat := a.issuedAt,
         iss := a.issuer, aud := a.audience, nbf := a.notBefore, sub := a.userId,
         scope := a.scope, orgId := a.orgId }, db)
  | none =>
    match db.refreshTokens.find? token with
    | some r =>
      if r.revoked ∨ r.expiresAt < m.seconds then ({ }, db)
      else
        ({ active := true, clientId := r.clientId, exp := r.expiresAt, sub := r.userId,
           scope := r.scope, orgId := r.orgId }, db)
    | none => ({ }, db)

/-- The counter of the entry goes up by one. -/
def incrementIntrospectCount (token : String) (db : Db) : Unit × Db :=
  ((), { db with
    accessTokens := db.accessTokens.updateWhere (fun a => a.token = token)
      (fun a => { a with introspectCount := a.introspectCount + 1 }) fun _ => rfl })

/-- The name may be that of an access token, of a refresh token, or of both. -/
def revokeAccessToken (m : Moment) (token revokedBy : String) (db : Db) : Unit × Db :=
  ((), { db with
    accessTokens := db.accessTokens.updateWhere (fun a => a.token = token)
      (fun a => { a with revoked := true, revokedAt := m.seconds, revokedBy := revokedBy })
      fun _ => rfl
    refreshTokens := db.refreshTokens.updateWhere (fun r => r.token = token)
      (fun r => { r with revoked := true, revokedAt := m.seconds, revokedBy := revokedBy })
      fun _ => rfl })

/-- Expired tokens of both kinds are erased. -/
def purgeExpired (m : Moment) (db : Db) : Unit × Db :=
  ((), { db with
    accessTokens := db.accessTokens.keep fun a => ¬ a.expiresAt < m.seconds
    refreshTokens := db.refreshTokens.keep fun r => ¬ r.expiresAt < m.seconds })

end MemoryTokenRepository

/-! ## The locked calls as operations -/

/-- The calls of the memory repositories; each holds the mutex from its first line to its last. -/
inductive MemOp where
  | saveAuthCode (code : OAuth2AuthCode)
  | getAuthCode (code : String)
  | consumeAuthCode (code redirectUri : String)
  | purgeExpiredGrants
  | saveTokenPair (at' : OAuth2AccessToken) (rt : OAuth2RefreshToken)
  | getAccessToken (token : String)
  | getRefreshToken (token : String)
  | revokeRefreshToken (token : String)
  | atomicRevokeRefreshToken (token : String)
  | revokeTokenFamily (familyId : String)
  | introspectToken (token : String)
  | incrementIntrospectCount (token : String)
  | revokeAccessToken (token revokedBy : String)
  | purgeExpiredTokens

namespace MemOp

/-- What a call returns. -/
abbrev Res : MemOp → Type
  | saveAuthCode _ => Unit
  | getAuthCode _ => Option OAuth2AuthCode
  | consumeAuthCode _ _ => Option OAuth2AuthCode
  | purgeExpiredGrants => Unit
  | saveTokenPair _ _ => Bool
  | getAccessToken _ => Option OAuth2AccessToken
  | getRefreshToken _ => Option OAuth2RefreshToken
  | revokeRefreshToken _ => Unit
  | atomicRevokeRefreshToken _ => Option OAuth2RefreshToken
  | revokeTokenFamily _ => Unit
  | introspectToken _ => TokenIntrospection
  | incrementIntrospectCount _ => Unit
  | revokeAccessToken _ _ => Unit
  | purgeExpiredTokens => Unit

/-- What a call does to the maps. -/
def exec (m : Moment) : (o : MemOp) → Db → o.Res × Db
  | saveAuthCode code => MemoryGrantRepository.saveAuthCode code
  | getAuthCode code => MemoryGrantRepository.getAuthCode m code
  | consumeAuthCode code uri => MemoryGrantRepository.consumeAuthCode code uri
  | purgeExpiredGrants => MemoryGrantRepository.purgeExpired m
  | saveTokenPair a r => MemoryTokenRepository.saveTokenPair m a r
  | getAccessToken t => MemoryTokenRepository.getAccessToken m t
  | getRefreshToken t => MemoryTokenRepository.getRefreshToken m t
  | revokeRefreshToken t => MemoryTokenRepository.revokeRefreshToken t
  | atomicRevokeRefreshToken t => MemoryTokenRepository.atomicRevokeRefreshToken t
  | revokeTokenFamily f => MemoryTokenRepository.revokeTokenFamily f
  | introspectToken t => MemoryTokenRepository.introspectToken m t
  | incrementIntrospectCount t => MemoryTokenRepository.incrementIntrospectCount t
  | revokeAccessToken t by' => MemoryTokenRepository.revokeAccessToken m t by'
  | purgeExpiredTokens => MemoryTokenRepository.purgeExpired m

end MemOp

end Fulla
