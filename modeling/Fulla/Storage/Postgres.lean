import Fulla.Storage.Db

/-!
# SQL statements of the Postgres repositories

One constructor of `SqlOp` is one statement `PostgresGrantRepository` and
`PostgresTokenRepository` send, or one transaction committed as a whole
(`insertTokenPair`); each is atomic.  A statement answers `none` or `false` where
the source's exception callback runs: the server refused it, a constraint of the
schema (`apps/server/migrations`) failed, or `Mapper::findOne` did not find
exactly one row.

Columns that an `INSERT` leaves out read back as the default of the field.
-/

namespace Fulla

open Conc

namespace Sql

/-- A `VARCHAR(n)` column takes the text. -/
def varchar (n : Nat) (s : String) : Bool :=
  s.length ≤ n

/-- Foreign key into `organizations`. -/
def orgExists (db : Db) : Option Int → Bool
  | none => true
  | some id => id ∈ db.orgIds

/-- The constraints of `oauth2_codes` other than its primary key. -/
def codeFits (db : Db) (c : OAuth2AuthCode) : Bool :=
  varchar 100 c.code && varchar 50 c.clientId && decide (c.clientId ∈ db.clientIds) &&
    varchar 50 c.userId && varchar 128 c.codeChallenge && varchar 10 c.codeChallengeMethod &&
    varchar 128 c.amr && varchar 512 c.nonce && orgExists db c.orgId

/-- The row `saveAuthCode` builds: a challenge method without a challenge and a
time that is not positive are not written. -/
def codeRow (c : OAuth2AuthCode) : OAuth2AuthCode :=
  { c with
    codeChallengeMethod := if c.codeChallenge = "" then "" else c.codeChallengeMethod
    authTime := if c.authTime > 0 then c.authTime else 0 }

/-- `INSERT` of a code; a duplicate key or a value that does not fit refuses it. -/
def insertCode (c : OAuth2AuthCode) (db : Db) : Bool × Db :=
  if codeFits db (codeRow c) then
    match db.authCodes.insertNew (codeRow c) with
    | some codes => (true, { db with authCodes := codes })
    | none => (false, db)
  else (false, db)

/-- `SELECT` of a code by its hash. -/
def selectCode (code : String) (db : Db) : Option OAuth2AuthCode × Db :=
  (db.authCodes.find? code, db)

/-- `UPDATE oauth2_codes SET used = true WHERE code = $1 AND used = false RETURNING ...`:
the updated row, if there was one. -/
def consumeCode (code : String) (db : Db) : Option OAuth2AuthCode × Db :=
  match db.authCodes.find? code with
  | none => (none, db)
  | some c => if c.used then (none, db) else (some { c with used := true }, db.markUsed code)

/-- `DELETE` of the codes that expired before `now`. -/
def deleteExpiredCodes (now : Int) (db : Db) : Bool × Db :=
  (true, { db with authCodes := db.authCodes.keep fun c => ¬ c.expiresAt < now })

/-- The constraints of `oauth2_access_tokens` other than its primary key. -/
def accessFits (db : Db) (a : OAuth2AccessToken) : Bool :=
  varchar 100 a.token && varchar 50 a.clientId && decide (a.clientId ∈ db.clientIds) &&
    varchar 50 a.userId && varchar 255 a.issuer && orgExists db a.orgId

/-- The constraints of `oauth2_refresh_tokens` other than its primary key. -/
def refreshFits (db : Db) (r : OAuth2RefreshToken) : Bool :=
  varchar 100 r.token && varchar 100 r.accessToken && varchar 50 r.clientId &&
    decide (r.clientId ∈ db.clientIds) && varchar 50 r.userId && varchar 64 r.familyId &&
    orgExists db r.orgId

/-- The access-token row: `audience` is not among the columns, and `issued_at` and
`not_before` take the server's clock, rounded to the second. -/
def accessRow (m : Moment) (a : OAuth2AccessToken) : OAuth2AccessToken :=
  { token := a.token, clientId := a.clientId, userId := a.userId, scope := a.scope,
    expiresAt := a.expiresAt, revoked := a.revoked, issuer := a.issuer, orgId := a.orgId,
    issuedAt := ((m.now + 500) / 1000 : Nat), notBefore := ((m.now + 500) / 1000 : Nat) }

/-- The columns that are written for a refresh token. -/
def refreshRow (r : OAuth2RefreshToken) : OAuth2RefreshToken :=
  { token := r.token, accessToken := r.accessToken, clientId := r.clientId, userId := r.userId,
    scope := r.scope, expiresAt := r.expiresAt, revoked := r.revoked, familyId := r.familyId,
    orgId := r.orgId }

/-- Both `INSERT`s and the commit; any failure rolls the transaction back. -/
def insertTokenPair (m : Moment) (a : OAuth2AccessToken) (r : OAuth2RefreshToken) (db : Db) :
    Bool × Db :=
  if accessFits db a && refreshFits db r then
    match db.accessTokens.insertNew (accessRow m a), db.refreshTokens.insertNew (refreshRow r) with
    | some accessTokens, some refreshTokens =>
      (true, { db with accessTokens := accessTokens, refreshTokens := refreshTokens })
    | _, _ => (false, db)
  else (false, db)

/-- `SELECT` of an access token by its hash. -/
def selectAccess (token : String) (db : Db) : Option OAuth2AccessToken × Db :=
  (db.accessTokens.find? token, db)

/-- `SELECT` of a refresh token by its hash. -/
def selectRefresh (token : String) (db : Db) : Option OAuth2RefreshToken × Db :=
  (db.refreshTokens.find? token, db)

/-- `findOne` on the `access_token` column, which is not unique. -/
def selectRefreshByAccess (token : String) (db : Db) : Option OAuth2RefreshToken × Db :=
  match db.refreshTokens.rows.filter fun r => r.accessToken = token with
  | [r] => (some r, db)
  | _ => (none, db)

/-- `UPDATE` that revokes a refresh token, revoked or not. -/
def revokeRefresh (token : String) (db : Db) : Bool × Db :=
  (true, db.revokeRefreshWhere fun r => r.token = token)

/-- `UPDATE oauth2_refresh_tokens SET revoked = true WHERE token = $1 AND revoked = false
RETURNING ...`, read back into the DTO. -/
def casRevokeRefresh (token : String) (db : Db) : Option OAuth2RefreshToken × Db :=
  match db.refreshTokens.find? token with
  | none => (none, db)
  | some r =>
    if r.revoked then (none, db)
    else
      (some { refreshRow r with revoked := true },
        db.revokeRefreshWhere fun r => r.token = token)

/-- First statement of `revokeTokenFamily`. -/
def revokeFamilyRefresh (familyId : String) (db : Db) : Bool × Db :=
  (true, db.revokeRefreshWhere fun r => r.familyId = familyId)

/-- Second statement of `revokeTokenFamily`, with its sub-select. -/
def revokeFamilyAccess (familyId : String) (db : Db) : Bool × Db :=
  (true, db.revokeAccessWhere fun a =>
    db.refreshTokens.rows.any fun r => r.familyId = familyId && r.accessToken = a.token)

/-- The audited `UPDATE` of `revokeAccessToken`; `revoked_by` is a `VARCHAR(50)`. -/
def revokeAccessAudited (now : Int) (token revokedBy : String) (db : Db) : Bool × Db :=
  if varchar 50 revokedBy then
    (true, { db with
      accessTokens := db.accessTokens.updateWhere (fun a => a.token = token)
        (fun a => { a with revoked := true, revokedAt := now, revokedBy := revokedBy })
        fun _ => rfl })
  else (false, db)

/-- `UPDATE` that revokes an access token, revoked or not. -/
def revokeAccess (token : String) (db : Db) : Bool × Db :=
  (true, db.revokeAccessWhere fun a => a.token = token)

/-- `DELETE` of the access tokens that expired before `now`. -/
def deleteExpiredAccess (now : Int) (db : Db) : Bool × Db :=
  (true, { db with accessTokens := db.accessTokens.keep fun a => ¬ a.expiresAt < now })

/-- `DELETE` of the refresh tokens that expired before `now`. -/
def deleteExpiredRefresh (now : Int) (db : Db) : Bool × Db :=
  (true, { db with refreshTokens := db.refreshTokens.keep fun r => ¬ r.expiresAt < now })

/-- The stored function `archive_expired_tokens`: it moves old access tokens away.
An access token that was never revoked with an audit record has no `revoked_at`. -/
def archiveExpiredTokens (m : Moment) (daysOld : Nat) (db : Db) : Bool × Db :=
  let cutoff : Int := ((m.now + 500) / 1000 : Nat) - (daysOld * 86400 : Nat)
  (true, { db with
    accessTokens := db.accessTokens.keep fun a =>
      ¬ (a.expiresAt < cutoff ∨ (a.revoked ∧ a.revokedAt ≠ 0 ∧ a.revokedAt < cutoff)) })

end Sql

/-- The statements of the Postgres repositories. -/
inductive SqlOp where
  | insertCode (code : OAuth2AuthCode)
  | selectCode (code : String)
  | consumeCode (code : String)
  | deleteExpiredCodes (now : Int)
  | insertTokenPair (at' : OAuth2AccessToken) (rt : OAuth2RefreshToken)
  | selectAccess (token : String)
  | selectRefresh (token : String)
  | selectRefreshByAccess (token : String)
  | revokeRefresh (token : String)
  | casRevokeRefresh (token : String)
  | revokeFamilyRefresh (familyId : String)
  | revokeFamilyAccess (familyId : String)
  | revokeAccessAudited (now : Int) (token revokedBy : String)
  | revokeAccess (token : String)
  | deleteExpiredAccess (now : Int)
  | deleteExpiredRefresh (now : Int)
  | archiveExpiredTokens (daysOld : Nat)

namespace SqlOp

/-- What a statement returns. -/
abbrev Res : SqlOp → Type
  | selectCode _ => Option OAuth2AuthCode
  | consumeCode _ => Option OAuth2AuthCode
  | selectAccess _ => Option OAuth2AccessToken
  | selectRefresh _ => Option OAuth2RefreshToken
  | selectRefreshByAccess _ => Option OAuth2RefreshToken
  | casRevokeRefresh _ => Option OAuth2RefreshToken
  | _ => Bool

/-- The answer of a statement that the server refused. -/
def refused : (o : SqlOp) → o.Res
  | selectCode _ => none
  | consumeCode _ => none
  | selectAccess _ => none
  | selectRefresh _ => none
  | selectRefreshByAccess _ => none
  | casRevokeRefresh _ => none
  | insertCode _ => false
  | deleteExpiredCodes _ => false
  | insertTokenPair _ _ => false
  | revokeRefresh _ => false
  | revokeFamilyRefresh _ => false
  | revokeFamilyAccess _ => false
  | revokeAccessAudited _ _ _ => false
  | revokeAccess _ => false
  | deleteExpiredAccess _ => false
  | deleteExpiredRefresh _ => false
  | archiveExpiredTokens _ => false

/-- The effect of a statement the server accepts. -/
def effect (m : Moment) : (o : SqlOp) → Db → o.Res × Db
  | insertCode c => Sql.insertCode c
  | selectCode c => Sql.selectCode c
  | consumeCode c => Sql.consumeCode c
  | deleteExpiredCodes now => Sql.deleteExpiredCodes now
  | insertTokenPair a r => Sql.insertTokenPair m a r
  | selectAccess t => Sql.selectAccess t
  | selectRefresh t => Sql.selectRefresh t
  | selectRefreshByAccess t => Sql.selectRefreshByAccess t
  | revokeRefresh t => Sql.revokeRefresh t
  | casRevokeRefresh t => Sql.casRevokeRefresh t
  | revokeFamilyRefresh f => Sql.revokeFamilyRefresh f
  | revokeFamilyAccess f => Sql.revokeFamilyAccess f
  | revokeAccessAudited now t by' => Sql.revokeAccessAudited now t by'
  | revokeAccess t => Sql.revokeAccess t
  | deleteExpiredAccess now => Sql.deleteExpiredAccess now
  | deleteExpiredRefresh now => Sql.deleteExpiredRefresh now
  | archiveExpiredTokens days => Sql.archiveExpiredTokens m days

/-- A statement is refused or takes effect. -/
def exec (m : Moment) (o : SqlOp) (db : Db) : o.Res × Db :=
  if m.fault then (o.refused, db) else o.effect m db

theorem exec_of_fault {m : Moment} {o : SqlOp} {db : Db} (fault : m.fault = true) :
    o.exec m db = (o.refused, db) :=
  if_pos fault

theorem exec_of_ok {m : Moment} {o : SqlOp} {db : Db} (ok : ¬ m.fault = true) :
    o.exec m db = o.effect m db :=
  if_neg ok

end SqlOp

end Fulla
