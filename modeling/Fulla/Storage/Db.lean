import Fulla.Conc.Table
import Fulla.Model.Dto

/-!
# The data behind the repositories

`Db` holds what the grant and token repositories persist: the maps of the memory
repositories, which are also the rows of the SQL tables of the Postgres ones, and
the Redis keys of the Redis grant repository.  A nullable SQL column is the field
of the record with the default its getter answers for `NULL`.

`Moment` is what one atomic step finds around it: the wall clock, the random
bytes it would get, whether the backend refuses the statement, and the answers of
the collaborators that are not modelled here.
-/

namespace Fulla

open Conc

/-- The surroundings of one atomic step. -/
structure Moment where
  /-- Milliseconds since the epoch. -/
  now : Nat
  /-- Answer of the CSPRNG for a number of bytes; `none` when it fails. -/
  random : Nat → Option (List UInt8) := fun _ => none
  /-- The SQL or Redis server answers with an error and does nothing. -/
  fault : Bool := false
  validateClient : String → String → Bool := fun _ _ => true
  resolveSubject : String → Option Int := fun _ => none
  getRolesBySubject : String → List String := fun _ => []
  getRoles : Int → List String := fun _ => []
  resolveOrgContext : String → Int → Option OrgContextInfo := fun _ _ => none
  normalizeSubject : String → Option String := fun _ => none
  getEnabledMappings : List ClaimMappingEntry := []
  resolveUserProfile : String → Option String := fun _ => none

/-- The clock in seconds, as every `getCurrentTimestamp` of the source truncates it. -/
def Moment.seconds (m : Moment) : Int :=
  (m.now / 1000 : Nat)

/-- The JSON object of a Redis authorization code; `none` is an omitted member. -/
structure CodeJson where
  clientId : String
  userId : String
  scope : String
  redirectUri : String
  expiresAt : Int
  used : Bool
  codeChallenge : Option String := none
  codeChallengeMethod : Option String := none
  nonce : Option String := none
  authTime : Option Int := none
  amr : Option String := none
  orgId : Option Int := none
deriving DecidableEq, Repr

/-- A Redis key with its value and the millisecond it expires at. -/
structure RedisEntry where
  key : String
  value : CodeJson
  expireAt : Option Nat
deriving DecidableEq, Repr

/-- A key is gone once the clock has passed its expiry. -/
def RedisEntry.alive (e : RedisEntry) (now : Nat) : Bool :=
  match e.expireAt with
  | none => true
  | some t => now ≤ t

/-- The maps, tables and keys of all backends; a run uses one of each kind. -/
structure Db where
  authCodes : Table OAuth2AuthCode.code := .empty
  accessTokens : Table OAuth2AccessToken.token := .empty
  refreshTokens : Table OAuth2RefreshToken.token := .empty
  redis : Table RedisEntry.key := .empty
  /-- `oauth2_clients.client_id`, for the foreign keys of the SQL tables. -/
  clientIds : List String := []
  /-- `organizations.id`, likewise. -/
  orgIds : List Int := []
deriving DecidableEq

/-! ## In-place updates of the token tables -/

namespace Db

/-- Set `revoked` on the refresh tokens `sel` selects. -/
def revokeRefreshWhere (db : Db) (sel : OAuth2RefreshToken → Bool) : Db :=
  { db with
    refreshTokens := db.refreshTokens.updateWhere sel
      (fun r => { r with revoked := true }) fun _ => rfl }

/-- Set `revoked` on the access tokens `sel` selects. -/
def revokeAccessWhere (db : Db) (sel : OAuth2AccessToken → Bool) : Db :=
  { db with
    accessTokens := db.accessTokens.updateWhere sel
      (fun a => { a with revoked := true }) fun _ => rfl }

/-- Set `used` on the code stored under `k`. -/
def markUsed (db : Db) (k : String) : Db :=
  { db with
    authCodes := db.authCodes.updateWhere (fun c => c.code = k)
      (fun c => { c with used := true }) fun _ => rfl }

end Db

end Fulla
