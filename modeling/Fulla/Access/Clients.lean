import Fulla.Access.Scopes
import Fulla.Conc.Table

/-!
# Client repositories

`IClientRepository` over a client store that does not change while it is used:
the two look-ups are functions.  The memory repository holds the records of the
configuration, the Postgres one the rows of `oauth2_clients` with the owner status
and the scopes joined to them, the Redis one hashes that carry no client type.

`ClientStore.validateClient_sound`: over the first two, a client that validates
exists, and if it is confidential it presented its secret.
-/

namespace Fulla

open Conc

/-- The port `IClientRepository`, as far as it is used. -/
structure ClientRepository where
  getClient : String → Option OAuth2Client
  validateClient : String → String → Bool

/-- `std::getline` at commas: an empty rest is no piece. -/
def splitCommas (s : String) : List String :=
  let pieces := splitChars ',' s.toList
  (if pieces.getLast? = some [] then pieces.dropLast else pieces).map String.ofList

/-- `stringToClientType`, with the default both repositories fall back to. -/
def clientTypeOf (text : String) : ClientType :=
  if text = "PUBLIC" then .public_ else .confidential

/-- The branches both `validateClient`s go through once they have the client. -/
def acceptsSecret (clientType : ClientType) (clientSecret : String) (same : Bool) : Bool :=
  if clientType = .public_ then true
  else if clientSecret = "" then false
  else same

/-! ## Memory -/

namespace MemoryClientRepository

variable (clients : Table OAuth2Client.clientId)

/-- The stored `clientSecretHash` is the configured secret itself. -/
def secretMatches (client : OAuth2Client) (clientSecret : String) : Bool :=
  clientSecret = client.clientSecretHash

/-- The map is looked up. -/
def getClient (clientId : String) : Option OAuth2Client :=
  clients.find? clientId

/-- The stored hash decides; an unknown client is refused. -/
def validateClient (clientId clientSecret : String) : Bool :=
  match clients.find? clientId with
  | none => false
  | some client => acceptsSecret client.clientType clientSecret (secretMatches client clientSecret)

end MemoryClientRepository

/-! ## Postgres -/

/-- A row of `oauth2_clients`, its owner's status and its scopes; `NULL` reads as empty. -/
structure ClientRow where
  clientId : String
  clientType : String
  clientSecret : String := ""
  salt : String := ""
  redirectUris : String := ""
  postLogoutRedirectUris : String := ""
  allowedGrantTypes : String := ""
  tokenEndpointAuthMethod : String := ""
  /-- `deleted_at` is set. -/
  deleted : Bool := false
  /-- The status of its row in `oauth2_client_owners`. -/
  ownerStatus : Option String := none
  /-- Joined through `oauth2_client_scopes`. -/
  scopes : List String := []
deriving DecidableEq, Repr

namespace PostgresClientRepository

variable (sha256 : String → String) (rows : Table ClientRow.clientId)

/-- Hex digests are compared in lower case. -/
def secretMatches (storedHash salt clientSecret : String) : Bool :=
  toLowerAscii (sha256 (clientSecret ++ salt)) = toLowerAscii storedHash

/-- Deleted clients are invisible, and so are those whose owner row is not active. -/
def findActive (clientId : String) : Option ClientRow :=
  (rows.find? clientId).filter fun row =>
    !row.deleted && (row.ownerStatus = none || row.ownerStatus = some "active")

/-- The client that a row describes. -/
def toClient (row : ClientRow) : OAuth2Client where
  clientId := row.clientId
  clientType := clientTypeOf row.clientType
  clientSecretHash := row.clientSecret
  salt := row.salt
  tokenEndpointAuthMethod := row.tokenEndpointAuthMethod
  redirectUris := splitCommas row.redirectUris
  postLogoutRedirectUris := splitCommas row.postLogoutRedirectUris
  allowedGrantTypes := splitCommas row.allowedGrantTypes
  allowedScopes := row.scopes

/-- A client whose owner is suspended is not found. -/
def getClient (clientId : String) : Option OAuth2Client :=
  (findActive rows clientId).map toClient

/-- The row decides, if it is that of an active client. -/
def validateClient (clientId clientSecret : String) : Bool :=
  match findActive rows clientId with
  | none => false
  | some row =>
    acceptsSecret (clientTypeOf row.clientType) clientSecret
      (secretMatches sha256 row.clientSecret row.salt clientSecret)

end PostgresClientRepository

/-! ## Redis -/

/-- The hash `oauth2:client:<id>`. -/
structure RedisClient where
  clientId : String
  secret : Option String := none
  salt : Option String := none
  redirectUris : List String := []
deriving DecidableEq, Repr

namespace RedisClientRepository

variable (sha256 : String → String) (clients : Table RedisClient.clientId)

/-- `getClient` never assigns `clientType`: it has whatever value was there. -/
def getClient (unassigned : ClientType) (clientId : String) : Option OAuth2Client :=
  (clients.find? clientId).map fun c =>
    { clientId := clientId, clientType := unassigned, clientSecretHash := c.secret.getD ""
      salt := c.salt.getD "", redirectUris := c.redirectUris }

/-- Without a secret the key only has to exist. -/
def validateClient (clientId clientSecret : String) : Bool :=
  if clientSecret = "" then (clients.find? clientId).isSome
  else
    match clients.find? clientId with
    | none => false
    | some c =>
      match c.secret, c.salt with
      | some secret, some salt =>
        PostgresClientRepository.secretMatches sha256 secret salt clientSecret
      | _, _ => false

end RedisClientRepository

/-- The Redis repository as the port. -/
def redisClientRepository (sha256 : String → String) (clients : Table RedisClient.clientId)
    (unassigned : ClientType) : ClientRepository where
  getClient := RedisClientRepository.getClient clients unassigned
  validateClient := RedisClientRepository.validateClient sha256 clients

/-! ## Stores with client types -/

/-- Where the clients are kept. -/
inductive ClientStore where
  | memory (clients : Table OAuth2Client.clientId)
  | postgres (sha256 : String → String) (rows : Table ClientRow.clientId)

namespace ClientStore

/-- The repository of a store. -/
def repository : ClientStore → ClientRepository
  | memory clients =>
    { getClient := MemoryClientRepository.getClient clients
      validateClient := MemoryClientRepository.validateClient clients }
  | postgres sha256 rows =>
    { getClient := PostgresClientRepository.getClient rows
      validateClient := PostgresClientRepository.validateClient sha256 rows }

/-- The presented secret is the client's. -/
def secretMatches : ClientStore → OAuth2Client → String → Bool
  | memory _, client, clientSecret => MemoryClientRepository.secretMatches client clientSecret
  | postgres sha256 _, client, clientSecret =>
    PostgresClientRepository.secretMatches sha256 client.clientSecretHash client.salt clientSecret

/-- A confidential client has presented its secret. -/
def SecretValidated (store : ClientStore) (client : OAuth2Client) (clientSecret : String) : Prop :=
  client.clientType = .confidential →
    clientSecret ≠ "" ∧ store.secretMatches client clientSecret = true

/-- A look-up delivers the record of that client. -/
theorem getClient_clientId {store : ClientStore} {clientId : String} {client : OAuth2Client}
    (found : store.repository.getClient clientId = some client) : client.clientId = clientId := by
  cases store with
  | memory clients => exact Table.find?_key found
  | postgres sha256 rows =>
      obtain ⟨row, active, rfl⟩ := Option.map_eq_some_iff.mp found
      have key : row.clientId = clientId := Table.find?_key (Option.filter_eq_some_iff.mp active).1
      exact key

theorem acceptsSecret_sound {clientType : ClientType} {clientSecret : String} {same : Bool}
    (accepts : acceptsSecret clientType clientSecret same = true)
    (confidential : clientType = .confidential) : clientSecret ≠ "" ∧ same = true := by
  rw [confidential] at accepts
  simpa [acceptsSecret] using accepts

theorem validateClient_sound {store : ClientStore} {clientId clientSecret : String}
    (valid : store.repository.validateClient clientId clientSecret = true) :
    ∃ client, store.repository.getClient clientId = some client ∧
      store.SecretValidated client clientSecret := by
  cases store with
  | memory clients =>
      simp only [repository, MemoryClientRepository.validateClient] at valid
      cases found : clients.find? clientId with
      | none => simp [found] at valid
      | some client =>
          rw [found] at valid
          exact ⟨client, found, acceptsSecret_sound valid⟩
  | postgres sha256 rows =>
      simp only [repository, PostgresClientRepository.validateClient] at valid
      cases found : PostgresClientRepository.findActive rows clientId with
      | none => simp [found] at valid
      | some row =>
          rw [found] at valid
          refine ⟨PostgresClientRepository.toClient row, ?_, acceptsSecret_sound valid⟩
          simp only [repository, PostgresClientRepository.getClient, found, Option.map_some]

end ClientStore

end Fulla
