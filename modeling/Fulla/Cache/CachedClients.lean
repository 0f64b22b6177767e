import Fulla.Access.Clients
import Fulla.Cache.Server
import Fulla.Model.JsonText

/-!
# The client cache

`RedisCachedClientRepository` in front of an `IClientRepository` whose records do not
change.  The text it keeps of a client has no member for the post-logout redirect
URIs, so a client that is read from the cache has none of its own, and the log-out
falls back to its login redirect URIs.

The `GET` is passed to the client library as one text that ends in the client id.  The
library splits it at spaces and reads `%` as a directive, so the key that is looked
up need not be the one of that id; how it does this is a parameter.
-/

namespace Fulla

open Conc

/-- The calls of the repository behind the cache. -/
inductive ClientImplOp where
  | getClient (clientId : String)
  | validateClient (clientId clientSecret : String)

abbrev ClientImplSig : Sig where
  Op := ClientImplOp
  Res
    | .getClient _ => Option OAuth2Client
    | .validateClient _ _ => Bool

/-- What the callback of a call gets, with the client the call is about. -/
inductive ClientAnswer where
  | client (clientId : String) (c : Option OAuth2Client)
  | validated (clientId : String) (ok : Bool)
deriving DecidableEq, Repr

/-- The operations of the client cache. -/
abbrev ClientCacheSig := CacheSig ClientImplSig ClientAnswer

/-- A call of the client cache, with what it has sent into the background. -/
abbrev ClientTask := Async ClientCacheSig

/-- What the cached repository is configured with, and the libraries it uses. -/
structure ClientCache where
  json : JsonText
  sha256 : String → String
  /-- The words of a command text; `none` if the library rejects the text, in which case no
  callback is ever called. -/
  formatCommand : String → Option (List String)
  /-- A Redis client is injected. -/
  redisClient : Bool := true
  clientTtlSeconds : Int := 300

/-- A value that is not positive is the default. -/
def ClientCache.ttl (cfg : ClientCache) : Nat :=
  (if cfg.clientTtlSeconds > 0 then cfg.clientTtlSeconds else 300).toNat

/-- The names that `ClientType.h` gives the two types. -/
def clientTypeToString : ClientType → String
  | .public_ => "PUBLIC"
  | .confidential => "CONFIDENTIAL"

/-- `none` is the exception. -/
def stringToClientType (s : String) : Option ClientType :=
  if s = "PUBLIC" then some .public_
  else if s = "CONFIDENTIAL" then some .confidential
  else none

theorem stringToClientType_toString (t : ClientType) :
    stringToClientType (clientTypeToString t) = some t := by
  cases t <;> decide

/-! ## Decisions of `ClientService` -/

namespace OAuth2Client

/-- The client has registered URIs to return to after a logout. -/
def hasPostLogoutWhitelist (client : OAuth2Client) : Bool :=
  !client.postLogoutRedirectUris.isEmpty

/-- The URI is one of those registered, letter for letter. -/
def isRegisteredPostLogoutRedirectUri (client : OAuth2Client) (uri : String) : Bool :=
  client.postLogoutRedirectUris.contains uri

end OAuth2Client

namespace ClientService

/-- Both decisions are made on the client the repository has delivered. -/
def validateRedirectUri (client : Option OAuth2Client) (redirectUri : String) : Bool :=
  match client with
  | none => false
  | some client => client.isRegisteredRedirectUri redirectUri

/-- Without a whitelist of its own the login redirect URIs stand in. -/
def validatePostLogoutRedirectUri (client : Option OAuth2Client) (redirectUri : String) : Bool :=
  match client with
  | none => false
  | some client =>
    if client.hasPostLogoutWhitelist then client.isRegisteredPostLogoutRedirectUri redirectUri
    else client.isRegisteredRedirectUri redirectUri

end ClientService

namespace RedisCachedClientRepository

/-! ## Entries -/

/-- The object `serializeClient` builds; every member is assigned once. -/
def clientMembers (c : OAuth2Client) : List (String × Json) :=
  [("clientId", .str c.clientId), ("clientType", .str (clientTypeToString c.clientType)),
    ("clientSecretHash", .str c.clientSecretHash), ("salt", .str c.salt),
    ("tokenEndpointAuthMethod", .str c.tokenEndpointAuthMethod),
    ("redirectUris", .arr (c.redirectUris.map Json.str)),
    ("allowedScopes", .arr (c.allowedScopes.map Json.str)),
    ("allowedGrantTypes", .arr (c.allowedGrantTypes.map Json.str))]

/-- The strings of a member that is an array; anything else is an empty list. -/
def listAt : Json → String → Except String (List String)
  | .obj members, k =>
    match members.lookup k with
    | some (.arr items) => items.mapM Json.asString
    | _ => .ok []
  | _, _ => .ok []

/-- The assignments to `out` once its identifier and its type are known. -/
def readClient (root : Json) (clientId : String) (clientType : ClientType) :
    Except String OAuth2Client := do
  return {
    clientId := clientId
    clientType := clientType
    clientSecretHash := ← root.textAt "clientSecretHash"
    salt := ← root.textAt "salt"
    tokenEndpointAuthMethod := ← root.textAt "tokenEndpointAuthMethod"
    redirectUris := ← listAt root "redirectUris"
    allowedScopes := ← listAt root "allowedScopes"
    allowedGrantTypes := ← listAt root "allowedGrantTypes" }

/-- The type, or nothing: whatever is thrown on the way is caught. -/
def readClientType (root : Json) : Option ClientType :=
  match root.textAt "clientType" with
  | .ok s => stringToClientType s
  | .error _ => none

variable (cfg : ClientCache)

/-- The text that is stored for a client. -/
def serializeClient (c : OAuth2Client) : String :=
  cfg.json.write (.obj (clientMembers c))

/-- An entry with an empty identifier is taken for a miss. -/
def deserializeClient (s : String) : Except String (Option OAuth2Client) :=
  match cfg.json.parse s with
  | none => .ok none
  | some root => do
    let hasId ← root.hasMember "clientId"
    let hasType ← root.hasMember "clientType"
    if !hasId || !hasType then return none
    else
      let clientId ← root.textAt "clientId"
      if clientId = "" then return none
      else
        match readClientType root with
        | none => return none
        | some clientType => return some (← readClient root clientId clientType)

/-- PUBLIC clients need no secret, and the digests are compared in lower case. -/
def validateCachedClientSecret (client : OAuth2Client) (clientSecret : String) : Bool :=
  acceptsSecret client.clientType clientSecret
    (PostgresClientRepository.secretMatches cfg.sha256 client.clientSecretHash client.salt
      clientSecret)

/-! ## Methods -/

/-- The key under which a client is stored. -/
def clientKey (clientId : String) : String :=
  "fulla:cache:client:" ++ clientId

/-- The words of `GET fulla:cache:client:<clientId>`. -/
def getWords (clientId : String) : Option (List String) :=
  cfg.formatCommand ("GET fulla:cache:client:" ++ clientId)

/-- The callback, the last step of every path. -/
def reply (since : Nat) (a : ClientAnswer) : ClientTask :=
  .op (.callback since a) fun _ => .done

/-- A client that was found is kept; that there is none is not. -/
def fillClient (clientId : String) (client : Option OAuth2Client)
    (next : ClientTask) : ClientTask :=
  match client with
  | none => next
  | some c =>
    if cfg.redisClient then
      .send (.redis (.set (clientKey clientId) (serializeClient cfg c) cfg.ttl)) next
    else next

/-- The path of a miss: the repository is asked and its client stored. -/
def delegateAndFill (since : Nat) (clientId : String) : ClientTask :=
  .op (.impl (.getClient clientId)) fun client =>
    fillClient cfg clientId client (reply since (.client clientId client))

/-- What the answer to the `GET` leads to: after an error nothing is kept. -/
def onClientLookup (since : Nat) (clientId : String) : Option (Option String) → ClientTask
  | none => .op (.impl (.getClient clientId)) fun client => reply since (.client clientId client)
  | some none => delegateAndFill cfg since clientId
  | some (some text) =>
    match deserializeClient cfg text with
    | .error _ => .done
    | .ok (some cached) => reply since (.client clientId (some cached))
    | .ok none => delegateAndFill cfg since clientId

/-- `RedisCachedClientRepository::getClient`; without a Redis client it only delegates. -/
def getClient (since : Nat) (clientId : String) : ClientTask :=
  if cfg.redisClient then
    match getWords cfg clientId with
    | none => .done
    | some ws => .op (.redis (.words ws)) (onClientLookup cfg since clientId)
  else delegateAndFill cfg since clientId

/-- The repository checks the secret. -/
def delegateValidation (since : Nat) (clientId clientSecret : String) : ClientTask :=
  .op (.impl (.validateClient clientId clientSecret)) fun ok => reply since (.validated clientId ok)

/-- What the reply of the `GET` leads to; an entry that cannot be read counts as a miss. -/
def onValidationLookup (since : Nat) (clientId clientSecret : String) :
    Option (Option String) → ClientTask
  | some (some text) =>
    match deserializeClient cfg text with
    | .error _ => .done
    | .ok (some cached) =>
      reply since (.validated clientId (validateCachedClientSecret cfg cached clientSecret))
    | .ok none => delegateValidation since clientId clientSecret
  | _ => delegateValidation since clientId clientSecret

/-- `RedisCachedClientRepository::validateClient`. -/
def validateClient (since : Nat) (clientId clientSecret : String) : ClientTask :=
  if cfg.redisClient then
    match getWords cfg clientId with
    | none => .done
    | some ws => .op (.redis (.words ws)) (onValidationLookup cfg since clientId clientSecret)
  else delegateValidation since clientId clientSecret

end RedisCachedClientRepository

/-! ## Runs -/

/-- The two calls that a client of the cache makes. -/
inductive ClientCall where
  | getClient (clientId : String)
  | validateClient (clientId clientSecret : String)

/-- The task that a call starts. -/
def ClientCall.prog (cfg : ClientCache) (since : Nat) : ClientCall → ClientTask
  | getClient clientId => RedisCachedClientRepository.getClient cfg since clientId
  | validateClient clientId clientSecret =>
    RedisCachedClientRepository.validateClient cfg since clientId clientSecret

/-- A repository whose records do not change. -/
def wrappedClients (repo : ClientRepository) : Wrapped ClientImplSig Unit Unit where
  exec _
    | .getClient clientId => fun w => (repo.getClient clientId, w)
    | .validateClient clientId clientSecret => fun w =>
      (repo.validateClient clientId clientSecret, w)

abbrev ClientEvent := TaskEvent ClientCacheSig (CacheState Unit)

/-- A call is started, or something that is in flight happens. -/
abbrev ClientMove := Move ClientCall (CacheMoment Unit)

/-- A run over a repository, from an empty cache. -/
def runClients (cfg : ClientCache) (repo : ClientRepository) (moves : List ClientMove) :
    Tasks ClientCacheSig (CacheState Unit) :=
  Tasks.run (execCache (wrappedClients repo)) (ClientCall.prog cfg) { store := { wrapped := () } }
    moves

end Fulla
