import Fulla.Cache.ClientTransparency
import Fulla.Model.ConstantTime

/-!
# Client secrets on a cache hit

`validateCachedClientSecret` of `RedisCachedClientRepository.cc` is a second copy of the check in
`PostgresClientRepository::validateClient`.  Both are written out here as they stand, the one over
the client that comes out of its cache entry, the other over the row; each is the check that the
repositories' models make.
-/

namespace Fulla.CachedSecrets

open Conc ConstantTime RedisCachedClientRepository ClientTransparency

variable (sha256 : String → String)

/-- Equal over the shorter length, and of one length. -/
def sameText (computed stored : List UInt8) : Bool :=
  let cmpLen := if computed.length < stored.length then computed.length else stored.length
  constantTimeMemcmp computed stored cmpLen == 0 && computed.length == stored.length

/-- `checkSecret` of `PostgresClientRepository::validateClient`. -/
def checkSecret (row : ClientRow) (clientSecret : String) (suspended : Bool) : Bool :=
  if suspended then false
  else
    -- A type that is none of the two is taken for this one.
    let clientType := (stringToClientType row.clientType).getD .confidential
    if clientType = .public_ then true
    else if clientSecret = "" then false
    else
      let computedHash := (utf8 (sha256 (clientSecret ++ row.salt)).toList).map lowerSigned
      let storedLower := (utf8 row.clientSecret.toList).map lowerSigned
      sameText computedHash storedLower

/-- `PostgresClientRepository::validateClient`, for the row that has the identifier. -/
def validateRow (row : Option ClientRow) (clientSecret : String) : Bool :=
  match row with
  | none => false
  | some row =>
    if row.deleted then false
    else
      match row.ownerStatus with
      | none => checkSecret sha256 row clientSecret false
      | some status => checkSecret sha256 row clientSecret (status != "active")

/-- `validateCachedClientSecret`. -/
def validateCached (client : OAuth2Client) (clientSecret : String) : Bool :=
  if client.clientType = .public_ then true
  else if clientSecret = "" then false
  else
    let computedHash := (utf8 (sha256 (clientSecret ++ client.salt)).toList).map lowerUnsigned
    let storedLower := (utf8 client.clientSecretHash.toList).map lowerUnsigned
    sameText computedHash storedLower

variable {sha256}

theorem sameText_iff {computed stored : List UInt8} :
    sameText computed stored = true ↔ computed = stored := by
  rw [sameText, Bool.and_eq_true, beq_iff_eq, beq_iff_eq]
  exact memcmp_eq_zero_iff

/-- A type that is neither text is read as one of a confidential client. -/
theorem getD_stringToClientType (text : String) :
    (stringToClientType text).getD .confidential = clientTypeOf text := by
  unfold stringToClientType clientTypeOf
  split
  · rfl
  · split
    · rfl
    · rfl

theorem sameText_lower (a b : String) :
    sameText ((utf8 a.toList).map lowerUnsigned) ((utf8 b.toList).map lowerUnsigned) =
      decide (toLowerAscii a = toLowerAscii b) := by
  rw [Bool.eq_iff_iff, sameText_iff, map_lower_eq_iff, decide_eq_true_eq]

theorem lowerSigned_eq : lowerSigned = lowerUnsigned :=
  funext lower_eq

theorem checkSecret_eq (row : ClientRow) (clientSecret : String) :
    checkSecret sha256 row clientSecret false =
      acceptsSecret (clientTypeOf row.clientType) clientSecret
        (PostgresClientRepository.secretMatches sha256 row.clientSecret row.salt clientSecret) := by
  rw [checkSecret, getD_stringToClientType, lowerSigned_eq, sameText_lower]
  rfl

/-- The check of the repository's model. -/
theorem validateRow_eq (rows : Table ClientRow.clientId) (clientId clientSecret : String) :
    validateRow sha256 (rows.find? clientId) clientSecret =
      PostgresClientRepository.validateClient sha256 rows clientId clientSecret := by
  rw [PostgresClientRepository.validateClient, PostgresClientRepository.findActive]
  cases rows.find? clientId with
  | none => rfl
  | some row =>
      rw [validateRow]
      cases deleted : row.deleted with
      | true => simp [Option.filter, deleted]
      | false =>
          cases owner : row.ownerStatus with
          | none => simp [Option.filter, deleted, owner, checkSecret_eq]
          | some status =>
              by_cases active : status = "active"
              · simp [Option.filter, deleted, owner, active, checkSecret_eq]
              · simp [Option.filter, deleted, owner, active, checkSecret]

theorem validateCached_eq (cfg : ClientCache) (client : OAuth2Client) (clientSecret : String) :
    validateCached cfg.sha256 client clientSecret =
      validateCachedClientSecret cfg client clientSecret := by
  rw [validateCached, sameText_lower]
  rfl

/-- The secret is judged alike: what the entry of an active row comes out as has the row's type,
hash and salt.  Nothing comes out only if the row's identifier is empty. -/
theorem cached_secret_agrees (cfg : ClientCache) (row : ClientRow) (clientSecret : String)
    (active : row.deleted = false ∧ (row.ownerStatus = none ∨ row.ownerStatus = some "active"))
    (reads : cfg.json.ReadsBack (clientMembers (PostgresClientRepository.toClient row))) :
    (∀ cached, deserializeClient cfg
          (serializeClient cfg (PostgresClientRepository.toClient row)) = .ok (some cached) →
        validateCached cfg.sha256 cached clientSecret =
          validateRow cfg.sha256 (some row) clientSecret) ∧
      ((∃ cached, deserializeClient cfg
          (serializeClient cfg (PostgresClientRepository.toClient row)) = .ok (some cached)) ↔
        row.clientId ≠ "") := by
  obtain ⟨alive, owner⟩ := active
  have carried := deserialize_client reads
  have named : (PostgresClientRepository.toClient row).clientId = row.clientId := rfl
  rw [named] at carried
  have judged : validateRow cfg.sha256 (some row) clientSecret =
      checkSecret cfg.sha256 row clientSecret false := by
    rcases owner with none_ | active
    · simp [validateRow, alive, none_]
    · simp [validateRow, alive, active]
  constructor
  · intro cached out
    rw [carried] at out
    split at out
    · cases out
    · cases out
      rw [judged, checkSecret, getD_stringToClientType, lowerSigned_eq]
      rfl
  · rw [carried]
    by_cases empty : row.clientId = ""
    · simp [empty]
    · simp [empty]

/-- A row of an unknown type, whose hash is stored in upper case. -/
def sampleRow : ClientRow where
  clientId := "app"
  clientType := "WEB"
  clientSecret := "AB"
  salt := "s"
  redirectUris := "https://app.example/cb"
  scopes := ["openid"]

/-- A digest that is written in lower case. -/
def lowerCache : ClientCache :=
  { sampleCache with sha256 := fun _ => "ab" }

theorem upper_case_hash_accepted :
    validateCached lowerCache.sha256 (PostgresClientRepository.toClient sampleRow) "secret" =
        validateRow lowerCache.sha256 (some sampleRow) "secret" ∧
      validateRow lowerCache.sha256 (some sampleRow) "secret" = true := by
  have members : clientMembers (PostgresClientRepository.toClient sampleRow) =
      clientMembers sampleApp := by
    rfl
  have reads : lowerCache.json.ReadsBack
      (clientMembers (PostgresClientRepository.toClient sampleRow)) := by
    rw [members]
    exact sampleCache_reads "app" sampleApp rfl
  have out : deserializeClient lowerCache
      (serializeClient lowerCache (PostgresClientRepository.toClient sampleRow)) =
        .ok (some (PostgresClientRepository.toClient sampleRow)) := by
    rw [deserialize_client reads]
    rfl
  refine ⟨(cached_secret_agrees lowerCache sampleRow "secret" ⟨rfl, .inl rfl⟩ reads).1 _ out, ?_⟩
  decide +kernel

end Fulla.CachedSecrets
