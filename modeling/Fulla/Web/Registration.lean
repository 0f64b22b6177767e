import Fulla.Cache.CachedClients
import Fulla.Web.TokenEndpoint

/-!
# Client registration

`ClientRegistrationService::registerClient`, from the body of the request to the row of
`oauth2_clients`, and what `PostgresClientRepository::getClient`, the redirect checks and
the grant gate of the token endpoint make of that row.  The audit log is left out.

The lists of a registration are stored as one text, joined with commas, and read back by
cutting at commas:

* `splitCommas_joinCommas_iff`: non-empty texts come back just when none of them has a
  comma in it.
* `registerClient_accepted`: what the row of an accepted registration holds.
* `metadata_survives_iff`: so the metadata survives if no URI has a comma and the list of
  grants is not empty, and in no other case: an empty list of grants is stored as the
  empty text, which the gate takes for a client of every grant.
-/

namespace Fulla

open Conc

/-! ## The joined columns -/

/-- `if (i > 0) joined += ","; joined += item` in a loop. -/
def joinCommas (items : List String) : String :=
  ",".intercalate items

@[simp]
theorem joinCommas_nil : joinCommas [] = "" :=
  rfl

theorem splitChars_joinCommas {items : List String} (some_ : items ≠ [])
    (commaFree : ∀ s ∈ items, ',' ∉ s.toList) :
    splitChars ',' (joinCommas items).toList = items.map String.toList := by
  rw [joinCommas, String.toList_intercalate, splitChars_eq_splitOn]
  refine List.splitOn_intercalate ',' ?_ (by simpa using some_)
  intro cs mem
  obtain ⟨s, listed, rfl⟩ := List.mem_map.mp mem
  exact commaFree s listed

/-- No piece has a comma in it. -/
theorem comma_notMem_of_mem_splitCommas {s t : String} (mem : t ∈ splitCommas s) :
    ',' ∉ t.toList := by
  obtain ⟨cs, piece, rfl⟩ := List.mem_map.mp mem
  rw [String.toList_ofList]
  split at piece
  · exact sep_notMem_of_mem_splitChars (List.dropLast_subset _ piece)
  · exact sep_notMem_of_mem_splitChars piece

/-- Texts without commas are split as they were joined. -/
theorem splitCommas_joinCommas {items : List String} (nonempty : ∀ s ∈ items, s ≠ "")
    (commaFree : ∀ s ∈ items, ',' ∉ s.toList) : splitCommas (joinCommas items) = items := by
  by_cases none_ : items = []
  · subst none_
    rfl
  have rest : (items.map String.toList).getLast? ≠ some [] := by
    intro last
    obtain ⟨s, listed, eq⟩ := List.mem_map.mp (List.mem_of_getLast? last)
    exact nonempty s listed (String.toList_eq_nil_iff.mp eq)
  rw [splitCommas, splitChars_joinCommas none_ commaFree, if_neg rest, List.map_map]
  exact (List.map_congr_left fun s _ => String.ofList_toList).trans (List.map_id _)

/-- Texts that are joined come back if none of them has a comma in it, and not otherwise. -/
theorem splitCommas_joinCommas_iff {items : List String} (nonempty : ∀ s ∈ items, s ≠ "") :
    splitCommas (joinCommas items) = items ↔ ∀ s ∈ items, ',' ∉ s.toList := by
  refine ⟨fun back s listed => ?_, splitCommas_joinCommas nonempty⟩
  rw [← back] at listed
  exact comma_notMem_of_mem_splitCommas listed

/-! ## The handler -/

/-- `respondError`, or an exception that leaves the handler. -/
inductive RegistrationFailure where
  | error (code detail : String)
  | thrown (what : String)
deriving DecidableEq, Repr

/-- What the handler draws, reads off the clock and meets at the database. -/
structure RegistrationMoment where
  clientId : String
  clientSecret : String
  saltUuid : String
  issuedAt : Int
  /-- The `INSERT` fails for a reason of its own. -/
  fault : Option String := none

/-- The members of the `201`. -/
structure Registered where
  clientId : String
  clientSecret : String
  clientName : String
  redirectUris : List String
  grantTypes : List String
  tokenEndpointAuthMethod : String
  postLogoutRedirectUris : List String
  clientIdIssuedAt : Int
  clientSecretExpiresAt : Int := 0
deriving DecidableEq, Repr

namespace ClientRegistrationService

/-- `PUBLIC` clients have no secret to authenticate with. -/
def effectiveAuthMethod (clientType declared : String) : String :=
  if declared = "" then
    if clientType = "PUBLIC" then "none" else "client_secret_basic"
  else declared

/-- The items of an array member; any other member, or none, is no list. -/
def arrayMember (body : Json) (k : String) : Option (List Json) :=
  match body.get k with
  | .arr items => some items
  | _ => none

/-- `item.asString()` and a check on it, item by item. -/
def readEach (check : String → Except RegistrationFailure Unit) (items : List Json) :
    Except RegistrationFailure (List String) :=
  items.mapM fun item => do
    let text ← orAnswer item.asString .thrown
    check text
    return text

/-- A URI of the body, under the name of its field. -/
def checkUri (site : Site) (field uri : String) : Except RegistrationFailure Unit :=
  match RuleSet.validateRedirectUri site uri with
  | none => .ok ()
  | some uriError =>
    .error (.error "VALIDATION_FORMAT_ERROR"
      ("registerClient: invalid " ++ field ++ " '" ++ uri ++ "': " ++ uriError))

/-- A grant of the body. -/
def checkGrant (grantType : String) : Except RegistrationFailure Unit :=
  refuseIf
    (grantType ≠ "authorization_code" && grantType ≠ "refresh_token" &&
      grantType ≠ "client_credentials")
    (.error "VALIDATION_FORMAT_ERROR"
      ("registerClient: unsupported grant_type: " ++ grantType ++
        ". Allowed: authorization_code, refresh_token, client_credentials"))

/-- The row is inserted: its client id must be new. -/
def insert (m : RegistrationMoment) (rows : Table ClientRow.clientId) (row : ClientRow) :
    Except RegistrationFailure (Table ClientRow.clientId) :=
  match m.fault with
  | some what =>
    .error (.error "DB_QUERY_ERROR" ("registerClient: failed to register client: " ++ what))
  | none =>
    orRefuse (rows.insertNew row)
      (.error "DB_QUERY_ERROR" "registerClient: failed to register client: duplicate key")

/-- `ClientRegistrationService::registerClient`. -/
def registerClient (site : Site) (m : RegistrationMoment) (json : Option Json)
    (rows : Table ClientRow.clientId) :
    Except RegistrationFailure (Table ClientRow.clientId × Registered) := do
  let body ← orRefuse json
    (.error "VALIDATION_INVALID_INPUT" "registerClient: request body must be valid JSON")
  let clientName ← orAnswer (body.textAt "client_name") .thrown
  let clientType ← orAnswer (body.textAt "client_type" "CONFIDENTIAL") .thrown
  let declared ← orAnswer (body.textAt "token_endpoint_auth_method") .thrown
  let method := effectiveAuthMethod clientType declared
  refuseIf (method ≠ "none" && method ≠ "client_secret_basic" && method ≠ "client_secret_post")
    (.error "VALIDATION_FORMAT_ERROR"
      ("registerClient: token_endpoint_auth_method must be one of: none, " ++
        "client_secret_basic, client_secret_post"))
  refuseIf (clientType = "PUBLIC" && method ≠ "none")
    (.error "VALIDATION_FORMAT_ERROR"
      "registerClient: PUBLIC clients must use token_endpoint_auth_method='none'")
  refuseIf (clientName = "")
    (.error "VALIDATION_MISSING_REQUIRED_FIELD" "registerClient: client_name is required")
  refuseIf (clientType ≠ "CONFIDENTIAL" && clientType ≠ "PUBLIC")
    (.error "VALIDATION_FORMAT_ERROR"
      "registerClient: client_type must be CONFIDENTIAL or PUBLIC")
  let redirectUris ← readEach (fun _ => .ok ()) ((arrayMember body "redirect_uris").getD [])
  refuseIf (joinCommas redirectUris = "" && clientType = "CONFIDENTIAL")
    (.error "VALIDATION_MISSING_REQUIRED_FIELD"
      "registerClient: redirect_uris is required for confidential clients")
  redirectUris.forM (checkUri site "redirect_uri")
  let grantTypes ← readEach checkGrant
    ((arrayMember body "grant_types").getD [.str "authorization_code"])
  let postLogoutUris ← readEach (checkUri site "post_logout_redirect_uri")
    ((arrayMember body "post_logout_redirect_uris").getD [])
  let salt := String.ofList (m.saltUuid.toList.take 36)
  let rows' ← insert m rows
    { clientId := m.clientId, clientType := clientType
      clientSecret := toLowerAscii (site.sha256Hex (m.clientSecret ++ salt)), salt := salt
      redirectUris := joinCommas redirectUris, postLogoutRedirectUris := joinCommas postLogoutUris
      allowedGrantTypes := joinCommas grantTypes, tokenEndpointAuthMethod := method }
  return (rows',
    { clientId := m.clientId, clientSecret := m.clientSecret, clientName := clientName
      redirectUris := redirectUris, grantTypes := grantTypes, tokenEndpointAuthMethod := method
      postLogoutRedirectUris := postLogoutUris, clientIdIssuedAt := m.issuedAt })

/-! ## What the handler accepts -/

/-- The items of an array member that are texts. -/
def listed (body : Json) (k : String) : List String :=
  ((arrayMember body k).getD []).filterMap fun item => item.asString.toOption

/-- The grants a registration asks for. -/
def requestedGrants (body : Json) : List String :=
  if (arrayMember body "grant_types").isSome then listed body "grant_types"
  else ["authorization_code"]

theorem readEach_ok {check : String → Except RegistrationFailure Unit} {items : List Json}
    {texts : List String} (read : readEach check items = .ok texts) :
    (items.filterMap fun item => item.asString.toOption) = texts ∧
      ∀ t ∈ texts, check t = .ok () := by
  induction items generalizing texts with
  | nil =>
      cases pure_eq_ok.mp read
      exact ⟨rfl, by simp⟩
  | cons item items ih =>
      rw [readEach, List.mapM_cons] at read
      simp only [bind_eq_ok, orAnswer_eq_ok, pure_eq_ok] at read
      obtain ⟨text, ⟨text', asText, _, passes, rfl⟩, texts', rest, rfl⟩ := read
      obtain ⟨same, pass⟩ := ih rest
      refine ⟨?_, List.forall_mem_cons.mpr ⟨passes, pass⟩⟩
      rw [List.filterMap_cons, asText, ← same]
      rfl

theorem forM_ok {check : String → Except RegistrationFailure Unit} {texts : List String} {u : Unit}
    (pass : texts.forM check = .ok u) : ∀ t ∈ texts, check t = .ok () := by
  induction texts with
  | nil => simp
  | cons t texts ih =>
      obtain ⟨_, first, rest⟩ := (bind_eq_ok (x := check t)).mp pass
      exact List.forall_mem_cons.mpr ⟨first, ih rest⟩

theorem nonempty_of_checkUri {site : Site} {field uri : String} {u : Unit}
    (passes : checkUri site field uri = .ok u) : uri ≠ "" := by
  rintro rfl
  cases passes

/-- One of the three grants. -/
theorem checkGrant_ok {grantType : String} {u : Unit} (passes : checkGrant grantType = .ok u) :
    grantType = "authorization_code" ∨ grantType = "refresh_token" ∨
      grantType = "client_credentials" := by
  rw [checkGrant, refuseIf_eq_ok] at passes
  simpa [or_assoc, Decidable.imp_iff_not_or] using passes

/-- What is answered and stored of an accepted registration. -/
structure Stored (body : Json) (reply : Registered) (row : ClientRow) : Prop where
  answered : reply.redirectUris = listed body "redirect_uris" ∧
    reply.postLogoutRedirectUris = listed body "post_logout_redirect_uris" ∧
    reply.grantTypes = requestedGrants body
  redirectUris : row.redirectUris = joinCommas reply.redirectUris
  postLogoutRedirectUris : row.postLogoutRedirectUris = joinCommas reply.postLogoutRedirectUris
  allowedGrantTypes : row.allowedGrantTypes = joinCommas reply.grantTypes
  visible : row.deleted = false ∧ row.ownerStatus = none
  method : row.tokenEndpointAuthMethod = "none" ∨
    row.tokenEndpointAuthMethod = "client_secret_basic" ∨
    row.tokenEndpointAuthMethod = "client_secret_post"
  uri : ∀ u ∈ reply.redirectUris ++ reply.postLogoutRedirectUris, u ≠ ""
  grant : ∀ g ∈ reply.grantTypes,
    g = "authorization_code" ∨ g = "refresh_token" ∨ g = "client_credentials"

theorem requestedGrants_eq (body : Json) :
    requestedGrants body =
      ((arrayMember body "grant_types").getD [.str "authorization_code"]).filterMap
      fun item => item.asString.toOption := by
  unfold requestedGrants listed
  cases arrayMember body "grant_types" with
  | none => rfl
  | some items => rfl

variable {site : Site} {m : RegistrationMoment} {body : Json} {json : Option Json}
  {rows rows' : Table ClientRow.clientId} {reply : Registered}

/-- A client that was inserted is found. -/
theorem insert_ok {row : ClientRow} (inserted : insert m rows row = .ok rows') :
    rows'.find? row.clientId = some row := by
  unfold insert at inserted
  split at inserted
  · cases inserted
  · obtain ⟨-, rfl⟩ := Table.insertNew_eq_some.mp (orRefuse_eq_ok.mp inserted)
    rw [Table.find?_assign, if_pos rfl]

/-- What a registration stores and answers. -/
theorem registerClient_accepted
    (accepted : registerClient site m (some body) rows = .ok (rows', reply)) :
    ∃ row, rows'.find? reply.clientId = some row ∧ Stored body reply row := by
  simp only [registerClient, bind_eq_ok, refuseIf_eq_ok, orRefuse_eq_ok, orAnswer_eq_ok, pure_eq_ok,
    Option.some.injEq, exists_eq_left', exists_const] at accepted
  obtain ⟨clientName, -, clientType, -, declared, -, method, -, -, -, uris, readUris, -, _, pass,
    grants, readGrants, logouts, readLogouts, rows'', inserted, eq⟩ := accepted
  cases eq
  obtain ⟨ownUris, -⟩ := readEach_ok readUris
  obtain ⟨ownGrants, grantPass⟩ := readEach_ok readGrants
  obtain ⟨ownLogouts, logoutPass⟩ := readEach_ok readLogouts
  refine ⟨_, insert_ok inserted, ⟨ownUris.symm, ownLogouts.symm, ?_⟩, rfl, rfl, rfl,
    ⟨rfl, rfl⟩, ?_, ?_, ?_⟩
  · exact ownGrants.symm.trans (requestedGrants_eq body).symm
  · simpa [or_assoc, Decidable.imp_iff_not_or] using method
  · intro u mem
    rcases List.mem_append.mp mem with redirect | logout
    · exact nonempty_of_checkUri (forM_ok pass u redirect)
    · exact nonempty_of_checkUri (logoutPass u logout)
  · exact fun g mem => checkGrant_ok (grantPass g mem)

/-! ## Reading it back -/

/-- A grant of the answer, or a refresh that the answer implies. -/
def Served (reply : Registered) (grantType : String) : Prop :=
  grantType ∈ reply.grantTypes ∨
    grantType = "refresh_token" ∧ "authorization_code" ∈ reply.grantTypes

/-- What the repository, the redirect checks and the gate make of the client is what the
answer to its registration said. -/
structure Survives (reply : Registered) (client : OAuth2Client) : Prop where
  redirectUris : client.redirectUris = reply.redirectUris
  postLogoutRedirectUris : client.postLogoutRedirectUris = reply.postLogoutRedirectUris
  redirects : ∀ uri, ClientService.validateRedirectUri (some client) uri = true →
    uri ∈ reply.redirectUris
  logouts : ∀ uri, ClientService.validatePostLogoutRedirectUri (some client) uri = true →
    uri ∈ reply.redirectUris ++ reply.postLogoutRedirectUris
  grants : ∀ (req : TokenRequest) (creds : ClientCredentials),
    enforceClientAuthMethod client.tokenEndpointAuthMethod creds (req.hasParam "client_secret") =
      "" → req.param "grant_type" ≠ "" →
    (TokenEndpoint.gate req creds client = none ↔ Served reply (req.param "grant_type"))

theorem gate_eq_none {client : OAuth2Client} {req : TokenRequest} {creds : ClientCredentials}
    (respected : enforceClientAuthMethod client.tokenEndpointAuthMethod creds
      (req.hasParam "client_secret") = "") (asked : req.param "grant_type" ≠ "") :
    TokenEndpoint.gate req creds client = none ↔ client.allowedGrantTypes = [] ∨
      grantAllowed client.allowedGrantTypes (req.param "grant_type") = true := by
  simp only [TokenEndpoint.gate, respected, ne_eq, not_true_eq_false, if_false, asked,
    not_false_eq_true, true_and, ite_eq_right_iff, reduceCtorEq, imp_false, not_and,
    Bool.not_eq_false, Decidable.imp_iff_not_or, not_not]

theorem grantAllowed_iff {reply : Registered} (known : ∀ g ∈ reply.grantTypes,
    g = "authorization_code" ∨ g = "refresh_token" ∨ g = "client_credentials")
    (grantType : String) :
    grantAllowed reply.grantTypes grantType = true ↔ Served reply grantType := by
  simp only [grantAllowed, List.any_eq_true, Bool.or_eq_true, Bool.and_eq_true, decide_eq_true_eq]
  constructor
  · rintro ⟨g, mem, rfl | ⟨rfl, rfl | rfl⟩⟩
    · exact .inl mem
    · exact .inr ⟨rfl, mem⟩
    · rcases known _ mem with device | device | device <;> exact absurd device (by decide)
  · rintro (mem | ⟨rfl, mem⟩)
    · exact ⟨grantType, mem, .inl rfl⟩
    · exact ⟨"authorization_code", mem, .inr ⟨rfl, .inl rfl⟩⟩

/-- Credentials that respect the method. -/
def presented (method : String) : ClientCredentials where
  clientId := ""
  clientSecret := ""
  authScheme := if method = "client_secret_basic" then "Basic" else ""

theorem presented_respects {method : String} (known : method = "none" ∨
    method = "client_secret_basic" ∨ method = "client_secret_post") :
    enforceClientAuthMethod method (presented method) false = "" := by
  rcases known with rfl | rfl | rfl
  · rfl
  · rfl
  · rfl

variable {row : ClientRow}

theorem Stored.commas_iff (stored : Stored body reply row) :
    ((PostgresClientRepository.toClient row).redirectUris = reply.redirectUris ∧
      (PostgresClientRepository.toClient row).postLogoutRedirectUris =
        reply.postLogoutRedirectUris) ↔
      ∀ u ∈ reply.redirectUris ++ reply.postLogoutRedirectUris, ',' ∉ u.toList := by
  have redirect := splitCommas_joinCommas_iff fun u mem =>
    stored.uri u (List.mem_append_left _ mem)
  have logout := splitCommas_joinCommas_iff fun u mem =>
    stored.uri u (List.mem_append_right _ mem)
  rw [PostgresClientRepository.toClient, stored.redirectUris, stored.postLogoutRedirectUris,
    redirect, logout, List.forall_mem_append]

theorem Stored.grantTypes_eq (stored : Stored body reply row) :
    (PostgresClientRepository.toClient row).allowedGrantTypes = reply.grantTypes := by
  rw [PostgresClientRepository.toClient, stored.allowedGrantTypes]
  refine splitCommas_joinCommas ?_ ?_ <;>
    (intro g mem; rcases stored.grant g mem with rfl | rfl | rfl <;> decide)

theorem Stored.survives_iff (stored : Stored body reply row) :
    Survives reply (PostgresClientRepository.toClient row) ↔
      (∀ u ∈ reply.redirectUris ++ reply.postLogoutRedirectUris, ',' ∉ u.toList) ∧
        reply.grantTypes ≠ [] := by
  have gate {req : TokenRequest} {creds : ClientCredentials}
      (respected : enforceClientAuthMethod row.tokenEndpointAuthMethod creds
        (req.hasParam "client_secret") = "") (asked : req.param "grant_type" ≠ "") :
      TokenEndpoint.gate req creds (PostgresClientRepository.toClient row) = none ↔
        reply.grantTypes = [] ∨ Served reply (req.param "grant_type") := by
    rw [gate_eq_none respected asked, stored.grantTypes_eq, grantAllowed_iff stored.grant]
  constructor
  · intro survives
    refine ⟨stored.commas_iff.mp ⟨survives.redirectUris, survives.postLogoutRedirectUris⟩, ?_⟩
    intro none_
    -- the gate takes the client for one of every grant
    have respected := presented_respects stored.method
    let req : TokenRequest := { params := [("grant_type", "password")] }
    have asked : req.param "grant_type" ≠ "" := by decide
    have passes := (gate respected asked).mpr (.inl none_)
    rcases (survives.grants req _ respected asked).mp passes with mem | ⟨-, mem⟩ <;>
      exact List.not_mem_nil (none_ ▸ mem)
  · rintro ⟨commaFree, some_⟩
    obtain ⟨redirectUris, postLogoutRedirectUris⟩ := stored.commas_iff.mpr commaFree
    refine ⟨redirectUris, postLogoutRedirectUris, ?_, ?_, ?_⟩
    · intro uri allowed
      rw [← redirectUris]
      exact List.contains_iff_mem.mp allowed
    · intro uri allowed
      rw [← redirectUris, ← postLogoutRedirectUris, List.mem_append]
      simp only [ClientService.validatePostLogoutRedirectUri] at allowed
      split at allowed
      · exact .inr (List.contains_iff_mem.mp allowed)
      · exact .inl (List.contains_iff_mem.mp allowed)
    · intro req creds respected asked
      rw [gate respected asked, or_iff_right some_]

/-- The metadata of an accepted registration survives, as long as the row stays as it is, just
when no URI of the request has a comma in it and its list of grants is not empty.  A text with a
NUL is taken to be stored whole. -/
theorem metadata_survives_iff
    (accepted : registerClient site m (some body) rows = .ok (rows', reply))
    {later : Table ClientRow.clientId}
    (kept : later.find? reply.clientId = rows'.find? reply.clientId) :
    (∃ client, PostgresClientRepository.getClient later reply.clientId = some client ∧
      Survives reply client) ↔
      (∀ u ∈ listed body "redirect_uris" ++ listed body "post_logout_redirect_uris",
        ',' ∉ u.toList) ∧ requestedGrants body ≠ [] := by
  obtain ⟨row, found, stored⟩ := registerClient_accepted accepted
  have active : PostgresClientRepository.findActive later reply.clientId = some row := by
    rw [PostgresClientRepository.findActive, kept, found, Option.filter_eq_some_iff]
    exact ⟨rfl, by simp [stored.visible]⟩
  rw [PostgresClientRepository.getClient, active, Option.map_some]
  obtain ⟨redirectUris, logouts, grants⟩ := stored.answered
  rw [← redirectUris, ← logouts, ← grants, ← stored.survives_iff]
  simp

/-! ## Registrations under the real pattern -/

/-- `REDIRECT_URI_PATTERN`, part by part: what follows the scheme. -/
def afterScheme (uri : String) : Option (List Char) :=
  ((afterText "https://" uri).or (afterText "http://" uri)).map String.toList

/-- A bracketed literal, or letters, digits, dots and hyphens; at least one of them. -/
def afterHost : List Char → Option (List Char)
  | '[' :: cs =>
    let inside (c : Char) : Bool := c.isDigit || "abcdefABCDEF:.".toList.contains c
    match cs.takeWhile inside, cs.dropWhile inside with
    | _ :: _, ']' :: rest => some rest
    | _, _ => none
  | cs =>
    let inside (c : Char) : Bool := c.isAlphanum || c = '.' || c = '-'
    match cs.takeWhile inside with
    | _ :: _ => some (cs.dropWhile inside)
    | [] => none

/-- A colon and digits, or nothing. -/
def afterPort : List Char → Option (List Char)
  | ':' :: cs =>
    match cs.takeWhile Char.isDigit with
    | _ :: _ => some (cs.dropWhile Char.isDigit)
    | [] => none
  | cs => some cs

/-- A slash and anything but blanks, or nothing.  No two parts can begin alike, so the parts
are matched in one pass. -/
def matchesRedirectUri (uri : String) : Bool :=
  match ((afterScheme uri).bind afterHost).bind afterPort with
  | some [] => true
  | some ('/' :: path) => path.all fun c => !isSpaceAscii c
  | _ => false

/-- A site that checks redirect URIs. -/
def sampleSite : Site :=
  { (Sample.endpoint .postgres).site with
    regexMatch := fun pattern text => pattern = REDIRECT_URI_PATTERN && matchesRedirectUri text }

/-- The values drawn at a registration. -/
def sampleMoment : RegistrationMoment where
  clientId := "c1"
  clientSecret := "s1"
  saltUuid := "u1"
  issuedAt := 900

/-- The body of a confidential client. -/
def sampleBody (redirectUris : List String) : Json :=
  .obj [("client_name", .str "app"), ("redirect_uris", .arr (redirectUris.map Json.str))]

theorem metadata_survives_two_uris :
    ∃ rows reply client,
      registerClient sampleSite sampleMoment
        (some (sampleBody ["https://a.example/cb", "http://127.0.0.1:8080/cb"])) .empty =
          .ok (rows, reply) ∧
      PostgresClientRepository.getClient rows reply.clientId = some client ∧
      Survives reply client := by
  have accepted : ∃ rows reply, registerClient sampleSite sampleMoment
      (some (sampleBody ["https://a.example/cb", "http://127.0.0.1:8080/cb"])) .empty =
        .ok (rows, reply) := ⟨_, _, rfl⟩
  obtain ⟨rows, reply, accepted⟩ := accepted
  obtain ⟨client, found, survives⟩ := (metadata_survives_iff accepted rfl).mpr (by decide)
  exact ⟨rows, reply, client, accepted, found, survives⟩

/-- The row of the URI with a comma in its path. -/
def commaRow : ClientRow where
  clientId := "c1"
  clientType := "CONFIDENTIAL"
  clientSecret := "s1u1"
  salt := "u1"
  redirectUris := "https://a.example/x,https://evil.example/cb"
  allowedGrantTypes := "authorization_code"
  tokenEndpointAuthMethod := "client_secret_basic"

/-- One URI with a comma in its path is accepted and read back as two, and the client may then
redirect to the second. -/
theorem comma_registers_another_uri :
    ∃ reply,
      registerClient sampleSite sampleMoment
        (some (sampleBody ["https://a.example/x,https://evil.example/cb"])) .empty =
          .ok (Table.empty.assign commaRow, reply) ∧
      reply.redirectUris = ["https://a.example/x,https://evil.example/cb"] ∧
      (PostgresClientRepository.getClient (Table.empty.assign commaRow) reply.clientId).map
        OAuth2Client.redirectUris = some ["https://a.example/x", "https://evil.example/cb"] ∧
      ClientService.validateRedirectUri
        (PostgresClientRepository.getClient (Table.empty.assign commaRow) reply.clientId)
        "https://evil.example/cb" = true :=
  ⟨_, rfl, rfl, by decide, by decide⟩

end ClientRegistrationService

end Fulla
