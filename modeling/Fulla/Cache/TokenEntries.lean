import Fulla.Model.JsonText

/-!
# Entries of the token cache

The JSON texts that `RedisCachedTokenRepository` keeps for an access token and for an
introspection.  Neither has a member for the organisation, so a value comes back
without it, and unchanged exactly when it has none.
-/

namespace Fulla

namespace RedisCachedTokenRepository

/-- The object `serializeAccessToken` builds; every member is assigned once. -/
def accessTokenMembers (t : OAuth2AccessToken) : List (String × Json) :=
  [("token", .str t.token), ("clientId", .str t.clientId), ("userId", .str t.userId),
    ("scope", .str t.scope), ("expiresAt", .int t.expiresAt), ("revoked", .bool t.revoked),
    ("issuedAt", .int t.issuedAt), ("issuer", .str t.issuer), ("audience", .str t.audience),
    ("notBefore", .int t.notBefore), ("introspectCount", .int t.introspectCount),
    ("revokedAt", .int t.revokedAt), ("revokedBy", .str t.revokedBy)]

/-- The object `serializeIntrospection` builds. -/
def introspectionMembers (r : TokenIntrospection) : List (String × Json) :=
  [("active", .bool r.active), ("clientId", .str r.clientId), ("tokenType", .str r.tokenType),
    ("exp", .int r.exp), ("iat", .int r.iat), ("nbf", .int r.nbf), ("sub", .str r.sub),
    ("aud", .str r.aud), ("iss", .str r.iss), ("scope", .str r.scope)]

variable (json : JsonText)

/-- The text that is stored for an access token. -/
def serializeAccessToken (t : OAuth2AccessToken) : String :=
  json.write (.obj (accessTokenMembers t))

/-- The assignments to `out`, once both required members are there. -/
def readAccessToken (root : Json) : Except String OAuth2AccessToken := do
  return {
    token := ← root.textAt "token"
    clientId := ← root.textAt "clientId"
    userId := ← root.textAt "userId"
    scope := ← root.textAt "scope"
    expiresAt := ← root.intAt "expiresAt"
    revoked := ← root.boolAt "revoked"
    issuedAt := ← root.intAt "issuedAt"
    issuer := ← root.textAt "issuer"
    audience := ← root.textAt "audience"
    notBefore := ← root.intAt "notBefore"
    introspectCount := ← root.intAt "introspectCount"
    revokedAt := ← root.intAt "revokedAt"
    revokedBy := ← root.textAt "revokedBy" }

/-- `none` is the answer `false`; an exception leaves the callback that reads the entry. -/
def deserializeAccessToken (s : String) : Except String (Option OAuth2AccessToken) :=
  match json.parse s with
  | none => .ok none
  | some root => do
    let token ← root.hasMember "token"
    let expiresAt ← root.hasMember "expiresAt"
    if !token || !expiresAt then return none
    else return some (← readAccessToken root)

/-- The text that is stored for an introspection. -/
def serializeIntrospection (r : TokenIntrospection) : String :=
  json.write (.obj (introspectionMembers r))

/-- The members that are read back; jsoncpp throws on a member of another kind. -/
def readIntrospection (root : Json) : Except String TokenIntrospection := do
  return {
    active := ← root.boolAt "active"
    clientId := ← root.textAt "clientId"
    tokenType := ← root.textAt "tokenType" "Bearer"
    exp := ← root.intAt "exp"
    iat := ← root.intAt "iat"
    nbf := ← root.intAt "nbf"
    sub := ← root.textAt "sub"
    aud := ← root.textAt "aud"
    iss := ← root.textAt "iss"
    scope := ← root.textAt "scope" }

/-- An introspection is read back from its text; `none` if it is no entry. -/
def deserializeIntrospection (s : String) : Except String (Option TokenIntrospection) :=
  match json.parse s with
  | none => .ok none
  | some root => do
    if !(← root.hasMember "active") then return none
    else return some (← readIntrospection root)

/-! ## Round trips -/

section RoundTrip

variable {json}

/-- Every field but the organisation comes back. -/
theorem deserialize_accessToken {t : OAuth2AccessToken}
    (reads : json.ReadsBack (accessTokenMembers t)) :
    deserializeAccessToken json (serializeAccessToken json t) =
      .ok (some { t with orgId := none }) := by
  obtain ⟨members, parsed, same⟩ := reads
  have text (k s : String) (found : (accessTokenMembers t).lookup k = some (.str s)) :
      (Json.obj members).textAt k = .ok s := Json.textAt_obj ((same k).trans found)
  have number (k : String) (n : Int) (found : (accessTokenMembers t).lookup k = some (.int n)) :
      (Json.obj members).intAt k = .ok n := Json.intAt_obj ((same k).trans found)
  have flag (k : String) (b : Bool) (found : (accessTokenMembers t).lookup k = some (.bool b)) :
      (Json.obj members).boolAt k = .ok b := Json.boolAt_obj ((same k).trans found)
  have read : readAccessToken (.obj members) = .ok { t with orgId := none } := by
    unfold readAccessToken
    rw [text "token" _ rfl, text "clientId" _ rfl, text "userId" _ rfl, text "scope" _ rfl,
      number "expiresAt" _ rfl, flag "revoked" _ rfl, number "issuedAt" _ rfl,
      text "issuer" _ rfl, text "audience" _ rfl, number "notBefore" _ rfl,
      number "introspectCount" _ rfl, number "revokedAt" _ rfl, text "revokedBy" _ rfl]
    rfl
  have token : members.lookup "token" = some (.str t.token) := same "token"
  have expiresAt : members.lookup "expiresAt" = some (.int t.expiresAt) := same "expiresAt"
  simp only [deserializeAccessToken, serializeAccessToken, parsed, Json.hasMember_obj, token,
    expiresAt, read]
  rfl

theorem deserialize_introspection {r : TokenIntrospection}
    (reads : json.ReadsBack (introspectionMembers r)) :
    deserializeIntrospection json (serializeIntrospection json r) =
      .ok (some { r with orgId := none }) := by
  obtain ⟨members, parsed, same⟩ := reads
  have text (k s d : String) (found : (introspectionMembers r).lookup k = some (.str s)) :
      (Json.obj members).textAt k d = .ok s := Json.textAt_obj ((same k).trans found)
  have number (k : String) (n : Int) (found : (introspectionMembers r).lookup k = some (.int n)) :
      (Json.obj members).intAt k = .ok n := Json.intAt_obj ((same k).trans found)
  have flag : (Json.obj members).boolAt "active" = .ok r.active := Json.boolAt_obj (same "active")
  have read : readIntrospection (.obj members) = .ok { r with orgId := none } := by
    unfold readIntrospection
    rw [flag, text "clientId" _ _ rfl, text "tokenType" _ _ rfl, number "exp" _ rfl,
      number "iat" _ rfl, number "nbf" _ rfl, text "sub" _ _ rfl, text "aud" _ _ rfl,
      text "iss" _ _ rfl, text "scope" _ _ rfl]
    rfl
  have active : members.lookup "active" = some (.bool r.active) := same "active"
  simp only [deserializeIntrospection, serializeIntrospection, parsed, Json.hasMember_obj, active,
    read]
  rfl

/-- What is read back is what was written exactly if no organisation is bound to it. -/
theorem entries_read_back_iff (t : OAuth2AccessToken) (r : TokenIntrospection)
    (readsToken : json.ReadsBack (accessTokenMembers t))
    (readsIntrospection : json.ReadsBack (introspectionMembers r)) :
    (deserializeAccessToken json (serializeAccessToken json t) = .ok (some t) ↔ t.orgId = none) ∧
      (deserializeIntrospection json (serializeIntrospection json r) = .ok (some r) ↔
        r.orgId = none) := by
  rw [deserialize_accessToken readsToken, deserialize_introspection readsIntrospection]
  constructor
  · constructor
    · intro same
      rw [← Option.some.inj (Except.ok.inj same)]
    · intro unbound
      rw [← unbound]
  · constructor
    · intro same
      rw [← Option.some.inj (Except.ok.inj same)]
    · intro unbound
      rw [← unbound]

end RoundTrip

/-! ### A token of an organisation and an introspection of one without -/

/-- A token of an organization. -/
def sampleToken : OAuth2AccessToken :=
  { token := "AT", clientId := "app", userId := "sub-7", scope := "openid", expiresAt := 4600
    issuer := "https://id.example", orgId := some 5 }

/-- The introspection of a live token. -/
def sampleIntrospection : TokenIntrospection :=
  { active := true, clientId := "app", exp := 4600, sub := "sub-7", iss := "https://id.example"
    scope := "openid" }

/-- The members of an object are written in the order of their names. -/
def sampleTokenText : String :=
  r#"{"audience":"","clientId":"app","expiresAt":4600,"introspectCount":0,"# ++
    r#""issuedAt":0,"issuer":"https://id.example","notBefore":0,"revoked":false,"# ++
    r#""revokedAt":0,"revokedBy":"","scope":"openid","token":"AT","# ++
    r#""userId":"sub-7"}"#

/-- The text of its entry. -/
def sampleIntrospectionText : String :=
  r#"{"active":true,"aud":"","clientId":"app","exp":4600,"iat":0,"# ++
    r#""iss":"https://id.example","nbf":0,"scope":"openid","sub":"sub-7","# ++
    r#""tokenType":"Bearer"}"#

/-- jsoncpp on the two values above. -/
def sampleJson : JsonText where
  write j := if (j.isMember "active") then sampleIntrospectionText else sampleTokenText
  parse s :=
    if s = sampleTokenText then some (.obj (accessTokenMembers sampleToken))
    else if s = sampleIntrospectionText then some (.obj (introspectionMembers sampleIntrospection))
    else none

theorem sampleJson_reads :
    sampleJson.ReadsBack (accessTokenMembers sampleToken) ∧
      sampleJson.ReadsBack (introspectionMembers sampleIntrospection) := by
  have token : sampleJson.write (.obj (accessTokenMembers sampleToken)) = sampleTokenText := by
    decide +kernel
  have introspection : sampleJson.write (.obj (introspectionMembers sampleIntrospection)) =
      sampleIntrospectionText := by decide
  have other : sampleIntrospectionText ≠ sampleTokenText := by decide
  constructor
  · refine ⟨accessTokenMembers sampleToken, ?_, fun _ => rfl⟩
    rw [token]
    simp only [sampleJson, if_true]
  · refine ⟨introspectionMembers sampleIntrospection, ?_, fun _ => rfl⟩
    rw [introspection]
    simp only [sampleJson, other, if_false, if_true]

/-- The organisation of the token is lost on the way through the cache. -/
theorem organisation_not_read_back :
    ¬ (sampleJson.ReadsBack (accessTokenMembers sampleToken) →
      deserializeAccessToken sampleJson (serializeAccessToken sampleJson sampleToken) =
        .ok (some sampleToken)) := by
  intro claim
  have same := claim sampleJson_reads.1
  rw [deserialize_accessToken sampleJson_reads.1] at same
  exact absurd (congrArg OAuth2AccessToken.orgId (Option.some.inj (Except.ok.inj same))) (by decide)

theorem entries_read_back_iff_sample :
    deserializeAccessToken sampleJson (serializeAccessToken sampleJson sampleToken) ≠
        .ok (some sampleToken) ∧
      deserializeIntrospection sampleJson (serializeIntrospection sampleJson sampleIntrospection) =
        .ok (some sampleIntrospection) := by
  obtain ⟨token, introspection⟩ := entries_read_back_iff sampleToken sampleIntrospection
    sampleJson_reads.1 sampleJson_reads.2
  exact ⟨fun same => absurd (token.mp same) (by decide), introspection.mpr rfl⟩

end RedisCachedTokenRepository

end Fulla
