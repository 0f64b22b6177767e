import Mathlib.Data.List.Basic

/-!
# Data transfer objects

The records of `libs/oauth2/include/fulla/oauth2/model/Dto.h` and the values the
ports of `libs/common` hand around, field for field.  Timestamps are Unix seconds
(`int64_t` in the source, integers here: nothing below adds two of them).

`Json` is the part of jsoncpp's value type the services build and read; a number
that is not integral is kept by the text `std::to_string` gives for it.
-/

namespace Fulla

/-- A value of jsoncpp. -/
inductive Json where
  | null
  | bool (b : Bool)
  | int (n : Int)
  | real (text : String)
  | str (s : String)
  | arr (items : List Json)
  | obj (members : List (String × Json))

namespace Json

/-- The member `k`, or null as `operator[]` of jsoncpp answers. -/
def get : Json → String → Json
  | obj members, k => (members.lookup k).getD null
  | _, _ => null

/-- `json[k] = v` on an object: replace the member in place, or append it. -/
def set : Json → String → Json → Json
  | obj members, k, v =>
    if members.any fun m => m.1 = k then
      obj (members.map fun m => if m.1 = k then (k, v) else m)
    else obj (members ++ [(k, v)])
  | _, k, v => obj [(k, v)]

/-- The object has a member of that name. -/
def isMember : Json → String → Bool
  | obj members, k => members.any fun m => m.1 = k
  | _, _ => false

/-- The value is an object. -/
def isObject : Json → Bool
  | obj _ => true
  | _ => false

end Json

/-- The record of an authorization code. -/
structure OAuth2AuthCode where
  code : String
  clientId : String
  userId : String
  scope : String
  redirectUri : String
  codeChallenge : String
  /-- `plain` or `S256`. -/
  codeChallengeMethod : String
  nonce : String
  expiresAt : Int
  used : Bool := false
  authTime : Int := 0
  /-- Space-separated authentication method references. -/
  amr : String := ""
  orgId : Option Int := none
deriving DecidableEq, Repr

/-- The record of an access token. -/
structure OAuth2AccessToken where
  token : String
  clientId : String
  userId : String
  scope : String
  expiresAt : Int
  revoked : Bool := false
  issuedAt : Int := 0
  issuer : String := ""
  audience : String := ""
  notBefore : Int := 0
  introspectCount : Int := 0
  revokedAt : Int := 0
  revokedBy : String := ""
  orgId : Option Int := none
deriving DecidableEq, Repr

/-- The record of a refresh token. -/
structure OAuth2RefreshToken where
  token : String
  accessToken : String
  clientId : String
  userId : String
  scope : String
  expiresAt : Int
  revoked : Bool := false
  /-- Token family for reuse detection. -/
  familyId : String := ""
  revokedAt : Int := 0
  revokedBy : String := ""
  orgId : Option Int := none
deriving DecidableEq, Repr

/-- Token introspection answer (RFC 7662). -/
structure TokenIntrospection where
  active : Bool := false
  clientId : String := ""
  tokenType : String := "Bearer"
  exp : Int := 0
  iat : Int := 0
  nbf : Int := 0
  sub : String := ""
  aud : String := ""
  iss : String := ""
  scope : String := ""
  orgId : Option Int := none
deriving DecidableEq, Repr

/-! ## Values of the ports -/

/-- `fulla::common::ports::OrgContextInfo`. -/
structure OrgContextInfo where
  orgName : String
  roles : List String
deriving DecidableEq, Repr

/-- `fulla::common::ports::ClaimMappingEntry`. -/
structure ClaimMappingEntry where
  scopeName : String
  claimName : String
  sourcePath : String
  /-- `id_token`, `userinfo` or `both`. -/
  includeIn : String
deriving DecidableEq, Repr

/-- The members of `AuditEvent` that `TokenService::audit` fills in. -/
structure AuditEvent where
  actorType : String
  actorId : String
  action : String
  targetType : String
  targetId : String
  outcome : String
deriving DecidableEq, Repr

end Fulla
