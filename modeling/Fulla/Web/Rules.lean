import Fulla.Web.Site

/-!
# Request validation

`RuleSet.cc` and `RuleEngine.cc`: the errors a login or authorize request is
turned away with before anything else happens.  A rule answers the message of the
first check that fails.
-/

namespace Fulla

/-- Patterns of `Rule.h`. -/
def CLIENT_ID_PATTERN : String :=
  "^[a-zA-Z0-9._-]{1,128}$"

/-- The texts that pass as a redirect URI. -/
def REDIRECT_URI_PATTERN : String :=
  "^https?://(\\[[a-fA-F0-9:.]+\\]|[a-zA-Z0-9.-]+)(:[0-9]+)?(/[^\\s]*)?$"

/-- The letters of a scope. -/
def SCOPE_PATTERN : String :=
  "^[a-zA-Z0-9: ]+$"

/-- The texts that pass as an address. -/
def EMAIL_PATTERN : String :=
  "^[a-zA-Z0-9.!#$%&'*+/=?^_`{|}~-]+@[a-zA-Z0-9]" ++
    "(?:[a-zA-Z0-9-]{0,61}[a-zA-Z0-9])?" ++
    "(?:\\.[a-zA-Z0-9](?:[a-zA-Z0-9-]{0,61}[a-zA-Z0-9])?)*$"

namespace RuleEngine

/-- The length in bytes is between the bounds. -/
def length (value : String) (minLen maxLen : Nat) : Option String :=
  if value.utf8ByteSize < minLen then
    some ("Must be at least " ++ toString minLen ++ " characters")
  else if value.utf8ByteSize > maxLen then
    some ("Must be at most " ++ toString maxLen ++ " characters")
  else none

/-- `RuleEngine::validateClientId`. -/
def validateClientId (site : Site) (clientId : String) : Option String :=
  if clientId = "" then some "Cannot be empty"
  else if site.regexMatch CLIENT_ID_PATTERN clientId = false then
    some "Must be 1-128 alphanumeric characters (._- allowed)"
  else length clientId 1 128

/-- The host is the literal, up to a port, a path or the end. -/
def isLoopbackHost (literal uri : String) : Bool :=
  match afterText literal uri with
  | none => false
  | some rest =>
    match rest.toList with
    | [] => true
    | c :: _ => c = ':' || c = '/'

/-- Only `https`, but for loopback literals and the development switch. -/
def validateRedirectUriScheme (site : Site) (uri : String) : Option String :=
  if (afterText "https://" uri).isSome then none
  else if (afterText "http://" uri).isSome &&
      (isLoopbackHost "http://127.0.0.1" uri || isLoopbackHost "http://[::1]" uri ||
        site.allowHttpRedirectUri) then none
  else some ("Must use https (http allowed only for loopback IP literals " ++ "127.0.0.1/[::1])")

/-- `RuleEngine::validateRedirectUri`. -/
def validateRedirectUri (site : Site) (uri : String) : Option String :=
  if uri = "" then some "Cannot be empty"
  else if site.regexMatch REDIRECT_URI_PATTERN uri = false then
    some "Must be a valid HTTP/HTTPS URL"
  else (validateRedirectUriScheme site uri).or (length uri 10 2048)

/-- `RuleEngine::validateScope`. -/
def validateScope (site : Site) (scope : String) : Option String :=
  if scope = "" then some "Cannot be empty"
  else if site.regexMatch SCOPE_PATTERN scope = false then
    some "Must contain only alphanumeric characters, colons, and spaces"
  else length scope 1 256

end RuleEngine

namespace RuleSet

/-- `RuleSet::validateClientId`. -/
def validateClientId (site : Site) (clientId : String) : Option String :=
  if clientId = "" then some "client_id is required"
  else if clientId.utf8ByteSize > 128 then
    some "client_id exceeds maximum length of 128 characters"
  else RuleEngine.validateClientId site clientId

/-- `RuleSet::validateRedirectUri`. -/
def validateRedirectUri (site : Site) (uri : String) : Option String :=
  if uri = "" then some "redirect_uri is required"
  else RuleEngine.validateRedirectUri site uri

/-- `RuleSet::validateScope`; no scope is fine. -/
def validateScope (site : Site) (scope : String) : Option String :=
  if scope = "" then none else RuleEngine.validateScope site scope

/-- `RuleSet::validateResponseType`. -/
def validateResponseType (type : String) : Option String :=
  if type = "" then some "response_type is required"
  else if type ≠ "code" then some "response_type must be 'code'"
  else none

/-- `RuleSet::oauth2Authorize`: the errors in the order of the rules. -/
def oauth2Authorize (site : Site) (clientId redirectUri responseType scope : String) :
    List String :=
  (validateClientId site clientId).toList ++ (validateRedirectUri site redirectUri).toList ++
    (validateResponseType responseType).toList ++ (validateScope site scope).toList

/-- The identifier is a user name or an email address. -/
def login (site : Site) (identifier password : String) : List String :=
  let identifierErrors :=
    if identifier = "" then ["username is required"]
    else
      (if identifier.utf8ByteSize > 254 then
        ["username exceeds maximum length of 254 characters"] else []) ++
        (if identifier.toList.contains '@' && !site.regexMatch EMAIL_PATTERN identifier then
          ["email format is invalid"] else [])
  let passwordErrors :=
    if password = "" then ["password is required"]
    else if password.utf8ByteSize > 200 then
      ["password exceeds maximum length of 200 characters"]
    else []
  identifierErrors ++ passwordErrors

end RuleSet

end Fulla
