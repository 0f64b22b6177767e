import Mathlib.Algebra.Order.Ring.Rat
import Fulla.Conc.Checks
import Fulla.Jwk.Base64Url

/-!
# Signing and verifying tokens

`JwkManager` of `libs/oauth2`: tokens are signed with the active key and verified against
all loaded keys, by the key id in the header if there is one.

jsoncpp and OpenSSL are parameters, `JsonCpp` and `Rs256`.  The accessors of jsoncpp are
not: each of them throws on some kinds of values, and a number is an `int64_t`, a
`uint64_t` or a double.
-/

namespace Fulla.Jwk

open Conc

/-! ## JSON values -/

/-- `Json::Value`. -/
inductive JsonValue where
  | null
  | bool (b : Bool)
  | int (n : Int64)
  | uint (n : UInt64)
  | real (q : Rat)
  | str (s : String)
  | arr (elements : List JsonValue)
  | obj (members : List (String × JsonValue))

/-- jsoncpp's parser and writer, with the exceptions they throw. -/
structure JsonCpp where
  /-- `parseFromStream` with the default settings: none for a text it refuses; it throws when
  the text nests deeper than the stack limit. -/
  parse : List UInt8 → Except String (Option JsonValue)
  /-- `writeString` without indentation. -/
  write : JsonValue → List UInt8
  /-- What the conversion of `2^63` stores: the value passes the range check, which compares
  doubles, and does not fit. -/
  edge : Int64

namespace JsonValue

/-- Towards zero. -/
def truncate (q : Rat) : Int :=
  if 0 ≤ q then q.floor else q.ceil

/-- The member of an object. -/
def member? : JsonValue → String → Option JsonValue
  | obj members, k => members.lookup k
  | _, _ => none

/-- Members can be asked for. -/
def isKeyed : JsonValue → Bool
  | obj _ => true
  | null => true
  | _ => false

/-- `Json::Value::isMember`, which throws on a value that is neither an object nor null. -/
def isMember (v : JsonValue) (k : String) : Except String Bool :=
  if v.isKeyed then .ok (v.member? k).isSome
  else .error "in Json::Value::find(begin, end): requires objectValue or nullValue"

/-- `Json::Value::isNumeric`. -/
def isNumeric : JsonValue → Bool
  | int _ => true
  | uint _ => true
  | real _ => true
  | _ => false

/-- `Json::Value::asInt64`, which throws on what does not fit. -/
def asInt64 (json : JsonCpp) : JsonValue → Except String Int
  | int n => .ok n.toInt
  | uint n =>
    if n.toNat < 2 ^ 63 then .ok n.toNat else .error "LargestUInt out of Int64 range"
  | real q =>
    if -2 ^ 63 ≤ q ∧ q ≤ 2 ^ 63 then .ok (if q = 2 ^ 63 then json.edge.toInt else truncate q)
    else .error "double out of Int64 range"
  | null => .ok 0
  | bool b => .ok (if b then 1 else 0)
  | _ => .error "Value is not convertible to Int64."

/-- The text of a member that has one. -/
def text? (v : JsonValue) (k : String) : Option String :=
  match v.member? k with
  | some (str s) => some s
  | _ => none

/-- `isMember(k) && [k].isString()`, and the text then. -/
def textAt (v : JsonValue) (k : String) : Except String (Option String) := do
  let _ ← v.isMember k
  return v.text? k

/-- `isMember(k) && [k].isNumeric()`, and the number then. -/
def int64At (json : JsonCpp) (v : JsonValue) (k : String) : Except String (Option Int) := do
  let _ ← v.isMember k
  match (v.member? k).filter isNumeric with
  | some n => return some (← n.asInt64 json)
  | none => return none

end JsonValue

/-! ## The manager -/

/-- RS256 over keys that OpenSSL holds. -/
structure Rs256 (Pkey : Type) where
  /-- Fails when one of the calls does. -/
  sign : Pkey → String → Option (List UInt8)
  verify : Pkey → String → List UInt8 → Bool

/-- A loaded key. -/
structure KeyEntry (Pkey : Type) where
  kid : String
  pkey : Pkey
deriving DecidableEq

/-- The loaded keys, and which of them signs. -/
structure JwkManager (Pkey : Type) where
  keys : List (KeyEntry Pkey) := []
  activeKid : String := ""
  initialized : Bool := false

/-- The results of a verification. -/
inductive JwtVerificationResult where
  | ok
  | notInitialized
  | malformed
  | badAlg
  | kidMismatch
  | badSignature
  | issuerMismatch
  | expired
  | notYetValid
  | missingSubject
  | audienceMismatch
deriving DecidableEq, Repr

/-- How a verification ends before its last line. -/
inductive Exit where
  | rejected (result : JwtVerificationResult)
  | threw (what : String)
deriving DecidableEq, Repr

/-- The encoder of `JwkManager.cc`. -/
def base64UrlEncode (bytes : List UInt8) : String :=
  String.ofList (Base64Url.encode bytes)

/-- The decoder of `JwkManager.cc`. -/
def base64UrlDecode (input : String) : Option (List UInt8) :=
  Base64Url.decode input.toList

namespace JwkManager

variable {Pkey : Type} (json : JsonCpp) (rs256 : Rs256 Pkey) (m : JwkManager Pkey)

/-- The first key with this id. -/
def findEntry (kid : String) : Option (KeyEntry Pkey) :=
  m.keys.find? fun entry => entry.kid == kid

/-- The key that signs. -/
def activeEntry : Option (KeyEntry Pkey) :=
  m.findEntry m.activeKid

/-- The members of a `Json::Value` are kept in the order of their names. -/
def jwtHeader (kid : String) : JsonValue :=
  .obj [("alg", .str "RS256"), ("kid", .str kid), ("typ", .str "JWT")]

/-- Empty when the token cannot be signed. -/
def signJwt (payload : JsonValue) : String :=
  if m.initialized = false then ""
  else
    match m.activeEntry with
    | none => ""
    | some active =>
      let headerB64 := base64UrlEncode (json.write (jwtHeader active.kid))
      let payloadB64 := base64UrlEncode (json.write payload)
      let signingInput := headerB64 ++ "." ++ payloadB64
      match rs256.sign active.pkey signingInput with
      | none => ""
      | some signature => signingInput ++ "." ++ base64UrlEncode signature

/-- What stands before the first dot and what after it. -/
def cutAtDot (text : List Char) : Option (List Char × List Char) :=
  if text.contains '.' then
    some (text.takeWhile (· != '.'), (text.dropWhile (· != '.')).drop 1)
  else none

/-- Exactly two dots, three non-empty segments. -/
def segments (jwt : String) : Option (String × String × String) := do
  let (header, rest) ← cutAtDot jwt.toList
  let (payload, signature) ← cutAtDot rest
  if header.isEmpty || payload.isEmpty || signature.isEmpty || signature.contains '.' then none
  else some (String.ofList header, String.ofList payload, String.ofList signature)

/-- A segment as JSON. -/
def readJson (segment : String) : Except Exit JsonValue := do
  let bytes ← orRefuse (base64UrlDecode segment) (.rejected .malformed)
  let parsed ← orAnswer (json.parse bytes) .threw
  orRefuse parsed (.rejected .malformed)

/-- Strictly RS256, and the key the header names.  A `kid` that is no text or empty is passed
over like an absent one. -/
def checkHeader (header : JsonValue) : Except Exit (Option (KeyEntry Pkey)) := do
  let alg ← orAnswer (header.textAt "alg") .threw
  refuseIf (alg != some "RS256") (.rejected .badAlg)
  let kid ← orAnswer (header.textAt "kid") .threw
  match kid.filter (· != "") with
  | none => return none
  | some kid => return some (← orRefuse (m.findEntry kid) (.rejected .kidMismatch))

/-- Without a key that is named, every loaded key is tried. -/
def signatureOk (entry : Option (KeyEntry Pkey)) (signingInput : String)
    (signature : List UInt8) : Bool :=
  match entry with
  | some entry => rs256.verify entry.pkey signingInput signature
  | none => m.keys.any fun candidate => rs256.verify candidate.pkey signingInput signature

/-- The audience is the claim itself or one of the texts in it. -/
def audienceOk (payload : JsonValue) (expectedAudience : String) : Bool :=
  match payload.member? "aud" with
  | some (.str aud) => aud == expectedAudience
  | some (.arr elements) => elements.any fun
    | .str aud => aud == expectedAudience
    | _ => false
  | _ => false

/-- The claim is optional, but a value that is no number is not passed over. -/
def checkNbf (payload : JsonValue) (nowSecs : Int64) : Except Exit Unit := do
  if ← orAnswer (payload.isMember "nbf") .threw then
    let nbf ← orAnswer (payload.int64At json "nbf") .threw
    let nbf ← orRefuse nbf (.rejected .malformed)
    refuseIf (nbf > nowSecs.toInt) (.rejected .notYetValid)
  else return ()

/-- The checks of `verifyCore` on the payload, in their order. -/
def checkClaims (payload : JsonValue) (expectedIssuer : String) (nowSecs : Int64)
    (expectedAudience : String) : Except Exit Unit := do
  let iss ← orAnswer (payload.textAt "iss") .threw
  refuseIf (iss != some expectedIssuer) (.rejected .issuerMismatch)
  let exp ← orAnswer (payload.int64At json "exp") .threw
  refuseIf (!exp.any fun exp => nowSecs.toInt < exp) (.rejected .expired)
  checkNbf json payload nowSecs
  let sub ← orAnswer (payload.textAt "sub") .threw
  refuseIf (!sub.any (· != "")) (.rejected .missingSubject)
  refuseIf (expectedAudience != "" && !audienceOk payload expectedAudience)
    (.rejected .audienceMismatch)

/-- The payload, if every check passes. -/
def verifyCore (jwt expectedIssuer : String) (nowSecs : Int64) (expectedAudience : String) :
    Except Exit JsonValue := do
  refuseIf (!m.initialized || m.keys.isEmpty) (.rejected .notInitialized)
  let (headerB64, payloadB64, signatureB64) ← orRefuse (segments jwt) (.rejected .malformed)
  let header ← readJson json headerB64
  let entry ← m.checkHeader header
  let signature ← orRefuse (base64UrlDecode signatureB64) (.rejected .malformed)
  refuseIf (!m.signatureOk rs256 entry (headerB64 ++ "." ++ payloadB64) signature)
    (.rejected .badSignature)
  let payload ← readJson json payloadB64
  checkClaims json payload expectedIssuer nowSecs expectedAudience
  return payload

/-- An exception leaves the call. -/
def verifyJwt (jwt expectedIssuer : String) (nowSecs : Int64) (expectedAudience : String := "") :
    Except String JwtVerificationResult :=
  match m.verifyCore json rs256 jwt expectedIssuer nowSecs expectedAudience with
  | .ok _ => .ok .ok
  | .error (.rejected result) => .ok result
  | .error (.threw what) => .error what

/-- The payload and the reason of a rejection. -/
def verifyAndDecode (jwt expectedIssuer : String) (nowSecs : Int64)
    (expectedAudience : String := "") :
    Except String (Option JsonValue × JwtVerificationResult) :=
  match m.verifyCore json rs256 jwt expectedIssuer nowSecs expectedAudience with
  | .ok payload => .ok (some payload, .ok)
  | .error (.rejected result) => .ok (none, result)
  | .error (.threw what) => .error what

end JwkManager

end Fulla.Jwk
