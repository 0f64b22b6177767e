import Fulla.Model.Dto
import Fulla.Webauthn.CborReader

/-!
# What the client sends

`parseClientDataJSON` and `parseAuthData` of `WebAuthnCrypto.cc`: the bytes of a ceremony
turned into checked structures.  The strict JSON reader is a parameter, the lengths of the
embedded CBOR items come from `CborReader.validateStructure`.
-/

namespace Fulla

open Conc

namespace CborReader

/-- Bytes of an input. -/
def limits.kMaxInputBytes : Nat := 131072

/-- The encoded length of the first item. -/
def measure (data : List UInt8) : Except String Nat := do
  refuseIf (limits.kMaxInputBytes < data.length) "input exceeds 131072 bytes"
  match validateStructure machine data with
  | .ok n => return n
  | .error (.fail why) => throw why
  | .error _ => throw "unexpected exception while measuring CBOR"

end CborReader

namespace Webauthn

/-! ## clientDataJSON -/

/-- What is read from the client data. -/
structure ParsedClientData where
  type : String
  challenge : String
  origin : String
  crossOriginPresent : Bool := false
  crossOrigin : Bool := false
  tokenBindingPresent : Bool := false
  tokenBindingStatus : String := ""
deriving DecidableEq, Repr

/-- The statuses that are accepted. -/
def kTokenBindingStatuses : List String :=
  ["present", "supported", "not-supported"]

/-- The member `field`, which must be there and be a string. -/
def stringMember (root : Json) (field : String) : Except String String :=
  match root.get field with
  | .str s => return s
  | _ => throw ("clientDataJSON." ++ field ++ " must be present and a string")

/-- The member `crossOrigin`, which must be a flag. -/
def crossOriginMember (root : Json) : Except String (Option Bool) :=
  if root.isMember "crossOrigin" then
    match root.get "crossOrigin" with
    | .bool b => return some b
    | _ => throw "clientDataJSON.crossOrigin must be a boolean"
  else return none

/-- The member `tokenBinding` with its status. -/
def tokenBindingMember (root : Json) : Except String (Option String) :=
  if root.isMember "tokenBinding" then
    match (root.get "tokenBinding").get "status" with
    | .str status => do
      refuseIf (!kTokenBindingStatuses.contains status)
        "clientDataJSON.tokenBinding.status is not a recognized value"
      refuseIf (status = "present")
        ("tokenBinding.status \"present\" is invalid " ++
          "(token binding is not negotiated by this server)")
      return some status
    | _ => throw "clientDataJSON.tokenBinding must be an object with a string status"
  else return none

/-- `read` refuses what is not JSON, what has trailing tokens and what repeats a key. -/
def parseClientDataJSON (read : List UInt8 → Except String Json) (clientDataJSON : List UInt8) :
    Except String ParsedClientData := do
  let root ← orAnswer (read clientDataJSON) fun errors => "invalid JSON: " ++ errors
  refuseIf (!root.isObject) "clientDataJSON must be a JSON object"
  let type ← stringMember root "type"
  let challenge ← stringMember root "challenge"
  let origin ← stringMember root "origin"
  let crossOrigin ← crossOriginMember root
  let tokenBinding ← tokenBindingMember root
  return {
    type := type
    challenge := challenge
    origin := origin
    crossOriginPresent := crossOrigin.isSome
    crossOrigin := crossOrigin.getD false
    tokenBindingPresent := tokenBinding.isSome
    tokenBindingStatus := tokenBinding.getD "" }

/-! ## authenticatorData -/

/-- What is read from the authenticator data. -/
structure ParsedAuthData where
  rpIdHash : List UInt8
  up : Bool
  uv : Bool
  at_ : Bool
  ed : Bool
  /-- Big-endian as transmitted. -/
  signCount : UInt32
  aaguid : List UInt8 := []
  credentialId : List UInt8 := []
  coseKey : List UInt8 := []
deriving DecidableEq, Repr

/-- Bytes up to the counter. -/
def kFixedPartBytes : Nat := 37

/-- Bytes of an authenticator's model. -/
def kAaguidBytes : Nat := 16

/-- Bytes of a credential id. -/
def kMaxCredentialIdBytes : Nat := 1023

/-- `data.substr(pos, n)`. -/
def substr (data : List UInt8) (pos n : Nat) : List UInt8 :=
  (data.drop pos).take n

/-- The byte at an offset. -/
def byte (data : List UInt8) (i : Nat) : UInt8 :=
  data.getD i 0

/-- `rpIdHash(32) flags(1) signCount(4)`. -/
def fixedPart (authData : List UInt8) : ParsedAuthData :=
  let flags := byte authData 32
  { rpIdHash := substr authData 0 32
    up := flags &&& 0x01 ≠ 0
    uv := flags &&& 0x04 ≠ 0
    at_ := flags &&& 0x40 ≠ 0
    ed := flags &&& 0x80 ≠ 0
    signCount :=
      (byte authData 33).toUInt32 <<< 24 ||| (byte authData 34).toUInt32 <<< 16 |||
        (byte authData 35).toUInt32 <<< 8 ||| (byte authData 36).toUInt32 }

/-- The length of the CBOR item at an offset. -/
def measureAt (authData : List UInt8) (offset : Nat) (what : String) : Except String Nat :=
  orAnswer (CborReader.measure (authData.drop offset)) fun reason => what ++ ": " ++ reason

/-- The attested credential data from `pos` on, and where it ends. -/
def attestedPart (authData : List UInt8) (parsed : ParsedAuthData) (pos : Nat) :
    Except String (ParsedAuthData × Nat) := do
  refuseIf (authData.length < pos + kAaguidBytes) "authData: aaguid truncated"
  let aaguid := substr authData pos kAaguidBytes
  let pos := pos + kAaguidBytes
  refuseIf (authData.length < pos + 2) "authData: credentialIdLength truncated"
  let credentialIdLength := (byte authData pos).toNat <<< 8 ||| (byte authData (pos + 1)).toNat
  let pos := pos + 2
  refuseIf (kMaxCredentialIdBytes < credentialIdLength)
    "authData: credentialIdLength exceeds 1023 bytes"
  refuseIf (authData.length < pos + credentialIdLength) "authData: credentialId truncated"
  let credentialId := substr authData pos credentialIdLength
  let pos := pos + credentialIdLength
  let coseKeyLength ← measureAt authData pos "authData: COSE key"
  return ({ parsed with
      aaguid := aaguid
      credentialId := credentialId
      coseKey := substr authData pos coseKeyLength },
    pos + coseKeyLength)

/-- `parseAuthData` of `WebAuthnCrypto.cc`. -/
def parseAuthData (authData : List UInt8) (requireAttestedCredentialData : Bool) :
    Except String ParsedAuthData := do
  refuseIf (authData.length < kFixedPartBytes) "authData shorter than the 37-byte fixed part"
  let fixed := fixedPart authData
  refuseIf (!fixed.at_ && requireAttestedCredentialData)
    "authData: AT flag not set but attested credential data is required"
  let (parsed, pos) ←
    if fixed.at_ then attestedPart authData fixed kFixedPartBytes
    else pure (fixed, kFixedPartBytes)
  let extensionLength ←
    if parsed.ed then measureAt authData pos "authData: extension data" else pure 0
  let pos := pos + extensionLength
  refuseIf (pos ≠ authData.length) "authData: trailing bytes after the declared structure"
  return parsed

end Webauthn

end Fulla
