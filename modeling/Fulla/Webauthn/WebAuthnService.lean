import Fulla.Conc.Prog
import Fulla.Conc.Table
import Fulla.Identity.RandomSource
import Fulla.Webauthn.ClientBytes

/-!
# The WebAuthn service

`WebAuthnService.cc` over the credentials table.  A registration runs under a challenge that
the service keeps for the subject; an assertion is a program whose look-up, checks and
conditional counter update interleave with those of other assertions.

The attestation and COSE trees, which a CBOR library builds, and the ES256 verification are
parameters, as is the clock.
-/

namespace Fulla

open Conc

namespace Webauthn

/-- What is read from an attestation object. -/
structure ParsedAttestationObject where
  fmt : String
  authData : List UInt8
  attStmtEmptyMap : Bool
deriving DecidableEq, Repr

/-- The coordinates of a key. -/
structure Es256PublicKey where
  x : List UInt8
  y : List UInt8
deriving DecidableEq, Repr

end Webauthn

/-- `ICryptoProvider` and what `WebAuthnCrypto.cc` leaves to libraries. -/
structure WebAuthnCrypto where
  sha256 : String → List UInt8
  base64UrlEncode : List UInt8 → String
  /-- None where the decoder throws. -/
  base64UrlDecode : String → Option (List UInt8)
  readJson : List UInt8 → Except String Json
  parseAttestationObject : List UInt8 → Option Webauthn.ParsedAttestationObject
  parseCoseKeyEs256 : List UInt8 → Option Webauthn.Es256PublicKey
  verifyEs256Signature : Webauthn.Es256PublicKey → List UInt8 → List UInt8 → List UInt8 → Bool

/-- A row of `webauthn_credentials`; the counter is a nullable signed column. -/
structure WebAuthnCredential where
  credentialId : String
  userId : Int32
  publicKey : String
  name : String
  signCount : Option Int32 := some 0
deriving DecidableEq

/-- The table of credentials. -/
abbrev Credentials := Table WebAuthnCredential.credentialId

/-- What the service is injected with and configured to. -/
structure WebAuthnService where
  /-- None when no provider was injected. -/
  crypto : Option WebAuthnCrypto
  hasRepo : Bool := true
  rpId : String := "localhost"
  rpName : String := "Fulla"
  rpOrigins : List String := []
  challengeTtlSeconds : Int := 300
  hasCloneDetectorNotifier : Bool := false

namespace WebAuthnService

/-- Bytes of a challenge. -/
def kChallengeBytes : Nat := 32

/-- The answer of the random source is not looked at: the buffer starts with zeros. -/
def generateChallenge (crypto : WebAuthnCrypto) (draw : Draw kChallengeBytes) : String :=
  crypto.base64UrlEncode (draw.buffer (List.replicate kChallengeBytes 0))

/-! ## Registration challenges -/

/-- An entry of `registrationChallenges_`, with its key. -/
structure ChallengeEntry where
  subject : String
  challenge : String
  issuedAt : Int
deriving DecidableEq, Repr

/-- The map of registration challenges, one for each subject. -/
abbrev Challenges := Table ChallengeEntry.subject

/-- At most the lifetime has passed. -/
def live (svc : WebAuthnService) (now : Int) (entry : ChallengeEntry) : Bool :=
  !(now - entry.issuedAt > svc.challengeTtlSeconds)

/-- Sweep the entries that have expired, whosever they are, then overwrite the subject's. -/
def issueRegistrationChallenge (svc : WebAuthnService) (now : Int) (draw : Draw kChallengeBytes)
    (subject : String) (challenges : Challenges) : Option String × Challenges :=
  match svc.crypto with
  | none => (none, challenges)
  | some crypto =>
    if subject = "" then (none, challenges)
    else
      let challenge := generateChallenge crypto draw
      (some challenge,
        (challenges.keep (svc.live now)).assign ⟨subject, challenge, now⟩)

/-- The entry is erased whether it matches or not. -/
def consumeRegistrationChallenge (svc : WebAuthnService) (now : Int)
    (subject presentedChallenge : String) (challenges : Challenges) : Bool × Challenges :=
  match challenges.find? subject with
  | none => (false, challenges)
  | some entry =>
    (entry.challenge ≠ "" && svc.live now entry && entry.challenge = presentedChallenge,
      challenges.erase subject)

/-- What a client sends to register. -/
structure RegistrationInput where
  id : String
  rawId : String
  attestationObject : String
  clientDataJSON : String
  name : String
deriving DecidableEq, Repr

/-- The type, the challenge and the origin of a ceremony, and no cross-origin frame. -/
def clientDataAccepted (svc : WebAuthnService) (type presentedChallenge : String)
    (clientData : Webauthn.ParsedClientData) : Bool :=
  clientData.type = type && clientData.challenge = presentedChallenge &&
    !(clientData.crossOriginPresent && clientData.crossOrigin) &&
    svc.rpOrigins.contains clientData.origin

/-- What a finished registration stores, behind the challenge gate. -/
def verifyAttestation (svc : WebAuthnService) (crypto : WebAuthnCrypto) (userId : Int32)
    (presentedChallenge : String) (input : RegistrationInput) :
    Except String WebAuthnCredential := do
  let attestationObject ← orRefuse (crypto.base64UrlDecode input.attestationObject)
    "WEBAUTHN_INVALID_ATTESTATION"
  let clientDataJson ← orRefuse (crypto.base64UrlDecode input.clientDataJSON)
    "WEBAUTHN_INVALID_ATTESTATION"
  let rawId ← orRefuse (crypto.base64UrlDecode input.rawId) "WEBAUTHN_INVALID_ATTESTATION"
  refuseIf (rawId.isEmpty || input.id ≠ input.rawId) "WEBAUTHN_INVALID_ATTESTATION"
  let clientData ← orAnswer (Webauthn.parseClientDataJSON crypto.readJson clientDataJson)
    fun _ => "WEBAUTHN_CHALLENGE_MISMATCH"
  refuseIf (!svc.clientDataAccepted "webauthn.create" presentedChallenge clientData)
    "WEBAUTHN_CHALLENGE_MISMATCH"
  let attestation ← orRefuse (crypto.parseAttestationObject attestationObject)
    "WEBAUTHN_INVALID_ATTESTATION"
  refuseIf (attestation.fmt ≠ "none" || !attestation.attStmtEmptyMap)
    "WEBAUTHN_INVALID_ATTESTATION"
  let authData ← orAnswer (Webauthn.parseAuthData attestation.authData true)
    fun _ => "WEBAUTHN_INVALID_ATTESTATION"
  refuseIf (!authData.up || !authData.uv || !authData.at_) "WEBAUTHN_INVALID_ATTESTATION"
  refuseIf (authData.rpIdHash ≠ crypto.sha256 svc.rpId) "WEBAUTHN_CHALLENGE_MISMATCH"
  refuseIf (authData.credentialId ≠ rawId) "WEBAUTHN_INVALID_ATTESTATION"
  refuseIf (crypto.parseCoseKeyEs256 authData.coseKey).isNone "WEBAUTHN_INVALID_ATTESTATION"
  return {
    credentialId := crypto.base64UrlEncode authData.credentialId
    userId := userId
    publicKey := crypto.base64UrlEncode authData.coseKey
    name := if input.name = "" then "Passkey" else input.name }

/-- What a registration changes. -/
structure Registrations where
  challenges : Challenges := .empty
  credentials : Credentials := .empty

/-- The answered error code, empty on success.  `fault`: the insert fails for another reason
than a duplicate. -/
def storeCredential (fault : Bool) (cred : WebAuthnCredential) (credentials : Credentials) :
    String × Credentials :=
  if fault then ("DB_QUERY_ERROR", credentials)
  else
    match credentials.insertNew cred with
    | none => ("VALIDATION_CREDENTIAL_ALREADY_REGISTERED", credentials)
    | some credentials => ("", credentials)

/-- Whether the challenge gate lets the attestation through: it is only parsed then. -/
def registrationGate (svc : WebAuthnService) (now : Int) (subject presentedChallenge : String)
    (challenges : Challenges) : Bool :=
  svc.hasRepo && svc.crypto.isSome &&
    (svc.consumeRegistrationChallenge now subject presentedChallenge challenges).1

/-- What follows once the challenge was right. -/
def finishRegistrationVerified (svc : WebAuthnService) (now : Int) (fault : Bool) (userId : Int32)
    (subject presentedChallenge : String) (input : RegistrationInput) (s : Registrations) :
    String × Registrations :=
  match svc.crypto, svc.hasRepo with
  | some crypto, true =>
    let consumed := svc.consumeRegistrationChallenge now subject presentedChallenge s.challenges
    let s := { s with challenges := consumed.2 }
    if !consumed.1 then ("WEBAUTHN_CHALLENGE_MISMATCH", s)
    else
      match svc.verifyAttestation crypto userId presentedChallenge input with
      | .error code => (code, s)
      | .ok cred =>
        let stored := storeCredential fault cred s.credentials
        (stored.1, { s with credentials := stored.2 })
  | _, _ => ("INTERNAL_ERROR", s)

/-! ## Assertions -/

/-- What a client sends to log in. -/
structure AssertionInput where
  id : String
  rawId : String
  authenticatorData : String
  clientDataJSON : String
  signature : String
  /-- Empty when the authenticator does not echo it. -/
  userHandle : String
deriving DecidableEq, Repr

/-- The row that a look-up finds. -/
structure WebAuthnCredentialLookup where
  userId : Int32
  publicSub : String
  signCount : Int32
  publicKey : String
deriving DecidableEq

/-- Who has logged in. -/
structure WebAuthnAuthResult where
  userId : Int32
  publicSub : String
  signCount : Int32
  credentialId : String
deriving DecidableEq

/-- The steps of an assertion: two of the repository, two of the service itself, which only
mark where other assertions may come in between, and the observability hook. -/
inductive AssertionOp where
  | findByCredentialId (credentialId : String)
  | signatureCheck (credentialId : String)
  | counterCheck (credentialId : String) (stored presented : UInt32)
  | cloneNotifier (userId : Int32) (credentialId : String)
  | updateSignCountIfCurrent (credentialId : String) (expectedCurrent newSignCount : Int32)

/-- What the operations of an assertion answer. -/
abbrev AssertionSig : Sig where
  Op := AssertionOp
  Res
    | .findByCredentialId _ => Option WebAuthnCredentialLookup
    | .signatureCheck _ => Unit
    | .counterCheck _ _ _ => Unit
    | .cloneNotifier _ _ => Unit
    | .updateSignCountIfCurrent _ _ _ => Bool

/-- An assertion as a program. -/
abbrev AssertionProg := Prog AssertionSig

def step (o : AssertionOp) : AssertionProg (AssertionSig.Res o) :=
  Prog.call (S := AssertionSig) o

/-- The decoded parts of an assertion. -/
structure Assertion where
  credentialId : String
  authData : List UInt8
  clientDataJson : List UInt8
  signature : List UInt8

/-- The checks before the look-up. -/
def openAssertion (svc : WebAuthnService) (crypto : WebAuthnCrypto) (presentedChallenge : String)
    (input : AssertionInput) : Option Assertion := do
  guard (input.id ≠ "" ∧ input.id = input.rawId)
  let rawId ← crypto.base64UrlDecode input.rawId
  let authData ← crypto.base64UrlDecode input.authenticatorData
  let clientDataJson ← crypto.base64UrlDecode input.clientDataJSON
  let signature ← crypto.base64UrlDecode input.signature
  let clientData ← (Webauthn.parseClientDataJSON crypto.readJson clientDataJson).toOption
  guard (svc.clientDataAccepted "webauthn.get" presentedChallenge clientData = true)
  return {
    credentialId := crypto.base64UrlEncode rawId
    authData := authData
    clientDataJson := clientDataJson
    signature := signature }

/-- An echoed handle is the decimal user id of the owner. -/
def userHandleAccepted (crypto : WebAuthnCrypto) (userHandle : String) (userId : Int32) : Bool :=
  userHandle = "" ||
    match crypto.base64UrlDecode userHandle with
    | none => false
    | some bytes => bytes = (toString userId.toInt).toUTF8.toList

/-- The checks between the look-up and the counter; the transmitted counter. -/
def verifyAssertion (svc : WebAuthnService) (crypto : WebAuthnCrypto) (userHandle : String)
    (a : Assertion) (found : WebAuthnCredentialLookup) : Option UInt32 := do
  guard (userHandleAccepted crypto userHandle found.userId = true)
  let authData ← (Webauthn.parseAuthData a.authData false).toOption
  guard (authData.up = true ∧ authData.uv = true)
  guard (authData.rpIdHash = crypto.sha256 svc.rpId)
  let storedCose ← crypto.base64UrlDecode found.publicKey
  let coseKey ← crypto.parseCoseKeyEs256 storedCose
  guard (crypto.verifyEs256Signature coseKey a.authData a.clientDataJson a.signature = true)
  return authData.signCount

/-- The counter check and the conditional update.  Two zeros skip the write: the case
without a counter cannot compare and set. -/
def advanceCounter (svc : WebAuthnService) (credentialId : String)
    (found : WebAuthnCredentialLookup) (presented : UInt32) :
    AssertionProg (Option WebAuthnAuthResult) := do
  let stored := found.signCount.toUInt32
  let () ← step (.counterCheck credentialId stored presented)
  if stored > 0 ∧ presented ≤ stored then
    if svc.hasCloneDetectorNotifier then
      let () ← step (.cloneNotifier found.userId credentialId)
    return none
  else if stored = 0 ∧ presented = 0 then
    return some ⟨found.userId, found.publicSub, 0, credentialId⟩
  else
    let advanced : Bool ←
      step (.updateSignCountIfCurrent credentialId stored.toInt32 presented.toInt32)
    if advanced then
      return some ⟨found.userId, found.publicSub, presented.toInt32, credentialId⟩
    else return none

/-- Every failure answers the same none. -/
def finishAuthenticationVerified (svc : WebAuthnService) (presentedChallenge : String)
    (input : AssertionInput) : AssertionProg (Option WebAuthnAuthResult) :=
  match svc.crypto, svc.hasRepo with
  | some crypto, true =>
    match svc.openAssertion crypto presentedChallenge input with
    | none => return none
    | some a => do
      let found : Option WebAuthnCredentialLookup ← step (.findByCredentialId a.credentialId)
      match found with
      | none => return none
      | some found =>
        let () ← step (.signatureCheck a.credentialId)
        match svc.verifyAssertion crypto input.userHandle a found with
        | none => return none
        | some presented => svc.advanceCounter a.credentialId found presented
  | _, _ => return none

/-- What one step finds around it. -/
structure AssertionMoment where
  /-- The `public_sub` of a user; none for one that is deleted or locked, and when the
  statement fails. -/
  publicSub : Int32 → Option String := fun _ => none
  /-- The server refuses the statement. -/
  refused : Bool := false
  /-- The statement takes effect and its answer is lost. -/
  lost : Bool := false

/-- The counter of a credential, with the default that the getter answers for `NULL`. -/
def counter (credentials : Credentials) (credentialId : String) : UInt32 :=
  (((credentials.find? credentialId).bind (·.signCount)).getD 0).toUInt32

/-- `UPDATE ... WHERE credential_id = $2 AND sign_count = $3`; `NULL` equals nothing. -/
def compareAndSet (credentialId : String) (expectedCurrent newSignCount : Int32)
    (credentials : Credentials) : Credentials :=
  credentials.updateWhere
    (fun c => c.credentialId = credentialId ∧ c.signCount = some expectedCurrent)
    (fun c => { c with signCount := some newSignCount }) fun _ => rfl

/-- Whether the condition of the update selects a row. -/
def current (credentialId : String) (expectedCurrent : Int32) (credentials : Credentials) : Bool :=
  ((credentials.find? credentialId).bind (·.signCount)) = some expectedCurrent

/-- What an operation does and answers. -/
def execAssertion (m : AssertionMoment) : Handler AssertionSig Credentials
  | .findByCredentialId credentialId, credentials =>
    ((do
      guard (m.refused = false)
      let c ← credentials.find? credentialId
      let publicSub ← m.publicSub c.userId
      return ⟨c.userId, publicSub, c.signCount.getD 0, c.publicKey⟩), credentials)
  | .signatureCheck _, credentials => ((), credentials)
  | .counterCheck _ _ _, credentials => ((), credentials)
  | .cloneNotifier _ _, credentials => ((), credentials)
  | .updateSignCountIfCurrent credentialId expectedCurrent newSignCount, credentials =>
    if m.refused then (false, credentials)
    else
      (current credentialId expectedCurrent credentials && !m.lost,
        compareAndSet credentialId expectedCurrent newSignCount credentials)

end WebAuthnService

end Fulla
