import Fulla.Conc.FailClosed
import Fulla.Protocol.Calls
import Fulla.Webauthn.WebAuthnService

/-!
# Secrets and a random source that fails

Every operation that makes a secret from random bytes: codes and token pairs of the token
service, the TOTP secret and the backup codes of `MfaService`, the WebAuthn challenges and the
salt of `hashPassword`.  A draw that fails leaves fewer random bytes in the buffer than were
asked for.  The first four look at the verdict of the draw and stop; the challenges and the
salt are made of whatever is in the buffer.
-/

namespace Fulla

open Conc

/-! ## The token service -/

/-- The draw fails. -/
def TokenDrawFails : (o : StoreOp) → StoreSig.Res o → Prop
  | .env (.secureRandomBytes _), r => r = none
  | _, _ => False

/-- Every operation of a repository. -/
def Writes : StoreOp → Prop
  | .env _ => False
  | _ => True

namespace Answer

/-- An error, and no secret. -/
def Refused : Answer → Prop
  | code (.error _) => True
  | token (.error _ _) => True
  | _ => False

end Answer

namespace Call

/-- The calls that make a secret. -/
def Mints : Call → Prop
  | generateAuthorizationCode .. => True
  | exchangeCodeForToken .. => True
  | refreshAccessToken .. => True
  | _ => False

end Call

/-- An operation that draws nothing. -/
def Drawless : StoreOp → Prop
  | .env (.secureRandomBytes _) => False
  | _ => True

/-- A step that draws nothing is no failed draw. -/
theorem not_drawFails {o : StoreOp} (drawless : Drawless o) (r : StoreSig.Res o) :
    ¬ TokenDrawFails o r := by
  intro failed
  cases o with
  | env o => cases o <;> first | exact failed | exact drawless
  | mem o => exact failed
  | sql o => exact failed
  | redis o => exact failed

section Token

variable {α : Type} {refused : α → Prop}

/-- A failed draw is followed by no write, and the program answers with a refusal. -/
abbrev TokenFailClosed (refused : α → Prop) (p : StoreProg α) : Prop :=
  p.FailClosed TokenDrawFails Writes refused

theorem mem_drawless (o : MemOp) : (mem o).Only Drawless :=
  Prog.only_call.mpr trivial

theorem sql_drawless (o : SqlOp) : (sql o).Only Drawless :=
  Prog.only_call.mpr trivial

theorem redis_drawless (o : RedisOp) : (redis o).Only Drawless :=
  Prog.only_call.mpr trivial

/-- An operation of the environment that is no draw. -/
theorem ask_drawless {o : EnvOp} (other : Drawless (.env o)) : (ask o).Only Drawless :=
  Prog.only_call.mpr other

theorem nowSeconds_drawless : nowSeconds.Only Drawless :=
  ask_drawless (by trivial)

theorem ask_reads (o : EnvOp) : (ask o).Only fun o => ¬ Writes o :=
  Prog.only_call.mpr fun writes => writes

theorem generateSecureToken_reads (crypto : CryptoProvider) (n : Nat) :
    (generateSecureToken crypto n).Only fun o => ¬ Writes o := by
  refine (ask_reads _).bind fun buffer => ?_
  cases buffer <;> trivial

/-- A token is drawn, and the rest refuses an empty one. -/
theorem failClosed_draw {crypto : CryptoProvider} {n : Nat} {f : String → StoreProg α}
    (empty : (f "").Refuses Writes refused) (rest : ∀ t, TokenFailClosed refused (f t)) :
    TokenFailClosed refused (generateSecureToken crypto n >>= f) := by
  intro r
  cases r with
  | none => exact ⟨fun _ => empty, rest ""⟩
  | some buffer =>
      refine ⟨fun failed => ?_, rest _⟩
      cases failed

/-- Steps that draw nothing may come before a program that fails closed. -/
theorem failClosed_bind {β : Type} {p : StoreProg β} {f : β → StoreProg α}
    (drawless : p.Only Drawless) (rest : ∀ b, TokenFailClosed refused (f b)) :
    TokenFailClosed refused (p >>= f) :=
  Prog.FailClosed.bind (drawless.mono fun _ => not_drawFails) rest

/-- A program that draws nothing fails closed. -/
theorem failClosed_drawless {p : StoreProg α} (drawless : p.Only Drawless) :
    TokenFailClosed refused p :=
  Prog.failClosed_of_plain (drawless.mono fun _ => not_drawFails)

variable (svc : TokenService)

/-- No port but the random source draws. -/
theorem drawless_ports : OnPorts Drawless := by
  intro o noDraw
  cases o with
  | secureRandomBytes n => exact absurd rfl (noDraw n)
  | _ => trivial

/-- No port writes. -/
theorem reads_ports : OnPorts fun o => ¬ Writes o :=
  fun _ _ writes => writes

theorem audit_drawless (action outcome actorId targetType targetId : String) :
    (svc.audit action outcome actorId targetType targetId).Only Drawless :=
  audit_only svc drawless_ports _ _ _ _ _

theorem audit_reads (action outcome actorId targetType targetId : String) :
    (svc.audit action outcome actorId targetType targetId).Only fun o => ¬ Writes o :=
  audit_only svc reads_ports _ _ _ _ _

theorem resolveRoles_drawless (subject : String) : (svc.resolveRoles subject).Only Drawless :=
  resolveRoles_only svc drawless_ports _

theorem resolveOrgContextForClaims_drawless (subject : String) (orgId : Option Int)
    (scope : String) : (svc.resolveOrgContextForClaims subject orgId scope).Only Drawless :=
  resolveOrgContextForClaims_only svc drawless_ports _ _ _

theorem withIdToken_drawless (userId scope : String) (claims : Json) (json : TokenJson) :
    (svc.withIdToken userId scope claims json).Only Drawless :=
  withIdToken_only svc drawless_ports _ _ _ _

theorem normalizedSubject_drawless (userId : String) :
    (svc.normalizedSubject userId).Only Drawless :=
  normalizedSubject_only svc drawless_ports _

section Repositories

variable (grants : GrantBackend) (tokens : TokenBackend)

/-- Saving a code draws nothing. -/
theorem saveAuthCode_drawless (code : OAuth2AuthCode) :
    (grants.repository.saveAuthCode code).Only Drawless := by
  cases grants with
  | memory => exact mem_drawless _
  | redis => exact nowSeconds_drawless.bind fun _ => (redis_drawless _).bind fun _ => trivial
  | postgres => exact (sql_drawless _).bind fun _ => trivial

/-- Nor does consuming one. -/
theorem consumeAuthCode_drawless (code redirectUri : String) :
    (grants.repository.consumeAuthCode code redirectUri).Only Drawless := by
  cases grants with
  | memory => exact mem_drawless _
  | redis => exact (redis_drawless _).bind fun _ => trivial
  | postgres =>
      refine (sql_drawless _).bind fun row => ?_
      cases row with
      | none => trivial
      | some row =>
          dsimp only
          split <;> trivial

/-- Nor does the compare-and-set. -/
theorem atomicRevokeRefreshToken_drawless (token : String) :
    (tokens.repository.atomicRevokeRefreshToken token).Only Drawless := by
  cases tokens with
  | memory => exact mem_drawless _
  | postgres => exact (sql_drawless _).bind fun _ => trivial

/-- Nor does saving a pair. -/
theorem saveTokenPair_drawless (a : OAuth2AccessToken) (r : OAuth2RefreshToken) :
    (tokens.repository.saveTokenPair a r).Only Drawless := by
  cases tokens with
  | memory => exact mem_drawless _
  | postgres => exact (sql_drawless _).bind fun _ => trivial

/-- Nor does a refusal. -/
theorem refuseRefresh_drawless (hashedRt : String) :
    (svc.refuseRefresh tokens.repository hashedRt).Only Drawless := by
  have found : (tokens.repository.getRefreshToken hashedRt).Only Drawless := by
    cases tokens with
    | memory => exact mem_drawless _
    | postgres => exact (sql_drawless _).bind fun _ => trivial
  have family : ∀ familyId, (tokens.repository.revokeTokenFamily familyId).Only Drawless := by
    intro familyId
    cases tokens with
    | memory => exact mem_drawless _
    | postgres =>
        change (PostgresTokenRepository.revokeTokenFamily familyId).Only Drawless
        unfold PostgresTokenRepository.revokeTokenFamily
        split
        · trivial
        · refine (sql_drawless _).bind fun ok => ?_
          split
          · exact (sql_drawless _).bind fun _ => trivial
          · trivial
  unfold TokenService.refuseRefresh
  refine found.bind fun maybeRevoked => ?_
  cases maybeRevoked with
  | none => trivial
  | some rt =>
      dsimp only
      split
      · exact (audit_drawless svc _ _ _ _ _).bind fun _ => (family _).bind fun _ => trivial
      · trivial

/-- **The issue of a code fails closed**. -/
theorem generateAuthorizationCode_failClosed (crypto : CryptoProvider) (clientId subject scope
    redirectUri codeChallenge codeChallengeMethod nonce : String) (authTime : Int) (amr : String)
    (orgId : Option Int) :
    TokenFailClosed (fun result => Answer.Refused (.code result))
      ((svc.over grants tokens crypto).generateAuthorizationCode clientId subject scope redirectUri
        codeChallenge codeChallengeMethod nonce authTime amr orgId) := by
  refine failClosed_draw (Prog.refuses_ret trivial) fun code => ?_
  split
  · trivial
  · split
    · trivial
    · refine failClosed_bind nowSeconds_drawless fun now => ?_
      exact failClosed_bind (saveAuthCode_drawless grants _) fun _ => trivial

/-- A missing token is refused whatever the others are. -/
theorem issueForCode_failClosed (crypto : CryptoProvider) (authCode : OAuth2AuthCode) (now : Int) :
    TokenFailClosed (fun response => Answer.Refused (.token response))
      (svc.issueForCode tokens.repository crypto authCode now) := by
  unfold TokenService.issueForCode
  refine failClosed_bind (resolveOrgContextForClaims_drawless svc _ _ _) fun orgCtx => ?_
  refine failClosed_bind (resolveRoles_drawless svc _) fun roles => ?_
  cases roles with
  | none => trivial
  | some roles =>
      refine failClosed_draw ?_ fun tokenStr => failClosed_draw ?_ fun refreshTokenStr =>
        failClosed_draw ?_ fun familyId => ?_
      · refine .bind (generateSecureToken_reads crypto 32) fun refreshTokenStr =>
          .bind (generateSecureToken_reads crypto 16) fun familyId => ?_
        rw [if_pos (.inl rfl)]
        exact .bind (audit_reads svc _ _ _ _ _) fun _ => Prog.refuses_ret trivial
      · refine .bind (generateSecureToken_reads crypto 16) fun familyId => ?_
        rw [if_pos (.inr (.inl rfl))]
        exact .bind (audit_reads svc _ _ _ _ _) fun _ => Prog.refuses_ret trivial
      · rw [if_pos (.inr (.inr rfl))]
        exact .bind (audit_reads svc _ _ _ _ _) fun _ => Prog.refuses_ret trivial
      · apply failClosed_drawless
        split
        · exact (audit_drawless svc _ _ _ _ _).bind fun _ => trivial
        · refine (saveTokenPair_drawless tokens _ _).bind fun ok => ?_
          split
          · exact (audit_drawless svc _ _ _ _ _).bind fun _ => trivial
          · exact (withIdToken_drawless svc _ _ _ _).bind fun _ =>
              (auditIssued_only svc drawless_ports _ _).bind fun _ => trivial

/-- **So does an exchange**. -/
theorem exchangeCodeForToken_failClosed (crypto : CryptoProvider) (code clientId clientSecret
    redirectUri codeVerifier : String) :
    TokenFailClosed (fun response => Answer.Refused (.token response))
      ((svc.over grants tokens crypto).exchangeCodeForToken code clientId clientSecret redirectUri
        codeVerifier) := by
  unfold TokenService.exchangeCodeForToken
  cases wired : (svc.over grants tokens crypto).clients with
  | false => trivial
  | true =>
      refine failClosed_bind (ask_drawless (by trivial)) fun isValid => ?_
      split
      · trivial
      · refine failClosed_bind (consumeAuthCode_drawless grants _ _) fun found => ?_
        cases found with
        | none => trivial
        | some authCode =>
            dsimp only
            split
            · trivial
            · refine failClosed_bind nowSeconds_drawless fun now => ?_
              split
              · trivial
              · exact issueForCode_failClosed _ tokens crypto authCode now

/-- So does what follows the compare-and-set of a refresh. -/
theorem rotate_failClosed (crypto : CryptoProvider) (storedRt : OAuth2RefreshToken) (now : Int)
    (subject : String) :
    TokenFailClosed (fun response => Answer.Refused (.token response))
      (svc.rotate tokens.repository crypto storedRt now subject) := by
  unfold TokenService.rotate
  refine failClosed_bind (resolveOrgContextForClaims_drawless svc _ _ _) fun orgCtx => ?_
  refine failClosed_draw ?_ fun tokenStr => failClosed_draw ?_ fun refreshTokenStr => ?_
  · refine .bind (generateSecureToken_reads crypto 32) fun refreshTokenStr => ?_
    rw [if_pos (.inl rfl)]
    exact Prog.refuses_ret trivial
  · rw [if_pos (.inr rfl)]
    exact Prog.refuses_ret trivial
  · apply failClosed_drawless
    split
    · trivial
    · refine (saveTokenPair_drawless tokens _ _).bind fun ok => ?_
      split
      · trivial
      · exact (audit_drawless svc _ _ _ _ _).bind fun _ =>
          (withIdToken_drawless svc _ _ _ _).bind fun _ => trivial

/-- **So does a refresh**. -/
theorem refreshAccessToken_failClosed (crypto : CryptoProvider)
    (refreshTokenStr clientId : String) :
    TokenFailClosed (fun response => Answer.Refused (.token response))
      ((svc.over grants tokens crypto).refreshAccessToken refreshTokenStr clientId) := by
  refine failClosed_bind (atomicRevokeRefreshToken_drawless tokens _) fun found => ?_
  cases found with
  | none => exact failClosed_drawless (refuseRefresh_drawless _ tokens _)
  | some storedRt =>
      dsimp only
      split
      · trivial
      · refine failClosed_bind nowSeconds_drawless fun now => ?_
        split
        · trivial
        · refine failClosed_bind (normalizedSubject_drawless _ _) fun subject => ?_
          cases subject with
          | none => trivial
          | some subject => exact rotate_failClosed _ tokens crypto storedRt now subject

/-- So does every call that makes a code or a pair. -/
theorem mints_failClosed (crypto : CryptoProvider) {call : Call} (mints : call.Mints) :
    TokenFailClosed Answer.Refused (call.prog (svc.over grants tokens crypto)) := by
  cases call with
  | generateAuthorizationCode =>
      apply Prog.FailClosed.map
      apply generateAuthorizationCode_failClosed
  | exchangeCodeForToken =>
      apply Prog.FailClosed.map
      apply exchangeCodeForToken_failClosed
  | refreshAccessToken =>
      apply Prog.FailClosed.map
      apply refreshAccessToken_failClosed
  | validateAccessToken => exact mints.elim
  | revokeAccessToken => exact mints.elim
  | revokeRefreshToken => exact mints.elim
  | purgeExpired => exact mints.elim

end Repositories

end Token

/-! ## The identity services -/

/-- The columns of the second factor. -/
structure MfaData where
  secret : String

/-- The operations of what makes a secret. -/
inductive MintOp where
  | secureRandomBytes (length : Nat)
  | pbkdf2HmacSha256 (password : String) (salt : List UInt8) (iterations keyLength : Nat)
  | nowSeconds
  | getMfaData (userId : Int32)
  | setSecret (userId : Int32) (secret : String)
  | enable (userId : Int32) (hashedBackupCodes : List String)
  /-- The sweep of the challenge map and the write. -/
  | keepChallenge (entry : WebAuthnService.ChallengeEntry)

abbrev MintSig : Sig where
  Op := MintOp
  Res
    | .secureRandomBytes n => Draw n
    | .pbkdf2HmacSha256 _ _ _ _ => List UInt8
    | .nowSeconds => Int
    | .getMfaData _ => Option MfaData
    | .setSecret _ _ => Bool
    | .enable _ _ => Bool
    | .keepChallenge _ => Unit

/-- A program that makes a secret. -/
abbrev MintProg := Prog MintSig

def mint (o : MintOp) : MintProg (MintSig.Res o) :=
  Prog.call (S := MintSig) o

namespace totp

/-- The alphabet of RFC 4648, section 6. -/
def kBase32Alphabet : List Char :=
  "ABCDEFGHIJKLMNOPQRSTUVWXYZ234567".toList

/-- The characters for the complete groups of five of the `bitsLeft` bits in `buffer`. -/
def emit (buffer : Nat) : (bitsLeft : Nat) → List Char × Nat
  | bitsLeft + 5 =>
    let (cs, left) := emit buffer bitsLeft
    (kBase32Alphabet.getD (buffer >>> bitsLeft &&& 0x1F) 'A' :: cs, left)
  | bitsLeft => ([], bitsLeft)

/-- The loop over the bytes; only the bits that are left stay in the buffer. -/
def base32Loop : List UInt8 → (buffer bitsLeft : Nat) → List Char
  | [], buffer, bitsLeft =>
    if bitsLeft > 0 then [kBase32Alphabet.getD (buffer <<< (5 - bitsLeft) &&& 0x1F) 'A'] else []
  | b :: data, buffer, bitsLeft =>
    let buffer := buffer <<< 8 ||| b.toNat
    let (cs, left) := emit buffer (bitsLeft + 8)
    cs ++ base32Loop data (buffer % 2 ^ left) left

/-- `totp::base32Encode`. -/
def base32Encode (data : List UInt8) : String :=
  String.ofList (base32Loop data 0 0)

/-- Empty when the random source fails. -/
def generateSecret (stack : List UInt8) : MintProg String := do
  let draw : Draw 20 ← mint (.secureRandomBytes 20)
  if draw.ok then return base32Encode (draw.buffer stack) else return ""

/-- The URI that an authenticator app reads. -/
def generateOtpAuthUri (secret accountName issuer : String) : String :=
  "otpauth://totp/" ++ issuer ++ ":" ++ accountName ++ "?secret=" ++ secret ++ "&issuer=" ++
    issuer ++ "&algorithm=SHA1&digits=6&period=30"

/-- Letters and digits that are not mistaken for each other. -/
def charset : List Char :=
  "ABCDEFGHJKLMNPQRSTUVWXYZ23456789".toList

/-- One symbol for each byte. -/
def backupCode (randomBytes : List UInt8) : String :=
  String.ofList (randomBytes.map fun b => charset.getD (b.toNat % 32) 'A')

/-- `count` more codes; none at all when the random source fails. -/
def generateBackupCodes (stack : List UInt8) : (count : Nat) → List String → MintProg (List String)
  | 0, codes => return codes
  | count + 1, codes => do
    let draw : Draw 8 ← mint (.secureRandomBytes 8)
    if draw.ok then generateBackupCodes stack count (codes ++ [backupCode (draw.buffer stack)])
    else return []

end totp

/-- What the service is injected with. -/
structure MfaService where
  hasRepo : Bool := true
  /-- `sha256Hex` of the provider; none when it is not injected. -/
  sha256Hex : Option (String → String)
  hasClock : Bool := true
  issuerName : String
  /-- `totp::verifyCode` of a secret and a code at a time. -/
  verifyCode : String → String → Int → Bool

namespace MfaService

/-- The secret and its URI. -/
structure MfaSetupResult where
  secret : String
  otpAuthUri : String

variable (svc : MfaService) (stack : List UInt8)

/-- `MfaService::setupSecret`. -/
def setupSecret (userId : Int32) (accountLabel : String) : MintProg (Option MfaSetupResult) :=
  if svc.hasRepo = false ∨ svc.sha256Hex.isNone then return none
  else do
    let secret ← totp.generateSecret stack
    if secret = "" then return none
    else
      let ok : Bool ← mint (.setSecret userId secret)
      if ok then return some ⟨secret, totp.generateOtpAuthUri secret accountLabel svc.issuerName⟩
      else return none

/-- The backup codes, which are stored as hashes. -/
def verifyAndEnable (userId : Int32) (code : String) : MintProg (Option (List String)) :=
  match svc.hasRepo, svc.sha256Hex, svc.hasClock with
  | true, some sha256Hex, true => do
    let data : Option MfaData ← mint (.getMfaData userId)
    match data with
    | none => return none
    | some data =>
      if data.secret = "" then return none
      else
        let now : Int ← mint .nowSeconds
        if svc.verifyCode data.secret code now = false then return none
        else
          let backupCodes ← totp.generateBackupCodes stack 10 []
          if backupCodes.length ≠ 10 then return none
          else
            let ok : Bool ← mint (.enable userId (backupCodes.map sha256Hex))
            if ok then return some backupCodes else return none
  | _, _, _ => return none

end MfaService

namespace AuthService

/-- Rounds of the derivation. -/
def kPbkdf2Iterations : Nat := 310000

/-- Bytes of a derived key. -/
def kPbkdf2KeyLength : Nat := 32

/-- Bytes of a salt. -/
def kPbkdf2SaltLength : Nat := 16

def bytesToHex (data : List UInt8) : String :=
  let hexChars := "0123456789abcdef".toList
  String.ofList (data.flatMap fun b =>
    [hexChars.getD (b.toNat / 16) '0', hexChars.getD (b.toNat % 16) '0'])

/-- Throws when the derivation fails; the verdict of the draw is not looked at. -/
def hashPassword (stack : List UInt8) (password : String) : MintProg (Except String String) := do
  let draw : Draw kPbkdf2SaltLength ← mint (.secureRandomBytes kPbkdf2SaltLength)
  let salt := draw.buffer stack
  let derived : List UInt8 ←
    mint (.pbkdf2HmacSha256 password salt kPbkdf2Iterations kPbkdf2KeyLength)
  if derived.length ≠ kPbkdf2KeyLength then return .error "PBKDF2 hashing failed"
  else
    return .ok ("$pbkdf2-sha256$" ++ toString kPbkdf2Iterations ++ "$" ++ bytesToHex salt ++ "$" ++
      bytesToHex derived)

end AuthService

namespace WebAuthnService

/-- What a registration begins with. -/
structure WebAuthnRegistrationChallenge where
  challenge : String
  rpId : String
  rpName : String
  timeoutMs : Nat := 60000

/-- What an authentication begins with. -/
structure WebAuthnAuthenticationChallenge where
  challenge : String
  rpId : String
  timeoutMs : Nat := 60000

/-- A challenge with the text that the session keeps. -/
structure IssuedSessionChallenge where
  challenge : String
  /-- The challenge and the second of its issue. -/
  sessionValue : String

variable (svc : WebAuthnService)

/-- Random bytes in base64url. -/
def drawChallenge (crypto : WebAuthnCrypto) : MintProg String := do
  let draw : Draw kChallengeBytes ← mint (.secureRandomBytes kChallengeBytes)
  return generateChallenge crypto draw

/-- `WebAuthnService::beginRegistration`. -/
def beginRegistration : MintProg (Option WebAuthnRegistrationChallenge) :=
  match svc.crypto with
  | none => return none
  | some crypto => do
    let challenge ← drawChallenge crypto
    return some { challenge := challenge, rpId := svc.rpId, rpName := svc.rpName }

/-- `WebAuthnService::beginAuthentication`. -/
def beginAuthentication : MintProg (Option WebAuthnAuthenticationChallenge) :=
  match svc.crypto with
  | none => return none
  | some crypto => do
    let challenge ← drawChallenge crypto
    return some { challenge := challenge, rpId := svc.rpId }

/-- `issueRegistrationChallenge` with its draw, its clock and its write as operations. -/
def issueRegistration (subject : String) : MintProg (Option String) :=
  match svc.crypto with
  | none => return none
  | some crypto =>
    if subject = "" then return none
    else do
      let challenge ← drawChallenge crypto
      let now : Int ← mint .nowSeconds
      let () ← mint (.keepChallenge ⟨subject, challenge, now⟩)
      return some challenge

/-- `WebAuthnService::issueAuthenticationChallenge`. -/
def issueAuthenticationChallenge : MintProg (Option IssuedSessionChallenge) :=
  match svc.crypto with
  | none => return none
  | some crypto => do
    let challenge ← drawChallenge crypto
    let now : Int ← mint .nowSeconds
    return some ⟨challenge, challenge ++ "|" ++ toString now⟩

/-- The operations over the map of challenges, with a source that has the given draws. -/
def execChallenges (draws : (n : Nat) → Draw n) (now : Int) : Handler MintSig Challenges
  | .secureRandomBytes n, challenges => (draws n, challenges)
  | .pbkdf2HmacSha256 _ _ _ _, challenges => ([], challenges)
  | .nowSeconds, challenges => (now, challenges)
  | .getMfaData _, challenges => (none, challenges)
  | .setSecret _ _, challenges => (false, challenges)
  | .enable _ _, challenges => (false, challenges)
  | .keepChallenge entry, challenges =>
    ((), (challenges.keep (svc.live entry.issuedAt)).assign entry)

/-- The program of a registration challenge does what the function does. -/
theorem issueRegistration_run (draws : (n : Nat) → Draw n) (now : Int) (subject : String)
    (challenges : Challenges) :
    (svc.issueRegistration subject).run (svc.execChallenges draws now) challenges =
      svc.issueRegistrationChallenge now (draws kChallengeBytes) subject challenges := by
  unfold issueRegistration issueRegistrationChallenge
  cases svc.crypto with
  | none => rfl
  | some crypto =>
      dsimp only
      split <;> rfl

end WebAuthnService

/-! ## One call -/

/-- The services and what the arrays on the stack hold before a draw. -/
structure MintSite where
  mfa : MfaService
  webauthn : WebAuthnService
  stack : List UInt8

/-- The calls that make a secret. -/
inductive MintCall where
  | setupSecret (userId : Int32) (accountLabel : String)
  | verifyAndEnable (userId : Int32) (code : String)
  | beginRegistration
  | beginAuthentication
  | issueRegistrationChallenge (subject : String)
  | issueAuthenticationChallenge
  | hashPassword (password : String)

inductive MintAnswer where
  | setup (result : Option MfaService.MfaSetupResult)
  | enabled (backupCodes : Option (List String))
  | registration (challenge : Option WebAuthnService.WebAuthnRegistrationChallenge)
  | authentication (challenge : Option WebAuthnService.WebAuthnAuthenticationChallenge)
  | challenge (challenge : Option String)
  | session (challenge : Option WebAuthnService.IssuedSessionChallenge)
  | password (hash : Except String String)

namespace MintAnswer

/-- An error, and no secret. -/
def Refused : MintAnswer → Prop
  | setup none => True
  | enabled none => True
  | registration none => True
  | authentication none => True
  | challenge none => True
  | session none => True
  | password (.error _) => True
  | _ => False

end MintAnswer

/-- Fewer random bytes than asked for. -/
def ShortDraw : (o : MintOp) → MintSig.Res o → Prop
  | .secureRandomBytes _, draw => ¬ draw.Complete
  | _, _ => False

/-- A secret is kept. -/
def KeepsSecret : MintOp → Prop
  | .setSecret _ _ => True
  | .enable _ _ => True
  | .keepChallenge _ => True
  | _ => False

namespace MintCall

/-- The program that a call runs. -/
def prog (site : MintSite) : MintCall → MintProg MintAnswer
  | setupSecret userId accountLabel =>
    .setup <$> site.mfa.setupSecret site.stack userId accountLabel
  | verifyAndEnable userId code => .enabled <$> site.mfa.verifyAndEnable site.stack userId code
  | beginRegistration => .registration <$> site.webauthn.beginRegistration
  | beginAuthentication => .authentication <$> site.webauthn.beginAuthentication
  | issueRegistrationChallenge subject => .challenge <$> site.webauthn.issueRegistration subject
  | issueAuthenticationChallenge => .session <$> site.webauthn.issueAuthenticationChallenge
  | hashPassword password => .password <$> AuthService.hashPassword site.stack password

/-- The verdict of the draw is looked at. -/
def Checked : MintCall → Prop
  | setupSecret _ _ => True
  | verifyAndEnable _ _ => True
  | _ => False

end MintCall

/-- The steps of a run with their answers. -/
abbrev MintSteps := List ((o : MintOp) × MintSig.Res o)

/-- No secret of too few random bytes is kept or returned, but an error. -/
abbrev MintClosed (steps : MintSteps) (a : MintAnswer) : Prop :=
  Prog.Closed (S := MintSig) ShortDraw KeepsSecret MintAnswer.Refused steps a

/-- Every draw of the run delivered what it was asked for. -/
def AllDrawn (steps : MintSteps) : Prop :=
  ∀ s ∈ steps, ¬ ShortDraw s.1 s.2

/-- The derivation of a key did not deliver its length. -/
def DerivationFailed (steps : MintSteps) : Prop :=
  ∃ password salt iterations keyLength, ∃ derived : List UInt8,
    (⟨.pbkdf2HmacSha256 password salt iterations keyLength, derived⟩ :
      (o : MintOp) × MintSig.Res o) ∈ steps ∧ derived.length ≠ keyLength

section Calls

variable {α : Type} {refused : α → Prop}

/-- A short draw is followed by no write, and the program answers with a refusal. -/
abbrev MintFailClosed (refused : α → Prop) (p : MintProg α) : Prop :=
  p.FailClosed ShortDraw KeepsSecret refused

theorem ok_eq_false {n : Nat} {draw : Draw n} (short : ¬ draw.Complete) : draw.ok = false := by
  cases ok : draw.ok with
  | false => rfl
  | true => exact absurd (draw.complete_of_ok ok) short

/-- A secret is drawn, and the rest refuses an empty one. -/
theorem generateSecret_failClosed {stack : List UInt8} {f : String → MintProg α}
    (empty : (f "").Refuses KeepsSecret refused) (rest : ∀ s, MintFailClosed refused (f s)) :
    MintFailClosed refused (totp.generateSecret stack >>= f) := by
  intro draw
  change (¬ Draw.Complete draw → Prog.Refuses KeepsSecret refused
      ((if Draw.ok draw = true then pure (totp.base32Encode (Draw.buffer draw stack))
        else pure "") >>= f)) ∧
    MintFailClosed refused
      ((if Draw.ok draw = true then pure (totp.base32Encode (Draw.buffer draw stack))
        else pure "") >>= f)
  constructor
  · intro short
    rw [ok_eq_false short]
    exact empty
  · cases Draw.ok draw with
    | false => exact rest ""
    | true => exact rest _

/-- Codes are drawn, and the rest refuses to have none. -/
theorem generateBackupCodes_failClosed {stack : List UInt8} {f : List String → MintProg α}
    (empty : (f []).Refuses KeepsSecret refused) (rest : ∀ codes, MintFailClosed refused (f codes))
    (count : Nat) (codes : List String) :
    MintFailClosed refused (totp.generateBackupCodes stack count codes >>= f) := by
  induction count generalizing codes with
  | zero => exact rest codes
  | succ count ih =>
      intro draw
      change (¬ Draw.Complete draw → Prog.Refuses KeepsSecret refused
          ((if Draw.ok draw = true then
            totp.generateBackupCodes stack count
              (codes ++ [totp.backupCode (Draw.buffer draw stack)])
          else pure []) >>= f)) ∧
        MintFailClosed refused
          ((if Draw.ok draw = true then
            totp.generateBackupCodes stack count
              (codes ++ [totp.backupCode (Draw.buffer draw stack)])
          else pure []) >>= f)
      constructor
      · intro short
        rw [ok_eq_false short]
        exact empty
      · cases Draw.ok draw with
        | false => exact rest []
        | true => exact ih _

/-- A secret is not kept when its bytes were not drawn. -/
theorem setupSecret_failClosed (mfa : MfaService) (stack : List UInt8) (userId : Int32)
    (accountLabel : String) :
    MintFailClosed (fun r => MintAnswer.Refused (.setup r))
      (mfa.setupSecret stack userId accountLabel) := by
  unfold MfaService.setupSecret
  split
  · trivial
  · refine generateSecret_failClosed (Prog.refuses_ret trivial) fun secret => ?_
    split
    · trivial
    · intro ok
      refine ⟨fun failed => failed.elim, ?_⟩
      cases ok <;> trivial

/-- Nor are backup codes. -/
theorem verifyAndEnable_failClosed (mfa : MfaService) (stack : List UInt8) (userId : Int32)
    (code : String) :
    MintFailClosed (fun r => MintAnswer.Refused (.enabled r))
      (mfa.verifyAndEnable stack userId code) := by
  unfold MfaService.verifyAndEnable
  split
  · intro data
    refine ⟨fun failed => failed.elim, ?_⟩
    cases data with
    | none => trivial
    | some data =>
        change MintFailClosed _ (if data.secret = "" then _ else _)
        split
        · trivial
        · intro now
          refine ⟨fun failed => failed.elim, ?_⟩
          change MintFailClosed _ (if mfa.verifyCode data.secret code now = false then _ else _)
          split
          · trivial
          · refine generateBackupCodes_failClosed ?_ (fun codes => ?_) 10 []
            · exact Prog.refuses_ret trivial
            split
            · trivial
            · intro ok
              refine ⟨fun failed => failed.elim, ?_⟩
              cases ok <;> trivial
  · trivial

/-! ### Calls that do not look at the verdict -/

variable {steps : MintSteps} {a : MintAnswer}

/-- A run is closed when its draws deliver, unless the answer is a refusal without that. -/
theorem closed_iff_drawn
    (refusal : a.Refused → AllDrawn steps ∨ DerivationFailed steps)
    (derivation : DerivationFailed steps → MintClosed steps a) :
    MintClosed steps a ↔
      AllDrawn steps ∨ DerivationFailed steps := by
  constructor
  · intro closed
    by_cases drawn : AllDrawn steps
    · exact .inl drawn
    · unfold AllDrawn at drawn
      push Not at drawn
      obtain ⟨s, mem, short⟩ := drawn
      obtain ⟨before, after, eq⟩ := List.append_of_mem mem
      exact refusal (closed before s after eq short).2
  · intro sound
    rcases sound with drawn | failed
    · exact Prog.closed_of_none drawn
    · exact derivation failed

/-- The steps of a challenge derive no key. -/
def Underived : MintOp → Prop
  | .pbkdf2HmacSha256 _ _ _ _ => False
  | _ => True

/-- Without a derivation none has failed. -/
theorem not_derivationFailed {p : MintProg MintAnswer} (only : p.Only Underived)
    (runs : p.Runs steps a) : ¬ DerivationFailed steps := by
  intro failed
  obtain ⟨_, _, _, _, _, mem, _⟩ := failed
  exact only.of_runs runs _ mem

/-- A call that does nothing without a provider, and always answers with a secret otherwise. -/
theorem closed_iff_of_unchecked {p : MintProg MintAnswer} (only : p.Only Underived)
    (either : p.Only (fun _ => False) ∨ p.Yields (fun _ _ => True) fun a => ¬ a.Refused)
    (runs : p.Runs steps a) :
    MintClosed steps a ↔
      AllDrawn steps ∨ DerivationFailed steps := by
  refine closed_iff_drawn (fun refused => .inl ?_) fun failed =>
    absurd failed (not_derivationFailed only runs)
  rcases either with nothing | secret
  · intro s mem
    exact (nothing.of_runs runs s mem).elim
  · exact absurd refused (secret.of_runs runs)

/-- The two steps of `hashPassword`, and what is made of the second answer. -/
theorem hashPassword_cases {stack : List UInt8} {password : String}
    (runs : (MintAnswer.password <$> AuthService.hashPassword stack password).Runs steps a) :
    ∃ (draw : Draw AuthService.kPbkdf2SaltLength) (derived : List UInt8),
      steps = [⟨.secureRandomBytes AuthService.kPbkdf2SaltLength, draw⟩,
        ⟨.pbkdf2HmacSha256 password (draw.buffer stack) AuthService.kPbkdf2Iterations
          AuthService.kPbkdf2KeyLength, derived⟩] ∧
      (derived.length ≠ AuthService.kPbkdf2KeyLength ↔ a.Refused) := by
  obtain ⟨draw, later, drawn, derives⟩ := Prog.Runs.first runs
  obtain ⟨derived, last, derivation, answers⟩ := Prog.Runs.first derives
  rw [drawn, derivation]
  refine ⟨draw, derived, ?_⟩
  change Prog.Runs (MintAnswer.password <$> if List.length derived ≠ _ then _ else _) last a
    at answers
  split at answers
  · rename_i failed
    cases answers
    exact ⟨rfl, fun _ => trivial, fun _ => failed⟩
  · rename_i delivered
    cases answers
    exact ⟨rfl, fun failed => absurd failed delivered, fun refused => refused.elim⟩

/-- `hashPassword` looks at the derivation and not at the draw of the salt. -/
theorem hashPassword_closed_iff {stack : List UInt8} {password : String}
    (runs : (MintAnswer.password <$> AuthService.hashPassword stack password).Runs steps a) :
    MintClosed steps a ↔
      AllDrawn steps ∨ DerivationFailed steps := by
  obtain ⟨draw, derived, eq, failed⟩ := hashPassword_cases runs
  refine closed_iff_drawn (fun refused => .inr ?_) fun derivation => ?_
  · rw [eq]
    exact ⟨_, _, _, _, derived, List.mem_cons_of_mem _ List.mem_cons_self, failed.mpr refused⟩
  · obtain ⟨password', salt, iterations, keyLength, derived', mem, length⟩ := derivation
    rw [eq] at mem
    have refused : a.Refused := by
      rcases List.mem_cons.mp mem with first | later
      · cases first
      · cases List.mem_singleton.mp later
        exact failed.mp length
    intro before s after split short
    refine ⟨fun s' later stored => ?_, refused⟩
    have stepMem : s' ∈ steps := split ▸ List.mem_append_right _ (List.mem_cons_of_mem _ later)
    rw [eq] at stepMem
    rcases List.mem_cons.mp stepMem with rfl | second
    · exact stored
    · cases List.mem_singleton.mp second
      exact stored

theorem drawChallenge_underived (crypto : WebAuthnCrypto) :
    (WebAuthnService.drawChallenge crypto).Only Underived :=
  ⟨trivial, fun _ => trivial⟩

/-- What each call without a check does: nothing without a provider, else a secret. -/
theorem unchecked_cases (site : MintSite) {call : MintCall} (unchecked : ¬ call.Checked)
    (challenge : ∀ password, call ≠ .hashPassword password) :
    (call.prog site).Only Underived ∧
      ((call.prog site).Only (fun _ => False) ∨
        (call.prog site).Yields (fun _ _ => True) fun a => ¬ a.Refused) := by
  cases call with
  | setupSecret => exact absurd trivial unchecked
  | verifyAndEnable => exact absurd trivial unchecked
  | hashPassword password => exact absurd rfl (challenge password)
  | beginRegistration =>
      dsimp only [MintCall.prog, WebAuthnService.beginRegistration]
      cases site.webauthn.crypto with
      | none => exact ⟨trivial, .inl trivial⟩
      | some crypto =>
          refine ⟨Prog.Only.map ((drawChallenge_underived crypto).bind fun _ => ?_),
            .inr fun _ _ refused => refused⟩
          trivial
  | beginAuthentication =>
      dsimp only [MintCall.prog, WebAuthnService.beginAuthentication]
      cases site.webauthn.crypto with
      | none => exact ⟨trivial, .inl trivial⟩
      | some crypto =>
          refine ⟨Prog.Only.map ((drawChallenge_underived crypto).bind fun _ => ?_),
            .inr fun _ _ refused => refused⟩
          trivial
  | issueRegistrationChallenge subject =>
      dsimp only [MintCall.prog, WebAuthnService.issueRegistration]
      cases site.webauthn.crypto with
      | none => exact ⟨trivial, .inl trivial⟩
      | some crypto =>
          dsimp only
          split
          · exact ⟨trivial, .inl trivial⟩
          · refine ⟨Prog.Only.map ((drawChallenge_underived crypto).bind fun _ => ?_),
              .inr fun _ _ _ _ _ _ refused => refused⟩
            exact ⟨trivial, fun _ => ⟨trivial, fun _ => trivial⟩⟩
  | issueAuthenticationChallenge =>
      dsimp only [MintCall.prog, WebAuthnService.issueAuthenticationChallenge]
      cases site.webauthn.crypto with
      | none => exact ⟨trivial, .inl trivial⟩
      | some crypto =>
          refine ⟨Prog.Only.map ((drawChallenge_underived crypto).bind fun _ => ?_),
            .inr fun _ _ _ _ refused => refused⟩
          exact ⟨trivial, fun _ => trivial⟩

/-- **The calls that look at their draws fail closed**. -/
theorem checked_closed (site : MintSite) {call : MintCall} (checked : call.Checked)
    (runs : (call.prog site).Runs steps a) : MintClosed steps a := by
  cases call with
  | setupSecret userId accountLabel =>
      exact (setupSecret_failClosed site.mfa site.stack userId accountLabel).map.closed runs
  | verifyAndEnable userId code =>
      exact (verifyAndEnable_failClosed site.mfa site.stack userId code).map.closed runs
  | _ => exact checked.elim

/-- **Which runs are closed**, for every call. -/
theorem mintClosed_iff (site : MintSite) {call : MintCall} (runs : (call.prog site).Runs steps a) :
    MintClosed steps a ↔ call.Checked ∨ AllDrawn steps ∨ DerivationFailed steps := by
  by_cases checked : call.Checked
  · exact ⟨fun _ => .inl checked, fun _ => checked_closed site checked runs⟩
  · rw [or_iff_right checked]
    by_cases salted : ∃ password, call = .hashPassword password
    · obtain ⟨password, rfl⟩ := salted
      exact hashPassword_closed_iff runs
    · obtain ⟨only, either⟩ := unchecked_cases site checked fun password eq => salted ⟨password, eq⟩
      exact closed_iff_of_unchecked only either runs

end Calls

/-- The operations of the token service stop at a failed draw, and so do the TOTP secret and the
backup codes; a challenge or a hashed password is sound only if its draw delivered, or if the
key derivation failed as well. -/
theorem random_failure_closed_iff (svc : TokenService) (grants : GrantBackend)
    (tokens : TokenBackend) (crypto : CryptoProvider) (site : MintSite) :
    (∀ call : Call, call.Mints →
      ∀ steps a, (call.prog (svc.over grants tokens crypto)).Runs steps a →
        Prog.Closed TokenDrawFails Writes Answer.Refused steps a) ∧
    ∀ (call : MintCall) steps a, (call.prog site).Runs steps a →
      (MintClosed steps a ↔ call.Checked ∨ AllDrawn steps ∨ DerivationFailed steps) :=
  ⟨fun _ mints _ _ runs => (mints_failClosed svc grants tokens crypto mints).closed runs,
    fun _ _ _ runs => mintClosed_iff site runs⟩

/-! ## A source that fails -/

/-- The encoder gives what base64url does on zeros. -/
def zerosCrypto : WebAuthnCrypto where
  sha256 := fun _ => []
  base64UrlEncode := fun bytes => String.ofList (List.replicate ((bytes.length * 4 + 2) / 3) 'A')
  base64UrlDecode := fun _ => none
  readJson := fun _ => .error ""
  parseAttestationObject := fun _ => none
  parseCoseKeyEs256 := fun _ => none
  verifyEs256Signature := fun _ _ _ _ => false

/-- A site with every service wired in. -/
def mintSite : MintSite where
  mfa := { sha256Hex := some id, issuerName := "Fulla", verifyCode := fun _ _ _ => true }
  webauthn := { crypto := some zerosCrypto }
  stack := List.replicate 32 0

/-- A challenge of 43 letters A, from no random byte at all, is kept and returned. -/
theorem zero_challenge_kept :
    let zeros := String.ofList (List.replicate 43 'A')
    let steps : MintSteps := [⟨.secureRandomBytes 32, Draw.failed 32⟩, ⟨.nowSeconds, (1000 : Int)⟩,
      ⟨.keepChallenge ⟨"alice", zeros, 1000⟩, ()⟩]
    ((MintCall.issueRegistrationChallenge "alice").prog mintSite).Runs steps
        (.challenge (some zeros)) ∧
      ¬ MintClosed steps (.challenge (some zeros)) := by
  intro zeros steps
  refine ⟨.op (.op (.op (.ret _))), fun closed => ?_⟩
  have short : ¬ (Draw.failed 32).Complete := by decide
  exact (closed [] _ _ rfl short).2

/-- A code is not minted, and a TOTP secret neither, when the source fails. -/
theorem random_failure_closed_alice :
    Prog.Closed (S := StoreSig) TokenDrawFails Writes Answer.Refused
        [⟨.env (.secureRandomBytes 32), none⟩] (.code (.error "CSPRNG failure")) ∧
      MintClosed [⟨.secureRandomBytes 20, Draw.failed 20⟩] (.setup none) := by
  have said := random_failure_closed_iff Sample.service .postgres .postgres Sample.crypto mintSite
  refine ⟨said.1 (.generateAuthorizationCode "app" "alice" "openid" "https://rp/cb" "" "" "" 0 ""
    none) trivial _ _ (.op (.ret _)), ?_⟩
  have runs : ((MintCall.setupSecret 1 "alice").prog mintSite).Runs
      [⟨.secureRandomBytes 20, Draw.failed 20⟩] (.setup none) := .op (.ret _)
  exact (said.2 _ _ _ runs).mpr (.inl trivial)

end Fulla
