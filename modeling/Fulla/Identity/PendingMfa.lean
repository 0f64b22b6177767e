import Fulla.Identity.BackupCodes
import Fulla.Identity.FailedLogins
import Fulla.Web.Rules

/-!
# The pending binding of a second factor

A login that needs a second factor writes its `client_id` and `redirect_uri` into
the row of the user; `verifyLogin` compares them with its own, issues a code,
exchanges it and clears them.  Here both are programs whose steps interleave, over
the user table and the store of the token service.

The session of a request is not part of the state: what a step reads from it is
whatever it may hold at that moment.
-/

namespace Fulla

open Conc

/-- What the two handlers ask besides their tables. -/
inductive MfaOp where
  /-- `must_change_password` of the session. -/
  | mustChangePassword
  /-- The challenge that the session keeps, and its method. -/
  | codeChallenge
  | checkCodeIssuanceGuards (clientId redirectUri scope : String)
  /-- The checks of a login that needs no second factor. -/
  | loginGrant (req : LoginRequest) (user : UserRow)

/-- What the operations of the MFA controller answer. -/
abbrev MfaOpSig : Sig where
  Op := MfaOp
  Res
    | .mustChangePassword => Bool
    | .codeChallenge => String × String
    | .checkCodeIssuanceGuards _ _ _ => Except GuardFailure Unit
    | .loginGrant _ _ => Except Response CodeRequest

/-- The store, the users and the surroundings of the two controllers. -/
abbrev MfaSig := StoreSig.sum (UserSig.sum MfaOpSig)

/-- A request of a login with a second factor. -/
abbrev MfaProg := Prog MfaSig

namespace MfaProg

variable {α : Type}

/-- A program of the token service. -/
def store (p : StoreProg α) : MfaProg α :=
  p.inl

/-- A program over the user table. -/
def users (p : UserProg α) : MfaProg α :=
  p.inl.inr

/-- Ask the surroundings. -/
def ask (o : MfaOp) : MfaProg (MfaOpSig.Res o) :=
  Prog.call (S := MfaSig) (.inr (.inr o))

end MfaProg

/-- The store and the users. -/
structure MfaDb where
  db : Db := {}
  users : UserRows := .empty

/-- What one step finds around it. -/
structure MfaMoment where
  store : Moment
  users : UserMoment
  around : Around
  mustChangePassword : Bool := false
  codeChallenge : String × String := ("", "")
  loginGrant : LoginRequest → UserRow → Except Response CodeRequest

/-- What an operation does and answers. -/
def execMfa (m : MfaMoment) : Handler MfaSig MfaDb
  | .inl o, s => ((execOp m.store o s.db).1, { s with db := (execOp m.store o s.db).2 })
  | .inr (.inl o), s =>
    ((execUser m.users o s.users).1, { s with users := (execUser m.users o s.users).2 })
  | .inr (.inr .mustChangePassword), s => (m.mustChangePassword, s)
  | .inr (.inr .codeChallenge), s => (m.codeChallenge, s)
  | .inr (.inr (.checkCodeIssuanceGuards clientId redirectUri scope)), s =>
    (checkCodeIssuanceGuards m.around clientId redirectUri scope, s)
  | .inr (.inr (.loginGrant req user)), s => (m.loginGrant req user, s)

/-- The configuration of both handlers. -/
structure MfaSite where
  site : Site
  login : LoginSite
  backup : BackupSite

/-! ## Login -/

namespace SessionController

variable (cfg : MfaSite)

/-- Read the row, then write the binding. -/
def pauseLogin (req : LoginRequest) (user : UserRow) : MfaProg Response := do
  let found : Option (Option UserRow) ← MfaProg.users (statement (.selectById user.id))
  match found with
  | some (some row) =>
    let updated : Bool ← MfaProg.users (statement
      (.update row.id (.pendingBinding (some req.clientId) (some req.redirectUri))))
    if updated then return .mfaRequired user.publicSub
    else return .error "DB_QUERY_ERROR" "login: failed to persist MFA pending binding: "
  | _ => return .error "DB_QUERY_ERROR" "login: failed to persist MFA pending binding: "

/-- A login that needs no second factor: its checks, then a code. -/
def issueAtLogin (req : LoginRequest) (user : UserRow) : MfaProg Response := do
  let grant : Except Response CodeRequest ← MfaProg.ask (.loginGrant req user)
  match grant with
  | .error answer => return answer
  | .ok g =>
    let code ← MfaProg.store (cfg.site.tokenService.generateAuthorizationCode g.clientId g.subject
      g.scope g.redirectUri g.codeChallenge g.codeChallengeMethod g.nonce g.authTime g.amr g.orgId)
    match code with
    | .error reason =>
      return .error "INTERNAL_ERROR" ("login: failed to generate authorization code: " ++ reason)
    | .ok code => return .code req.redirectUri code req.state req.json

/-- The policy of `evaluateLoginPolicy`: e-mail verification comes before MFA. -/
def onValidated (req : LoginRequest) (user : UserRow) : MfaProg Response :=
  if user.mustChangePassword then
    return if req.json then .passwordChangeRequired else .changePasswordScreen req.clientId
  else if cfg.site.requireEmailVerification && !user.emailVerified then
    return .error "AUTHZ_ACCESS_DENIED" "login: email not verified"
  else if user.mfaEnabled then pauseLogin req user
  else issueAtLogin cfg req user

/-- `SessionController::login`. -/
def login (req : LoginRequest) : MfaProg Response :=
  let errors := RuleSet.login cfg.site req.username req.password
  if errors ≠ [] then return .validation errors
  else do
    let result ← MfaProg.users (AuthService.validateUser cfg.login req.username req.password)
    match result with
    | .matched user => onValidated cfg req user
    | _ => return .error "AUTH_INVALID_CREDENTIALS" "login: invalid credentials"

end SessionController

/-! ## The second factor -/

namespace MfaService

/-- `PostgresMfaRepository::getMfaData`: a row, or nothing. -/
def getMfaData (userId : Int) : UserProg (Option UserRow) := do
  let found : Option (Option UserRow) ← statement (.selectById userId)
  return found.join

/-- `MfaService::verifyLoginCode`. -/
def verifyLoginCode (site : Site) (userId : Int) (code : String) : UserProg Bool := do
  let data ← getMfaData userId
  match data with
  | none => return false
  | some data =>
    if data.mfaEnabled = false ∨ data.mfaSecret = "" then return false
    else
      let now : Int ← statement .now
      return site.verifyTotp data.mfaSecret code now

/-- The pending client and its redirect URI. -/
def getPendingBinding (userId : Int) : UserProg (Option (String × String)) := do
  let data ← getMfaData userId
  return data.map fun d => (d.mfaPendingClientId.getD "", d.mfaPendingRedirectUri.getD "")

/-- Clear the binding of a row that was found. -/
def clearRow : Option (Option UserRow) → UserProg Bool
  | some (some row) => statement (.update row.id (.pendingBinding none none))
  | _ => return false

/-- The row is read and then updated. -/
def clearPendingBinding (userId : Int) : UserProg Bool := do
  let found : Option (Option UserRow) ← statement (.selectById userId)
  clearRow found

/-- The path without the service finds the row by its public subject. -/
def clearPendingBySub (publicSub : String) : UserProg Bool := do
  let found : Option (Option UserRow) ← statement (.selectByPublicSub publicSub)
  clearRow found

end MfaService

namespace MfaController

variable (cfg : MfaSite)

/-- The binding is cleared last; a failure to do so is not reported. -/
def exchangeAndClear (req : VerifyLoginRequest) (userId : Int) (authCode : String)
    (remaining : Option Nat) : MfaProg Response := do
  let wired := cfg.site.mfaServiceWired
  let result ← MfaProg.store (cfg.site.tokenService.exchangeCodeForToken authCode req.clientId ""
    req.redirectUri (if wired then req.codeVerifier else ""))
  match result with
  | .error error description =>
    return .error "INTERNAL_ERROR" ("verifyLogin: failed to exchange authorization code: " ++
      if description = "" then error else description)
  | .thrown what => return .page 500 what
  | .tokens json =>
    let _ ← MfaProg.users
      (if wired then MfaService.clearPendingBinding userId
      else MfaService.clearPendingBySub req.mfaToken)
    return .tokens json (if wired then remaining else none)

/-- The challenge of the first factor, as the session holds it by now; the path without
the service passes none. -/
def sessionChallenge : MfaProg (String × String) :=
  if cfg.site.mfaServiceWired then MfaProg.ask .codeChallenge else return ("", "")

/-- `onTotpVerified`: the guard, the comparison with the binding that was read, the code. -/
def onTotpVerified (req : VerifyLoginRequest) (user : UserRow) (pending : String × String)
    (mfaAuthTime : Int) (remaining : Option Nat) : MfaProg Response := do
  let scope := if req.scope = "" then "openid profile email" else req.scope
  let guard : Except GuardFailure Unit ←
    MfaProg.ask (.checkCodeIssuanceGuards req.clientId req.redirectUri scope)
  match guard with
  | .error guard =>
    return .error "AUTH_INVALID_CREDENTIALS"
      ("verifyLogin: code issuance guard rejected the request: " ++ guard.detail)
  | .ok () =>
    if req.clientId ≠ pending.1 ∨ req.redirectUri ≠ pending.2 then
      return .error "AUTH_INVALID_CREDENTIALS"
        "verifyLogin: client/redirect_uri does not match login session"
    else
      let challenge ← sessionChallenge cfg
      let code ← MfaProg.store (cfg.site.tokenService.generateAuthorizationCode req.clientId
        user.publicSub scope req.redirectUri challenge.1 challenge.2 req.nonce mfaAuthTime "pwd mfa"
        none)
      match code with
      | .error reason =>
        return .error "INTERNAL_ERROR"
          ("verifyLogin: failed to generate authorization code: " ++ reason)
      | .ok authCode => exchangeAndClear cfg req user.id authCode remaining

/-- TOTP, or else a backup code: whether it verified, and the codes left in the second case. -/
def secondFactor (userId : Int) (code : String) (totpOk : Bool) :
    UserProg (Option (Option Nat)) :=
  if totpOk then return some none
  else do
    let (ok, remaining) ← attemptBackupCode cfg.backup userId code
    return if ok then some (some remaining.toNat) else none

/-- With the injected service: the binding is read once the factor has verified. -/
def verifyWired (req : VerifyLoginRequest) (mfaAuthTime : Int) : MfaProg Response := do
  let found : Option UserRow ← MfaProg.users (statement (.findByPublicSub req.mfaToken))
  match found with
  | none => return .error "AUTH_INVALID_CREDENTIALS" "verifyLogin: invalid MFA session"
  | some user =>
    let nowSecs : Int ← MfaProg.users (statement .now)
    if user.lockedUntil > nowSecs then
      return .error "AUTH_INVALID_CREDENTIALS" "verifyLogin: account is locked"
    else
      let codeValid ← MfaProg.users (MfaService.verifyLoginCode cfg.site user.id req.code)
      let factor ← MfaProg.users (secondFactor cfg user.id req.code codeValid)
      match factor with
      | none =>
        return .error "AUTH_INVALID_CREDENTIALS" "verifyLogin: TOTP or backup code is incorrect"
      | some remaining =>
        let pending ← MfaProg.users (MfaService.getPendingBinding user.id)
        onTotpVerified cfg req user (pending.getD ("", "")) mfaAuthTime remaining

/-- Without it: the binding is read with the user. -/
def verifyLegacy (req : VerifyLoginRequest) (mfaAuthTime : Int) : MfaProg Response := do
  let found : Option (Option UserRow) ←
    MfaProg.users (statement (.selectLiveByPublicSub req.mfaToken))
  match found with
  | none => return .error "DB_QUERY_ERROR" "MFA login verify failed: "
  | some none => return .error "AUTH_INVALID_CREDENTIALS" "verifyLogin: invalid MFA session"
  | some (some user) =>
    let nowSecs : Int ← MfaProg.users (statement .now)
    if user.lockedUntil > nowSecs then
      return .error "AUTH_INVALID_CREDENTIALS" "verifyLogin: account is locked"
    else
      let totpTime : Int ← MfaProg.users (statement .now)
      let factor ← MfaProg.users
        (secondFactor cfg user.id req.code (cfg.site.verifyTotp user.mfaSecret req.code totpTime))
      match factor with
      | none =>
        return .error "AUTH_INVALID_CREDENTIALS" "verifyLogin: TOTP or backup code is incorrect"
      | some remaining =>
        onTotpVerified cfg req user
          (user.mfaPendingClientId.getD "", user.mfaPendingRedirectUri.getD "")
            mfaAuthTime remaining

/-- `MfaController::verifyLogin`. -/
def verifyLogin (req : VerifyLoginRequest) : MfaProg Response :=
  if req.mfaToken = "" ∨ req.code = "" then
    return .error "VALIDATION_MISSING_REQUIRED_FIELD" "verifyLogin: mfa_token and code are required"
  else if req.clientId = "" ∨ req.redirectUri = "" then
    return .error "VALIDATION_MISSING_REQUIRED_FIELD"
      "verifyLogin: client_id and redirect_uri are required to issue tokens after MFA"
  else do
    let mustChange : Bool ← MfaProg.ask .mustChangePassword
    if mustChange then
      return .error "AUTH_PASSWORD_CHANGE_REQUIRED"
        "verifyLogin: change the account password before tokens are issued"
    else
      let mfaAuthTime : Int ← MfaProg.users (statement .now)
      if cfg.site.mfaServiceWired then verifyWired cfg req mfaAuthTime
      else verifyLegacy cfg req mfaAuthTime

end MfaController

end Fulla
