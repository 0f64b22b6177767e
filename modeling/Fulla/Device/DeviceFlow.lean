import Fulla.Web.TokenEndpoint

/-!
# The device flow

Device codes are created pending, approved by `approveDevice` and redeemed by
polls of the token endpoint.  Approval is a look-up that finds the code pending,
a second look-up, and an `UPDATE` by primary key that no longer asks for the
status; redemption is a look-up, a conditional `UPDATE` and the mint.

What a run does to a code is read off its log: the approvers it records, the pairs
it mints, and whether an approving `UPDATE` found the code still pending.
-/

namespace Fulla

open Conc

namespace DeviceCodeService

/-- A pending device code is inserted. -/
def createDeviceCode (deviceCodeHash userCode clientId scope : String)
    (expiresAt intervalSeconds : Int) : TokenProg Bool :=
  endpoint (.device (.insert
    { deviceCodeHash := deviceCodeHash, userCode := userCode, clientId := clientId, scope := scope
      expiresAt := expiresAt, intervalSeconds := intervalSeconds }))

/-- Whether the database answered, and whether the row was there.  The `UPDATE` is
by primary key alone. -/
def markApproved (deviceCodeHash userId : String) : TokenProg (Bool × Bool) := do
  let row : Option (Option DeviceCode) ← endpoint (.device (.selectByHash deviceCodeHash))
  match row with
  | none => return (false, false)
  | some none => return (true, false)
  | some (some _) =>
    let updated : Bool ← endpoint (.device (.approve deviceCodeHash userId))
    return (updated, true)

end DeviceCodeService

/-- What the page of the user answers. -/
inductive ApproveReply where
  | error (code message : String)
  | approved (userCode : String)
deriving DecidableEq, Repr

namespace TokenEndpoint

variable (ep : TokenEndpoint)

/-- The user enters the code and approves. -/
def approveDevice (userCode userId : String) : TokenProg ApproveReply :=
  if userCode = "" then
    return .error "VALIDATION_MISSING_REQUIRED_FIELD" "approveDevice: user_code is required"
  else if userId = "" then
    return .error "VALIDATION_MISSING_REQUIRED_FIELD" "approveDevice: user_id is required"
  else if ep.dbAvailable = false then
    return .error "DB_CONNECTION_ERROR" "approveDevice: database not available"
  else do
    let code : Option (Option DeviceCode) ← endpoint (.device (.selectByUserCode userCode))
    match code with
    | none => return .error "DB_CONNECTION_ERROR" "approveDevice: device code lookup failed"
    | some none => return .error "VALIDATION_DEVICE_CODE_INVALID" "approveDevice: invalid user_code"
    | some (some code) =>
      if code.status.open_ = false then
        return .error "VALIDATION_DEVICE_CODE_INVALID" "approveDevice: user_code already processed"
      else
        let now ← store nowSeconds
        if now ≥ code.expiresAt then
          return .error "VALIDATION_DEVICE_CODE_INVALID" "approveDevice: user_code expired"
        else
          let (dbOk, found) ← DeviceCodeService.markApproved code.deviceCodeHash userId
          if dbOk = false then
            return .error "DB_CONNECTION_ERROR" "approveDevice: failed to approve device code"
          else if found = false then
            return .error "VALIDATION_DEVICE_CODE_INVALID"
              "approveDevice: user_code no longer pending"
          else return .approved userCode

/-- The endpoint with its token service wired to the given backends. -/
def onStores (grants : GrantBackend) (tokens : TokenBackend) : TokenEndpoint :=
  { ep with
    site := { ep.site with tokenService := ep.site.tokenService.over grants tokens ep.crypto } }

end TokenEndpoint

namespace DeviceFlow

/-! ## Calls -/

/-- The calls of a device flow. -/
inductive DeviceCall where
  | createDeviceCode (deviceCodeHash userCode clientId scope : String)
      (expiresAt intervalSeconds : Int)
  | approveDevice (userCode userId : String)
  /-- Any token request; a poll is one with the device grant. -/
  | token (req : TokenRequest)

inductive DeviceAnswer where
  | created (ok : Bool)
  | approval (reply : ApproveReply)
  | token (reply : TokenReply)

/-- The program that a call runs. -/
def DeviceCall.prog (ep : TokenEndpoint) : DeviceCall → TokenProg DeviceAnswer
  | createDeviceCode deviceCodeHash userCode clientId scope expiresAt intervalSeconds =>
    DeviceAnswer.created <$> DeviceCodeService.createDeviceCode deviceCodeHash userCode clientId
      scope expiresAt intervalSeconds
  | approveDevice userCode userId => DeviceAnswer.approval <$> ep.approveDevice userCode userId
  | token req => DeviceAnswer.token <$> ep.token req

abbrev DeviceEvent (ι : Type) := Event TokenSig ι TokenDb

abbrev DeviceWorld (ι : Type) := World TokenSig ι TokenDb

/-- Run a schedule of calls from any state. -/
def runDevice {ι : Type} [DecidableEq ι] (env : Nat → TokenMoment) (clients : ClientRepository)
    (tokens : TokenBackend) (ep : TokenEndpoint) (calls : ι → DeviceCall) (s : TokenDb)
    (sched : List ι) : Pool TokenSig ι DeviceAnswer (DeviceWorld ι) :=
  Pool.run (World.handler fun n => execToken clients tokens (env n))
    { store := World.start s, prog := fun i => (calls i).prog ep } sched

/-! ## What happened to a code -/

section Log

variable {ι : Type}

/-- The user an event has recorded as the approver of code `h`. -/
def approvalOf (h : String) : DeviceEvent ι → Option String
  | ⟨_, _, .inr (.device (.approve h' userId)), ok, pre⟩ =>
    if (ok : Bool) = true ∧ h' = h ∧ (pre.devices.find? h).isSome then some userId else none
  | _ => none

/-- The event has consumed code `h`. -/
def consumes (h : String) : DeviceEvent ι → Bool
  | ⟨_, _, .inr (.device (.consume h')), r, _⟩ => decide (r = some true) && decide (h' = h)
  | _ => false

/-- The pair an event has saved. -/
def pairOf : DeviceEvent ι → Option (OAuth2AccessToken × OAuth2RefreshToken)
  | ⟨_, _, .inl (.mem (.saveTokenPair a r)), ok, _⟩ => if (ok : Bool) then some (a, r) else none
  | ⟨_, _, .inl (.sql (.insertTokenPair a r)), ok, _⟩ => if (ok : Bool) then some (a, r) else none
  | _ => none

/-- The call polls for code `h`. -/
def redeems (ep : TokenEndpoint) (h : String) : DeviceCall → Bool
  | .token req =>
    decide (req.param "grant_type" = "urn:ietf:params:oauth:grant-type:device_code") &&
      decide (hashToken ep.crypto (req.param "device_code") = h)
  | _ => false

/-- The user of the pair that a poll for code `h` has saved. -/
def mintOf (ep : TokenEndpoint) (calls : ι → DeviceCall) (h : String) (e : DeviceEvent ι) :
    Option String :=
  if redeems ep h (calls e.thread) then (pairOf e).map fun pair => pair.1.userId else none

/-- The approvers of `h` recorded so far, newest first; one that the run started with
comes last. -/
def recorded (s : TokenDb) (h : String) (log : List (DeviceEvent ι)) : List String :=
  log.filterMap (approvalOf h) ++
    match s.devices.find? h with
    | some c => if c.status.open_ then [] else [c.userId]
    | none => []

/-- The code was settled otherwise than by approval, or has been consumed since. -/
def closed (s : TokenDb) (h : String) (log : List (DeviceEvent ι)) : Bool :=
  log.any (consumes h) ||
    (s.devices.find? h).any fun c => !c.status.open_ && decide (c.status ≠ .approved)

/-- The users of the pairs minted for `h`, newest first. -/
def mints (ep : TokenEndpoint) (calls : ι → DeviceCall) (h : String)
    (log : List (DeviceEvent ι)) : List String :=
  log.filterMap (mintOf ep calls h)

/-- An approving `UPDATE` finds its code still pending. -/
def approvesPending : DeviceEvent ι → Bool
  | ⟨_, _, .inr (.device (.approve h _)), ok, pre⟩ =>
    !(ok : Bool) || (pre.devices.find? h).all fun c => c.status.open_
  | _ => true

end Log

end DeviceFlow

end Fulla
