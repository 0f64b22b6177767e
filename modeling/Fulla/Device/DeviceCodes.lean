import Fulla.Storage.Postgres

/-!
# Device codes

The table `oauth2_device_codes` and the statements `DeviceCodeService.cc`,
`DeviceAuthController.cc` and the token endpoint send to it, each atomic.  A
statement answers `none` or `false` where the source's exception callback runs.
-/

namespace Fulla

open Conc

/-- The `status` column; `unset` is `NULL` or the empty text. -/
inductive DeviceStatus where
  | unset
  | pending
  | approved
  | denied
  | consumed
  | other (text : String)
deriving DecidableEq, Repr

/-- What `approveDevice` takes for still pending. -/
def DeviceStatus.open_ : DeviceStatus → Bool
  | unset => true
  | pending => true
  | _ => false

/-- The row of a device code. -/
structure DeviceCode where
  deviceCodeHash : String
  userCode : String
  clientId : String
  scope : String
  status : DeviceStatus := .pending
  /-- Empty until a user is recorded. -/
  userId : String := ""
  expiresAt : Int
  intervalSeconds : Int := 5
  /-- Seconds since the epoch of the last poll. -/
  lastPolledAt : Int := 0
deriving DecidableEq, Repr

/-- The table of device codes. -/
abbrev DeviceCodes := Table DeviceCode.deviceCodeHash

namespace DeviceCodes

/-- Rewrite the row of a primary key. -/
def update (codes : DeviceCodes) (deviceCodeHash : String) (f : DeviceCode → DeviceCode)
    (same : ∀ c, (f c).deviceCodeHash = c.deviceCodeHash) : DeviceCodes :=
  codes.updateWhere (fun c => c.deviceCodeHash = deviceCodeHash) f same

/-- `findOne` on the `user_code` column, which is unique. -/
def findByUserCode (codes : DeviceCodes) (userCode : String) : Option DeviceCode :=
  match codes.rows.filter fun c => c.userCode = userCode with
  | [c] => some c
  | _ => none

end DeviceCodes

/-- The statements on the table. -/
inductive DeviceOp where
  /-- `createDeviceCode`. -/
  | insert (code : DeviceCode)
  /-- `findByUserCode`; the inner `none` is a miss. -/
  | selectByUserCode (userCode : String)
  /-- The look-ups by primary key of `markApproved` and of the poll. -/
  | selectByHash (deviceCodeHash : String)
  /-- `Mapper::update` of the two columns `markApproved` sets, by primary key. -/
  | approve (deviceCodeHash userId : String)
  | slowDown (deviceCodeHash : String) (newInterval now : Int)
  | polled (deviceCodeHash : String) (now : Int)
  /-- `UPDATE ... SET status = 'consumed' WHERE ... AND status = 'approved' RETURNING ...`:
  whether there was such a row. -/
  | consume (deviceCodeHash : String)
deriving DecidableEq

namespace DeviceOp

/-- What a statement returns. -/
abbrev Res : DeviceOp → Type
  | insert _ => Bool
  | selectByUserCode _ => Option (Option DeviceCode)
  | selectByHash _ => Option (Option DeviceCode)
  | approve _ _ => Bool
  | slowDown _ _ _ => Bool
  | polled _ _ => Bool
  | consume _ => Option Bool

/-- The answer of a statement that the server refused. -/
def refused : (o : DeviceOp) → o.Res
  | insert _ => false
  | selectByUserCode _ => none
  | selectByHash _ => none
  | approve _ _ => false
  | slowDown _ _ _ => false
  | polled _ _ => false
  | consume _ => none

/-- The constraints of the table; `clientIds` are those of `oauth2_clients`. -/
def fits (clientIds : List String) (codes : DeviceCodes) (c : DeviceCode) : Bool :=
  Sql.varchar 64 c.deviceCodeHash && Sql.varchar 8 c.userCode && Sql.varchar 50 c.clientId &&
    decide (c.clientId ∈ clientIds) && !codes.rows.any fun c' => c'.userCode = c.userCode

/-- The effect of a statement the server accepts. -/
def effect (clientIds : List String) : (o : DeviceOp) → DeviceCodes → o.Res × DeviceCodes
  | insert c, codes =>
    if fits clientIds codes c then
      match codes.insertNew c with
      | some codes' => (true, codes')
      | none => (false, codes)
    else (false, codes)
  | selectByUserCode u, codes => (some (codes.findByUserCode u), codes)
  | selectByHash h, codes => (some (codes.find? h), codes)
  | approve h userId, codes =>
    if Sql.varchar 50 userId then
      (true,
        codes.update h (fun c => { c with userId := userId, status := .approved }) fun _ => rfl)
    else (false, codes)
  | slowDown h newInterval now, codes =>
    (true, codes.update h (fun c => { c with intervalSeconds := newInterval, lastPolledAt := now })
      fun _ => rfl)
  | polled h now, codes =>
    (true, codes.update h (fun c => { c with lastPolledAt := now }) fun _ => rfl)
  | consume h, codes =>
    match codes.find? h with
    | some c =>
      if c.status = .approved then
        (some true, codes.update h (fun c => { c with status := .consumed }) fun _ => rfl)
      else (some false, codes)
    | none => (some false, codes)

/-- A statement is refused or takes effect. -/
def exec (fault : Bool) (clientIds : List String) (o : DeviceOp) (codes : DeviceCodes) :
    o.Res × DeviceCodes :=
  if fault then (o.refused, codes) else o.effect clientIds codes

/-! ## What the three writes do -/

section Writes

variable (fault : Bool) (clientIds : List String) (codes : DeviceCodes)

/-- A new row, or nothing. -/
theorem insert_cases (c : DeviceCode) :
    exec fault clientIds (.insert c) codes = (false, codes) ∨
      codes.find? c.deviceCodeHash = none ∧
        exec fault clientIds (.insert c) codes = (true, codes.assign c) := by
  unfold exec
  split
  · exact .inl rfl
  · simp only [effect]
    split
    · split
      · next codes' inserted =>
          obtain ⟨absent, rfl⟩ := Table.insertNew_eq_some.mp inserted
          exact .inr ⟨absent, rfl⟩
      · exact .inl rfl
    · exact .inl rfl

/-- Status and user are set whatever they were. -/
theorem approve_cases (h userId : String) :
    exec fault clientIds (.approve h userId) codes = (false, codes) ∨
      exec fault clientIds (.approve h userId) codes =
        (true, codes.update h (fun c => { c with userId := userId, status := .approved })
          fun _ => rfl) := by
  unfold exec
  split
  · exact .inl rfl
  · simp only [effect]
    split
    · exact .inr rfl
    · exact .inl rfl

/-- Only an approved code is consumed. -/
theorem consume_cases (h : String) :
    (exec fault clientIds (.consume h) codes).1 ≠ some true ∧
        (exec fault clientIds (.consume h) codes).2 = codes ∨
      ∃ c, codes.find? h = some c ∧ c.status = .approved ∧
        exec fault clientIds (.consume h) codes =
          (some true, codes.update h (fun c => { c with status := .consumed }) fun _ => rfl) := by
  unfold exec
  split
  · exact .inl ⟨by simp [refused], rfl⟩
  · simp only [effect]
    split
    · next c found =>
        split
        · next approved => exact .inr ⟨c, found, approved, rfl⟩
        · exact .inl ⟨by simp, rfl⟩
    · exact .inl ⟨by simp, rfl⟩

end Writes

end DeviceOp

end Fulla
