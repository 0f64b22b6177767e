import Fulla.Device.DeviceFlow

/-!
# Safety of the device flow

The invariant behind `device_flow_safe` ties a code's row to the history: a code
that is pending has no recorded approver, a settled one has exactly one, and it is
approved as long as nothing has consumed it.  A poll between its steps holds what
it has read or won (`Holding`); who has won a code is alone in that and has not
minted for it yet.  All this is claimed only while every approving `UPDATE` has
found its code pending.
-/

namespace Fulla.DeviceFlow

open Conc

variable {ι : Type}

/-- What other calls can tell of a code: its status and its user. -/
def view (s : TokenDb) (h : String) : Option (DeviceStatus × String) :=
  (s.devices.find? h).map fun c => (c.status, c.userId)

/-- What a poll holds between its steps. -/
inductive Holding where
  | nothing
  /-- It has read that `userId` approved code `h`. -/
  | seen (h userId : String)
  /-- It has consumed code `h` and not minted yet. -/
  | won (h userId : String)

/-- A row agrees with the recorded approvers and with whether the code is closed. -/
def Agrees : Option (DeviceStatus × String) → List String → Bool → Prop
  | none, users, gone => users = [] ∧ gone = false
  | some (status, userId), users, gone =>
    (status.open_ = true ∧ users = [] ∧ gone = false) ∨
      (status.open_ = false ∧ users = [userId] ∧ (status = .approved ↔ gone = false))

/-- The invariant of an orderly run that started in `s`. -/
structure Inv (ep : TokenEndpoint) (calls : ι → DeviceCall) (s : TokenDb) (w : DeviceWorld ι)
    (γ : ι → Holding) : Prop where
  book : ∀ h, Agrees (view w.db h) (recorded s h w.log) (closed s h w.log)
  seen : ∀ i h u, γ i = .seen h u → recorded s h w.log = [u]
  won : ∀ i h u, γ i = .won h u →
    recorded s h w.log = [u] ∧ closed s h w.log = true ∧ mints ep calls h w.log = []
  alone : ∀ i j h u v, γ i = .won h u → γ j = .won h v → i = j
  minted : ∀ h, mints ep calls h w.log = [] ∨
    closed s h w.log = true ∧ ∃ u, mints ep calls h w.log = [u] ∧ recorded s h w.log = [u]

/-- Every approving `UPDATE` so far has found its code pending. -/
def Orderly (log : List (DeviceEvent ι)) : Prop :=
  ∀ e ∈ log, approvesPending e = true

/-! ## The history grows -/

section History

variable {ep : TokenEndpoint} {calls : ι → DeviceCall} {s : TokenDb} {h : String}
  {e : DeviceEvent ι} {log : List (DeviceEvent ι)}

theorem recorded_cons :
    recorded s h (e :: log) = (approvalOf h e).toList ++ recorded s h log := by
  cases eq : approvalOf h e <;> simp [recorded, eq]

theorem closed_cons : closed s h (e :: log) = (consumes h e || closed s h log) := by
  simp [closed, Bool.or_assoc]

theorem mints_cons :
    mints ep calls h (e :: log) = (mintOf ep calls h e).toList ++ mints ep calls h log := by
  cases eq : mintOf ep calls h e <;> simp [mints, eq]

/-- The event says nothing about any code. -/
structure Silent (ep : TokenEndpoint) (calls : ι → DeviceCall) (e : DeviceEvent ι) : Prop where
  approval : ∀ h, approvalOf h e = none
  consume : ∀ h, consumes h e = false
  mint : ∀ h, mintOf ep calls h e = none

end History

/-! ## Steps of the invariant -/

section Steps

variable {ep : TokenEndpoint} {calls : ι → DeviceCall} {s : TokenDb} {w w' : DeviceWorld ι}
  {γ : ι → Holding} {e : DeviceEvent ι}

theorem Inv.frame (inv : Inv ep calls s w γ) (silent : Silent ep calls e)
    (log : w'.log = e :: w.log) (same : ∀ h, view w'.db h = view w.db h) :
    Inv ep calls s w' γ := by
  have recorded_eq (h : String) : recorded s h w'.log = recorded s h w.log := by
    rw [log, recorded_cons, silent.approval h]
    rfl
  have closed_eq (h : String) : closed s h w'.log = closed s h w.log := by
    rw [log, closed_cons, silent.consume h, Bool.false_or]
  have mints_eq (h : String) : mints ep calls h w'.log = mints ep calls h w.log := by
    rw [log, mints_cons, silent.mint h]
    rfl
  constructor
  case book =>
    intro h
    rw [same, recorded_eq, closed_eq]
    exact inv.book h
  case seen =>
    intro i h u holds
    rw [recorded_eq]
    exact inv.seen i h u holds
  case won =>
    intro i h u holds
    rw [recorded_eq, closed_eq, mints_eq]
    exact inv.won i h u holds
  case alone => exact inv.alone
  case minted =>
    intro h
    rw [recorded_eq, closed_eq, mints_eq]
    exact inv.minted h

variable {i : ι} {h u : String}

/-- A new code is pending, and nobody has approved it. -/
theorem Inv.create (inv : Inv ep calls s w γ) (silent : Silent ep calls e)
    (log : w'.log = e :: w.log) (absent : view w.db h = none)
    (created : view w'.db h = some (.pending, "")) (other : ∀ k ≠ h, view w'.db k = view w.db k) :
    Inv ep calls s w' γ := by
  have blank : Inv ep calls s { w' with db := w.db } γ := inv.frame silent log fun _ => rfl
  constructor
  case book =>
    intro k
    have agrees := blank.book k
    by_cases eq : k = h
    · subst eq
      rw [show view w.db k = none from absent] at agrees
      rw [created]
      exact .inl ⟨rfl, agrees.1, agrees.2⟩
    · rw [other k eq]
      exact agrees
  case seen => exact blank.seen
  case won => exact blank.won
  case alone => exact blank.alone
  case minted => exact blank.minted

/-- A pending code gets its approver. -/
theorem Inv.approve (inv : Inv ep calls s w γ) (log : w'.log = e :: w.log)
    (approval : approvalOf h e = some u) (only : ∀ k ≠ h, approvalOf k e = none)
    (consume : ∀ k, consumes k e = false) (mint : ∀ k, mintOf ep calls k e = none)
    {status : DeviceStatus} {before : String} (pending : view w.db h = some (status, before))
    (open_ : status.open_ = true) (approved : view w'.db h = some (.approved, u))
    (other : ∀ k ≠ h, view w'.db k = view w.db k) : Inv ep calls s w' γ := by
  have agrees := inv.book h
  rw [pending] at agrees
  obtain ⟨-, unrecorded, unclosed⟩ | ⟨settled, -⟩ := agrees
  case inr =>
    rw [open_] at settled
    cases settled
  have recorded_new : recorded s h w'.log = [u] := by
    rw [log, recorded_cons, approval, unrecorded]
    rfl
  have recorded_eq (k : String) (ne : k ≠ h) : recorded s k w'.log = recorded s k w.log := by
    rw [log, recorded_cons, only k ne]
    rfl
  have closed_eq (k : String) : closed s k w'.log = closed s k w.log := by
    rw [log, closed_cons, consume k, Bool.false_or]
  have mints_eq (k : String) : mints ep calls k w'.log = mints ep calls k w.log := by
    rw [log, mints_cons, mint k]
    rfl
  -- nobody can have seen or won a code without an approver
  have elsewhere (k v : String) (known : recorded s k w.log = [v]) : k ≠ h := by
    intro eq
    rw [eq, unrecorded] at known
    cases known
  constructor
  case book =>
    intro k
    by_cases eq : k = h
    · subst eq
      rw [approved, recorded_new, closed_eq, unclosed]
      exact .inr ⟨rfl, rfl, iff_of_true rfl rfl⟩
    · rw [other k eq, recorded_eq k eq, closed_eq]
      exact inv.book k
  case seen =>
    intro i k v holds
    have known := inv.seen i k v holds
    rwa [recorded_eq k (elsewhere k v known)]
  case won =>
    intro i k v holds
    obtain ⟨known, gone, unminted⟩ := inv.won i k v holds
    rw [recorded_eq k (elsewhere k v known), closed_eq, mints_eq]
    exact ⟨known, gone, unminted⟩
  case alone => exact inv.alone
  case minted =>
    intro k
    rw [closed_eq, mints_eq]
    rcases inv.minted k with none_ | ⟨gone, v, one, known⟩
    · exact .inl none_
    · rw [recorded_eq k (elsewhere k v known)]
      exact .inr ⟨gone, v, one, known⟩

variable [DecidableEq ι]

/-- A poll that reads a recorded approver may hold on to it. -/
theorem Inv.see (inv : Inv ep calls s w γ) (read : recorded s h w.log = [u]) :
    Inv ep calls s w (Function.update γ i (.seen h u)) := by
  have others (j : ι) (k v : String)
      (holds : Function.update γ i (.seen h u) j = .won k v) : γ j = .won k v := by
    by_cases eq : j = i
    · rw [eq, Function.update_self] at holds
      cases holds
    · rwa [Function.update_of_ne eq] at holds
  constructor
  case book => exact inv.book
  case seen =>
    intro j k v holds
    by_cases eq : j = i
    · rw [eq, Function.update_self] at holds
      cases holds
      exact read
    · rw [Function.update_of_ne eq] at holds
      exact inv.seen j k v holds
  case won => exact fun j k v holds => inv.won j k v (others j k v holds)
  case alone =>
    exact fun j l k v v' holds holds' => inv.alone j l k v v' (others j k v holds)
      (others l k v' holds')
  case minted => exact inv.minted

/-- The poll that consumes an approved code has won it. -/
theorem Inv.consume (inv : Inv ep calls s w γ) (log : w'.log = e :: w.log)
    (approval : ∀ k, approvalOf k e = none) (consume : consumes h e = true)
    (only : ∀ k ≠ h, consumes k e = false) (mint : ∀ k, mintOf ep calls k e = none)
    {user : String} (approved : view w.db h = some (.approved, user))
    (consumed : view w'.db h = some (.consumed, user))
    (other : ∀ k ≠ h, view w'.db k = view w.db k) (own : γ i = .seen h u) :
    Inv ep calls s w' (Function.update γ i (.won h u)) := by
  have agrees := inv.book h
  rw [approved] at agrees
  obtain ⟨open_, -⟩ | ⟨-, recordedUser, iff⟩ := agrees
  case inl => cases open_
  have unclosed : closed s h w.log = false := iff.mp rfl
  have read : recorded s h w.log = [u] := inv.seen i h u own
  have recorded_eq (k : String) : recorded s k w'.log = recorded s k w.log := by
    rw [log, recorded_cons, approval k]
    rfl
  have closed_new : closed s h w'.log = true := by
    rw [log, closed_cons, consume, Bool.true_or]
  have closed_eq (k : String) (ne : k ≠ h) : closed s k w'.log = closed s k w.log := by
    rw [log, closed_cons, only k ne, Bool.false_or]
  have mints_eq (k : String) : mints ep calls k w'.log = mints ep calls k w.log := by
    rw [log, mints_cons, mint k]
    rfl
  have unminted : mints ep calls h w.log = [] := by
    rcases inv.minted h with none_ | ⟨gone, -⟩
    · exact none_
    · rw [unclosed] at gone
      cases gone
  -- a code that is not closed has not been won by anybody
  have elsewhere (j : ι) (k v : String) (holds : γ j = .won k v) : k ≠ h := by
    intro eq
    obtain ⟨-, gone, -⟩ := inv.won j k v holds
    rw [eq, unclosed] at gone
    cases gone
  constructor
  case book =>
    intro k
    rw [recorded_eq]
    by_cases eq : k = h
    · subst eq
      rw [consumed, closed_new, recordedUser]
      exact .inr ⟨rfl, rfl, iff_of_false (by decide) (by decide)⟩
    · rw [other k eq, closed_eq k eq]
      exact inv.book k
  case seen =>
    intro j k v holds
    rw [recorded_eq]
    by_cases eq : j = i
    · rw [eq, Function.update_self] at holds
      cases holds
    · rw [Function.update_of_ne eq] at holds
      exact inv.seen j k v holds
  case won =>
    intro j k v holds
    rw [recorded_eq, mints_eq]
    by_cases eq : j = i
    · rw [eq, Function.update_self] at holds
      cases holds
      exact ⟨read, closed_new, unminted⟩
    · rw [Function.update_of_ne eq] at holds
      obtain ⟨known, gone, none_⟩ := inv.won j k v holds
      rw [closed_eq k (elsewhere j k v holds)]
      exact ⟨known, gone, none_⟩
  case alone =>
    intro j l k v v' holds holds'
    by_cases eqj : j = i
    · by_cases eql : l = i
      · rw [eqj, eql]
      · rw [eqj, Function.update_self] at holds
        rw [Function.update_of_ne eql] at holds'
        cases holds
        exact absurd rfl (elsewhere l h v' holds')
    · rw [Function.update_of_ne eqj] at holds
      by_cases eql : l = i
      · rw [eql, Function.update_self] at holds'
        cases holds'
        exact absurd rfl (elsewhere j h v holds)
      · rw [Function.update_of_ne eql] at holds'
        exact inv.alone j l k v v' holds holds'
  case minted =>
    intro k
    rw [recorded_eq, mints_eq]
    by_cases eq : k = h
    · subst eq
      exact .inl unminted
    · rw [closed_eq k eq]
      exact inv.minted k

/-- The winner of a code mints for the approver it has read. -/
theorem Inv.mint (inv : Inv ep calls s w γ) (log : w'.log = e :: w.log)
    (approval : ∀ k, approvalOf k e = none) (consume : ∀ k, consumes k e = false)
    (mint : mintOf ep calls h e = some u) (only : ∀ k ≠ h, mintOf ep calls k e = none)
    (same : ∀ k, view w'.db k = view w.db k) (own : γ i = .won h u) :
    Inv ep calls s w' (Function.update γ i .nothing) := by
  obtain ⟨read, gone, unminted⟩ := inv.won i h u own
  have recorded_eq (k : String) : recorded s k w'.log = recorded s k w.log := by
    rw [log, recorded_cons, approval k]
    rfl
  have closed_eq (k : String) : closed s k w'.log = closed s k w.log := by
    rw [log, closed_cons, consume k, Bool.false_or]
  have mints_new : mints ep calls h w'.log = [u] := by
    rw [log, mints_cons, mint, unminted]
    rfl
  have mints_eq (k : String) (ne : k ≠ h) : mints ep calls k w'.log = mints ep calls k w.log := by
    rw [log, mints_cons, only k ne]
    rfl
  have others {j : ι} {k v : String} (holds : Function.update γ i .nothing j = .won k v) :
      γ j = .won k v ∧ k ≠ h := by
    by_cases eq : j = i
    · rw [eq, Function.update_self] at holds
      cases holds
    · rw [Function.update_of_ne eq] at holds
      refine ⟨holds, fun same => eq ?_⟩
      rw [same] at holds
      exact inv.alone j i h v u holds own
  constructor
  case book =>
    intro k
    rw [same, recorded_eq, closed_eq]
    exact inv.book k
  case seen =>
    intro j k v holds
    rw [recorded_eq]
    by_cases eq : j = i
    · rw [eq, Function.update_self] at holds
      cases holds
    · rw [Function.update_of_ne eq] at holds
      exact inv.seen j k v holds
  case won =>
    intro j k v holds
    obtain ⟨before, ne⟩ := others holds
    rw [recorded_eq, closed_eq, mints_eq k ne]
    exact inv.won j k v before
  case alone =>
    exact fun j l k v v' holds holds' => inv.alone j l k v v' (others holds).1 (others holds').1
  case minted =>
    intro k
    rw [recorded_eq, closed_eq]
    by_cases eq : k = h
    · subst eq
      exact .inr ⟨gone, u, mints_new, read⟩
    · rw [mints_eq k eq]
      exact inv.minted k

end Steps

/-! ## Operations -/

section Operations

variable {ep : TokenEndpoint} {calls : ι → DeviceCall}

/-- The operation neither creates, approves nor consumes a code, and saves no pair if
its call is a poll. -/
def Neutral (poll : Bool) : TokenSig.Op → Prop
  | .inl o => poll = true → savedPair? o = none
  | .inr (.device (.insert _)) => False
  | .inr (.device (.approve _ _)) => False
  | .inr (.device (.consume _)) => False
  | .inr _ => True

theorem pairOf_eq_none {i : ι} {n : Nat} {o : StoreOp} {r : TokenSig.Res (.inl o)} {pre : TokenDb}
    (noSave : savedPair? o = none) : pairOf (⟨i, n, .inl o, r, pre⟩ : DeviceEvent ι) = none := by
  cases o with
  | env o => rfl
  | mem o => cases o <;> first | rfl | cases noSave
  | sql o => cases o <;> first | rfl | cases noSave
  | redis o => rfl

theorem mintOf_eq_none {h : String} {e : DeviceEvent ι}
    (noPair : redeems ep h (calls e.thread) = true → pairOf e = none) :
    mintOf ep calls h e = none := by
  unfold mintOf
  split
  · next poll => rw [noPair poll, Option.map_none]
  · rfl

theorem silent_of_neutral {i : ι} {n : Nat} {o : TokenSig.Op} {r : TokenSig.Res o} {pre : TokenDb}
    {poll : Bool} (polls : ∀ h, redeems ep h (calls i) = true → poll = true)
    (neutral : Neutral poll o) : Silent ep calls (⟨i, n, o, r, pre⟩ : DeviceEvent ι) := by
  cases o with
  | inl o =>
      refine ⟨fun _ => rfl, fun _ => rfl, fun h => mintOf_eq_none fun redeem => ?_⟩
      exact pairOf_eq_none (neutral (polls h redeem))
  | inr o =>
      cases o with
      | device o =>
          cases o with
          | insert c => exact neutral.elim
          | approve k v => exact neutral.elim
          | consume k => exact neutral.elim
          | _ => exact ⟨fun _ => rfl, fun _ => rfl, fun h => mintOf_eq_none fun _ => rfl⟩
      | _ => exact ⟨fun _ => rfl, fun _ => rfl, fun h => mintOf_eq_none fun _ => rfl⟩

/-- A rewrite of one row that leaves status and user alone. -/
theorem view_update_same {s : TokenDb} {k : String} {f : DeviceCode → DeviceCode}
    {same : ∀ c, (f c).deviceCodeHash = c.deviceCodeHash}
    (keeps : ∀ c, (f c).status = c.status ∧ (f c).userId = c.userId) (h : String) :
    view { s with devices := s.devices.update k f same } h = view s h := by
  simp only [view, DeviceCodes.update, Table.find?_updateWhere, Option.map_map]
  congr 1
  funext c
  simp only [Function.comp_apply]
  split
  · rw [(keeps c).1, (keeps c).2]
  · rfl

theorem view_of_neutral (clients : ClientRepository) (tokens : TokenBackend) (m : TokenMoment)
    {o : TokenSig.Op} {poll : Bool} (neutral : Neutral poll o) (s : TokenDb) (h : String) :
    view (execToken clients tokens m o s).2 h = view s h := by
  cases o with
  | inl o => rfl
  | inr o =>
      cases o with
      | device o =>
          simp only [execToken, DeviceOp.exec]
          split
          · rfl
          · cases o with
            | insert c => exact neutral.elim
            | approve k v => exact neutral.elim
            | consume k => exact neutral.elim
            | selectByUserCode u => rfl
            | selectByHash k => rfl
            | slowDown k interval now =>
                apply view_update_same
                · exact fun _ => rfl
                · exact fun _ => ⟨rfl, rfl⟩
            | polled k now =>
                apply view_update_same
                · exact fun _ => rfl
                · exact fun _ => ⟨rfl, rfl⟩
      | _ => rfl

/-- A rewrite of one row, seen from outside. -/
theorem view_update {s : TokenDb} {k : String} {f : DeviceCode → DeviceCode}
    {same : ∀ c, (f c).deviceCodeHash = c.deviceCodeHash} {c : DeviceCode}
    (found : s.devices.find? k = some c) :
    view { s with devices := s.devices.update k f same } k = some ((f c).status, (f c).userId) ∧
      ∀ h ≠ k, view { s with devices := s.devices.update k f same } h = view s h := by
  have key : c.deviceCodeHash = k := Table.find?_key found
  constructor
  · simp [view, DeviceCodes.update, found, key]
  · intro h ne
    simp only [view, DeviceCodes.update, Table.find?_updateWhere, Option.map_map]
    cases eq : s.devices.find? h with
    | none => rfl
    | some c' =>
        have other : c'.deviceCodeHash = h := Table.find?_key eq
        simp [other, ne]

/-- A rewrite of a row that is not there. -/
theorem view_update_absent {s : TokenDb} {k : String} {f : DeviceCode → DeviceCode}
    {same : ∀ c, (f c).deviceCodeHash = c.deviceCodeHash} (absent : s.devices.find? k = none)
    (h : String) : view { s with devices := s.devices.update k f same } h = view s h := by
  simp only [view, DeviceCodes.update, Table.find?_updateWhere, Option.map_map]
  cases eq : s.devices.find? h with
  | none => rfl
  | some c =>
      have other : c.deviceCodeHash ≠ k := by
        rw [Table.find?_key eq]
        intro same_key
        rw [same_key, absent] at eq
        cases eq
      simp [other]

end Operations

/-! ## Calls under the invariant -/

section Calls

variable [DecidableEq ι] {α : Type} {env : Nat → TokenMoment} {clients : ClientRepository}
  {tokens : TokenBackend} {ep : TokenEndpoint} {calls : ι → DeviceCall} {s : TokenDb} {i : ι}

/-- The invariant, as long as the run is orderly. -/
def Shared (ep : TokenEndpoint) (calls : ι → DeviceCall) (s : TokenDb) (w : DeviceWorld ι)
    (γ : ι → Holding) : Prop :=
  Orderly w.log → Inv ep calls s w γ

/-- The call is a poll for some code. -/
def polls : DeviceCall → Bool
  | .token req => decide (req.param "grant_type" = "urn:ietf:params:oauth:grant-type:device_code")
  | _ => false

theorem polls_of_redeems {h : String} {call : DeviceCall} (redeem : redeems ep h call = true) :
    polls call = true := by
  cases call with
  | token req =>
      simp only [redeems, Bool.and_eq_true] at redeem
      exact redeem.1
  | _ => cases redeem

/-- What every operation of a run is executed by. -/
abbrev deviceHandler (env : Nat → TokenMoment) (clients : ClientRepository)
    (tokens : TokenBackend) : ι → Handler TokenSig (DeviceWorld ι) :=
  World.handler fun n => execToken clients tokens (env n)

omit [DecidableEq ι] in
theorem Shared.neutral {w : DeviceWorld ι} {γ : ι → Holding} {o : TokenSig.Op}
    (shared : Shared ep calls s w γ) (neutral : Neutral (polls (calls i)) o) :
    Shared ep calls s (deviceHandler env clients tokens i o w).2 γ := by
  intro orderly
  have before : Orderly w.log := fun e mem => orderly e (List.mem_cons_of_mem _ mem)
  exact (shared before).frame
    (silent_of_neutral (fun _ redeem => polls_of_redeems redeem) neutral) rfl
    fun h => view_of_neutral clients tokens _ neutral w.db h

/-- A program of neutral operations keeps what its call holds. -/
theorem keeps_neutral {p : TokenProg α} {g : Holding}
    (only : p.Only (Neutral (polls (calls i)))) :
    Keeps (deviceHandler env clients tokens) (Shared ep calls s) i (fun _ g' => g' = g) p g :=
  Keeps.of_only only (fun _ _ _ neutral shared => shared.neutral neutral) fun _ => rfl

/-- The end of a call. -/
theorem keeps_rest {p : TokenProg α} {g : Holding} (only : p.Only (Neutral (polls (calls i)))) :
    Keeps (deviceHandler env clients tokens) (Shared ep calls s) i (fun _ _ => True) p g :=
  (keeps_neutral only).mono fun _ _ _ => trivial

/-! ### Creating and approving -/

omit [DecidableEq ι] in
theorem silent_of_device {o : DeviceOp} {r : o.Res} {n : Nat} {pre : TokenDb}
    (approval : ∀ h, approvalOf h (⟨i, n, .inr (.device o), r, pre⟩ : DeviceEvent ι) = none)
    (consume : ∀ h, consumes h (⟨i, n, .inr (.device o), r, pre⟩ : DeviceEvent ι) = false) :
    Silent ep calls (⟨i, n, .inr (.device o), r, pre⟩ : DeviceEvent ι) :=
  ⟨approval, consume, fun _ => mintOf_eq_none fun _ => rfl⟩

omit [DecidableEq ι] in
/-- A device statement that said nothing and changed nothing. -/
theorem Inv.unchanged {w : DeviceWorld ι} {γ : ι → Holding} {o : DeviceOp}
    (inv : Inv ep calls s w γ)
    (silent : Silent ep calls (⟨i, w.tick, .inr (.device o),
      (o.exec (env w.tick).store.fault w.db.db.clientIds w.db.devices).1, w.db⟩ : DeviceEvent ι))
    (same : (o.exec (env w.tick).store.fault w.db.db.clientIds w.db.devices).2 = w.db.devices) :
    Inv ep calls s (deviceHandler env clients tokens i (.inr (.device o)) w).2 γ := by
  refine inv.frame silent rfl ?_
  intro h
  simp only [World.handler_db, execToken, same]

/-- The event of a device statement. -/
abbrev deviceEvent (env : Nat → TokenMoment) (i : ι) (w : DeviceWorld ι) (o : DeviceOp) :
    DeviceEvent ι :=
  ⟨i, w.tick, .inr (.device o),
    (o.exec (env w.tick).store.fault w.db.db.clientIds w.db.devices).1, w.db⟩

omit [DecidableEq ι] in
theorem Shared.insert {w : DeviceWorld ι} {γ : ι → Holding} {c : DeviceCode}
    (shared : Shared ep calls s w γ) (fresh : c.status = .pending ∧ c.userId = "") :
    Shared ep calls s (deviceHandler env clients tokens i (.inr (.device (.insert c))) w).2 γ := by
  intro orderly
  have inv := shared fun e mem => orderly e (List.mem_cons_of_mem _ mem)
  have silent : Silent ep calls (deviceEvent env i w (.insert c)) :=
    silent_of_device (fun _ => rfl) fun _ => rfl
  rcases DeviceOp.insert_cases (env w.tick).store.fault w.db.db.clientIds w.db.devices c with
    same | ⟨absent, eq⟩
  · exact inv.unchanged silent (congrArg Prod.snd same)
  · refine inv.create (h := c.deviceCodeHash) silent rfl ?_ ?_ ?_
    · simp [view, absent]
    · simp [view, execToken, eq, fresh.1, fresh.2]
    · intro k ne
      simp [view, execToken, eq, ne]

omit [DecidableEq ι] in
theorem Shared.approve {w : DeviceWorld ι} {γ : ι → Holding} {h u : String}
    (shared : Shared ep calls s w γ) :
    Shared ep calls s (deviceHandler env clients tokens i (.inr (.device (.approve h u))) w).2
      γ := by
  intro orderly
  have inv := shared fun e mem => orderly e (List.mem_cons_of_mem _ mem)
  have pending : approvesPending (deviceEvent env i w (.approve h u)) = true :=
    orderly _ List.mem_cons_self
  rcases DeviceOp.approve_cases (env w.tick).store.fault w.db.db.clientIds w.db.devices h u with
    same | eq
  · have refused : (DeviceOp.exec (env w.tick).store.fault w.db.db.clientIds (.approve h u)
        w.db.devices).1 = false := congrArg Prod.fst same
    have silent : Silent ep calls (deviceEvent env i w (.approve h u)) := by
      refine silent_of_device (fun k => ?_) fun _ => rfl
      refine if_neg fun told => ?_
      have answered := told.1
      rw [refused] at answered
      cases answered
    exact inv.unchanged silent (congrArg Prod.snd same)
  · have answered : (DeviceOp.exec (env w.tick).store.fault w.db.db.clientIds (.approve h u)
        w.db.devices).1 = true := congrArg Prod.fst eq
    cases found : w.db.devices.find? h with
    | none =>
        have silent : Silent ep calls (deviceEvent env i w (.approve h u)) := by
          refine silent_of_device (fun k => ?_) fun _ => rfl
          refine if_neg fun told => ?_
          have there := told.2.2
          rw [← told.2.1, found] at there
          cases there
        refine inv.frame silent rfl ?_
        intro k
        simp only [World.handler_db, execToken, eq]
        exact view_update_absent found k
    | some c =>
        have open_ : c.status.open_ = true := by
          simpa [approvesPending, answered, found] using pending
        have after : (deviceHandler env clients tokens i (.inr (.device (.approve h u))) w).2.db =
            { w.db with
              devices :=
                w.db.devices.update h (fun c => { c with userId := u, status := .approved })
                fun _ => rfl } := by
          simp only [World.handler_db, execToken, eq]
        obtain ⟨approved, other⟩ : view _ h = some (.approved, u) ∧ _ := after ▸ view_update found
        have told : approvalOf h (deviceEvent env i w (.approve h u)) = some u :=
          if_pos ⟨answered, rfl, by rw [found]; rfl⟩
        have only : ∀ k ≠ h, approvalOf k (deviceEvent env i w (.approve h u)) = none :=
          fun k ne => if_neg fun told => ne told.2.1.symm
        have before : view w.db h = some (c.status, c.userId) := by
          simp [view, found]
        exact inv.approve rfl told only (fun _ => rfl) (fun _ => mintOf_eq_none fun _ => rfl)
          before open_ approved other

omit [DecidableEq ι] in
/-- A `consume` that found no approved code. -/
theorem Shared.notConsumed {w : DeviceWorld ι} {γ : ι → Holding} {h : String}
    (shared : Shared ep calls s w γ)
    (lost : (DeviceOp.exec (env w.tick).store.fault w.db.db.clientIds (.consume h)
      w.db.devices).1 ≠ some true)
    (same : (DeviceOp.exec (env w.tick).store.fault w.db.db.clientIds (.consume h)
      w.db.devices).2 = w.db.devices) :
    Shared ep calls s (deviceHandler env clients tokens i (.inr (.device (.consume h))) w).2 γ := by
  intro orderly
  have inv := shared fun e mem => orderly e (List.mem_cons_of_mem _ mem)
  have silent : Silent ep calls (deviceEvent env i w (.consume h)) := by
    refine silent_of_device (fun _ => rfl) fun k => ?_
    simp [consumes, lost]
  exact inv.unchanged silent same

end Calls

end Fulla.DeviceFlow
