import Fulla.Org.Constraints

/-!
# Decisions on consent requests

An approval reads the request, saves the first consent of the client in a transaction, detaches
the saves of the others, and then flips the request from pending to approved; a rejection flips
it to rejected and a withdrawal deletes it.  Nobody looks at how many rows the flip of an
approval has changed.  So the request has to be there, pending or approved, when the first
consent is committed, until the flip, and the flip must not fail.
-/

namespace Fulla

open Conc OrgTable

/-- The calls that decide a consent request. -/
inductive DecisionCall where
  | approveConsentRequest (userId slug : String) (requestId : Option Nat)
  | rejectConsentRequest (userId slug : String) (requestId : Option Nat)
  | withdrawConsentRequest (userId slug : String) (requestId : Option Nat)
  | detachedSave

/-- As calls of the services. -/
def DecisionCall.call : DecisionCall → OrgCall
  | approveConsentRequest userId slug requestId => .approveConsentRequest userId slug requestId
  | rejectConsentRequest userId slug requestId => .rejectConsentRequest userId slug requestId
  | withdrawConsentRequest userId slug requestId => .withdrawConsentRequest userId slug requestId
  | detachedSave => .detachedSave

/-! ## Where a decider stands -/

/-- How far a decision has come. -/
inductive Decision where
  | idle
  /-- The request that the call is about. -/
  | read (row : OrganizationConsentRequest)
  /-- In the transaction of the first consent, before it is written. -/
  | opening (row : OrganizationConsentRequest)
  | saving (row : OrganizationConsentRequest)
  /-- The first consent is committed, and the flip is due. -/
  | granted (row : OrganizationConsentRequest)
  | decided (row : OrganizationConsentRequest)
  /-- The thread of a detached save, before and in its transaction. -/
  | awaited (save : ConsentSave)
  | flushing (save : ConsentSave)
  | flushed
  | failed
deriving DecidableEq

namespace Decision

def next (g : Decision) : (o : OrgOp) → OrgSig.Res o → Decision
  | .query (.request _), some (some row) =>
    match g with
    | idle => read row
    | g => g
  | .newTransaction, begun =>
    match g with
    | read row => if begun then opening row else failed
    | awaited save => if begun then flushing save else failed
    | g => g
  | .advisoryLock _, held =>
    match g with
    | opening row => if held then opening row else failed
    | flushing save => if held then flushing save else failed
    | g => g
  | .statement (.upsertConsent _ _ _ _), done =>
    match g with
    | opening row => if done.isSome then saving row else failed
    | flushing save => if done.isSome then flushing save else failed
    | g => g
  | .commit, committed =>
    match g with
    | saving row => if committed then granted row else failed
    | flushing _ => if committed then flushed else failed
    | g => g
  | .statement (.decidePending _ .approved), _ =>
    match g with
    | read row => decided row
    | granted row => decided row
    | g => g
  | .awaitSave, save =>
    match g with
    | idle => awaited save
    | g => g
  | _, _ => g

/-- A transaction is open. -/
def inTxn : Decision → Bool
  | opening _ => true
  | saving _ => true
  | flushing _ => true
  | _ => false

/-- The request of an approval that flips it next. -/
def flips : Decision → Option OrganizationConsentRequest
  | read row => some row
  | granted row => some row
  | _ => none

/-- The organization and the client whose consent is written in the transaction. -/
def Writes (g : Decision) (organizationId : Nat) (clientId : String) : Prop :=
  match g with
  | opening row => row.organizationId = organizationId ∧ row.clientId = clientId
  | saving row => row.organizationId = organizationId ∧ row.clientId = clientId
  | flushing save => save.organizationId = organizationId ∧ save.clientId = clientId
  | _ => False

/-- A consent may have been saved or detached. -/
def HasGranted : Decision → Prop
  | granted _ => True
  | decided _ => True
  | flushed => True
  | _ => False

/-- The order of the operations. -/
def Fits (g : Decision) : OrgOp → Prop
  | .newTransaction => (∃ row, g = read row) ∨ ∃ save, g = awaited save
  | .advisoryLock _ => (∃ row, g = opening row) ∨ ∃ save, g = flushing save
  | .statement (.upsertConsent organizationId clientId _ _) =>
    ((∃ row, g = opening row) ∨ ∃ save, g = flushing save) ∧ g.Writes organizationId clientId
  | .commit => (∃ row, g = saving row) ∨ ∃ save, g = flushing save
  | .detach save => ∃ row, g = granted row ∧ row.organizationId = save.organizationId ∧
    row.clientId = save.clientId
  | .awaitSave => g = idle
  | .statement (.decidePending id .approved) => ∃ row, g.flips = some row ∧ row.id = id
  | .statement (.decidePending _ .rejected) => g.inTxn = false
  | .statement (.resolveOtherPending _ _ _) => g.inTxn = false
  | .statement (.withdrawOwnPending _ _ _) => g.inTxn = false
  | o => Reads o ∧ g.inTxn = false

end Decision

section Rows

variable {rows rows' rows₀ : List OrgRow}

/-- A request of the organization for the client is approved. -/
def Authorized (rows : List OrgRow) (organizationId : Nat) (clientId : String) : Prop :=
  ∃ q, OrgRow.request q ∈ rows ∧ q.organizationId = organizationId ∧ q.clientId = clientId ∧
    q.status = .approved

/-- The row of a request with a status. -/
def withStatus (q : OrganizationConsentRequest) (status : RequestStatus) : OrgRow :=
  .request { q with status := status }

/-- The request is pending, or one for its client is approved. -/
def Wanted (rows : List OrgRow) (q : OrganizationConsentRequest) : Prop :=
  withStatus q .pending ∈ rows ∨ Authorized rows q.organizationId q.clientId

/-- A consent of the same organization, client and scope is active. -/
def Active (rows : List OrgRow) (c : OrganizationConsent) : Prop :=
  ∃ c', OrgRow.consent c' ∈ rows ∧ c'.organizationId = c.organizationId ∧
    c'.clientId = c.clientId ∧ c'.scopeName = c.scopeName ∧ c'.revoked = false

/-- The consents of the organization for the client are authorized, or an approval in flight
has saved the first of them. -/
def Backed {ι : Type} (rows : List OrgRow) (P : ι → Decision) (organizationId : Nat)
    (clientId : String) : Prop :=
  Authorized rows organizationId clientId ∨ ∃ j row, P j = .granted row ∧
    row.organizationId = organizationId ∧ row.clientId = clientId

/-- What a thread relies on. -/
def Decision.Stands {ι : Type} (g : Decision) (rows : List OrgRow) (P : ι → Decision) : Prop :=
  match g with
  | read row => row.status = .approved → OrgRow.request row ∈ rows
  | granted row => Wanted rows row
  | decided row => withStatus row .approved ∈ rows
  | awaited save => Backed rows P save.organizationId save.clientId
  | flushing save => Backed rows P save.organizationId save.clientId
  | _ => True

/-- The rows, those of the start, the detached saves and where every decider stands. -/
structure DecisionRows {ι : Type} (rows₀ rows : List OrgRow) (queue : List ConsentSave)
    (P : ι → Decision) : Prop where
  /-- A consent that is active was so at the start, or it is backed. -/
  consents : ∀ c, OrgRow.consent c ∈ rows → c.revoked = false →
    Active rows₀ c ∨ Backed rows P c.organizationId c.clientId
  queue : ∀ save ∈ queue, Backed rows P save.organizationId save.clientId
  stands : ∀ j, (P j).Stands rows P

/-- What was decided stays. -/
def DecidedStay (rows rows' : List OrgRow) : Prop :=
  ∀ q, OrgRow.request q ∈ rows → q.status ≠ .pending → OrgRow.request q ∈ rows'

theorem DecidedStay.refl : DecidedStay rows rows := fun _ mem _ => mem

/-- A consent stays authorized as long as decided requests stay. -/
theorem Authorized.mono (stay : DecidedStay rows rows') {organizationId : Nat} {clientId : String}
    (authorized : Authorized rows organizationId clientId) :
    Authorized rows' organizationId clientId := by
  obtain ⟨q, mem, org, client, approved⟩ := authorized
  refine ⟨q, stay q mem ?_, org, client, approved⟩
  rw [approved]
  exact RequestStatus.noConfusion

theorem DecidedStay.approved (stay : DecidedStay rows rows') {q : OrganizationConsentRequest}
    (mem : withStatus q .approved ∈ rows) : withStatus q .approved ∈ rows' :=
  stay _ mem RequestStatus.noConfusion

/-- An approved request authorizes the consents of its client. -/
theorem authorized_of_approved {q : OrganizationConsentRequest}
    (mem : withStatus q .approved ∈ rows) : Authorized rows q.organizationId q.clientId :=
  ⟨_, mem, rfl, rfl, rfl⟩

variable {ι : Type} [DecidableEq ι] {P : ι → Decision} {i : ι} {g : Decision}
  {queue queue' : List ConsentSave}

/-- Nothing loses its backing if a thread that leaves the state after its first consent leaves
an approved request behind. -/
theorem Backed.next (stay : DecidedStay rows rows')
    (left : ∀ row, P i = .granted row → g = .granted row ∨
      Authorized rows' row.organizationId row.clientId)
    {organizationId : Nat} {clientId : String} (backed : Backed rows P organizationId clientId) :
    Backed rows' (Function.update P i g) organizationId clientId := by
  rcases backed with authorized | ⟨j, row, granted, org, client⟩
  · exact .inl (authorized.mono stay)
  · by_cases own : j = i
    · subst own
      rcases left row granted with rfl | authorized
      · exact .inr ⟨j, row, Function.update_self .., org, client⟩
      · rw [org, client] at authorized
        exact .inl authorized
    · refine .inr ⟨j, row, ?_, org, client⟩
      rw [Function.update_of_ne own]
      exact granted

omit [DecidableEq ι] in
/-- What a thread relies on stays. -/
theorem Decision.Stands.next {g : Decision} {P' : ι → Decision} (stands : g.Stands rows P)
    (stay : DecidedStay rows rows')
    (wanted : ∀ row, g = .granted row → Wanted rows row → Wanted rows' row)
    (keep : ∀ organizationId clientId, Backed rows P organizationId clientId →
      Backed rows' P' organizationId clientId) : g.Stands rows' P' := by
  cases g with
  | read row =>
      intro approved
      refine stay row (stands approved) ?_
      rw [approved]
      exact RequestStatus.noConfusion
  | granted row => exact wanted row rfl stands
  | decided row => exact stay.approved stands
  | awaited save => exact keep _ _ stands
  | flushing save => exact keep _ _ stands
  | _ => trivial

/-- One step of one thread. -/
theorem DecisionRows.next (inv : DecisionRows rows₀ rows queue P) (stay : DecidedStay rows rows')
    (left : ∀ row, P i = .granted row → g = .granted row ∨
      Authorized rows' row.organizationId row.clientId)
    (wanted : ∀ j row, P j = .granted row → Wanted rows row → Wanted rows' row)
    (consents : ∀ c, OrgRow.consent c ∈ rows' → c.revoked = false → OrgRow.consent c ∈ rows ∨
      Active rows c ∨ Backed rows' (Function.update P i g) c.organizationId c.clientId)
    (saves : ∀ save ∈ queue', save ∈ queue ∨
      Backed rows' (Function.update P i g) save.organizationId save.clientId)
    (own : g.Stands rows' (Function.update P i g)) :
    DecisionRows rows₀ rows' queue' (Function.update P i g) := by
  refine ⟨fun c mem active => ?_, fun save mem => ?_, fun j => ?_⟩
  · have old : ∀ c', OrgRow.consent c' ∈ rows → c'.revoked = false →
        c'.organizationId = c.organizationId → c'.clientId = c.clientId →
        c'.scopeName = c.scopeName → Active rows₀ c ∨
          Backed rows' (Function.update P i g) c.organizationId c.clientId := by
      intro c' there active' org client scope
      rcases inv.consents c' there active'
        with ⟨c₀, there₀, org₀, client₀, scope₀, active₀⟩ | backed
      · exact .inl ⟨c₀, there₀, org₀.trans org, client₀.trans client, scope₀.trans scope, active₀⟩
      · rw [org, client] at backed
        exact .inr (backed.next stay left)
    rcases consents c mem active with there | ⟨c', there, org, client, scope, active'⟩ | backed
    · exact old c there active rfl rfl rfl
    · exact old c' there active' org client scope
    · exact .inr backed
  · rcases saves save mem with there | backed
    · exact (inv.queue save there).next stay left
    · exact backed
  · by_cases eq : j = i
    · subst eq
      rw [Function.update_self]
      exact own
    · rw [Function.update_of_ne eq]
      exact (inv.stands j).next stay (wanted j) fun org client backed => backed.next stay left

/-- The rows stay, and the thread was not between its first consent and its flip. -/
theorem DecisionRows.move (inv : DecisionRows rows₀ rows queue P)
    (left : ∀ row, P i = .granted row → g = .granted row)
    (own : (∀ o c, Backed rows P o c → Backed rows (Function.update P i g) o c) →
      g.Stands rows (Function.update P i g)) :
    DecisionRows rows₀ rows queue (Function.update P i g) := by
  have left' : ∀ row, P i = .granted row → g = .granted row ∨
      Authorized rows row.organizationId row.clientId := fun row granted => .inl (left row granted)
  exact inv.next .refl left' (fun _ _ _ wanted => wanted) (fun c mem _ => .inl mem)
    (fun save mem => .inl mem) (own fun o c backed => backed.next .refl left')

end Rows

section Events

variable {ι : Type} [DecidableEq ι]

/-- Where the events of a thread have brought it. -/
def decision (i : ι) (log : List (OrgEvent ι)) : Decision :=
  track Decision.next .idle i log

/-- The request that a rejection or a withdrawal has changed. -/
def refuses : (o : OrgOp) → OrgSig.Res o → Option Nat
  | .statement (.decidePending id .rejected), some (_ + 1) => some id
  | .statement (.withdrawOwnPending _ id _), some (_ + 1) => some id
  | _, _ => none

/-- The event saves a consent, or detaches the save. -/
def grants : OrgEvent ι → Bool
  | ⟨_, _, .commit, true, _⟩ => true
  | ⟨_, _, .detach _, _, _⟩ => true
  | _ => false

/-- Whether a flip to approved was executed. -/
def flipped : (o : OrgOp) → OrgSig.Res o → Option Bool
  | .statement (.decidePending _ .approved), done => some done.isSome
  | _, _ => none

/-- The first consent of an approval is committed while its request is pending or approved. -/
def SavedInTime (e : OrgEvent ι) (log : List (OrgEvent ι)) : Prop :=
  ∀ row, decision e.thread log = .saving row → grants e = true → Wanted e.pre.db.rows row

/-- A request is not refused between the first consent of an approval and its flip. -/
def RefusedInTime (e : OrgEvent ι) (log : List (OrgEvent ι)) : Prop :=
  ∀ id, refuses e.op e.res = some id → ∀ j row, decision j log = .granted row → row.id = id →
    Authorized e.pre.db.rows row.organizationId row.clientId

/-- An approval flips a request that is approved already, or it is pending and the statement
does not fail. -/
def FlippedInTime (e : OrgEvent ι) (log : List (OrgEvent ι)) : Prop :=
  ∀ done, flipped e.op e.res = some done → ∀ row, (decision e.thread log).flips = some row →
    withStatus row .approved ∈ e.pre.db.rows ∨
      withStatus row .pending ∈ e.pre.db.rows ∧ done = true

/-- The condition on a step, on the log before it. -/
structure DecisionsApart (e : OrgEvent ι) (log : List (OrgEvent ι)) : Prop where
  saved : SavedInTime e log
  refused : RefusedInTime e log
  flipped : FlippedInTime e log

/-! ## Steps -/

/-- A call that has granted has granted at every later stage. -/
theorem Decision.HasGranted.next {g : Decision} (granted : g.HasGranted) (o : OrgOp)
    (r : OrgSig.Res o) : (g.next o r).HasGranted := by
  cases g with
  | granted row =>
      unfold Decision.next
      split <;> trivial
  | decided row =>
      unfold Decision.next
      split <;> trivial
  | flushed =>
      unfold Decision.next
      split <;> trivial
  | _ => exact granted.elim

/-- What the calls keep of the tables. -/
structure DecisionShared (rows₀ : List OrgRow) (w : OrgWorld ι) : Prop where
  inTxn : ∀ j, (w.db.db.txn j).isSome = (decision j w.log).inTxn
  /-- Only the consent of the approval, or of the save, is buffered. -/
  writes : ∀ j t, w.db.db.txn j = some t → ∀ c ∈ t.changes, ∀ r, c.new = some r →
    ∃ k, r = .consent k ∧ (decision j w.log).Writes k.organizationId k.clientId
  takes : ∀ j t, w.db.db.txn j = some t → ∀ c ∈ t.changes, ∀ r, c.old = some r →
    r.kind = .consents
  rows : DecisionRows rows₀ w.db.db.rows w.db.queue (fun j => decision j w.log)
  granted : ∀ e ∈ w.log, grants e = true → (decision e.thread w.log).HasGranted
  kept : ∀ e ∈ w.log, DecidedStay e.pre.db.rows w.db.db.rows

variable {rows₀ : List OrgRow} {site : OrgSite} {i : ι} {w : OrgWorld ι} {s' : OrgStore ι}
  {o : OrgOp} {r : OrgSig.Res o} {m : OrgMoment}

/-- A step moves the stage of its own call only. -/
theorem decision_push :
    (fun j => decision j (w.push i o r s').log) =
      Function.update (fun j => decision j w.log) i ((decision i w.log).next o r) :=
  track_push

theorem decision_own :
    decision i (w.push i o r s').log = (decision i w.log).next o r :=
  track_own

theorem decision_other {j : ι} (ne : j ≠ i) :
    decision j (w.push i o r s').log = decision j w.log :=
  track_other ne

theorem DecidedStay.trans {rows rows' rows'' : List OrgRow} (stay : DecidedStay rows rows')
    (stay' : DecidedStay rows' rows'') : DecidedStay rows rows'' :=
  fun q mem decided => stay' q (stay q mem decided) decided

/-- What a step has to show. -/
theorem DecisionShared.push (shared : DecisionShared rows₀ w)
    (others : ∀ j, j ≠ i → s'.db.txn j = w.db.db.txn j)
    (inTxn : (s'.db.txn i).isSome = ((decision i w.log).next o r).inTxn)
    (changes : ∀ t, s'.db.txn i = some t → ∀ c ∈ t.changes,
      (∀ r', c.new = some r' → ∃ k, r' = .consent k ∧
        ((decision i w.log).next o r).Writes k.organizationId k.clientId) ∧
      ∀ r', c.old = some r' → r'.kind = .consents)
    (granted : grants (⟨i, w.tick, o, r, w.db⟩ : OrgEvent ι) = true →
      ((decision i w.log).next o r).HasGranted)
    (stay : DecidedStay w.db.db.rows s'.db.rows)
    (rows : DecisionRows rows₀ s'.db.rows s'.queue
      (Function.update (fun j => decision j w.log) i ((decision i w.log).next o r))) :
    DecisionShared rows₀ (w.push i o r s') := by
  refine ⟨fun j => ?_, fun j t txn => ?_, fun j t txn => ?_, ?_, fun e mem grant => ?_,
    fun e mem => ?_⟩
  · by_cases own : j = i
    · subst own
      rw [decision_own]
      exact inTxn
    · rw [decision_other own, World.push_db, others j own]
      exact shared.inTxn j
  · by_cases own : j = i
    · subst own
      rw [decision_own]
      exact fun c mem => (changes t txn c mem).1
    · rw [World.push_db, others j own] at txn
      rw [decision_other own]
      exact shared.writes j t txn
  · by_cases own : j = i
    · subst own
      exact fun c mem => (changes t txn c mem).2
    · rw [World.push_db, others j own] at txn
      exact shared.takes j t txn
  · rw [decision_push]
    exact rows
  · rcases List.mem_cons.mp mem with rfl | mem
    · rw [decision_own]
      exact granted grant
    · by_cases own : e.thread = i
      · have before := shared.granted e mem grant
        rw [own] at before ⊢
        rw [decision_own]
        exact before.next o r
      · rw [decision_other own]
        exact shared.granted e mem grant
  · rcases List.mem_cons.mp mem with rfl | mem
    · exact stay
    · exact (shared.kept e mem).trans stay

/-- A call outside its transaction has none open. -/
theorem DecisionShared.closed (shared : DecisionShared rows₀ w)
    (out : (decision i w.log).inTxn = false) : w.db.db.txn i = none := by
  have none := (shared.inTxn i).trans out
  exact Option.not_isSome_iff_eq_none.mp (by rw [none]; exact Bool.false_ne_true)

/-- A call inside its transaction has one open. -/
theorem DecisionShared.open_ (shared : DecisionShared rows₀ w)
    (inside : (decision i w.log).inTxn = true) : ∃ t, w.db.db.txn i = some t :=
  Option.isSome_iff_exists.mp ((shared.inTxn i).trans inside)

/-- What stands behind the stage of a call. -/
theorem DecisionShared.standing (shared : DecisionShared rows₀ w) {g : Decision}
    (eq : decision i w.log = g) : g.Stands w.db.db.rows (fun j => decision j w.log) :=
  eq ▸ shared.rows.stands i

/-- A step that leaves the tables and the saves alone, after which no transaction is open. -/
theorem DecisionShared.out (shared : DecisionShared rows₀ w) (rows : s'.db.rows = w.db.db.rows)
    (queue : s'.queue = w.db.queue) (others : ∀ j, j ≠ i → s'.db.txn j = w.db.db.txn j)
    (none : s'.db.txn i = none) (out : ((decision i w.log).next o r).inTxn = false)
    (quiet : grants (⟨i, w.tick, o, r, w.db⟩ : OrgEvent ι) = true →
      ((decision i w.log).next o r).HasGranted)
    (left : ∀ row, decision i w.log = .granted row →
      (decision i w.log).next o r = .granted row)
    (own : (∀ org client, Backed w.db.db.rows (fun j => decision j w.log) org client →
        Backed w.db.db.rows (Function.update (fun j => decision j w.log) i
          ((decision i w.log).next o r)) org client) →
      ((decision i w.log).next o r).Stands w.db.db.rows
        (Function.update (fun j => decision j w.log) i ((decision i w.log).next o r))) :
    DecisionShared rows₀ (w.push i o r s') := by
  refine shared.push others ?_ ?_ quiet ?_ ?_
  · rw [none, out]
    rfl
  · intro t txn
    rw [none] at txn
    cases txn
  · rw [rows]
    exact .refl
  · rw [rows, queue]
    exact shared.rows.move left own

/-- A read that leaves the thread where it is. -/
theorem decisions_stay (shared : DecisionShared rows₀ w) (read : Reads o)
    (out : (decision i w.log).inTxn = false) (done : execOrg site m i o w.db = some (r, s'))
    (same : (decision i w.log).next o r = decision i w.log)
    (quiet : grants (⟨i, w.tick, o, r, w.db⟩ : OrgEvent ι) = false) :
    DecisionShared rows₀ (w.push i o r s') := by
  cases exec_read read done (shared.closed out)
  refine shared.out rfl rfl (fun _ _ => rfl) (shared.closed out) ?_ ?_ ?_ ?_
  · rw [same]
    exact out
  · rw [quiet]
    exact fun bad => by cases bad
  · rw [same]
    exact fun _ granted => granted
  · rw [same]
    intro _
    have stands := shared.rows.stands i
    rwa [Function.update_eq_self]

/-- **The look-up**: the call knows the request from then on. -/
theorem decisions_lookUp (shared : DecisionShared rows₀ w) {id : Nat}
    {r : Option (Option OrganizationConsentRequest)} (out : (decision i w.log).inTxn = false)
    (done : execOrg site m i (.query (.request id)) w.db = some (r, s')) :
    DecisionShared rows₀ (w.push i (.query (.request id)) r s') := by
  rcases r with _ | _ | row
  · exact decisions_stay shared (by trivial) out done rfl rfl
  · exact decisions_stay shared (by trivial) out done rfl rfl
  cases stands : decision i w.log with
  | idle =>
      have there : OrgRow.request row ∈ w.db.db.rows := by
        rcases exec_query done with ⟨bad, _⟩ | ⟨eq, _⟩
        · cases bad
        rw [TxnDb.view_of_none (shared.closed out)] at eq
        have found : (requests.of w.db.db.rows).find? (fun q => q.id = id) = some row :=
          (Option.some.inj eq).symm
        exact requests.mem_of.mp (List.mem_of_find?_eq_some found)
      cases exec_read (by trivial) done (shared.closed out)
      have becomes : (decision i w.log).next (.query (.request id)) (some (some row)) =
          .read row := by
        rw [stands]
        rfl
      refine shared.out rfl rfl (fun _ _ => rfl) (shared.closed out) ?_ (fun bad => by cases bad)
        ?_ ?_
      · rw [becomes]
        rfl
      · intro row' granted
        cases stands.symm.trans granted
      · rw [becomes]
        exact fun _ _ => there
  | _ =>
      refine decisions_stay shared (by trivial) out done ?_ rfl
      rw [stands]
      rfl

/-- A transaction is opened for the first consent. -/
theorem decisions_begin (shared : DecisionShared rows₀ w) {begun : Bool}
    (fits : (decision i w.log).Fits .newTransaction)
    (done : execOrg site m i .newTransaction w.db = some (begun, s')) :
    DecisionShared rows₀ (w.push i .newTransaction begun s') := by
  have out : (decision i w.log).inTxn = false := by
    rcases fits with ⟨row, stands⟩ | ⟨save, stands⟩
    · rw [stands]
      rfl
    · rw [stands]
      rfl
  have left : ∀ row, decision i w.log = .granted row →
      (decision i w.log).next .newTransaction begun = .granted row := by
    intro row granted
    rcases fits with ⟨row, stands⟩ | ⟨save, stands⟩
    · cases stands.symm.trans granted
    · cases stands.symm.trans granted
  rcases exec_newTransaction done with ⟨rfl, rfl⟩ | ⟨rfl, rfl⟩
  · refine shared.out rfl rfl (fun _ _ => rfl) (shared.closed out) ?_ (fun bad => by cases bad)
      left ?_
    · rcases fits with ⟨row, stands⟩ | ⟨save, stands⟩
      · rw [stands]
        rfl
      · rw [stands]
        rfl
    · rcases fits with ⟨row, stands⟩ | ⟨save, stands⟩
      · rw [stands]
        exact fun _ => trivial
      · rw [stands]
        exact fun _ => trivial
  · have begun : (w.db.db.start i).txn i = some {} := Function.update_self ..
    refine shared.push (fun j ne => Function.update_of_ne ne _ _) ?_ ?_ (fun bad => by cases bad)
      .refl ?_
    · dsimp only
      rw [begun]
      rcases fits with ⟨row, stands⟩ | ⟨save, stands⟩
      · rw [stands]
        rfl
      · rw [stands]
        rfl
    · intro t txn c mem
      cases begun.symm.trans txn
      cases mem
    · refine shared.rows.move left fun keep => ?_
      rcases fits with ⟨row, stands⟩ | ⟨save, stands⟩
      · rw [stands]
        trivial
      · have backed := shared.rows.stands i
        rw [stands] at backed keep ⊢
        exact keep _ _ backed

/-- A step that ends the transaction without a commit. -/
theorem decisions_fail (shared : DecisionShared rows₀ w) (eq : s' = w.db.fail i)
    (failed : (decision i w.log).next o r = .failed)
    (left : ∀ row, decision i w.log ≠ .granted row)
    (quiet : grants (⟨i, w.tick, o, r, w.db⟩ : OrgEvent ι) = false) :
    DecisionShared rows₀ (w.push i o r s') := by
  subst eq
  refine shared.out rfl rfl (fun j ne => Function.update_of_ne ne _ _)
    (Function.update_self ..) ?_ ?_ (fun row granted => absurd granted (left row)) ?_
  · rw [failed]
    rfl
  · rw [quiet]
    exact fun bad => by cases bad
  · rw [failed]
    exact fun _ => trivial

/-- Its advisory lock is taken. -/
theorem decisions_lock (shared : DecisionShared rows₀ w) {key : String} {held : Bool}
    (fits : (decision i w.log).Fits (.advisoryLock key))
    (done : execOrg site m i (.advisoryLock key) w.db = some (held, s')) :
    DecisionShared rows₀ (w.push i (.advisoryLock key) held s') := by
  rcases exec_advisoryLock done with ⟨rfl, eq⟩ | ⟨rfl, _, eq⟩
  · rcases fits with ⟨row, stands⟩ | ⟨save, stands⟩
    · refine decisions_fail shared eq ?_ ?_ rfl
      · rw [stands]
        rfl
      · intro row' granted
        cases stands.symm.trans granted
    · refine decisions_fail shared eq ?_ ?_ rfl
      · rw [stands]
        rfl
      · intro row' granted
        cases stands.symm.trans granted
  · have same : (decision i w.log).next (.advisoryLock key) true = decision i w.log := by
      rcases fits with ⟨row, stands⟩ | ⟨save, stands⟩
      · rw [stands]
        rfl
      · rw [stands]
        rfl
    have inside : (decision i w.log).inTxn = true := by
      rcases fits with ⟨row, stands⟩ | ⟨save, stands⟩
      · rw [stands]
        rfl
      · rw [stands]
        rfl
    obtain ⟨t, txn⟩ := shared.open_ inside
    have took : s'.db.txn = Function.update w.db.db.txn i
        (some { t with locks := t.locks ++ [{ key := .advisory (site.hashtext key) }] }) := by
      rw [eq]
      simp only [TxnDb.take, txn]
    have rows : s'.db.rows = w.db.db.rows := by
      rw [eq]
      simp only [TxnDb.take, txn]
    have queue : s'.queue = w.db.queue := by
      rw [eq]
    refine shared.push (fun j ne => ?_) ?_ ?_ (fun bad => by cases bad) ?_ ?_
    · rw [took, Function.update_of_ne ne]
    · rw [took, Function.update_self, same, inside]
      rfl
    · intro u txn' c mem
      rw [took, Function.update_self] at txn'
      cases txn'
      rw [same]
      exact ⟨shared.writes i t txn c mem, shared.takes i t txn c mem⟩
    · rw [rows]
      exact .refl
    · rw [rows, queue, same, Function.update_eq_self]
      exact shared.rows

/-- What the statement that saves a consent puts in and takes out. -/
theorem upsertConsent_changes {organizationId : Nat} {clientId scope : String}
    {grantedBy : Int32} {serial n : Nat} {rows : List OrgRow} {changes : List OrgChange}
    (eval : (OrgStatement.upsertConsent organizationId clientId scope grantedBy).eval serial rows =
      some (n, changes)) :
    ∀ c ∈ changes, (∀ r, c.new = some r → ∃ k, r = .consent k ∧
      k.organizationId = organizationId ∧ k.clientId = clientId) ∧
      ∀ r, c.old = some r → r.kind = .consents := by
  intro c mem
  refine ⟨?_, fun r old => kind_of_touched eval c mem r (.inl old)⟩
  simp only [OrgStatement.eval] at eval
  split at eval
  · cases eval
    obtain ⟨k, _, same, rfl⟩ := consents.mem_changes.mp mem
    intro r put
    cases put
    have same := of_decide_eq_true same
    exact ⟨_, rfl, same.1, same.2.1⟩
  · cases eval
    cases List.mem_singleton.mp mem
    intro r put
    cases put
    exact ⟨_, rfl, rfl, rfl⟩

/-- **The consent is buffered**. -/
theorem decisions_upsert (shared : DecisionShared rows₀ w) {organizationId : Nat}
    {clientId scope : String} {grantedBy : Int32} {done? : Option Nat}
    (fits : (decision i w.log).Fits
      (.statement (.upsertConsent organizationId clientId scope grantedBy)))
    (done : execOrg site m i (.statement (.upsertConsent organizationId clientId scope grantedBy))
      w.db = some (done?, s')) :
    DecisionShared rows₀
      (w.push i
        (.statement (.upsertConsent organizationId clientId scope grantedBy)) done? s') := by
  obtain ⟨place, own⟩ := fits
  have left : ∀ row, decision i w.log ≠ .granted row := by
    intro row granted
    rcases place with ⟨row, stands⟩ | ⟨save, stands⟩
    · cases stands.symm.trans granted
    · cases stands.symm.trans granted
  rcases exec_statement done with ⟨rfl, eq⟩ | ⟨n, changes, rfl, executed⟩
  · refine decisions_fail shared eq ?_ left rfl
    rcases place with ⟨row, stands⟩ | ⟨save, stands⟩
    · rw [stands]
      rfl
    · rw [stands]
      rfl
  · have inside : (decision i w.log).inTxn = true := by
      rcases place with ⟨row, stands⟩ | ⟨save, stands⟩
      · rw [stands]
        rfl
      · rw [stands]
        rfl
    have writes : ∀ org client, (decision i w.log).Writes org client →
        ((decision i w.log).next (.statement (.upsertConsent organizationId clientId scope
          grantedBy)) (some n)).Writes org client := by
      intro org client
      rcases place with ⟨row, stands⟩ | ⟨save, stands⟩
      · rw [stands]
        exact id
      · rw [stands]
        exact id
    obtain ⟨t, txn⟩ := shared.open_ inside
    obtain ⟨txn', rows, moves⟩ := executed.buffered txn
    have queue : s'.queue = w.db.queue := by
      rw [executed.eq]
    refine shared.push moves.others ?_ ?_ (fun bad => by cases bad) ?_ ?_
    · rw [txn']
      rcases place with ⟨row, stands⟩ | ⟨save, stands⟩
      · rw [stands]
        rfl
      · rw [stands]
        rfl
    · intro u txn'' c mem
      cases txn'.symm.trans txn''
      rcases List.mem_append.mp mem with old | new
      · refine ⟨fun r put => ?_, shared.takes i t txn c old⟩
        obtain ⟨k, eq, kind⟩ := shared.writes i t txn c old r put
        exact ⟨k, eq, writes _ _ kind⟩
      · obtain ⟨puts, olds⟩ := upsertConsent_changes executed.eval c new
        refine ⟨fun r put => ?_, olds⟩
        obtain ⟨k, eq, rfl, rfl⟩ := puts r put
        exact ⟨k, eq, writes _ _ own⟩
    · rw [rows]
      exact .refl
    · rw [rows, queue]
      refine shared.rows.move (fun row granted => absurd granted (left row)) fun keep => ?_
      rcases place with ⟨row, stands⟩ | ⟨save, stands⟩
      · rw [stands]
        trivial
      · have backed := shared.rows.stands i
        rw [stands] at backed keep ⊢
        exact keep _ _ backed

/-- **The consent is written**, while the request is still open. -/
theorem decisions_commit (shared : DecisionShared rows₀ w) {committed : Bool}
    (fits : (decision i w.log).Fits .commit)
    (done : execOrg site m i .commit w.db = some (committed, s'))
    (inTime : SavedInTime ⟨i, w.tick, .commit, committed, w.db⟩ w.log) :
    DecisionShared rows₀ (w.push i .commit committed s') := by
  have left : ∀ row, decision i w.log ≠ .granted row := by
    intro row granted
    rcases fits with ⟨row, stands⟩ | ⟨save, stands⟩
    · cases stands.symm.trans granted
    · cases stands.symm.trans granted
  rcases exec_commit done with ⟨rfl, eq⟩ | ⟨rfl, rfl⟩
  · refine decisions_fail shared eq ?_ left rfl
    rcases fits with ⟨row, stands⟩ | ⟨save, stands⟩
    · rw [stands]
      rfl
    · rw [stands]
      rfl
  have inside : (decision i w.log).inTxn = true := by
    rcases fits with ⟨row, stands⟩ | ⟨save, stands⟩
    · rw [stands]
      rfl
    · rw [stands]
      rfl
  obtain ⟨t, txn⟩ := shared.open_ inside
  have rows : (w.db.db.finish i).rows = applyAll t.changes w.db.db.rows := TxnDb.view_of_some txn
  have requestsStay : ∀ q, OrgRow.request q ∈ w.db.db.rows →
      OrgRow.request q ∈ applyAll t.changes w.db.db.rows := by
    intro q mem
    refine mem_applyAll mem fun c change taken => ?_
    cases shared.takes i t txn c change _ taken
  have stay : DecidedStay w.db.db.rows (applyAll t.changes w.db.db.rows) :=
    fun q mem _ => requestsStay q mem
  have wantedStay : ∀ row, Wanted w.db.db.rows row →
      Wanted (applyAll t.changes w.db.db.rows) row := by
    rintro row (pending | authorized)
    · exact .inl (requestsStay _ pending)
    · exact .inr (authorized.mono stay)
  have ended : (w.db.db.finish i).txn i = none := Function.update_self ..
  refine shared.push (fun j ne => Function.update_of_ne ne _ _) ?_ ?_ ?_ ?_ ?_
  · dsimp only
    rw [ended]
    rcases fits with ⟨row, stands⟩ | ⟨save, stands⟩
    · rw [stands]
      rfl
    · rw [stands]
      rfl
  · intro u txn'
    cases ended.symm.trans txn'
  · intro _
    rcases fits with ⟨row, stands⟩ | ⟨save, stands⟩
    · rw [stands]
      trivial
    · rw [stands]
      trivial
  · rw [rows]
    exact stay
  · rw [rows]
    refine shared.rows.next stay (fun row granted => absurd granted (left row))
      (fun j row _ wanted => wantedStay row wanted) (fun c mem active => ?_)
      (fun save mem => .inl mem) ?_
    · rcases mem_of_mem_applyAll mem with there | ⟨change, changes, put⟩
      · exact .inl there
      refine .inr (.inr ?_)
      obtain ⟨k, eq, writes⟩ := shared.writes i t txn change changes _ put
      cases eq
      rcases fits with ⟨row, stands⟩ | ⟨save, stands⟩
      · rw [stands] at writes ⊢
        exact .inr ⟨i, row, Function.update_self .., writes.1, writes.2⟩
      · have backed := shared.rows.stands i
        rw [stands] at writes backed
        rw [← writes.1, ← writes.2]
        exact Backed.next (P := fun j => decision j w.log) stay
          (fun row granted => absurd granted (left row)) backed
    · rcases fits with ⟨row, stands⟩ | ⟨save, stands⟩
      · have wanted := inTime row stands rfl
        rw [stands]
        exact wantedStay row wanted
      · rw [stands]
        trivial

/-- The consents of the other scopes are sent into the background. -/
theorem decisions_detach (shared : DecisionShared rows₀ w) {save : ConsentSave} {r : Unit}
    (fits : (decision i w.log).Fits (.detach save))
    (done : execOrg site m i (.detach save) w.db = some (r, s')) :
    DecisionShared rows₀ (w.push i (.detach save) r s') := by
  obtain ⟨row, stands, org, client⟩ := fits
  cases exec_detach done
  have same : (decision i w.log).next (.detach save) r = decision i w.log := by
    rw [stands]
    rfl
  have out : (decision i w.log).inTxn = false := by
    rw [stands]
    rfl
  refine shared.push (fun _ _ => rfl) ?_ ?_ ?_ .refl ?_
  · rw [same]
    exact shared.inTxn i
  · intro t txn
    cases (shared.closed out).symm.trans txn
  · rw [same, stands]
    exact fun _ => trivial
  · rw [same, Function.update_eq_self]
    refine ⟨shared.rows.consents, fun save' mem => ?_, shared.rows.stands⟩
    rcases List.mem_append.mp mem with old | new
    · exact shared.rows.queue save' old
    · cases List.mem_singleton.mp new
      exact .inr ⟨i, row, stands, org, client⟩

/-- The background takes the next consent. -/
theorem decisions_await (shared : DecisionShared rows₀ w) {save : ConsentSave}
    (fits : (decision i w.log).Fits .awaitSave)
    (done : execOrg site m i .awaitSave w.db = some (save, s')) :
    DecisionShared rows₀ (w.push i .awaitSave save s') := by
  obtain ⟨queue, first, rfl⟩ := exec_awaitSave done
  have stands : decision i w.log = .idle := fits
  have out : (decision i w.log).inTxn = false := by
    rw [stands]
    rfl
  have becomes : (decision i w.log).next .awaitSave save = .awaited save := by
    rw [stands]
    rfl
  have left : ∀ row, decision i w.log ≠ .granted row := by
    intro row granted
    cases stands.symm.trans granted
  have saves := shared.rows.queue
  rw [first] at saves
  have keep : ∀ {org client}, Backed w.db.db.rows (fun j => decision j w.log) org client →
      Backed w.db.db.rows (Function.update (fun j => decision j w.log) i (.awaited save))
        org client :=
    fun backed => Backed.next (P := fun j => decision j w.log) .refl
      (fun row granted => absurd granted (left row)) backed
  refine shared.push (fun _ _ => rfl) ?_ ?_ (fun bad => by cases bad) .refl ?_
  · dsimp only
    rw [becomes, shared.closed out]
    rfl
  · intro t txn
    cases (shared.closed out).symm.trans txn
  · rw [becomes]
    refine shared.rows.next .refl (fun row granted => absurd granted (left row))
      (fun _ _ _ wanted => wanted) (fun c mem _ => .inl mem) (fun save' mem => .inr ?_) ?_
    · exact keep (saves save' (List.mem_cons_of_mem _ mem))
    · exact keep (saves save List.mem_cons_self)

/-! ## Statements on the requests -/

/-- They take out pending requests only. -/
theorem pending_of_taken {statement : OrgStatement} {serial n : Nat} {rows : List OrgRow}
    {changes : List OrgChange} (eval : statement.eval serial rows = some (n, changes))
    (kind : statement.kind = .requests) :
    ∀ c ∈ changes, ∀ r, c.old = some r → ∃ q, r = .request q ∧ q.status = .pending := by
  cases statement with
  | decidePending id status =>
      cases eval
      intro c mem r old
      obtain ⟨q, _, selected, rfl⟩ := requests.mem_changes.mp mem
      cases old
      exact ⟨q, rfl, (of_decide_eq_true selected).2⟩
  | resolveOtherPending organizationId clientId exceptRequestId =>
      cases eval
      intro c mem r old
      obtain ⟨q, _, selected, rfl⟩ := requests.mem_changes.mp mem
      cases old
      exact ⟨q, rfl, (of_decide_eq_true selected).2.2.1⟩
  | withdrawOwnPending organizationId requestId requesterId =>
      cases eval
      intro c mem r old
      obtain ⟨q, _, selected, rfl⟩ := requests.mem_changes.mp mem
      cases old
      exact ⟨q, rfl, (of_decide_eq_true selected).2.2.2⟩
  | _ => cases kind

/-- A statement on requests leaves decided ones as they are. -/
theorem decidedStay_of_eval {statement : OrgStatement} {serial n : Nat} {rows : List OrgRow}
    {changes : List OrgChange} (eval : statement.eval serial rows = some (n, changes))
    (kind : statement.kind = .requests) : DecidedStay rows (applyAll changes rows) := by
  intro q mem decided
  refine mem_applyAll mem fun c change taken => ?_
  obtain ⟨q', eq, pending⟩ := pending_of_taken eval kind c change _ taken
  cases eq
  exact decided pending

/-- What a flip to approved puts in stays. -/
theorem approved_of_flip {statement : OrgStatement} {serial n : Nat} {rows : List OrgRow}
    {changes : List OrgChange} (eval : statement.eval serial rows = some (n, changes))
    (kind : statement.kind = .requests) {q : OrganizationConsentRequest}
    (flip : { old := some (withStatus q .pending), new := some (withStatus q .approved) } ∈
      changes) : withStatus q .approved ∈ applyAll changes rows := by
  refine mem_applyAll_put flip rfl fun c change taken => ?_
  obtain ⟨q', eq, pending⟩ := pending_of_taken eval kind c change _ taken
  cases eq
  cases pending

/-- A statement on the requests that leaves the approved and the wanted ones. -/
theorem decisions_statement (shared : DecisionShared rows₀ w) {statement : OrgStatement}
    {done? : Option Nat} (kind : statement.kind = .requests)
    (out : (decision i w.log).inTxn = false)
    (done : execOrg site m i (.statement statement) w.db = some (done?, s'))
    (out' : ((decision i w.log).next (.statement statement) done?).inTxn = false)
    (wanted : ∀ n changes, done? = some n →
      statement.eval w.db.db.serial w.db.db.rows = some (n, changes) → ∀ j row,
      decision j w.log = .granted row → withStatus row .pending ∈ w.db.db.rows →
        Wanted (applyAll changes w.db.db.rows) row)
    (left : ∀ row, decision i w.log = .granted row →
      (decision i w.log).next (.statement statement) done? = .granted row ∨
        Authorized s'.db.rows row.organizationId row.clientId)
    (own : (∀ org client, Backed w.db.db.rows (fun j => decision j w.log) org client →
        Backed s'.db.rows (Function.update (fun j => decision j w.log) i
          ((decision i w.log).next (.statement statement) done?)) org client) →
      ((decision i w.log).next (.statement statement) done?).Stands s'.db.rows
        (Function.update (fun j => decision j w.log) i
          ((decision i w.log).next (.statement statement) done?))) :
    DecisionShared rows₀ (w.push i (.statement statement) done? s') := by
  have quiet : grants (⟨i, w.tick, .statement statement, done?, w.db⟩ : OrgEvent ι) = true →
      ((decision i w.log).next (.statement statement) done?).HasGranted := by
    intro bad
    cases bad
  have none := shared.closed out
  rcases exec_statement done with ⟨rfl, eq⟩ | ⟨n, changes, rfl, executed⟩
  · rw [fail_of_none none] at eq
    subst eq
    refine shared.push (fun _ _ => rfl) ?_ ?_ quiet .refl ?_
    · rw [none, out']
      rfl
    · intro t txn
      cases none.symm.trans txn
    · exact shared.rows.next .refl left (fun _ _ _ wanted => wanted) (fun c mem _ => .inl mem)
        (fun save mem => .inl mem) (own fun org client backed =>
          Backed.next (P := fun j => decision j w.log) .refl left backed)
  · obtain ⟨eval, rows, txn⟩ := executed.direct none
    have queue : s'.queue = w.db.queue := by
      rw [executed.eq]
    have stay : DecidedStay w.db.db.rows s'.db.rows := by
      rw [rows]
      exact decidedStay_of_eval eval kind
    refine shared.push (fun j _ => by rw [txn]) ?_ ?_ quiet stay ?_
    · rw [txn, none, out']
      rfl
    · intro t txn'
      rw [txn] at txn'
      cases none.symm.trans txn'
    · rw [queue]
      refine shared.rows.next stay left (fun j row granted wanted' => ?_)
        (fun c mem _ => .inl ?_) (fun save mem => .inl mem)
        (own fun org client backed =>
          Backed.next (P := fun j => decision j w.log) stay left backed)
      · rcases wanted' with pending | authorized
        · rw [rows]
          exact wanted n changes rfl eval j row granted pending
        · exact .inr (authorized.mono stay)
      · rw [rows] at mem
        refine (mem_of_other_kind eval ?_).mp mem
        rw [kind]
        exact OrgKind.noConfusion

/-- An open request that a statement keeps is still wanted. -/
theorem wanted_of_kept {changes : List OrgChange} {rows : List OrgRow}
    {row : OrganizationConsentRequest} (pending : withStatus row .pending ∈ rows)
    (kept : ∀ c ∈ changes, c.old ≠ some (withStatus row .pending)) :
    Wanted (applyAll changes rows) row :=
  .inl (mem_applyAll pending kept)

/-- A statement that flips a request has found it open. -/
theorem wanted_of_flip {statement : OrgStatement} {serial n : Nat} {rows : List OrgRow}
    {changes : List OrgChange} (eval : statement.eval serial rows = some (n, changes))
    (kind : statement.kind = .requests) {row : OrganizationConsentRequest}
    (pending : withStatus row .pending ∈ rows)
    (flips : ∀ c ∈ changes, c.old = some (withStatus row .pending) →
      c.new = some (withStatus row .approved)) : Wanted (applyAll changes rows) row := by
  by_cases kept : ∀ c ∈ changes, c.old ≠ some (withStatus row .pending)
  · exact wanted_of_kept pending kept
  · push Not at kept
    obtain ⟨c, mem, old⟩ := kept
    have eq :
        c = { old := some (withStatus row .pending), new := some (withStatus row .approved) } := by
      cases c
      cases old
      cases flips _ mem rfl
      rfl
    exact .inr (authorized_of_approved (approved_of_flip eval kind (eq ▸ mem)))

/-- A refusal, which spares the requests between the first consent and the flip. -/
theorem wanted_of_refusal {changes : List OrgChange} {n : Nat} {o : OrgOp}
    {r : OrgSig.Res o} (id : Nat) (stay : DecidedStay w.db.db.rows (applyAll changes w.db.db.rows))
    (count : changes.length = n) (refusal : n ≠ 0 → refuses o r = some id)
    (inTime : RefusedInTime ⟨i, w.tick, o, r, w.db⟩ w.log)
    (taken : ∀ c ∈ changes, ∀ q, c.old = some (.request q) → q.id = id) {j : ι}
    {row : OrganizationConsentRequest} (granted : decision j w.log = .granted row)
    (pending : withStatus row .pending ∈ w.db.db.rows) :
    Wanted (applyAll changes w.db.db.rows) row := by
  by_cases kept : ∀ c ∈ changes, c.old ≠ some (withStatus row .pending)
  · exact wanted_of_kept pending kept
  · push Not at kept
    obtain ⟨c, mem, old⟩ := kept
    have some_ : n ≠ 0 := by
      rw [← count]
      exact (List.length_pos_of_mem mem).ne'
    exact .inr ((inTime id (refusal some_) j row granted
      (taken c mem { row with status := .pending } old)).mono stay)

/-- **The request is flipped to approved**. -/
theorem decisions_approve (shared : DecisionShared rows₀ w) {id : Nat} {done? : Option Nat}
    (fits : (decision i w.log).Fits (.statement (.decidePending id .approved)))
    (done : execOrg site m i (.statement (.decidePending id .approved)) w.db = some (done?, s'))
    (inTime : FlippedInTime ⟨i, w.tick, .statement (.decidePending id .approved), done?, w.db⟩
      w.log) :
    DecisionShared rows₀ (w.push i (.statement (.decidePending id .approved)) done? s') := by
  obtain ⟨row, flips, rfl⟩ := fits
  have place : (decision i w.log).inTxn = false ∧
      (decision i w.log).next (.statement (.decidePending row.id .approved)) done? = .decided row ∧
      ∀ row', decision i w.log = .granted row' → row' = row := by
    cases stands : decision i w.log with
    | read row' =>
        rw [stands] at flips
        cases flips
        refine ⟨rfl, rfl, fun _ granted => ?_⟩
        cases granted
    | granted row' =>
        rw [stands] at flips
        cases flips
        refine ⟨rfl, rfl, fun _ granted => ?_⟩
        cases granted
        rfl
    | _ =>
        rw [stands] at flips
        cases flips
  obtain ⟨out, becomes, same⟩ := place
  -- the request is approved afterwards, whether or not the statement has flipped it
  have approved : withStatus row .approved ∈ s'.db.rows := by
    have none := shared.closed out
    rcases exec_statement done with ⟨rfl, rfl⟩ | ⟨n, changes, rfl, executed⟩
    · rcases inTime _ rfl row flips with approved | ⟨_, failed⟩
      · rw [fail_of_none none]
        exact approved
      · cases failed
    · obtain ⟨eval, rows, _⟩ := executed.direct none
      rw [rows]
      rcases inTime _ rfl row flips with approved | ⟨pending, _⟩
      · exact (decidedStay_of_eval eval rfl).approved approved
      · refine approved_of_flip eval rfl ?_
        cases eval
        exact requests.mem_changes.mpr ⟨_, pending, decide_eq_true ⟨rfl, rfl⟩, rfl⟩
  refine decisions_statement shared rfl out done ?_ ?_ ?_ ?_
  · rw [becomes]
    rfl
  · intro n changes _ eval j row' granted pending
    refine wanted_of_flip eval rfl pending fun c mem old => ?_
    cases eval
    obtain ⟨q, _, _, rfl⟩ := requests.mem_changes.mp mem
    cases old
    rfl
  · intro row' granted
    rw [same row' granted]
    exact .inr (authorized_of_approved approved)
  · rw [becomes]
    exact fun _ => approved

/-- The other statements on the requests leave their thread where it is. -/
theorem decisions_other (shared : DecisionShared rows₀ w) {statement : OrgStatement}
    {done? : Option Nat} (kind : statement.kind = .requests)
    (out : (decision i w.log).inTxn = false)
    (done : execOrg site m i (.statement statement) w.db = some (done?, s'))
    (same : (decision i w.log).next (.statement statement) done? = decision i w.log)
    (wanted : ∀ n changes, done? = some n →
      statement.eval w.db.db.serial w.db.db.rows = some (n, changes) → ∀ j row,
      decision j w.log = .granted row → withStatus row .pending ∈ w.db.db.rows →
        Wanted (applyAll changes w.db.db.rows) row) :
    DecisionShared rows₀ (w.push i (.statement statement) done? s') := by
  have stay : DecidedStay w.db.db.rows s'.db.rows := by
    rcases exec_statement done with ⟨rfl, rfl⟩ | ⟨n, changes, rfl, executed⟩
    · exact .refl
    · obtain ⟨eval, rows, _⟩ := executed.direct (shared.closed out)
      rw [rows]
      exact decidedStay_of_eval eval kind
  refine decisions_statement shared kind out done ?_ wanted ?_ ?_
  · rw [same]
    exact out
  · rw [same]
    exact fun row granted => .inl granted
  · rw [same]
    refine fun keep => (shared.rows.stands i).next stay (fun row granted wanted' => ?_) keep
    rcases wanted' with pending | authorized
    · rcases exec_statement done with ⟨rfl, rfl⟩ | ⟨n, changes, rfl, executed⟩
      · exact .inl pending
      · obtain ⟨eval, rows, _⟩ := executed.direct (shared.closed out)
        rw [rows]
        exact wanted n changes rfl eval i row granted pending
    · exact .inr (authorized.mono stay)

/-- **The request is flipped to rejected**. -/
theorem decisions_reject (shared : DecisionShared rows₀ w) {id : Nat} {done? : Option Nat}
    (fits : (decision i w.log).Fits (.statement (.decidePending id .rejected)))
    (done : execOrg site m i (.statement (.decidePending id .rejected)) w.db = some (done?, s'))
    (inTime : RefusedInTime ⟨i, w.tick, .statement (.decidePending id .rejected), done?, w.db⟩
      w.log) :
    DecisionShared rows₀ (w.push i (.statement (.decidePending id .rejected)) done? s') := by
  refine decisions_other shared rfl fits done rfl ?_
  rintro n changes rfl eval j row granted pending
  have stay := decidedStay_of_eval eval rfl
  cases eval
  refine wanted_of_refusal id stay rfl (fun some_ => ?_) inTime
    (fun c mem q old => ?_) granted pending
  · obtain ⟨n, eq⟩ := Nat.exists_eq_succ_of_ne_zero some_
    rw [eq]
    rfl
  · obtain ⟨q', _, selected, rfl⟩ := requests.mem_changes.mp mem
    cases old
    exact (of_decide_eq_true selected).1

/-- The request is taken back by its author. -/
theorem decisions_withdraw (shared : DecisionShared rows₀ w) {organizationId requestId : Nat}
    {requesterId : Int32} {done? : Option Nat}
    (fits : (decision i w.log).Fits
      (.statement (.withdrawOwnPending organizationId requestId requesterId)))
    (done : execOrg site m i (.statement (.withdrawOwnPending organizationId requestId requesterId))
      w.db = some (done?, s'))
    (inTime : RefusedInTime ⟨i, w.tick, .statement (.withdrawOwnPending organizationId requestId
      requesterId), done?, w.db⟩ w.log) :
    DecisionShared rows₀ (w.push i
      (.statement (.withdrawOwnPending organizationId requestId requesterId)) done? s') := by
  refine decisions_other shared rfl fits done rfl ?_
  rintro n changes rfl eval j row granted pending
  have stay := decidedStay_of_eval eval rfl
  cases eval
  refine wanted_of_refusal requestId stay rfl (fun some_ => ?_) inTime
    (fun c mem q old => ?_) granted pending
  · obtain ⟨n, eq⟩ := Nat.exists_eq_succ_of_ne_zero some_
    rw [eq]
    rfl
  · obtain ⟨q', _, selected, rfl⟩ := requests.mem_changes.mp mem
    cases old
    exact (of_decide_eq_true selected).1

/-- The other open requests of the client are resolved. -/
theorem decisions_resolve (shared : DecisionShared rows₀ w) {organizationId exceptRequestId : Nat}
    {clientId : String} {done? : Option Nat}
    (fits : (decision i w.log).Fits
      (.statement (.resolveOtherPending organizationId clientId exceptRequestId)))
    (done : execOrg site m i
      (.statement (.resolveOtherPending organizationId clientId exceptRequestId)) w.db =
        some (done?, s')) :
    DecisionShared rows₀ (w.push i
      (.statement (.resolveOtherPending organizationId clientId exceptRequestId)) done? s') := by
  refine decisions_other shared rfl fits done rfl ?_
  rintro n changes rfl eval j row granted pending
  refine wanted_of_flip eval rfl pending fun c mem old => ?_
  cases eval
  obtain ⟨q, _, _, rfl⟩ := requests.mem_changes.mp mem
  cases old
  rfl

/-- Every step that fits and is allowed. -/
theorem decisions_step :
    KeptByFitting (execOrg site) DecisionsApart Decision.next .idle Decision.Fits
      (fun _ _ _ => True) (fun w : OrgWorld ι => DecisionShared rows₀ w) := by
  intro w i o m r s' shared fits done apart
  refine ⟨trivial, ?_⟩
  cases o with
  | query q =>
      cases q with
      | request id => exact decisions_lookUp shared fits.2 done
      | _ => exact decisions_stay shared (by trivial) fits.2 done rfl rfl
  | statement statement =>
      cases statement with
      | upsertConsent organizationId clientId scope grantedBy =>
          exact decisions_upsert shared fits done
      | decidePending id status =>
          cases status with
          | pending => exact fits.1.elim
          | approved => exact decisions_approve shared fits done apart.flipped
          | rejected => exact decisions_reject shared fits done apart.refused
      | resolveOtherPending organizationId clientId exceptRequestId =>
          exact decisions_resolve shared fits done
      | withdrawOwnPending organizationId requestId requesterId =>
          exact decisions_withdraw shared fits done apart.refused
      | _ => exact fits.1.elim
  | newTransaction => exact decisions_begin shared fits done
  | advisoryLock key => exact decisions_lock shared fits done
  | commit => exact decisions_commit shared fits done apart.saved
  | rollback => exact fits.1.elim
  | detach save => exact decisions_detach shared fits done
  | awaitSave => exact decisions_await shared fits done
  | _ => exact decisions_stay shared (by trivial) fits.2 done rfl rfl

/-! ## The programs -/

/-- What an answer tells of the thread: an approval has decided, or read an approved request,
and an error is answered before anything is granted. -/
def Decision.Answers (a : OrgAnswer) (g : Decision) : Prop :=
  match a with
  | .requestApproved id _ _ => ∃ row, row.id = id ∧
      (g = .decided row ∨ g = .read row ∧ row.status = .approved)
  | .error _ _ => ¬ g.HasGranted
  | _ => True

/-- The program takes its steps in the order of the stages. -/
abbrev FollowsDecisions (p : OrgProg OrgAnswer) (g : Decision) : Prop :=
  p.Follows Decision.next Decision.Fits (fun _ _ _ => True) Decision.Answers g

/-- Each detached save follows the stages. -/
theorem detachAll_follows (row : OrganizationConsentRequest) (grantedBy : Int32)
    (scopes : List String) :
    (OrgMemberService.detachAll row.organizationId grantedBy row.clientId scopes).Follows
      Decision.next Decision.Fits (fun _ _ _ => True) (fun _ g' => g' = .granted row)
      (.granted row) := by
  induction scopes with
  | nil => rfl
  | cons scope scopes ih => exact ⟨⟨row, rfl, rfl, rfl⟩, fun _ _ => ih⟩

/-- So does the end of an approval. -/
theorem decideApproved_follows (row : OrganizationConsentRequest) (scopes : List String)
    {g : Decision} (flips : g.flips = some row)
    (becomes : ∀ done, g.next (.statement (.decidePending row.id .approved)) done = .decided row) :
    FollowsDecisions (OrgMemberService.decideApproved row scopes) g := by
  refine ⟨⟨row, flips, rfl⟩, fun done _ => ?_⟩
  rw [becomes done]
  exact ⟨rfl, fun _ _ => ⟨row, rfl, .inl rfl⟩⟩

/-- The first consent, with the state of the thread for either result. -/
theorem saveConsent_follows (save : ConsentSave) (inside written done broken : Decision)
    {g : Decision}
    (begins : g.Fits .newTransaction)
    (opens : ∀ begun : Bool, g.next .newTransaction begun = if begun then inside else broken)
    (locks : ∀ key, inside.Fits (.advisoryLock key) ∧
      ∀ held : Bool, inside.next (.advisoryLock key) held = if held then inside else broken)
    (writes : inside.Fits (.statement
        (.upsertConsent save.organizationId save.clientId save.scope save.grantedBy)) ∧
      ∀ n : Option Nat, inside.next (.statement (.upsertConsent save.organizationId save.clientId
        save.scope save.grantedBy)) n = if n.isSome then written else broken)
    (commits : written.Fits .commit ∧
      ∀ committed : Bool, written.next .commit committed = if committed then done else broken) :
    (OrgConsentRepository.saveConsent save).Follows Decision.next Decision.Fits
      (fun _ _ _ => True) (fun ok g' => g' = if ok then done else broken) g := by
  refine ⟨begins, fun begun _ => ?_⟩
  rw [opens begun]
  cases begun with
  | false => rfl
  | true =>
      rw [if_pos rfl]
      refine ⟨(locks _).1, fun held _ => ?_⟩
      rw [(locks _).2 held]
      cases held with
      | false => rfl
      | true =>
          rw [if_pos rfl]
          refine ⟨writes.1, fun n _ => ?_⟩
          rw [writes.2 n]
          cases n with
          | none => rfl
          | some n =>
              rw [Option.isSome_some, if_pos rfl]
              refine ⟨commits.1, fun committed _ => ?_⟩
              exact commits.2 committed

/-- So do the consents of an approval. -/
theorem grantScopes_follows (caller : ResolvedUser) (row : OrganizationConsentRequest)
    (scopes : List String) :
    FollowsDecisions (OrgMemberService.grantScopes caller row scopes) (.read row) := by
  cases scopes with
  | nil => exact decideApproved_follows row [] rfl fun _ => rfl
  | cons first others =>
      refine Prog.Follows.bind (saveConsent_follows _ (.opening row) (.saving row)
        (.granted row) .failed (.inl ⟨row, rfl⟩)
        (fun _ => rfl) (fun _ => ⟨.inl ⟨row, rfl⟩, fun _ => rfl⟩)
        ⟨⟨.inl ⟨row, rfl⟩, rfl, rfl⟩, fun _ => rfl⟩ ⟨.inl ⟨row, rfl⟩, fun _ => rfl⟩) ?_
      rintro ok g' rfl
      cases ok with
      | false => exact fun granted => granted
      | true =>
          refine Prog.Follows.bind (detachAll_follows row caller.id others) ?_
          rintro _ g' rfl
          exact decideApproved_follows row _ rfl fun _ => rfl

/-- So does an approval of a request that was read. -/
theorem approveRow_follows (caller : ResolvedUser) (row : OrganizationConsentRequest) :
    FollowsDecisions (OrgMemberService.approveRow caller row) (.read row) := by
  refine Prog.Follows.ite (fun _ granted => granted) fun _ => ⟨⟨trivial, rfl⟩, fun active _ => ?_⟩
  refine Prog.Follows.ite (fun both => ⟨row, rfl, .inr ⟨rfl, both.1⟩⟩) fun _ => ?_
  refine ⟨⟨trivial, rfl⟩, fun scopes _ => ?_⟩
  cases scopes with
  | none => exact fun granted => granted
  | some scopes => exact grantScopes_follows caller row scopes

/-- So does a rejection of one. -/
theorem rejectRow_follows (row : OrganizationConsentRequest) :
    FollowsDecisions (OrgMemberService.rejectRow row) (.read row) := by
  refine Prog.Follows.ite (fun _ granted => granted) fun _ => ⟨rfl, fun count _ => ?_⟩
  rcases count with _ | _ | count
  · exact fun granted => granted
  · exact fun granted => granted
  · exact trivial

/-- So does the look-up before either. -/
theorem withRequest_follows (userId slug : String) (requestId : Nat)
    {onRow : ResolvedUser → OrganizationConsentRequest → OrgProg OrgAnswer}
    (rest : ∀ caller row, FollowsDecisions (onRow caller row) (.read row)) :
    FollowsDecisions (OrgMemberService.withRequest userId slug requestId onRow) .idle := by
  refine follows_resolveCaller ⟨trivial, rfl⟩ (fun _ _ _ granted => granted) fun user _ => ?_
  refine follows_findOrgBySlug ⟨trivial, rfl⟩ (fun _ _ _ granted => granted) fun org _ => ?_
  refine follows_getMembership ⟨trivial, rfl⟩ (fun _ _ _ granted => granted) fun member => ?_
  refine Prog.Follows.ite (fun _ granted => granted) fun _ => ⟨⟨trivial, rfl⟩, fun row _ => ?_⟩
  rcases row with _ | _ | row
  · exact fun granted => granted
  · exact fun granted => granted
  · exact Prog.Follows.ite (fun _ granted => granted) fun _ => rest user row

/-- So does a withdrawal. -/
theorem withdraw_follows (userId slug : String) (requestId : Option Nat) :
    FollowsDecisions (OrgMemberService.withdrawConsentRequest userId slug requestId) .idle := by
  cases requestId with
  | none => exact fun granted => granted
  | some requestId =>
      refine follows_resolveCaller ⟨trivial, rfl⟩ (fun _ _ _ granted => granted) fun user _ => ?_
      refine follows_findOrgBySlug ⟨trivial, rfl⟩ (fun _ _ _ granted => granted) fun org _ => ?_
      refine follows_getMembership ⟨trivial, rfl⟩ (fun _ _ _ granted => granted) fun member => ?_
      cases member with
      | none => exact fun granted => granted
      | some member =>
          refine ⟨rfl, fun count _ => ?_⟩
          rcases count with _ | _ | count
          · exact fun granted => granted
          · exact fun granted => granted
          · exact trivial

/-- So does a save in the background. -/
theorem runDetachedSave_follows : FollowsDecisions runDetachedSave .idle := by
  refine ⟨rfl, fun save _ => ?_⟩
  change FollowsDecisions (OrgConsentRepository.saveConsent save >>= fun ok =>
    return .consentSaved ok) (.awaited save)
  refine Prog.Follows.bind (saveConsent_follows _ (.flushing save) (.flushing save) .flushed
    .failed (.inr ⟨save, rfl⟩)
    (fun _ => rfl) (fun _ => ⟨.inr ⟨save, rfl⟩, fun _ => rfl⟩)
    ⟨⟨.inr ⟨save, rfl⟩, rfl, rfl⟩, fun _ => rfl⟩ ⟨.inr ⟨save, rfl⟩, fun _ => rfl⟩) ?_
  exact fun ok g' _ => trivial

/-- **Every call follows the stages**. -/
theorem decisionCall_follows (site : OrgSite) (call : DecisionCall) :
    FollowsDecisions (call.call.prog site) .idle := by
  cases call with
  | approveConsentRequest userId slug requestId =>
      cases requestId with
      | none => exact fun granted => granted
      | some requestId => exact withRequest_follows userId slug requestId approveRow_follows
  | rejectConsentRequest userId slug requestId =>
      cases requestId with
      | none => exact fun granted => granted
      | some requestId =>
          exact withRequest_follows userId slug requestId fun _ row => rejectRow_follows row
  | withdrawConsentRequest userId slug requestId => exact withdraw_follows userId slug requestId
  | detachedSave => exact runDetachedSave_follows

/-- Decisions are made once, and consents are granted by approved requests only. -/
structure DecidedOnce (tables : OrgTables) (c : OrgPool ι) : Prop where
  /-- An active consent was active at the start, or some request of its organization and client
  is approved, or is pending with an approval between its first consent and the flip. -/
  consents : ∀ k, OrgRow.consent k ∈ committed c → k.revoked = false → Active tables.rows k ∨
    ∃ q, OrgRow.request q ∈ committed c ∧ q.organizationId = k.organizationId ∧
      q.clientId = k.clientId ∧ (q.status = .approved ∨ q.status = .pending ∧
        ∃ i, ∃ row, decision i c.store.log = .granted row ∧ row.id = q.id)
  decided : ∀ e ∈ c.store.log, DecidedStay e.pre.db.rows (committed c)
  /-- A call that answers success has its request approved. -/
  honest : ∀ i id clientId scopes, c.answer? i = some (.requestApproved id clientId scopes) →
    ∃ q, OrgRow.request q ∈ committed c ∧ q.id = id ∧ q.status = .approved
  /-- A call that answers an error has saved no consent. -/
  unchanged : ∀ i code detail, c.answer? i = some (.error code detail) →
    ∀ e ∈ c.store.log, e.thread = i → grants e = false

end Events

/-- Consent requests are decided once in every run in which the first consent of an approval is
committed while its request is pending or approved, no request is refused between the first
consent and the flip, and no flip of a request that is not approved yet fails or comes too
late. -/
theorem consent_requests_decided_once {ι : Type} [DecidableEq ι] (site : OrgSite)
    (tables : OrgTables) (calls : ι → DecisionCall) (sched : List (ι × OrgMoment))
    (apart : Abides DecisionsApart
      (runOrg site (fun i => (calls i).call) tables sched).store.log) :
    DecidedOnce tables (runOrg site (fun i => (calls i).call) tables sched) := by
  have start : DecisionShared tables.rows
      (startOrg site (fun i => (calls i).call) tables).store := by
    refine ⟨fun _ => rfl, ?_, ?_, ⟨fun c mem active => .inl ?_, ?_, fun _ => trivial⟩, ?_, ?_⟩
    · intro j t txn
      cases txn
    · intro j t txn
      cases txn
    · exact ⟨c, mem, rfl, rfl, rfl, active⟩
    · intro save mem
      cases mem
    · intro e mem
      cases mem
    · intro e mem
      cases mem
  obtain ⟨shared, answers⟩ := Pool.play_follows decisions_step start rfl
    (fun i => decisionCall_follows site (calls i)) sched apart
  refine ⟨fun k mem active => ?_, shared.kept, fun i id clientId scopes answered => ?_,
    fun i code detail answered e mem thread => ?_⟩
  · rcases shared.rows.consents k mem active with old | ⟨q, there, org, client, approved⟩ | flight
    · exact .inl old
    · exact .inr ⟨q, there, org, client, .inl approved⟩
    · obtain ⟨i, row, granted, org, client⟩ := flight
      rcases shared.standing granted with pending | ⟨q, there, org', client', approved⟩
      · exact .inr ⟨_, pending, org, client, .inr ⟨rfl, i, row, granted, rfl⟩⟩
      · exact .inr ⟨q, there, org'.trans org, client'.trans client, .inl approved⟩
  · obtain ⟨row, rfl, decided | ⟨read, approved⟩⟩ := answers i _ answered
    · exact ⟨_, shared.standing decided, rfl, rfl⟩
    · exact ⟨row, shared.standing read approved, rfl, approved⟩
  · cases grant : grants e with
    | false => rfl
    | true =>
        have granted := shared.granted e mem grant
        rw [thread] at granted
        exact absurd granted (answers i _ answered)

/-! ## Runs -/

section Sample

/-- The owner who decides. -/
def mia : ResolvedUser := { id := 7, email := "mia@example.org" }

/-- One known user. -/
def miaSite : OrgSite where
  users _ := some mia
  hashtext _ := 0
  hashToken := id

/-- An organization with one manager and a pending request. -/
def requestedTables : OrgTables where
  rows := [.organization { id := 1, slug := "acme" }, .member ⟨2, 1, 7, .owner⟩,
    .request { id := 3, organizationId := 1, clientId := "app", requestedBy := 9 }]
  serial := 4
  unique := by
    intro r mem r' mem' shares
    obtain ⟨ne, k, key, key'⟩ := shares
    simp only [List.mem_cons, List.not_mem_nil, or_false] at mem mem'
    rcases mem with rfl | rfl | rfl <;> rcases mem' with rfl | rfl | rfl
    all_goals first
      | exact ne rfl
      | (revert key key'; simp [OrgRow.keys]; grind)

/-- An approval and a rejection of one request. -/
def deciders : Bool → DecisionCall
  | true => .approveConsentRequest "7" "acme" (some 3)
  | false => .rejectConsentRequest "7" "acme" (some 3)

/-- A moment at which the client has one scope. -/
def withScope : OrgMoment where
  scopes _ := ["read"]

/-- The rejection comes between the first consent of the approval and its flip. -/
def rejectedSched : List (Bool × OrgMoment) :=
  List.replicate 10 (true, withScope) ++ List.replicate 5 (false, withScope) ++
    List.replicate 3 (true, withScope)

theorem consent_of_rejected_request :
    ¬ DecidedOnce requestedTables
      (runOrg miaSite (fun i => (deciders i).call) requestedTables rejectedSched) := by
  intro once
  have answered : (runOrg miaSite (fun i => (deciders i).call) requestedTables
      rejectedSched).answer? true = some (.requestApproved 3 "app" (some ["read"])) := by
    decide
  have rejected : (requests.of (committed (runOrg miaSite (fun i => (deciders i).call)
      requestedTables rejectedSched))).all (fun q => q.status ≠ .approved) = true := by
    decide
  obtain ⟨q, mem, _, approved⟩ := once.honest true _ _ _ answered
  exact of_decide_eq_true (List.all_eq_true.mp rejected q (requests.mem_of.mpr mem)) approved

/-- No request is refused, and every approval finds its request pending at its first consent and
at its flip. -/
def decisionsCheck : List (OrgEvent Bool) → Bool
  | [] => true
  | e :: log =>
    (refuses e.op e.res).isNone &&
      (match decision e.thread log with
        | .saving row => decide (withStatus row .pending ∈ e.pre.db.rows)
        | _ => true) &&
      (match flipped e.op e.res, (decision e.thread log).flips with
        | some done, some row => done && decide (withStatus row .pending ∈ e.pre.db.rows)
        | _, _ => true) &&
      decisionsCheck log

theorem decisionsApart_of_check {log : List (OrgEvent Bool)} (ok : decisionsCheck log = true) :
    Abides DecisionsApart log := by
  induction log with
  | nil => trivial
  | cons e log ih =>
      simp only [decisionsCheck, Bool.and_eq_true, Option.isNone_iff_eq_none] at ok
      obtain ⟨⟨⟨refusal, save⟩, flip⟩, rest⟩ := ok
      refine ⟨⟨fun row stands _ => ?_, fun id refused => ?_, fun done flips row stands => ?_⟩,
        ih rest⟩
      · rw [stands] at save
        exact .inl (of_decide_eq_true save)
      · cases refusal.symm.trans refused
      · rw [flips, stands, Bool.and_eq_true] at flip
        exact .inr ⟨of_decide_eq_true flip.2, flip.1⟩

/-- The approval, and then the rejection. -/
def approvedSched : List (Bool × OrgMoment) :=
  List.replicate 13 (true, withScope) ++ List.replicate 4 (false, withScope)

theorem consent_requests_decided_once_in_turn :
    DecidedOnce requestedTables
      (runOrg miaSite (fun i => (deciders i).call) requestedTables approvedSched) := by
  have once := @consent_requests_decided_once Bool _ miaSite requestedTables deciders approvedSched
  have ok : decisionsCheck (runOrg miaSite (fun i => (deciders i).call) requestedTables
      approvedSched).store.log = true := by
    decide
  exact once (decisionsApart_of_check ok)

end Sample

end Fulla
