import Fulla.Conc.Pool
import Fulla.Webauthn.WebAuthnService
import Mathlib.Data.List.Pairwise

/-!
# Clone detection under concurrency

Any number of assertions, their steps interleaved over the credentials table.  The table is
only written by the compare-and-set of the counter, and only upwards (`Upwards`), so the
counter that a step finds bounds every counter accepted before it (`Counted.before`).  What an
assertion compares with its own counter is what its look-up found (`Looked`).
-/

namespace Fulla

open Conc

namespace WebAuthnService

variable {ι : Type}

abbrev AssertionEvent (ι : Type) := Event AssertionSig ι Credentials

/-- The credentials with the log of the steps. -/
abbrev AssertionWorld (ι : Type) := World AssertionSig ι Credentials

/-- The counter with which the step accepts an assertion of the credential: the counter check
does for two zeros, the conditional update when it advances the stored one. -/
def accepted (credentialId : String) : AssertionEvent ι → Option UInt32
  | ⟨_, _, .counterCheck id stored presented, _, _⟩ =>
    if id = credentialId ∧ stored = 0 ∧ presented = 0 then some 0 else none
  | ⟨_, _, .updateSignCountIfCurrent id _ newSignCount, advanced, _⟩ =>
    if id = credentialId ∧ advanced = true then some newSignCount.toUInt32 else none
  | _ => none

theorem accepted_counterCheck {i : ι} {n : Nat} {id credentialId : String}
    {stored presented c : UInt32} {pre : Credentials} :
    accepted credentialId ⟨i, n, .counterCheck id stored presented, (), pre⟩ = some c ↔
      id = credentialId ∧ (stored = 0 ∧ presented = 0) ∧ 0 = c := by
  simp [accepted, and_assoc]

theorem accepted_update {i : ι} {n : Nat} {id credentialId : String}
    {expectedCurrent newSignCount : Int32} {advanced : Bool} {c : UInt32} {pre : Credentials} :
    accepted credentialId
        ⟨i, n, .updateSignCountIfCurrent id expectedCurrent newSignCount, advanced, pre⟩ =
          some c ↔
      id = credentialId ∧ advanced = true ∧ newSignCount.toUInt32 = c := by
  simp [accepted, and_assoc]

/-- The counters of the accepted assertions of a credential, in the order of acceptance. -/
def acceptedCounters (credentialId : String) (log : List (AssertionEvent ι)) : List UInt32 :=
  log.reverse.filterMap (accepted credentialId)

/-- A call with its presented challenge and its input. -/
abbrev AssertionCall := String × AssertionInput

variable (svc : WebAuthnService) (env : Nat → AssertionMoment)

/-- Every call at its start, over the stored credentials. -/
def assertions (calls : ι → AssertionCall) (credentials : Credentials) :
    Pool AssertionSig ι (Option WebAuthnAuthResult) (AssertionWorld ι) where
  store := .start credentials
  prog := fun i => svc.finishAuthenticationVerified (calls i).1 (calls i).2

/-- The calls after a schedule. -/
def runAssertions [DecidableEq ι] (calls : ι → AssertionCall) (credentials : Credentials)
    (sched : List ι) :
    Pool AssertionSig ι (Option WebAuthnAuthResult) (AssertionWorld ι) :=
  (svc.assertions calls credentials).run (World.handler fun n => execAssertion (env n)) sched

/-! ## The counter only goes up -/

/-- A conditional update is to a greater counter than the one it expects. -/
def Upwards : AssertionOp → Prop
  | .updateSignCountIfCurrent _ expectedCurrent newSignCount =>
    expectedCurrent.toUInt32 < newSignCount.toUInt32
  | _ => True

variable {svc env}

/-- Advancing a counter only goes up. -/
theorem advanceCounter_upwards (credentialId : String) (found : WebAuthnCredentialLookup)
    (presented : UInt32) : (svc.advanceCounter credentialId found presented).Only Upwards := by
  unfold advanceCounter
  refine Prog.Only.bind (Prog.only_call.mpr trivial) fun _ => ?_
  split
  · split
    · exact Prog.Only.bind (Prog.only_call.mpr trivial) fun _ => trivial
    · trivial
  · next fresh =>
      split
      · trivial
      · next nonzero =>
          refine Prog.Only.bind (Prog.only_call.mpr ?_) fun advanced => ?_
          · -- the stored counter is zero and the other is not, or it is the smaller one
            change found.signCount.toUInt32 < presented
            rw [UInt32.lt_iff_toNat_lt]
            simp only [gt_iff_lt, UInt32.lt_iff_toNat_lt, UInt32.le_iff_toNat_le,
              ← UInt32.toNat_inj, UInt32.toNat_zero] at fresh nonzero
            omega
          · split <;> trivial

/-- So does an assertion as a whole. -/
theorem finishAuthenticationVerified_upwards (presentedChallenge : String)
    (input : AssertionInput) :
    (svc.finishAuthenticationVerified presentedChallenge input).Only Upwards := by
  unfold finishAuthenticationVerified
  split
  · split
    · trivial
    · refine Prog.Only.bind (Prog.only_call.mpr trivial) fun found => ?_
      split
      · trivial
      · refine Prog.Only.bind (Prog.only_call.mpr trivial) fun _ => ?_
        split
        · trivial
        · exact advanceCounter_upwards ..
  · trivial

/-- The counter after the compare-and-set. -/
theorem counter_compareAndSet (credentials : Credentials) (id credentialId : String)
    (expectedCurrent newSignCount : Int32) :
    counter (compareAndSet id expectedCurrent newSignCount credentials) credentialId =
      if id = credentialId ∧ current id expectedCurrent credentials = true then
        newSignCount.toUInt32
      else counter credentials credentialId := by
  unfold counter compareAndSet current
  rw [Table.find?_updateWhere]
  cases found : credentials.find? credentialId with
  | none =>
      split
      · next met =>
          obtain ⟨same, matched⟩ := met
          rw [same, found] at matched
          simp at matched
      · rfl
  | some c =>
      have key := Table.find?_key found
      subst key
      by_cases same : id = c.credentialId
      · subst same
        simp only [found, Option.map_some, Option.bind_some, true_and, decide_eq_true_eq]
        split <;> rfl
      · have other : ¬ c.credentialId = id := fun eq => same eq.symm
        simp [same, other]

theorem counter_of_current {credentials : Credentials} {id : String} {expectedCurrent : Int32}
    (matched : current id expectedCurrent credentials = true) :
    counter credentials id = expectedCurrent.toUInt32 := by
  unfold current at matched
  unfold counter
  rw [of_decide_eq_true matched]
  rfl

/-- **A step lowers no counter**. -/
theorem counter_le_exec {m : AssertionMoment} {o : AssertionOp} (upwards : Upwards o)
    (credentials : Credentials) (credentialId : String) :
    counter credentials credentialId ≤
      counter (execAssertion m o credentials).2 credentialId := by
  cases o with
  | findByCredentialId id => exact UInt32.le_refl _
  | signatureCheck id => exact UInt32.le_refl _
  | counterCheck id stored presented => exact UInt32.le_refl _
  | cloneNotifier userId id => exact UInt32.le_refl _
  | updateSignCountIfCurrent id expectedCurrent newSignCount =>
      simp only [execAssertion]
      split
      · exact UInt32.le_refl _
      · rw [counter_compareAndSet]
        split
        · next met =>
            obtain ⟨same, matched⟩ := met
            subst same
            rw [counter_of_current matched]
            exact UInt32.le_of_lt upwards
        · exact UInt32.le_refl _

/-- What a step accepts is the counter that it leaves behind, and more than the one it found
unless it is zero. -/
theorem accepted_step {m : AssertionMoment} {i : ι} {n : Nat} {o : AssertionOp}
    (upwards : Upwards o) {credentials : Credentials} {credentialId : String} {c : UInt32}
    (accepts : accepted credentialId
      ⟨i, n, o, (execAssertion m o credentials).1, credentials⟩ = some c) :
    c = 0 ∨ counter credentials credentialId < c ∧
      counter (execAssertion m o credentials).2 credentialId = c := by
  cases o with
  | findByCredentialId id => cases accepts
  | signatureCheck id => cases accepts
  | cloneNotifier userId id => cases accepts
  | counterCheck id stored presented =>
      obtain ⟨_, _, zero⟩ := accepted_counterCheck.mp accepts
      exact .inl zero.symm
  | updateSignCountIfCurrent id expectedCurrent newSignCount =>
      obtain ⟨same, advanced, rfl⟩ := accepted_update.mp accepts
      subst same
      simp only [execAssertion] at advanced ⊢
      split at advanced
      · cases advanced
      · next served =>
          simp only [Bool.and_eq_true] at advanced
          right
          rw [if_neg served, counter_compareAndSet, if_pos ⟨rfl, advanced.1⟩,
            counter_of_current advanced.1]
          exact ⟨upwards, rfl⟩

/-- The accepted counters of a credential against the table. -/
structure Counted (credentialId : String) (w : AssertionWorld ι) : Prop where
  upwards : ∀ e ∈ w.log, Upwards e.op
  bound : ∀ e ∈ w.log, ∀ c, accepted credentialId e = some c → c ≤ counter w.db credentialId
  increasing : w.log.Pairwise fun e e' => ∀ c, accepted credentialId e = some c → c ≠ 0 →
    ∀ c', accepted credentialId e' = some c' → c' < c
  before : w.log.Pairwise fun e e' => ∀ c, accepted credentialId e' = some c →
    c ≤ counter e.pre credentialId

/-- The accepted counters after a step. -/
theorem counted_step {credentialId : String} {w : AssertionWorld ι} (inv : Counted credentialId w)
    {i : ι} {o : AssertionOp} (upwards : Upwards o) :
    Counted credentialId (World.handler (fun n => execAssertion (env n)) i o w).2 := by
  have up := counter_le_exec (m := env w.tick) upwards w.db credentialId
  refine ⟨?_, ?_, ?_, ?_⟩
  · intro e mem
    rcases List.mem_cons.mp mem with rfl | old
    · exact upwards
    · exact inv.upwards e old
  · intro e mem c accepts
    rw [World.handler_db]
    rcases List.mem_cons.mp mem with rfl | old
    · rcases accepted_step upwards accepts with zero | ⟨_, same⟩
      · subst zero
        exact UInt32.zero_le
      · exact same ▸ UInt32.le_refl _
    · exact UInt32.le_trans (inv.bound e old c accepts) up
  · refine List.pairwise_cons.mpr ⟨?_, inv.increasing⟩
    intro e mem c accepts nonzero c' accepts'
    rcases accepted_step upwards accepts with zero | ⟨lt, _⟩
    · exact absurd zero nonzero
    · exact UInt32.lt_of_le_of_lt (inv.bound e mem c' accepts') lt
  · exact List.pairwise_cons.mpr ⟨fun e mem c accepts => inv.bound e mem c accepts, inv.before⟩

/-- The accepted counters after a run. -/
theorem run_counted [DecidableEq ι] (calls : ι → AssertionCall) (credentials : Credentials)
    (sched : List ι)
    (credentialId : String) :
    Counted credentialId (svc.runAssertions env calls credentials sched).store := by
  refine Pool.run_only (P := Upwards) (J := Counted credentialId) ?_
    (fun i => finishAuthenticationVerified_upwards ..)
    (fun i o w upwards inv => counted_step inv upwards) sched
  refine ⟨?_, ?_, List.Pairwise.nil, List.Pairwise.nil⟩
  · intro e mem
    cases mem
  · intro e mem
    cases mem

/-! ## What an assertion goes by -/

/-- How far a call has come. -/
inductive Stage where
  | fresh
  | looked (credentialId : String) (stored : UInt32)
  | accepted (credentialId : String) (counter : UInt32)

/-- Whatever `thread` has looked up was the credential `credentialId`, at the counter
`stored`. -/
def Looked (log : List (AssertionEvent ι)) (thread : ι) (credentialId : String)
    (stored : UInt32) : Prop :=
  ∀ l ∈ log, l.thread = thread → ∀ id, l.op = .findByCredentialId id →
    id = credentialId ∧ counter l.pre id = stored

/-- The log against the stages of the calls. -/
structure Traced (w : AssertionWorld ι) (γ : ι → Stage) : Prop where
  fresh : ∀ i, γ i = .fresh → ∀ e ∈ w.log, e.thread ≠ i
  looked : ∀ i id stored, γ i = .looked id stored → Looked w.log i id stored
  checked : ∀ z ∈ w.log, ∀ id stored presented, z.op = .counterCheck id stored presented →
    Looked w.log z.thread id stored
  accepted : ∀ i id c, γ i = .accepted id c →
    ∃ e ∈ w.log, e.thread = i ∧ WebAuthnService.accepted id e = some c

theorem Looked.cons {log : List (AssertionEvent ι)} {thread : ι} {credentialId : String}
    {stored : UInt32} (looked : Looked log thread credentialId stored) {e : AssertionEvent ι}
    (other : e.thread = thread → ∀ id, e.op ≠ .findByCredentialId id) :
    Looked (e :: log) thread credentialId stored := by
  intro l mem same id found
  rcases List.mem_cons.mp mem with rfl | old
  · exact absurd found (other same id)
  · exact looked l old same id found

theorem find_signCount {m : AssertionMoment} {credentials : Credentials} {id : String}
    {found : WebAuthnCredentialLookup}
    (answer : (execAssertion m (.findByCredentialId id) credentials).1 = some found) :
    found.signCount.toUInt32 = counter credentials id := by
  obtain ⟨_, _, answer⟩ := Option.bind_eq_some_iff.mp answer
  obtain ⟨c, stored, answer⟩ := Option.bind_eq_some_iff.mp answer
  obtain ⟨publicSub, _, eq⟩ := Option.bind_eq_some_iff.mp answer
  cases eq
  simp only [counter, stored, Option.bind_some]

section Threads

variable [DecidableEq ι] {w : AssertionWorld ι} {γ : ι → Stage} {i : ι}

/-- The first step of a call is its only look-up. -/
theorem traced_find (inv : Traced w γ) (own : γ i = .fresh) (id : String) :
    Traced (World.handler (fun n => execAssertion (env n)) i (.findByCredentialId id) w).2
      (Function.update γ i (.looked id (counter w.db id))) := by
  have absent := inv.fresh i own
  have others : ∀ {j : ι} {id' : String} {stored : UInt32} {e : AssertionEvent ι}, j ≠ i →
      e.thread = i → Looked w.log j id' stored → Looked (e :: w.log) j id' stored :=
    fun ne mine looked => looked.cons fun same => absurd (same.symm.trans mine) ne
  refine ⟨?_, ?_, ?_, ?_⟩
  · intro j own' e mem
    by_cases eq : j = i
    · subst eq
      simp only [Function.update_self] at own'
      cases own'
    · rw [Function.update_of_ne eq] at own'
      rcases List.mem_cons.mp mem with rfl | old
      · exact fun same => eq same.symm
      · exact inv.fresh j own' e old
  · intro j id' stored own'
    by_cases eq : j = i
    · subst eq
      simp only [Function.update_self] at own'
      cases own'
      intro l mem same id'' found
      rcases List.mem_cons.mp mem with rfl | old
      · cases found
        exact ⟨rfl, rfl⟩
      · exact absurd same (absent l old)
    · rw [Function.update_of_ne eq] at own'
      exact others eq rfl (inv.looked j id' stored own')
  · intro z mem id' stored presented check
    rcases List.mem_cons.mp mem with rfl | old
    · cases check
    · exact others (absent z old) rfl (inv.checked z old id' stored presented check)
  · intro j id' c own'
    by_cases eq : j = i
    · subst eq
      simp only [Function.update_self] at own'
      cases own'
    · rw [Function.update_of_ne eq] at own'
      obtain ⟨e, mem, same, accepts⟩ := inv.accepted j id' c own'
      exact ⟨e, List.mem_cons_of_mem _ mem, same, accepts⟩

/-- A later step, which accepts the call or leaves its stage. -/
theorem traced_step (inv : Traced w γ) {id : String} {stored : UInt32}
    (own : γ i = .looked id stored) {o : AssertionOp}
    (late : ∀ id', o ≠ .findByCredentialId id')
    (check : ∀ id' stored' presented, o = .counterCheck id' stored' presented →
      id' = id ∧ stored' = stored) {g : Stage}
    (stage : g = .looked id stored ∨ ∃ c, g = .accepted id c ∧
      accepted id ⟨i, w.tick, o, (execAssertion (env w.tick) o w.db).1, w.db⟩ = some c) :
    Traced (World.handler (fun n => execAssertion (env n)) i o w).2 (Function.update γ i g) := by
  have same : ∀ {j : ι} {id' : String} {stored' : UInt32}, Looked w.log j id' stored' →
      Looked (World.handler (fun n => execAssertion (env n)) i o w).2.log j id' stored' :=
    fun looked => looked.cons fun _ => late
  refine ⟨?_, ?_, ?_, ?_⟩
  · intro j own' e mem
    by_cases eq : j = i
    · subst eq
      rw [Function.update_self] at own'
      subst own'
      rcases stage with bad | ⟨_, bad, _⟩ <;> cases bad
    · rw [Function.update_of_ne eq] at own'
      rcases List.mem_cons.mp mem with rfl | old
      · exact fun same => eq same.symm
      · exact inv.fresh j own' e old
  · intro j id' stored' own'
    by_cases eq : j = i
    · subst eq
      rw [Function.update_self] at own'
      subst own'
      rcases stage with eq' | ⟨_, bad, _⟩
      · cases eq'
        exact same (inv.looked j id stored own)
      · cases bad
    · rw [Function.update_of_ne eq] at own'
      exact same (inv.looked j id' stored' own')
  · intro z mem id' stored' presented check'
    rcases List.mem_cons.mp mem with rfl | old
    · obtain ⟨rfl, rfl⟩ := check id' stored' presented check'
      exact same (inv.looked i id' stored' own)
    · exact same (inv.checked z old id' stored' presented check')
  · intro j id' c own'
    by_cases eq : j = i
    · subst eq
      rw [Function.update_self] at own'
      subst own'
      rcases stage with bad | ⟨c', eq', accepts⟩
      · cases bad
      · cases eq'
        exact ⟨_, List.mem_cons_self, rfl, accepts⟩
    · rw [Function.update_of_ne eq] at own'
      obtain ⟨e, mem, same, accepts⟩ := inv.accepted j id' c own'
      exact ⟨e, List.mem_cons_of_mem _ mem, same, accepts⟩

/-- What a call has answered when it is at a stage. -/
def Answered (answer : Option WebAuthnAuthResult) (g : Stage) : Prop :=
  ∀ r, answer = some r → g = .accepted r.credentialId r.signCount.toUInt32

theorem answered_none {g : Stage} : Answered none g := by
  intro r bad
  cases bad

/-- The assertion keeps the invariant. -/
abbrev CallKeeps (env : Nat → AssertionMoment) (i : ι) :
    AssertionProg (Option WebAuthnAuthResult) → Stage → Prop :=
  Keeps (World.handler fun n => execAssertion (env n)) Traced i Answered

/-- **The step that advances a counter**. -/
theorem advanceCounter_keeps (id : String) (found : WebAuthnCredentialLookup)
    (presented : UInt32) :
    CallKeeps env i (svc.advanceCounter id found presented)
      (.looked id found.signCount.toUInt32) := by
  intro w γ inv own
  by_cases zero : found.signCount.toUInt32 = 0 ∧ presented = 0
  · -- two zeros: this step accepts
    refine ⟨.accepted id 0, traced_step inv own ?_ ?_ (.inr ⟨0, rfl, ?_⟩), ?_⟩
    · intro id' bad
      cases bad
    · intro id' stored' presented' eq
      cases eq
      exact ⟨rfl, rfl⟩
    · exact accepted_counterCheck.mpr ⟨rfl, zero, rfl⟩
    · have not_clone : ¬ (found.signCount.toUInt32 > 0 ∧ presented ≤ found.signCount.toUInt32) := by
        rw [zero.1]
        intro bad
        exact UInt32.lt_irrefl 0 bad.1
      simp only [if_neg not_clone, if_pos zero]
      intro r eq
      cases eq
      rfl
  · refine ⟨.looked id found.signCount.toUInt32, traced_step inv own ?_ ?_ (.inl rfl), ?_⟩
    · intro id' bad
      cases bad
    · intro id' stored' presented' eq
      cases eq
      exact ⟨rfl, rfl⟩
    · by_cases clone : found.signCount.toUInt32 > 0 ∧ presented ≤ found.signCount.toUInt32
      · simp only [if_pos clone]
        split
        · intro w γ inv own
          refine ⟨.looked id found.signCount.toUInt32, traced_step inv own ?_ ?_ (.inl rfl), ?_⟩
          · intro id' bad
            cases bad
          · intro id' stored' presented' bad
            cases bad
          · exact answered_none
        · exact answered_none
      · simp only [if_neg clone, if_neg zero]
        intro w γ inv own
        have late : ∀ id', AssertionOp.updateSignCountIfCurrent id
            found.signCount.toUInt32.toInt32 presented.toInt32 ≠ .findByCredentialId id' := by
          intro id' bad
          cases bad
        have check : ∀ id' stored' presented', AssertionOp.updateSignCountIfCurrent id
            found.signCount.toUInt32.toInt32 presented.toInt32 =
              .counterCheck id' stored' presented' →
            id' = id ∧ stored' = found.signCount.toUInt32 := by
          intro id' stored' presented' bad
          cases bad
        cases advanced : (World.handler (fun n => execAssertion (env n)) i
            (.updateSignCountIfCurrent id found.signCount.toUInt32.toInt32 presented.toInt32)
            w).1 with
        | true =>
            refine ⟨.accepted id presented, traced_step inv own late check
              (.inr ⟨presented, rfl, accepted_update.mpr ⟨rfl, advanced, rfl⟩⟩), ?_⟩
            intro r eq
            cases eq
            rfl
        | false =>
            exact ⟨.looked id found.signCount.toUInt32,
              traced_step inv own late check (.inl rfl), answered_none⟩

/-- An assertion as a whole. -/
theorem finishAuthenticationVerified_keeps (presentedChallenge : String)
    (input : AssertionInput) :
    CallKeeps env i (svc.finishAuthenticationVerified presentedChallenge input) .fresh := by
  unfold finishAuthenticationVerified
  split
  · next crypto _ _ =>
    split
    · exact answered_none
    · next a _ =>
        intro w γ inv own
        refine ⟨_, traced_find inv own a.credentialId, ?_⟩
        cases answer : (World.handler (fun n => execAssertion (env n)) i
            (.findByCredentialId a.credentialId) w).1 with
        | none => exact answered_none
        | some found =>
            have stored : found.signCount.toUInt32 = counter w.db a.credentialId := by
              exact find_signCount answer
            rw [← stored]
            intro w γ inv own
            refine ⟨.looked a.credentialId found.signCount.toUInt32,
              traced_step inv own ?_ ?_ (.inl rfl), ?_⟩
            · intro id' bad
              cases bad
            · intro id' stored' presented' bad
              cases bad
            · cases verified : svc.verifyAssertion crypto input.userHandle a found with
              | none => exact answered_none
              | some presented => exact advanceCounter_keeps a.credentialId found presented
  · exact answered_none

/-- What stands behind the results of a run. -/
theorem run_traced (calls : ι → AssertionCall) (credentials : Credentials) (sched : List ι) :
    (svc.runAssertions env calls credentials sched).Good
      (World.handler fun n => execAssertion (env n)) Traced fun _ => Answered := by
  refine Pool.run_keeps ⟨fun _ => .fresh, ?_, fun i => finishAuthenticationVerified_keeps ..⟩ sched
  refine ⟨?_, ?_, ?_, ?_⟩
  · intro i own e mem
    cases mem
  · intro i id stored own
    cases own
  · intro z mem
    cases mem
  · intro i id c own
    cases own

end Threads

/-! ## Clone detection -/

/-- A zero counter is accepted by a counter check. -/
theorem checked_of_accepted_zero {credentialId : String} {z : AssertionEvent ι}
    (upwards : Upwards z.op) (accepts : accepted credentialId z = some 0) :
    ∃ presented, z.op = .counterCheck credentialId 0 presented := by
  obtain ⟨thread, tick, op, res, pre⟩ := z
  cases op with
  | findByCredentialId id => cases accepts
  | signatureCheck id => cases accepts
  | cloneNotifier userId id => cases accepts
  | counterCheck id stored presented =>
      obtain ⟨rfl, ⟨rfl, _⟩, _⟩ := accepted_counterCheck.mp accepts
      exact ⟨presented, rfl⟩
  | updateSignCountIfCurrent id expectedCurrent newSignCount =>
      obtain ⟨_, _, zero⟩ := accepted_update.mp accepts
      simp only [Upwards, zero] at upwards
      exact absurd upwards (UInt32.not_lt.mpr UInt32.zero_le)

/-- **The accepted counters increase**. -/
theorem counters_increasing {credentialId : String} {w : AssertionWorld ι}
    (counted : Counted credentialId w) :
    ((acceptedCounters credentialId w.log).filter (· ≠ 0)).Pairwise (· < ·) := by
  rw [acceptedCounters, List.filterMap_reverse, List.filter_reverse, List.pairwise_reverse,
    List.pairwise_filter, List.pairwise_filterMap]
  refine counted.increasing.imp fun {e e'} increasing c accepts c' accepts' => ?_
  intro nonzero nonzero'
  exact increasing c accepts (of_decide_eq_true nonzero) c' accepts'

/-- Of two steps that accept the same nonzero counter, both are one. -/
theorem thread_eq_of_accepted {credentialId : String} {w : AssertionWorld ι}
    (counted : Counted credentialId w) {e e' : AssertionEvent ι} (mem : e ∈ w.log)
    (mem' : e' ∈ w.log) {c : UInt32} (nonzero : c ≠ 0) (accepts : accepted credentialId e = some c)
    (accepts' : accepted credentialId e' = some c) : e.thread = e'.thread := by
  have apart : w.log.Pairwise fun e e' => accepted credentialId e = some c →
      accepted credentialId e' = some c → e.thread = e'.thread := by
    refine counted.increasing.imp fun {e e'} increasing accepts accepts' => ?_
    exact absurd (increasing c accepts nonzero c accepts') (UInt32.lt_irrefl c)
  have symmetric : Std.Symm fun (e e' : AssertionEvent ι) => accepted credentialId e = some c →
      accepted credentialId e' = some c → e.thread = e'.thread :=
    ⟨fun e e' same accepts accepts' => (same accepts' accepts).symm⟩
  exact apart.forall_of_forall (fun _ _ _ _ => rfl) mem mem' accepts accepts'

/-- Over every interleaving: the nonzero counters of the accepted assertions of a credential
increase in the order of acceptance, no two calls are accepted with the same one, and a call
that is accepted with counter zero has made its look-up before the first acceptance of a
nonzero counter; every success that a call answers is one of these acceptances. -/
theorem assertion_counters_increase [DecidableEq ι] (svc : WebAuthnService)
    (env : Nat → AssertionMoment) (calls : ι → AssertionCall) (credentials : Credentials)
    (sched : List ι) (credentialId : String) :
    let c := svc.runAssertions env calls credentials sched
    ((acceptedCounters credentialId c.store.log).filter (· ≠ 0)).Pairwise (· < ·) ∧
    (∀ i j r r', i ≠ j → c.answer? i = some (some r) → c.answer? j = some (some r') →
      r.credentialId = credentialId → r'.credentialId = credentialId →
      r.signCount.toUInt32 ≠ 0 → r.signCount.toUInt32 ≠ r'.signCount.toUInt32) ∧
    (∀ later e earlier, c.store.log = later ++ e :: earlier →
      ∀ n, accepted credentialId e = some n → n ≠ 0 →
      ∀ z ∈ c.store.log, accepted credentialId z = some 0 →
      ∀ l ∈ later, l.thread = z.thread → l.op ≠ .findByCredentialId credentialId) ∧
    ∀ i r, c.answer? i = some (some r) →
      ∃ e ∈ c.store.log, e.thread = i ∧
        accepted r.credentialId e = some r.signCount.toUInt32 := by
  intro c
  have counted : Counted credentialId c.store := run_counted calls credentials sched credentialId
  have good : c.Good (World.handler fun n => execAssertion (env n)) Traced fun _ => Answered :=
    run_traced calls credentials sched
  obtain ⟨γ, traced, threads⟩ := good
  have answered : ∀ i r, c.answer? i = some (some r) → ∃ e ∈ c.store.log, e.thread = i ∧
      accepted r.credentialId e = some r.signCount.toUInt32 := by
    intro i r answer
    have stage := Pool.post_of_answer? (threads i) answer r rfl
    exact traced.accepted i _ _ stage
  refine ⟨counters_increasing counted, ?_, ?_, answered⟩
  · intro i j r r' ne answer answer' same same' nonzero equal
    obtain ⟨e, mem, thread, accepts⟩ := answered i r answer
    obtain ⟨e', mem', thread', accepts'⟩ := answered j r' answer'
    rw [same] at accepts
    rw [same', ← equal] at accepts'
    have both := thread_eq_of_accepted counted mem mem' nonzero accepts accepts'
    exact ne (thread.symm.trans (both.trans thread'))
  · intro later e earlier split n accepts nonzero z mem zero l late thread found
    obtain ⟨presented, check⟩ := checked_of_accepted_zero (counted.upwards z mem) zero
    have stored := (traced.checked z mem _ _ presented check l (split ▸ List.mem_append_left _ late)
      thread credentialId found).2
    have order := counted.before
    rw [split, List.pairwise_append] at order
    have le := order.2.2 l late e List.mem_cons_self n accepts
    rw [stored] at le
    exact nonzero (UInt32.le_zero_iff.mp le)

/-! ## An acceptance of zero after one of five -/

/-- The authenticator data with user presence and verification and the given counter. -/
def sampleAuthData (counter : UInt8) : List UInt8 :=
  List.replicate 32 0 ++ [0x05, 0, 0, 0, counter]

/-- A provider under which every signature is right; `five` encodes a counter of five. -/
def sampleVerifier : WebAuthnCrypto where
  sha256 := fun _ => List.replicate 32 0
  base64UrlEncode := fun _ => "cred"
  base64UrlDecode := fun s =>
    some (if s = "zero" then sampleAuthData 0 else if s = "five" then sampleAuthData 5 else [1])
  readJson := fun _ => .ok (.obj [("type", .str "webauthn.get"), ("challenge", .str "ch"),
    ("origin", .str "https://rp")])
  parseAttestationObject := fun _ => none
  parseCoseKeyEs256 := fun _ => some ⟨[], []⟩
  verifyEs256Signature := fun _ _ _ _ => true

/-- An assertion with the authenticator data. -/
def sampleAssertion (authenticatorData : String) : AssertionInput where
  id := "cred"
  rawId := "cred"
  authenticatorData := authenticatorData
  clientDataJSON := ""
  signature := ""
  userHandle := ""

/-- The first call has looked up counter zero when the second one advances it to five; the
first, with a counter of zero, is accepted after that. -/
theorem zero_accepted_after_five :
    let svc : WebAuthnService := { crypto := some sampleVerifier, rpOrigins := ["https://rp"] }
    let calls : Bool → AssertionCall := fun i =>
      ("ch", sampleAssertion (if i then "five" else "zero"))
    let credentials : Credentials := Table.empty.assign ⟨"cred", 7, "pk", "Passkey", some 0⟩
    let c := svc.runAssertions (fun _ => { publicSub := fun _ => some "alice" }) calls credentials
      [false, true, true, true, true, false, false]
    acceptedCounters "cred" c.store.log = [5, 0] ∧
      ¬ (acceptedCounters "cred" c.store.log).Pairwise fun earlier later =>
        earlier ≠ 0 → later ≠ 0 := by
  decide

end WebAuthnService

end Fulla
