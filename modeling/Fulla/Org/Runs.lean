import Fulla.Conc.Track
import Fulla.Org.Services

/-!
# Runs of the organization services

Any number of calls, their steps interleaved.  For every kind of step: what it answers and what
it does to the database (`exec_*`), and what the other threads can see of it (`exec_moves`).
-/

namespace Fulla

open Conc

/-- The calls of the organization services. -/
inductive OrgCall where
  | createOrg (userId : String) (r : CreateOrgRequest)
  | adminCreate (r : CreateOrgRequest)
  | deleteOrg (slug : String)
  | createInvitation (userId slug address : String) (role : OrgRole)
  | acceptInvitation (userId token : String)
  | removeMember (userId slug : String) (target : Option Int32)
  | adminRemoveMember (slug : String) (target : Option Int32)
  | transferOwnership (slug : String) (requestedUserId : Option Int)
  | acceptSuccession (userId slug : String)
  | approveConsentRequest (userId slug : String) (requestId : Option Nat)
  | rejectConsentRequest (userId slug : String) (requestId : Option Nat)
  | withdrawConsentRequest (userId slug : String) (requestId : Option Nat)
  | detachedSave

/-- The program that a call runs. -/
def OrgCall.prog (site : OrgSite) : OrgCall → OrgProg OrgAnswer
  | createOrg userId r => OrgMemberService.createOrg site userId r
  | adminCreate r => OrganizationService.create site r
  | deleteOrg slug => OrganizationService.deleteOrg slug
  | createInvitation userId slug address role =>
    OrgMemberService.createInvitation site userId slug address role
  | acceptInvitation userId token => OrgMemberService.acceptInvitation site userId token
  | removeMember userId slug target => OrgMemberService.removeMember userId slug target
  | adminRemoveMember slug target => OrganizationService.removeMember slug target
  | transferOwnership slug requestedUserId =>
    OrganizationService.transferOwnership slug requestedUserId
  | acceptSuccession userId slug => OrgMemberService.acceptSuccession userId slug
  | approveConsentRequest userId slug requestId =>
    OrgMemberService.approveConsentRequest userId slug requestId
  | rejectConsentRequest userId slug requestId =>
    OrgMemberService.rejectConsentRequest userId slug requestId
  | withdrawConsentRequest userId slug requestId =>
    OrgMemberService.withdrawConsentRequest userId slug requestId
  | detachedSave => runDetachedSave

abbrev OrgWorld (ι : Type) := World OrgSig ι (OrgStore ι)

abbrev OrgEvent (ι : Type) := Event OrgSig ι (OrgStore ι)

/-- The calls with what is left of each. -/
abbrev OrgPool (ι : Type) := Pool OrgSig ι OrgAnswer (OrgWorld ι)

/-- Committed rows before the calls, and the next value of the sequences. -/
structure OrgTables where
  rows : List OrgRow
  serial : Nat
  unique : TxnDb.Clear OrgRow.SharesKey rows

/-- No transaction is open and no save is detached. -/
def OrgTables.store {ι : Type} (tables : OrgTables) : OrgStore ι :=
  { db := { rows := tables.rows, serial := tables.serial } }

variable {ι : Type}

/-- The calls over the tables, before any step. -/
def startOrg (site : OrgSite) (calls : ι → OrgCall) (tables : OrgTables) : OrgPool ι :=
  { store := World.start tables.store, prog := fun i => (calls i).prog site }

/-- A run: which call takes its next step, and at what moment. -/
def runOrg [DecidableEq ι] (site : OrgSite) (calls : ι → OrgCall) (tables : OrgTables)
    (sched : List (ι × OrgMoment)) : OrgPool ι :=
  (startOrg site calls tables).play (execOrg site) sched

/-- The committed rows. -/
def committed (c : OrgPool ι) : List OrgRow :=
  c.store.db.db.rows

section Steps

variable [DecidableEq ι] {site : OrgSite} {m : OrgMoment} {i : ι} {s s' : OrgStore ι}

/-! ## One lemma for each kind of step -/

/-- What a query does: it fails, or it reads the rows that the call sees. -/
theorem exec_query {q : OrgQuery} {r : Option q.Res}
    (done : execOrg site m i (.query q) s = some (r, s')) :
    r = none ∧ s' = s.fail i ∨ r = some (q.eval (s.db.view i)) ∧ s' = s := by
  simp only [execOrg] at done
  split at done
  · cases done
    exact .inl ⟨rfl, rfl⟩
  · cases done
    exact .inr ⟨rfl, rfl⟩

/-- A statement that was executed. -/
structure Executed (i : ι) (statement : OrgStatement) (n : Nat) (changes : List OrgChange)
    (s s' : OrgStore ι) : Prop where
  eval : statement.eval s.db.serial (s.db.view i) = some (n, changes)
  free : s.db.blocked i (changes.flatMap orgLocks) = false
  valid : violates (s.db.view i) changes = false
  eq : s' = { s with db := s.db.write i changes (changes.flatMap orgLocks) }

/-- In a transaction, the changes are buffered and locked. -/
theorem Executed.buffered {statement : OrgStatement} {n : Nat} {changes : List OrgChange}
    (executed : Executed i statement n changes s s') {t : Txn OrgRow OrgKey}
    (txn : s.db.txn i = some t) :
    s'.db.txn i = some ⟨t.changes ++ changes, t.locks ++ changes.flatMap orgLocks⟩ ∧
      s'.db.rows = s.db.rows ∧ TxnDb.Moves orgLocks i [] s.db s'.db := by
  obtain ⟨_, _, _, rfl⟩ := executed
  refine ⟨?_, ?_, TxnDb.moves_buffer txn⟩
  · simp only [TxnDb.write, txn]
    exact Function.update_self ..
  · simp only [TxnDb.write, txn]

/-- Outside a transaction, the changes are committed. -/
theorem Executed.direct {statement : OrgStatement} {n : Nat} {changes : List OrgChange}
    (executed : Executed i statement n changes s s') (txn : s.db.txn i = none) :
    statement.eval s.db.serial s.db.rows = some (n, changes) ∧
      s'.db.rows = applyAll changes s.db.rows ∧ s'.db.txn = s.db.txn := by
  obtain ⟨eval, _, _, rfl⟩ := executed
  rw [TxnDb.view_of_none txn] at eval
  refine ⟨eval, ?_, ?_⟩
  · simp only [TxnDb.write, txn]
  · simp only [TxnDb.write, txn]

/-- What a statement does: it fails, or it changes rows under their locks. -/
theorem exec_statement {statement : OrgStatement} {r : Option Nat}
    (done : execOrg site m i (.statement statement) s = some (r, s')) :
    r = none ∧ s' = s.fail i ∨ ∃ n changes, r = some n ∧ Executed i statement n changes s s' := by
  simp only [execOrg] at done
  split at done
  · cases done
    exact .inl ⟨rfl, rfl⟩
  · unfold execStatement at done
    split at done
    · cases done
      exact .inl ⟨rfl, rfl⟩
    · rename_i n changes eval
      split at done
      · cases done
      · rename_i free
        split at done
        · cases done
          exact .inl ⟨rfl, rfl⟩
        · rename_i valid
          cases done
          exact .inr ⟨n, changes, rfl, eval, by simpa using free, by simpa using valid, rfl⟩

/-- Outside a transaction, a statement that fails changes nothing. -/
theorem fail_of_none (txn : s.db.txn i = none) : s.fail i = s := by
  unfold OrgStore.fail
  rw [TxnDb.abandon_of_none txn]

/-- What the begin of a transaction does. -/
theorem exec_newTransaction {r : Bool} (done : execOrg site m i .newTransaction s = some (r, s')) :
    r = false ∧ s' = s ∨ r = true ∧ s' = { s with db := s.db.start i } := by
  simp only [execOrg] at done
  split at done
  · cases done
    exact .inl ⟨rfl, rfl⟩
  · cases done
    exact .inr ⟨rfl, rfl⟩

/-- What an advisory lock does. -/
theorem exec_advisoryLock {key : String} {r : Bool}
    (done : execOrg site m i (.advisoryLock key) s = some (r, s')) :
    r = false ∧ s' = s.fail i ∨ r = true ∧
      s.db.blocked i [{ key := .advisory (site.hashtext key) }] = false ∧
      s' = { s with db := s.db.take i { key := .advisory (site.hashtext key) } } := by
  simp only [execOrg] at done
  split at done
  · cases done
    exact .inl ⟨rfl, rfl⟩
  · split at done
    · cases done
    · rename_i free
      cases done
      exact .inr ⟨rfl, by simpa using free, rfl⟩

/-- What a commit does. -/
theorem exec_commit {r : Bool} (done : execOrg site m i .commit s = some (r, s')) :
    r = false ∧ s' = s.fail i ∨ r = true ∧ s' = { s with db := s.db.finish i } := by
  simp only [execOrg] at done
  split at done
  · cases done
    exact .inl ⟨rfl, rfl⟩
  · cases done
    exact .inr ⟨rfl, rfl⟩

/-- What a rollback does. -/
theorem exec_rollback {r : Unit} (done : execOrg site m i .rollback s = some (r, s')) :
    s' = s.fail i := by
  cases done
  rfl

/-- The operations that leave the store alone. -/
def Outside : OrgOp → Prop
  | .resolveCaller _ => True
  | .liveUser _ => True
  | .now => True
  | .secureToken => True
  | .clientScopes _ => True
  | _ => False

/-- An operation outside the tables changes nothing. -/
theorem exec_outside {o : OrgOp} {r : OrgSig.Res o}
    (done : execOrg site m i o s = some (r, s')) (outside : Outside o) : s' = s := by
  cases o <;> first | exact outside.elim | (cases done; rfl)

theorem exec_resolveCaller {userId : String} {r : Option (Option ResolvedUser)}
    (done : execOrg site m i (.resolveCaller userId) s = some (r, s')) :
    (r = none ∨ r = some (site.users userId)) ∧ s' = s := by
  simp only [execOrg] at done
  split at done
  · cases done
    exact ⟨.inl rfl, rfl⟩
  · cases done
    exact ⟨.inr rfl, rfl⟩

/-- A save is put at the end of the queue. -/
theorem exec_detach {save : ConsentSave} {r : Unit}
    (done : execOrg site m i (.detach save) s = some (r, s')) :
    s' = { s with queue := s.queue ++ [save] } := by
  cases done
  rfl

/-- The save at its head is taken. -/
theorem exec_awaitSave {r : ConsentSave} (done : execOrg site m i .awaitSave s = some (r, s')) :
    ∃ queue, s.queue = r :: queue ∧ s' = { s with queue := queue } := by
  simp only [execOrg] at done
  split at done
  · cases done
  · rename_i save queue eq
    cases done
    exact ⟨queue, eq, rfl⟩

/-! ## What the others see -/

/-- The changes that a step commits. -/
def commits (i : ι) (s : OrgStore ι) : (o : OrgOp) → OrgSig.Res o → List OrgChange
  | .statement statement, some _ =>
    match s.db.txn i, statement.eval s.db.serial s.db.rows with
    | none, some (_, changes) => changes
    | _, _ => []
  | .commit, true => (s.db.txn i).elim [] Txn.changes
  | _, _ => []

/-- A failure rolls back, which is sound. -/
theorem fail_sound (sound : s.db.Sound orgLocks) : (s.fail i).db.Sound orgLocks :=
  sound.abandon i

/-- Locks stay as they should be, and what a step commits is free of the others' locks. -/
theorem exec_moves {o : OrgOp} {r : OrgSig.Res o} (sound : s.db.Sound orgLocks)
    (done : execOrg site m i o s = some (r, s')) :
    s'.db.Sound orgLocks ∧ TxnDb.Moves orgLocks i (commits i s o r) s.db s'.db := by
  cases o with
  | resolveCaller userId =>
      rw [exec_outside done trivial]
      exact ⟨sound, TxnDb.moves_self⟩
  | liveUser userId =>
      rw [exec_outside done trivial]
      exact ⟨sound, TxnDb.moves_self⟩
  | now =>
      rw [exec_outside done trivial]
      exact ⟨sound, TxnDb.moves_self⟩
  | secureToken =>
      rw [exec_outside done trivial]
      exact ⟨sound, TxnDb.moves_self⟩
  | clientScopes clientId =>
      rw [exec_outside done trivial]
      exact ⟨sound, TxnDb.moves_self⟩
  | query q =>
      rcases exec_query done with ⟨rfl, rfl⟩ | ⟨rfl, rfl⟩
      · exact ⟨fail_sound sound, TxnDb.moves_abandon⟩
      · exact ⟨sound, TxnDb.moves_self⟩
  | statement statement =>
      rcases exec_statement done with ⟨rfl, rfl⟩ | ⟨n, changes, rfl, executed⟩
      · exact ⟨fail_sound sound, TxnDb.moves_abandon⟩
      · obtain ⟨eval, free, _, rfl⟩ := executed
        refine ⟨sound.write free, ?_⟩
        cases own : s.db.txn i with
        | none =>
            rw [TxnDb.view_of_none own] at eval
            simp only [commits, own, eval]
            exact TxnDb.moves_write sound own free
        | some t =>
            simp only [commits, own]
            exact TxnDb.moves_buffer own
  | newTransaction =>
      rcases exec_newTransaction done with ⟨rfl, rfl⟩ | ⟨rfl, rfl⟩
      · exact ⟨sound, TxnDb.moves_self⟩
      · exact ⟨sound.start i, TxnDb.moves_start⟩
  | advisoryLock key =>
      rcases exec_advisoryLock done with ⟨rfl, rfl⟩ | ⟨rfl, free, rfl⟩
      · exact ⟨fail_sound sound, TxnDb.moves_abandon⟩
      · exact ⟨sound.take free, TxnDb.moves_take⟩
  | commit =>
      rcases exec_commit done with ⟨rfl, rfl⟩ | ⟨rfl, rfl⟩
      · exact ⟨fail_sound sound, TxnDb.moves_abandon⟩
      · refine ⟨sound.finish i, ?_⟩
        cases own : s.db.txn i with
        | none =>
            simp only [commits, own, Option.elim]
            refine TxnDb.moves_nil ?_ fun j ne => Function.update_of_ne ne _ _
            exact TxnDb.view_of_none own
        | some t =>
            simp only [commits, own, Option.elim]
            exact TxnDb.moves_finish sound own
  | rollback =>
      rw [exec_rollback done]
      exact ⟨fail_sound sound, TxnDb.moves_abandon⟩
  | detach save =>
      rw [exec_detach done]
      exact ⟨sound, TxnDb.moves_self⟩
  | awaitSave =>
      obtain ⟨queue, _, rfl⟩ := exec_awaitSave done
      exact ⟨sound, TxnDb.moves_self⟩

/-! ## Programs that begin with reads -/

/-- The operations that read. -/
def Reads : OrgOp → Prop
  | .query _ => True
  | o => Outside o

variable {G : Type} {allowed : OrgEvent ι → List (OrgEvent ι) → Prop}
  {I : OrgWorld ι → (ι → G) → Prop} {Q : OrgAnswer → G → Prop} {g : G}

/-- Reads of thread `i` keep the invariant with its ghost as it is. -/
def ReadsKeep (site : OrgSite) (allowed : OrgEvent ι → List (OrgEvent ι) → Prop)
    (I : OrgWorld ι → (ι → G) → Prop) (i : ι) (g : G) : Prop :=
  ∀ (o : OrgOp) (w : OrgWorld ι) γ, Reads o → I w γ → γ i = g → ∀ m r s',
    execOrg site m i o w.db = some (r, s') → allowed ⟨i, w.tick, o, r, w.db⟩ w.log →
    I (w.push i o r s') γ

/-- A read keeps the invariant. -/
theorem upholds_read (reads : ReadsKeep site allowed I i g) {o : OrgOp} (read : Reads o)
    {k : OrgSig.Res o → OrgProg OrgAnswer}
    (rest : ∀ r, Upholds (execOrg site) allowed I i Q (k r) g) :
    Upholds (execOrg site) allowed I i Q (.op o k) g :=
  Upholds.stutter (fun w γ inv own m r s' done ok => reads o w γ read inv own m r s' done ok)
    fun _ _ _ _ _ r _ _ => rest r

/-- So does the look-up of the caller. -/
theorem upholds_resolveCaller (reads : ReadsKeep site allowed I i g) {userId : String}
    {onResolved : ResolvedUser → OrgProg OrgAnswer} (post : ∀ code detail, Q (.error code detail) g)
    (rest : ∀ user, site.users userId = some user →
      Upholds (execOrg site) allowed I i Q (onResolved user) g) :
    Upholds (execOrg site) allowed I i Q (resolveCaller userId onResolved) g := by
  refine Upholds.stutter
    (fun w γ inv own m r s' done ok => reads _ w γ (by trivial) inv own m r s' done ok) ?_
  intro w γ inv own m r s' done
  cases r with
  | none => exact post _ _
  | some found =>
      cases found with
      | none => exact post _ _
      | some user =>
          rcases (exec_resolveCaller done).1 with bad | eq
          · cases bad
          · exact rest user (Option.some.inj eq).symm

/-- So does that of an organization. -/
theorem upholds_findOrgBySlug (reads : ReadsKeep site allowed I i g) {slug : String}
    {onFound : Organization → OrgProg OrgAnswer} (post : ∀ code detail, Q (.error code detail) g)
    (rest : ∀ org, Upholds (execOrg site) allowed I i Q (onFound org) g) :
    Upholds (execOrg site) allowed I i Q (findOrgBySlug slug onFound) g := by
  refine upholds_read reads (by trivial) fun r => ?_
  cases r with
  | none => exact post _ _
  | some found =>
      cases found with
      | none => exact post _ _
      | some org => exact rest org

/-- So does that of a live one. -/
theorem upholds_findLiveOrg (reads : ReadsKeep site allowed I i g) {slug : String}
    {onFound : Organization → OrgProg OrgAnswer} (post : ∀ code detail, Q (.error code detail) g)
    (rest : ∀ org, Upholds (execOrg site) allowed I i Q (onFound org) g) :
    Upholds (execOrg site) allowed I i Q (findLiveOrg slug onFound) g := by
  refine upholds_read reads (by trivial) fun r => ?_
  cases r with
  | none => exact post _ _
  | some found =>
      cases found with
      | none => exact post _ _
      | some org => exact rest org

/-- So does that of a membership. -/
theorem upholds_getMembership (reads : ReadsKeep site allowed I i g) {organizationId : Nat}
    {userId : Int32} {onCheck : Option OrganizationMember → OrgProg OrgAnswer}
    (post : ∀ code detail, Q (.error code detail) g)
    (rest : ∀ row, Upholds (execOrg site) allowed I i Q (onCheck row) g) :
    Upholds (execOrg site) allowed I i Q (getMembership organizationId userId onCheck) g := by
  refine upholds_read reads (by trivial) fun r => ?_
  cases r with
  | none => exact post _ _
  | some row => exact rest row

/-- A read leaves the store alone, or fails and with it the transaction. -/
theorem exec_read_or_fail {o : OrgOp} {r : OrgSig.Res o} (read : Reads o)
    (done : execOrg site m i o s = some (r, s')) : s' = s ∨ s' = s.fail i := by
  cases o with
  | query q =>
      rcases exec_query done with ⟨_, rfl⟩ | ⟨_, rfl⟩
      · exact .inr rfl
      · exact .inl rfl
  | _ => first | exact read.elim | exact .inl (exec_outside done (by trivial))

/-- A read of a thread without a transaction leaves the store alone. -/
theorem exec_read {o : OrgOp} {r : OrgSig.Res o} (read : Reads o)
    (done : execOrg site m i o s = some (r, s')) (none : s.db.txn i = none) : s' = s := by
  rcases exec_read_or_fail read done with rfl | rfl
  · rfl
  · exact fail_of_none none

end Steps

/-! ## Look-ups of a program that follows a protocol -/

section Follows

variable {G : Type} {next : G → (o : OrgOp) → OrgSig.Res o → G} {fits : G → OrgOp → Prop}
  {ok : G → (o : OrgOp) → OrgSig.Res o → Prop} {Q : OrgAnswer → G → Prop} {g : G}

/-- The look-up of the caller follows the stages. -/
theorem follows_resolveCaller {userId : String} {onResolved : ResolvedUser → OrgProg OrgAnswer}
    (fit : fits g (.resolveCaller userId))
    (post : ∀ r code detail, Q (.error code detail) (next g (.resolveCaller userId) r))
    (rest : ∀ user, ok g (.resolveCaller userId) (some (some user)) →
      (onResolved user).Follows next fits ok Q
        (next g (.resolveCaller userId) (some (some user)))) :
    (resolveCaller userId onResolved).Follows next fits ok Q g := by
  refine ⟨fit, fun r possible => ?_⟩
  cases r with
  | none => exact post _ _ _
  | some found =>
      cases found with
      | none => exact post _ _ _
      | some user => exact rest user possible

/-- So does that of an organization. -/
theorem follows_findOrgBySlug {slug : String} {onFound : Organization → OrgProg OrgAnswer}
    (fit : fits g (.query (.organization slug)))
    (post : ∀ r code detail, Q (.error code detail) (next g (.query (.organization slug)) r))
    (rest : ∀ org, ok g (.query (.organization slug)) (some (some org)) →
      (onFound org).Follows next fits ok Q
        (next g (.query (.organization slug)) (some (some org)))) :
    (findOrgBySlug slug onFound).Follows next fits ok Q g := by
  refine ⟨fit, fun r possible => ?_⟩
  cases r with
  | none => exact post _ _ _
  | some found =>
      cases found with
      | none => exact post _ _ _
      | some org => exact rest org possible

/-- So does that of a live one. -/
theorem follows_findLiveOrg {slug : String} {onFound : Organization → OrgProg OrgAnswer}
    (fit : fits g (.query (.organization slug)))
    (post : ∀ r code detail, Q (.error code detail) (next g (.query (.organization slug)) r))
    (rest : ∀ org, ok g (.query (.organization slug)) (some (some org)) →
      (onFound org).Follows next fits ok Q
        (next g (.query (.organization slug)) (some (some org)))) :
    (findLiveOrg slug onFound).Follows next fits ok Q g := by
  refine ⟨fit, fun r possible => ?_⟩
  cases r with
  | none => exact post _ _ _
  | some found =>
      cases found with
      | none => exact post _ _ _
      | some org => exact rest org possible

/-- So does that of a membership. -/
theorem follows_getMembership {organizationId : Nat} {userId : Int32}
    {onCheck : Option OrganizationMember → OrgProg OrgAnswer}
    (fit : fits g (.query (.membership organizationId userId)))
    (post : ∀ r code detail,
      Q (.error code detail) (next g (.query (.membership organizationId userId)) r))
    (rest : ∀ row, (onCheck row).Follows next fits ok Q
      (next g (.query (.membership organizationId userId)) (some row))) :
    (getMembership organizationId userId onCheck).Follows next fits ok Q g := by
  refine ⟨fit, fun r _ => ?_⟩
  cases r with
  | none => exact post _ _ _
  | some row => exact rest row

/-- The cascade of a deletion, where `P rest` is what holds of the place when the statements
`rest` are left. -/
theorem follows_cascade {P : List OrgStatement → G → Prop} {orgId : Nat}
    (commits : ∀ g, P [] g → fits g .commit ∧ ∀ r answer, Q answer (next g .commit r))
    (step : ∀ s rest g, P (s :: rest) g → fits g (.statement s) ∧
      (∀ answer, Q answer (next g (.statement s) none)) ∧
      ∀ n, P rest (next g (.statement s) (some n)))
    {rest : List OrgStatement} (place : P rest g) :
    (OrganizationService.cascade orgId rest).Follows next fits ok Q g := by
  induction rest generalizing g with
  | nil =>
      obtain ⟨fit, post⟩ := commits g place
      refine ⟨fit, fun committed _ => ?_⟩
      cases committed
      · exact post _ _
      · exact post _ _
  | cons s rest ih =>
      obtain ⟨fit, post, goes⟩ := step s rest g place
      refine ⟨fit, fun r _ => ?_⟩
      cases r with
      | none => exact post _
      | some n => exact ih (goes n)

end Follows

/-- No transaction is open at the start. -/
theorem sound_start {ι : Type} [DecidableEq ι] (tables : OrgTables) :
    (tables.store : OrgStore ι).db.Sound orgLocks := by
  refine ⟨fun i t txn => ?_, fun i t txn => ?_, fun i j t u _ txn => ?_⟩ <;> cases txn

end Fulla
