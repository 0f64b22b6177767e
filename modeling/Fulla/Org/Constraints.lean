import Fulla.Org.Runs

/-!
# Constraints that the database keeps

A constraint on pairs of rows holds of the committed rows and of what every transaction sees,
if every statement keeps it in the view of its own thread and the locks keep apart the
statements that could break it together (`Views`, `exec_views`).  The unique indexes are one
such constraint, and it holds in every run (`run_unique`).
-/

namespace Fulla

open Conc OrgTable

section Views

variable {ι : Type} [DecidableEq ι] {site : OrgSite} {m : OrgMoment} {i : ι} {s s' : OrgStore ι}
  {regular : OrgChange → Prop} {forbidden : OrgRow → OrgRow → Prop}

/-- What is committed and what every thread sees is clear of forbidden pairs. -/
structure Views (regular : OrgChange → Prop) (forbidden : OrgRow → OrgRow → Prop)
    (db : TxnDb ι OrgRow OrgKey) : Prop where
  regular : ∀ i t, db.txn i = some t → ∀ c ∈ t.changes, regular c
  committed : TxnDb.Clear forbidden db.rows
  views : ∀ i, TxnDb.Clear forbidden (db.view i)

/-- The others' views, from the own one. -/
theorem Views.of_moves {db db' : TxnDb ι OrgRow OrgKey} {changes : List OrgChange}
    (guarded : TxnDb.Guarded orgLocks regular forbidden) (sound : db.Sound orgLocks)
    (views : Views regular forbidden db) (moves : TxnDb.Moves orgLocks i changes db db')
    (ok : ∀ c ∈ changes, regular c) (committed : TxnDb.Clear forbidden db'.rows)
    (own : ∀ t, db'.txn i = some t → (∀ c ∈ t.changes, regular c) ∧
      TxnDb.Clear forbidden (applyAll t.changes db'.rows)) :
    Views regular forbidden db' := by
  refine ⟨fun j t txn => ?_, committed, fun j => ?_⟩
  · by_cases eq : j = i
    · subst eq
      exact (own t txn).1
    · rw [moves.others j eq] at txn
      exact views.regular j t txn
  · cases txn : db'.txn j with
    | none =>
        rw [TxnDb.view_of_none txn]
        exact committed
    | some t =>
        by_cases eq : j = i
        · subst eq
          rw [TxnDb.view_of_some txn]
          exact (own t txn).2
        · have txn' : db.txn j = some t := (moves.others j eq).symm.trans txn
          exact TxnDb.clear_view_of_moves sound moves guarded ok eq txn' (views.regular j t txn')
            committed (views.views j)

/-- A step that ends the transaction without a commit. -/
theorem Views.fail (guarded : TxnDb.Guarded orgLocks regular forbidden)
    (sound : s.db.Sound orgLocks) (views : Views regular forbidden s.db) :
    Views regular forbidden (s.fail i).db := by
  refine views.of_moves guarded sound TxnDb.moves_abandon ?_ views.committed ?_
  · intro c mem
    cases mem
  · intro t txn
    have ended : (s.fail i).db.txn i = none := Function.update_self ..
    rw [ended] at txn
    cases txn

/-- Every step keeps a constraint that its own statement keeps. -/
theorem exec_views (guarded : TxnDb.Guarded orgLocks regular forbidden) {o : OrgOp}
    {r : OrgSig.Res o} (sound : s.db.Sound orgLocks) (views : Views regular forbidden s.db)
    (done : execOrg site m i o s = some (r, s'))
    (keeps : ∀ statement n changes, o = .statement statement →
      Executed i statement n changes s s' →
      (∀ c ∈ changes, regular c) ∧ TxnDb.Clear forbidden (applyAll changes (s.db.view i))) :
    Views regular forbidden s'.db := by
  cases o with
  | query q =>
      rcases exec_query done with ⟨_, rfl⟩ | ⟨_, rfl⟩
      · exact views.fail guarded sound
      · exact views
  | statement statement =>
      rcases exec_statement done with ⟨_, rfl⟩ | ⟨n, changes, rfl, executed⟩
      · exact views.fail guarded sound
      · obtain ⟨ok, clear⟩ := keeps statement n changes rfl executed
        cases own : s.db.txn i with
        | none =>
            obtain ⟨_, moves⟩ := exec_moves sound done
            have eval := executed.eval
            rw [TxnDb.view_of_none own] at eval clear
            simp only [commits, own, eval] at moves
            refine views.of_moves guarded sound moves ok ?_ ?_
            · rw [moves.rows]
              exact clear
            · intro t txn
              obtain ⟨_, _, _, rfl⟩ := executed
              simp only [TxnDb.write, own] at txn
              cases txn
        | some t =>
            obtain ⟨txn', rows, moves⟩ := executed.buffered own
            refine views.of_moves guarded sound moves ?_ ?_ ?_
            · intro c mem
              cases mem
            · rw [rows]
              exact views.committed
            · intro t' txn
              cases txn'.symm.trans txn
              rw [rows, applyAll_append, ← TxnDb.view_of_some own]
              refine ⟨fun c mem => ?_, clear⟩
              rcases List.mem_append.mp mem with old | new
              · exact views.regular i t own c old
              · exact ok c new
  | newTransaction =>
      rcases exec_newTransaction done with ⟨_, rfl⟩ | ⟨_, rfl⟩
      · exact views
      · refine views.of_moves guarded sound TxnDb.moves_start ?_ views.committed ?_
        · intro c mem
          cases mem
        · intro t txn
          have opened : (s.db.start i).txn i = some {} := Function.update_self ..
          cases opened.symm.trans txn
          refine ⟨fun c mem => ?_, views.committed⟩
          cases mem
  | advisoryLock key =>
      rcases exec_advisoryLock done with ⟨_, rfl⟩ | ⟨_, _, rfl⟩
      · exact views.fail guarded sound
      · cases own : s.db.txn i with
        | none =>
            simp only [TxnDb.take, own]
            exact views
        | some t =>
            refine views.of_moves guarded sound TxnDb.moves_take ?_ ?_ ?_
            · intro c mem
              cases mem
            · simp only [TxnDb.take, own]
              exact views.committed
            · intro t' txn
              simp only [TxnDb.take, own, Function.update_self] at txn ⊢
              cases txn
              refine ⟨views.regular i t own, ?_⟩
              have clear := views.views i
              rw [TxnDb.view_of_some own] at clear
              exact clear
  | commit =>
      rcases exec_commit done with ⟨_, rfl⟩ | ⟨rfl, rfl⟩
      · exact views.fail guarded sound
      · obtain ⟨_, moves⟩ := exec_moves sound done
        refine views.of_moves guarded sound moves ?_ (views.views i) ?_
        · intro c mem
          cases own : s.db.txn i with
          | none =>
              simp only [commits, own, Option.elim] at mem
              cases mem
          | some t =>
              simp only [commits, own, Option.elim] at mem
              exact views.regular i t own c mem
        · intro t txn
          have ended : (s.db.finish i).txn i = none := Function.update_self ..
          rw [ended] at txn
          cases txn
  | rollback =>
      rw [exec_rollback done]
      exact views.fail guarded sound
  | detach save =>
      rw [exec_detach done]
      exact views
  | awaitSave =>
      obtain ⟨queue, _, rfl⟩ := exec_awaitSave done
      exact views
  | _ =>
      rw [exec_outside done (by trivial)]
      exact views

/-- What a step commits is regular. -/
theorem Views.regular_commits {o : OrgOp} {r : OrgSig.Res o} (views : Views regular forbidden s.db)
    (done : execOrg site m i o s = some (r, s'))
    (keeps : ∀ statement n changes, o = .statement statement →
      Executed i statement n changes s s' → ∀ c ∈ changes, regular c) :
    ∀ c ∈ commits i s o r, regular c := by
  intro c mem
  cases o with
  | statement statement =>
      rcases exec_statement done with ⟨rfl, _⟩ | ⟨n, changes, rfl, executed⟩
      · cases mem
      · cases txn : s.db.txn i with
        | some t =>
            simp only [commits, txn] at mem
            cases mem
        | none =>
            have eval := executed.eval
            rw [TxnDb.view_of_none txn] at eval
            simp only [commits, txn, eval] at mem
            exact keeps statement n changes rfl executed c mem
  | commit =>
      rcases exec_commit done with ⟨rfl, _⟩ | ⟨rfl, _⟩
      · cases mem
      · cases txn : s.db.txn i with
        | none =>
            simp only [commits, txn, Option.elim] at mem
            cases mem
        | some t =>
            simp only [commits, txn, Option.elim] at mem
            exact views.regular i t txn c mem
  | _ => cases mem

end Views

/-! ## What a statement touches -/

/-- The tables by name. -/
inductive OrgKind where
  | organizations
  | members
  | invitations
  | nominations
  | consents
  | requests
deriving DecidableEq

/-- The table of a row. -/
def OrgRow.kind : OrgRow → OrgKind
  | organization _ => .organizations
  | member _ => .members
  | invitation _ => .invitations
  | nomination _ => .nominations
  | consent _ => .consents
  | request _ => .requests

/-- The table that a statement writes. -/
def OrgStatement.kind : OrgStatement → OrgKind
  | insertOrganization _ => .organizations
  | insertMember _ _ _ => .members
  | setRole _ _ => .members
  | demoteOthers _ _ => .members
  | deleteMember _ _ => .members
  | insertInvitation _ _ _ _ _ => .invitations
  | stampInvitation _ _ => .invitations
  | acceptNomination _ _ => .nominations
  | upsertConsent _ _ _ _ => .consents
  | decidePending _ _ => .requests
  | resolveOtherPending _ _ _ => .requests
  | withdrawOwnPending _ _ _ => .requests
  | softDelete _ => .organizations
  | voidInvitations _ => .invitations
  | voidNominations _ => .nominations
  | revokeConsents _ => .consents
  | suspendClients _ => .organizations
  | detachMembers _ => .members

theorem kind_of_changes {α : Type} {t : OrgTable α} {kind : OrgKind}
    (same : ∀ a, (t.put a).kind = kind) {rows : List OrgRow} {selects : α → Bool}
    {becomes : α → Option α} :
    ∀ c ∈ t.changes rows selects becomes, ∀ r, c.old = some r ∨ c.new = some r → r.kind = kind := by
  intro c mem r touched
  obtain ⟨a, _, _, rfl⟩ := t.mem_changes.mp mem
  rcases touched with old | new
  · cases old
    exact same a
  · obtain ⟨b, _, rfl⟩ := Option.map_eq_some_iff.mp new
    exact same b

theorem kind_of_insert {row : OrgRow} {kind : OrgKind} (same : row.kind = kind) :
    ∀ c ∈ [({ old := none, new := some row } : OrgChange)], ∀ r, c.old = some r ∨ c.new = some r →
      r.kind = kind := by
  intro c mem r touched
  cases List.mem_singleton.mp mem
  rcases touched with old | new
  · cases old
  · cases new
    exact same

/-- A statement touches rows of its table only. -/
theorem kind_of_touched {statement : OrgStatement} {serial n : Nat} {rows : List OrgRow}
    {changes : List OrgChange} (eval : statement.eval serial rows = some (n, changes)) :
    ∀ c ∈ changes, ∀ r, c.old = some r ∨ c.new = some r → r.kind = statement.kind := by
  cases statement with
  | insertOrganization slug =>
      cases eval
      exact kind_of_insert rfl
  | insertMember organizationId userId role =>
      cases eval
      exact kind_of_insert rfl
  | insertInvitation organizationId email role token expiresAt =>
      cases eval
      exact kind_of_insert rfl
  | softDelete organizationId =>
      simp only [OrgStatement.eval] at eval
      split at eval
      · cases eval
      · cases eval
        exact kind_of_changes fun _ => rfl
  | upsertConsent organizationId clientId scope grantedBy =>
      simp only [OrgStatement.eval] at eval
      split at eval
      · cases eval
        exact kind_of_changes fun _ => rfl
      · cases eval
        exact kind_of_insert rfl
  | suspendClients organizationId =>
      cases eval
      intro c mem
      cases mem
  | _ =>
      cases eval
      exact kind_of_changes fun _ => rfl

/-- The rows of the other tables stay. -/
theorem mem_of_other_kind {statement : OrgStatement} {serial n : Nat} {rows rows' : List OrgRow}
    {changes : List OrgChange} (eval : statement.eval serial rows = some (n, changes))
    {r : OrgRow} (other : r.kind ≠ statement.kind) : r ∈ applyAll changes rows' ↔ r ∈ rows' := by
  refine mem_applyAll_iff (P := (· = r)) (fun c mem touches => ?_) rfl
  obtain ⟨r', rfl, touched⟩ := touches
  exact other (kind_of_touched eval c mem r' touched)

/-! ## Unique indexes -/

open OrgRow (SharesKey)

theorem keys_ne_nil (r : OrgRow) : ∃ k, k ∈ r.keys := by
  cases r <;> exact ⟨_, List.mem_cons_self⟩

/-- A change locks the keys of the rows it touches. -/
theorem mem_orgLocks {c : OrgChange} {r : OrgRow} (touched : c.old = some r ∨ c.new = some r)
    {k : OrgKey} (mem : k ∈ r.keys) : { key := k } ∈ orgLocks c := by
  refine List.mem_append_left _ (List.mem_append_left _ ?_)
  refine List.mem_map.mpr ⟨k, List.mem_flatMap.mpr ⟨r, ?_, mem⟩, rfl⟩
  rcases touched with old | new
  · exact List.mem_append_left _ (Option.mem_toList.mpr old)
  · exact List.mem_append_right _ (Option.mem_toList.mpr new)

/-- Changes that touch rows with a key in common exclude each other. -/
theorem excludes_of_key {c c' : OrgChange} {r r' : OrgRow}
    (touched : c.old = some r ∨ c.new = some r) (touched' : c'.old = some r' ∨ c'.new = some r')
    {k : OrgKey} (mem : k ∈ r.keys) (mem' : k ∈ r'.keys) : TxnDb.Excludes orgLocks c c' :=
  ⟨_, mem_orgLocks touched mem, _, mem_orgLocks touched' mem', by simp [Lock.conflicts]⟩

theorem excludes_of_row {c c' : OrgChange} {r : OrgRow}
    (touched : c.old = some r ∨ c.new = some r) (touched' : c'.old = some r ∨ c'.new = some r) :
    TxnDb.Excludes orgLocks c c' := by
  obtain ⟨k, mem⟩ := keys_ne_nil r
  exact excludes_of_key touched touched' mem mem

theorem guarded_unique : TxnDb.Guarded orgLocks (fun _ => True) SharesKey := by
  refine ⟨fun c c' r _ _ touched touched' => excludes_of_row touched touched', ?_⟩
  intro c c' r r' _ _ put put' shares
  rcases shares with ⟨_, k, mem, mem'⟩ | ⟨_, k, mem', mem⟩
  · exact excludes_of_key (.inr put) (.inr put') mem mem'
  · exact excludes_of_key (.inr put) (.inr put') mem mem'

theorem not_shares_of_valid {rows : List OrgRow} {changes : List OrgChange}
    (valid : violates rows changes = false) {c : OrgChange} (mem : c ∈ changes) {new r : OrgRow}
    (put : c.new = some new) (there : r ∈ rows) (other : c.old ≠ some r) {k : OrgKey}
    (key : k ∈ r.keys) : k ∉ new.keys := by
  intro key'
  have bad : violates rows changes = true := by
    refine List.any_eq_true.mpr ⟨c, mem, ?_⟩
    rw [put]
    refine List.any_eq_true.mpr ⟨r, there, ?_⟩
    rw [Bool.and_eq_true]
    exact ⟨decide_eq_true (Ne.symm other), List.any_eq_true.mpr ⟨k, key, decide_eq_true key'⟩⟩
  rw [valid] at bad
  cases bad

/-- A statement keeps the rows unique if those it puts in are. -/
theorem clear_of_valid {rows : List OrgRow} {changes : List OrgChange}
    (clear : TxnDb.Clear SharesKey rows) (valid : violates rows changes = false)
    (puts : ∀ c ∈ changes, ∀ c' ∈ changes, ∀ r r', c.new = some r → c'.new = some r' →
      ¬ SharesKey r r') : TxnDb.Clear SharesKey (applyAll changes rows) := by
  intro r mem r' mem' shares
  obtain ⟨ne, k, key, key'⟩ := shares
  rcases kept_or_put mem with ⟨there, kept⟩ | ⟨c, change, put⟩
  · rcases kept_or_put mem' with ⟨there', kept'⟩ | ⟨c', change', put'⟩
    · exact clear r there r' there' ⟨ne, k, key, key'⟩
    · exact not_shares_of_valid valid change' put' there (kept c' change') key key'
  · rcases kept_or_put mem' with ⟨there', kept'⟩ | ⟨c', change', put'⟩
    · exact not_shares_of_valid valid change put there' (kept' c change) key' key
    · exact puts c change c' change' r r' put put' ⟨ne, k, key, key'⟩

/-- An update that adds no key to a row. -/
theorem puts_of_shrinks {α : Type} {t : OrgTable α} {rows : List OrgRow} {selects : α → Bool}
    {becomes : α → Option α} (clear : TxnDb.Clear SharesKey rows)
    (shrinks : ∀ a b, selects a = true → becomes a = some b →
      ∀ k ∈ (t.put b).keys, k ∈ (t.put a).keys) :
    ∀ c ∈ t.changes rows selects becomes, ∀ c' ∈ t.changes rows selects becomes,
      ∀ r r', c.new = some r → c'.new = some r' → ¬ SharesKey r r' := by
  intro c mem c' mem' r r' put put' shares
  obtain ⟨a, there, selected, rfl⟩ := t.mem_changes.mp mem
  obtain ⟨a', there', selected', rfl⟩ := t.mem_changes.mp mem'
  obtain ⟨b, becomes_b, rfl⟩ := Option.map_eq_some_iff.mp put
  obtain ⟨b', becomes_b', rfl⟩ := Option.map_eq_some_iff.mp put'
  obtain ⟨ne, k, key, key'⟩ := shares
  by_cases same : t.put a = t.put a'
  · have eq : a = a' := by
      have get := (t.get_eq (t.put a) a).mpr rfl
      rw [same, (t.get_eq (t.put a') a').mpr rfl] at get
      exact (Option.some.inj get).symm
    subst eq
    cases becomes_b.symm.trans becomes_b'
    exact ne rfl
  · exact clear _ there _ there' ⟨same, k, shrinks a b selected becomes_b k key,
      shrinks a' b' selected' becomes_b' k key'⟩

theorem puts_single {row : OrgRow} :
    ∀ c ∈ [({ old := none, new := some row } : OrgChange)],
      ∀ c' ∈ [({ old := none, new := some row } : OrgChange)], ∀ r r', c.new = some r →
        c'.new = some r' → ¬ SharesKey r r' := by
  intro c mem c' mem' r r' put put' shares
  cases List.mem_singleton.mp mem
  cases List.mem_singleton.mp mem'
  cases put
  cases put'
  exact shares.1 rfl

/-- Organizations that become tombstones keep their number. -/
theorem puts_softDelete {rows : List OrgRow} {organizationId : Nat}
    (clear : TxnDb.Clear SharesKey rows) :
    ∀ c ∈ organizations.changes rows
        (fun o => decide (o.id = organizationId ∧ o.deleted = false)) fun o => some (tombstone o),
      ∀ c' ∈ organizations.changes rows
        (fun o => decide (o.id = organizationId ∧ o.deleted = false)) fun o => some (tombstone o),
      ∀ r r', c.new = some r → c'.new = some r' → ¬ SharesKey r r' := by
  intro c mem c' mem' r r' put put' shares
  obtain ⟨a, there, selected, rfl⟩ := organizations.mem_changes.mp mem
  obtain ⟨a', there', selected', rfl⟩ := organizations.mem_changes.mp mem'
  have id : a.id = organizationId := (of_decide_eq_true selected).1
  have id' : a'.id = organizationId := (of_decide_eq_true selected').1
  have same : organizations.put a = organizations.put a' := by
    by_contra ne
    refine clear _ there _ there' ⟨ne, .organization organizationId, ?_, ?_⟩
    · rw [← id]
      exact List.mem_cons_self
    · rw [← id']
      exact List.mem_cons_self
  cases OrgRow.organization.inj same
  exact shares.1 (Option.some.inj (put.symm.trans put'))

/-- Every statement that is executed keeps the rows unique. -/
theorem eval_unique {statement : OrgStatement} {serial n : Nat} {rows : List OrgRow}
    {changes : List OrgChange} (eval : statement.eval serial rows = some (n, changes))
    (valid : violates rows changes = false) (clear : TxnDb.Clear SharesKey rows) :
    TxnDb.Clear SharesKey (applyAll changes rows) := by
  refine clear_of_valid clear valid ?_
  cases statement with
  | insertOrganization slug =>
      cases eval
      exact puts_single
  | insertMember organizationId userId role =>
      cases eval
      exact puts_single
  | insertInvitation organizationId email role token expiresAt =>
      cases eval
      exact puts_single
  | softDelete organizationId =>
      simp only [OrgStatement.eval] at eval
      split at eval
      · cases eval
      · cases eval
        exact puts_softDelete clear
  | upsertConsent organizationId clientId scope grantedBy =>
      simp only [OrgStatement.eval] at eval
      split at eval
      · cases eval
        refine puts_of_shrinks clear fun a b _ becomes => ?_
        cases becomes
        exact fun k mem => mem
      · cases eval
        exact puts_single
  | suspendClients organizationId =>
      cases eval
      intro c mem
      cases mem
  | stampInvitation id acceptedAt =>
      cases eval
      refine puts_of_shrinks clear fun a b _ becomes => ?_
      cases becomes
      intro k mem
      simp only [invitations, OrgRow.keys, reduceCtorEq, if_false] at mem ⊢
      grind
  | acceptNomination organizationId nomineeUserId =>
      cases eval
      refine puts_of_shrinks clear fun a b _ becomes => ?_
      cases becomes
      intro k mem
      simp only [nominations, OrgRow.keys, if_true] at mem ⊢
      grind
  | decidePending requestId status =>
      cases eval
      refine puts_of_shrinks clear fun a b selected becomes => ?_
      cases becomes
      intro k mem
      have pending := (of_decide_eq_true selected).2
      simp only [requests, OrgRow.keys, pending, if_true] at mem ⊢
      grind
  | resolveOtherPending organizationId clientId exceptRequestId =>
      cases eval
      refine puts_of_shrinks clear fun a b _ becomes => ?_
      cases becomes
      intro k mem
      simp only [requests, OrgRow.keys, reduceCtorEq, if_false] at mem ⊢
      grind
  | _ =>
      cases eval
      refine puts_of_shrinks clear fun a b _ becomes => ?_
      cases becomes
      all_goals exact fun k mem => mem

section Runs

variable {ι : Type} [DecidableEq ι]

/-- The unique indexes hold of what is committed and of what every transaction sees. -/
abbrev Unique (db : TxnDb ι OrgRow OrgKey) : Prop :=
  Views (fun _ => True) SharesKey db

theorem exec_unique {site : OrgSite} {m : OrgMoment} {i : ι} {s s' : OrgStore ι} {o : OrgOp}
    {r : OrgSig.Res o} (sound : s.db.Sound orgLocks) (unique : Unique s.db)
    (done : execOrg site m i o s = some (r, s')) : Unique s'.db := by
  refine exec_views guarded_unique sound unique done fun statement n changes _ executed => ?_
  exact ⟨fun _ _ => trivial, eval_unique executed.eval executed.valid (unique.views i)⟩

omit [DecidableEq ι] in
theorem unique_start (tables : OrgTables) : Unique (tables.store : OrgStore ι).db :=
  ⟨fun _ _ _ _ _ => trivial, tables.unique, fun _ => tables.unique⟩

/-- In every run of any calls the committed rows are unique. -/
theorem run_unique (site : OrgSite) (tables : OrgTables) (calls : ι → OrgCall)
    (sched : List (ι × OrgMoment)) :
    TxnDb.Clear SharesKey (committed (runOrg site calls tables sched)) := by
  have kept : (runOrg site calls tables sched).store.db.db.Sound orgLocks ∧
      Unique (runOrg site calls tables sched).store.db.db := by
    refine Pool.play_invariant (J := fun w : OrgWorld ι => w.db.db.Sound orgLocks ∧ Unique w.db.db)
      ⟨sound_start tables, unique_start tables⟩ (fun w i o m r s' good done => ?_) sched
    exact ⟨(exec_moves good.1 done).1, exec_unique good.1 good.2 done⟩
  exact kept.2.committed

end Runs

end Fulla
