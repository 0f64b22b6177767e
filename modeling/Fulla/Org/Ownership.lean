import Fulla.Conc.Offices
import Fulla.Org.Constraints

/-!
# The ownership of an organization

The owners of an organization hold an office that lasts until the organization is soft-deleted.
For every statement of the schema: whether it touches a row of an owner, and what it does to the
owners if it is one of those that move the ownership.

A member row is promoted by its number, which was read before.  Numbers are not used twice, and
a row keeps its organization and its user (`SeatNumbers`), so it is the row that was read.
-/

namespace Fulla

open Conc OrgTable

/-- The user that a row makes an owner. -/
def ownerOf (organizationId : Nat) : OrgRow → Option Int32
  | .member m => if m.organizationId = organizationId ∧ m.role = .owner then some m.userId else none
  | _ => none

/-- The row is that of the organization, and it is not deleted. -/
def IsLive (organizationId : Nat) : OrgRow → Prop
  | .organization o => o.id = organizationId ∧ o.deleted = false
  | _ => False

/-- The ownership of an organization as an instance of `Office`. -/
def ownership (organizationId : Nat) : Office OrgRow Int32 where
  holder := ownerOf organizationId
  upholds := IsLive organizationId

section Owners

variable {organizationId : Nat} {r : OrgRow} {u : Int32}

theorem holder_eq_some :
    (ownership organizationId).holder r = some u ↔
      ∃ m, r = .member m ∧ m.organizationId = organizationId ∧ m.role = .owner ∧ m.userId = u := by
  cases r <;> simp [ownership, ownerOf, and_assoc]

theorem ownership_regular (organizationId : Nat) :
    (ownership organizationId).Regular orgLocks OrgRow.SharesKey := by
  refine ⟨guarded_unique, fun r r' u holds holds' ne => ⟨ne, ?_⟩⟩
  obtain ⟨m, rfl, own, _, rfl⟩ := holder_eq_some.mp holds
  obtain ⟨m', rfl, own', _, same⟩ := holder_eq_some.mp holds'
  refine ⟨.seat m.organizationId m.userId, by simp [OrgRow.keys], ?_⟩
  simp [OrgRow.keys, own, own', same]

end Owners

/-! ## Statements that leave the owners alone -/

section Effects

variable {organizationId serial n : Nat} {statement : OrgStatement} {rows : List OrgRow}
  {changes : List OrgChange}

/-- The statement touches no row of an owner. -/
theorem inert_of_kind (eval : statement.eval serial rows = some (n, changes))
    (other : statement.kind ≠ .members) : (ownership organizationId).Inert changes := by
  intro c mem r touched
  have kind := kind_of_touched eval c mem r touched
  cases r with
  | member m => exact absurd kind.symm other
  | _ => rfl

/-- Members of other organizations are changed or removed. -/
theorem inert_of_changes {selects : OrganizationMember → Bool}
    {becomes : OrganizationMember → Option OrganizationMember}
    (other : ∀ m, .member m ∈ rows → selects m = true → m.organizationId ≠ organizationId)
    (stays : ∀ m m', becomes m = some m' → m'.organizationId = m.organizationId) :
    (ownership organizationId).Inert (members.changes rows selects becomes) := by
  intro c mem r touched
  obtain ⟨m, there, selected, rfl⟩ := members.mem_changes.mp mem
  have away := other m there selected
  rcases touched with old | new
  · cases old
    exact if_neg fun own => away own.1
  · obtain ⟨m', becomes_, rfl⟩ := Option.map_eq_some_iff.mp new
    exact if_neg fun own => away ((stays m m' becomes_).symm.trans own.1)

/-- No statement founds an organization but the one that puts it in. -/
theorem not_founds_of_eval (eval : statement.eval serial rows = some (n, changes))
    (fresh : organizationId ≠ serial) : ¬ (ownership organizationId).Founds changes := by
  intro founds
  obtain ⟨c, mem, r, put, live⟩ := founds
  cases r with
  | organization o =>
      have kind := kind_of_touched eval c mem _ (.inr put)
      cases statement with
      | insertOrganization slug =>
          cases eval
          cases List.mem_singleton.mp mem
          cases put
          exact fresh live.1.symm
      | softDelete id =>
          simp only [OrgStatement.eval] at eval
          split at eval
          · cases eval
          · cases eval
            obtain ⟨a, _, _, rfl⟩ := organizations.mem_changes.mp mem
            cases put
            cases live.2
      | suspendClients id =>
          cases eval
          cases mem
      | _ => cases kind
  | _ => exact live

/-! ## Statements that move the ownership -/

/-- A row that is put in is an owner of nothing, or the owner the statement makes. -/
theorem raises_of_insert {userId : Int32} :
    (ownership organizationId).Raises userId
      [{ old := none, new := some (.member ⟨serial, organizationId, userId, .owner⟩) }] rows := by
  refine ⟨.member ⟨serial, organizationId, userId, .owner⟩, by simp, ?_, _,
    List.mem_singleton_self _, rfl⟩
  exact if_pos ⟨rfl, rfl⟩

/-- The row with the number becomes an owner. -/
theorem raises_of_setRole {id : Nat} {userId : Int32} (unique : TxnDb.Clear OrgRow.SharesKey rows)
    (same : ∀ m, .member m ∈ rows → m.id = id →
      m.organizationId = organizationId ∧ m.userId = userId)
    (eval : (OrgStatement.setRole id .owner).eval serial rows = some (n, changes)) (some_ : n ≠ 0) :
    (ownership organizationId).Raises userId changes rows := by
  cases eval
  obtain ⟨c, first⟩ := List.exists_mem_of_length_pos (Nat.pos_of_ne_zero some_)
  obtain ⟨m, there, selected, rfl⟩ := members.mem_changes.mp first
  have number : m.id = id := of_decide_eq_true selected
  obtain ⟨org, user⟩ := same m there number
  refine ⟨.member { m with role := .owner }, ?_, ?_, _, first, rfl⟩
  · refine (mem_applyAll_same (P := (· = .member { m with role := .owner })) ?_ first rfl).mpr
      (.inr rfl)
    intro c' mem' _
    obtain ⟨m', there', selected', rfl⟩ := members.mem_changes.mp mem'
    have eq : m' = m := by
      by_contra ne
      refine unique _ there' _ there ⟨fun same' => ne (OrgRow.member.inj same'), .member id, ?_, ?_⟩
      · simp [members, OrgRow.keys, ← of_decide_eq_true selected']
      · simp [members, OrgRow.keys, ← number]
    rw [eq]
  · exact (if_pos ⟨org, rfl⟩).trans (congrArg some user)

theorem owners_of_setRole {id : Nat} {userId : Int32}
    (same : ∀ m, .member m ∈ rows → m.id = id →
      m.organizationId = organizationId ∧ m.userId = userId)
    (eval : (OrgStatement.setRole id .owner).eval serial rows = some (n, changes)) :
    ∀ c ∈ changes, ∀ r, c.new = some r → ∀ v, (ownership organizationId).holder r = some v →
      v = userId := by
  intro c mem r put v holds
  cases eval
  obtain ⟨m, there, selected, rfl⟩ := members.mem_changes.mp mem
  cases put
  obtain ⟨m', eq, _, _, rfl⟩ := holder_eq_some.mp holds
  cases eq
  exact (same m there (of_decide_eq_true selected)).2

section Demotion

variable {userId : Int32}
  (eval : (OrgStatement.demoteOthers organizationId userId).eval serial rows = some (n, changes))
include eval

theorem drops_of_demotion {r : OrgRow} (there : r ∈ rows) {v : Int32}
    (holds : (ownership organizationId).holder r = some v) (other : v ≠ userId) :
    ∃ c ∈ changes, c.old = some r := by
  cases eval
  obtain ⟨m, rfl, org, role, rfl⟩ := holder_eq_some.mp holds
  exact ⟨_, members.mem_changes.mpr ⟨m, there, decide_eq_true ⟨org, role, other⟩, rfl⟩, rfl⟩

theorem keeps_of_demotion {r : OrgRow} (there : r ∈ rows)
    (holds : (ownership organizationId).holder r = some userId) : r ∈ applyAll changes rows := by
  cases eval
  refine mem_applyAll there fun c mem taken => ?_
  obtain ⟨m, _, selected, rfl⟩ := members.mem_changes.mp mem
  cases taken
  obtain ⟨m', eq, _, _, user⟩ := holder_eq_some.mp holds
  cases eq
  exact (of_decide_eq_true selected).2.2 user

theorem none_of_demotion : ∀ c ∈ changes, ∀ r, c.new = some r →
    (ownership organizationId).holder r = none := by
  intro c mem r put
  cases eval
  obtain ⟨m, _, _, rfl⟩ := members.mem_changes.mp mem
  cases put
  exact if_neg fun own => by cases own.2

theorem only_of_demotion : (ownership organizationId).OnlyBy userId (applyAll changes rows) := by
  intro r mem v holds
  rcases kept_or_put mem with ⟨there, kept⟩ | ⟨c, change, put⟩
  · by_contra other
    obtain ⟨c, change, old⟩ := drops_of_demotion eval there holds other
    exact kept c change old
  · cases (none_of_demotion eval c change r put).symm.trans holds

end Demotion

/-- The organization is not live any more. -/
theorem closes_of_softDelete
    (eval : (OrgStatement.softDelete organizationId).eval serial rows = some (n, changes)) :
    ¬ (ownership organizationId).Upheld (applyAll changes rows) := by
  simp only [OrgStatement.eval] at eval
  split at eval
  · cases eval
  · cases eval
    intro upheld
    obtain ⟨r, mem, live⟩ := upheld
    rcases kept_or_put mem with ⟨there, kept⟩ | ⟨c, change, put⟩
    · cases r with
      | organization o =>
          exact kept _ (organizations.mem_changes.mpr ⟨o, there, decide_eq_true live, rfl⟩) rfl
      | _ => exact live
    · obtain ⟨o, _, _, rfl⟩ := organizations.mem_changes.mp change
      cases put
      cases live.2

end Effects

/-! ## Numbers of member rows -/

section Numbers

variable {ι : Type} [DecidableEq ι] {site : OrgSite} {m : OrgMoment} {i : ι} {s s' : OrgStore ι}

/-- A row that is committed, or that some transaction has put in. -/
def Present (db : TxnDb ι OrgRow OrgKey) (r : OrgRow) : Prop :=
  r ∈ db.rows ∨ ∃ j t, db.txn j = some t ∧ ∃ c ∈ t.changes, c.new = some r

theorem present_of_view {db : TxnDb ι OrgRow OrgKey} {r : OrgRow} (mem : r ∈ db.view i) :
    Present db r := by
  cases txn : db.txn i with
  | none => exact .inl (TxnDb.view_of_none txn ▸ mem)
  | some t =>
      rw [TxnDb.view_of_some txn] at mem
      exact (mem_of_mem_applyAll mem).imp id fun put => ⟨i, t, txn, put⟩

omit [DecidableEq ι] in
/-- Ending or keeping transactions brings no row. -/
theorem Present.older {db db' : TxnDb ι OrgRow OrgKey} {r : OrgRow} (present : Present db' r)
    (rows : ∀ r ∈ db'.rows, Present db r)
    (txns : ∀ j t, db'.txn j = some t → ∀ c ∈ t.changes, ∀ r, c.new = some r → Present db r) :
    Present db r := by
  rcases present with there | ⟨j, t, txn, c, change, put⟩
  · exact rows r there
  · exact txns j t txn c change r put

/-- What is there after a step was there before, or an executed statement put it in. -/
theorem exec_present {o : OrgOp} {r : OrgSig.Res o} (done : execOrg site m i o s = some (r, s')) :
    s.db.serial ≤ s'.db.serial ∧ ∀ row, Present s'.db row → Present s.db row ∨
      ∃ statement n changes, o = .statement statement ∧ Executed i statement n changes s s' ∧
        s'.db.serial = s.db.serial + 1 ∧ ∃ c ∈ changes, c.new = some row := by
  have ended : ∀ row, Present (s.fail i).db row → Present s.db row := by
    intro row present
    refine present.older (fun r mem => .inl mem) fun j t txn c change r put => ?_
    by_cases own : j = i
    · subst own
      rw [show (s.fail j).db.txn j = none from Function.update_self ..] at txn
      cases txn
    · rw [show (s.fail i).db.txn j = s.db.txn j from Function.update_of_ne own ..] at txn
      exact .inr ⟨j, t, txn, c, change, put⟩
  cases o with
  | query q =>
      rcases exec_query done with ⟨_, rfl⟩ | ⟨_, rfl⟩
      · exact ⟨le_rfl, fun row present => .inl (ended row present)⟩
      · exact ⟨le_rfl, fun row present => .inl present⟩
  | statement statement =>
      rcases exec_statement done with ⟨_, rfl⟩ | ⟨n, changes, rfl, executed⟩
      · exact ⟨le_rfl, fun row present => .inl (ended row present)⟩
      · have serial : s'.db.serial = s.db.serial + 1 := by
          rw [executed.eq]
          unfold TxnDb.write
          split <;> rfl
        refine ⟨serial ▸ Nat.le_succ _, fun row present => ?_⟩
        by_cases new : ∃ c ∈ changes, c.new = some row
        · exact .inr ⟨statement, n, changes, rfl, executed, serial, new⟩
        · refine .inl ?_
          cases own : s.db.txn i with
          | none =>
              obtain ⟨_, rows, txns⟩ := executed.direct own
              rcases present with there | ⟨j, t, txn, put⟩
              · rw [rows] at there
                exact .inl ((mem_of_mem_applyAll there).resolve_right new)
              · rw [txns] at txn
                exact .inr ⟨j, t, txn, put⟩
          | some t =>
              obtain ⟨txn', rows, moves⟩ := executed.buffered own
              rcases present with there | ⟨j, t', txn, c, change, put⟩
              · exact .inl (rows ▸ there)
              · by_cases acts : j = i
                · subst acts
                  cases txn'.symm.trans txn
                  rcases List.mem_append.mp change with earlier | now
                  · exact .inr ⟨j, t, own, c, earlier, put⟩
                  · exact absurd ⟨c, now, put⟩ new
                · rw [moves.others j acts] at txn
                  exact .inr ⟨j, t', txn, c, change, put⟩
  | newTransaction =>
      rcases exec_newTransaction done with ⟨_, rfl⟩ | ⟨_, rfl⟩
      · exact ⟨le_rfl, fun row present => .inl present⟩
      · refine ⟨le_rfl, fun row present => .inl (present.older (fun r mem => .inl mem) ?_)⟩
        intro j t txn c change r put
        by_cases own : j = i
        · subst own
          rw [show (s.db.start j).txn j = some {} from Function.update_self ..] at txn
          cases txn
          cases change
        · rw [show (s.db.start i).txn j = s.db.txn j from Function.update_of_ne own ..] at txn
          exact .inr ⟨j, t, txn, c, change, put⟩
  | advisoryLock key =>
      rcases exec_advisoryLock done with ⟨_, rfl⟩ | ⟨_, _, rfl⟩
      · exact ⟨le_rfl, fun row present => .inl (ended row present)⟩
      · dsimp only
        unfold TxnDb.take
        split
        · exact ⟨le_rfl, fun row present => .inl present⟩
        · rename_i t own
          refine ⟨le_rfl, fun row present => .inl (present.older (fun r mem => .inl mem) ?_)⟩
          intro j t' txn c change r put
          dsimp only at txn
          by_cases acts : j = i
          · subst acts
            rw [Function.update_self] at txn
            cases txn
            exact .inr ⟨j, t, own, c, change, put⟩
          · rw [Function.update_of_ne acts] at txn
            exact .inr ⟨j, t', txn, c, change, put⟩
  | commit =>
      rcases exec_commit done with ⟨_, rfl⟩ | ⟨_, rfl⟩
      · exact ⟨le_rfl, fun row present => .inl (ended row present)⟩
      · refine ⟨le_rfl, fun row present => .inl (present.older (fun r => present_of_view) ?_)⟩
        intro j t txn c change r put
        by_cases own : j = i
        · subst own
          rw [show (s.db.finish j).txn j = none from Function.update_self ..] at txn
          cases txn
        · rw [show (s.db.finish i).txn j = s.db.txn j from Function.update_of_ne own ..] at txn
          exact .inr ⟨j, t, txn, c, change, put⟩
  | rollback =>
      rw [exec_rollback done]
      exact ⟨le_rfl, fun row present => .inl (ended row present)⟩
  | detach save =>
      rw [exec_detach done]
      exact ⟨le_rfl, fun row present => .inl present⟩
  | awaitSave =>
      obtain ⟨queue, _, rfl⟩ := exec_awaitSave done
      exact ⟨le_rfl, fun row present => .inl present⟩
  | _ =>
      rw [exec_outside done (by trivial)]
      exact ⟨le_rfl, fun row present => .inl present⟩

/-- Two rows of one seat, whatever the role. -/
def SameSeat (m m' : OrganizationMember) : Prop :=
  m.organizationId = m'.organizationId ∧ m.userId = m'.userId

/-- A member row that is put in is a new one, or changes the role in another. -/
theorem put_member {statement : OrgStatement} {serial n : Nat} {rows : List OrgRow}
    {changes : List OrgChange} (eval : statement.eval serial rows = some (n, changes))
    {c : OrgChange} (mem : c ∈ changes) {row : OrganizationMember}
    (put : c.new = some (.member row)) :
    (∃ organizationId userId role, statement = .insertMember organizationId userId role ∧
        row = ⟨serial, organizationId, userId, role⟩) ∨
      ∃ old, .member old ∈ rows ∧ old.id = row.id ∧ SameSeat old row := by
  have kind := kind_of_touched eval c mem _ (.inr put)
  cases statement with
  | insertMember organizationId userId role =>
      cases eval
      cases List.mem_singleton.mp mem
      cases put
      exact .inl ⟨organizationId, userId, role, rfl, rfl⟩
  | setRole id role =>
      cases eval
      obtain ⟨old, there, _, rfl⟩ := members.mem_changes.mp mem
      cases put
      exact .inr ⟨old, there, rfl, rfl, rfl⟩
  | demoteOthers organizationId userId =>
      cases eval
      obtain ⟨old, there, _, rfl⟩ := members.mem_changes.mp mem
      cases put
      exact .inr ⟨old, there, rfl, rfl, rfl⟩
  | deleteMember organizationId userId =>
      cases eval
      obtain ⟨old, _, _, rfl⟩ := members.mem_changes.mp mem
      cases put
  | detachMembers organizationId =>
      cases eval
      obtain ⟨old, _, _, rfl⟩ := members.mem_changes.mp mem
      cases put
  | _ => cases kind

/-- A number is below the next one, and belongs to one seat, that of the row that was read. -/
structure SeatNumbers (db : TxnDb ι OrgRow OrgKey)
    (read : ι → Option OrganizationMember) : Prop where
  below : ∀ m, Present db (.member m) → m.id < db.serial
  agree : ∀ m m', Present db (.member m) → Present db (.member m') → m.id = m'.id → SameSeat m m'
  reads : ∀ j row, read j = some row → row.id < db.serial ∧
    ∀ m, Present db (.member m) → m.id = row.id → SameSeat m row

theorem exec_seated {read : ι → Option OrganizationMember} {o : OrgOp} {r : OrgSig.Res o}
    (seated : SeatNumbers s.db read) (done : execOrg site m i o s = some (r, s')) :
    SeatNumbers s'.db read := by
  obtain ⟨serial, present⟩ := exec_present done
  -- where a member row comes from
  have origin : ∀ row, Present s'.db (.member row) →
      (∃ old, Present s.db (.member old) ∧ old.id = row.id ∧ SameSeat old row) ∨
        s'.db.serial = s.db.serial + 1 ∧ ∃ organizationId userId role,
          o = .statement (.insertMember organizationId userId role) ∧
            row = ⟨s.db.serial, organizationId, userId, role⟩ := by
    intro row there
    rcases present (.member row) there with
      old | ⟨statement, n, changes, rfl, executed, next, c, change, put⟩
    · exact .inl ⟨row, old, rfl, rfl, rfl⟩
    · rcases put_member executed.eval change put with
        ⟨organizationId, userId, role, rfl, rfl⟩ | ⟨old, mem, same⟩
      · exact .inr ⟨next, organizationId, userId, role, rfl, rfl⟩
      · exact .inl ⟨old, present_of_view mem, same⟩
  refine ⟨fun row there => ?_, fun row row' there there' same => ?_, fun j found read_ => ?_⟩
  · rcases origin row there with ⟨old, there', same, _⟩ | ⟨next, _, _, _, _, rfl⟩
    · exact same ▸ (seated.below old there').trans_le serial
    · exact next ▸ Nat.lt_succ_self _
  · rcases origin row there with ⟨old, before, id, seat⟩ | ⟨_, _, _, _, eq, rfl⟩
    · rcases origin row' there' with ⟨old', before', id', seat'⟩ | ⟨_, _, _, _, _, rfl⟩
      · obtain ⟨org, user⟩ := seated.agree old old' before before' (by omega)
        exact ⟨seat.1.symm.trans (org.trans seat'.1), seat.2.symm.trans (user.trans seat'.2)⟩
      · have lt := seated.below old before
        dsimp only at same
        omega
    · rcases origin row' there' with ⟨old', before', id', _⟩ | ⟨_, _, _, _, eq', rfl⟩
      · have lt := seated.below old' before'
        dsimp only at same
        omega
      · cases eq.symm.trans eq'
        exact ⟨rfl, rfl⟩
  · obtain ⟨lt, seats⟩ := seated.reads j found read_
    refine ⟨lt.trans_le serial, fun row there same => ?_⟩
    rcases origin row there with ⟨old, before, id, seat⟩ | ⟨_, _, _, _, _, rfl⟩
    · obtain ⟨org, user⟩ := seats old before (id.trans same)
      exact ⟨seat.1.symm.trans org, seat.2.symm.trans user⟩
    · exact absurd same (Nat.ne_of_gt lt)

/-- A thread reads a row that it sees. -/
theorem SeatNumbers.read {read : ι → Option OrganizationMember} (seated : SeatNumbers s.db read)
    {row : OrganizationMember} (mem : .member row ∈ s.db.view i) :
    SeatNumbers s.db (Function.update read i (some row)) := by
  refine ⟨seated.below, seated.agree, fun j found read_ => ?_⟩
  by_cases own : j = i
  · subst own
    rw [Function.update_self] at read_
    cases read_
    exact ⟨seated.below row (present_of_view mem), fun m there =>
      seated.agree m row there (present_of_view mem)⟩
  · rw [Function.update_of_ne own] at read_
    exact seated.reads j found read_

end Numbers

end Fulla
