import Fulla.Org.DeletionCascade

/-!
# What keeps a deletion and additions apart

The first step of the cascade changes the row of the organization and so holds the lock on the
references to it until the transaction ends; a member, an invitation or a consent that is put in
holds this lock shared.  So the two are never open at the same time, whatever advisory locks they
take.  A consent that is there already is given again without such a lock.

`timely_of`: a statement is in time for the cascade if it adds nothing to a deleted organization,
and gives no consent again while another thread is revoking them.
-/

namespace Fulla

open Conc OrgTable OrgRow

/-- The organization of the rows that a statement puts in and a deletion sweeps. -/
def addsTo : OrgStatement → Option Nat
  | .insertMember id _ _ => some id
  | .insertInvitation id _ _ _ _ => some id
  | .upsertConsent id _ _ _ => some id
  | _ => none

/-- The organization is soft-deleted. -/
def Deleted (organizationId : Nat) (rows : List OrgRow) : Prop :=
  ∃ o ∈ organizations.of rows, o.id = organizationId ∧ o.deleted = true

/-- The organization is there, live or deleted. -/
def Recorded (organizationId : Nat) (rows : List OrgRow) : Prop :=
  ∃ o ∈ organizations.of rows, o.id = organizationId

/-- The organization is not taken out by the change, and if it is deleted it stays as it is. -/
def KeepsOrganization (organizationId : Nat) (c : OrgChange) : Prop :=
  ∀ o, c.old = some (.organization o) → o.id = organizationId →
    o.deleted = false ∧ ∃ o', c.new = some (.organization o') ∧ o'.id = organizationId

/-- A consent of the organization that is there already is given. -/
def Regrants (organizationId : Nat) (c : OrgChange) : Prop :=
  ∃ k k', c.old = some (.consent k) ∧ c.new = some (.consent k') ∧
    k'.organizationId = organizationId ∧ k'.revoked = false

section Rows

variable {organizationId : Nat} {rows : List OrgRow} {changes : List OrgChange}

theorem deleted_iff : Deleted organizationId rows ↔ ∃ d ∈ rows, IsTombstone organizationId d := by
  constructor
  · intro deleted
    obtain ⟨o, mem, gone⟩ := deleted
    exact ⟨.organization o, organizations.mem_of.mp mem, gone⟩
  · intro tombstone
    obtain ⟨d, mem, gone⟩ := tombstone
    cases d with
    | organization o => exact ⟨o, organizations.mem_of.mpr mem, gone⟩
    | _ => exact gone.elim

/-- A deletion is for good. -/
theorem Deleted.applyAll (deleted : Deleted organizationId rows)
    (keeps : ∀ c ∈ changes, KeepsOrganization organizationId c) :
    Deleted organizationId (applyAll changes rows) := by
  obtain ⟨o, mem, own, gone⟩ := deleted
  refine ⟨o, organizations.mem_of.mpr ?_, own, gone⟩
  refine mem_applyAll (organizations.mem_of.mp mem) fun c change old => ?_
  cases gone.symm.trans (keeps c change o old own).1

theorem Recorded.apply {c : OrgChange} (known : Recorded organizationId rows)
    (keeps : KeepsOrganization organizationId c) : Recorded organizationId (c.apply rows) := by
  obtain ⟨o, mem, own⟩ := known
  by_cases old : c.old = some (.organization o)
  · obtain ⟨_, o', put, own'⟩ := keeps o old own
    exact ⟨o', organizations.mem_of.mpr (Change.mem_apply.mpr (.inr put)), own'⟩
  · exact ⟨o, organizations.mem_of.mpr
      (Change.mem_apply.mpr (.inl ⟨organizations.mem_of.mp mem, old⟩)), own⟩

theorem Recorded.applyAll (known : Recorded organizationId rows)
    (keeps : ∀ c ∈ changes, KeepsOrganization organizationId c) :
    Recorded organizationId (applyAll changes rows) := by
  induction changes generalizing rows with
  | nil => exact known
  | cons c changes ih =>
      exact ih (known.apply (keeps c List.mem_cons_self)) fun c' mem =>
        keeps c' (List.mem_cons_of_mem c mem)

/-- What is deleted afterwards was deleted before, or a change has deleted it. -/
theorem Deleted.of_applyAll (deleted : Deleted organizationId (Conc.applyAll changes rows)) :
    Deleted organizationId rows ∨
      ∃ c ∈ changes, ∃ d, c.new = some d ∧ IsTombstone organizationId d := by
  obtain ⟨d, mem, gone⟩ := deleted_iff.mp deleted
  rcases mem_of_mem_applyAll mem with old | ⟨c, change, put⟩
  · exact .inl (deleted_iff.mpr ⟨d, old, gone⟩)
  · exact .inr ⟨c, change, d, put, gone⟩

/-- One row has the number of an organization. -/
theorem not_deleted_of_live (unique : TxnDb.Clear SharesKey rows) {o : Organization}
    (mem : .organization o ∈ rows) (own : o.id = organizationId) (live : o.deleted = false) :
    ¬ Deleted organizationId rows := by
  intro deleted
  obtain ⟨o', mem', own', gone⟩ := deleted
  refine unique _ mem _ (organizations.mem_of.mp mem')
    ⟨fun same => ?_, .organization organizationId, ?_, ?_⟩
  · cases OrgRow.organization.inj same
    cases live.symm.trans gone
  · rw [← own]
    exact List.mem_cons_self
  · rw [← own']
    exact List.mem_cons_self

end Rows

/-! ## Statements -/

section Statements

variable {organizationId serial n : Nat} {rows : List OrgRow} {changes : List OrgChange}
  {s v : OrgStatement}

theorem addsTo_of_undone (step : v ∈ cascadeSteps organizationId) (undone : undoneBy s = some v) :
    addsTo s = some organizationId := by
  cases s with
  | insertMember id userId role =>
      cases undone
      simpa [cascadeSteps, addsTo] using step
  | insertInvitation id email role token expiresAt =>
      cases undone
      simpa [cascadeSteps, addsTo] using step
  | upsertConsent id clientId scope grantedBy =>
      cases undone
      simpa [cascadeSteps, addsTo] using step
  | _ => cases undone

/-- Only the deletion changes an organization, and only a live one. -/
theorem eval_keeps (eval : s.eval serial rows = some (n, changes)) :
    ∀ c ∈ changes, KeepsOrganization organizationId c := by
  intro c mem o old own
  have kind := kind_of_touched eval c mem _ (.inl old)
  cases s with
  | insertOrganization slug =>
      cases eval
      cases List.mem_singleton.mp mem
      cases old
  | softDelete id =>
      simp only [OrgStatement.eval] at eval
      split at eval
      · cases eval
      · cases eval
        obtain ⟨a, _, selected, rfl⟩ := organizations.mem_changes.mp mem
        cases old
        exact ⟨(of_decide_eq_true selected).2, tombstone o, rfl, own⟩
  | suspendClients id =>
      cases eval
      cases mem
  | _ => cases kind

/-- A row that is put in holds a shared lock on the reference to its organization. -/
theorem shared_of_insert {row : OrgRow} (refers : row.refersTo = some organizationId) :
    ({ key := .reference organizationId, exclusive := false } : OrgLock) ∈
      orgLocks { old := none, new := some row } := by
  refine List.mem_append_right _ ?_
  simp only [Option.bind_some, refers]
  exact List.mem_singleton_self _

/-- A statement that adds to the organization locks the reference to it, unless it gives a
consent again. -/
theorem eval_adds (eval : s.eval serial rows = some (n, changes))
    (step : v ∈ cascadeSteps organizationId) (undone : undoneBy s = some v) :
    { key := .reference organizationId, exclusive := false } ∈ changes.flatMap orgLocks ∨
      v = .revokeConsents organizationId ∧ ∃ c ∈ changes, Regrants organizationId c := by
  have own := addsTo_of_undone step undone
  cases s with
  | insertMember id userId role =>
      cases eval
      exact .inl (List.mem_flatMap.mpr ⟨_, List.mem_singleton_self _, shared_of_insert own⟩)
  | insertInvitation id email role token expiresAt =>
      cases eval
      exact .inl (List.mem_flatMap.mpr ⟨_, List.mem_singleton_self _, shared_of_insert own⟩)
  | upsertConsent id clientId scope grantedBy =>
      simp only [OrgStatement.eval] at eval
      split at eval
      · next there =>
          cases eval
          cases own
          obtain ⟨k, mem, same⟩ := List.any_eq_true.mp there
          refine .inr ⟨(Option.some.inj undone).symm, _,
            consents.mem_changes.mpr ⟨k, consents.mem_of.mp mem, same, rfl⟩, k, _,
              rfl, rfl, ?_, rfl⟩
          exact (of_decide_eq_true same).1
      · cases eval
        exact .inl (List.mem_flatMap.mpr ⟨_, List.mem_singleton_self _, shared_of_insert own⟩)
  | _ => cases undone

/-- The first step of the cascade locks the references to an organization that is not deleted. -/
theorem eval_softDelete
    (eval : (OrgStatement.softDelete organizationId).eval serial rows = some (n, changes))
    (known : Recorded organizationId rows) :
    { key := .reference organizationId } ∈ changes.flatMap orgLocks ∨
      Deleted organizationId rows := by
  obtain ⟨o, mem, own⟩ := known
  cases gone : o.deleted with
  | true => exact .inr ⟨o, mem, own, gone⟩
  | false =>
      simp only [OrgStatement.eval] at eval
      split at eval
      · cases eval
      · cases eval
        refine .inl (List.mem_flatMap.mpr ⟨_, organizations.mem_changes.mpr
          ⟨o, organizations.mem_of.mp mem, decide_eq_true ⟨own, gone⟩, rfl⟩, ?_⟩)
        refine List.mem_append_left _ (List.mem_append_right _ ?_)
        rw [← own]
        refine List.mem_map.mpr ⟨o, List.mem_filterMap.mpr ⟨organizations.put o, ?_, rfl⟩, rfl⟩
        exact List.mem_append_left _ (List.mem_singleton_self _)

end Statements

/-! ## Transactions -/

/-- What an open transaction holds after the statements `l`. -/
structure Braced (organizationId : Nat) (rows : List OrgRow) (u : Txn OrgRow OrgKey)
    (l : List OrgStatement) : Prop where
  adding : ∀ a ∈ l, ∀ v ∈ cascadeSteps organizationId, undoneBy a = some v →
    { key := .reference organizationId, exclusive := false } ∈ u.locks ∨
      v = .revokeConsents organizationId ∧ ∃ c ∈ u.changes, Regrants organizationId c
  deleting : ∀ v ∈ l, v ∈ cascadeSteps organizationId →
    { key := .reference organizationId } ∈ u.locks ∨ Deleted organizationId rows

namespace Braced

variable {organizationId : Nat} {rows : List OrgRow} {u : Txn OrgRow OrgKey}
  {l : List OrgStatement}

theorem nil : Braced organizationId rows u [] := by
  refine ⟨fun a mem => ?_, fun v mem => ?_⟩ <;> cases mem

/-- What the others commit. -/
theorem of_rows (braced : Braced organizationId rows u l) {rows' : List OrgRow}
    (kept : Deleted organizationId rows → Deleted organizationId rows') :
    Braced organizationId rows' u l :=
  ⟨braced.adding, fun v mem step => (braced.deleting v mem step).imp_right kept⟩

theorem take (braced : Braced organizationId rows u l) (lock : OrgLock) :
    Braced organizationId rows { u with locks := u.locks ++ [lock] } l :=
  ⟨fun a mem v step undone =>
      (braced.adding a mem v step undone).imp_left (List.mem_append_left [lock]),
    fun v mem step => (braced.deleting v mem step).imp_left (List.mem_append_left [lock])⟩

/-- One more statement. -/
theorem execute (braced : Braced organizationId rows u l) {s : OrgStatement} {serial n : Nat}
    {changes : List OrgChange}
    (eval : s.eval serial (applyAll u.changes rows) = some (n, changes))
    (first : s ∈ cascadeSteps organizationId → s = .softDelete organizationId ∨
      .softDelete organizationId ∈ l)
    (known : s ∈ cascadeSteps organizationId → Recorded organizationId (applyAll u.changes rows))
    (marked : ∀ c ∈ u.changes, ∀ d, c.new = some d → IsTombstone organizationId d →
      ∃ v ∈ l, v ∈ cascadeSteps organizationId) :
    Braced organizationId rows ⟨u.changes ++ changes, u.locks ++ changes.flatMap orgLocks⟩
      (s :: l) := by
  have earlier : ∀ v ∈ l, v ∈ cascadeSteps organizationId →
      { key := .reference organizationId } ∈ u.locks ++ changes.flatMap orgLocks ∨
        Deleted organizationId rows := fun v mem step =>
    (braced.deleting v mem step).imp_left (List.mem_append_left _)
  refine ⟨fun a mem v step undone => ?_, fun v mem step => ?_⟩
  · rcases List.mem_cons.mp mem with rfl | mem
    · rcases eval_adds eval step undone with locked | ⟨own, c, change, regrants⟩
      · exact .inl (List.mem_append_right _ locked)
      · exact .inr ⟨own, c, List.mem_append_right _ change, regrants⟩
    · rcases braced.adding a mem v step undone with locked | ⟨own, c, change, regrants⟩
      · exact .inl (List.mem_append_left _ locked)
      · exact .inr ⟨own, c, List.mem_append_left _ change, regrants⟩
  · rcases List.mem_cons.mp mem with rfl | mem
    · rcases first step with rfl | ran
      · rcases eval_softDelete eval (known step) with locked | gone
        · exact .inl (List.mem_append_right _ locked)
        -- the tombstone is committed, or of an earlier step of this transaction
        · rcases gone.of_applyAll with gone | ⟨c, change, d, put, tombstone⟩
          · exact .inr gone
          · obtain ⟨v, ran, step'⟩ := marked c change d put tombstone
            exact earlier v ran step'
      · exact earlier _ ran List.mem_cons_self
    · exact earlier v mem step

end Braced

section Timely

variable {ι : Type} [DecidableEq ι] {organizationId : Nat} {db : TxnDb ι OrgRow OrgKey}
  {pending : ι → Option (List OrgStatement)} {i : ι} {s : OrgStatement} {n : Nat}
  {changes : List OrgChange}

theorem reference_conflicts :
    Lock.conflicts ({ key := .reference organizationId, exclusive := false } : OrgLock)
      { key := .reference organizationId } = true := by
  simp [Lock.conflicts]

/-- Locks and the look at the organization keep a statement and the cascade apart. -/
theorem timely_of (holds : (orgCascade organizationId).Holds orgLocks db pending)
    (braced : ∀ j u l, db.txn j = some u → pending j = some l →
      Braced organizationId db.rows u l)
    (eval : s.eval db.serial (db.view i) = some (n, changes))
    (free : db.blocked i (changes.flatMap orgLocks) = false)
    (first : s ∈ cascadeSteps organizationId → s = .softDelete organizationId ∨
      ∃ l, pending i = some l ∧ .softDelete organizationId ∈ l)
    (live : addsTo s = some organizationId → ¬ Deleted organizationId db.rows)
    (regrants : (∃ c ∈ changes, Regrants organizationId c) → ∀ j ≠ i, ∀ l,
      pending j = some l → .revokeConsents organizationId ∉ l)
    (revokes : s = .revokeConsents organizationId → ∀ j ≠ i, ∀ u, db.txn j = some u →
      ∀ c ∈ u.changes, ¬ Regrants organizationId c) :
    (orgCascade organizationId).Timely db.rows pending i s := by
  have opened : ∀ j l, pending j = some l → ∃ u, db.txn j = some u := by
    intro j l there
    cases txn : db.txn j with
    | none => cases ((holds.idle j).mp txn).symm.trans there
    | some u => exact ⟨u, rfl⟩
  refine ⟨fun v step undone d mem gone => ?_, fun v step undone j ne l there ran => ?_,
    fun step j ne l there a ran undone => ?_⟩
  · exact live (addsTo_of_undone step undone) (deleted_iff.mpr ⟨d, mem, gone⟩)
  -- an addition, while another thread's cascade is open
  · obtain ⟨u, txn⟩ := opened j l there
    rcases eval_adds eval step undone with locked | ⟨rfl, regrant⟩
    · rcases (braced j u l txn there).deleting v ran step with held | gone
      · have apart := TxnDb.not_conflicts_of_not_blocked holds.sound free ne txn locked held
        rw [reference_conflicts] at apart
        cases apart
      · exact live (addsTo_of_undone step undone) gone
    · exact regrants regrant j ne l there ran
  -- a step of the cascade, while another thread's addition is open
  · obtain ⟨u, txn⟩ := opened j l there
    have stands : ¬ Deleted organizationId db.rows := by
      intro gone
      obtain ⟨d, mem, tombstone⟩ := deleted_iff.mp gone
      exact (holds.each j u l txn there).stands a ran s step undone d mem tombstone
    rcases first step with rfl | ⟨l', mine, before⟩
    · cases a <;> cases undone
    rcases (braced j u l txn there).adding a ran s step undone with
      shared | ⟨rfl, c, change, regrant⟩
    · obtain ⟨u', own⟩ := opened i l' mine
      rcases (braced i u' l' own mine).deleting _ before List.mem_cons_self with held | gone
      · have apart := holds.sound.apart j i u u' ne txn own _ shared _ held
        rw [reference_conflicts] at apart
        cases apart
      · exact stands gone
    · exact revokes rfl j ne u txn c change regrant

end Timely

end Fulla
