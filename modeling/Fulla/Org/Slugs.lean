import Fulla.Org.Constraints

/-!
# Slugs of deleted organizations

A deletion rewrites the slug of the organization to a tombstone, and both ways to create an
organization refuse a slug that has one.  Neither locks the slug from that check to the insert.
The unique index keeps a slug from being held twice at any time (`slug_unique`), and locks keep
a deletion and an insert of one slug apart that are open at the same time; what is left is a
deletion that commits between the check and the insert.
-/

namespace Fulla

open Conc OrgTable OrgRow

/-- The calls that touch the slugs of organizations. -/
inductive SlugCall where
  | createOrg (userId : String) (r : CreateOrgRequest)
  | adminCreate (r : CreateOrgRequest)
  | deleteOrg (slug : String)

/-- As calls of the services. -/
def SlugCall.call : SlugCall → OrgCall
  | createOrg userId r => .createOrg userId r
  | adminCreate r => .adminCreate r
  | deleteOrg slug => .deleteOrg slug

/-- The organization was deleted when it had this slug. -/
def DeletedAs (s : String) (d : Organization) : Prop :=
  d.deleted = true ∧ d.slug = s ++ "#del-" ++ toString d.id

/-- The first row is a deleted organization, and the second one holds its (valid) slug. -/
def Reuses (r r' : OrgRow) : Prop :=
  ∃ d o, r = .organization d ∧ r' = .organization o ∧ validSlug o.slug = true ∧ DeletedAs o.slug d

/-- Only a deletion puts in a deleted organization. -/
def RegularSlug (c : OrgChange) : Prop :=
  ∀ d, c.new = some (.organization d) → d.deleted = true →
    ∃ o, c.old = some (.organization o) ∧ d = tombstone o

/-! ## Slugs and their tombstones -/

theorem slug_of_deletedAs {s : String} {o : Organization} (deleted : DeletedAs s (tombstone o)) :
    s = o.slug := by
  have eq : o.slug ++ "#del-" ++ toString o.id = s ++ "#del-" ++ toString o.id := deleted.2
  have lists := congrArg String.toList eq
  simp only [String.toList_append, List.append_assoc, List.append_cancel_right_eq] at lists
  exact (String.toList_inj.mp lists).symm

/-- A tombstone is no slug that a user could choose. -/
theorem not_valid_tombstone (o : Organization) : validSlug (tombstone o).slug = false := by
  have hash : '#' ∈ (tombstone o).slug.toList := by
    simp [tombstone, String.toList_append]
  cases valid : validSlug (tombstone o).slug with
  | false => rfl
  | true =>
      simp only [validSlug, Bool.and_eq_true, List.all_eq_true] at valid
      have bad := valid.1.1.2 '#' hash
      revert bad
      decide

theorem isTombstoneOf_of_deletedAs {s : String} {d : Organization} (deleted : DeletedAs s d) :
    isTombstoneOf s d = true := by
  unfold isTombstoneOf
  rw [deleted.2, List.isPrefixOf_iff_prefix]
  simp only [String.toList_append]
  exact List.prefix_append ..

/-- Two insertions of one slug exclude each other by their locks. -/
theorem guarded_slug : TxnDb.Guarded orgLocks RegularSlug Reuses := by
  refine ⟨fun c c' r _ _ touched touched' => excludes_of_row touched touched', ?_⟩
  have one : ∀ c c' r r', RegularSlug c → c.new = some r → c'.new = some r' → Reuses r r' →
      TxnDb.Excludes orgLocks c c' ∧ TxnDb.Excludes orgLocks c' c := by
    intro c c' r r' regular put put' reuses
    obtain ⟨d, o, rfl, rfl, _, deleted⟩ := reuses
    obtain ⟨x, old, rfl⟩ := regular d put deleted.1
    have slug := slug_of_deletedAs deleted
    have key : OrgKey.slug o.slug ∈ (OrgRow.organization x).keys := by
      rw [slug]
      exact List.mem_cons_of_mem _ List.mem_cons_self
    have key' : OrgKey.slug o.slug ∈ (OrgRow.organization o).keys :=
      List.mem_cons_of_mem _ List.mem_cons_self
    exact ⟨excludes_of_key (.inl old) (.inr put') key key',
      excludes_of_key (.inr put') (.inl old) key' key⟩
  intro c c' r r' regular regular' put put' reuses
  rcases reuses with reuses | reuses
  · exact (one c c' r r' regular put put' reuses).1
  · exact (one c' c r' r regular' put' put reuses).2

/-! ## Statements -/

/-- A statement that writes another table. -/
theorem slug_other_kind {statement : OrgStatement} {serial n : Nat} {rows : List OrgRow}
    {changes : List OrgChange} (eval : statement.eval serial rows = some (n, changes))
    (other : statement.kind ≠ .organizations) (clear : TxnDb.Clear Reuses rows) :
    (∀ c ∈ changes, RegularSlug c) ∧ TxnDb.Clear Reuses (applyAll changes rows) := by
  refine ⟨fun c mem d put _ => ?_, fun r mem r' mem' reuses => ?_⟩
  · exact absurd (kind_of_touched eval c mem _ (.inr put)).symm other
  · obtain ⟨d, o, rfl, rfl, _⟩ := id reuses
    have stays : ∀ o, OrgRow.organization o ∈ applyAll changes rows →
        OrgRow.organization o ∈ rows := fun o =>
      (mem_of_other_kind eval (r := .organization o) (Ne.symm other)).mp
    exact clear _ (stays d mem) _ (stays o mem') reuses

/-- A deletion: the slug that it gives up is held by no other row. -/
theorem slug_softDelete {organizationId serial n : Nat} {rows : List OrgRow}
    {changes : List OrgChange}
    (eval : (OrgStatement.softDelete organizationId).eval serial rows = some (n, changes))
    (unique : TxnDb.Clear SharesKey rows) (clear : TxnDb.Clear Reuses rows) :
    (∀ c ∈ changes, RegularSlug c) ∧ TxnDb.Clear Reuses (applyAll changes rows) := by
  simp only [OrgStatement.eval] at eval
  split at eval
  · cases eval
  cases eval
  have form : ∀ c ∈ organizations.changes rows
      (fun o => decide (o.id = organizationId ∧ o.deleted = false)) fun o => some (tombstone o),
      ∃ a, OrgRow.organization a ∈ rows ∧ c.old = some (.organization a) ∧
        c.new = some (.organization (tombstone a)) := by
    intro c mem
    obtain ⟨a, there, _, rfl⟩ := organizations.mem_changes.mp mem
    exact ⟨a, there, rfl, rfl⟩
  refine ⟨fun c mem d put _ => ?_, fun r mem r' mem' reuses => ?_⟩
  · obtain ⟨a, _, old, new⟩ := form c mem
    rw [new] at put
    cases put
    exact ⟨a, old, rfl⟩
  · obtain ⟨d, o, rfl, rfl, valid, deleted⟩ := id reuses
    -- the row with a valid slug is no tombstone, so it was there and stays
    have kept : OrgRow.organization o ∈ rows ∧ ∀ c ∈ organizations.changes rows
        (fun o => decide (o.id = organizationId ∧ o.deleted = false)) fun o => some (tombstone o),
        c.old ≠ some (.organization o) := by
      rcases kept_or_put mem' with kept | ⟨c, change, put⟩
      · exact kept
      · obtain ⟨a, _, _, new⟩ := form c change
        cases new.symm.trans put
        rw [not_valid_tombstone] at valid
        cases valid
    rcases kept_or_put mem with ⟨there, _⟩ | ⟨c, change, put⟩
    · exact clear _ there _ kept.1 reuses
    · obtain ⟨a, there, old, new⟩ := form c change
      cases new.symm.trans put
      have slug := slug_of_deletedAs deleted
      by_cases same : a = o
      · subst same
        exact kept.2 c change old
      · refine unique _ there _ kept.1 ⟨fun eq => same (OrgRow.organization.inj eq),
          .slug o.slug, ?_, List.mem_cons_of_mem _ List.mem_cons_self⟩
        rw [slug]
        exact List.mem_cons_of_mem _ List.mem_cons_self

/-- An insert of a slug that no deleted organization had. -/
theorem slug_insert {slug : String} {serial n : Nat} {rows : List OrgRow}
    {changes : List OrgChange}
    (eval : (OrgStatement.insertOrganization slug).eval serial rows = some (n, changes))
    (none : ∀ d, OrgRow.organization d ∈ rows → ¬ DeletedAs slug d)
    (clear : TxnDb.Clear Reuses rows) :
    (∀ c ∈ changes, RegularSlug c) ∧ TxnDb.Clear Reuses (applyAll changes rows) := by
  cases eval
  refine ⟨fun c mem d put deleted => ?_, fun r mem r' mem' reuses => ?_⟩
  · cases List.mem_singleton.mp mem
    cases put
    cases deleted
  · obtain ⟨d, o, rfl, rfl, valid, deleted⟩ := id reuses
    simp only [applyAll_cons, applyAll_nil, Change.apply_insert, List.mem_append,
      List.mem_singleton] at mem mem'
    rcases mem with there | new
    · rcases mem' with there' | new'
      · exact clear _ there _ there' reuses
      · cases new'
        exact none d there deleted
    · cases new
      cases deleted.1

/-! ## Runs -/

section Runs

variable {ι : Type} [DecidableEq ι]

/-- The event commits the deletion of an organization with this slug. -/
def Deletes (s : String) (e : OrgEvent ι) : Prop :=
  ∃ o : Organization, o.slug = s ∧
    ({ old := some (.organization o), new := some (.organization (tombstone o)) } : OrgChange) ∈
      commits e.thread e.pre e.op e.res

/-- The slug that the event inserts. -/
def insertedSlug : OrgEvent ι → Option String
  | ⟨_, _, .statement (.insertOrganization s), some _, _⟩ => some s
  | _ => none

/-- No deletion of the slug has committed since the thread looked for its tombstones. -/
def NoDeletionSinceCheck (e : OrgEvent ι) (log : List (OrgEvent ι)) : Prop :=
  ∀ s, insertedSlug e = some s → ∀ (later : List (OrgEvent ι)) (check : OrgEvent ι)
    (earlier : List (OrgEvent ι)), log = later ++ check :: earlier →
    check.thread = e.thread → check.op = .query (.tombstones s) → ∀ d ∈ later, ¬ Deletes s d

/-- The thread has looked for tombstones, and those there are now are of later deletions. -/
def Seen (s : String) (i : ι) (w : OrgWorld ι) : Prop :=
  ∃ (later : List (OrgEvent ι)) (check : OrgEvent ι) (earlier : List (OrgEvent ι)),
    w.log = later ++ check :: earlier ∧ check.thread = i ∧
    check.op = .query (.tombstones s) ∧
    ((∃ d, OrgRow.organization d ∈ w.db.db.rows ∧ DeletedAs s d) → ∃ e ∈ later, Deletes s e)

/-- How far a call has come with its slug. -/
inductive SlugStage where
  /-- Nothing is known. -/
  | free
  /-- Nothing is buffered. -/
  | clean
  | checked (slug : String)

/-- The thread sees what is committed. -/
def Clean (i : ι) (w : OrgWorld ι) : Prop :=
  ∀ t, w.db.db.txn i = some t → t.changes = []

/-- What is known at a stage. -/
def SlugStage.Holds (i : ι) (w : OrgWorld ι) : SlugStage → Prop
  | free => True
  | clean => Clean i w
  | checked s => Clean i w ∧ Seen s i w

/-- What the calls keep of the tables. -/
structure SlugShared (w : OrgWorld ι) : Prop where
  sound : w.db.db.Sound orgLocks
  unique : Unique w.db.db
  clear : Views RegularSlug Reuses w.db.db

/-- The invariant of a run. -/
abbrev SlugInv : OrgWorld ι → (ι → SlugStage) → Prop :=
  Each SlugShared fun i g w => g.Holds i w

/-- The program keeps the invariant. -/
abbrev SlugUpholds (site : OrgSite) (i : ι) (p : OrgProg OrgAnswer) (g : SlugStage) : Prop :=
  Upholds (execOrg site) NoDeletionSinceCheck SlugInv i (fun _ _ => True) p g

variable {site : OrgSite} {i : ι} {w : OrgWorld ι} {γ : ι → SlugStage} {s' : OrgStore ι}
  {o : OrgOp} {r : OrgSig.Res o} {m : OrgMoment}

omit [DecidableEq ι] in
theorem slug_own (inv : SlugInv w γ) {g : SlugStage} (own : γ i = g) : g.Holds i w := by
  have holds := inv.2 i
  rw [own] at holds
  exact holds

theorem view_of_clean (clean : Clean i w) : w.db.db.view i = w.db.db.rows := by
  cases txn : w.db.db.txn i with
  | none => exact TxnDb.view_of_none txn
  | some t =>
      rw [TxnDb.view_of_some txn, clean t txn]
      rfl

/-- A step of another thread leaves a stage as it is. -/
theorem slug_others (shared : SlugShared w) (done : execOrg site m i o w.db = some (r, s'))
    (regular : ∀ c ∈ commits i w.db o r, RegularSlug c) {j : ι} (ne : j ≠ i) {g : SlugStage}
    (holds : g.Holds j w) : g.Holds j (w.push i o r s') := by
  obtain ⟨_, moves⟩ := exec_moves shared.sound done
  have txn := moves.others j ne
  have clean : Clean j w → Clean j (w.push i o r s') := by
    intro clean t eq
    exact clean t (txn.symm.trans eq)
  cases g with
  | free => trivial
  | clean => exact clean holds
  | checked s =>
      obtain ⟨nothing, later, check, earlier, log, thread, query, due⟩ := holds
      refine ⟨clean nothing, ⟨i, w.tick, o, r, w.db⟩ :: later, check, earlier, ?_,
        thread, query, ?_⟩
      · rw [World.push_log, log]
        rfl
      intro there
      obtain ⟨d, mem, deleted⟩ := there
      rw [World.push_db, moves.rows] at mem
      rcases mem_of_mem_applyAll mem with old | ⟨c, change, put⟩
      · obtain ⟨e, mem', deletes⟩ := due ⟨d, old, deleted⟩
        exact ⟨e, List.mem_cons_of_mem _ mem', deletes⟩
      · obtain ⟨x, old, rfl⟩ := regular c change d put deleted.1
        refine ⟨_, List.mem_cons_self, x, (slug_of_deletedAs deleted).symm, ?_⟩
        obtain ⟨_, _⟩ := c
        cases old
        cases put
        exact change

/-- Every step except an insert of an organization. -/
theorem slug_step (inv : SlugInv w γ) (done : execOrg site m i o w.db = some (r, s'))
    (other : ∀ s, o ≠ .statement (.insertOrganization s)) {g : SlugStage}
    (own : g.Holds i (w.push i o r s')) :
    SlugInv (w.push i o r s') (Function.update γ i g) := by
  have shared := inv.1
  have keeps : ∀ statement n changes, o = .statement statement →
      Executed i statement n changes w.db s' → (∀ c ∈ changes, RegularSlug c) ∧
        TxnDb.Clear Reuses (applyAll changes (w.db.db.view i)) := by
    intro statement n changes eq executed
    have clear := shared.clear.views i
    by_cases kind : statement.kind = .organizations
    · cases statement with
      | insertOrganization s => exact absurd eq (other s)
      | softDelete organizationId =>
          exact slug_softDelete executed.eval (shared.unique.views i) clear
      | suspendClients organizationId =>
          cases executed.eval
          refine ⟨fun c mem => ?_, clear⟩
          cases mem
      | _ => cases kind
    · exact slug_other_kind executed.eval kind clear
  refine Each.update ⟨(exec_moves shared.sound done).1, exec_unique shared.sound shared.unique done,
    exec_views guarded_slug shared.sound shared.clear done keeps⟩ own fun j ne => ?_
  refine slug_others shared done (shared.clear.regular_commits done ?_) ne (inv.2 j)
  intro statement n changes eq executed
  exact (keeps statement n changes eq executed).1

/-- An insert of an organization after a look for tombstones. -/
theorem slug_insert_step (inv : SlugInv w γ) {s : String} (own : γ i = .checked s)
    {r : Option Nat}
    (done : execOrg site m i (.statement (.insertOrganization s)) w.db = some (r, s'))
    (allowed : NoDeletionSinceCheck
      ⟨i, w.tick, .statement (.insertOrganization s), r, w.db⟩ w.log) :
    SlugInv (w.push i (.statement (.insertOrganization s)) r s') (Function.update γ i .free) := by
  have shared := inv.1
  obtain ⟨clean, later, check, earlier, log, thread, query, due⟩ := slug_own inv own
  have sound := (exec_moves shared.sound done).1
  have unique := exec_unique shared.sound shared.unique done
  rcases exec_statement done with ⟨rfl, rfl⟩ | ⟨n, changes, rfl, executed⟩
  · refine Each.update ⟨sound, unique, shared.clear.fail guarded_slug shared.sound⟩ trivial
      fun j ne => slug_others shared done ?_ ne (inv.2 j)
    intro c mem
    cases mem
  have none : ∀ d, OrgRow.organization d ∈ w.db.db.view i → ¬ DeletedAs s d := by
    intro d mem deleted
    rw [view_of_clean clean] at mem
    obtain ⟨e, mem', deletes⟩ := due ⟨d, mem, deleted⟩
    exact allowed s rfl later check earlier log thread query e mem' deletes
  have keeps : ∀ statement n changes,
      OrgOp.statement (.insertOrganization s) = .statement statement →
      Executed i statement n changes w.db s' → (∀ c ∈ changes, RegularSlug c) ∧
        TxnDb.Clear Reuses (applyAll changes (w.db.db.view i)) := by
    intro statement n changes eq executed
    cases eq
    exact slug_insert executed.eval none (shared.clear.views i)
  refine Each.update ⟨sound, unique, exec_views guarded_slug shared.sound shared.clear done keeps⟩
    trivial fun j ne => slug_others shared done (shared.clear.regular_commits done ?_) ne (inv.2 j)
  intro statement n changes eq executed
  exact (keeps statement n changes eq executed).1

/-! ## The programs -/

/-- A step after which nothing is known. -/
theorem slug_free (other : ∀ s, o ≠ .statement (.insertOrganization s)) {g : SlugStage}
    {k : OrgSig.Res o → OrgProg OrgAnswer} (rest : ∀ r, SlugUpholds site i (k r) .free) :
    SlugUpholds site i (.op o k) g := by
  intro w γ inv _ m r s' done _
  exact ⟨.free, slug_step inv done other trivial, rest r⟩

theorem slug_reads_clean : ReadsKeep site NoDeletionSinceCheck SlugInv i SlugStage.clean := by
  intro o w γ read inv own m r s' done _
  have other : ∀ s, o ≠ .statement (.insertOrganization s) := by
    intro s eq
    subst eq
    exact read
  have same : Function.update γ i .clean = γ := by
    rw [← own]
    exact Function.update_eq_self i γ
  rw [← same]
  refine slug_step inv done other ?_
  have clean : Clean i w := slug_own inv own
  intro t txn
  rcases exec_read_or_fail read done with rfl | rfl
  · exact clean t txn
  · have ended : (w.db.fail i).db.txn i = none := Function.update_self ..
    cases ended.symm.trans txn

/-- The look for tombstones. -/
theorem slug_check {slug : String} {k : Option (List Organization) → OrgProg OrgAnswer}
    (error : SlugUpholds site i (k none) .free)
    (taken : ∀ tombs, tombs ≠ [] → SlugUpholds site i (k (some tombs)) .free)
    (rest : SlugUpholds site i (k (some [])) (.checked slug)) :
    SlugUpholds site i (.op (.query (.tombstones slug)) k) .clean := by
  intro w γ inv own m r s' done _
  have clean : Clean i w := slug_own inv own
  have other : ∀ s, OrgOp.query (.tombstones slug) ≠ .statement (.insertOrganization s) := by
    intro s eq
    cases eq
  rcases exec_query done with ⟨rfl, rfl⟩ | ⟨rfl, rfl⟩
  · exact ⟨.free, slug_step inv done other trivial, error⟩
  by_cases found : (OrgQuery.tombstones slug).eval (w.db.db.view i) = []
  · rw [found] at done ⊢
    refine ⟨.checked slug, slug_step inv done other ⟨clean, [], _, w.log, rfl, rfl, rfl, ?_⟩, rest⟩
    intro there
    obtain ⟨d, mem, deleted⟩ := there
    rw [view_of_clean clean] at found
    have mem' : d ∈ (OrgQuery.tombstones slug).eval w.db.db.rows :=
      List.mem_filter.mpr ⟨organizations.mem_of.mpr mem, isTombstoneOf_of_deletedAs deleted⟩
    rw [found] at mem'
    cases mem'
  · exact ⟨.free, slug_step inv done other trivial, taken _ found⟩

/-- **An insertion under a slug that was checked**. -/
theorem slug_insert_checked {slug : String} {k : Option Nat → OrgProg OrgAnswer}
    (rest : ∀ r, SlugUpholds site i (k r) .free) :
    SlugUpholds site i (.op (.statement (.insertOrganization slug)) k) (.checked slug) := by
  intro w γ inv own m r s' done allowed
  exact ⟨.free, slug_insert_step inv own done allowed, rest r⟩

theorem refuseAndEnd_slugs (code detail : String) :
    SlugUpholds site i (OrgMemberService.refuseAndEnd code detail) .free :=
  slug_free (fun _ eq => by cases eq) fun _ => trivial

theorem insertOrgRow_slugs (slug : String) (caller : ResolvedUser) :
    SlugUpholds site i (OrgMemberService.insertOrgRow slug caller) (.checked slug) := by
  refine slug_insert_checked fun orgId => ?_
  cases orgId with
  | none => trivial
  | some orgId =>
      refine slug_free (fun _ eq => by cases eq) fun member => ?_
      cases member with
      | none => trivial
      | some id =>
          refine slug_free (fun _ eq => by cases eq) fun committed => ?_
          cases committed <;> trivial

theorem createOrgLocked_slugs (slug : String) (caller : ResolvedUser) :
    SlugUpholds site i (OrgMemberService.createOrgLocked site slug caller) .clean := by
  refine upholds_read slug_reads_clean (by trivial) fun owned => ?_
  cases owned with
  | none => trivial
  | some owned =>
      change SlugUpholds site i (if (owned.length : Int) ≥ site.maxOrgsPerUser then _ else _) _
      split
      · exact slug_free (fun _ eq => by cases eq) fun _ => trivial
      refine slug_check trivial (fun tombs found => ?_) ?_
      · change SlugUpholds site i (if tombs ≠ [] then _ else _) _
        rw [if_pos found]
        exact refuseAndEnd_slugs _ _
      · exact insertOrgRow_slugs slug caller

/-- The begin of a transaction and one lock. -/
theorem withAdvisoryXactLock_slugs {key : String} {onLocked : OrgProg OrgAnswer}
    {onError : String → OrgAnswer} (rest : SlugUpholds site i onLocked .clean) :
    SlugUpholds site i (withAdvisoryXactLock [key] onLocked onError) .clean := by
  intro w γ inv own m r s' done _
  have other : ∀ s, OrgOp.newTransaction ≠ .statement (.insertOrganization s) := by
    intro s eq
    cases eq
  have clean : Clean i w := slug_own inv own
  rcases exec_newTransaction done with ⟨rfl, rfl⟩ | ⟨rfl, rfl⟩
  · exact ⟨.free, slug_step inv done other trivial, trivial⟩
  have opened : (w.db.db.start i).txn i = some {} := Function.update_self ..
  refine ⟨.clean, slug_step inv done other fun t txn => ?_, ?_⟩
  · cases opened.symm.trans txn
    rfl
  intro w γ inv own m r s' done _
  have other : ∀ s, OrgOp.advisoryLock key ≠ .statement (.insertOrganization s) := by
    intro s eq
    cases eq
  have clean : Clean i w := slug_own inv own
  rcases exec_advisoryLock done with ⟨rfl, rfl⟩ | ⟨rfl, _, rfl⟩
  · exact ⟨.free, slug_step inv done other trivial, trivial⟩
  refine ⟨.clean, slug_step inv done other fun t txn => ?_, rest⟩
  cases held : w.db.db.txn i with
  | none =>
      simp only [World.push_db, TxnDb.take, held] at txn
      cases txn
  | some u =>
      simp only [World.push_db, TxnDb.take, held, Function.update_self] at txn
      cases txn
      exact clean u held

/-- A creation keeps the slugs apart. -/
theorem createOrg_slugs (userId : String) (request : CreateOrgRequest) :
    SlugUpholds site i (OrgMemberService.createOrg site userId request) .clean := by
  rcases OrgMemberService.createOrg_cases site userId request with ⟨code, detail, eq⟩ | eq
  · rw [eq]
    trivial
  · rw [eq]
    refine upholds_resolveCaller slug_reads_clean (fun _ _ => trivial) fun caller _ => ?_
    exact withAdvisoryXactLock_slugs (createOrgLocked_slugs request.slug caller)

/-- So does a creation by an administrator. -/
theorem create_slugs (request : CreateOrgRequest) :
    SlugUpholds site i (OrganizationService.create site request) .clean := by
  rcases OrganizationService.create_cases site request with ⟨code, detail, eq⟩ | eq
  · rw [eq]
    trivial
  rw [eq]
  refine slug_check trivial (fun tombs found => ?_) ?_
  · change SlugUpholds site i (if tombs ≠ [] then _ else _) _
    rw [if_pos found]
    trivial
  · refine slug_insert_checked fun orgId => ?_
    cases orgId <;> trivial

/-- The deletion inserts nothing. -/
theorem cascade_slugs (orgId : Nat) {statements : List OrgStatement}
    (others : ∀ s, .insertOrganization s ∉ statements) {g : SlugStage} :
    SlugUpholds site i (OrganizationService.cascade orgId statements) g := by
  induction statements generalizing g with
  | nil =>
      refine slug_free (fun _ eq => by cases eq) fun committed => ?_
      cases committed <;> trivial
  | cons statement rest ih =>
      refine slug_free (fun s eq => ?_) fun done => ?_
      · cases eq
        exact others s List.mem_cons_self
      · cases done with
        | none => trivial
        | some n => exact ih fun s mem => others s (List.mem_cons_of_mem _ mem)

/-- So does a deletion. -/
theorem deleteOrg_slugs (slug : String) :
    SlugUpholds site i (OrganizationService.deleteOrg slug) .clean := by
  refine upholds_findLiveOrg slug_reads_clean (fun _ _ => trivial) fun org => ?_
  refine withAdvisoryXactLock_slugs (cascade_slugs org.id fun s mem => ?_)
  simp at mem

/-- Every call keeps the slugs apart. -/
theorem slugCall_upholds (call : SlugCall) :
    SlugUpholds site i (call.call.prog site) .clean := by
  cases call with
  | createOrg userId r => exact createOrg_slugs userId r
  | adminCreate r => exact create_slugs r
  | deleteOrg slug => exact deleteOrg_slugs slug

end Runs

/-- Two live organizations never have one slug, and in a run in which no deletion of a slug
commits between a look for its tombstones and the insert that follows, no organization has the
slug of a deleted one. -/
theorem slugs_not_reused {ι : Type} [DecidableEq ι] (site : OrgSite) (tables : OrgTables)
    (fresh : TxnDb.Clear Reuses tables.rows) (calls : ι → SlugCall)
    (sched : List (ι × OrgMoment)) :
    (∀ o o', .organization o ∈ committed (runOrg site (fun i => (calls i).call) tables sched) →
      .organization o' ∈ committed (runOrg site (fun i => (calls i).call) tables sched) →
      o.slug = o'.slug → o = o') ∧
    (Abides NoDeletionSinceCheck
        (runOrg site (fun i => (calls i).call) tables sched).store.log →
      TxnDb.Clear Reuses (committed (runOrg site (fun i => (calls i).call) tables sched))) := by
  constructor
  · intro o o' mem mem' same
    by_contra ne
    refine run_unique site tables _ sched _ mem _ mem' ⟨fun eq => ne (organization.inj eq),
      .slug o.slug, List.mem_cons_of_mem _ List.mem_cons_self, ?_⟩
    rw [same]
    exact List.mem_cons_of_mem _ List.mem_cons_self
  · intro abides
    have start : (startOrg site (fun i => (calls i).call) tables).Upheld (execOrg site)
        NoDeletionSinceCheck SlugInv fun _ _ _ => True := by
      refine ⟨fun _ => .clean, ⟨⟨sound_start tables, unique_start tables, ?_⟩, ?_⟩,
        fun i => slugCall_upholds (calls i)⟩
      · refine ⟨fun i t txn => ?_, fresh, fun _ => fresh⟩
        cases txn
      · intro i t txn
        cases txn
    obtain ⟨_, inv, _⟩ := Pool.play_upheld start sched abides
    exact inv.1.clear.committed

/-! ## A run that uses a slug again -/

/-- No user is known. -/
def plainSite : OrgSite where
  users _ := none
  hashtext _ := 0
  hashToken := id

/-- No fault. -/
def calm : OrgMoment where

/-- A live organization. -/
def acme : Organization := { id := 1, slug := "acme" }

/-- One organization. -/
def acmeTables : OrgTables where
  rows := [.organization acme]
  serial := 2
  unique := by
    intro r mem r' mem' shares
    cases List.mem_singleton.mp mem
    cases List.mem_singleton.mp mem'
    exact shares.1 rfl

/-- A creation, and a deletion of the organization that has the slug. -/
def recreate : Bool → SlugCall
  | true => .adminCreate { slug := "acme", name := "Acme" }
  | false => .deleteOrg "acme"

/-- The deletion falls between the look for tombstones and the insert. -/
def recreateSched : List (Bool × OrgMoment) :=
  (true, calm) :: (List.replicate 10 (false, calm) ++ [(true, calm)])

theorem acme_fresh : TxnDb.Clear Reuses acmeTables.rows := by
  intro r mem r' _ reuses
  cases List.mem_singleton.mp mem
  obtain ⟨d, o, eq, _, _, deleted⟩ := reuses
  cases eq
  cases deleted.1

theorem abides_of_no_insert {ι : Type} [DecidableEq ι] {log : List (OrgEvent ι)}
    (none : ∀ e ∈ log, insertedSlug e = none) : Abides NoDeletionSinceCheck log := by
  induction log with
  | nil => trivial
  | cons e log ih =>
      refine ⟨fun s inserted => ?_, ih fun e mem => none e (List.mem_cons_of_mem _ mem)⟩
      rw [none e List.mem_cons_self] at inserted
      cases inserted

/-- A creation after the deletion is refused. -/
theorem slug_refused :
    TxnDb.Clear Reuses (committed (runOrg plainSite (fun i => (recreate i).call) acmeTables
      (List.replicate 10 (false, calm) ++ List.replicate 2 (true, calm)))) := by
  refine (slugs_not_reused plainSite acmeTables acme_fresh recreate _).2
    (abides_of_no_insert fun e mem => ?_)
  have all : (runOrg plainSite (fun i => (recreate i).call) acmeTables
      (List.replicate 10 (false, calm) ++ List.replicate 2 (true, calm))).store.log.all
        (fun e => insertedSlug e = none) = true := by
    decide
  exact of_decide_eq_true (List.all_eq_true.mp all e mem)

theorem slug_reused :
    TxnDb.Clear Reuses acmeTables.rows ∧
    ¬ TxnDb.Clear Reuses
      (committed (runOrg plainSite (fun i => (recreate i).call) acmeTables recreateSched)) := by
  refine ⟨acme_fresh, fun clear => ?_⟩
  have rows : committed (runOrg plainSite (fun i => (recreate i).call) acmeTables recreateSched) =
      [.organization (tombstone acme), .organization { id := 8, slug := "acme" }] := by
    decide
  rw [rows] at clear
  refine clear _ List.mem_cons_self _ (List.mem_cons_of_mem _ List.mem_cons_self)
    ⟨_, _, rfl, rfl, ?_, rfl, rfl⟩
  decide

end Fulla
