import Fulla.Org.Runs

/-!
# Quotas of organizations and invitations

`createOrg` counts the organizations of the user, and `createInvitation` the open invitations
of the organization, under an advisory lock that is held until the commit.  A thread that has
counted below the limit keeps that knowledge as long as it holds the lock (`QuotaStage.Holds`),
since every other thread that could add to the same count needs the same lock.
-/

namespace Fulla

open Conc OrgTable

-- otherwise elaboration evaluates the checks of the address
attribute [local irreducible] normalizeEmail

/-- How many organizations a user owns. -/
def ownedBy (userId : Int32) (rows : List OrgRow) : Nat :=
  ((OrgQuery.ownedBy userId).eval rows).length

/-- How many invitations of an organization are not accepted. -/
def pendingInvitations (organizationId : Nat) (rows : List OrgRow) : Nat :=
  (OrgQuery.pendingInvitations organizationId).eval rows

/-- The calls that a quota bounds. -/
inductive QuotaCall where
  | createOrg (userId : String) (r : CreateOrgRequest)
  | createInvitation (userId slug address : String) (role : OrgRole)

/-- As calls of the services. -/
def QuotaCall.call : QuotaCall → OrgCall
  | createOrg userId r => .createOrg userId r
  | createInvitation userId slug address role => .createInvitation userId slug address role

/-! ## What inserts do to the counts -/

section Counts

variable {rows : List OrgRow} {u : Int32} {o : Nat}

theorem ownedBy_append_organization (org : Organization) :
    ownedBy u (rows ++ [OrgRow.organization org]) = ownedBy u rows := by
  simp [ownedBy, OrgQuery.eval, of, members]

/-- An owner who is inserted counts for the quota. -/
theorem ownedBy_append_member (m : OrganizationMember) :
    ownedBy u (rows ++ [OrgRow.member m]) =
      ownedBy u rows + if m.userId = u ∧ m.role = .owner then 1 else 0 := by
  by_cases h : m.userId = u ∧ m.role = .owner <;>
    simp [ownedBy, OrgQuery.eval, of, members, h]

theorem ownedBy_append_invitation (v : OrganizationInvitation) :
    ownedBy u (rows ++ [OrgRow.invitation v]) = ownedBy u rows := by
  simp [ownedBy, OrgQuery.eval, of, members]

theorem pendingInvitations_append_organization (org : Organization) :
    pendingInvitations o (rows ++ [OrgRow.organization org]) = pendingInvitations o rows := by
  simp [pendingInvitations, OrgQuery.eval, of, invitations]

theorem pendingInvitations_append_member (m : OrganizationMember) :
    pendingInvitations o (rows ++ [OrgRow.member m]) = pendingInvitations o rows := by
  simp [pendingInvitations, OrgQuery.eval, of, invitations]

theorem pendingInvitations_append_invitation (v : OrganizationInvitation) :
    pendingInvitations o (rows ++ [OrgRow.invitation v]) =
      pendingInvitations o rows +
        if v.organizationId = o ∧ v.acceptedAt = none then 1 else 0 := by
  by_cases h : v.organizationId = o ∧ v.acceptedAt = none <;>
    simp [pendingInvitations, OrgQuery.eval, of, invitations, h]

end Counts

/-! ## The invariant -/

/-- The advisory lock of a user's quota. -/
def userQuotaKey (userId : Int32) : String :=
  "quota:user:" ++ toString userId.toInt

/-- The advisory lock of an organization's quota. -/
def orgQuotaKey (organizationId : Nat) : String :=
  "quota:org:" ++ toString organizationId

/-- Where a thread stands, with what it has buffered. -/
inductive QuotaStage where
  | idle
  | opened
  | locked (key : String)
  /-- The user was below the limit when counted. -/
  | owning (userId : Int32) (changes : List OrgChange)
  | inviting (organizationId : Nat) (changes : List OrgChange)

/-- No count has grown beyond its start and its bound. -/
structure QuotaKept (site : OrgSite) (tables : OrgTables) (rows : List OrgRow) : Prop where
  owned : ∀ u, ownedBy u rows ≤ max (ownedBy u tables.rows) site.maxOrgsPerUser.toNat
  invited : ∀ o, pendingInvitations o rows ≤
    max (pendingInvitations o tables.rows) site.maxPendingInvitationsPerOrg.toNat
  seated : ∀ org, OrgRow.organization org ∈ rows → OrgRow.organization org ∈ tables.rows ∨
    ∃ m, OrgRow.member m ∈ rows ∧ m.organizationId = org.id ∧ m.role = .owner

section Invariant

variable {ι : Type} [DecidableEq ι] (site : OrgSite) (tables : OrgTables)

/-- The open transaction of the thread holds the lock and has buffered these changes. -/
def Buffers (key : String) (changes : List OrgChange) (i : ι) (s : OrgStore ι) : Prop :=
  ∃ t, s.db.txn i = some t ∧ t.changes = changes ∧
    { key := .advisory (site.hashtext key) } ∈ t.locks

/-- What is known at a stage. -/
def QuotaStage.Holds (i : ι) (s : OrgStore ι) : QuotaStage → Prop
  | idle => s.db.txn i = none
  | opened => ∃ t, s.db.txn i = some t ∧ t.changes = []
  | locked key => Buffers site key [] i s
  | owning u changes => Buffers site (userQuotaKey u) changes i s ∧
    (ownedBy u s.db.rows : Int) < site.maxOrgsPerUser
  | inviting o changes => Buffers site (orgQuotaKey o) changes i s ∧
    (pendingInvitations o s.db.rows : Int) < site.maxPendingInvitationsPerOrg

/-- The invariant of a run. -/
abbrev QuotaInv : OrgWorld ι → (ι → QuotaStage) → Prop :=
  Each (fun w => w.db.db.Sound orgLocks ∧ QuotaKept site tables w.db.db.rows)
    fun i g w => g.Holds site i w.db

/-- The program keeps the invariant. -/
abbrev QuotaUpholds (i : ι) (p : OrgProg OrgAnswer) (g : QuotaStage) : Prop :=
  Upholds (execOrg site) (fun _ _ => True) (QuotaInv site tables) i (fun _ _ => True) p g

variable {site tables} {i : ι} {w : OrgWorld ι} {γ : ι → QuotaStage} {s' : OrgStore ι}
  {o : OrgOp} {r : OrgSig.Res o}

omit [DecidableEq ι] in
theorem Buffers.of_eq {key : String} {changes : List OrgChange} {s : OrgStore ι} {j : ι}
    (buffers : Buffers site key changes j s) (txn : s'.db.txn j = s.db.txn j) :
    Buffers site key changes j s' := by
  unfold Buffers
  rw [txn]
  exact buffers

omit [DecidableEq ι] in
/-- A stage depends on the transaction of its thread and on the count it has made. -/
theorem QuotaStage.Holds.of_counts {g : QuotaStage} {s : OrgStore ι} {j : ι}
    (holds : g.Holds site j s) (txn : s'.db.txn j = s.db.txn j)
    (owned : ∀ u changes, g = .owning u changes → ownedBy u s'.db.rows = ownedBy u s.db.rows)
    (invited : ∀ o changes, g = .inviting o changes →
      pendingInvitations o s'.db.rows = pendingInvitations o s.db.rows) : g.Holds site j s' := by
  cases g with
  | idle => exact txn.trans holds
  | opened =>
      unfold Holds
      rw [txn]
      exact holds
  | locked key => exact Buffers.of_eq holds txn
  | owning u changes =>
      refine ⟨Buffers.of_eq holds.1 txn, ?_⟩
      rw [owned u changes rfl]
      exact holds.2
  | inviting o changes =>
      refine ⟨Buffers.of_eq holds.1 txn, ?_⟩
      rw [invited o changes rfl]
      exact holds.2

/-- A step that commits nothing. -/
theorem quota_quiet (inv : QuotaInv site tables w γ) (sound : s'.db.Sound orgLocks)
    (moves : TxnDb.Moves orgLocks i [] w.db.db s'.db) {g : QuotaStage} (own : g.Holds site i s') :
    QuotaInv site tables (w.push i o r s') (Function.update γ i g) := by
  have rows : s'.db.rows = w.db.db.rows := moves.rows
  refine Each.update ⟨sound, ?_⟩ own fun j ne => (inv.2 j).of_counts (moves.others j ne)
    (fun _ _ _ => by rw [World.push_db, rows]) fun _ _ _ => by rw [World.push_db, rows]
  rw [World.push_db, rows]
  exact inv.1.2

/-- A call that fails leaves the counts as they were. -/
theorem quota_fail (inv : QuotaInv site tables w γ) :
    QuotaInv site tables (w.push i o r (w.db.fail i)) (Function.update γ i .idle) := by
  refine quota_quiet inv (fail_sound inv.1.1) TxnDb.moves_abandon ?_
  exact Function.update_self ..

theorem quota_same (inv : QuotaInv site tables w γ) {g : QuotaStage} (own : g.Holds site i w.db) :
    QuotaInv site tables (w.push i o r w.db) (Function.update γ i g) :=
  quota_quiet inv inv.1.1 TxnDb.moves_self own

omit [DecidableEq ι] in
/-- The own part of the invariant. -/
theorem quota_own (inv : QuotaInv site tables w γ) {g : QuotaStage} (own : γ i = g) :
    g.Holds site i w.db := by
  have holds := inv.2 i
  rw [own] at holds
  exact holds

/-- The end of a transaction that has written nothing. -/
theorem refuseAndEnd_upholds {g : QuotaStage}
    (empty : ∀ s : OrgStore ι, g.Holds site i s → ∃ t, s.db.txn i = some t ∧ t.changes = [])
    (code detail : String) :
    QuotaUpholds site tables i (OrgMemberService.refuseAndEnd code detail) g := by
  intro w γ inv own m r s' done _
  refine ⟨.idle, ?_, trivial⟩
  obtain ⟨sound, moves⟩ := exec_moves inv.1.1 done
  rcases exec_commit done with ⟨rfl, rfl⟩ | ⟨rfl, rfl⟩
  · exact quota_fail inv
  · obtain ⟨t, txn, none⟩ := empty w.db (quota_own inv own)
    simp only [commits, txn, Option.elim, none] at moves
    exact quota_quiet inv sound moves (Function.update_self ..)

omit [DecidableEq ι] in
/-- A thread that holds the lock of a quota is the only one. -/
theorem buffers_apart {s : OrgStore ι} (sound : s.db.Sound orgLocks) {key : String}
    {changes changes' : List OrgChange} {j : ι} (ne : i ≠ j)
    (mine : Buffers site key changes i s) (other : Buffers site key changes' j s) : False := by
  obtain ⟨t, txn, _, held⟩ := mine
  obtain ⟨u, txn', _, held'⟩ := other
  have apart := sound.apart i j t u ne txn txn' _ held _ held'
  simp [Lock.conflicts] at apart

/-- The commit of an organization with its owner. -/
theorem quota_commit_owning (inv : QuotaInv site tables w γ) {u : Int32} {org : Organization}
    {member : OrganizationMember} (seat : member.organizationId = org.id)
    (mine : member.userId = u) (role : member.role = .owner)
    (own : QuotaStage.Holds site i w.db (.owning u
      [{ old := none, new := some (.organization org) },
        { old := none, new := some (.member member) }])) :
    QuotaInv site tables (w.push i o r { w.db with db := w.db.db.finish i })
      (Function.update γ i .idle) := by
  obtain ⟨buffers, below⟩ := own
  obtain ⟨t, txn, changes, held⟩ := buffers
  have rows : (w.db.db.finish i).rows =
      w.db.db.rows ++ [OrgRow.organization org] ++ [OrgRow.member member] := by
    change w.db.db.view i = _
    rw [TxnDb.view_of_some txn, changes]
    simp
  have owned : ∀ u', ownedBy u' (w.db.db.finish i).rows =
      ownedBy u' w.db.db.rows + if u = u' then 1 else 0 := by
    intro u'
    rw [rows, ownedBy_append_member, ownedBy_append_organization, mine, role]
    simp
  have invited : ∀ o, pendingInvitations o (w.db.db.finish i).rows =
      pendingInvitations o w.db.db.rows := by
    intro o
    rw [rows, pendingInvitations_append_member, pendingInvitations_append_organization]
  have kept := inv.1.2
  refine Each.update ⟨inv.1.1.finish i, ?_, ?_, ?_⟩ (Function.update_self ..) fun j ne => ?_
  · intro u'
    rw [World.push_db, owned]
    have le := kept.owned u'
    by_cases eq : u = u'
    · subst eq
      rw [if_pos rfl]
      omega
    · rw [if_neg eq]
      exact le
  · intro o
    rw [World.push_db, invited]
    exact kept.invited o
  · intro org' mem
    rw [World.push_db, rows] at mem ⊢
    rcases List.mem_append.mp mem with mem | mem
    · rcases List.mem_append.mp mem with mem | mem
      · rcases kept.seated org' mem with old | ⟨m, mem', seat', role'⟩
        · exact .inl old
        · refine .inr ⟨m, ?_, seat', role'⟩
          exact List.mem_append_left _ (List.mem_append_left _ mem')
      · cases List.mem_singleton.mp mem
        exact .inr ⟨member, List.mem_append_right _ (List.mem_singleton_self _), seat, role⟩
    · cases List.mem_singleton.mp mem
  · refine (inv.2 j).of_counts (Function.update_of_ne ne _ _) (fun u' changes' stage => ?_)
      fun o _ _ => invited o
    -- a thread that counts for the same user holds the same lock
    have other : u ≠ u' := by
      intro eq
      subst eq
      exact buffers_apart inv.1.1 (Ne.symm ne) ⟨t, txn, changes, held⟩ (quota_own inv stage).1
    rw [World.push_db, owned, if_neg other]
    rfl

/-- The commit of an invitation. -/
theorem quota_commit_inviting (inv : QuotaInv site tables w γ) {organizationId : Nat}
    {v : OrganizationInvitation} (mine : v.organizationId = organizationId)
    (own : QuotaStage.Holds site i w.db (.inviting organizationId
      [{ old := none, new := some (.invitation v) }])) :
    QuotaInv site tables (w.push i o r { w.db with db := w.db.db.finish i })
      (Function.update γ i .idle) := by
  obtain ⟨buffers, below⟩ := own
  obtain ⟨t, txn, changes, held⟩ := buffers
  have rows : (w.db.db.finish i).rows = w.db.db.rows ++ [OrgRow.invitation v] := by
    change w.db.db.view i = _
    rw [TxnDb.view_of_some txn, changes]
    simp
  have owned : ∀ u, ownedBy u (w.db.db.finish i).rows = ownedBy u w.db.db.rows := by
    intro u
    rw [rows, ownedBy_append_invitation]
  have invited : ∀ o, pendingInvitations o (w.db.db.finish i).rows =
      pendingInvitations o w.db.db.rows +
        if organizationId = o ∧ v.acceptedAt = none then 1 else 0 := by
    intro o
    rw [rows, pendingInvitations_append_invitation, mine]
  have kept := inv.1.2
  refine Each.update ⟨inv.1.1.finish i, ?_, ?_, ?_⟩ (Function.update_self ..) fun j ne => ?_
  · intro u
    rw [World.push_db, owned]
    exact kept.owned u
  · intro o
    rw [World.push_db, invited]
    have le := kept.invited o
    split
    · rename_i eq
      rw [eq.1] at below
      omega
    · exact le
  · intro org mem
    rw [World.push_db, rows] at mem ⊢
    rcases List.mem_append.mp mem with mem | mem
    · rcases kept.seated org mem with old | ⟨m, mem', seat, role⟩
      · exact .inl old
      · exact .inr ⟨m, List.mem_append_left _ mem', seat, role⟩
    · cases List.mem_singleton.mp mem
  · refine (inv.2 j).of_counts (Function.update_of_ne ne _ _) (fun u _ _ => owned u)
      fun o changes' stage => ?_
    have other : organizationId ≠ o := by
      intro eq
      subst eq
      exact buffers_apart inv.1.1 (Ne.symm ne) ⟨t, txn, changes, held⟩ (quota_own inv stage).1
    rw [World.push_db, invited, if_neg fun both => other both.1]
    rfl

/-! ## The programs -/

/-- A statement of a thread that has counted the organizations of its user. -/
theorem quota_buffer_owning (inv : QuotaInv site tables w γ) {u : Int32}
    {changes new : List OrgChange} (own : γ i = .owning u changes) {statement : OrgStatement}
    {n : Nat} (executed : Executed i statement n new w.db s') (sound : s'.db.Sound orgLocks) :
    QuotaInv site tables (w.push i o r s') (Function.update γ i (.owning u (changes ++ new))) := by
  obtain ⟨buffers, below⟩ := quota_own inv own
  obtain ⟨t, txn, rfl, held⟩ := buffers
  obtain ⟨txn', rows, moves⟩ := executed.buffered txn
  refine quota_quiet inv sound moves ⟨⟨_, txn', rfl, List.mem_append_left _ held⟩, ?_⟩
  rw [rows]
  exact below

/-- An invitation is buffered under the lock. -/
theorem quota_buffer_inviting (inv : QuotaInv site tables w γ) {organizationId : Nat}
    {changes new : List OrgChange} (own : γ i = .inviting organizationId changes)
    {statement : OrgStatement} {n : Nat} (executed : Executed i statement n new w.db s')
    (sound : s'.db.Sound orgLocks) :
    QuotaInv site tables (w.push i o r s')
      (Function.update γ i (.inviting organizationId (changes ++ new))) := by
  obtain ⟨buffers, below⟩ := quota_own inv own
  obtain ⟨t, txn, rfl, held⟩ := buffers
  obtain ⟨txn', rows, moves⟩ := executed.buffered txn
  refine quota_quiet inv sound moves ⟨⟨_, txn', rfl, List.mem_append_left _ held⟩, ?_⟩
  rw [rows]
  exact below

theorem insertOrgRow_upholds (slug : String) (caller : ResolvedUser) :
    QuotaUpholds site tables i (OrgMemberService.insertOrgRow slug caller)
      (.owning caller.id []) := by
  intro w γ inv own m r s' done _
  rcases exec_statement done with ⟨rfl, rfl⟩ | ⟨orgId, changes, rfl, executed⟩
  · exact ⟨.idle, quota_fail inv, trivial⟩
  refine ⟨_, quota_buffer_owning inv own executed (exec_moves inv.1.1 done).1, ?_⟩
  cases executed.eval
  intro w γ inv own m r s' done _
  rcases exec_statement done with ⟨rfl, rfl⟩ | ⟨id, changes, rfl, executed⟩
  · exact ⟨.idle, quota_fail inv, trivial⟩
  refine ⟨_, quota_buffer_owning inv own executed (exec_moves inv.1.1 done).1, ?_⟩
  cases executed.eval
  intro w γ inv own m r s' done _
  rcases exec_commit done with ⟨rfl, rfl⟩ | ⟨rfl, rfl⟩
  · exact ⟨.idle, quota_fail inv, trivial⟩
  · simp only [List.nil_append, List.cons_append] at own
    have holds := quota_own inv own
    refine ⟨.idle, quota_commit_owning inv ?_ ?_ ?_ holds, trivial⟩ <;> rfl

theorem createOrgLocked_upholds (slug : String) (caller : ResolvedUser) :
    QuotaUpholds site tables i (OrgMemberService.createOrgLocked site slug caller)
      (.locked (userQuotaKey caller.id)) := by
  intro w γ inv own m r s' done _
  rcases exec_query done with ⟨rfl, rfl⟩ | ⟨rfl, rfl⟩
  · exact ⟨.idle, quota_fail inv, trivial⟩
  have holds := quota_own inv own
  have view : w.db.db.view i = w.db.db.rows := by
    obtain ⟨t, txn, none, _⟩ := holds
    rw [TxnDb.view_of_some txn, none]
    rfl
  rw [view]
  change ∃ g', _ ∧ QuotaUpholds site tables i (if ((OrgQuery.ownedBy caller.id).eval
    w.db.db.rows).length ≥ site.maxOrgsPerUser then _ else _) g'
  split
  · refine ⟨.locked _, quota_same inv holds, refuseAndEnd_upholds ?_ _ _⟩
    intro s buffers
    obtain ⟨t, txn, none, _⟩ := buffers
    exact ⟨t, txn, none⟩
  · rename_i below
    refine ⟨.owning caller.id [], quota_same inv ⟨holds, Int.not_le.mp below⟩, ?_⟩
    intro w γ inv own m r s' done _
    rcases exec_query done with ⟨rfl, rfl⟩ | ⟨rfl, rfl⟩
    · exact ⟨.idle, quota_fail inv, trivial⟩
    refine ⟨.owning caller.id [], quota_same inv (quota_own inv own), ?_⟩
    change QuotaUpholds site tables i (if (OrgQuery.tombstones slug).eval _ ≠ [] then _ else _) _
    split
    · refine refuseAndEnd_upholds ?_ _ _
      intro s stage
      obtain ⟨⟨t, txn, none, _⟩, _⟩ := stage
      exact ⟨t, txn, none⟩
    · exact insertOrgRow_upholds slug caller

/-- The begin of a transaction and one lock. -/
theorem withAdvisoryXactLock_upholds {key : String} {onLocked : OrgProg OrgAnswer}
    {onError : String → OrgAnswer}
    (rest : QuotaUpholds site tables i onLocked (.locked key)) :
    QuotaUpholds site tables i (withAdvisoryXactLock [key] onLocked onError) .idle := by
  intro w γ inv own m r s' done _
  rcases exec_newTransaction done with ⟨rfl, rfl⟩ | ⟨rfl, rfl⟩
  · exact ⟨.idle, quota_same inv (quota_own inv own), trivial⟩
  refine ⟨.opened, quota_quiet inv (inv.1.1.start i) TxnDb.moves_start
    ⟨{}, Function.update_self .., rfl⟩, ?_⟩
  intro w γ inv own m r s' done _
  obtain ⟨sound, moves⟩ := exec_moves inv.1.1 done
  rcases exec_advisoryLock done with ⟨rfl, rfl⟩ | ⟨rfl, free, rfl⟩
  · exact ⟨.idle, quota_fail inv, trivial⟩
  obtain ⟨t, txn, none⟩ := quota_own inv own
  refine ⟨.locked key, quota_quiet inv sound moves ⟨{ t with locks := t.locks ++ [_] }, ?_, none,
    List.mem_append_right _ (List.mem_singleton_self _)⟩, rest⟩
  simp only [TxnDb.take, txn]
  exact Function.update_self ..

theorem quota_reads_idle :
    ReadsKeep site (fun _ _ => True) (QuotaInv site tables) i QuotaStage.idle := by
  intro o w γ read inv own m r s' done _
  rw [exec_read read done (quota_own inv own)]
  exact inv

theorem quota_outside {o : OrgOp} (outside : Outside o) {g : QuotaStage}
    {k : OrgSig.Res o → OrgProg OrgAnswer} (rest : ∀ r, QuotaUpholds site tables i (k r) g) :
    QuotaUpholds site tables i (.op o k) g := by
  refine Upholds.stutter (fun w γ inv own m r s' done _ => ?_) fun _ _ _ _ _ r _ _ => rest r
  rw [exec_outside done outside]
  exact inv

/-- **A creation keeps the quota**. -/
theorem createOrg_upholds (userId : String) (request : CreateOrgRequest) :
    QuotaUpholds site tables i (OrgMemberService.createOrg site userId request) .idle := by
  rcases OrgMemberService.createOrg_cases site userId request with ⟨code, detail, eq⟩ | eq
  · rw [eq]
    trivial
  · rw [eq]
    refine upholds_resolveCaller quota_reads_idle (fun _ _ => trivial) fun caller _ => ?_
    exact withAdvisoryXactLock_upholds (createOrgLocked_upholds request.slug caller)

theorem createInvitationLocked_upholds (organizationId : Nat) (email : String) (role : OrgRole) :
    QuotaUpholds site tables i
      (OrgMemberService.createInvitationLocked site organizationId email role)
      (.locked (orgQuotaKey organizationId)) := by
  intro w γ inv own m r s' done _
  rcases exec_query done with ⟨rfl, rfl⟩ | ⟨rfl, rfl⟩
  · exact ⟨.idle, quota_fail inv, trivial⟩
  have holds := quota_own inv own
  have view : w.db.db.view i = w.db.db.rows := by
    obtain ⟨t, txn, none, _⟩ := holds
    rw [TxnDb.view_of_some txn, none]
    rfl
  rw [view]
  change ∃ g', _ ∧ QuotaUpholds site tables i (if ((OrgQuery.pendingInvitations
    organizationId).eval w.db.db.rows : Int) ≥ site.maxPendingInvitationsPerOrg then _ else _) g'
  split
  · refine ⟨.locked _, quota_same inv holds, refuseAndEnd_upholds ?_ _ _⟩
    intro s buffers
    obtain ⟨t, txn, none, _⟩ := buffers
    exact ⟨t, txn, none⟩
  · rename_i below
    refine ⟨.inviting organizationId [], quota_same inv ⟨holds, Int.not_le.mp below⟩, ?_⟩
    refine quota_outside (by trivial) fun rawToken => quota_outside (by trivial) fun now => ?_
    intro w γ inv own m r s' done _
    rcases exec_statement done with ⟨rfl, rfl⟩ | ⟨id, changes, rfl, executed⟩
    · exact ⟨.idle, quota_fail inv, trivial⟩
    refine ⟨_, quota_buffer_inviting inv own executed (exec_moves inv.1.1 done).1, ?_⟩
    cases executed.eval
    intro w γ inv own m r s' done _
    rcases exec_commit done with ⟨rfl, rfl⟩ | ⟨rfl, rfl⟩
    · exact ⟨.idle, quota_fail inv, trivial⟩
    · have holds := quota_own inv own
      refine ⟨.idle, quota_commit_inviting inv ?_ holds, trivial⟩
      rfl

/-- **An invitation keeps the quota**. -/
theorem createInvitation_upholds (userId slug address : String) (role : OrgRole) :
    QuotaUpholds site tables i
      (OrgMemberService.createInvitation site userId slug address role) .idle := by
  unfold OrgMemberService.createInvitation
  dsimp only
  split
  · trivial
  split
  · trivial
  refine upholds_resolveCaller quota_reads_idle (fun _ _ => trivial) fun caller _ =>
    upholds_findOrgBySlug quota_reads_idle (fun _ _ => trivial) fun org =>
    upholds_getMembership quota_reads_idle (fun _ _ => trivial) fun row => ?_
  split
  · trivial
  · exact withAdvisoryXactLock_upholds (createInvitationLocked_upholds org.id _ role)

/-- Every call keeps the quotas. -/
theorem quotaCall_upholds (call : QuotaCall) :
    QuotaUpholds site tables i (call.call.prog site) .idle := by
  cases call with
  | createOrg userId r => exact createOrg_upholds userId r
  | createInvitation userId slug address role =>
      exact createInvitation_upholds userId slug address role

end Invariant

/-- Whatever calls interleave and whichever of their steps fail, no user owns more organizations
than the quota (or than before), no organization has more open invitations than its cap, and
every organization that was created has its owner. -/
theorem quotas_hold {ι : Type} [DecidableEq ι] (site : OrgSite) (tables : OrgTables)
    (calls : ι → QuotaCall) (sched : List (ι × OrgMoment)) :
    QuotaKept site tables (committed (runOrg site (fun i => (calls i).call) tables sched)) := by
  have start : (startOrg site (fun i => (calls i).call) tables).Upheld (execOrg site)
      (fun _ _ => True) (QuotaInv site tables) fun _ _ _ => True := by
    refine ⟨fun _ => .idle, ⟨⟨sound_start tables, ?_⟩, fun _ => rfl⟩,
      fun i => quotaCall_upholds (calls i)⟩
    exact ⟨fun u => Nat.le_max_left .., fun o => Nat.le_max_left .., fun org mem => .inl mem⟩
  obtain ⟨_, inv, _⟩ := Pool.play_upheld start sched (abides_true _)
  exact inv.1.2

end Fulla
