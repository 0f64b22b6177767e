import Fulla.Org.DeletionLocks

/-!
# Runs with a deletion

A call looks at the organization in one step and adds to it in a later one.  What comes in between
decides: in a run in which no deletion of the organization commits between the two
(`DeletionApart`), every step keeps that nothing is left of a deleted organization
(`deletion_step`).  The rest follows from what the looks show, from the order in which a call makes
its steps (`DeletionFits`) and from the locks (`timely_of`).
-/

namespace Fulla

open Conc OrgTable OrgRow

/-! ## Where a thread stands -/

/-- The statements that the open transaction of a thread has executed, newest first. -/
def transactionNext (g : Option (List OrgStatement)) :
    (o : OrgOp) → OrgSig.Res o → Option (List OrgStatement)
  | .newTransaction, true => some []
  | .query _, none => none
  | .statement s, some _ => g.map (s :: ·)
  | .statement _, none => none
  | .advisoryLock _, false => none
  | .commit, _ => none
  | .rollback, _ => none
  | _, _ => g

/-- The answer is the live organization. -/
def finds (organizationId : Nat) : (o : OrgOp) → OrgSig.Res o → Bool
  | .query (.organization _), some (some org) => org.id = organizationId
  | _, _ => false

/-- The answer shows that the organization is there: it is live, it has just been made, an
invitation to it has not been accepted, or a save for it was queued. -/
def looksAt (organizationId : Nat) : (o : OrgOp) → OrgSig.Res o → Bool
  | .query (.organization _), some (some org) => org.id = organizationId
  | .query (.invitation _), some (some v) => v.organizationId = organizationId && !v.accepted
  | .statement (.insertOrganization _), some id => id = organizationId
  | .awaitSave, save => save.organizationId = organizationId
  | _, _ => false

/-- The statement that an event executes. -/
def executes : (o : OrgOp) → OrgSig.Res o → Option OrgStatement
  | .statement s, some _ => some s
  | _, _ => none

/-- The event puts in a member, an invitation or a consent of the organization, or sends a save
of one into the background. -/
def Adds (organizationId : Nat) : (o : OrgOp) → OrgSig.Res o → Prop
  | .statement s, some _ => addsTo s = some organizationId
  | .detach save, _ => save.organizationId = organizationId
  | _, _ => False

/-- The invitation that an event reads. -/
def invitationRead : (o : OrgOp) → OrgSig.Res o → Option OrganizationInvitation
  | .query (.invitation _), some found => found
  | _, _ => none

/-- Where a call stands between its steps. -/
structure DeletionPlace where
  /-- The statements of the open transaction, newest first. -/
  pending : Option (List OrgStatement) := none
  /-- The organization was found outside a transaction. -/
  found : Bool := false
  looked : Bool := false

def DeletionPlace.next (organizationId : Nat) (g : DeletionPlace) (o : OrgOp)
    (r : OrgSig.Res o) : DeletionPlace where
  pending := transactionNext g.pending o r
  found := g.found || g.pending.isNone && finds organizationId o r
  looked := g.looked || looksAt organizationId o r

/-- The statement comes where it is to come: a step of the cascade in a transaction of the
cascade, after the organization was found and its row marked; and an addition after a look. -/
structure CascadeFits (organizationId : Nat) (g : DeletionPlace) (s : OrgStatement) : Prop where
  cascade : (orgCascade organizationId).Fits g.pending s
  found : s ∈ cascadeSteps organizationId → g.found = true
  first : s ∈ cascadeSteps organizationId → s = .softDelete organizationId ∨
    ∃ l, g.pending = some l ∧ .softDelete organizationId ∈ l
  looked : addsTo s = some organizationId → g.looked = true

/-- The order of the operations. -/
def DeletionFits (organizationId : Nat) (g : DeletionPlace) : OrgOp → Prop
  | .statement s => CascadeFits organizationId g s
  | .detach save => save.organizationId = organizationId → g.looked = true
  | .commit => ∀ l, g.pending = some l → (orgCascade organizationId).Whole l
  | _ => True

section Events

variable {ι : Type} [DecidableEq ι]

/-- The statements of the open transaction of a call, read off the log. -/
def inTransaction (i : ι) (log : List (OrgEvent ι)) : Option (List OrgStatement) :=
  track transactionNext none i log

/-- The place of a call, read off the log. -/
abbrev placeOf (organizationId : Nat) (i : ι) (log : List (OrgEvent ι)) : DeletionPlace :=
  track (DeletionPlace.next organizationId) {} i log

theorem placeOf_pending {organizationId : Nat} {i : ι} {log : List (OrgEvent ι)} :
    (placeOf organizationId i log).pending = inTransaction i log :=
  track_view fun _ _ _ => rfl

/-! ## The condition -/

/-- The event commits a deletion of the organization. -/
def DeletesOrg (organizationId : Nat) (e : OrgEvent ι) : Prop :=
  ∃ c ∈ commits e.thread e.pre e.op e.res, ∃ d, c.new = some d ∧ IsTombstone organizationId d

/-- No deletion of the organization has committed since the thread looked at it. -/
def NoDeletionSinceLook (organizationId : Nat) (i : ι) (log : List (OrgEvent ι)) : Prop :=
  ∀ (later : List (OrgEvent ι)) (look : OrgEvent ι) (earlier : List (OrgEvent ι)),
    log = later ++ look :: earlier → look.thread = i →
    looksAt organizationId look.op look.res = true → ∀ e ∈ later, ¬ DeletesOrg organizationId e

/-- No deletion of the organization commits between a look at it and an addition, or while a save
for it is queued.  Two more things are kept apart, which no lock and no check does: a consent that
is given again from another thread's revocation, and an acceptance at second 0 from none. -/
structure DeletionApart (organizationId : Nat) (e : OrgEvent ι) (log : List (OrgEvent ι)) :
    Prop where
  looked : Adds organizationId e.op e.res → NoDeletionSinceLook organizationId e.thread log
  queued : DeletesOrg organizationId e → ∀ save ∈ e.pre.queue,
    save.organizationId ≠ organizationId
  regrants : ∀ s n changes, executes e.op e.res = some s →
    s.eval e.pre.db.serial (e.pre.db.view e.thread) = some (n, changes) →
    (∃ c ∈ changes, Regrants organizationId c) →
    ∀ j ≠ e.thread, ∀ l, inTransaction j log = some l → .revokeConsents organizationId ∉ l
  revokes : executes e.op e.res = some (.revokeConsents organizationId) →
    ∀ j ≠ e.thread, ∀ u, e.pre.db.txn j = some u →
      ∀ c ∈ u.changes, ¬ Regrants organizationId c
  dated : ∀ v, invitationRead e.op e.res = some v → v.organizationId = organizationId →
    v.acceptedAt ≠ some 0

/-! ## The invariant -/

variable {site : OrgSite} {organizationId : Nat} {i : ι} {w : OrgWorld ι} {s' : OrgStore ι}
  {o : OrgOp} {r : OrgSig.Res o} {m : OrgMoment}

/-- The cascade and what is open beside it. -/
def DeletionHolds (organizationId : Nat) (w : OrgWorld ι) : Prop :=
  (orgCascade organizationId).Holds orgLocks w.db.db fun j => inTransaction j w.log

/-- The thread has looked at the organization, and what deleted it came later. -/
def LookedLive (organizationId : Nat) (i : ι) (w : OrgWorld ι) : Prop :=
  ∃ (later : List (OrgEvent ι)) (look : OrgEvent ι) (earlier : List (OrgEvent ι)),
    w.log = later ++ look :: earlier ∧ look.thread = i ∧
    looksAt organizationId look.op look.res = true ∧
    (Deleted organizationId w.db.db.rows → ∃ e ∈ later, DeletesOrg organizationId e)

/-- The invariant of a run. -/
structure DeletionInv (organizationId : Nat) (w : OrgWorld ι) : Prop where
  holds : DeletionHolds organizationId w
  views : Views (KeepsOrganization organizationId) SharesKey w.db.db
  looked : ∀ i, (placeOf organizationId i w.log).looked = true → LookedLive organizationId i w
  found : ∀ i, (placeOf organizationId i w.log).found = true →
    Recorded organizationId w.db.db.rows
  queue : ∀ save ∈ w.db.queue, save.organizationId = organizationId →
    ¬ Deleted organizationId w.db.db.rows
  braced : ∀ j u l, w.db.db.txn j = some u → inTransaction j w.log = some l →
    Braced organizationId w.db.db.rows u l

/-! ## The cascade -/

theorem deletion_push
    (holds : (orgCascade organizationId).Holds orgLocks s'.db
      (Function.update (fun j => inTransaction j w.log) i
        (transactionNext (inTransaction i w.log) o r))) :
    DeletionHolds organizationId (w.push i o r s') := by
  have moved : (fun j => inTransaction j (w.push i o r s').log) =
      Function.update (fun j => inTransaction j w.log) i
        (transactionNext (inTransaction i w.log) o r) := track_push
  unfold DeletionHolds
  rw [moved, World.push_db]
  exact holds

/-- A step that touches neither the database nor the transaction. -/
theorem deletion_stay (inv : DeletionHolds organizationId w) (same : s'.db = w.db.db)
    (next : transactionNext (inTransaction i w.log) o r = inTransaction i w.log) :
    DeletionHolds organizationId (w.push i o r s') := by
  refine deletion_push ?_
  rw [next, Function.update_eq_self, same]
  exact inv

/-- A step that ends the transaction without a commit. -/
theorem deletion_leave (inv : DeletionHolds organizationId w)
    (next : transactionNext (inTransaction i w.log) o r = none) :
    DeletionHolds organizationId (w.push i o r (w.db.fail i)) := by
  refine deletion_push ?_
  rw [next]
  exact inv.leave guarded_unique i

/-- A step whose statement is in time. -/
theorem deletion_holds (inv : DeletionHolds organizationId w)
    (fits : DeletionFits organizationId (placeOf organizationId i w.log) o)
    (done : execOrg site m i o w.db = some (r, s'))
    (timely : ∀ s, executes o r = some s → ∀ n changes, Executed i s n changes w.db s' →
      (orgCascade organizationId).Timely w.db.db.rows (fun j => inTransaction j w.log) i s) :
    DeletionHolds organizationId (w.push i o r s') := by
  cases o with
  | query q =>
      rcases exec_query done with ⟨rfl, rfl⟩ | ⟨rfl, rfl⟩
      · exact deletion_leave inv rfl
      · exact deletion_stay inv rfl rfl
  | statement s =>
      rcases exec_statement done with ⟨rfl, rfl⟩ | ⟨n, changes, rfl, executed⟩
      · exact deletion_leave inv rfl
      have effect := eval_effect organizationId executed.eval
      have in_time := timely s rfl n changes executed
      have fits : (orgCascade organizationId).Fits (inTransaction i w.log) s := by
        rw [← placeOf_pending]
        exact fits.cascade
      obtain ⟨_, free, _, rfl⟩ := executed
      refine deletion_push ?_
      cases txn : w.db.db.txn i with
      | none =>
          have outside : inTransaction i w.log = none := (inv.idle i).mp txn
          have next : transactionNext (inTransaction i w.log) (.statement s) (some n) =
              inTransaction i w.log := by
            rw [outside]
            rfl
          rw [next, Function.update_eq_self]
          rw [outside] at fits
          exact inv.direct guarded_unique txn free effect fits in_time
      | some u =>
          have inside : inTransaction i w.log ≠ none := fun none_ => by
            cases txn.symm.trans ((inv.idle i).mpr none_)
          obtain ⟨l, mine⟩ := Option.ne_none_iff_exists'.mp inside
          have next : transactionNext (inTransaction i w.log) (.statement s) (some n) =
              some (s :: l) := by
            rw [mine]
            rfl
          rw [next]
          rw [mine] at fits
          exact inv.buffer guarded_unique txn mine free effect fits in_time
  | newTransaction =>
      rcases exec_newTransaction done with ⟨rfl, rfl⟩ | ⟨rfl, rfl⟩
      · exact deletion_stay inv rfl rfl
      · exact deletion_push (inv.start guarded_unique i)
  | advisoryLock key =>
      rcases exec_advisoryLock done with ⟨rfl, rfl⟩ | ⟨rfl, free, rfl⟩
      · exact deletion_leave inv rfl
      · refine deletion_push ?_
        have same : transactionNext (inTransaction i w.log) (.advisoryLock key) true =
          inTransaction i w.log := rfl
        rw [same, Function.update_eq_self]
        exact inv.take guarded_unique free
  | commit =>
      rcases exec_commit done with ⟨rfl, rfl⟩ | ⟨rfl, rfl⟩
      · exact deletion_leave inv rfl
      · cases txn : w.db.db.txn i with
        | none =>
            have ends : w.db.db.finish i = w.db.db.abandon i := by
              unfold TxnDb.finish TxnDb.abandon
              rw [TxnDb.view_of_none txn]
            refine deletion_push ?_
            rw [ends]
            exact inv.leave guarded_unique i
        | some u =>
            have inside : inTransaction i w.log ≠ none := fun none_ => by
              cases txn.symm.trans ((inv.idle i).mpr none_)
            obtain ⟨l, mine⟩ := Option.ne_none_iff_exists'.mp inside
            exact deletion_push (inv.commit guarded_unique txn mine
              (fits l (placeOf_pending.trans mine)))
  | rollback =>
      rw [exec_rollback done]
      exact deletion_leave inv rfl
  | detach save =>
      rw [exec_detach done]
      exact deletion_stay inv rfl rfl
  | awaitSave =>
      obtain ⟨queue, _, rfl⟩ := exec_awaitSave done
      exact deletion_stay inv rfl rfl
  | _ =>
      rw [exec_outside done trivial]
      exact deletion_stay inv rfl rfl

/-! ## What a step shows and commits -/

omit [DecidableEq ι] in
/-- An addition in time for the look before it meets no deletion. -/
theorem LookedLive.live (looked : LookedLive organizationId i w)
    (since : NoDeletionSinceLook organizationId i w.log) :
    ¬ Deleted organizationId w.db.db.rows := by
  intro gone
  obtain ⟨later, look, earlier, log, thread, looks, due⟩ := looked
  obtain ⟨e, mem, deletes⟩ := due gone
  exact since later look earlier log thread looks e mem deletes

/-- What every step of a run does to the committed rows. -/
structure Committed (organizationId : Nat) (i : ι) (o : OrgOp) (r : OrgSig.Res o) (w : OrgWorld ι)
    (s' : OrgStore ι) : Prop where
  moves : TxnDb.Moves orgLocks i (commits i w.db o r) w.db.db s'.db
  keeps : ∀ c ∈ commits i w.db o r, KeepsOrganization organizationId c

theorem committed_of_exec (inv : DeletionInv organizationId w)
    (done : execOrg site m i o w.db = some (r, s')) : Committed organizationId i o r w s' :=
  ⟨(exec_moves inv.holds.sound done).2,
    inv.views.regular_commits done fun _ _ _ _ executed => eval_keeps executed.eval⟩

namespace Committed

omit [DecidableEq ι]

/-- A deletion is for good. -/
theorem deleted (step : Committed organizationId i o r w s')
    (gone : Deleted organizationId w.db.db.rows) : Deleted organizationId s'.db.rows := by
  rw [step.moves.rows]
  exact gone.applyAll step.keeps

theorem recorded (step : Committed organizationId i o r w s')
    (known : Recorded organizationId w.db.db.rows) : Recorded organizationId s'.db.rows := by
  rw [step.moves.rows]
  exact known.applyAll step.keeps

/-- The organization was deleted before, or the step commits a deletion of it. -/
theorem deleted_before (step : Committed organizationId i o r w s')
    (gone : Deleted organizationId s'.db.rows) :
    Deleted organizationId w.db.db.rows ∨ DeletesOrg organizationId ⟨i, w.tick, o, r, w.db⟩ := by
  rw [step.moves.rows] at gone
  exact gone.of_applyAll

/-- A look stays a look. -/
theorem looked (step : Committed organizationId i o r w s') {j : ι}
    (looked : LookedLive organizationId j w) :
    LookedLive organizationId j (w.push i o r s') := by
  obtain ⟨later, look, earlier, log, thread, looks, due⟩ := looked
  refine ⟨⟨i, w.tick, o, r, w.db⟩ :: later, look, earlier, ?_, thread, looks, fun gone => ?_⟩
  · rw [World.push_log, log]
    rfl
  · rcases step.deleted_before gone with before | deletes
    · obtain ⟨e, mem, deletes⟩ := due before
      exact ⟨e, List.mem_cons_of_mem _ mem, deletes⟩
    · exact ⟨_, List.mem_cons_self, deletes⟩

end Committed

/-- Whatever a thread sees of a deleted organization is deleted. -/
theorem DeletionInv.deleted_view (inv : DeletionInv organizationId w)
    (gone : Deleted organizationId w.db.db.rows) : Deleted organizationId (w.db.db.view i) := by
  cases txn : w.db.db.txn i with
  | none =>
      rw [TxnDb.view_of_none txn]
      exact gone
  | some u =>
      rw [TxnDb.view_of_some txn]
      exact gone.applyAll (inv.views.regular i u txn)

theorem DeletionInv.recorded_view (inv : DeletionInv organizationId w)
    (known : Recorded organizationId w.db.db.rows) :
    Recorded organizationId (w.db.db.view i) := by
  cases txn : w.db.db.txn i with
  | none =>
      rw [TxnDb.view_of_none txn]
      exact known
  | some u =>
      rw [TxnDb.view_of_some txn]
      exact known.applyAll (inv.views.regular i u txn)

/-- The live organization. -/
theorem live_of_found (inv : DeletionInv organizationId w) {slug : String} {org : Organization}
    (own : org.id = organizationId)
    (found : (OrgQuery.organization slug).eval (w.db.db.view i) = some org) :
    ¬ Deleted organizationId w.db.db.rows := by
  intro gone
  have mem := organizations.mem_of.mp (List.mem_of_find?_eq_some found)
  have live : org.slug = slug ∧ org.deleted = false := by
    simpa using List.find?_some found
  exact not_deleted_of_live (inv.views.views i) mem own live.2 (inv.deleted_view gone)

/-- A deletion leaves no invitation open. -/
theorem live_of_invitation (inv : DeletionInv organizationId w) {v : OrganizationInvitation}
    (mem : .invitation v ∈ w.db.db.view i) (own : v.organizationId = organizationId)
    (pending : v.acceptedAt = none) : ¬ Deleted organizationId w.db.db.rows := by
  intro gone
  obtain ⟨d, there, tombstone⟩ := deleted_iff.mp gone
  have step : OrgStatement.voidInvitations organizationId ∈ cascadeSteps organizationId := by
    simp [cascadeSteps]
  have sweeps : sweptBy (.voidInvitations organizationId) (.invitation v) := ⟨own, pending⟩
  have swept : ∀ r, OrgRow.invitation v = r ∨ sweptBy (.voidInvitations organizationId) r →
      r ∉ w.db.db.rows := by
    intro r kind mem
    rcases kind with rfl | sweeps'
    · exact inv.holds.closed d there tombstone _ step _ mem sweeps
    · exact inv.holds.closed d there tombstone _ step _ mem sweeps'
  cases txn : w.db.db.txn i with
  | none =>
      rw [TxnDb.view_of_none txn] at mem
      exact swept _ (.inl rfl) mem
  | some u =>
      have inside : inTransaction i w.log ≠ none := fun none_ => by
        cases txn.symm.trans ((inv.holds.idle i).mpr none_)
      obtain ⟨l, mine⟩ := Option.ne_none_iff_exists'.mp inside
      have standing := inv.holds.each i u l txn mine
      rw [TxnDb.view_of_some txn] at mem
      rcases mem_of_mem_applyAll mem with old | ⟨c, change, put⟩
      · exact swept _ (.inl rfl) old
      · rcases standing.rooted c change _ put _ step sweeps with
          ⟨a, ran, refills⟩ | ⟨r', old, sweeps', _⟩
        · exact standing.stands a ran _ step refills d there tombstone
        · exact swept r' (.inr sweeps') old

/-- The number of an organization that is put in is new. -/
theorem live_of_insert (inv : DeletionInv organizationId w) {slug : String} {n : Nat}
    {changes : List OrgChange}
    (executed : Executed i (.insertOrganization slug) n changes w.db s')
    (own : n = organizationId) : ¬ Deleted organizationId w.db.db.rows := by
  intro gone
  obtain ⟨o, mem, same, _⟩ := inv.deleted_view (i := i) gone
  have eval := executed.eval
  cases eval
  have key : OrgKey.organization organizationId ∈ (OrgRow.organization o).keys := by
    rw [← same]
    exact List.mem_cons_self
  refine not_shares_of_valid executed.valid List.mem_cons_self rfl (organizations.mem_of.mp mem)
    (fun old => by cases old) key ?_
  rw [← own]
  exact List.mem_cons_self

/-- What a thread has just looked at is not deleted. -/
theorem live_of_look (inv : DeletionInv organizationId w)
    (done : execOrg site m i o w.db = some (r, s'))
    (dated : ∀ v, invitationRead o r = some v → v.organizationId = organizationId →
      v.acceptedAt ≠ some 0)
    (looks : looksAt organizationId o r = true) : ¬ Deleted organizationId w.db.db.rows := by
  cases o with
  | query q =>
      rcases exec_query done with ⟨rfl, _⟩ | ⟨rfl, _⟩
      · cases q <;> cases looks
      cases q with
      | organization slug =>
          cases found : (OrgQuery.organization slug).eval (w.db.db.view i) with
          | none =>
              rw [found] at looks
              cases looks
          | some org =>
              rw [found] at looks
              exact live_of_found inv (of_decide_eq_true looks) found
      | invitation token =>
          cases found : (OrgQuery.invitation token).eval (w.db.db.view i) with
          | none =>
              rw [found] at looks
              cases looks
          | some v =>
              rw [found] at looks dated
              simp only [looksAt, Bool.and_eq_true, decide_eq_true_eq, Bool.not_eq_true',
                OrganizationInvitation.accepted, decide_eq_false_iff_not, not_not] at looks
              have pending : v.acceptedAt = none := by
                cases stamp : v.acceptedAt with
                | none => rfl
                | some at_ =>
                    have zero : at_ = 0 := by
                      simpa [stamp] using looks.2
                    exact absurd (zero ▸ stamp) (dated v rfl looks.1)
              exact live_of_invitation inv
                (invitations.mem_of.mp (List.mem_of_find?_eq_some found)) looks.1 pending
      | _ => cases looks
  | statement s =>
      rcases exec_statement done with ⟨rfl, _⟩ | ⟨n, changes, rfl, executed⟩
      · cases s <;> cases looks
      cases s with
      | insertOrganization slug => exact live_of_insert inv executed (of_decide_eq_true looks)
      | _ => cases looks
  | awaitSave =>
      obtain ⟨queue, queued, _⟩ := exec_awaitSave done
      exact inv.queue r (queued ▸ List.mem_cons_self) (of_decide_eq_true looks)
  | _ => cases looks

omit [DecidableEq ι] in
/-- A look commits no deletion. -/
theorem live_after_look (step : Committed organizationId i o r w s')
    (looks : looksAt organizationId o r = true)
    (live : ¬ Deleted organizationId w.db.db.rows) : ¬ Deleted organizationId s'.db.rows := by
  intro gone
  refine (step.deleted_before gone).elim live fun deletes => ?_
  obtain ⟨c, mem, d, put, tombstone⟩ := deletes
  cases o with
  | statement s =>
      cases s with
      | insertOrganization slug =>
          cases r with
          | none => cases looks
          | some n =>
              simp only [commits] at mem
              cases txn : w.db.db.txn i with
              | some t =>
                  rw [txn] at mem
                  cases mem
              | none =>
                  rw [txn] at mem
                  cases List.mem_singleton.mp mem
                  cases put
                  cases tombstone.2
      | _ => cases looks
  | _ => first | cases looks | cases mem

/-! ## One step -/

/-- A statement of an allowed event is in time for the cascade. -/
theorem deletion_timely (inv : DeletionInv organizationId w) {s : OrgStatement} {n answer : Nat}
    {changes : List OrgChange}
    (fits : CascadeFits organizationId (placeOf organizationId i w.log) s)
    (executed : Executed i s n changes w.db s')
    (apart : DeletionApart organizationId ⟨i, w.tick, .statement s, some answer, w.db⟩ w.log) :
    (orgCascade organizationId).Timely w.db.db.rows (fun j => inTransaction j w.log) i s := by
  refine timely_of inv.holds inv.braced executed.eval executed.free (fun step => ?_)
    (fun adds => ?_) (fun regrants => ?_) fun own => ?_
  · have first := fits.first step
    rw [placeOf_pending] at first
    exact first
  · exact (inv.looked i (fits.looked adds)).live (apart.looked adds)
  · exact apart.regrants s n changes rfl executed.eval regrants
  · exact apart.revokes (congrArg some own)

/-- What the thread's own transaction holds after a step. -/
theorem deletion_braced (inv : DeletionInv organizationId w)
    (fits : DeletionFits organizationId (placeOf organizationId i w.log) o)
    (done : execOrg site m i o w.db = some (r, s')) {u' : Txn OrgRow OrgKey}
    {l' : List OrgStatement} (txn' : s'.db.txn i = some u')
    (there : transactionNext (inTransaction i w.log) o r = some l') :
    Braced organizationId w.db.db.rows u' l' := by
  have stays : s'.db = w.db.db → inTransaction i w.log = some l' →
      Braced organizationId w.db.db.rows u' l' := by
    intro same mine
    rw [same] at txn'
    exact inv.braced i u' l' txn' mine
  cases o with
  | query q =>
      rcases exec_query done with ⟨rfl, rfl⟩ | ⟨rfl, rfl⟩
      · cases there
      · exact stays rfl there
  | statement s =>
      rcases exec_statement done with ⟨rfl, rfl⟩ | ⟨n, changes, rfl, executed⟩
      · cases there
      obtain ⟨l, mine, rfl⟩ := Option.map_eq_some_iff.mp there
      cases txn : w.db.db.txn i with
      | none => cases ((inv.holds.idle i).mp txn).symm.trans mine
      | some u =>
          cases (executed.buffered txn).1.symm.trans txn'
          have eval := executed.eval
          rw [TxnDb.view_of_some txn] at eval
          refine (inv.braced i u l txn mine).execute eval (fun step => ?_) (fun step => ?_)
            (inv.holds.each i u l txn mine).marked
          · refine (fits.first step).imp_right fun before => ?_
            obtain ⟨l'', pending, ran⟩ := before
            cases (placeOf_pending.symm.trans pending).symm.trans mine
            exact ran
          · rw [← TxnDb.view_of_some txn]
            exact inv.recorded_view (inv.found i (fits.found step))
  | newTransaction =>
      rcases exec_newTransaction done with ⟨rfl, rfl⟩ | ⟨rfl, rfl⟩
      · exact stays rfl there
      · cases there
        exact .nil
  | advisoryLock key =>
      rcases exec_advisoryLock done with ⟨rfl, rfl⟩ | ⟨rfl, _, rfl⟩
      · cases there
      cases txn : w.db.db.txn i with
      | none => cases ((inv.holds.idle i).mp txn).symm.trans there
      | some u =>
          simp only [TxnDb.take, txn, Function.update_self] at txn'
          cases txn'
          exact (inv.braced i u l' txn there).take _
  | commit => cases there
  | rollback => cases there
  | detach save =>
      rw [exec_detach done] at stays
      exact stays rfl there
  | awaitSave =>
      obtain ⟨queue, _, rfl⟩ := exec_awaitSave done
      exact stays rfl there
  | _ =>
      rw [exec_outside done trivial] at stays
      exact stays rfl there

/-- What is queued afterwards was queued before, or has just been detached. -/
theorem exec_queue (done : execOrg site m i o w.db = some (r, s')) {save : ConsentSave}
    (mem : save ∈ s'.queue) : save ∈ w.db.queue ∨ o = .detach save := by
  cases o with
  | query q => rcases exec_query done with ⟨_, rfl⟩ | ⟨_, rfl⟩ <;> exact .inl mem
  | statement s =>
      rcases exec_statement done with ⟨_, rfl⟩ | ⟨_, _, _, _, _, _, rfl⟩ <;> exact .inl mem
  | newTransaction => rcases exec_newTransaction done with ⟨_, rfl⟩ | ⟨_, rfl⟩ <;> exact .inl mem
  | advisoryLock key =>
      rcases exec_advisoryLock done with ⟨_, rfl⟩ | ⟨_, _, rfl⟩ <;> exact .inl mem
  | commit => rcases exec_commit done with ⟨_, rfl⟩ | ⟨_, rfl⟩ <;> exact .inl mem
  | rollback =>
      rw [exec_rollback done] at mem
      exact .inl mem
  | detach save' =>
      rw [exec_detach done] at mem
      rcases List.mem_append.mp mem with old | new
      · exact .inl old
      · rw [List.mem_singleton.mp new]
        exact .inr rfl
  | awaitSave =>
      obtain ⟨queue, queued, rfl⟩ := exec_awaitSave done
      rw [queued]
      exact .inl (List.mem_cons_of_mem r mem)
  | _ =>
      rw [exec_outside done trivial] at mem
      exact .inl mem

/-- Who has looked, after a step. -/
theorem looked_push (inv : DeletionInv organizationId w)
    (step : Committed organizationId i o r w s')
    (live : looksAt organizationId o r = true → ¬ Deleted organizationId w.db.db.rows) (j : ι)
    (looked : (placeOf organizationId j (w.push i o r s').log).looked = true) :
    LookedLive organizationId j (w.push i o r s') := by
  by_cases mine : j = i
  · subst mine
    rw [placeOf, track_own, DeletionPlace.next, Bool.or_eq_true] at looked
    rcases looked with before | looks
    · exact step.looked (inv.looked j before)
    · refine ⟨[], ⟨j, w.tick, o, r, w.db⟩, w.log, rfl, rfl, looks, fun gone => ?_⟩
      exact absurd gone (live_after_look step looks (live looks))
  · rw [placeOf, track_other mine] at looked
    exact step.looked (inv.looked j looked)

/-- An organization that a thread has found is in the table, after a step. -/
theorem found_push (inv : DeletionInv organizationId w)
    (done : execOrg site m i o w.db = some (r, s'))
    (step : Committed organizationId i o r w s') (j : ι)
    (found : (placeOf organizationId j (w.push i o r s').log).found = true) :
    Recorded organizationId s'.db.rows := by
  refine step.recorded ?_
  by_cases mine : j = i
  · subst mine
    rw [placeOf, track_own, DeletionPlace.next, Bool.or_eq_true, Bool.and_eq_true,
      placeOf_pending, Option.isNone_iff_eq_none] at found
    rcases found with before | ⟨outside, finds⟩
    · exact inv.found j before
    · cases o with
      | query q =>
          rcases exec_query done with ⟨rfl, _⟩ | ⟨rfl, _⟩
          · cases q <;> cases finds
          rw [TxnDb.view_of_none ((inv.holds.idle j).mpr outside)] at finds
          cases q with
          | organization slug =>
              cases answer : (OrgQuery.organization slug).eval w.db.db.rows with
              | none =>
                  rw [answer] at finds
                  cases finds
              | some org =>
                  rw [answer] at finds
                  exact ⟨org, List.mem_of_find?_eq_some answer, of_decide_eq_true finds⟩
          | _ => cases finds
      | _ => cases finds
  · rw [placeOf, track_other mine] at found
    exact inv.found j found

/-- No save for a deleted organization is queued. -/
theorem queue_push (inv : DeletionInv organizationId w)
    (fits : DeletionFits organizationId (placeOf organizationId i w.log) o)
    (done : execOrg site m i o w.db = some (r, s'))
    (step : Committed organizationId i o r w s')
    (apart : DeletionApart organizationId ⟨i, w.tick, o, r, w.db⟩ w.log) (save : ConsentSave)
    (mem : save ∈ s'.queue) (own : save.organizationId = organizationId) :
    ¬ Deleted organizationId s'.db.rows := by
  intro gone
  rcases exec_queue done mem with queued | rfl
  · rcases step.deleted_before gone with before | deletes
    · exact inv.queue save queued own before
    · exact apart.queued deletes save queued own
  · have live := (inv.looked i (fits own)).live (apart.looked own)
    rw [exec_detach done] at gone
    exact live gone

/-- Every fitting operation of an allowed event keeps the invariant. -/
theorem deletion_step (site : OrgSite) (organizationId : Nat) :
    KeptByFitting (execOrg site) (DeletionApart organizationId)
      (DeletionPlace.next organizationId) {} (DeletionFits organizationId) (fun _ _ _ => True)
      (DeletionInv organizationId : OrgWorld ι → Prop) := by
  intro w i o m r s' inv fits done apart
  have step := committed_of_exec inv done
  have guarded : TxnDb.Guarded orgLocks (KeepsOrganization organizationId) SharesKey :=
    ⟨fun c c' r _ _ => guarded_unique.row c c' r trivial trivial,
      fun c c' r r' _ _ => guarded_unique.pair c c' r r' trivial trivial⟩
  refine ⟨trivial, ?_, ?_, looked_push inv step fun looks => ?_, found_push inv done step,
    queue_push inv fits done step apart, fun j u l txn there => ?_⟩
  · refine deletion_holds inv.holds fits done fun s ran n changes executed => ?_
    cases o with
    | statement s' =>
        cases r with
        | none => cases ran
        | some answer =>
            cases ran
            exact deletion_timely inv fits executed apart
    | _ => cases ran
  · refine exec_views guarded inv.holds.sound inv.views done fun s n changes _ executed => ?_
    exact ⟨eval_keeps executed.eval, eval_unique executed.eval executed.valid (inv.views.views i)⟩
  · exact live_of_look inv done apart.dated looks
  · by_cases mine : j = i
    · subst mine
      rw [inTransaction, track_own] at there
      exact (deletion_braced inv fits done txn there).of_rows step.deleted
    · rw [World.push_db, step.moves.others j mine] at txn
      rw [inTransaction, track_other mine] at there
      exact (inv.braced j u l txn there).of_rows step.deleted

end Events

end Fulla
