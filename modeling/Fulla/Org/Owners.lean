import Mathlib.Data.List.Nodup
import Fulla.Org.Ownership

/-!
# Organizations and their owners

`transferOwnership` promotes the next owner and then dismisses the others, by two statements
outside a transaction; `effectSuccession` executes the same two in one.  `removeMember` reads the
role of a member, and the admin's also the owners, before it deletes the row.  Two transfers at
once dismiss each other's owner, and a removal can delete a row that became the owner's after it
was read.

`OwnerStays` is the condition on such a step.  A removal meets it whose checks still hold when the
row is deleted (`ownerStays_of_removal`), and so does a dismissal that finds what the promotion has
left (`ownerStays_of_promotion`).  `owners_step` is what every step keeps under it: the office of
the owners is in order, with every thread where its own events have brought it.
-/

namespace Fulla

open Conc OrgTable

/-! ## Where a call stands -/

/-- Where a thread stands in a hand-over, and the member row it has read last. -/
structure OwnerPlace where
  stage : HandOver Int32 := .idle
  read : Option OrganizationMember := none

/-- An executed statement. -/
def OwnerPlace.execute (organizationId : Nat) (g : OwnerPlace) :
    OrgStatement → Nat → HandOver Int32
  | .setRole _ _, n =>
    match g.read with
    | some row =>
      if row.organizationId = organizationId ∧ n ≠ 0 then g.stage.raise row.userId else g.stage
    | none => g.stage
  | .insertMember id userId role, _ =>
    if id = organizationId ∧ role = .owner then g.stage.raise userId else g.stage
  | .demoteOthers id _, _ => if id = organizationId then g.stage.dismiss else g.stage
  | .softDelete id, _ => if id = organizationId then .closing else g.stage
  | _, _ => g.stage

/-- An answered query. -/
def OwnerPlace.look (g : OwnerPlace) : (q : OrgQuery) → q.Res → OwnerPlace
  | .membership _ _, some row => { g with read := some row }
  | _, _ => g

/-- What a step tells about the place of a call. -/
def ownerNext (organizationId : Nat) (g : OwnerPlace) : (o : OrgOp) → OrgSig.Res o → OwnerPlace
  | .newTransaction, true => { g with stage := .apart }
  | .query _, none => { g with stage := .idle }
  | .query q, some r => g.look q r
  | .statement _, none => { g with stage := .idle }
  | .statement s, some n => { g with stage := g.execute organizationId s n }
  | .advisoryLock _, false => { g with stage := .idle }
  | .commit, _ => { g with stage := .idle }
  | .rollback, _ => { g with stage := .idle }
  | _, _ => g

/-- The statements of a hand-over in their order, the others anywhere.  Outside a transaction, only
a thread that may (`raises`) makes somebody an owner. -/
def StatementFits (organizationId : Nat) (raises : Prop) (g : OwnerPlace) : OrgStatement → Prop
  | .setRole id role => (g.stage.Calm ∧ (g.stage = .idle → raises)) ∧ role = .owner ∧
      ∃ row, g.read = some row ∧ row.id = id
  | .insertMember _ _ role => g.stage.Calm ∧ (role = .owner → g.stage = .idle → raises)
  | .demoteOthers id userId =>
    if id = organizationId then g.stage = .raised userId ∨ g.stage = .raising userId
    else g.stage.Calm
  | .deleteMember _ _ => g.stage = .idle
  | .softDelete id => if id = organizationId then g.stage = .apart else g.stage.Calm
  | .detachMembers id => if id = organizationId then g.stage = .closing else g.stage.Calm
  | _ => g.stage.Settled

theorem settled_of_fits {organizationId : Nat} {raises : Prop} {g : OwnerPlace} {s : OrgStatement}
    (other : ∀ userId, s ≠ .demoteOthers organizationId userId)
    (fits : StatementFits organizationId raises g s) : g.stage.Settled := by
  have idle : g.stage = .idle → g.stage.Settled := fun at_ => HandOver.Calm.settled (.inl at_)
  cases s with
  | setRole id role => exact fits.1.1.settled
  | insertMember id userId role => exact fits.1.settled
  | deleteMember id userId => exact idle fits
  | demoteOthers id userId =>
      have away : id ≠ organizationId := fun own => other userId (own ▸ rfl)
      exact HandOver.Calm.settled (Eq.mp (if_neg away) fits)
  | softDelete id =>
      by_cases own : id = organizationId
      · exact HandOver.Calm.settled (.inr (Eq.mp (if_pos own) fits))
      · exact HandOver.Calm.settled (Eq.mp (if_neg own) fits)
  | detachMembers id =>
      by_cases own : id = organizationId
      · intro u raised
        cases (Eq.mp (if_pos own) fits : g.stage = .closing).symm.trans raised
      · exact HandOver.Calm.settled (Eq.mp (if_neg own) fits)
  | _ => exact fits

/-- The user is an owner of the organization. -/
def OwnedBy (organizationId : Nat) (userId : Int32) (rows : List OrgRow) : Prop :=
  ∃ m ∈ members.of rows,
    m.organizationId = organizationId ∧ m.role = .owner ∧ m.userId = userId

/-- Somebody else owns the organization. -/
def OwnedBeside (organizationId : Nat) (userId : Int32) (rows : List OrgRow) : Prop :=
  ∃ m ∈ members.of rows,
    m.organizationId = organizationId ∧ m.role = .owner ∧ m.userId ≠ userId

/-! ### What the checks establish -/

section Checks

variable {rows : List OrgRow} {organizationId : Nat} {userId : Int32} {row : OrganizationMember}

/-- An organization has one seat of a user. -/
theorem seat_unique (unique : TxnDb.Clear OrgRow.SharesKey rows) {m m' : OrganizationMember}
    (mem : m ∈ members.of rows) (mem' : m' ∈ members.of rows)
    (org : m'.organizationId = m.organizationId) (user : m'.userId = m.userId) : m' = m := by
  by_contra ne
  refine unique _ (members.mem_of.mp mem') _ (members.mem_of.mp mem)
    ⟨fun same => ne (OrgRow.member.inj same), .seat m.organizationId m.userId, ?_, ?_⟩
  · simp [members, OrgRow.keys, org, user]
  · simp [members, OrgRow.keys]

/-- Who has been looked up and is no owner owns nothing. -/
theorem not_ownedBy_of_look (unique : TxnDb.Clear OrgRow.SharesKey rows)
    (look : (OrgQuery.membership organizationId userId).eval rows = some row)
    (role : row.role ≠ .owner) : ¬ OwnedBy organizationId userId rows := by
  rintro ⟨m, mem, org, owner, user⟩
  rw [OrgQuery.eval] at look
  have seat := List.find?_some look
  rw [decide_eq_true_eq] at seat
  have same := seat_unique unique mem (List.mem_of_find?_eq_some look) (seat.1.trans org.symm)
    (seat.2.trans user.symm)
  exact role (same ▸ owner)

/-- Two owners are counted, so there is one beside any user. -/
theorem ownedBeside_of_count (unique : TxnDb.Clear OrgRow.SharesKey rows) (nodup : rows.Nodup)
    (count : 1 < ((OrgQuery.owners organizationId).eval rows).length) :
    OwnedBeside organizationId userId rows := by
  by_contra none
  have target {m : OrganizationMember} (mem : m ∈ (OrgQuery.owners organizationId).eval rows) :
      m ∈ members.of rows ∧ m.organizationId = organizationId ∧ m.userId = userId := by
    rw [OrgQuery.eval, List.mem_filter, decide_eq_true_eq] at mem
    exact ⟨mem.1, mem.2.1, not_not.mp fun other => none ⟨m, mem.1, mem.2.1, mem.2.2, other⟩⟩
  have listed : ((OrgQuery.owners organizationId).eval rows).Nodup := by
    refine (nodup.filterMap fun r r' m got got' => ?_).filter _
    rw [(members.get_eq r m).mp got, (members.get_eq r' m).mp got']
  match owners : (OrgQuery.owners organizationId).eval rows, count, listed with
  | m :: m' :: _, _, listed =>
      rw [owners] at target
      obtain ⟨mem, org, user⟩ := target (m := m) (by simp)
      obtain ⟨mem', org', user'⟩ := target (m := m') (by simp)
      have same := seat_unique unique mem mem' (org'.trans org.symm) (user'.trans user.symm)
      simp [same] at listed

/-- The seat that was looked up has become the owner's. -/
theorem raises_of_look {serial n : Nat} {changes : List OrgChange}
    (unique : TxnDb.Clear OrgRow.SharesKey rows)
    (look : (OrgQuery.membership organizationId userId).eval rows = some row)
    (promoted : (OrgStatement.setRole row.id .owner).eval serial rows = some (n, changes))
    (counted : n ≠ 0) : (ownership organizationId).Raises userId changes rows := by
  rw [OrgQuery.eval] at look
  have seat := List.find?_some look
  rw [decide_eq_true_eq] at seat
  refine raises_of_setRole unique (fun m mem number => ?_) promoted counted
  have same : m = row := by
    by_contra ne
    refine unique _ mem _ (members.mem_of.mp (List.mem_of_find?_eq_some look))
      ⟨fun same => ne (OrgRow.member.inj same), .member m.id, ?_, ?_⟩
    · simp [OrgRow.keys]
    · simp [members, OrgRow.keys, number]
  rw [same]
  exact seat

end Checks

section Events

variable {ι : Type} [DecidableEq ι]

/-- An owner is removed only if there is another one, whoever the others are dismissed for is an
owner then, and the others are dismissed unless there are none. -/
def OwnerStays (organizationId : Nat) (e : OrgEvent ι) (_ : List (OrgEvent ι)) : Prop :=
  match e.op, e.res with
  | .statement (.deleteMember id userId), some _ =>
    id = organizationId → OwnedBy organizationId userId e.pre.db.rows →
      OwnedBeside organizationId userId e.pre.db.rows
  | .statement (.demoteOthers id userId), some _ =>
    id = organizationId → OwnedBy organizationId userId (e.pre.db.view e.thread)
  | .statement (.demoteOthers id userId), none =>
    id = organizationId → e.pre.db.txn e.thread = none →
      ¬ OwnedBeside organizationId userId e.pre.db.rows
  | _, _ => True

section Checked

variable {i : ι} {tick id organizationId : Nat} {userId : Int32} {pre : OrgStore ι}
  {log : List (OrgEvent ι)}

omit [DecidableEq ι] in
/-- A removal whose look at the target, and at the owners if it was one, is still what is stored
meets the condition. -/
theorem ownerStays_of_removal {res : Option Nat} {row : OrganizationMember}
    (unique : TxnDb.Clear OrgRow.SharesKey pre.db.rows) (nodup : pre.db.rows.Nodup)
    (look : (OrgQuery.membership id userId).eval pre.db.rows = some row)
    (checked : row.role = .owner → 1 < ((OrgQuery.owners id).eval pre.db.rows).length) :
    OwnerStays organizationId ⟨i, tick, .statement (.deleteMember id userId), res, pre⟩ log := by
  cases res with
  | none => trivial
  | some n =>
      rintro rfl owned
      by_cases role : row.role = .owner
      · exact ownedBeside_of_count unique nodup (checked role)
      · exact absurd owned (not_ownedBy_of_look unique look role)

omit [DecidableEq ι] in
/-- A dismissal of the others that finds what the promotion has left meets the condition. -/
theorem ownerStays_of_promotion {n : Nat} {rows : List OrgRow} {changes : List OrgChange}
    (promoted : (ownership id).Raises userId changes rows)
    (view : pre.db.view i = applyAll changes rows) :
    OwnerStays organizationId ⟨i, tick, .statement (.demoteOthers id userId), some n, pre⟩ log := by
  rintro rfl
  obtain ⟨r, mem, holds, _⟩ := promoted
  obtain ⟨m, rfl, org, role, user⟩ := holder_eq_some.mp holds
  exact ⟨m, members.mem_of.mpr (view ▸ mem), org, role, user⟩

end Checked

/-- The place of a call, read off the log. -/
def ownerPlace (organizationId : Nat) (i : ι) (log : List (OrgEvent ι)) : OwnerPlace :=
  track (ownerNext organizationId) {} i log

/-- What holds in every state. -/
structure OwnersHold (organizationId : Nat) (single : Prop) (w : OrgWorld ι) : Prop where
  owners : (ownership organizationId).Holds orgLocks single w.db.db
    fun j => (ownerPlace organizationId j w.log).stage
  unique : Unique w.db.db
  seated : SeatNumbers w.db.db fun j => (ownerPlace organizationId j w.log).read
  known : organizationId < w.db.db.serial

variable {organizationId : Nat} {single : Prop} {site : OrgSite} {m : OrgMoment} {w : OrgWorld ι}
  {i : ι} {o : OrgOp} {r : OrgSig.Res o} {s' : OrgStore ι}

/-- What is left to show of a step is what it does to the owners and what the thread has read. -/
theorem OwnersHold.push (inv : OwnersHold organizationId single w)
    (done : execOrg site m i o w.db = some (r, s'))
    (owners : (ownership organizationId).Holds orgLocks single s'.db
      (Function.update (fun j => (ownerPlace organizationId j w.log).stage) i
        (ownerNext organizationId (ownerPlace organizationId i w.log) o r).stage))
    (seated : SeatNumbers s'.db
      (Function.update (fun j => (ownerPlace organizationId j w.log).read) i
        (ownerNext organizationId (ownerPlace organizationId i w.log) o r).read)) :
    OwnersHold organizationId single (w.push i o r s') := by
  have moved : (fun j => ownerPlace organizationId j (w.push i o r s').log) =
      Function.update (fun j => ownerPlace organizationId j w.log) i
        (ownerNext organizationId (ownerPlace organizationId i w.log) o r) := track_push
  have stages : (fun j => (ownerPlace organizationId j (w.push i o r s').log).stage) =
      Function.update (fun j => (ownerPlace organizationId j w.log).stage) i
        (ownerNext organizationId (ownerPlace organizationId i w.log) o r).stage :=
    (congrArg (fun f j => OwnerPlace.stage (f j)) moved).trans (Function.comp_update ..)
  have reads : (fun j => (ownerPlace organizationId j (w.push i o r s').log).read) =
      Function.update (fun j => (ownerPlace organizationId j w.log).read) i
        (ownerNext organizationId (ownerPlace organizationId i w.log) o r).read :=
    (congrArg (fun f j => OwnerPlace.read (f j)) moved).trans (Function.comp_update ..)
  refine ⟨?_, exec_unique inv.owners.sound inv.unique done, ?_,
    inv.known.trans_le (exec_present done).1⟩
  · rw [stages]
    exact owners
  · rw [reads]
    exact seated

/-- A step that reads no member row. -/
theorem OwnersHold.move (inv : OwnersHold organizationId single w)
    (done : execOrg site m i o w.db = some (r, s'))
    (owners : (ownership organizationId).Holds orgLocks single s'.db
      (Function.update (fun j => (ownerPlace organizationId j w.log).stage) i
        (ownerNext organizationId (ownerPlace organizationId i w.log) o r).stage))
    (read : (ownerNext organizationId (ownerPlace organizationId i w.log) o r).read =
      (ownerPlace organizationId i w.log).read) :
    OwnersHold organizationId single (w.push i o r s') := by
  refine inv.push done owners ?_
  rw [read, Function.update_eq_self]
  exact exec_seated inv.seated done

/-- A step that leaves the database alone. -/
theorem OwnersHold.stay (inv : OwnersHold organizationId single w)
    (done : execOrg site m i o w.db = some (r, s')) (same : s'.db = w.db.db)
    (next : ownerNext organizationId (ownerPlace organizationId i w.log) o r =
      ownerPlace organizationId i w.log) : OwnersHold organizationId single (w.push i o r s') := by
  refine inv.move done ?_ (congrArg OwnerPlace.read next)
  rw [next, Function.update_eq_self, same]
  exact inv.owners

/-- A step that ends the transaction without a commit. -/
theorem OwnersHold.leave (inv : OwnersHold organizationId single w)
    (done : execOrg site m i o w.db = some (r, s')) (fails : s' = w.db.fail i)
    (settled : (ownerPlace organizationId i w.log).stage.Settled)
    (next : ownerNext organizationId (ownerPlace organizationId i w.log) o r =
      { ownerPlace organizationId i w.log with stage := .idle }) :
    OwnersHold organizationId single (w.push i o r s') := by
  refine inv.move done ?_ (by rw [next])
  rw [next, fails]
  exact inv.owners.leave (ownership_regular organizationId) inv.unique.committed settled

/-! ## Executed statements -/

section Executed

variable {statement : OrgStatement} {n : Nat} {changes : List OrgChange}

theorem not_founds_of_executed (inv : OwnersHold organizationId single w)
    (executed : Executed i statement n changes w.db s') :
    ¬ (ownership organizationId).Founds changes :=
  not_founds_of_eval executed.eval (Nat.ne_of_lt inv.known)

/-- In a transaction: what the library asks for. -/
theorem Executed.inside (executed : Executed i statement n changes w.db s')
    {t : Txn OrgRow OrgKey} (txn : w.db.db.txn i = some t) :
    ∃ t', s'.db.txn i = some t' ∧ t'.changes = t.changes ++ changes ∧
      TxnDb.Moves orgLocks i [] w.db.db s'.db :=
  ⟨_, (executed.buffered txn).1, rfl, (executed.buffered txn).2.2⟩

theorem Executed.sound (executed : Executed i statement n changes w.db s')
    (inv : OwnersHold organizationId single w) : s'.db.Sound orgLocks := by
  rw [executed.eq]
  exact inv.owners.sound.write executed.free

/-- Outside a transaction. -/
theorem Executed.moves (executed : Executed i statement n changes w.db s')
    (inv : OwnersHold organizationId single w) (txn : w.db.db.txn i = none) :
    TxnDb.Moves orgLocks i changes w.db.db s'.db ∧ s'.db.txn i = none := by
  refine ⟨?_, ?_⟩
  · rw [executed.eq]
    exact TxnDb.moves_write inv.owners.sound txn executed.free
  · rw [(executed.direct txn).2.2]
    exact txn

/-- A statement that touches no owner. -/
theorem OwnersHold.pass (inv : OwnersHold organizationId single w)
    (executed : Executed i statement n changes w.db s') (unique : Unique s'.db)
    (settled : (ownerPlace organizationId i w.log).stage.Settled)
    (inert : (ownership organizationId).Inert changes) :
    (ownership organizationId).Holds orgLocks single s'.db
      fun j => (ownerPlace organizationId j w.log).stage := by
  have founds := not_founds_of_executed inv executed
  cases txn : w.db.db.txn i with
  | none =>
      obtain ⟨moves, txn'⟩ := executed.moves inv txn
      exact inv.owners.direct_inert (ownership_regular organizationId) moves
        (executed.sound inv) unique.committed txn' founds (inv.owners.idle txn settled) inert
  | some t =>
      obtain ⟨t', txn', eq, moves⟩ := executed.inside txn
      exact inv.owners.buffer_inert (ownership_regular organizationId) moves (executed.sound inv)
        inv.unique.committed txn txn' eq founds inert

/-- A statement that makes somebody an owner. -/
theorem OwnersHold.raise (inv : OwnersHold organizationId single w)
    (executed : Executed i statement n changes w.db s') (unique : Unique s'.db)
    (calm : (ownerPlace organizationId i w.log).stage.Calm) {u : Int32}
    (raises : (ownership organizationId).Raises u changes (w.db.db.view i))
    (own : ∀ c ∈ changes, ∀ r, c.new = some r → ∀ v,
      (ownership organizationId).holder r = some v → v = u) :
    (ownership organizationId).Holds orgLocks single s'.db
      (Function.update (fun j => (ownerPlace organizationId j w.log).stage) i
        ((ownerPlace organizationId i w.log).stage.raise u)) := by
  have founds := not_founds_of_executed inv executed
  cases txn : w.db.db.txn i with
  | none =>
      obtain ⟨moves, txn'⟩ := executed.moves inv txn
      have at_ := inv.owners.idle txn calm.settled
      rw [TxnDb.view_of_none txn] at raises
      rw [at_]
      exact inv.owners.direct_raise (ownership_regular organizationId) moves (executed.sound inv)
        unique.committed txn' founds at_ raises own
  | some t =>
      obtain ⟨t', txn', eq, moves⟩ := executed.inside txn
      have at_ : (ownerPlace organizationId i w.log).stage = .apart := by
        refine calm.resolve_left fun idle => ?_
        cases txn.symm.trans (inv.owners.outside (u := u) (i := i) idle (.inl rfl))
      rw [at_]
      exact inv.owners.buffer_raise (ownership_regular organizationId) moves (executed.sound inv)
        inv.unique.committed txn txn' eq founds raises

theorem OwnersHold.executed (inv : OwnersHold organizationId single w)
    (executed : Executed i statement n changes w.db s') (unique : Unique s'.db)
    {raises : Prop}
    (fits : StatementFits organizationId raises (ownerPlace organizationId i w.log) statement)
    (allowed : OwnerStays organizationId ⟨i, w.tick, .statement statement, some n, w.db⟩ w.log) :
    (ownership organizationId).Holds orgLocks single s'.db
      (Function.update (fun j => (ownerPlace organizationId j w.log).stage) i
        ((ownerPlace organizationId i w.log).execute organizationId statement n)) := by
  have regular := ownership_regular organizationId
  have founds := not_founds_of_executed inv executed
  have eval := executed.eval
  -- the thread stays where it is
  have pass : (ownerPlace organizationId i w.log).stage.Settled →
      (ownership organizationId).Inert changes →
      (ownerPlace organizationId i w.log).execute organizationId statement n =
        (ownerPlace organizationId i w.log).stage →
      (ownership organizationId).Holds orgLocks single s'.db
        (Function.update (fun j => (ownerPlace organizationId j w.log).stage) i
          ((ownerPlace organizationId i w.log).execute organizationId statement n)) := by
    intro settled inert next
    rw [next, Function.update_eq_self]
    exact inv.pass executed unique settled inert
  cases statement with
  | insertMember id userId role =>
      have calm : (ownerPlace organizationId i w.log).stage.Calm := fits.1
      by_cases own : id = organizationId ∧ role = .owner
      · have next : (ownerPlace organizationId i w.log).execute organizationId
            (.insertMember id userId role) n =
              (ownerPlace organizationId i w.log).stage.raise userId := if_pos own
        rw [next]
        obtain ⟨rfl, rfl⟩ := own
        cases eval
        refine inv.raise executed unique calm raises_of_insert fun c mem r put v holds => ?_
        cases List.mem_singleton.mp mem
        cases put
        exact (Option.some.inj ((if_pos ⟨rfl, rfl⟩).symm.trans holds)).symm
      · refine pass calm.settled (fun c mem r touched => ?_) (if_neg own)
        cases eval
        cases List.mem_singleton.mp mem
        rcases touched with old | new
        · cases old
        · cases new
          exact if_neg own
  | setRole id role =>
      obtain ⟨⟨calm, _⟩, rfl, row, read, rfl⟩ := fits
      have next : (ownerPlace organizationId i w.log).execute organizationId
          (.setRole row.id .owner) n =
            if row.organizationId = organizationId ∧ n ≠ 0
            then (ownerPlace organizationId i w.log).stage.raise row.userId
            else (ownerPlace organizationId i w.log).stage := by
        simp only [OwnerPlace.execute, read]
      have seats : ∀ m, .member m ∈ w.db.db.view i → m.id = row.id → SameSeat m row :=
        fun m mem => (inv.seated.reads i row read).2 m (present_of_view mem)
      by_cases own : row.organizationId = organizationId
      · by_cases none_ : n = 0
        · refine pass calm.settled ?_ (next.trans (if_neg fun both => both.2 none_))
          have length : changes.length = n := by
            cases eval
            rfl
          rw [List.eq_nil_of_length_eq_zero (length.trans none_)]
          intro c mem
          cases mem
        · rw [next, if_pos ⟨own, none_⟩]
          have same : ∀ m, .member m ∈ w.db.db.view i → m.id = row.id →
              m.organizationId = organizationId ∧ m.userId = row.userId := fun m mem id =>
            ⟨(seats m mem id).1.trans own, (seats m mem id).2⟩
          exact inv.raise executed unique calm
            (raises_of_setRole (inv.unique.views i) same eval none_) (owners_of_setRole same eval)
      · refine pass calm.settled ?_ (next.trans (if_neg fun both => own both.1))
        cases eval
        refine inert_of_changes (fun m mem selected => ?_) fun m m' becomes => ?_
        · rw [(seats m mem (of_decide_eq_true selected)).1]
          exact own
        · cases becomes
          rfl
  | demoteOthers id userId =>
      by_cases own : id = organizationId
      · subst own
        have next : (ownerPlace id i w.log).execute id (.demoteOthers id userId) n =
            (ownerPlace id i w.log).stage.dismiss := if_pos rfl
        have stage : (ownerPlace id i w.log).stage = .raised userId ∨
            (ownerPlace id i w.log).stage = .raising userId := Eq.mp (if_pos rfl) fits
        rw [next]
        rcases stage with at_ | at_
        · have txn : w.db.db.txn i = none :=
            inv.owners.outside (i := i) at_ (.inr rfl)
          obtain ⟨moves, txn'⟩ := executed.moves inv txn
          rw [TxnDb.view_of_none txn] at eval
          rw [at_]
          refine inv.owners.direct_dismiss regular moves (executed.sound inv) unique.committed txn'
            founds at_ ?_ ?_ (none_of_demotion eval)
          · obtain ⟨m, mem, org, role, user⟩ := allowed rfl
            rw [TxnDb.view_of_none txn] at mem
            have holds : (ownership id).holder (.member m) = some userId :=
              holder_eq_some.mpr ⟨m, rfl, org, role, user⟩
            refine ⟨.member m, ?_, userId, holds⟩
            rw [moves.rows]
            exact keeps_of_demotion eval (members.mem_of.mp mem) holds
          · rw [moves.rows]
            exact only_of_demotion eval
        · cases txn : w.db.db.txn i with
          | none =>
              have settled : (ownerPlace id i w.log).stage.Settled := by
                rw [at_]
                intro u raised
                cases raised
              cases at_.symm.trans (inv.owners.idle txn settled)
          | some t =>
              obtain ⟨t', txn', eq, moves⟩ := executed.inside txn
              rw [at_]
              exact inv.owners.buffer_dismiss regular moves (executed.sound inv)
                inv.unique.committed (inv.unique.views i) txn txn' eq founds at_
                (fun r mem v holds other => drops_of_demotion eval mem holds other)
                (fun r mem holds => keeps_of_demotion eval mem holds) (only_of_demotion eval)
      · have calm : (ownerPlace organizationId i w.log).stage.Calm := Eq.mp (if_neg own) fits
        refine pass calm.settled ?_ (if_neg own)
        cases eval
        refine inert_of_changes (fun m _ selected => ?_) fun m m' becomes => ?_
        · rw [(of_decide_eq_true selected).1]
          exact own
        · cases becomes
          rfl
  | deleteMember id userId =>
      have at_ : (ownerPlace organizationId i w.log).stage = .idle := fits
      by_cases own : id = organizationId
      · subst own
        have txn : w.db.db.txn i = none :=
          inv.owners.outside (u := userId) (i := i) at_ (.inl rfl)
        obtain ⟨moves, txn'⟩ := executed.moves inv txn
        rw [TxnDb.view_of_none txn] at eval
        have next : (ownerPlace id i w.log).execute id (.deleteMember id userId) n =
            (ownerPlace id i w.log).stage := rfl
        rw [next, Function.update_eq_self]
        have stays : ∀ m, .member m ∈ w.db.db.rows → m.userId ≠ userId →
            .member m ∈ s'.db.rows := by
          intro m mem other
          rw [moves.rows]
          refine mem_applyAll mem fun c change taken => ?_
          cases eval
          obtain ⟨m', _, selected, rfl⟩ := members.mem_changes.mp change
          cases taken
          exact other (of_decide_eq_true selected).2
        refine inv.owners.direct_remove regular moves (executed.sound inv) unique.committed txn'
          founds at_ (fun held => ?_) fun c change r put => ?_
        · obtain ⟨r, mem, v, holds⟩ := held
          obtain ⟨m, rfl, org, role, user⟩ := holder_eq_some.mp holds
          by_cases target : m.userId = userId
          · obtain ⟨m', mem', org', role', other⟩ :=
              allowed rfl ⟨m, members.mem_of.mpr mem, org, role, target⟩
            exact ⟨.member m', stays m' (members.mem_of.mp mem') other, m'.userId,
              if_pos ⟨org', role'⟩⟩
          · exact ⟨.member m, stays m mem target, v, holds⟩
        · cases eval
          obtain ⟨m', _, _, rfl⟩ := members.mem_changes.mp change
          cases put
      · have settled : (ownerPlace organizationId i w.log).stage.Settled := by
          rw [at_]
          intro u raised
          cases raised
        refine pass settled ?_ rfl
        cases eval
        refine inert_of_changes (fun m _ selected => ?_) fun m m' becomes => ?_
        · rw [(of_decide_eq_true selected).1]
          exact own
        · cases becomes
  | softDelete id =>
      by_cases own : id = organizationId
      · subst own
        have at_ : (ownerPlace id i w.log).stage = .apart := Eq.mp (if_pos rfl) fits
        have next : (ownerPlace id i w.log).execute id (.softDelete id) n = .closing := if_pos rfl
        rw [next]
        cases txn : w.db.db.txn i with
        | none =>
            have before := inv.owners.at_ i
            rw [at_, txn] at before
            cases before
        | some t =>
            obtain ⟨t', txn', eq, moves⟩ := executed.inside txn
            exact inv.owners.buffer_close regular moves (executed.sound inv) inv.unique.committed
              txn txn' eq founds (closes_of_softDelete eval)
      · have calm : (ownerPlace organizationId i w.log).stage.Calm := Eq.mp (if_neg own) fits
        exact pass calm.settled (inert_of_kind eval (by simp [OrgStatement.kind])) (if_neg own)
  | detachMembers id =>
      by_cases own : id = organizationId
      · subst own
        have at_ : (ownerPlace id i w.log).stage = .closing := Eq.mp (if_pos rfl) fits
        have next : (ownerPlace id i w.log).execute id (.detachMembers id) n = .closing := at_
        rw [next]
        have before := inv.owners.at_ i
        rw [at_] at before
        cases txn : w.db.db.txn i with
        | none =>
            rw [txn] at before
            cases before
        | some t =>
            rw [txn] at before
            obtain ⟨t', txn', eq, moves⟩ := executed.inside txn
            refine inv.owners.buffer_close regular moves (executed.sound inv) inv.unique.committed
              txn txn' eq founds fun upheld => ?_
            rw [TxnDb.view_of_some txn] at upheld
            exact before (Office.Upheld.before upheld founds)
      · have calm : (ownerPlace organizationId i w.log).stage.Calm := Eq.mp (if_neg own) fits
        refine pass calm.settled ?_ rfl
        cases eval
        refine inert_of_changes (fun m _ selected => ?_) fun m m' becomes => ?_
        · rw [of_decide_eq_true selected]
          exact own
        · cases becomes
  | _ => exact pass fits (inert_of_kind eval (by simp [OrgStatement.kind])) rfl

end Executed

/-! ## Steps -/

/-- A query: the thread has read a row that it sees, or has not read any. -/
theorem OwnersHold.query (inv : OwnersHold organizationId single w) {q : OrgQuery}
    {r : Option q.Res} (settled : (ownerPlace organizationId i w.log).stage.Settled)
    (done : execOrg site m i (.query q) w.db = some (r, s')) :
    OwnersHold organizationId single (w.push i (.query q) r s') := by
  rcases exec_query done with ⟨rfl, rfl⟩ | ⟨rfl, rfl⟩
  · exact inv.leave done rfl settled rfl
  · cases q with
    | membership id userId =>
        cases found : (OrgQuery.membership id userId).eval (w.db.db.view i) with
        | none =>
            rw [found] at done
            exact inv.stay done rfl rfl
        | some row =>
            rw [found] at done
            refine inv.push done ?_ ?_
            · have next : (ownerNext organizationId (ownerPlace organizationId i w.log)
                  (.query (.membership id userId)) (some (some row))).stage =
                    (ownerPlace organizationId i w.log).stage := rfl
              rw [next, Function.update_eq_self]
              exact inv.owners
            · exact inv.seated.read (members.mem_of.mp (List.mem_of_find?_eq_some found))
    | _ => exact inv.stay done rfl rfl

/-- A statement that is executed or fails. -/
theorem OwnersHold.statement (inv : OwnersHold organizationId single w)
    {statement : OrgStatement} {r : Option Nat}
    {raises : Prop}
    (fits : StatementFits organizationId raises (ownerPlace organizationId i w.log) statement)
    (done : execOrg site m i (.statement statement) w.db = some (r, s'))
    (allowed : OwnerStays organizationId ⟨i, w.tick, .statement statement, r, w.db⟩ w.log) :
    OwnersHold organizationId single (w.push i (.statement statement) r s') := by
  rcases exec_statement done with ⟨rfl, rfl⟩ | ⟨n, changes, rfl, executed⟩
  · by_cases settled : (ownerPlace organizationId i w.log).stage.Settled
    · exact inv.leave done rfl settled rfl
    · -- only the dismissal of the others comes while somebody is raised
      obtain ⟨u, raised⟩ := not_forall_not.mp settled
      have txn : w.db.db.txn i = none := inv.owners.outside (i := i) raised (.inr rfl)
      have dismissal : ∃ userId, statement = .demoteOthers organizationId userId := by
        by_contra other
        exact settled (settled_of_fits (not_exists.mp other) fits)
      obtain ⟨userId, rfl⟩ := dismissal
      have only : (ownership organizationId).OnlyBy u w.db.db.rows := by
        have stage := Eq.mp (if_pos rfl) fits
        rw [raised] at stage
        rcases stage with same | same
        · cases same
          intro r mem v holds
          obtain ⟨row, rfl, org, role, rfl⟩ := holder_eq_some.mp holds
          by_contra other
          exact allowed rfl txn ⟨row, members.mem_of.mpr mem, org, role, other⟩
        · cases same
      refine inv.move done ?_ rfl
      have next : (ownerNext organizationId (ownerPlace organizationId i w.log)
        (.statement (.demoteOthers organizationId userId)) none).stage = .idle := rfl
      rw [next, fail_of_none txn]
      exact inv.owners.give_up (ownership_regular organizationId) inv.unique.committed raised only
  · refine inv.move done ?_ rfl
    exact inv.executed executed (exec_unique inv.owners.sound inv.unique done) fits allowed

end Events

end Fulla
