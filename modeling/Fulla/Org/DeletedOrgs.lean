import Fulla.Org.DeletionRuns
import Fulla.Org.Programs

/-!
# Deleted organizations

`deleteOrg` runs its cascade in one transaction under the advisory lock `org:<id>`.  No other
operation takes that lock, and whether the organization is live is read before the row is put
in, if at all: an invitation, a member or a consent can come after the deletion.

Every call looks at the organization before it adds to it, and a deletion takes its steps in their
order (`orgCall_follows`).  So in every run in which no deletion commits between a look and an
addition, nothing is left of a deleted organization (`deletion_closed`).
-/

namespace Fulla

open Conc OrgTable

-- otherwise elaboration evaluates the checks of the address
attribute [local irreducible] normalizeEmail

/-! ## The programs -/

section Programs

variable {organizationId : Nat}

/-- No step of the cascade is pending. -/
def OutsideCascade (organizationId : Nat) (g : Option (List OrgStatement)) : Prop :=
  ∀ l, g = some l → ∀ v ∈ cascadeSteps organizationId, v ∉ l

/-- A call without a transaction is outside the cascade. -/
theorem outside_none : OutsideCascade organizationId none := by
  intro l there
  cases there

/-- So is one whose transaction has made no statement. -/
theorem outside_empty : OutsideCascade organizationId (some []) := by
  intro l there v _ mem
  cases there
  cases mem

/-- Statements that are none of the cascade's stay outside. -/
theorem OutsideCascade.next {g : Option (List OrgStatement)}
    (outside : OutsideCascade organizationId g) {o : OrgOp}
    (ordinary : Makes (· ∉ cascadeSteps organizationId) o) (r : OrgSig.Res o) :
    OutsideCascade organizationId (transactionNext g o r) := by
  intro l there v step mem
  cases o with
  | newTransaction =>
      cases r with
      | true =>
          cases there
          cases mem
      | false => exact outside l there v step mem
  | query q =>
      cases r with
      | none => cases there
      | some found => exact outside l there v step mem
  | statement s =>
      cases r with
      | none => cases there
      | some n =>
          obtain ⟨l', mine, rfl⟩ := Option.map_eq_some_iff.mp there
          rcases List.mem_cons.mp mem with rfl | mem
          · exact ordinary step
          · exact outside l' mine v step mem
  | advisoryLock key =>
      cases r with
      | true => exact outside l there v step mem
      | false => cases there
  | commit => cases there
  | rollback => cases there
  | _ => exact outside l there v step mem

/-- The statement is no step of the cascade and adds to the organization `id` only, if at all. -/
structure At (organizationId id : Nat) (s : OrgStatement) : Prop where
  ordinary : s ∉ cascadeSteps organizationId
  adds : addsTo s = some organizationId → id = organizationId

/-- A statement that adds to the organization. -/
theorem At.add {id : Nat} {s : OrgStatement} (own : addsTo s = some id) :
    At organizationId id s := by
  refine ⟨fun step => ?_, fun adds => Option.some.inj (own.symm.trans adds)⟩
  simp only [cascadeSteps, List.mem_cons, List.not_mem_nil, or_false] at step
  rcases step with rfl | rfl | rfl | rfl | rfl | rfl <;> cases own

/-- A statement that adds nothing. -/
theorem At.quiet {id : Nat} {s : OrgStatement} (none_ : addsTo s = none)
    (ordinary : s ∉ cascadeSteps organizationId) : At organizationId id s :=
  ⟨ordinary, fun adds => by cases none_.symm.trans adds⟩

/-- The program takes its steps in the order of the places. -/
abbrev FollowsDeletion (organizationId : Nat) {α : Type} (p : OrgProg α) (g : DeletionPlace) :
    Prop :=
  p.Follows (DeletionPlace.next organizationId) (DeletionFits organizationId) (fun _ _ _ => True)
    (fun _ _ => True) g

/-- What a call does at an organization it has looked at. -/
theorem follows_at {α : Type} {p : OrgProg α} (id : Nat)
    (only : p.Only (Makes (At organizationId id))) {g : DeletionPlace}
    (outside : OutsideCascade organizationId g.pending)
    (looked : id = organizationId → g.looked = true) : FollowsDeletion organizationId p g := by
  induction p generalizing g with
  | ret a => trivial
  | op o k ih =>
      have ordinary : Makes (· ∉ cascadeSteps organizationId) o := by
        have made := only.1
        cases o with
        | statement s => exact made.ordinary
        | detach save => exact made.ordinary
        | _ => trivial
      refine ⟨?_, fun r _ => ih r (only.2 r) (outside.next ordinary r) fun own => ?_⟩
      · cases o with
        | statement s =>
            refine ⟨⟨fun step => absurd step ordinary, fun _ => outside⟩,
              fun step => absurd step ordinary, fun step => absurd step ordinary, fun adds => ?_⟩
            exact looked (only.1.adds adds)
        | detach save => exact fun own => looked (only.1.adds (congrArg some own))
        | commit => exact fun l there => .inl (outside l there)
        | _ => trivial
      · rw [DeletionPlace.next, looked own, Bool.true_or]

/-- A program that adds nothing. -/
theorem follows_quiet {α : Type} {p : OrgProg α}
    (only : p.Only (Makes (At organizationId (organizationId + 1)))) {g : DeletionPlace}
    (outside : OutsideCascade organizationId g.pending) : FollowsDeletion organizationId p g :=
  follows_at _ only outside fun own => absurd own (Nat.succ_ne_self organizationId)

/-- The look at an organization by its slug, and what is done there. -/
theorem follows_found {slug : String} {onFound : Organization → OrgProg OrgAnswer}
    (rest : ∀ org, (onFound org).Only (Makes (At organizationId org.id))) :
    FollowsDeletion organizationId (findOrgBySlug slug onFound) {} := by
  refine follows_findOrgBySlug trivial (fun _ _ _ => trivial) fun org _ => ?_
  exact follows_at org.id (rest org) outside_none fun own => decide_eq_true own

/-- A call that looks the organization up acts on the one it found. -/
theorem follows_live {slug : String} {onFound : Organization → OrgProg OrgAnswer}
    (rest : ∀ org, (onFound org).Only (Makes (At organizationId org.id))) :
    FollowsDeletion organizationId (findLiveOrg slug onFound) {} := by
  refine follows_findLiveOrg trivial (fun _ _ _ => trivial) fun org _ => ?_
  exact follows_at org.id (rest org) outside_none fun own => decide_eq_true own

/-- Calls that begin with the caller. -/
theorem follows_caller {userId : String} {onResolved : ResolvedUser → OrgProg OrgAnswer}
    (rest : ∀ user, FollowsDeletion organizationId (onResolved user) {}) :
    FollowsDeletion organizationId (resolveCaller userId onResolved) {} :=
  follows_resolveCaller trivial (fun _ _ _ => trivial) fun user _ => rest user

/-! ### One lemma for each call -/

/-- An organization that has just been made is known to be there. -/
theorem insertOrgRow_deletion (slug : String) (caller : ResolvedUser) {g : DeletionPlace}
    (outside : OutsideCascade organizationId g.pending) :
    FollowsDeletion organizationId (OrgMemberService.insertOrgRow slug caller) g := by
  have ordinary : .insertOrganization slug ∉ cascadeSteps organizationId := by
    simp [cascadeSteps]
  refine ⟨⟨⟨fun step => absurd step ordinary, fun _ => outside⟩, fun step => absurd step ordinary,
    fun step => absurd step ordinary, fun adds => by cases adds⟩, fun r _ => ?_⟩
  cases r with
  | none => trivial
  | some orgId =>
      refine follows_at orgId ?_ ?_ fun own => ?_
      · refine makes_statement (.add rfl) fun r => ?_
        cases r with
        | none => trivial
        | some n => exact ⟨trivial, fun committed => by cases committed <;> trivial⟩
      · exact outside.next (o := .statement (.insertOrganization slug)) ordinary (some orgId)
      · simp [DeletionPlace.next, looksAt, own]

/-- A creation follows the places of a deletion. -/
theorem createOrg_deletion (site : OrgSite) (userId : String) (r : CreateOrgRequest) :
    FollowsDeletion organizationId (OrgMemberService.createOrg site userId r) {} := by
  rcases OrgMemberService.createOrg_cases site userId r with ⟨code, detail, eq⟩ | eq
  · rw [eq]
    trivial
  rw [eq]
  refine follows_caller fun caller => ⟨trivial, fun txn _ => ?_⟩
  cases txn with
  | false => trivial
  | true =>
      refine ⟨trivial, fun held _ => ?_⟩
      cases held with
      | false => trivial
      | true =>
          refine ⟨trivial, fun owned _ => ?_⟩
          cases owned with
          | none => trivial
          | some owned =>
              refine .ite (fun _ => follows_quiet (makes_refuseAndEnd _ _) outside_empty)
                fun _ => ⟨trivial, fun tombs _ => ?_⟩
              cases tombs with
              | none => trivial
              | some tombs =>
                  refine .ite (fun _ => follows_quiet (makes_refuseAndEnd _ _) outside_empty)
                    fun _ => insertOrgRow_deletion r.slug caller outside_empty

/-- So does a creation by an administrator. -/
theorem create_deletion (site : OrgSite) (r : CreateOrgRequest) :
    FollowsDeletion organizationId (OrganizationService.create site r) {} :=
  follows_quiet (makes_create site (.quiet rfl (by simp [cascadeSteps]))) outside_none

/-- So does an invitation. -/
theorem createInvitation_deletion (site : OrgSite) (userId slug address : String)
    (role : OrgRole) :
    FollowsDeletion organizationId
      (OrgMemberService.createInvitation site userId slug address role) {} := by
  unfold OrgMemberService.createInvitation
  dsimp only
  refine .ite (fun _ => trivial) fun _ => .ite (fun _ => trivial) fun _ =>
    follows_caller fun caller => follows_found fun org => ?_
  exact makes_getMembership fun row => only_ite trivial <| makes_withAdvisoryXactLock <|
    makes_createInvitationLocked site fun _ _ => .add rfl

/-- An invitation that has not been accepted is a look at its organization. -/
theorem acceptInvitation_deletion (site : OrgSite) (userId token : String) :
    FollowsDeletion organizationId (OrgMemberService.acceptInvitation site userId token) {} := by
  unfold OrgMemberService.acceptInvitation
  refine .ite (fun _ => trivial) fun _ => follows_caller fun caller =>
    .ite (fun _ => trivial) fun _ => .ite (fun _ => trivial) fun _ => ⟨trivial, fun r _ => ?_⟩
  rcases r with _ | _ | invite
  · trivial
  · trivial
  refine .ite (fun _ => trivial) fun open_ => follows_at invite.organizationId ?_ ?_ ?_
  · exact only_ite trivial <| makes_step (by trivial) fun now => only_ite trivial <|
      makes_joinByInvitation caller (fun _ _ => .add rfl) fun _ =>
        .quiet rfl (by simp [cascadeSteps])
  · exact outside_none
  · intro own
    simp [DeletionPlace.next, looksAt, own, open_]

/-- A removal adds nothing, and is no part of a deletion. -/
theorem follows_of_removes {p : OrgProg OrgAnswer} (only : p.Only Removes) :
    FollowsDeletion organizationId p {} := by
  refine follows_quiet (only.mono fun o removes => ?_) outside_none
  cases o with
  | statement s =>
      cases s with
      | deleteMember id userId => exact .quiet rfl (by simp [cascadeSteps])
      | _ => exact removes.elim
  | detach save => exact removes.elim
  | _ => trivial

/-- So does a transfer. -/
theorem transferOwnership_deletion (slug : String) (requestedUserId : Option Int) :
    FollowsDeletion organizationId (OrganizationService.transferOwnership slug requestedUserId)
      {} := by
  unfold OrganizationService.transferOwnership
  cases requestedUserId with
  | none => trivial
  | some requested =>
      refine .ite (fun _ => trivial) fun _ => follows_live fun org =>
        makes_step (by trivial) fun r => ?_
      rcases r with _ | _ | _
      · trivial
      · trivial
      · exact makes_promoteAndDemote (fun _ => .quiet rfl (by simp [cascadeSteps])) (.add rfl)
          (.quiet rfl (by simp [cascadeSteps]))

/-- So does a succession. -/
theorem acceptSuccession_deletion (userId slug : String) :
    FollowsDeletion organizationId (OrgMemberService.acceptSuccession userId slug) {} := by
  refine follows_caller fun caller => follows_found fun org => makes_step (by trivial) fun r => ?_
  rcases r with _ | _ | pending
  · trivial
  · trivial
  refine only_ite trivial ((makes_effectSuccession (fun _ => .quiet rfl (by simp [cascadeSteps]))
    (.add rfl) (.quiet rfl (by simp [cascadeSteps])) (.quiet rfl (by simp [cascadeSteps]))).bind
    fun ok => ?_)
  cases ok <;> trivial

/-- So does an approval. -/
theorem approveConsentRequest_deletion (userId slug : String) (requestId : Option Nat) :
    FollowsDeletion organizationId
      (OrgMemberService.approveConsentRequest userId slug requestId) {} := by
  cases requestId with
  | none => trivial
  | some requestId =>
      refine follows_caller fun caller => follows_found fun org => makes_getMembership <|
        makes_requestOf (OrgMemberService.approveRow caller) fun row own => ?_
      exact makes_approveRow (fun _ => .add (congrArg some own))
        (.quiet rfl (by simp [cascadeSteps])) (.quiet rfl (by simp [cascadeSteps]))

/-- So does a rejection. -/
theorem rejectConsentRequest_deletion (userId slug : String) (requestId : Option Nat) :
    FollowsDeletion organizationId
      (OrgMemberService.rejectConsentRequest userId slug requestId) {} := by
  cases requestId with
  | none => trivial
  | some requestId =>
      refine follows_caller fun caller => follows_found fun org => makes_getMembership <|
        makes_requestOf OrgMemberService.rejectRow fun row own => ?_
      exact makes_rejectRow (.quiet rfl (by simp [cascadeSteps]))

/-- So does a withdrawal. -/
theorem withdrawConsentRequest_deletion (userId slug : String) (requestId : Option Nat) :
    FollowsDeletion organizationId
      (OrgMemberService.withdrawConsentRequest userId slug requestId) {} := by
  unfold OrgMemberService.withdrawConsentRequest
  cases requestId with
  | none => trivial
  | some requestId =>
      refine follows_caller fun caller => follows_found fun org =>
        makes_getMembership fun member => ?_
      cases member with
      | none => trivial
      | some m =>
          refine makes_statement (.quiet rfl (by simp [cascadeSteps])) fun r => ?_
          rcases r with _ | _ | n <;> trivial

/-- So does a consent that is saved in the background. -/
theorem runDetachedSave_deletion : FollowsDeletion organizationId runDetachedSave {} := by
  refine ⟨trivial, fun save _ => follows_at save.organizationId ?_ outside_none
    fun own => decide_eq_true own⟩
  exact (makes_saveConsent (.add rfl)).bind fun _ => trivial

/-! ### The deletion -/

/-- A step of the cascade, in the transaction of a thread that has found the organization. -/
theorem step_fits {g : DeletionPlace} {l : List OrgStatement} {s : OrgStatement}
    (step : s ∈ cascadeSteps organizationId) (inside : g.pending = some l)
    (found : g.found = true)
    (first : s = .softDelete organizationId ∨ .softDelete organizationId ∈ l) :
    CascadeFits organizationId g s := by
  refine ⟨⟨fun _ => ?_, fun outside => absurd step outside⟩, fun _ => found, fun _ => ?_,
    fun adds => absurd step (At.add adds).ordinary⟩
  · rw [inside]
    exact Option.some_ne_none l
  · exact first.imp_right fun marked => ⟨l, inside, marked⟩

/-- Where a deletion stands when the statements `rest` are left: the transaction has executed the
others. -/
inductive CascadeLeft (organizationId : Nat) (rest : List OrgStatement) (g : DeletionPlace) : Prop
  | mk {l : List OrgStatement} (inside : g.pending = some l) (found : g.found = true)
      (own : ∀ s ∈ rest, s ∈ cascadeSteps organizationId)
      (marked : .softDelete organizationId ∈ l)
      (covers : ∀ v ∈ cascadeSteps organizationId, v ∈ l ∨ v ∈ rest)

/-- The rest of the cascade, after the statements that were executed. -/
theorem cascade_deletion {g : DeletionPlace} {l rest : List OrgStatement}
    (inside : g.pending = some l) (found : g.found = true)
    (own : ∀ s ∈ rest, s ∈ cascadeSteps organizationId)
    (marked : .softDelete organizationId ∈ l)
    (covers : ∀ v ∈ cascadeSteps organizationId, v ∈ l ∨ v ∈ rest) :
    FollowsDeletion organizationId (OrganizationService.cascade organizationId rest) g := by
  refine follows_cascade (fun g place => ?_) (fun s rest g place => ?_)
    (CascadeLeft.mk inside found own marked covers)
  · obtain ⟨inside, _, _, _, covers⟩ := place
    refine ⟨fun l' same => .inr fun v step => ?_, fun _ _ => trivial⟩
    cases inside.symm.trans same
    exact (covers v step).resolve_right List.not_mem_nil
  · obtain ⟨inside, found, own, marked, covers⟩ := place
    refine ⟨step_fits (own s List.mem_cons_self) inside found (.inr marked), fun _ => trivial,
      fun n => .mk (congrArg (Option.map (s :: ·)) inside) ?_ ?_ (List.mem_cons_of_mem s marked) ?_⟩
    · rw [DeletionPlace.next, found, Bool.true_or]
    · exact fun s' mem => own s' (List.mem_cons_of_mem s mem)
    · intro v step
      rcases covers v step with done | later
      · exact .inl (List.mem_cons_of_mem s done)
      · rcases List.mem_cons.mp later with rfl | later
        · exact .inl List.mem_cons_self
        · exact .inr later

/-- The cascade of another organization. -/
theorem cascade_elsewhere {id : Nat} {rest : List OrgStatement}
    (elsewhere : ∀ s ∈ rest, At organizationId (organizationId + 1) s) :
    (OrganizationService.cascade id rest).Only
      (Makes (At organizationId (organizationId + 1))) := by
  refine Prog.only_iff_follows.mpr (follows_cascade (P := fun left _ => left ⊆ rest)
    (fun _ _ => ⟨trivial, fun _ _ => trivial⟩) (fun s left _ sub => ?_) (List.Subset.refl rest))
  exact ⟨elsewhere s (sub List.mem_cons_self), fun _ => trivial,
    fun _ => List.subset_of_cons_subset sub⟩

/-- **So does a deletion itself**: its statements come in the order of the cascade. -/
theorem deleteOrg_deletion (slug : String) :
    FollowsDeletion organizationId (OrganizationService.deleteOrg slug) {} := by
  refine follows_findLiveOrg trivial (fun _ _ _ => trivial) fun org _ => ?_
  by_cases own : org.id = organizationId
  · subst own
    refine ⟨trivial, fun txn _ => ?_⟩
    cases txn with
    | false => trivial
    | true =>
        refine ⟨trivial, fun held _ => ?_⟩
        cases held with
        | false => trivial
        | true =>
            refine ⟨step_fits List.mem_cons_self rfl ?_ (.inl rfl), fun r _ => ?_⟩
            · simp [DeletionPlace.next, finds]
            cases r with
            | none => trivial
            | some n =>
                refine cascade_deletion rfl ?_ (fun s mem => List.mem_cons_of_mem _ mem)
                  List.mem_cons_self fun v step => ?_
                · simp [DeletionPlace.next, finds]
                · rcases List.mem_cons.mp step with rfl | later
                  · exact .inl List.mem_cons_self
                  · exact .inr later
  · refine follows_quiet (makes_withAdvisoryXactLock (cascade_elsewhere fun s mem => ?_))
      outside_none
    simp only [List.mem_cons, List.not_mem_nil, or_false] at mem
    rcases mem with rfl | rfl | rfl | rfl | rfl | rfl <;>
      exact .quiet rfl (by simpa [cascadeSteps] using own)

/-- Every call follows the places of a deletion. -/
theorem orgCall_deletion (site : OrgSite) (call : OrgCall) :
    FollowsDeletion organizationId (call.prog site) {} := by
  cases call with
  | createOrg userId r => exact createOrg_deletion site userId r
  | adminCreate r => exact create_deletion site r
  | deleteOrg slug => exact deleteOrg_deletion slug
  | createInvitation userId slug address role =>
      exact createInvitation_deletion site userId slug address role
  | acceptInvitation userId token => exact acceptInvitation_deletion site userId token
  | removeMember userId slug target =>
      exact follows_of_removes (removes_removeMember userId slug target)
  | adminRemoveMember slug target =>
      exact follows_of_removes (removes_adminRemoveMember slug target)
  | transferOwnership slug requestedUserId => exact transferOwnership_deletion slug requestedUserId
  | acceptSuccession userId slug => exact acceptSuccession_deletion userId slug
  | approveConsentRequest userId slug requestId =>
      exact approveConsentRequest_deletion userId slug requestId
  | rejectConsentRequest userId slug requestId =>
      exact rejectConsentRequest_deletion userId slug requestId
  | withdrawConsentRequest userId slug requestId =>
      exact withdrawConsentRequest_deletion userId slug requestId
  | detachedSave => exact runDetachedSave_deletion

end Programs

/-! ## Runs -/

/-- No member, no pending invitation, no pending nomination and no consent that stands. -/
structure NothingLeft (organizationId : Nat) (rows : List OrgRow) : Prop where
  members : ∀ m ∈ members.of rows, m.organizationId ≠ organizationId
  invitations : ∀ v ∈ invitations.of rows, v.organizationId = organizationId → v.acceptedAt ≠ none
  nominations : ∀ n ∈ nominations.of rows, n.organizationId = organizationId → n.accepted = true
  consents : ∀ c ∈ consents.of rows, c.organizationId = organizationId → c.revoked = true

/-- What it means that the cascade is closed. -/
theorem closed_iff {organizationId : Nat} {rows : List OrgRow} :
    (orgCascade organizationId).Closed rows ↔
      (Deleted organizationId rows → NothingLeft organizationId rows) := by
  constructor
  · intro closed deleted
    obtain ⟨o, mem, gone⟩ := deleted
    have sweeps := closed (.organization o) (organizations.mem_of.mp mem) gone
    refine ⟨fun m mem own => ?_, fun i mem own pending => ?_, fun n mem own => ?_,
      fun c mem own => ?_⟩
    · exact sweeps (.detachMembers organizationId) (by simp [orgCascade, cascadeSteps]) (.member m)
        (OrgTable.members.mem_of.mp mem) own
    · exact sweeps (.voidInvitations organizationId) (by simp [orgCascade, cascadeSteps])
        (.invitation i) (OrgTable.invitations.mem_of.mp mem) ⟨own, pending⟩
    · cases accepted : n.accepted with
      | true => rfl
      | false =>
          exact absurd ⟨own, accepted⟩ (sweeps (.voidNominations organizationId)
            (by simp [orgCascade, cascadeSteps]) (.nomination n)
            (OrgTable.nominations.mem_of.mp mem))
    · cases revoked : c.revoked with
      | true => rfl
      | false =>
          exact absurd ⟨own, revoked⟩ (sweeps (.revokeConsents organizationId)
            (by simp [orgCascade, cascadeSteps]) (.consent c) (OrgTable.consents.mem_of.mp mem))
  · intro closed d mem gone v step r mem' sweeps
    cases d with
    | organization o =>
        have nothing := closed ⟨o, organizations.mem_of.mpr mem, gone⟩
        rcases sweptBy_cases step sweeps with ⟨i, rfl, _, own, pending⟩ |
          ⟨n, rfl, _, own, pending⟩ | ⟨c, rfl, _, own, stands⟩ | ⟨m, rfl, _, own⟩
        · exact nothing.invitations i (OrgTable.invitations.mem_of.mpr mem') own pending
        · cases pending.symm.trans
            (nothing.nominations n (OrgTable.nominations.mem_of.mpr mem') own)
        · cases stands.symm.trans (nothing.consents c (OrgTable.consents.mem_of.mpr mem') own)
        · exact nothing.members m (OrgTable.members.mem_of.mpr mem') own
    | _ => exact gone.elim

/-- In every run of any calls in which no deletion of the organization commits between a look at
it and an addition, nothing is left of the organization in any state in which it is deleted. -/
theorem deletion_closed {ι : Type} [DecidableEq ι] (site : OrgSite) (tables : OrgTables)
    (calls : ι → OrgCall) (sched : List (ι × OrgMoment)) (organizationId : Nat)
    (start : Deleted organizationId tables.rows → NothingLeft organizationId tables.rows)
    (apart : Abides (DeletionApart organizationId)
      (runOrg site calls tables sched).store.log) :
    Deleted organizationId (committed (runOrg site calls tables sched)) →
      NothingLeft organizationId (committed (runOrg site calls tables sched)) := by
  have holds : DeletionHolds organizationId (startOrg site calls tables).store := by
    refine ⟨sound_start tables, closed_iff.mpr start, fun j => iff_of_true rfl rfl,
      fun j u l txn => ?_, fun i j l l' _ there => ?_⟩
    · cases txn
    · cases there
  have first : DeletionInv organizationId (startOrg site calls tables).store := by
    refine ⟨holds, ⟨fun j u txn => ?_, tables.unique, fun _ => tables.unique⟩, fun j looked => ?_,
      fun j found => ?_, fun save mem => ?_, fun j u l txn => ?_⟩
    · cases txn
    · cases looked
    · cases found
    · cases mem
    · cases txn
  have inv := Pool.play_follows (deletion_step site organizationId) first rfl
    (fun i => orgCall_deletion site (calls i)) sched apart
  exact closed_iff.mp inv.1.holds.closed

section Sample

/-- One known user, and a lock for every length of a key. -/
def adaSite : OrgSite where
  users _ := some { id := 7, email := "ada@example.org", emailVerified := true }
  hashtext key := Int32.ofNat key.length
  hashToken := id

/-- An organization and its owner. -/
def adaTables : OrgTables where
  rows := [.organization { id := 1, slug := "acme" }, .member ⟨2, 1, 7, .owner⟩]
  serial := 3
  unique := by
    intro r mem r' mem' shares
    obtain ⟨ne, k, key, key'⟩ := shares
    simp only [List.mem_cons, List.not_mem_nil, or_false] at mem mem'
    rcases mem with rfl | rfl <;> rcases mem' with rfl | rfl
    · exact ne rfl
    · revert key key'
      simp [OrgRow.keys]
      grind
    · revert key key'
      simp [OrgRow.keys]
      grind
    · exact ne rfl

/-- A moment at which nothing expires. -/
def still : OrgMoment where
  now := 5

/-- A deletion and an invitation. -/
def inviteOrDelete : Bool → OrgCall
  | true => .deleteOrg "acme"
  | false => .createInvitation "7" "acme" "bob@example.org" .member

/-- The invitation is sent between the checks of its caller and the lock of its quota. -/
def lateInvitation : List (Bool × OrgMoment) :=
  List.replicate 3 (false, still) ++ List.replicate 10 (true, still) ++
    List.replicate 7 (false, still)

theorem deleted_of_any {rows : List OrgRow}
    (any : (organizations.of rows).any (fun o => o.id = 1 && o.deleted) = true) :
    Deleted 1 rows := by
  obtain ⟨o, mem, gone⟩ := List.any_eq_true.mp any
  rw [Bool.and_eq_true, decide_eq_true_eq] at gone
  exact ⟨o, mem, gone⟩

theorem invitation_after_deletion :
    Deleted 1 (committed (runOrg adaSite inviteOrDelete adaTables lateInvitation)) ∧
      ¬ NothingLeft 1 (committed (runOrg adaSite inviteOrDelete adaTables lateInvitation)) := by
  have deleted : (organizations.of (committed (runOrg adaSite inviteOrDelete adaTables
      lateInvitation))).any (fun o => o.id = 1 && o.deleted) = true := by
    decide +kernel
  have pending : (invitations.of (committed (runOrg adaSite inviteOrDelete adaTables
      lateInvitation))).any (fun v => v.organizationId = 1 && v.acceptedAt = none) = true := by
    decide +kernel
  refine ⟨deleted_of_any deleted, fun nothing => ?_⟩
  obtain ⟨v, mem, open_⟩ := List.any_eq_true.mp pending
  rw [Bool.and_eq_true, decide_eq_true_eq, decide_eq_true_eq] at open_
  exact nothing.invitations v mem open_.1 open_.2

/-- The other thread has no transaction, nothing is queued, no invitation is read, and no earlier
event has deleted the organization. -/
def deletionCheck : List (OrgEvent Bool) → Bool
  | [] => true
  | e :: log =>
    ((inTransaction (!e.thread) log).isNone && (e.pre.db.txn (!e.thread)).isNone &&
      e.pre.queue.isEmpty && (invitationRead e.op e.res).isNone &&
      log.all fun d => (commits d.thread d.pre d.op d.res).all fun c =>
        c.new.all fun r => ¬ IsTombstone 1 r) && deletionCheck log

theorem deletionApart_of_check {log : List (OrgEvent Bool)} (ok : deletionCheck log = true) :
    Abides (DeletionApart 1) log := by
  induction log with
  | nil => trivial
  | cons e log ih =>
      simp only [deletionCheck, Bool.and_eq_true, Option.isNone_iff_eq_none, List.isEmpty_iff,
        List.all_eq_true, Option.all_eq_true, decide_eq_true_eq] at ok
      obtain ⟨⟨⟨⟨⟨idle, quiet⟩, empty⟩, unread⟩, live⟩, rest⟩ := ok
      have other : ∀ j ≠ e.thread, j = !e.thread := fun j ne => Bool.eq_not_of_ne ne
      refine ⟨⟨fun _ later look earlier eq _ _ d mem deletes => ?_, fun _ save mem => ?_,
        fun s n changes _ _ _ j ne l there => ?_, fun _ j ne u txn => ?_, fun v read => ?_⟩,
        ih rest⟩
      · obtain ⟨c, change, r, put, tombstone⟩ := deletes
        refine live d ?_ c change r put tombstone
        rw [eq]
        exact List.mem_append_left _ mem
      · rw [empty] at mem
        cases mem
      · rw [other j ne, idle] at there
        cases there
      · rw [other j ne, quiet] at txn
        cases txn
      · cases unread.symm.trans read

/-- The invitation, and then the deletion. -/
def earlyInvitation : List (Bool × OrgMoment) :=
  List.replicate 10 (false, still) ++ List.replicate 10 (true, still)

theorem nothing_left_of_invited :
    NothingLeft 1 (committed (runOrg adaSite inviteOrDelete adaTables earlyInvitation)) := by
  have start : Deleted 1 adaTables.rows → NothingLeft 1 adaTables.rows := by
    intro deleted
    obtain ⟨o, mem, _, gone⟩ := deleted
    cases List.mem_singleton.mp (show o ∈ [{ id := 1, slug := "acme" }] from mem)
    cases gone
  have ok : deletionCheck (runOrg adaSite inviteOrDelete adaTables earlyInvitation).store.log =
      true := by
    decide +kernel
  have deleted : (organizations.of (committed (runOrg adaSite inviteOrDelete adaTables
      earlyInvitation))).any (fun o => o.id = 1 && o.deleted) = true := by
    decide +kernel
  have closed := @deletion_closed Bool _ adaSite adaTables inviteOrDelete earlyInvitation 1 start
  exact closed (deletionApart_of_check ok) (deleted_of_any deleted)

end Sample

end Fulla
