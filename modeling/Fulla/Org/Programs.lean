import Fulla.Org.Constraints

/-!
# The statements of the organization services

Which statements a call can make at all: one lemma for every part of a call (`makes_*`), for any
set that has the statements of that part.  Most calls make none that moves the ownership of an
organization, removes a member or belongs to the deletion (`Routine`).
-/

namespace Fulla

open Conc

/-- The operations of a program whose statements are in `S`, with those of the saves it sends into
the background. -/
def Makes (S : OrgStatement → Prop) : OrgOp → Prop
  | .statement s => S s
  | .detach save => S (.upsertConsent save.organizationId save.clientId save.scope save.grantedBy)
  | _ => True

section Steps

variable {S : OrgStatement → Prop} {α : Type}

/-- One operation and the rest. -/
theorem makes_step {o : OrgOp} (ok : Makes S o)
    {k : OrgSig.Res o → OrgProg α} (rest : ∀ r, (k r).Only (Makes S)) :
    (orgStep o >>= k).Only (Makes S) :=
  (Prog.only_call.mpr ok).bind rest

/-- One statement, and then a rest that makes the same kind of statements. -/
theorem makes_statement {s : OrgStatement} (made : S s) {k : Option Nat → OrgProg α}
    (rest : ∀ r, (k r).Only (Makes S)) : (orgStep (.statement s) >>= k).Only (Makes S) := by
  refine makes_step ?_ rest
  exact made

/-- A condition, by its branches. -/
theorem only_ite {P : OrgOp → Prop} {c : Prop} [Decidable c] {p q : OrgProg α} (yes : p.Only P)
    (no : q.Only P) : (if c then p else q).Only P := by
  split
  · exact yes
  · exact no

/-- Reading a membership is a query. -/
theorem makes_getMembership {id : Nat} {userId : Int32}
    {onCheck : Option OrganizationMember → OrgProg OrgAnswer}
    (rest : ∀ row, (onCheck row).Only (Makes S)) :
    (getMembership id userId onCheck).Only (Makes S) :=
  Prog.only_iff_follows.mpr <| follows_getMembership trivial (fun _ _ _ => trivial) fun row =>
    Prog.only_iff_follows.mp (rest row)

/-- Taking the advisory locks in turn makes no statement; what follows may. -/
theorem makes_takeNextLock {keys : List String} {onLocked : OrgProg α} {onError : String → α}
    (rest : onLocked.Only (Makes S)) :
    (takeNextLock onLocked onError keys).Only (Makes S) := by
  induction keys with
  | nil => exact rest
  | cons key keys ih =>
      refine ⟨trivial, fun held => ?_⟩
      cases held with
      | true => exact ih
      | false => trivial

/-- Opening a transaction under advisory locks makes no statement either. -/
theorem makes_withAdvisoryXactLock {keys : List String} {onLocked : OrgProg α}
    {onError : String → α} (rest : onLocked.Only (Makes S)) :
    (withAdvisoryXactLock keys onLocked onError).Only (Makes S) := by
  refine ⟨trivial, fun txn => ?_⟩
  cases txn with
  | true => exact makes_takeNextLock rest
  | false => trivial

end Steps

/-! ## The parts of the calls -/

section Parts

variable {S : OrgStatement → Prop}

/-- A refusal inside a transaction rolls back and answers. -/
theorem makes_refuseAndEnd (code detail : String) :
    (OrgMemberService.refuseAndEnd code detail).Only (Makes S) :=
  ⟨trivial, fun _ => trivial⟩

/-- `create` makes one statement of its own, the insertion of the organization. -/
theorem makes_create (site : OrgSite) {r : CreateOrgRequest}
    (insert : S (.insertOrganization r.slug)) :
    (OrganizationService.create site r).Only (Makes S) := by
  rcases OrganizationService.create_cases site r with ⟨code, detail, eq⟩ | eq
  · rw [eq]
    trivial
  rw [eq]
  refine makes_step (by trivial) fun r => ?_
  cases r with
  | none => trivial
  | some tombs =>
      refine only_ite trivial (makes_statement insert fun r => ?_)
      cases r <;> trivial

/-- What `createInvitation` does under its lock: one insertion, of an invitation. -/
theorem makes_createInvitationLocked (site : OrgSite) {id : Nat} {email : String} {role : OrgRole}
    (insert : ∀ token expiresAt, S (.insertInvitation id email role token expiresAt)) :
    (OrgMemberService.createInvitationLocked site id email role).Only (Makes S) := by
  refine makes_step (by trivial) fun r => ?_
  cases r with
  | none => trivial
  | some pending =>
      refine only_ite (makes_refuseAndEnd _ _) ?_
      refine makes_step (by trivial) fun token => makes_step (by trivial) fun now =>
        makes_statement (insert _ _) fun r => ?_
      cases r with
      | none => trivial
      | some id => exact ⟨trivial, fun committed => by cases committed <;> trivial⟩

/-- An acceptance seats the caller with a role other than owner, then stamps the invitation. -/
theorem makes_joinByInvitation (caller : ResolvedUser) {invite : OrganizationInvitation}
    (member : ∀ role ≠ .owner, S (.insertMember invite.organizationId caller.id role))
    (stamp : ∀ acceptedAt, S (.stampInvitation invite.id acceptedAt)) :
    (OrgMemberService.joinByInvitation caller invite).Only (Makes S) := by
  have role : (if invite.role = .admin then OrgRole.admin else .member) ≠ .owner := by
    split <;> simp
  refine makes_statement (member _ role) fun r => ?_
  cases r with
  | none => trivial
  | some id =>
      refine makes_step (by trivial) fun now => makes_statement (stamp now) fun r => ?_
      cases r <;> trivial

/-- The last step of a transfer lowers every other owner. -/
theorem makes_demoteOthersAndRespond {id : Nat} {targetUserId : Int32}
    (demote : S (.demoteOthers id targetUserId)) :
    (OrganizationService.demoteOthersAndRespond id targetUserId).Only (Makes S) := by
  refine makes_statement demote fun r => ?_
  cases r <;> trivial

/-- The swap of a transfer. -/
theorem makes_promoteAndDemote {id : Nat} {targetUserId : Int32}
    (promote : ∀ row, S (.setRole row .owner)) (seat : S (.insertMember id targetUserId .owner))
    (demote : S (.demoteOthers id targetUserId)) :
    (OrganizationService.promoteAndDemote id targetUserId).Only (Makes S) := by
  refine makes_step (by trivial) fun r => ?_
  rcases r with _ | _ | row
  · trivial
  · refine makes_statement seat fun r => ?_
    cases r with
    | none => trivial
    | some n => exact makes_demoteOthersAndRespond demote
  · refine makes_statement (promote row.id) fun r => ?_
    rcases r with _ | _ | n
    · trivial
    · trivial
    · exact makes_demoteOthersAndRespond demote

/-- A succession lowers the other owners and marks the nomination as accepted. -/
theorem makes_demoteAndMark {id : Nat} {nomineeUserId : Int32}
    (demote : S (.demoteOthers id nomineeUserId))
    (accept : S (.acceptNomination id nomineeUserId)) :
    (OrgSuccessionRepository.demoteAndMark id nomineeUserId).Only (Makes S) := by
  refine makes_statement demote fun r => ?_
  cases r with
  | none => trivial
  | some n =>
      refine makes_statement accept fun r => ?_
      rcases r with _ | _ | n
      · trivial
      · exact makes_step (by trivial) fun _ => trivial
      · exact Prog.only_call.mpr trivial

/-- The swap of a succession. -/
theorem makes_effectSuccession {id : Nat} {nomineeUserId : Int32}
    (promote : ∀ row, S (.setRole row .owner)) (seat : S (.insertMember id nomineeUserId .owner))
    (demote : S (.demoteOthers id nomineeUserId))
    (accept : S (.acceptNomination id nomineeUserId)) :
    (OrgSuccessionRepository.effectSuccession id nomineeUserId).Only (Makes S) := by
  refine makes_withAdvisoryXactLock (makes_step (by trivial) fun r => ?_)
  rcases r with _ | _ | row
  · trivial
  · refine makes_statement seat fun r => ?_
    cases r with
    | none => trivial
    | some n => exact makes_demoteAndMark demote accept
  · refine makes_statement (promote row.id) fun r => ?_
    rcases r with _ | _ | n
    · trivial
    · exact makes_step (by trivial) fun _ => trivial
    · exact makes_demoteAndMark demote accept

/-- A consent is saved by one upsert. -/
theorem makes_saveConsent {save : ConsentSave}
    (upsert : S (.upsertConsent save.organizationId save.clientId save.scope save.grantedBy)) :
    (OrgConsentRepository.saveConsent save).Only (Makes S) := by
  refine makes_withAdvisoryXactLock (makes_statement upsert fun r => ?_)
  cases r with
  | none => trivial
  | some n => exact Prog.only_call.mpr trivial

/-- The saves that are detached from an approval are upserts, one for each scope. -/
theorem makes_detachAll {id : Nat} {grantedBy : Int32} {clientId : String}
    (upsert : ∀ scope, S (.upsertConsent id clientId scope grantedBy)) (scopes : List String) :
    (OrgMemberService.detachAll id grantedBy clientId scopes).Only (Makes S) := by
  induction scopes with
  | nil => trivial
  | cons scope scopes ih => exact makes_step (by exact upsert scope) fun _ => ih

/-- An approval flips its own request and resolves the other open ones of the client. -/
theorem makes_decideApproved {row : OrganizationConsentRequest}
    (decide_ : S (.decidePending row.id .approved))
    (others : S (.resolveOtherPending row.organizationId row.clientId row.id))
    (scopes : List String) : (OrgMemberService.decideApproved row scopes).Only (Makes S) :=
  makes_statement decide_ fun _ => makes_statement others fun _ => trivial

/-- An approval makes the upserts of its scopes and the two decisions. -/
theorem makes_approveRow {caller : ResolvedUser} {row : OrganizationConsentRequest}
    (upsert : ∀ scope, S (.upsertConsent row.organizationId row.clientId scope caller.id))
    (decide_ : S (.decidePending row.id .approved))
    (others : S (.resolveOtherPending row.organizationId row.clientId row.id)) :
    (OrgMemberService.approveRow caller row).Only (Makes S) := by
  unfold OrgMemberService.approveRow
  refine only_ite trivial (makes_step (by trivial) fun active => only_ite trivial ?_)
  refine makes_step (by trivial) fun r => ?_
  cases r with
  | none => trivial
  | some scopes =>
      cases scopes with
      | nil => exact makes_decideApproved decide_ others _
      | cons first scopes =>
          refine (makes_saveConsent (upsert first)).bind fun success => only_ite ?_ trivial
          exact (makes_detachAll upsert scopes).bind fun _ => makes_decideApproved decide_ others _

/-- A rejection flips its own request. -/
theorem makes_rejectRow {row : OrganizationConsentRequest}
    (decide_ : S (.decidePending row.id .rejected)) :
    (OrgMemberService.rejectRow row).Only (Makes S) := by
  unfold OrgMemberService.rejectRow
  refine only_ite trivial (makes_statement decide_ fun r => ?_)
  rcases r with _ | _ | n <;> trivial

/-- What follows on the request, if it is one of the organization. -/
theorem makes_requestOf {requestId id : Nat}
    (onRow : OrganizationConsentRequest → OrgProg OrgAnswer)
    (rest : ∀ row : OrganizationConsentRequest, row.organizationId = id →
      (onRow row).Only (Makes S)) (member : Option OrganizationMember) :
    (if isManager member = false then
        respondError "AUTHZ_ACCESS_DENIED" "owner or admin role required"
      else do
        let row : Option (Option OrganizationConsentRequest) ←
          orgStep (.query (.request requestId))
        match row with
        | none => respondError "DB_QUERY_ERROR" "consent request lookup failed"
        | some none => respondError "VALIDATION_RESOURCE_NOT_FOUND" "consent request not found"
        | some (some row) =>
          if row.organizationId ≠ id then
            respondError "VALIDATION_RESOURCE_NOT_FOUND" "consent request not found"
          else onRow row : OrgProg OrgAnswer).Only (Makes S) := by
  refine only_ite trivial (makes_step (by trivial) fun r => ?_)
  rcases r with _ | _ | row
  · trivial
  · trivial
  dsimp only
  split
  · trivial
  · next own => exact rest row (not_not.mp own)

end Parts

/-! ## The removals -/

/-- The operations of the two removals: look-ups, and the deletion of a membership. -/
def Removes : OrgOp → Prop
  | .resolveCaller _ | .query (.organization _) | .query (.membership _ _) | .query (.owners _)
  | .statement (.deleteMember _ _) => True
  | _ => False

/-- A removal by a member is made of these. -/
theorem removes_removeMember (userId slug : String) (target : Option Int32) :
    (OrgMemberService.removeMember userId slug target).Only Removes := by
  cases target with
  | none => trivial
  | some targetUserId =>
      refine ⟨trivial, fun r => ?_⟩
      rcases r with _ | _ | caller
      · trivial
      · trivial
      refine ⟨trivial, fun r => ?_⟩
      rcases r with _ | _ | org
      · trivial
      · trivial
      refine ⟨trivial, fun r => ?_⟩
      rcases r with _ | _ | own
      · trivial
      · trivial
      refine only_ite trivial ⟨trivial, fun r => ?_⟩
      rcases r with _ | _ | targetRow
      · trivial
      · trivial
      refine only_ite trivial <| only_ite trivial ⟨trivial, fun r => ?_⟩
      rcases r with _ | _ | n <;> trivial

/-- So is a removal by an administrator. -/
theorem removes_adminRemoveMember (slug : String) (target : Option Int32) :
    (OrganizationService.removeMember slug target).Only Removes := by
  have delete (orgId : Nat) (targetUserId : Int32) :
      (OrganizationService.deleteMembership orgId targetUserId).Only Removes :=
    ⟨trivial, fun r => by rcases r with _ | _ | n <;> trivial⟩
  cases target with
  | none => trivial
  | some targetUserId =>
      refine ⟨trivial, fun r => ?_⟩
      rcases r with _ | _ | org
      · trivial
      · trivial
      refine ⟨trivial, fun r => ?_⟩
      rcases r with _ | _ | membership
      · trivial
      · trivial
      refine only_ite ⟨trivial, fun r => ?_⟩ (delete _ _)
      cases r with
      | none => trivial
      | some owners => exact only_ite trivial (delete _ _)

/-! ## The calls -/

section Calls

-- otherwise elaboration evaluates the checks of the address
attribute [local irreducible] normalizeEmail

end Calls

end Fulla
