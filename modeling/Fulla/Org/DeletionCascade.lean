import Fulla.Conc.Cascades
import Fulla.Org.Constraints

/-!
# The deletion of an organization

`deleteOrg` marks an organization as deleted and then sweeps its invitations, nominations,
consents and members, one statement for each.  `eval_effect` says of every statement of the
schema what it is to this cascade: a step of it, one that puts in rows that a step sweeps, or
neither.
-/

namespace Fulla

open Conc OrgTable

/-! ## The cascade -/

/-- The statements of the deletion's transaction, in the order of `deleteOrg`. -/
def cascadeSteps (organizationId : Nat) : List OrgStatement :=
  [.softDelete organizationId, .voidInvitations organizationId, .voidNominations organizationId,
    .revokeConsents organizationId, .suspendClients organizationId, .detachMembers organizationId]

/-- The rows of which a step leaves none. -/
def sweptBy : OrgStatement → OrgRow → Prop
  | .voidInvitations id, .invitation v => v.organizationId = id ∧ v.acceptedAt = none
  | .voidNominations id, .nomination n => n.organizationId = id ∧ n.accepted = false
  | .revokeConsents id, .consent c => c.organizationId = id ∧ c.revoked = false
  | .detachMembers id, .member m => m.organizationId = id
  | _, _ => False

/-- The row of the organization itself, marked as deleted. -/
def IsTombstone (organizationId : Nat) : OrgRow → Prop
  | .organization o => o.id = organizationId ∧ o.deleted = true
  | _ => False

instance (organizationId : Nat) : DecidablePred (IsTombstone organizationId)
  | .organization _ => inferInstanceAs (Decidable (_ ∧ _))
  | .member _ => inferInstanceAs (Decidable False)
  | .invitation _ => inferInstanceAs (Decidable False)
  | .nomination _ => inferInstanceAs (Decidable False)
  | .consent _ => inferInstanceAs (Decidable False)
  | .request _ => inferInstanceAs (Decidable False)

/-- The step that sweeps what a statement puts in. -/
def undoneBy : OrgStatement → Option OrgStatement
  | .insertMember id _ _ => some (.detachMembers id)
  | .insertInvitation id _ _ _ _ => some (.voidInvitations id)
  | .upsertConsent id _ _ _ => some (.revokeConsents id)
  | _ => none

/-- No statement of the cascade inserts what another one sweeps. -/
theorem undoneBy_of_step {organizationId : Nat} {s : OrgStatement}
    (step : s ∈ cascadeSteps organizationId) : undoneBy s = none := by
  simp only [cascadeSteps, List.mem_cons, List.not_mem_nil, or_false] at step
  rcases step with rfl | rfl | rfl | rfl | rfl | rfl <;> rfl

/-- The deletion as an instance of `Cascade`: its steps, what they sweep and what would refill it.
-/
def orgCascade (organizationId : Nat) : Cascade OrgStatement OrgRow where
  steps := cascadeSteps organizationId
  sweeps := sweptBy
  gone := IsTombstone organizationId
  refills s v := undoneBy s = some v
  apart s step v refills := by
    rw [undoneBy_of_step step] at refills
    cases refills

/-! ## The statements as parts of the cascade -/

section Effects

variable {organizationId : Nat} {v s : OrgStatement} {r : OrgRow}

/-- What is left to sweep, by table. -/
theorem sweptBy_cases (step : v ∈ cascadeSteps organizationId) (sweeps : sweptBy v r) :
    (∃ i, r = .invitation i ∧ v = .voidInvitations organizationId ∧
        i.organizationId = organizationId ∧ i.acceptedAt = none) ∨
      (∃ n, r = .nomination n ∧ v = .voidNominations organizationId ∧
        n.organizationId = organizationId ∧ n.accepted = false) ∨
      (∃ c, r = .consent c ∧ v = .revokeConsents organizationId ∧
        c.organizationId = organizationId ∧ c.revoked = false) ∨
      ∃ m, r = .member m ∧ v = .detachMembers organizationId ∧
        m.organizationId = organizationId := by
  simp only [cascadeSteps, List.mem_cons, List.not_mem_nil, or_false] at step
  rcases step with rfl | rfl | rfl | rfl | rfl | rfl
  · exact sweeps.elim
  · cases r with
    | invitation i => exact .inl ⟨i, rfl, rfl, sweeps⟩
    | _ => exact sweeps.elim
  · cases r with
    | nomination n => exact .inr (.inl ⟨n, rfl, rfl, sweeps⟩)
    | _ => exact sweeps.elim
  · cases r with
    | consent c => exact .inr (.inr (.inl ⟨c, rfl, rfl, sweeps⟩))
    | _ => exact sweeps.elim
  · exact sweeps.elim
  · cases r with
    | member m => exact .inr (.inr (.inr ⟨m, rfl, rfl, sweeps⟩))
    | _ => exact sweeps.elim

/-- The row of an organization is never swept. -/
theorem not_sweptBy_organization (o : Organization) : ¬ sweptBy v (.organization o) := by
  cases v <;> exact id

/-- Nor is a consent request. -/
theorem not_sweptBy_request (q : OrganizationConsentRequest) : ¬ sweptBy v (.request q) := by
  cases v <;> exact id

/-- One row that is put in. -/
theorem effect_of_insert (outside : s ∉ cascadeSteps organizationId) {rows : List OrgRow}
    (live : ¬ IsTombstone organizationId r)
    (origin : ∀ v ∈ cascadeSteps organizationId, sweptBy v r → undoneBy s = some v) :
    (orgCascade organizationId).Effect s rows [{ old := none, new := some r }] := by
  refine ⟨fun step => absurd step outside, fun c mem d put gone => ?_,
    fun c mem r' put v step sweeps => ?_⟩
  · cases List.mem_singleton.mp mem
    cases put
    exact absurd gone live
  · cases List.mem_singleton.mp mem
    cases put
    exact .inl (origin v step sweeps)

/-- Rows of one table that are changed or deleted. -/
theorem effect_of_changes {α : Type} {t : OrgTable α} {rows : List OrgRow} {selects : α → Bool}
    {becomes : α → Option α}
    (swept : s ∈ cascadeSteps organizationId → ∀ r, sweptBy s r →
      ∃ a, r = t.put a ∧ selects a = true)
    (cleans : s ∈ cascadeSteps organizationId → ∀ a b, becomes a = some b → ¬ sweptBy s (t.put b))
    (marked : ∀ a b, selects a = true → becomes a = some b →
      IsTombstone organizationId (t.put b) → s ∈ cascadeSteps organizationId)
    (origin : ∀ a b, selects a = true → becomes a = some b → ∀ v ∈ cascadeSteps organizationId,
      sweptBy v (t.put b) → undoneBy s = some v ∨ sweptBy v (t.put a)) :
    (orgCascade organizationId).Effect s rows (t.changes rows selects becomes) := by
  refine ⟨fun step r mem sweeps => ?_, fun c mem d put gone => ?_,
    fun c mem r put v step sweeps => ?_⟩
  · rcases kept_or_put mem with ⟨there, kept⟩ | ⟨c, change, put⟩
    · obtain ⟨a, rfl, selected⟩ := swept step r sweeps
      exact kept _ (t.mem_changes.mpr ⟨a, there, selected, rfl⟩) rfl
    · obtain ⟨a, _, _, rfl⟩ := t.mem_changes.mp change
      obtain ⟨b, becomes_, rfl⟩ := Option.map_eq_some_iff.mp put
      exact cleans step a b becomes_ sweeps
  · obtain ⟨a, _, selected, rfl⟩ := t.mem_changes.mp mem
    obtain ⟨b, becomes_, rfl⟩ := Option.map_eq_some_iff.mp put
    exact marked a b selected becomes_ gone
  · obtain ⟨a, there, selected, rfl⟩ := t.mem_changes.mp mem
    obtain ⟨b, becomes_, rfl⟩ := Option.map_eq_some_iff.mp put
    exact (origin a b selected becomes_ v step sweeps).imp id fun before =>
      ⟨t.put a, there, before, rfl⟩

/-- A statement outside the cascade that changes or deletes rows. -/
theorem effect_of_ordinary {α : Type} {t : OrgTable α} {rows : List OrgRow} {selects : α → Bool}
    {becomes : α → Option α} (outside : s ∉ cascadeSteps organizationId)
    (live : ∀ a, ¬ IsTombstone organizationId (t.put a))
    (origin : ∀ a b, selects a = true → becomes a = some b → ∀ v ∈ cascadeSteps organizationId,
      sweptBy v (t.put b) → undoneBy s = some v ∨ sweptBy v (t.put a)) :
    (orgCascade organizationId).Effect s rows (t.changes rows selects becomes) :=
  effect_of_changes (fun step => absurd step outside) (fun step => absurd step outside)
    (fun _ b _ _ gone => absurd gone (live b)) origin

end Effects

section Statements

variable {organizationId : Nat}

/-- Statements that delete rows: steps of the cascade and others. -/
theorem effect_of_delete {α : Type} {t : OrgTable α} {rows : List OrgRow} {selects : α → Bool}
    {s : OrgStatement}
    (swept : s ∈ cascadeSteps organizationId → ∀ r, sweptBy s r →
      ∃ a, r = t.put a ∧ selects a = true) :
    (orgCascade organizationId).Effect s rows (t.changes rows selects fun _ => none) := by
  refine effect_of_changes swept (fun _ a b becomes => ?_) (fun a b _ becomes => ?_)
    fun a b _ becomes => ?_
  all_goals cases becomes

/-- **What any statement of the services does to the rows of the deletion.**  A step leaves
nothing that it sweeps, and only a refilling statement brings such a row in. -/
theorem eval_effect (organizationId : Nat) {statement : OrgStatement} {serial n : Nat}
    {rows : List OrgRow} {changes : List OrgChange}
    (eval : statement.eval serial rows = some (n, changes)) :
    (orgCascade organizationId).Effect statement rows changes := by
  cases statement with
  | insertOrganization slug =>
      cases eval
      refine effect_of_insert (by simp [cascadeSteps]) (fun gone => ?_)
        fun v _ sweeps => absurd sweeps (not_sweptBy_organization _)
      cases gone.2
  | insertMember id userId role =>
      cases eval
      refine effect_of_insert (by simp [cascadeSteps]) (fun gone => gone) fun v step sweeps => ?_
      rcases sweptBy_cases step sweeps with
        ⟨i, eq, _⟩ | ⟨n, eq, _⟩ | ⟨c, eq, _⟩ | ⟨m, eq, rfl, own⟩ <;> cases eq
      exact congrArg (some ∘ OrgStatement.detachMembers) own
  | setRole id role =>
      cases eval
      refine effect_of_ordinary (by simp [cascadeSteps]) (fun _ gone => gone)
        fun a b _ becomes v step sweeps => .inr ?_
      cases becomes
      rcases sweptBy_cases step sweeps with
        ⟨i, eq, _⟩ | ⟨n, eq, _⟩ | ⟨c, eq, _⟩ | ⟨m, eq, rfl, own⟩ <;> cases eq
      exact own
  | demoteOthers id userId =>
      cases eval
      refine effect_of_ordinary (by simp [cascadeSteps]) (fun _ gone => gone)
        fun a b _ becomes v step sweeps => .inr ?_
      cases becomes
      rcases sweptBy_cases step sweeps with
        ⟨i, eq, _⟩ | ⟨n, eq, _⟩ | ⟨c, eq, _⟩ | ⟨m, eq, rfl, own⟩ <;> cases eq
      exact own
  | insertInvitation id email role token expiresAt =>
      cases eval
      refine effect_of_insert (by simp [cascadeSteps]) (fun gone => gone) fun v step sweeps => ?_
      rcases sweptBy_cases step sweeps with
        ⟨i, eq, rfl, own, _⟩ | ⟨n, eq, _⟩ | ⟨c, eq, _⟩ | ⟨m, eq, _⟩ <;> cases eq
      exact congrArg (some ∘ OrgStatement.voidInvitations) own
  | stampInvitation id acceptedAt =>
      cases eval
      refine effect_of_ordinary (by simp [cascadeSteps]) (fun _ gone => gone)
        fun a b _ becomes v step sweeps => ?_
      cases becomes
      rcases sweptBy_cases step sweeps with
        ⟨i, eq, _, _, pending⟩ | ⟨n, eq, _⟩ | ⟨c, eq, _⟩ | ⟨m, eq, _⟩ <;> cases eq
      cases pending
  | acceptNomination id nomineeUserId =>
      cases eval
      refine effect_of_ordinary (by simp [cascadeSteps]) (fun _ gone => gone)
        fun a b _ becomes v step sweeps => ?_
      cases becomes
      rcases sweptBy_cases step sweeps with
        ⟨i, eq, _⟩ | ⟨n, eq, _, _, pending⟩ | ⟨c, eq, _⟩ | ⟨m, eq, _⟩ <;> cases eq
      cases pending
  | upsertConsent id clientId scope grantedBy =>
      simp only [OrgStatement.eval] at eval
      split at eval
      · cases eval
        refine effect_of_ordinary (by simp [cascadeSteps]) (fun _ gone => gone)
          fun a b selected becomes v step sweeps => .inl ?_
        cases becomes
        rcases sweptBy_cases step sweeps with
          ⟨i, eq, _⟩ | ⟨n, eq, _⟩ | ⟨c, eq, rfl, own, _⟩ | ⟨m, eq, _⟩ <;> cases eq
        have same : a.organizationId = id := (of_decide_eq_true selected).1
        exact congrArg (some ∘ OrgStatement.revokeConsents) (same.symm.trans own)
      · cases eval
        refine effect_of_insert (by simp [cascadeSteps]) (fun gone => gone) fun v step sweeps => ?_
        rcases sweptBy_cases step sweeps with
          ⟨i, eq, _⟩ | ⟨n, eq, _⟩ | ⟨c, eq, rfl, own, _⟩ | ⟨m, eq, _⟩ <;> cases eq
        exact congrArg (some ∘ OrgStatement.revokeConsents) own
  | decidePending requestId status =>
      cases eval
      refine effect_of_ordinary (by simp [cascadeSteps]) (fun _ gone => gone)
        fun a b _ becomes v _ sweeps => ?_
      cases becomes
      exact absurd sweeps (not_sweptBy_request _)
  | resolveOtherPending id clientId exceptRequestId =>
      cases eval
      refine effect_of_ordinary (by simp [cascadeSteps]) (fun _ gone => gone)
        fun a b _ becomes v _ sweeps => ?_
      cases becomes
      exact absurd sweeps (not_sweptBy_request _)
  | deleteMember id userId =>
      cases eval
      exact effect_of_delete fun step => absurd step (by simp [cascadeSteps])
  | withdrawOwnPending id requestId requesterId =>
      cases eval
      exact effect_of_delete fun step => absurd step (by simp [cascadeSteps])
  | softDelete id =>
      simp only [OrgStatement.eval] at eval
      split at eval
      · cases eval
      · cases eval
        refine effect_of_changes (fun _ r sweeps => sweeps.elim)
          (fun _ a b _ sweeps => absurd sweeps (not_sweptBy_organization b))
          (fun a b selected becomes gone => ?_)
          fun a b _ _ v _ sweeps => absurd sweeps (not_sweptBy_organization b)
        cases becomes
        have same : a.id = id := (of_decide_eq_true selected).1
        have own : a.id = organizationId := gone.1
        rw [← same, own]
        exact List.mem_cons_self
  | voidInvitations id =>
      cases eval
      refine effect_of_delete fun _ r sweeps => ?_
      cases r with
      | invitation i => exact ⟨i, rfl, decide_eq_true sweeps⟩
      | _ => exact sweeps.elim
  | voidNominations id =>
      cases eval
      refine effect_of_delete fun _ r sweeps => ?_
      cases r with
      | nomination n => exact ⟨n, rfl, decide_eq_true sweeps⟩
      | _ => exact sweeps.elim
  | detachMembers id =>
      cases eval
      refine effect_of_delete fun _ r sweeps => ?_
      cases r with
      | member m => exact ⟨m, rfl, decide_eq_true sweeps⟩
      | _ => exact sweeps.elim
  | revokeConsents id =>
      cases eval
      refine effect_of_changes (fun _ r sweeps => ?_) (fun _ a b becomes sweeps => ?_)
        (fun a b _ _ gone => gone.elim) fun a b _ becomes v step sweeps => ?_
      · cases r with
        | consent c => exact ⟨c, rfl, decide_eq_true sweeps⟩
        | _ => exact sweeps.elim
      · cases becomes
        cases sweeps.2
      · cases becomes
        rcases sweptBy_cases step sweeps with
          ⟨i, eq, _⟩ | ⟨n, eq, _⟩ | ⟨c, eq, _, _, stands⟩ | ⟨m, eq, _⟩ <;> cases eq
        cases stands
  | suspendClients id =>
      cases eval
      refine ⟨fun _ r _ sweeps => sweeps.elim, fun c mem => ?_, fun c mem => ?_⟩ <;> cases mem

end Statements

end Fulla
