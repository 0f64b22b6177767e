import Fulla.Org.Programs

/-!
# Single use of invitations

An acceptance looks the invitation up, inserts the membership and stamps the invitation: three
statements, each committed on its own.  What keeps a second acceptance from creating a second
membership is first the stamp and, until it is there, the seat of the member in the unique
index.  So the seat has to be there as long as an acceptance is in flight, all acceptances in
flight have to be for one seat, and the stamp must not fail.
-/

namespace Fulla

open Conc OrgTable

-- otherwise elaboration evaluates the checks of the address
attribute [local irreducible] normalizeEmail

/-- The calls that touch invitations and memberships. -/
inductive InvitationCall where
  | acceptInvitation (userId token : String)
  | removeMember (userId slug : String) (target : Option Int32)
  | adminRemoveMember (slug : String) (target : Option Int32)

/-- As calls of the services. -/
def InvitationCall.call : InvitationCall → OrgCall
  | acceptInvitation userId token => .acceptInvitation userId token
  | removeMember userId slug target => .removeMember userId slug target
  | adminRemoveMember slug target => .adminRemoveMember slug target

/-! ## Where an acceptance stands -/

/-- How far an acceptance has come. -/
inductive Acceptance where
  | idle
  | caller (user : ResolvedUser)
  /-- An open invitation to the caller's address was found, and the clock may have been read. -/
  | accepting (user : ResolvedUser) (invite : OrganizationInvitation) (clock : Option Int)
  /-- The membership is inserted, and the stamp is due. -/
  | joined (user : ResolvedUser) (invite : OrganizationInvitation)
  | stamped
  | unstamped
  | refused

namespace Acceptance

def next (g : Acceptance) : (o : OrgOp) → OrgSig.Res o → Acceptance
  | .resolveCaller _, some (some user) =>
    match g with
    | idle => caller user
    | g => g
  | .query (.invitation _), some (some invite) =>
    match g with
    | caller user =>
      if invite.accepted = false ∧ invite.email = normalizeEmail user.email then
        accepting user invite none
      else refused
    | g => g
  | .now, now =>
    match g with
    | accepting user invite none =>
      if invite.expiresAt < now then refused else accepting user invite (some now)
    | g => g
  | .statement (.insertMember _ _ _), done =>
    match g with
    | accepting user invite _ => if done.isSome then joined user invite else refused
    | g => g
  | .statement (.stampInvitation _ _), done =>
    match g with
    | joined _ _ => if done.isSome then stamped else unstamped
    | g => g
  | _, _ => g

/-- The caller and the invitation of an acceptance in flight. -/
def flight : Acceptance → Option (ResolvedUser × OrganizationInvitation)
  | accepting user invite _ => some (user, invite)
  | joined user invite => some (user, invite)
  | _ => none

/-- A membership was inserted. -/
def HasJoined : Acceptance → Prop
  | joined _ _ => True
  | stamped => True
  | unstamped => True
  | _ => False

/-- The order of the operations. -/
def Fits (g : Acceptance) : OrgOp → Prop
  | .statement (.insertMember organizationId userId _) => ∃ user invite clock,
    g = accepting user invite (some clock) ∧ clock ≤ invite.expiresAt ∧
      organizationId = invite.organizationId ∧ userId = user.id
  | .statement (.stampInvitation id _) => ∃ user invite, g = joined user invite ∧ id = invite.id
  | .statement (.deleteMember _ _) => True
  | o => Reads o

/-- A call that has joined has joined at every later stage. -/
theorem HasJoined.next {g : Acceptance} (joined : g.HasJoined) (o : OrgOp) (r : OrgSig.Res o) :
    (g.next o r).HasJoined := by
  cases g with
  | joined user invite =>
      unfold Acceptance.next
      split <;> first | trivial | (dsimp only; split <;> trivial)
  | stamped =>
      unfold Acceptance.next
      split <;> trivial
  | unstamped =>
      unfold Acceptance.next
      split <;> trivial
  | _ => exact joined.elim

end Acceptance

section Events

variable {ι : Type} [DecidableEq ι]

/-- Where the events of a thread have brought it. -/
def acceptance (i : ι) (log : List (OrgEvent ι)) : Acceptance :=
  track Acceptance.next .idle i log

/-- The event inserts a membership. -/
def inserts : OrgEvent ι → Bool
  | ⟨_, _, .statement (.insertMember _ _ _), some _, _⟩ => true
  | _ => false

/-- The caller and the invitation for which the event creates a membership. -/
def creation (e : OrgEvent ι) (log : List (OrgEvent ι)) :
    Option (ResolvedUser × OrganizationInvitation) :=
  match acceptance e.thread log with
  | .accepting user invite _ => if inserts e then some (user, invite) else none
  | _ => none

/-- The memberships created by invitations, newest first. -/
def creations : List (OrgEvent ι) → List (ResolvedUser × OrganizationInvitation)
  | [] => []
  | e :: log => (creation e log).toList ++ creations log

/-- The reading of the clock, if the event is one. -/
def clockReading : OrgEvent ι → Option Int
  | ⟨_, _, .now, t, _⟩ => some t
  | _ => none

/-- A look-up that finds the invitation open for the caller, while no acceptance of it by
another account is in flight. -/
def OneAccount (e : OrgEvent ι) (log : List (OrgEvent ι)) : Prop :=
  ∀ user invite, acceptance e.thread log = .caller user →
    (Acceptance.caller user).next e.op e.res = .accepting user invite none →
    ∀ j user' invite', (acceptance j log).flight = some (user', invite') →
      invite'.id = invite.id → user'.id = user.id

/-- A stamp that fails, or is made at the second that reads as no stamp. -/
def stampFails : (o : OrgOp) → OrgSig.Res o → Bool
  | .statement (.stampInvitation _ acceptedAt), done => done.isNone || acceptedAt = 0
  | _, _ => false

/-- The organization and the user of a removal that takes effect. -/
def removes : (o : OrgOp) → OrgSig.Res o → Option (Nat × Int32)
  | .statement (.deleteMember organizationId userId), some _ => some (organizationId, userId)
  | _, _ => none

/-- A member who joined by an invitation is not removed while an acceptance of the invitation is
in flight. -/
def RemovalApart (e : OrgEvent ι) (log : List (OrgEvent ι)) : Prop :=
  ∀ organizationId userId, removes e.op e.res = some (organizationId, userId) →
    ∀ user invite, (user, invite) ∈ creations log → invite.organizationId = organizationId →
      user.id = userId → ∀ j user' invite', (acceptance j log).flight = some (user', invite') →
        invite'.id ≠ invite.id

/-- The condition on a step, on the log before it. -/
structure InvitationsApart (e : OrgEvent ι) (log : List (OrgEvent ι)) : Prop where
  account : OneAccount e log
  stamp : stampFails e.op e.res = false
  removal : RemovalApart e log

/-! ## The invariant -/

/-- The member is in the organization. -/
def Seated (rows : List OrgRow) (organizationId : Nat) (userId : Int32) : Prop :=
  ∃ m, OrgRow.member m ∈ rows ∧ m.organizationId = organizationId ∧ m.userId = userId

/-- The rows, where every acceptance stands, and the memberships created so far. -/
structure InvitationRows (rows : List OrgRow) (P : ι → Acceptance)
    (created : List (ResolvedUser × OrganizationInvitation)) : Prop where
  /-- What an acceptance has read is still there, or accepted since. -/
  read : ∀ j user invite, (P j).flight = some (user, invite) →
    ∃ v, OrgRow.invitation v ∈ rows ∧ v.id = invite.id ∧
      v.organizationId = invite.organizationId ∧ (v = invite ∨ v.accepted = true)
  account : ∀ j k user invite user' invite', (P j).flight = some (user, invite) →
    (P k).flight = some (user', invite') → invite'.id = invite.id → user'.id = user.id
  joined : ∀ j user invite, P j = .joined user invite → (user, invite) ∈ created
  /-- The seat is taken as long as an acceptance is in flight. -/
  seated : ∀ user invite, (user, invite) ∈ created → ∀ j user' invite',
    (P j).flight = some (user', invite') → invite'.id = invite.id →
      user'.id = user.id ∧ invite'.organizationId = invite.organizationId ∧
        Seated rows invite.organizationId user.id
  /-- An invitation that has created a membership is accepted, or the stamp is due. -/
  due : ∀ user invite, (user, invite) ∈ created → ∀ v, OrgRow.invitation v ∈ rows →
    v.id = invite.id → v.accepted = false → ∃ j user' invite', P j = .joined user' invite' ∧
      invite'.id = invite.id
  accepted :
    ∀ j user invite clock, P j = .accepting user invite clock → ∀ v, OrgRow.invitation v ∈ rows →
    v.id = invite.id → v.accepted = true → ∃ c ∈ created, c.2.id = invite.id
  once : created.Pairwise fun a b => a.2.id ≠ b.2.id

section Rows

variable {rows rows' : List OrgRow} {P : ι → Acceptance} {g : Acceptance} {i : ι}
  {created : List (ResolvedUser × OrganizationInvitation)}

omit [DecidableEq ι] in
/-- An id belongs to one invitation. -/
theorem eq_of_invitation_id (unique : TxnDb.Clear OrgRow.SharesKey rows)
    {v v' : OrganizationInvitation} (mem : OrgRow.invitation v ∈ rows)
    (mem' : OrgRow.invitation v' ∈ rows) (same : v.id = v'.id) : v = v' := by
  by_contra ne
  refine unique _ mem _ mem' ⟨fun eq => ne (OrgRow.invitation.inj eq), .invitation v.id,
    List.mem_cons_self, ?_⟩
  rw [same]
  exact List.mem_cons_self

theorem flight_update {j : ι} {user : ResolvedUser} {invite : OrganizationInvitation}
    (flies : (Function.update P i g j).flight = some (user, invite)) :
    j = i ∧ g.flight = some (user, invite) ∨ j ≠ i ∧ (P j).flight = some (user, invite) := by
  by_cases eq : j = i
  · subst eq
    rw [Function.update_self] at flies
    exact .inl ⟨rfl, flies⟩
  · rw [Function.update_of_ne eq] at flies
    exact .inr ⟨eq, flies⟩

theorem update_eq {j : ι} {h : Acceptance} (eq : Function.update P i g j = h) :
    j = i ∧ g = h ∨ j ≠ i ∧ P j = h := by
  by_cases own : j = i
  · subst own
    rw [Function.update_self] at eq
    exact .inl ⟨rfl, eq⟩
  · rw [Function.update_of_ne own] at eq
    exact .inr ⟨own, eq⟩

/-- A stamp that is due stays due when another thread, or one without a stamp to make, moves. -/
theorem InvitationRows.due_update (inv : InvitationRows rows P created)
    (other : ∀ user invite, P i ≠ .joined user invite) {user : ResolvedUser}
    {invite : OrganizationInvitation} (mem : (user, invite) ∈ created)
    {v : OrganizationInvitation} (there : OrgRow.invitation v ∈ rows) (same : v.id = invite.id)
    (fresh : v.accepted = false) :
    ∃ j user' invite', Function.update P i g j = .joined user' invite' ∧
      invite'.id = invite.id := by
  obtain ⟨j, user', invite', stands, eq⟩ := inv.due user invite mem v there same fresh
  refine ⟨j, user', invite', ?_, eq⟩
  rw [Function.update_of_ne]
  · exact stands
  · rintro rfl
    exact other _ _ stands

/-- A thread that is not in flight afterwards and has no stamp due. -/
theorem InvitationRows.leave (inv : InvitationRows rows P created) (over_ : g.flight = none)
    (open_ : ∀ user invite, P i ≠ .joined user invite) :
    InvitationRows rows (Function.update P i g) created := by
  have flies : ∀ j user invite, (Function.update P i g j).flight = some (user, invite) →
      (P j).flight = some (user, invite) := by
    intro j user invite flies
    rcases flight_update flies with ⟨_, flies⟩ | ⟨_, flies⟩
    · rw [over_] at flies
      cases flies
    · exact flies
  refine ⟨fun j user invite h => inv.read j user invite (flies _ _ _ h),
    fun j k user invite user' invite' h h' =>
      inv.account j k user invite user' invite' (flies _ _ _ h) (flies _ _ _ h'),
    fun j user invite h => ?_,
    fun user invite mem j user' invite' h =>
      inv.seated user invite mem j user' invite' (flies _ _ _ h),
    fun user invite mem v there same fresh => inv.due_update open_ mem there same fresh,
    fun j user invite clock h => ?_, inv.once⟩
  · rcases update_eq h with ⟨_, rfl⟩ | ⟨_, h⟩
    · cases over_
    · exact inv.joined j user invite h
  · rcases update_eq h with ⟨_, rfl⟩ | ⟨_, h⟩
    · cases over_
    · exact inv.accepted j user invite clock h

/-- A look-up that finds an open invitation. -/
theorem InvitationRows.find (inv : InvitationRows rows P created) {user : ResolvedUser}
    {invite : OrganizationInvitation} (stands : P i = .caller user)
    (unique : TxnDb.Clear OrgRow.SharesKey rows) (there : OrgRow.invitation invite ∈ rows)
    (fresh : invite.accepted = false)
    (account : ∀ j user' invite', (P j).flight = some (user', invite') →
      invite'.id = invite.id → user'.id = user.id) :
    InvitationRows rows (Function.update P i (.accepting user invite none)) created := by
  have mine : ∀ v, OrgRow.invitation v ∈ rows → v.id = invite.id → v = invite :=
    fun v mem same => eq_of_invitation_id unique mem there same
  refine ⟨fun j user' invite' h => ?_, fun j k user₁ invite₁ user₂ invite₂ h h' same => ?_,
    fun j user' invite' h => ?_, fun user₁ invite₁ mem j user' invite' h same => ?_,
    fun user' invite' mem v there' same fresh' => ?_,
    fun j user' invite' clock' h v there' same done => ?_,
    inv.once⟩
  · rcases flight_update h with ⟨_, h⟩ | ⟨_, h⟩
    · cases h
      exact ⟨invite, there, rfl, rfl, .inl rfl⟩
    · exact inv.read j user' invite' h
  · rcases flight_update h with ⟨_, h⟩ | ⟨_, h⟩
    · cases h
      rcases flight_update h' with ⟨_, h'⟩ | ⟨_, h'⟩
      · cases h'
        rfl
      · exact account k _ _ h' same
    · rcases flight_update h' with ⟨_, h'⟩ | ⟨_, h'⟩
      · cases h'
        exact (account j _ _ h same.symm).symm
      · exact inv.account j k user₁ invite₁ user₂ invite₂ h h' same
  · rcases update_eq h with ⟨_, h⟩ | ⟨_, h⟩
    · cases h
    · exact inv.joined j user' invite' h
  · rcases flight_update h with ⟨_, h⟩ | ⟨_, h⟩
    · -- the invitation is open, so the stamp of the acceptance that used it is still due
      cases h
      obtain ⟨k, user', invite', stands', eq⟩ := inv.due user₁ invite₁ mem invite there same fresh
      have flies : (P k).flight = some (user', invite') := by
        rw [stands']
        rfl
      obtain ⟨who, _, seat⟩ := inv.seated user₁ invite₁ mem k user' invite' flies eq
      refine ⟨?_, ?_, seat⟩
      · rw [← who]
        exact (account k user' invite' flies (eq.trans same.symm)).symm
      · obtain ⟨v, mem', id, org, _⟩ := inv.read k user' invite' flies
        have eq' := mine v mem' (id.trans (eq.trans same.symm))
        obtain ⟨_, org', _⟩ := inv.seated user₁ invite₁ mem k user' invite' flies eq
        rw [← eq', org, org']
    · exact inv.seated user₁ invite₁ mem j user' invite' h same
  · refine inv.due_update (fun _ _ joined => ?_) mem there' same fresh'
    rw [stands] at joined
    cases joined
  · rcases update_eq h with ⟨_, h⟩ | ⟨_, h⟩
    · cases h
      rw [mine v there' same, fresh] at done
      cases done
    · exact inv.accepted j user' invite' clock' h v there' same done

omit [DecidableEq ι] in
/-- A membership is inserted: no other one was created by the invitation, and the invitation
is open. -/
theorem InvitationRows.open_of_free (inv : InvitationRows rows P created) {user : ResolvedUser}
    {invite : OrganizationInvitation} {clock : Option Int}
    (stands : P i = .accepting user invite clock)
    (free : ¬ Seated rows invite.organizationId user.id) :
    (∀ c ∈ created, c.2.id ≠ invite.id) ∧ OrgRow.invitation invite ∈ rows := by
  have flies : (P i).flight = some (user, invite) := by
    rw [stands]
    rfl
  have none : ∀ c ∈ created, c.2.id ≠ invite.id := by
    intro c mem same
    obtain ⟨who, org, seat⟩ := inv.seated c.1 c.2 mem i user invite flies same.symm
    rw [← who, ← org] at seat
    exact free seat
  refine ⟨none, ?_⟩
  obtain ⟨v, there, id, _, same | done⟩ := inv.read i user invite flies
  · exact same ▸ there
  · obtain ⟨c, mem, eq⟩ := inv.accepted i user invite clock stands v there id done
    exact absurd eq (none c mem)

/-- The rows after a seat is inserted. -/
theorem InvitationRows.join (inv : InvitationRows rows P created) {user : ResolvedUser}
    {invite : OrganizationInvitation} {clock : Option Int}
    (stands : P i = .accepting user invite clock)
    (free : ¬ Seated rows invite.organizationId user.id) {m : OrganizationMember}
    (org : m.organizationId = invite.organizationId) (who : m.userId = user.id)
    (unique : TxnDb.Clear OrgRow.SharesKey rows) :
    InvitationRows (rows ++ [.member m]) (Function.update P i (.joined user invite))
      ((user, invite) :: created) := by
  have flies : (P i).flight = some (user, invite) := by
    rw [stands]
    rfl
  obtain ⟨none, there⟩ := inv.open_of_free stands free
  have still : ∀ j user' invite',
      (Function.update P i (.joined user invite) j).flight = some (user', invite') →
      (P j).flight = some (user', invite') := by
    intro j user' invite' h
    rcases flight_update h with ⟨own, h'⟩ | ⟨_, h'⟩
    · rw [own, flies]
      exact h'
    · exact h'
  have old : ∀ v, OrgRow.invitation v ∈ rows ++ [.member m] → OrgRow.invitation v ∈ rows := by
    intro v mem
    rcases List.mem_append.mp mem with mem | mem
    · exact mem
    · cases List.mem_singleton.mp mem
  have grows : ∀ o u, Seated rows o u → Seated (rows ++ [.member m]) o u := by
    intro o u seat
    obtain ⟨m', mem, rest⟩ := seat
    exact ⟨m', List.mem_append_left _ mem, rest⟩
  refine ⟨fun j user' invite' h => ?_, fun j k user₁ invite₁ user₂ invite₂ h h' =>
      inv.account j k user₁ invite₁ user₂ invite₂ (still _ _ _ h) (still _ _ _ h'),
    fun j user' invite' h => ?_, fun user₁ invite₁ mem j user' invite' h same => ?_,
    fun user' invite' mem v there' same fresh => ?_,
    fun j user' invite' clock' h v there' same done => ?_,
    ?_⟩
  · obtain ⟨v, mem, rest⟩ := inv.read j user' invite' (still _ _ _ h)
    exact ⟨v, List.mem_append_left _ mem, rest⟩
  · rcases update_eq h with ⟨_, h⟩ | ⟨_, h⟩
    · cases h
      exact List.mem_cons_self
    · exact List.mem_cons_of_mem _ (inv.joined j user' invite' h)
  · rcases List.mem_cons.mp mem with new | mem
    · cases new
      refine ⟨inv.account i j user invite user' invite' flies (still _ _ _ h) same, ?_,
        ⟨m, List.mem_append_right _ (List.mem_singleton_self _), org, who⟩⟩
      obtain ⟨v, mem', id, org', _⟩ := inv.read j user' invite' (still _ _ _ h)
      rw [← org', eq_of_invitation_id unique mem' there (id.trans same)]
    · obtain ⟨who', org', seat⟩ := inv.seated user₁ invite₁ mem j user' invite' (still _ _ _ h) same
      exact ⟨who', org', grows _ _ seat⟩
  · rcases List.mem_cons.mp mem with new | mem
    · cases new
      exact ⟨i, user, invite, Function.update_self .., rfl⟩
    · refine inv.due_update (fun _ _ joined => ?_) mem (old v there') same fresh
      rw [stands] at joined
      cases joined
  · rcases update_eq h with ⟨_, h⟩ | ⟨_, h⟩
    · cases h
    · obtain ⟨c, mem, eq⟩ := inv.accepted j user' invite' clock' h v (old v there') same done
      exact ⟨c, List.mem_cons_of_mem _ mem, eq⟩
  · exact List.pairwise_cons.mpr ⟨fun c mem => Ne.symm (none c mem), inv.once⟩

/-- The stamp of the invitation that a thread has used. -/
theorem InvitationRows.stamp (inv : InvitationRows rows P created) {user : ResolvedUser}
    {invite : OrganizationInvitation} (stands : P i = .joined user invite)
    (others : ∀ r, r.kind ≠ .invitations → (r ∈ rows' ↔ r ∈ rows))
    (stamped : ∀ v, OrgRow.invitation v ∈ rows' →
      v.id ≠ invite.id ∧ OrgRow.invitation v ∈ rows ∨ v.id = invite.id ∧ v.accepted = true)
    (stays : ∀ v, OrgRow.invitation v ∈ rows → ∃ v', OrgRow.invitation v' ∈ rows' ∧
      v'.id = v.id ∧ v'.organizationId = v.organizationId ∧ (v' = v ∨ v'.accepted = true)) :
    InvitationRows rows' (Function.update P i .stamped) created := by
  have flies : ∀ j user' invite', (Function.update P i .stamped j).flight = some (user', invite') →
      (P j).flight = some (user', invite') := by
    intro j user' invite' flies
    rcases flight_update flies with ⟨_, flies⟩ | ⟨_, flies⟩
    · cases flies
    · exact flies
  refine ⟨fun j user' invite' h => ?_,
    fun j k user₁ invite₁ user₂ invite₂ h h' =>
      inv.account j k user₁ invite₁ user₂ invite₂ (flies _ _ _ h) (flies _ _ _ h'),
    fun j user' invite' h => ?_, fun user₁ invite₁ mem j user' invite' h same => ?_,
    fun user' invite' mem v there same fresh => ?_,
    fun j user' invite' clock' h v there same done => ?_,
    inv.once⟩
  · obtain ⟨v, there, id, org, state⟩ := inv.read j user' invite' (flies _ _ _ h)
    obtain ⟨v', there', id', org', state'⟩ := stays v there
    refine ⟨v', there', id'.trans id, org'.trans org, ?_⟩
    rcases state' with rfl | done
    · exact state
    · exact .inr done
  · rcases update_eq h with ⟨_, h⟩ | ⟨_, h⟩
    · cases h
    · exact inv.joined j user' invite' h
  · obtain ⟨who, org, m, mem', seat⟩ :=
      inv.seated user₁ invite₁ mem j user' invite' (flies _ _ _ h) same
    refine ⟨who, org, m, (others _ ?_).mpr mem', seat⟩
    exact OrgKind.noConfusion
  · rcases stamped v there with ⟨other, there'⟩ | ⟨_, done⟩
    · obtain ⟨j, user₁, invite₁, stands', eq⟩ := inv.due user' invite' mem v there' same fresh
      refine ⟨j, user₁, invite₁, ?_, eq⟩
      rw [Function.update_of_ne]
      · exact stands'
      · rintro rfl
        rw [stands] at stands'
        cases stands'
        exact other (same.trans eq.symm)
    · rw [fresh] at done
      cases done
  · rcases update_eq h with ⟨_, h⟩ | ⟨_, h⟩
    · cases h
    · rcases stamped v there with ⟨_, there'⟩ | ⟨id, _⟩
      · exact inv.accepted j user' invite' clock' h v there' same done
      · exact ⟨_, inv.joined i user invite stands, id.symm.trans same⟩

omit [DecidableEq ι] in
/-- A removal of a member who did not come by an invitation that is being accepted. -/
theorem InvitationRows.remove (inv : InvitationRows rows P created)
    (others : ∀ r, r.kind ≠ .members → (r ∈ rows' ↔ r ∈ rows))
    (keeps : ∀ user invite, (user, invite) ∈ created → (∃ j user' invite',
      (P j).flight = some (user', invite') ∧ invite'.id = invite.id) →
      Seated rows invite.organizationId user.id → Seated rows' invite.organizationId user.id) :
    InvitationRows rows' P created := by
  have same : ∀ v, OrgRow.invitation v ∈ rows' ↔ OrgRow.invitation v ∈ rows :=
    fun v => others _ OrgKind.noConfusion
  refine ⟨fun j user invite h => ?_, inv.account, inv.joined,
    fun user invite mem j user' invite' h eq => ?_,
    fun user invite mem v there => inv.due user invite mem v ((same v).mp there),
    fun j user invite clock h v there => inv.accepted j user invite clock h v
      ((same v).mp there), inv.once⟩
  · obtain ⟨v, there, rest⟩ := inv.read j user invite h
    exact ⟨v, (same v).mpr there, rest⟩
  · obtain ⟨who, org, seat⟩ := inv.seated user invite mem j user' invite' h eq
    exact ⟨who, org, keeps user invite mem ⟨j, user', invite', h, eq⟩ seat⟩

/-- The clock is read. -/
theorem InvitationRows.tick (inv : InvitationRows rows P created) {user : ResolvedUser}
    {invite : OrganizationInvitation} {clock : Option Int}
    (stands : P i = .accepting user invite none) :
    InvitationRows rows (Function.update P i (.accepting user invite clock)) created := by
  have flies : ∀ j user' invite',
      (Function.update P i (.accepting user invite clock) j).flight = some (user', invite') →
      (P j).flight = some (user', invite') := by
    intro j user' invite' h
    rcases flight_update h with ⟨own, h'⟩ | ⟨_, h'⟩
    · rw [own, stands]
      exact h'
    · exact h'
  refine ⟨fun j user' invite' h => inv.read j user' invite' (flies _ _ _ h),
    fun j k user₁ invite₁ user₂ invite₂ h h' =>
      inv.account j k user₁ invite₁ user₂ invite₂ (flies _ _ _ h) (flies _ _ _ h'),
    fun j user' invite' h => ?_,
    fun user₁ invite₁ mem j user' invite' h =>
      inv.seated user₁ invite₁ mem j user' invite' (flies _ _ _ h),
    fun user' invite' mem v there same fresh => ?_, fun j user' invite' clock' h => ?_, inv.once⟩
  · rcases update_eq h with ⟨_, h⟩ | ⟨_, h⟩
    · cases h
    · exact inv.joined j user' invite' h
  · refine inv.due_update (fun _ _ joined => ?_) mem there same fresh
    rw [stands] at joined
    cases joined
  · rcases update_eq h with ⟨own, h⟩ | ⟨_, h⟩
    · cases h
      exact inv.accepted i user invite none stands
    · exact inv.accepted j user' invite' clock' h

end Rows

/-! ## Steps -/

/-- An invitation that creates a membership is open then, and was not expired at the clock
reading of the acceptance. -/
def CreatesInTime (e : OrgEvent ι) (log : List (OrgEvent ι)) : Prop :=
  ∀ user invite, creation e log = some (user, invite) →
    OrgRow.invitation invite ∈ e.pre.db.rows ∧ invite.accepted = false ∧
      ∃ n ∈ log, n.thread = e.thread ∧ ∃ t, clockReading n = some t ∧ t ≤ invite.expiresAt

/-- What the state of a thread tells of its events. -/
structure InvitationHistory (log : List (OrgEvent ι)) : Prop where
  inserted : ∀ e ∈ log, inserts e = true → (acceptance e.thread log).HasJoined
  fresh : ∀ j user invite clock, acceptance j log = .accepting user invite clock →
    invite.accepted = false
  clock : ∀ j user invite t, acceptance j log = .accepting user invite (some t) →
    ∃ n ∈ log, n.thread = j ∧ clockReading n = some t

/-- What the calls keep of the tables. -/
structure InvitationShared (w : OrgWorld ι) : Prop where
  sound : w.db.db.Sound orgLocks
  unique : Unique w.db.db
  idle : ∀ j, w.db.db.txn j = none
  rows : InvitationRows w.db.db.rows (fun j => acceptance j w.log) (creations w.log)
  history : InvitationHistory w.log
  inTime : Abides CreatesInTime w.log

omit [DecidableEq ι] in
/-- How a thread comes to accept: it did so before, it has found the invitation, or it has read
the clock. -/
theorem Acceptance.next_accepting {g : Acceptance} (e : OrgEvent ι) {user : ResolvedUser}
    {invite : OrganizationInvitation} {clock : Option Int}
    (eq : g.next e.op e.res = .accepting user invite clock) :
    g = .accepting user invite clock ∨ (clock = none ∧ invite.accepted = false) ∨
      (g = .accepting user invite none ∧ ∃ t, clock = some t ∧ clockReading e = some t) := by
  obtain ⟨i, tick, o, r, pre⟩ := e
  change g.next o r = _ at eq
  unfold Acceptance.next at eq
  split at eq
  · split at eq
    · cases eq
    · exact .inl eq
  · split at eq
    · split at eq
      · rename_i ok
        cases eq
        exact .inr (.inl ⟨rfl, ok.1⟩)
      · cases eq
    · exact .inl eq
  · split at eq
    · split at eq
      · cases eq
      · cases eq
        exact .inr (.inr ⟨rfl, _, rfl, rfl⟩)
    · exact .inl eq
  · split at eq
    · split at eq <;> cases eq
    · exact .inl eq
  · split at eq
    · split at eq <;> cases eq
    · exact .inl eq
  · exact .inl eq

variable {site : OrgSite} {i : ι} {w : OrgWorld ι} {s' : OrgStore ι} {o : OrgOp}
  {r : OrgSig.Res o} {m : OrgMoment}

/-- A step moves the stage of its own call only. -/
theorem acceptance_push :
    (fun j => acceptance j (w.push i o r s').log) =
      Function.update (fun j => acceptance j w.log) i ((acceptance i w.log).next o r) :=
  track_push

theorem acceptance_own :
    acceptance i (w.push i o r s').log = (acceptance i w.log).next o r :=
  track_own

theorem acceptance_other {j : ι} (ne : j ≠ i) :
    acceptance j (w.push i o r s').log = acceptance j w.log :=
  track_other ne

/-- The history after a step. -/
theorem InvitationHistory.push (history : InvitationHistory w.log)
    (joins : inserts (⟨i, w.tick, o, r, w.db⟩ : OrgEvent ι) = true →
      ((acceptance i w.log).next o r).HasJoined) :
    InvitationHistory (w.push i o r s').log := by
  refine ⟨fun e mem inserted => ?_, fun j user invite clock stands => ?_,
    fun j user invite t stands => ?_⟩
  · rcases List.mem_cons.mp mem with rfl | mem
    · rw [acceptance_own]
      exact joins inserted
    · by_cases own : e.thread = i
      · have joined := history.inserted e mem inserted
        rw [own] at joined ⊢
        rw [acceptance_own]
        exact joined.next o r
      · rw [acceptance_other own]
        exact history.inserted e mem inserted
  · by_cases own : j = i
    · subst own
      rw [acceptance_own] at stands
      rcases Acceptance.next_accepting ⟨j, w.tick, o, r, w.db⟩ stands with
        old | ⟨_, fresh⟩ | ⟨old, _⟩
      · exact history.fresh j user invite clock old
      · exact fresh
      · exact history.fresh j user invite none old
    · rw [acceptance_other own] at stands
      exact history.fresh j user invite clock stands
  · by_cases own : j = i
    · subst own
      rw [acceptance_own] at stands
      rcases Acceptance.next_accepting ⟨j, w.tick, o, r, w.db⟩ stands with
        old | ⟨none, _⟩ | ⟨_, t', eq, reading⟩
      · obtain ⟨n, mem, rest⟩ := history.clock j user invite t old
        exact ⟨n, List.mem_cons_of_mem _ mem, rest⟩
      · cases none
      · cases eq
        exact ⟨_, List.mem_cons_self, rfl, reading⟩
    · rw [acceptance_other own] at stands
      obtain ⟨n, mem, rest⟩ := history.clock j user invite t stands
      exact ⟨n, List.mem_cons_of_mem _ mem, rest⟩

/-- An event that inserts no membership. -/
theorem InvitationShared.push (shared : InvitationShared w)
    (done : execOrg site m i o w.db = some (r, s')) (txn : ∀ j, s'.db.txn j = none)
    (none : inserts (⟨i, w.tick, o, r, w.db⟩ : OrgEvent ι) = false)
    (rows : InvitationRows s'.db.rows
      (Function.update (fun j => acceptance j w.log) i ((acceptance i w.log).next o r))
      (creations w.log)) : InvitationShared (w.push i o r s') := by
  have nothing : creation (⟨i, w.tick, o, r, w.db⟩ : OrgEvent ι) w.log = Option.none := by
    unfold creation
    split
    · rw [none]
      rfl
    · rfl
  refine ⟨(exec_moves shared.sound done).1, exec_unique shared.sound shared.unique done, txn, ?_,
    shared.history.push fun inserted => ?_, ?_, shared.inTime⟩
  · rw [acceptance_push, World.push_log, creations, nothing]
    exact rows
  · rw [none] at inserted
    cases inserted
  · intro user invite created
    rw [nothing] at created
    cases created

/-- A read that leaves the thread where it is. -/
theorem invitations_stay (shared : InvitationShared w) (read : Reads o)
    (done : execOrg site m i o w.db = some (r, s'))
    (same : (acceptance i w.log).next o r = acceptance i w.log)
    (none : inserts (⟨i, w.tick, o, r, w.db⟩ : OrgEvent ι) = false) :
    InvitationShared (w.push i o r s') := by
  cases exec_read read done (shared.idle i)
  refine shared.push done shared.idle none ?_
  rw [same, Function.update_eq_self]
  exact shared.rows

/-- A read after which the thread is not in flight, and had no stamp to make. -/
theorem invitations_leave (shared : InvitationShared w) (read : Reads o)
    (done : execOrg site m i o w.db = some (r, s'))
    (left : ((acceptance i w.log).next o r).flight = none)
    (open_ : ∀ user invite, acceptance i w.log ≠ .joined user invite)
    (none : inserts (⟨i, w.tick, o, r, w.db⟩ : OrgEvent ι) = false) :
    InvitationShared (w.push i o r s') := by
  cases exec_read read done (shared.idle i)
  exact shared.push done shared.idle none (shared.rows.leave left open_)

/-- **The caller is looked up**. -/
theorem invitations_resolveCaller (shared : InvitationShared w) {userId : String}
    {r : Option (Option ResolvedUser)}
    (done : execOrg site m i (.resolveCaller userId) w.db = some (r, s')) :
    InvitationShared (w.push i (.resolveCaller userId) r s') := by
  rcases r with _ | _ | user
  · exact invitations_stay shared (by trivial) done rfl rfl
  · exact invitations_stay shared (by trivial) done rfl rfl
  · cases stands : acceptance i w.log with
    | idle =>
        refine invitations_leave shared (by trivial) done ?_ ?_ rfl
        · rw [stands]
          rfl
        · intro user' invite joined
          cases stands.symm.trans joined
    | _ =>
        refine invitations_stay shared (by trivial) done ?_ rfl
        rw [stands]
        rfl

/-- The clock is read. -/
theorem invitations_now (shared : InvitationShared w) {now : Int}
    (done : execOrg site m i .now w.db = some (now, s')) :
    InvitationShared (w.push i .now now s') := by
  cases stands : acceptance i w.log with
  | accepting user invite clock =>
      cases clock with
      | some t =>
          refine invitations_stay shared (by trivial) done ?_ rfl
          rw [stands]
          rfl
      | none =>
          by_cases late : invite.expiresAt < now
          · refine invitations_leave shared (by trivial) done ?_ ?_ rfl
            · rw [stands]
              simp only [Acceptance.next, late, if_true]
              rfl
            · intro user' invite' joined
              cases stands.symm.trans joined
          · cases exec_read (by trivial) done (shared.idle i)
            refine shared.push done shared.idle rfl ?_
            rw [stands]
            simp only [Acceptance.next, late, if_false]
            exact shared.rows.tick stands
  | _ =>
      refine invitations_stay shared (by trivial) done ?_ rfl
      rw [stands]
      rfl

/-- **The invitation is looked up**. -/
theorem invitations_lookUp (shared : InvitationShared w) {token : String}
    {r : Option (Option OrganizationInvitation)}
    (done : execOrg site m i (.query (.invitation token)) w.db = some (r, s'))
    (account : OneAccount ⟨i, w.tick, .query (.invitation token), r, w.db⟩ w.log) :
    InvitationShared (w.push i (.query (.invitation token)) r s') := by
  rcases r with _ | _ | invite
  · exact invitations_stay shared (by trivial) done rfl rfl
  · exact invitations_stay shared (by trivial) done rfl rfl
  cases stands : acceptance i w.log with
  | caller user =>
      by_cases opens : invite.accepted = false ∧ invite.email = normalizeEmail user.email
      · have there : OrgRow.invitation invite ∈ w.db.db.rows := by
          rcases exec_query done with ⟨bad, _⟩ | ⟨eq, _⟩
          · cases bad
          rw [TxnDb.view_of_none (shared.idle i)] at eq
          have found : (invitations.of w.db.db.rows).find? (fun v => v.token = token) =
              some invite := (Option.some.inj eq).symm
          exact invitations.mem_of.mp (List.mem_of_find?_eq_some found)
        have becomes : (Acceptance.caller user).next (.query (.invitation token))
            (some (some invite)) = .accepting user invite none := by
          simp only [Acceptance.next, opens, and_self, if_true]
        cases exec_read (by trivial) done (shared.idle i)
        refine shared.push done shared.idle rfl ?_
        rw [stands, becomes]
        exact shared.rows.find stands shared.unique.committed there opens.1
          (account user invite stands becomes)
      · refine invitations_leave shared (by trivial) done ?_ ?_ rfl
        · rw [stands]
          simp only [Acceptance.next, opens, if_false]
          rfl
        · intro user' invite' joined
          cases stands.symm.trans joined
  | _ =>
      refine invitations_stay shared (by trivial) done ?_ rfl
      rw [stands]
      rfl

/-- Outside a transaction, a failed statement after which the thread is not in flight. -/
theorem invitations_fail (shared : InvitationShared w) {statement : OrgStatement}
    (done : execOrg site m i (.statement statement) w.db = some (none, w.db.fail i))
    (left : ((acceptance i w.log).next (.statement statement) none).flight = none)
    (open_ : ∀ user invite, acceptance i w.log ≠ .joined user invite) :
    InvitationShared (w.push i (.statement statement) (none : Option Nat) (w.db.fail i)) := by
  have same := fail_of_none (shared.idle i)
  have nothing : inserts (⟨i, w.tick, .statement statement, none, w.db⟩ : OrgEvent ι) = false := by
    cases statement <;> rfl
  refine shared.push done ?_ nothing ?_
  · rw [same]
    exact shared.idle
  · rw [same]
    exact shared.rows.leave left open_

/-- **The seat is inserted**. -/
theorem invitations_insert (shared : InvitationShared w) {organizationId : Nat} {userId : Int32}
    {role : OrgRole} {r : Option Nat}
    (fits : (acceptance i w.log).Fits (.statement (.insertMember organizationId userId role)))
    (done : execOrg site m i (.statement (.insertMember organizationId userId role)) w.db =
      some (r, s')) :
    InvitationShared
      (w.push i (.statement (.insertMember organizationId userId role)) r s') := by
  obtain ⟨user, invite, clock, stands, late, rfl, rfl⟩ := fits
  rcases exec_statement done with ⟨rfl, rfl⟩ | ⟨n, changes, rfl, executed⟩
  · refine invitations_fail shared done ?_ ?_
    · rw [stands]
      rfl
    · intro user' invite' joined
      cases stands.symm.trans joined
  obtain ⟨eval, rows, txn⟩ := executed.direct (shared.idle i)
  have valid := executed.valid
  rw [TxnDb.view_of_none (shared.idle i)] at valid
  cases eval
  rw [applyAll_cons, applyAll_nil, Change.apply_insert] at rows
  have free : ¬ Seated w.db.db.rows invite.organizationId user.id := by
    intro seat
    obtain ⟨member, there, org, who⟩ := seat
    refine not_shares_of_valid valid List.mem_cons_self rfl there (fun eq => by cases eq)
      (k := .seat invite.organizationId user.id) ?_ ?_
    · rw [← org, ← who]
      exact List.mem_cons_of_mem _ List.mem_cons_self
    · exact List.mem_cons_of_mem _ List.mem_cons_self
  have becomes : (acceptance i w.log).next (.statement (.insertMember invite.organizationId user.id
      role)) (some w.db.db.serial) = .joined user invite := by
    rw [stands]
    rfl
  have created :
      creation (⟨i, w.tick, .statement (.insertMember invite.organizationId user.id role),
      some w.db.db.serial, w.db⟩ : OrgEvent ι) w.log = some (user, invite) := by
    simp only [creation, stands]
    rfl
  refine ⟨(exec_moves shared.sound done).1, exec_unique shared.sound shared.unique done, ?_, ?_,
    shared.history.push fun _ => ?_, ?_, shared.inTime⟩
  · intro j
    rw [World.push_db, txn]
    exact shared.idle j
  · rw [acceptance_push, becomes, World.push_db, rows, World.push_log, creations, created]
    exact shared.rows.join stands free rfl rfl shared.unique.committed
  · rw [becomes]
    trivial
  · intro user' invite' eq
    cases created.symm.trans eq
    obtain ⟨_, there⟩ := shared.rows.open_of_free stands free
    obtain ⟨n, mem, thread, reading⟩ := shared.history.clock i user invite clock stands
    exact ⟨there, shared.history.fresh i user invite _ stands, n, mem, thread, clock, reading, late⟩

/-- **The invitation is stamped**. -/
theorem invitations_stamp (shared : InvitationShared w) {id : Nat} {acceptedAt : Int}
    {r : Option Nat}
    (fits : (acceptance i w.log).Fits (.statement (.stampInvitation id acceptedAt)))
    (done : execOrg site m i (.statement (.stampInvitation id acceptedAt)) w.db = some (r, s'))
    (stamps : stampFails (.statement (.stampInvitation id acceptedAt)) r = false) :
    InvitationShared (w.push i (.statement (.stampInvitation id acceptedAt)) r s') := by
  obtain ⟨user, invite, stands, rfl⟩ := fits
  rcases exec_statement done with ⟨rfl, _⟩ | ⟨n, changes, rfl, executed⟩
  · cases stamps
  obtain ⟨eval, rows, txn⟩ := executed.direct (shared.idle i)
  refine shared.push done ?_ rfl ?_
  · intro j
    rw [txn]
    exact shared.idle j
  have becomes : (acceptance i w.log).next (.statement (.stampInvitation invite.id acceptedAt))
      (some n) = .stamped := by
    rw [stands]
    rfl
  rw [becomes, rows]
  have form := eval
  cases form
  have marked : ∀ v : OrganizationInvitation,
      ({ v with acceptedAt := some acceptedAt } : OrganizationInvitation).accepted = true :=
    fun v => decide_eq_true (of_decide_eq_false stamps)
  refine shared.rows.stamp stands (fun r other => mem_of_other_kind eval other) ?_ ?_
  · intro v mem
    rcases kept_or_put mem with ⟨there, kept⟩ | ⟨c, change, put⟩
    · by_cases same : v.id = invite.id
      · have change : ({ old := some (.invitation v), new := some (.invitation
            { v with acceptedAt := some acceptedAt }) } : OrgChange) ∈
            invitations.changes w.db.db.rows (fun v => decide (v.id = invite.id))
              fun v => some { v with acceptedAt := some acceptedAt } :=
          invitations.mem_changes.mpr ⟨v, there, decide_eq_true same, rfl⟩
        exact absurd rfl (kept _ change)
      · exact .inl ⟨same, there⟩
    · obtain ⟨v', _, selected, rfl⟩ := invitations.mem_changes.mp change
      cases put
      exact .inr ⟨of_decide_eq_true selected, marked v'⟩
  · intro v there
    by_cases same : v.id = invite.id
    · refine ⟨{ v with acceptedAt := some acceptedAt }, ?_, rfl, rfl, .inr (marked v)⟩
      have change : ({ old := some (.invitation v), new := some (.invitation
          { v with acceptedAt := some acceptedAt }) } : OrgChange) ∈
          invitations.changes w.db.db.rows (fun v => decide (v.id = invite.id))
            fun v => some { v with acceptedAt := some acceptedAt } :=
        invitations.mem_changes.mpr ⟨v, there, decide_eq_true same, rfl⟩
      -- the only change of a row with this number
      have only : ∀ c' ∈ invitations.changes w.db.db.rows (fun v => decide (v.id = invite.id))
          (fun v => some { v with acceptedAt := some acceptedAt }), c'.Touches (fun r =>
            ∃ v', r = .invitation v' ∧ v'.id = invite.id) → c' =
              { old := some (.invitation v), new := some (.invitation
                { v with acceptedAt := some acceptedAt }) } := by
        intro c' change' _
        obtain ⟨v', there', selected, rfl⟩ := invitations.mem_changes.mp change'
        rw [eq_of_invitation_id shared.unique.committed there' there
          ((of_decide_eq_true selected).trans same.symm)]
        rfl
      exact (mem_applyAll_same only change
        ⟨{ v with acceptedAt := some acceptedAt }, rfl, same⟩).mpr (.inr rfl)
    · refine ⟨v, mem_applyAll there ?_, rfl, rfl, .inl rfl⟩
      intro c change taken
      obtain ⟨v', _, selected, rfl⟩ := invitations.mem_changes.mp change
      cases taken
      exact same (of_decide_eq_true selected)

/-- A seat is removed. -/
theorem invitations_remove (shared : InvitationShared w) {organizationId : Nat} {userId : Int32}
    {r : Option Nat}
    (done : execOrg site m i (.statement (.deleteMember organizationId userId)) w.db =
      some (r, s'))
    (apart : RemovalApart ⟨i, w.tick, .statement (.deleteMember organizationId userId), r, w.db⟩
      w.log) :
    InvitationShared (w.push i (.statement (.deleteMember organizationId userId)) r s') := by
  have same : (acceptance i w.log).next (.statement (.deleteMember organizationId userId)) r =
      acceptance i w.log := rfl
  rcases exec_statement done with ⟨rfl, rfl⟩ | ⟨n, changes, rfl, executed⟩
  · refine shared.push done ?_ rfl ?_
    · rw [fail_of_none (shared.idle i)]
      exact shared.idle
    · rw [same, Function.update_eq_self, fail_of_none (shared.idle i)]
      exact shared.rows
  obtain ⟨eval, rows, txn⟩ := executed.direct (shared.idle i)
  refine shared.push done ?_ rfl ?_
  · intro j
    rw [txn]
    exact shared.idle j
  rw [same, Function.update_eq_self, rows]
  have form := eval
  cases form
  refine shared.rows.remove (fun r other => mem_of_other_kind eval other) ?_
  intro user invite mem flight seat
  obtain ⟨j, user', invite', flies, eq⟩ := flight
  obtain ⟨member, there, org, who⟩ := seat
  refine ⟨member, mem_applyAll there ?_, org, who⟩
  intro c change taken
  obtain ⟨member', _, selected, rfl⟩ := members.mem_changes.mp change
  cases taken
  have selected := of_decide_eq_true selected
  exact apart organizationId userId rfl user invite mem (org.symm.trans selected.1)
    (who.symm.trans selected.2) j user' invite' flies eq

/-- Every step that fits and is allowed. -/
theorem invitations_step :
    KeptByFitting (execOrg site) InvitationsApart Acceptance.next .idle Acceptance.Fits
      (fun _ o r => stampFails o r = false) (fun w : OrgWorld ι => InvitationShared w) := by
  intro w i o m r s' shared fits done apart
  refine ⟨apart.stamp, ?_⟩
  cases o with
  | resolveCaller userId => exact invitations_resolveCaller shared done
  | now => exact invitations_now shared done
  | query q =>
      cases q with
      | invitation token => exact invitations_lookUp shared done apart.account
      | _ => exact invitations_stay shared (by trivial) done rfl rfl
  | statement statement =>
      cases statement with
      | insertMember organizationId userId role => exact invitations_insert shared fits done
      | stampInvitation id acceptedAt => exact invitations_stamp shared fits done apart.stamp
      | deleteMember organizationId userId => exact invitations_remove shared done apart.removal
      | _ => exact fits.elim
  | liveUser userId => exact invitations_stay shared (by trivial) done rfl rfl
  | secureToken => exact invitations_stay shared (by trivial) done rfl rfl
  | clientScopes clientId => exact invitations_stay shared (by trivial) done rfl rfl
  | _ => exact fits.elim

/-! ## The programs -/

/-- An error is answered only by a thread that has inserted no membership. -/
def ErrorMeansNothing (a : OrgAnswer) (g : Acceptance) : Prop :=
  (∃ code detail, a = .error code detail) → ¬ g.HasJoined

/-- The program takes its steps in the order of the stages. -/
abbrev FollowsInvitations (p : OrgProg OrgAnswer) (g : Acceptance) : Prop :=
  p.Follows Acceptance.next Acceptance.Fits (fun _ o r => stampFails o r = false)
    ErrorMeansNothing g

/-- An acceptance that found its invitation follows the stages. -/
theorem joinByInvitation_follows (user : ResolvedUser) (invite : OrganizationInvitation) {t : Int}
    (late : t ≤ invite.expiresAt) :
    FollowsInvitations (OrgMemberService.joinByInvitation user invite)
      (.accepting user invite (some t)) := by
  refine ⟨⟨user, invite, t, rfl, late, rfl, rfl⟩, fun member _ => ?_⟩
  cases member with
  | none => exact fun _ joined => joined
  | some id =>
      refine ⟨trivial, fun now _ => ⟨⟨user, invite, rfl, rfl⟩, fun stamped possible => ?_⟩⟩
      cases stamped with
      | none => cases possible
      | some n =>
          intro failed
          obtain ⟨_, _, eq⟩ := failed
          cases eq

/-- So does an acceptance as a whole. -/
theorem acceptInvitation_follows (site : OrgSite) (userId token : String) :
    FollowsInvitations (OrgMemberService.acceptInvitation site userId token) .idle := by
  unfold OrgMemberService.acceptInvitation
  split
  · exact fun _ joined => joined
  refine follows_resolveCaller trivial (fun r _ _ _ joined => ?_) fun user _ => ?_
  · rcases r with _ | _ | user <;> exact joined
  split
  · exact fun _ joined => joined
  split
  · exact fun _ joined => joined
  refine ⟨trivial, fun r _ => ?_⟩
  rcases r with _ | _ | invite
  · exact fun _ joined => joined
  · exact fun _ joined => joined
  change FollowsInvitations (OrgMemberService.acceptRead user invite)
    (if invite.accepted = false ∧ invite.email = normalizeEmail user.email then
      .accepting user invite none else .refused)
  unfold OrgMemberService.acceptRead
  by_cases opens : invite.accepted = false ∧ invite.email = normalizeEmail user.email
  · rw [if_pos opens, if_neg (by simp [opens.1]), if_neg (by simp [opens.2])]
    refine ⟨trivial, fun now _ => ?_⟩
    change FollowsInvitations (if invite.expiresAt < now then _ else _)
      (if invite.expiresAt < now then .refused else .accepting user invite (some now))
    split
    · exact fun _ joined => joined
    · rename_i inTime
      exact joinByInvitation_follows user invite (Int.not_lt.mp inTime)
  · rw [if_neg opens]
    split
    · exact fun _ joined => joined
    split
    · exact fun _ joined => joined
    · rename_i accepted same
      exact absurd ⟨by simpa using accepted, not_not.mp same⟩ opens

/-- A removal has no stage to follow. -/
theorem follows_removal {p : OrgProg OrgAnswer} (only : p.Only Removes) :
    FollowsInvitations p .idle := by
  refine (only.keeps (K := fun g => g = .idle ∨ ∃ user, g = .caller user)
    (fun g o _ removes => ?_) (fun g o r outside removes => ?_) (.inl rfl)).mono
    fun _ g outside _ joined => ?_
  · cases o with
    | statement s => cases s <;> first | exact removes.elim | trivial
    | _ => first | exact removes.elim | trivial
  · cases o with
    | resolveCaller userId =>
        rcases r with _ | _ | user
        · exact outside
        · exact outside
        · rcases outside with rfl | ⟨user', rfl⟩
          · exact .inr ⟨user, rfl⟩
          · exact .inr ⟨user', rfl⟩
    | statement s => cases s <;> first | exact removes.elim | exact outside
    | query q => cases q <;> first | exact removes.elim | exact outside
    | _ => exact removes.elim
  · rcases outside with rfl | ⟨user, rfl⟩
    · exact joined
    · exact joined

/-- **Every call follows the stages**. -/
theorem invitationCall_follows (site : OrgSite) (call : InvitationCall) :
    FollowsInvitations (call.call.prog site) .idle := by
  cases call with
  | acceptInvitation userId token => exact acceptInvitation_follows site userId token
  | removeMember userId slug target =>
      exact follows_removal (removes_removeMember userId slug target)
  | adminRemoveMember slug target => exact follows_removal (removes_adminRemoveMember slug target)

/-- Every invitation creates at most one membership, and only while it is open and not expired,
and a thread that answers an error has created none. -/
structure SingleUse (c : OrgPool ι) : Prop where
  once : (creations c.store.log).Pairwise fun a b => a.2.id ≠ b.2.id
  inTime : Abides CreatesInTime c.store.log
  honest : ∀ i code detail, c.answer? i = some (.error code detail) →
    ∀ e ∈ c.store.log, e.thread = i → inserts e = false

end Events

/-- Invitations are used once in every run in which no stamp fails, acceptances of one invitation
by different accounts do not overlap, and nobody who has joined by an invitation is removed while
an acceptance of it is in flight. -/
theorem invitations_single_use {ι : Type} [DecidableEq ι] (site : OrgSite) (tables : OrgTables)
    (calls : ι → InvitationCall) (sched : List (ι × OrgMoment))
    (apart : Abides InvitationsApart
      (runOrg site (fun i => (calls i).call) tables sched).store.log) :
    SingleUse (runOrg site (fun i => (calls i).call) tables sched) := by
  have start : InvitationShared (startOrg site (fun i => (calls i).call) tables).store := by
    refine ⟨sound_start tables, unique_start tables, fun _ => rfl,
      ⟨?_, ?_, ?_, ?_, ?_, ?_, List.Pairwise.nil⟩, ⟨?_, ?_, ?_⟩, trivial⟩
    · intro j user invite flies
      cases flies
    · intro j k user invite user' invite' flies
      cases flies
    · intro j user invite stands
      cases stands
    · intro user invite mem
      cases mem
    · intro user invite mem
      cases mem
    · intro j user invite clock stands
      cases stands
    · intro e mem
      cases mem
    · intro j user invite clock stands
      cases stands
    · intro j user invite t stands
      cases stands
  obtain ⟨shared, answers⟩ := Pool.play_follows invitations_step start rfl
    (fun i => invitationCall_follows site (calls i)) sched apart
  refine ⟨shared.rows.once, shared.inTime, fun i code detail answered e mem thread => ?_⟩
  cases inserted : inserts e with
  | false => rfl
  | true =>
      have joined := shared.history.inserted e mem inserted
      rw [thread] at joined
      exact absurd joined (answers i _ answered ⟨code, detail, rfl⟩)

/-! ## Runs -/

section Sample

/-- The user who was invited. -/
def ann : ResolvedUser := { id := 7, email := "ann@example.org", emailVerified := true }

/-- One known user. -/
def annSite : OrgSite where
  users _ := some ann
  hashtext _ := 0
  hashToken := id

/-- Her invitation. -/
def annInvite : OrganizationInvitation :=
  { id := 2, organizationId := 1, email := "ann@example.org", role := .member, token := "secret"
    expiresAt := 1000 }

/-- An organization and an open invitation to it. -/
def invitedTables : OrgTables where
  rows := [.organization { id := 1, slug := "acme" }, .invitation annInvite]
  serial := 3
  unique := by
    intro r mem r' mem' shares
    obtain ⟨ne, k, key, key'⟩ := shares
    simp only [List.mem_cons, List.not_mem_nil, or_false] at mem mem'
    rcases mem with rfl | rfl <;> rcases mem' with rfl | rfl
    · exact ne rfl
    · revert key key'
      simp [OrgRow.keys, annInvite]
      grind
    · revert key key'
      simp [OrgRow.keys, annInvite]
      grind
    · exact ne rfl

/-- Two acceptances, and a removal of the invited user. -/
inductive Guest where
  | first
  | second
  | removal
deriving DecidableEq

/-- Two acceptances of one invitation, and a removal. -/
def guests : Guest → InvitationCall
  | .first => .acceptInvitation "7" "secret"
  | .second => .acceptInvitation "7" "secret"
  | .removal => .adminRemoveMember "acme" (some 7)

/-- A moment before the invitation expires. -/
def early : OrgMoment where
  now := 5

/-- Both have looked the invitation up when the first of them joins and is removed. -/
def twiceSched : List (Guest × OrgMoment) :=
  List.replicate 3 (Guest.first, early) ++ List.replicate 3 (Guest.second, early) ++
    [(Guest.first, early)] ++
    List.replicate 3 (Guest.removal, early) ++ [(Guest.second, early)]

/-- The stamp fails. -/
def unstampedSched : List (Guest × OrgMoment) :=
  List.replicate 5 (Guest.first, early) ++ [(Guest.first, { early with fault := true })]

theorem invitation_used_twice :
    ¬ SingleUse (runOrg annSite (fun i => (guests i).call) invitedTables twiceSched) ∧
    ¬ SingleUse (runOrg annSite (fun i => (guests i).call) invitedTables unstampedSched) := by
  constructor
  · intro single
    have two : (creations (runOrg annSite (fun i => (guests i).call) invitedTables
        twiceSched).store.log).map (·.2.id) = [2, 2] := by
      decide +kernel
    have apart := List.pairwise_map.mpr single.once
    rw [two] at apart
    revert apart
    decide
  · intro single
    have answered : (runOrg annSite (fun i => (guests i).call) invitedTables
        unstampedSched).answer? .first =
        some (.error "DB_QUERY_ERROR" "accept invite: stamp failed") := by
      decide +kernel
    have inserted : (runOrg annSite (fun i => (guests i).call) invitedTables
        unstampedSched).store.log.any (fun e => e.thread = .first && inserts e) = true := by
      decide +kernel
    obtain ⟨e, mem, both⟩ := List.any_eq_true.mp inserted
    rw [Bool.and_eq_true] at both
    have none := single.honest .first _ _ answered e mem (of_decide_eq_true both.1)
    rw [both.2] at none
    cases none

/-- No acceptance is in flight, or the event is neither a look-up nor a removal. -/
def apartCheck : List (OrgEvent Bool) → Bool
  | [] => true
  | e :: log =>
    !stampFails e.op e.res &&
      ((acceptance true log).flight.isNone && (acceptance false log).flight.isNone ||
        (removes e.op e.res).isNone && !(acceptance e.thread log matches .caller _)) &&
      apartCheck log

theorem apart_of_check {log : List (OrgEvent Bool)} (ok : apartCheck log = true) :
    Abides InvitationsApart log := by
  induction log with
  | nil => trivial
  | cons e log ih =>
      simp only [apartCheck, Bool.and_eq_true, Bool.or_eq_true, Bool.not_eq_true',
        Option.isNone_iff_eq_none] at ok
      obtain ⟨⟨stamp, idle | ⟨removal, caller⟩⟩, rest⟩ := ok
      · have alone : ∀ j, (acceptance j log).flight = none := by
          intro j
          cases j
          · exact idle.2
          · exact idle.1
        refine ⟨⟨fun _ _ _ _ j _ _ flies => ?_, stamp, fun _ _ _ _ _ _ _ _ j _ _ flies => ?_⟩,
          ih rest⟩
        · cases (alone j).symm.trans flies
        · cases (alone j).symm.trans flies
      · refine ⟨⟨fun user _ stands => ?_, stamp, fun _ _ removed => ?_⟩, ih rest⟩
        · rw [stands] at caller
          cases caller
        · cases removal.symm.trans removed

/-- An acceptance, and then a removal. -/
def joinAndLeave : Bool → InvitationCall
  | true => .acceptInvitation "7" "secret"
  | false => .adminRemoveMember "acme" (some 7)

/-- One acceptance runs to its end, and then the removal. -/
def joinAndLeaveSched : List (Bool × OrgMoment) :=
  List.replicate 6 (true, early) ++ List.replicate 3 (false, early)

theorem invitation_used_once :
    SingleUse
      (runOrg annSite (fun i => (joinAndLeave i).call) invitedTables joinAndLeaveSched) := by
  have single := @invitations_single_use Bool _ annSite invitedTables joinAndLeave joinAndLeaveSched
  have ok : apartCheck (runOrg annSite (fun i => (joinAndLeave i).call) invitedTables
      joinAndLeaveSched).store.log = true := by
    decide +kernel
  exact single (apart_of_check ok)

end Sample

end Fulla
