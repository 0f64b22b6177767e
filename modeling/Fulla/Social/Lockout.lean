import Fulla.Social.OneLink

/-!
# Lockout by unlinking

A user without a password and without a passkey must keep a link.  The call that removes the
only link it has read is refused; a call that has read several removes one and then looks
again.  Calls that run at the same time can remove all links between them, and then the one
that removes the last of them looks after that.
-/

namespace Fulla

open Conc

/-- No usable password and no passkey. -/
def NoOtherCredential (s : SocialStore) (userId : Int32) : Prop :=
  s.usablePassword userId = false ∧ s.passkeys userId = []

/-- The user cannot sign in any more. -/
def LockedOut (s : SocialStore) (userId : Int32) : Prop :=
  s.links userId = [] ∧ NoOtherCredential s userId

/-- The accounts have the same passwords and passkeys. -/
def SameAccounts (s s' : SocialStore) : Prop :=
  s'.users = s.users ∧ s'.credentials = s.credentials

theorem SameAccounts.trans {s₁ s₂ s₃ : SocialStore} (first : SameAccounts s₁ s₂)
    (then_ : SameAccounts s₂ s₃) : SameAccounts s₁ s₃ :=
  ⟨then_.1.trans first.1, then_.2.trans first.2⟩

theorem SameAccounts.noOtherCredential {s s' : SocialStore} (same : SameAccounts s s')
    {userId : Int32} : NoOtherCredential s' userId ↔ NoOtherCredential s userId := by
  simp only [NoOtherCredential, SocialStore.usablePassword, SocialStore.passkeys, same.1, same.2]

/-- No call changes a password or a passkey. -/
theorem execSocialOp_sameAccounts (m : SocialMoment) (s : SocialStore) (o : SocialOp) :
    SameAccounts s (execSocialOp m s o).2 := by
  cases o <;> simp only [execSocialOp] <;> repeat' split
  all_goals exact ⟨rfl, rfl⟩

/-! ## Where an unlink stands -/

/-- How far a call has come with its removal. -/
inductive Unlinking where
  | idle
  /-- The links were read; there were so many. -/
  | listed (count : Nat)
  /-- One of several links is removed, and the links are to be read again. -/
  | removed
  | noLinks
  | noPassword
  | observed
  | closed
deriving DecidableEq, Repr

namespace Unlinking

def next (g : Unlinking) : (o : SocialOp) → SocialSig.Res o → Unlinking
  | .listForUser _, some entries =>
    match g with
    | idle => listed entries.length
    | removed => if entries = [] then noLinks else closed
    | g => g
  | .deleteMappings _ _, some count =>
    match g with
    | listed original => if count > 0 ∧ 2 ≤ original then removed else closed
    | g => g
  | .findUsablePassword _, some false =>
    match g with
    | noLinks => noPassword
    | g => g
  | .findCredentials _, some [] =>
    match g with
    | noPassword => observed
    | g => g
  | _, _ => g

/-- A removal is going to be observed if it was the last. -/
def Watching : Unlinking → Prop
  | removed => True
  | noLinks => True
  | noPassword => True
  | observed => True
  | _ => False

/-- All operations are for the user, and a delete follows the sight of several links. -/
def Fits (userId : Int32) (g : Unlinking) : SocialOp → Prop
  | .listForUser reader => reader = userId
  | .deleteMappings _ owner => owner = userId ∧ ∃ count, g = listed count ∧ 2 ≤ count
  | .findUsablePassword reader => reader = userId
  | .findCredentials reader => reader = userId
  | _ => False

/-- What a user without another credential is answered when no read fails. -/
def Answers (_ : Unlinking) : (o : SocialOp) → SocialSig.Res o → Prop
  | .listForUser _, entries => entries ≠ none
  | .findUsablePassword _, usable => usable = some false
  | .findCredentials _, found => found = some []
  | _, _ => True

end Unlinking

section Events

variable {ι : Type} [DecidableEq ι]

/-- The stage of a call, read off the log. -/
def unlinking (i : ι) (log : List (SocialEvent ι)) : Unlinking :=
  track Unlinking.next .idle i log

/-- A read that fails. -/
def readFails : SocialEvent ι → Bool
  | ⟨_, _, .listForUser _, none, _⟩ => true
  | ⟨_, _, .findUsablePassword _, none, _⟩ => true
  | ⟨_, _, .findCredentials _, none, _⟩ => true
  | _ => false

/-- The condition on a step: no read fails. -/
def ReadSucceeds (e : SocialEvent ι) (_ : List (SocialEvent ι)) : Prop :=
  readFails e = false

instance (e : SocialEvent ι) (log : List (SocialEvent ι)) : Decidable (ReadSucceeds e log) :=
  inferInstanceAs (Decidable (_ = _))

/-- The user has no other credential, and whoever has removed the last link is still to look
again or has seen it. -/
structure Watched (userId : Int32) (w : SocialWorld ι) : Prop where
  alone : NoOtherCredential w.db userId
  watcher : w.db.links userId = [] → ∃ j, (unlinking j w.log).Watching

variable {userId : Int32} {w : SocialWorld ι} {i j : ι} {o : SocialOp} {r : SocialSig.Res o}
  {m : SocialMoment} {s : SocialStore}

/-- A step that leaves the rows, of a thread that goes on watching if it was. -/
theorem Watched.read (watched : Watched userId w) (links : s.links userId = w.db.links userId)
    (alone : NoOtherCredential s userId)
    (goes : w.db.links userId = [] → (unlinking i w.log).Watching →
      ((unlinking i w.log).next o r).Watching) : Watched userId (w.push i o r s) := by
  refine ⟨alone, fun none => ?_⟩
  rw [World.push_db, links] at none
  obtain ⟨j, watching⟩ := watched.watcher none
  refine ⟨j, ?_⟩
  by_cases own : j = i
  · subst own
    rw [unlinking, track_own]
    exact goes none watching
  · rw [unlinking, track_other own]
    exact watching

/-- The invariant after a step whose read succeeds. -/
theorem Watched.step (watched : Watched userId w) (fits : (unlinking i w.log).Fits userId o)
    (done : execSocial m i o w.db = some (r, s))
    (succeeds : ReadSucceeds ⟨i, w.tick, o, r, w.db⟩ w.log) :
    (unlinking i w.log).Answers o r ∧ Watched userId (w.push i o r s) := by
  simp only [execSocial, Option.some.injEq, Prod.mk.injEq] at done
  obtain ⟨rfl, rfl⟩ := done
  cases o with
  | listForUser reader =>
      obtain rfl : reader = userId := fits
      cases fault : m.fault with
      | true =>
          simp only [execSocialOp, fault, if_true] at succeeds
          cases succeeds
      | false =>
          simp only [execSocialOp, fault, Bool.false_eq_true, if_false]
          refine ⟨by simp [Unlinking.Answers], watched.read rfl watched.alone ?_⟩
          intro none watching
          rw [none, List.map_nil]
          cases at_ : unlinking i w.log <;> rw [at_] at watching <;> trivial
  | deleteMappings provider owner =>
      obtain ⟨rfl, count, at_, several⟩ := fits
      refine ⟨trivial, ?_⟩
      cases fault : m.fault with
      | true =>
          simp only [execSocialOp, fault, if_true]
          exact watched.read rfl watched.alone fun _ watching => watching
      | false =>
          simp only [execSocialOp, fault, Bool.false_eq_true, if_false]
          by_cases some_ : 0 < w.db.mappings.countP fun r =>
              r.provider = provider ∧ r.internalUserId = owner
          · refine ⟨watched.alone, fun _ => ⟨i, ?_⟩⟩
            rw [unlinking, track_own]
            change ((unlinking i w.log).next _ _).Watching
            rw [at_]
            simp only [Unlinking.next]
            rw [if_pos ⟨some_, several⟩]
            trivial
          · have kept : w.db.mappings.filter (fun r =>
                ¬ (r.provider = provider ∧ r.internalUserId = owner)) = w.db.mappings := by
              refine List.filter_eq_self.mpr fun r mem => ?_
              have none := List.countP_eq_zero.mp (Nat.eq_zero_of_not_pos some_) r mem
              simpa [imp_iff_not_or] using none
            refine watched.read ?_ watched.alone ?_
            · simp only [SocialStore.links, kept]
            · intro _ watching
              rw [at_] at watching
              exact watching.elim
  | findUsablePassword reader =>
      obtain rfl : reader = userId := fits
      cases fault : m.fault with
      | true =>
          simp only [execSocialOp, fault, if_true] at succeeds
          cases succeeds
      | false =>
          simp only [execSocialOp, fault, Bool.false_eq_true, if_false, watched.alone.1]
          refine ⟨rfl, watched.read rfl watched.alone fun _ watching => ?_⟩
          cases at_ : unlinking i w.log <;> rw [at_] at watching <;> trivial
  | findCredentials reader =>
      obtain rfl : reader = userId := fits
      cases fault : m.fault with
      | true =>
          simp only [execSocialOp, fault, if_true] at succeeds
          cases succeeds
      | false =>
          simp only [execSocialOp, fault, Bool.false_eq_true, if_false, watched.alone.2]
          refine ⟨rfl, watched.read rfl watched.alone fun _ watching => ?_⟩
          cases at_ : unlinking i w.log <;> rw [at_] at watching <;> trivial
  | _ => exact fits.elim

end Events

/-! ## The calls -/

section Calls

open SocialLinkService PostgresSocialAccountRepository

variable {svc : SocialLinkService} {userId : Int32}

/-- What an unlink of a user without another credential does and answers. -/
abbrev FollowsGuard {α : Type} (userId : Int32) (p : SocialProg α) (Q : α → Unlinking → Prop)
    (g : Unlinking) : Prop :=
  p.Follows Unlinking.next (Unlinking.Fits userId) Unlinking.Answers Q g

/-- An answer that says so if the thread has seen the user without links. -/
def Reports (a : SocialLinkOpResult) (g : Unlinking) : Prop :=
  g.Watching → a.status = .ok ∧ a.lockoutRiskObserved = true

/-- Reading the passkeys follows the stages. -/
theorem follows_listCredentials (g : Unlinking) :
    FollowsGuard userId (listCredentials userId) (fun creds g' => creds = [] ∧
      (g = .noPassword → g' = .observed) ∧ (g ≠ .noPassword → g' = g)) g := by
  refine ⟨rfl, fun found none => ?_⟩
  obtain rfl : found = some [] := none
  refine ⟨rfl, fun at_ => ?_, fun other => ?_⟩
  · rw [at_]
    rfl
  · cases g <;> first | rfl | exact absurd rfl other

/-- So does the second look after the deletion. -/
theorem follows_recheck (wired : svc.webAuthnRepo = true) :
    FollowsGuard userId (svc.recheck userId)
      (fun risk g => g.Watching → risk = true) .removed := by
  refine ⟨rfl, fun remaining succeeds => ?_⟩
  cases remaining with
  | none => exact absurd rfl succeeds
  | some remaining =>
      change FollowsGuard userId (if remaining ≠ [] then _ else _) _
        (if remaining = [] then .noLinks else .closed)
      by_cases none : remaining = []
      · rw [if_pos none, if_neg (not_not.mpr none)]
        refine ⟨rfl, fun usable unusable => ?_⟩
        obtain rfl : usable = some false := unusable
        refine Prog.Follows.ite (fun off => ?_) fun _ => ?_
        · rw [wired] at off
          cases off
        · refine (follows_listCredentials .noPassword).bind fun creds g' seen => ?_
          exact fun _ => by rw [seen.1]; rfl
      · rw [if_neg none, if_pos none]
        exact fun watching => watching.elim

/-- So does the deletion. -/
theorem follows_deleteLink (provider : String) {count : Nat} (several : 2 ≤ count) :
    FollowsGuard userId (deleteLink provider userId)
      (fun outcome g => outcome = .deleted ∧ g = .removed ∨ outcome ≠ .deleted ∧ ¬ g.Watching)
      (.listed count) := by
  refine ⟨⟨rfl, count, rfl, several⟩, fun gone _ => ?_⟩
  cases gone with
  | none => exact .inr ⟨by decide, id⟩
  | some gone =>
      by_cases some_ : gone > 0
      · refine .inl ⟨if_pos some_, if_pos ⟨some_, several⟩⟩
      · refine .inr ⟨fun same => ?_, ?_⟩
        · rw [if_neg some_] at same
          cases same
        · simp only [Unlinking.next]
          rw [if_neg fun both => some_ both.1]
          exact id

/-- So does the deletion with both looks. -/
theorem follows_doDelete (wired : svc.webAuthnRepo = true) (provider subject : String)
    {count : Nat} (several : 2 ≤ count) :
    FollowsGuard userId (svc.doDelete provider userId subject count) Reports (.listed count) := by
  refine (follows_deleteLink provider several).bind fun outcome g after => ?_
  rcases after with ⟨rfl, rfl⟩ | ⟨other, unwatched⟩
  · refine Prog.Follows.ite (fun few => absurd several (Nat.not_le.mpr few)) fun _ => ?_
    refine (follows_recheck wired).bind fun risk g' seen watching => ?_
    exact ⟨rfl, seen watching⟩
  · cases outcome with
    | deleted => exact absurd rfl other
    | _ => exact fun watching => absurd watching unwatched

theorem follows_listForUser :
    FollowsGuard userId (listForUser userId)
      (fun entries g => ∃ read, entries = some read ∧ g = .listed read.length) .idle := by
  refine ⟨rfl, fun entries succeeds => ?_⟩
  cases entries with
  | none => exact absurd rfl succeeds
  | some entries => exact ⟨entries, rfl, rfl⟩

/-- **So does the removal of a link**. -/
theorem follows_unlinkAccount (wired : svc.webAuthnRepo = true) (provider : String) :
    FollowsGuard userId (svc.unlinkAccount provider userId) Reports .idle := by
  refine Prog.Follows.ite (fun _ => fun watching => watching.elim) fun _ => ?_
  refine Prog.Follows.ite (fun _ => fun watching => watching.elim) fun _ => ?_
  refine follows_listForUser.bind fun entries g read => ?_
  obtain ⟨entries, rfl, rfl⟩ := read
  dsimp only
  split
  · exact fun watching => watching.elim
  · rename_i target found
    refine Prog.Follows.ite (fun single => ?_) fun several => ?_
    · refine ⟨rfl, fun usable unusable => ?_⟩
      obtain rfl : usable = some false := unusable
      refine Prog.Follows.ite (fun _ => fun watching => watching.elim) fun _ => ?_
      refine (follows_listCredentials (.listed entries.length)).bind fun creds g' seen => ?_
      obtain ⟨rfl, -, same⟩ := seen
      obtain rfl := same fun at_ => by cases at_
      exact Prog.Follows.ite (fun _ => fun watching => watching.elim) fun some_ => absurd rfl some_
    · have some_ : 0 < entries.length := List.length_pos_of_mem (List.mem_of_find?_eq_some found)
      exact follows_doDelete wired provider target.subject (by omega)

end Calls

/-! ## Calls in turn -/

/-- Every step has a moment of its own. -/
def execInTurn (moments : Nat → SocialMoment) (n : Nat) : Handler SocialSig SocialStore :=
  fun o s => ((execSocialOp (moments n) s o).1,
    { (execSocialOp (moments n) s o).2 with clock := s.clock + (moments n).elapsed })

/-- One call after the other, each run to its end. -/
def unlinkInTurn (svc : SocialLinkService) (userId : Int32) (moments : Nat → SocialMoment) :
    List String → SocialWorld Unit → SocialWorld Unit
  | [], w => w
  | provider :: providers, w =>
    unlinkInTurn svc userId moments providers
      ((svc.unlinkAccount provider userId).run (World.handler (execInTurn moments) ()) w).2

section InTurn

open SocialLinkService PostgresSocialAccountRepository

variable {svc : SocialLinkService} {userId : Int32} {moments : Nat → SocialMoment}
  {w : SocialWorld Unit}

/-- The user has a link, at most one for each provider, and no other credential. -/
structure Linked (s : SocialStore) (userId : Int32) : Prop where
  some_ : s.links userId ≠ []
  one : ((s.links userId).map SubjectMapping.provider).Nodup
  alone : NoOtherCredential s userId

/-- The queries of an unlink. -/
def QueriesOnly : SocialOp → Prop
  | .listForUser _ => True
  | .findUsablePassword _ => True
  | .findCredentials _ => True
  | _ => False

theorem Linked.query {o : SocialOp} (query : QueriesOnly o) {n : Nat} {s : SocialStore}
    (linked : Linked s userId) : Linked (execInTurn moments n o s).2 userId := by
  obtain ⟨some_, one, alone⟩ := linked
  cases o with
  | listForUser reader =>
      cases fault : (moments n).fault <;> simp only [execInTurn, execSocialOp, fault] <;>
        exact ⟨some_, one, alone⟩
  | findUsablePassword reader =>
      cases fault : (moments n).fault <;> simp only [execInTurn, execSocialOp, fault] <;>
        exact ⟨some_, one, alone⟩
  | findCredentials reader =>
      cases fault : (moments n).fault <;> simp only [execInTurn, execSocialOp, fault] <;>
        exact ⟨some_, one, alone⟩
  | _ => exact query.elim

/-- What a program establishes when it runs alone. -/
abbrev SatInTurn {α : Type} (moments : Nat → SocialMoment) (w : SocialWorld Unit)
    (p : SocialProg α) (Q : α → SocialWorld Unit → Prop) : Prop :=
  p.Sat (World.handler (execInTurn moments) ()) w Q

/-- What reading the links establishes. -/
theorem sat_listForUser (linked : Linked w.db userId) :
    SatInTurn moments w (listForUser userId) fun entries w' => Linked w'.db userId ∧
      ∀ read, entries = some read → read.length = (w'.db.links userId).length := by
  refine ⟨linked.query (o := .listForUser userId) trivial, ?_⟩
  intro read same
  change (execSocialOp (moments w.tick) w.db (.listForUser userId)).1 = some read at same
  change read.length =
    ((execInTurn moments w.tick (.listForUser userId) w.db).2.links userId).length
  cases fault : (moments w.tick).fault with
  | true =>
      simp only [execSocialOp, fault, if_true] at same
      cases same
  | false =>
      simp only [execSocialOp, fault, Bool.false_eq_true, if_false, Option.some.injEq] at same
      rw [← same, List.length_map]
      simp only [execInTurn, execSocialOp, fault, Bool.false_eq_true, if_false]
      rfl

theorem sat_userHasUsablePassword (linked : Linked w.db userId) :
    SatInTurn moments w (userHasUsablePassword userId) fun usable w' =>
      Linked w'.db userId ∧ usable ≠ some true := by
  refine ⟨linked.query (o := .findUsablePassword userId) trivial, ?_⟩
  change (execSocialOp (moments w.tick) w.db (.findUsablePassword userId)).1 ≠ some true
  cases fault : (moments w.tick).fault <;> simp [execSocialOp, fault, linked.alone.1]

theorem sat_listCredentials (linked : Linked w.db userId) :
    SatInTurn moments w (listCredentials userId) fun creds w' =>
      Linked w'.db userId ∧ creds = [] := by
  have found : SatInTurn moments w (social (.findCredentials userId)) fun found w' =>
      Linked w'.db userId ∧ (found = none ∨ found = some []) := by
    refine ⟨linked.query (o := .findCredentials userId) trivial, ?_⟩
    change (execSocialOp (moments w.tick) w.db (.findCredentials userId)).1 = none ∨
      (execSocialOp (moments w.tick) w.db (.findCredentials userId)).1 = some []
    cases fault : (moments w.tick).fault <;> simp [execSocialOp, fault, linked.alone.2]
  refine found.bind fun found w' after => ?_
  rcases after with ⟨linked', rfl | rfl⟩
  · exact ⟨linked', rfl⟩
  · exact ⟨linked', rfl⟩

/-- Of several links for different providers one is left. -/
theorem Linked.delete {s s' : SocialStore} (linked : Linked s userId)
    (several : 2 ≤ (s.links userId).length) (alone : NoOtherCredential s' userId)
    {provider : String}
    (rows : s'.mappings = s.mappings.filter fun r =>
      ¬ (r.provider = provider ∧ r.internalUserId = userId)) : Linked s' userId := by
  have links : s'.links userId = (s.links userId).filter fun r => r.provider ≠ provider := by
    simp only [SocialStore.links, rows, List.filter_filter]
    refine List.filter_congr fun r _ => ?_
    by_cases same : r.internalUserId = userId <;> simp [same, Bool.and_comm]
  refine ⟨?_, ?_, alone⟩
  · intro none
    rw [links, List.filter_eq_nil_iff] at none
    have all : ∀ p ∈ (s.links userId).map SubjectMapping.provider, p = provider := by
      intro p mem
      obtain ⟨r, stored, rfl⟩ := List.mem_map.mp mem
      simpa using none r stored
    have one := linked.one
    rw [List.eq_replicate_of_mem all, List.nodup_replicate, List.length_map] at one
    omega
  · rw [links]
    exact linked.one.sublist (List.filter_sublist.map _)

theorem sat_doDelete (linked : Linked w.db userId) (several : 2 ≤ (w.db.links userId).length)
    (provider subject : String) (count : Nat) :
    SatInTurn moments w (svc.doDelete provider userId subject count) fun _ w' =>
      Linked w'.db userId := by
  have deleted : SatInTurn moments w (deleteLink provider userId) fun _ w' =>
      Linked w'.db userId := by
    refine Prog.Sat.bind (R := fun _ w' => Linked w'.db userId) ?_ fun gone w' linked' => ?_
    · change Linked (execInTurn moments w.tick (.deleteMappings provider userId) w.db).2 userId
      cases fault : (moments w.tick).fault with
      | true =>
          simp only [execInTurn, execSocialOp, fault, if_true]
          exact ⟨linked.some_, linked.one, linked.alone⟩
      | false =>
          simp only [execInTurn, execSocialOp, fault, Bool.false_eq_true, if_false]
          exact linked.delete several linked.alone rfl
    · cases gone <;> exact linked'
  refine deleted.bind fun outcome w' linked' => ?_
  cases outcome with
  | deleted =>
      dsimp only
      split
      · exact linked'
      · have only : (svc.recheck userId).Only QueriesOnly := recheck_only trivial trivial trivial
        have kept : SatInTurn moments w' (svc.recheck userId) fun _ w' => Linked w'.db userId :=
          only.run (J := fun w : SocialWorld Unit => Linked w.db userId)
            (fun _ _ query linked => linked.query query)
            linked'
        exact kept.bind fun _ _ linked => linked
  | _ => exact linked'

theorem unlinkAccount_linked (linked : Linked w.db userId) (provider : String) :
    SatInTurn moments w (svc.unlinkAccount provider userId) fun _ w' => Linked w'.db userId := by
  unfold unlinkAccount
  split
  · exact linked
  · split
    · exact linked
    · refine (sat_listForUser linked).bind fun entries w₁ read => ?_
      obtain ⟨linked₁, count⟩ := read
      split
      · exact linked₁
      · rename_i entries
        split
        · exact linked₁
        · rename_i target found
          split
          · refine (sat_userHasUsablePassword linked₁).bind fun usable w₂ after => ?_
            obtain ⟨linked₂, unusable⟩ := after
            split
            · exact linked₂
            · exact absurd rfl unusable
            · split
              · exact linked₂
              · refine (sat_listCredentials linked₂).bind fun creds w₃ after => ?_
                obtain ⟨linked₃, rfl⟩ := after
                exact linked₃
          · rename_i several
            have some_ : 0 < entries.length :=
              List.length_pos_of_mem (List.mem_of_find?_eq_some found)
            have length := count entries rfl
            exact sat_doDelete linked₁ (by omega) provider target.subject entries.length

theorem unlinkInTurn_sameAccounts (providers : List String) :
    SameAccounts w.db (unlinkInTurn svc userId moments providers w).db := by
  induction providers generalizing w with
  | nil => exact ⟨rfl, rfl⟩
  | cons provider providers ih =>
      have all : (svc.unlinkAccount provider userId).Only fun _ => True :=
        Prog.only_of_forall fun _ => trivial
      have kept : SameAccounts w.db
          ((svc.unlinkAccount provider userId).run
            (World.handler (execInTurn moments) ()) w).2.db :=
        all.run (J := fun w' : SocialWorld Unit => SameAccounts w.db w'.db)
          (fun o w' _ same => same.trans (execSocialOp_sameAccounts (moments w'.tick) w'.db o))
          ⟨rfl, rfl⟩
      exact kept.trans ih

theorem unlinkInTurn_linked (linked : Linked w.db userId) (providers : List String) :
    Linked (unlinkInTurn svc userId moments providers w).db userId := by
  induction providers generalizing w with
  | nil => exact linked
  | cons provider providers ih => exact ih (unlinkAccount_linked linked provider)

end InTurn

/-! ## Every run -/

section Runs

variable {ι : Type} [DecidableEq ι]

theorem watched_kept (userId : Int32) :
    KeptByFitting execSocial ReadSucceeds Unlinking.next .idle (Unlinking.Fits userId)
      Unlinking.Answers (fun w : SocialWorld ι => Watched userId w) :=
  fun _ _ _ _ _ _ watched fits done succeeds => watched.step fits done succeeds

/-- If any number of unlinks of one user, in any interleaving without a failed read, end with the
user locked out, one of those that succeeded says so.  Calls that run one after the other never
lock a user out who has a link and at most one for each provider. -/
theorem lockout_observed (svc : SocialLinkService) (wired : svc.webAuthnRepo = true)
    (store : SocialStore) (userId : Int32) (linked : store.links userId ≠ []) :
    (∀ (providers : ι → String) (sched : List (ι × SocialMoment)),
      let run := (socialPool svc store fun i => .unlinkAccount (providers i) userId).play
        execSocial sched
      Abides ReadSucceeds run.store.log → (∀ i, ∃ a, run.answer? i = some a) →
      LockedOut run.store.db userId →
      ∃ i a, run.answer? i = some a ∧ a.status = .ok ∧ a.lockoutRiskObserved = true) ∧
    (((store.links userId).map SubjectMapping.provider).Nodup →
      ∀ (providers : List String) (moments : Nat → SocialMoment),
        ¬ LockedOut (unlinkInTurn svc userId moments providers (World.start store)).db userId) := by
  refine ⟨?_, ?_⟩
  · intro providers sched run succeeds ended out
    have accounts : SameAccounts store run.store.db :=
      Pool.play_invariant (J := fun w : SocialWorld ι => SameAccounts store w.db) ⟨rfl, rfl⟩
        (fun w i o m r db same done => by
          simp only [execSocial, Option.some.injEq, Prod.mk.injEq] at done
          obtain ⟨-, rfl⟩ := done
          exact same.trans (execSocialOp_sameAccounts m w.db o)) sched
    have start : Watched userId (World.start store : SocialWorld ι) :=
      ⟨accounts.noOtherCredential.mp out.2, fun none => absurd none linked⟩
    obtain ⟨watched, answers⟩ := Pool.play_follows
      (c := socialPool svc store fun i => .unlinkAccount (providers i) userId)
      (watched_kept userId) start rfl (fun i => follows_unlinkAccount wired (providers i)) sched
      succeeds
    obtain ⟨j, watching⟩ := watched.watcher out.1
    obtain ⟨a, answered⟩ := ended j
    exact ⟨j, a, answered, answers j a answered watching⟩
  · intro one providers moments out
    have accounts : SameAccounts store
        (unlinkInTurn svc userId moments providers (World.start store)).db :=
      unlinkInTurn_sameAccounts providers
    have start : Linked store userId := ⟨linked, one, accounts.noOtherCredential.mp out.2⟩
    have kept : Linked (unlinkInTurn svc userId moments providers (World.start store)).db userId :=
      unlinkInTurn_linked start providers
    exact kept.some_ out.1

end Runs

/-- User 7 with a link for each of two providers, and nothing else. -/
def twoLinks : SocialStore where
  mappings := [⟨"github", "11", 7⟩, ⟨"google", "ann", 7⟩]

/-- Two removals of one user's links. -/
def unlinkBoth : Bool → String
  | false => "github"
  | true => "google"

/-- Both links are read twice before they are removed; both calls see it. -/
theorem lockout_observed_of_both :
    let run :=
      (socialPool { stateStore := none } twoLinks fun i => .unlinkAccount (unlinkBoth i) 7).play
      execSocial ([false, true, false, true, false, true, false, true, false, true].map (·, {}))
    LockedOut run.store.db 7 ∧
      ∃ i a, run.answer? i = some a ∧ a.status = .ok ∧ a.lockoutRiskObserved = true := by
  intro run
  have out : LockedOut run.store.db 7 := ⟨by decide, by decide, by decide⟩
  have ended : ∀ i, ∃ a, run.answer? i = some a := by
    intro i
    cases i
    · exact ⟨_, rfl⟩
    · exact ⟨_, rfl⟩
  have succeeds : Abides ReadSucceeds run.store.log := by decide
  have said := @lockout_observed Bool _ { stateStore := none } rfl twoLinks 7 (by decide)
  exact ⟨out, said.1 unlinkBoth _ succeeds ended out⟩

end Fulla
