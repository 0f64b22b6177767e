import Fulla.Social.SocialLinkService

/-!
# One link for each provider

That a provider's subject belongs to one user is the unique key of the table.  That a user has
one link for a provider is read by one statement and relied on by the next, so it holds as long
as nobody inserts such a link in between.
-/

namespace Fulla

open Conc

/-- Every user has at most one linked identity for each provider. -/
def OneLinkPerProvider (s : SocialStore) : Prop :=
  ∀ userId, ((s.links userId).map SubjectMapping.provider).Nodup

/-- Every identity of a provider belongs to at most one user. -/
def IdentitiesApart (s : SocialStore) : Prop :=
  (s.mappings.map fun r => (r.provider, r.subject)).Nodup

/-! ## Where a link flow stands -/

/-- How far a call has come with its link. -/
inductive LinkFlow where
  | idle
  /-- Nobody has the subject. -/
  | free (provider subject : String)
  /-- The user has no link for the provider, and the insert is due. -/
  | clear (provider subject : String) (userId : Int32)
  | closed
deriving DecidableEq, Repr

namespace LinkFlow

def next (g : LinkFlow) : (o : SocialOp) → SocialSig.Res o → LinkFlow
  | .findMapping provider subject, some none => free provider subject
  | .listForUser userId, some entries =>
    match g with
    | free provider subject =>
      if entries.any (fun e => e.provider = provider) then closed else clear provider subject userId
    | _ => closed
  | .insertMapping _ _ _, _ => closed
  | _, _ => g

/-- An insert follows the look at the links of the user. -/
def Fits (g : LinkFlow) : SocialOp → Prop
  | .insertMapping provider subject userId => g = clear provider subject userId
  | _ => True

end LinkFlow

section Events

variable {ι : Type} [DecidableEq ι]

/-- The stage of a call, read off the log. -/
def linkFlow (i : ι) (log : List (SocialEvent ι)) : LinkFlow :=
  track LinkFlow.next .idle i log

/-- The provider and the user of a link that the event inserts. -/
def insertedLink : SocialEvent ι → Option (String × Int32)
  | ⟨_, _, .insertMapping provider _ userId, .inserted, _⟩ => some (provider, userId)
  | _ => none

/-- The step reads the links of a user. -/
def listsLinks : SocialEvent ι → Bool
  | ⟨_, _, .listForUser _, some _, _⟩ => true
  | _ => false

/-- A link of the user for the provider was inserted since the thread has read the links. -/
def overtaken (i : ι) (provider : String) (userId : Int32) : List (SocialEvent ι) → Bool
  | [] => false
  | e :: log =>
    if e.thread = i ∧ listsLinks e = true then false
    else insertedLink e = some (provider, userId) || overtaken i provider userId log

/-- Nobody has inserted a link of the same user for the same provider since the thread has read
the links. -/
def NotOvertaken (e : SocialEvent ι) (log : List (SocialEvent ι)) : Prop :=
  ∀ link ∈ insertedLink e, overtaken e.thread link.1 link.2 log = false

instance (e : SocialEvent ι) (log : List (SocialEvent ι)) : Decidable (NotOvertaken e log) :=
  inferInstanceAs (Decidable (∀ _ ∈ _, _))

/-- No link of the user for the provider. -/
def Unlinked (s : SocialStore) (provider : String) (userId : Int32) : Prop :=
  ∀ r ∈ s.links userId, r.provider ≠ provider

/-- The links are apart, and a thread that has found a provider free relies on it until it is
overtaken. -/
structure LinkRows (w : SocialWorld ι) : Prop where
  one : OneLinkPerProvider w.db
  free : ∀ j provider subject userId, linkFlow j w.log = .clear provider subject userId →
    Unlinked w.db provider userId ∨ overtaken j provider userId w.log = true

end Events

namespace SocialStore

variable {s s' : SocialStore} {provider subject : String} {userId : Int32}

theorem mem_links {r : SubjectMapping} :
    r ∈ s.links userId ↔ r ∈ s.mappings ∧ r.internalUserId = userId ∧ r.provider ≠ "local" := by
  simp [links]

theorem links_sublist (sub : s'.mappings.Sublist s.mappings) :
    (s'.links userId).Sublist (s.links userId) :=
  sub.filter _

end SocialStore

theorem OneLinkPerProvider.of_sublist {s s' : SocialStore} (one : OneLinkPerProvider s)
    (sub : s'.mappings.Sublist s.mappings) : OneLinkPerProvider s' :=
  fun userId => (one userId).sublist ((SocialStore.links_sublist sub).map _)

theorem Unlinked.of_sublist {s s' : SocialStore} {provider : String} {userId : Int32}
    (none : Unlinked s provider userId) (sub : s'.mappings.Sublist s.mappings) :
    Unlinked s' provider userId :=
  fun r mem => none r ((SocialStore.links_sublist sub).subset mem)

/-- A link for a provider without one. -/
theorem OneLinkPerProvider.insert {s s' : SocialStore} {provider subject : String} {userId : Int32}
    (one : OneLinkPerProvider s) (none : Unlinked s provider userId)
    (rows : s'.mappings = s.mappings ++ [⟨provider, subject, userId⟩]) : OneLinkPerProvider s' := by
  intro other
  by_cases new : userId = other ∧ provider ≠ "local"
  · obtain ⟨rfl, social⟩ := new
    have links : s'.links userId = s.links userId ++ [⟨provider, subject, userId⟩] := by
      simp [SocialStore.links, rows, List.filter_append, social]
    rw [links, List.map_append]
    refine List.nodup_append.mpr ⟨one userId, by simp, ?_⟩
    intro p mem q single
    obtain ⟨r, stored, rfl⟩ := List.mem_map.mp mem
    rw [List.mem_singleton.mp single]
    exact none r stored
  · have links : s'.links other = s.links other := by
      simp only [SocialStore.links, rows, List.filter_append]
      rw [List.filter_cons_of_neg (by simpa using new), List.filter_nil, List.append_nil]
    rw [links]
    exact one other

/-! ## Steps -/

/-- Which rows an operation leaves. -/
theorem execSocial_mappings {ι : Type} {m : SocialMoment} {i : ι} {o : SocialOp}
    {s s' : SocialStore} {r : SocialSig.Res o}
    (done : execSocial m i o s = some (r, s')) (tick : Nat) :
    s'.mappings.Sublist s.mappings ∨
      ∃ provider subject userId, o = .insertMapping provider subject userId ∧
        s.claimed provider subject = false ∧
        insertedLink ⟨i, tick, o, r, s⟩ = some (provider, userId) ∧
        s'.mappings = s.mappings ++ [⟨provider, subject, userId⟩] := by
  cases o with
  | insertMapping provider subject userId =>
      simp only [execSocial, execSocialOp, Option.some.injEq, Prod.mk.injEq] at done
      obtain ⟨rfl, rfl⟩ := done
      split
      · exact .inl (List.Sublist.refl _)
      · split
        · exact .inl (List.Sublist.refl _)
        · rename_i absent
          exact .inr ⟨provider, subject, userId, rfl, by simpa using absent, rfl, rfl⟩
  | deleteMappings provider userId =>
      simp only [execSocial, execSocialOp, Option.some.injEq, Prod.mk.injEq] at done
      obtain ⟨rfl, rfl⟩ := done
      split
      · exact .inl (List.Sublist.refl _)
      · exact .inl List.filter_sublist
  | _ =>
      simp only [execSocial, execSocialOp, Option.some.injEq, Prod.mk.injEq] at done
      obtain ⟨-, rfl⟩ := done
      refine .inl ?_
      first
        | exact List.Sublist.refl _
        | (split <;> first | exact List.Sublist.refl _ | (split <;> exact List.Sublist.refl _))

section Steps

variable {ι : Type} [DecidableEq ι] {w : SocialWorld ι} {i j : ι} {o : SocialOp}
  {r : SocialSig.Res o} {m : SocialMoment} {s : SocialStore} {provider subject : String}
  {userId : Int32}

theorem overtaken_of_inserted {e : SocialEvent ι} {log : List (SocialEvent ι)}
    (inserted : insertedLink e = some (provider, userId)) :
    overtaken j provider userId (e :: log) = true := by
  have other : listsLinks e = false := by
    unfold insertedLink at inserted
    split at inserted
    · rfl
    · cases inserted
  simp [overtaken, other, inserted]

theorem overtaken_cons {e : SocialEvent ι} {log : List (SocialEvent ι)}
    (reads : ¬ (e.thread = j ∧ listsLinks e = true))
    (past : overtaken j provider userId log = true) :
    overtaken j provider userId (e :: log) = true := by
  rw [overtaken, if_neg reads, past, Bool.or_true]

/-- A thread gets to its insert by reading the links, and they were free. -/
theorem clear_step (done : execSocial m i o w.db = some (r, s))
    (now : linkFlow i (w.push i o r s).log = .clear provider subject userId) :
    listsLinks (⟨i, w.tick, o, r, w.db⟩ : SocialEvent ι) = true ∧ Unlinked w.db provider userId ∨
      listsLinks (⟨i, w.tick, o, r, w.db⟩ : SocialEvent ι) = false ∧
        linkFlow i w.log = .clear provider subject userId := by
  rw [linkFlow, track_own] at now
  cases o with
  | listForUser reader =>
      cases r with
      | none => exact .inr ⟨rfl, now⟩
      | some entries =>
          refine .inl ⟨rfl, ?_⟩
          have read : entries = (w.db.links reader).map fun r => ⟨r.provider, r.subject⟩ := by
            simp only [execSocial, execSocialOp, Option.some.injEq, Prod.mk.injEq] at done
            split at done
            · cases done.1
            · exact (Option.some.inj done.1).symm
          simp only [LinkFlow.next] at now
          split at now
          · split at now
            · cases now
            · rename_i none
              cases now
              intro row mem same
              refine none ?_
              rw [read]
              simpa using ⟨row, mem, same⟩
          · cases now
  | findMapping p q =>
      refine .inr ⟨rfl, ?_⟩
      rcases r with _ | _ | user
      · exact now
      · cases now
      · exact now
  | insertMapping p q u => cases now
  | _ => exact .inr ⟨rfl, now⟩

theorem LinkRows.step (rows : LinkRows w) (fits : (linkFlow i w.log).Fits o)
    (done : execSocial m i o w.db = some (r, s))
    (allowed : NotOvertaken ⟨i, w.tick, o, r, w.db⟩ w.log) : LinkRows (w.push i o r s) := by
  have stays : ∀ p q u, linkFlow i (w.push i o r s).log = .clear p q u →
      s.mappings.Sublist w.db.mappings →
      Unlinked s p u ∨ overtaken i p u (w.push i o r s).log = true := by
    intro p q u at_ sub
    rcases clear_step done at_ with ⟨_, none⟩ | ⟨reads, before⟩
    · exact .inl (none.of_sublist sub)
    · rcases rows.free i p q u before with none | past
      · exact .inl (none.of_sublist sub)
      · exact .inr (overtaken_cons (by simp [reads]) past)
  have others : ∀ j p q u, j ≠ i → linkFlow j (w.push i o r s).log = .clear p q u →
      Unlinked w.db p u ∨ overtaken j p u (w.push i o r s).log = true := by
    intro j p q u other at_
    rw [linkFlow, track_other other] at at_
    rcases rows.free j p q u at_ with none | past
    · exact .inl none
    · exact .inr (overtaken_cons (fun own => other own.1.symm) past)
  rcases execSocial_mappings done w.tick with sub | ⟨p, q, u, rfl, _, inserted, appended⟩
  · refine ⟨rows.one.of_sublist sub, fun j p q u at_ => ?_⟩
    by_cases own : j = i
    · subst own
      exact stays p q u at_ sub
    · exact (others j p q u own at_).imp_left fun none => none.of_sublist sub
  · -- The thread has found no link and was not overtaken; whoever else waits to insert one is now.
    have none : Unlinked w.db p u :=
      (rows.free i p q u fits).resolve_right
        (Bool.eq_false_iff.mp (allowed (p, u) inserted))
    refine ⟨rows.one.insert none appended, fun j p' q' u' at_ => ?_⟩
    by_cases own : j = i
    · subst own
      rw [linkFlow, track_own] at at_
      cases at_
    · by_cases same : p' = p ∧ u' = u
      · obtain ⟨rfl, rfl⟩ := same
        exact .inr (overtaken_of_inserted inserted)
      · refine (others j p' q' u' own at_).imp_left fun none row mem => ?_
        rw [SocialStore.mem_links] at mem
        obtain ⟨stored, user, social⟩ := mem
        rw [World.push_db, appended] at stored
        rcases List.mem_append.mp stored with old | new
        · exact none row (SocialStore.mem_links.mpr ⟨old, user, social⟩)
        · rw [List.mem_singleton.mp new] at user ⊢
          exact fun eq => same ⟨eq.symm, user.symm⟩

end Steps

/-! ## The calls follow the order -/

section Calls

variable {svc : SocialLinkService}

/-- A link is inserted only after the user's links were read. -/
abbrev FollowsOrder {α : Type} (p : SocialProg α) (Q : α → LinkFlow → Prop) (g : LinkFlow) : Prop :=
  p.Follows LinkFlow.next LinkFlow.Fits (fun _ _ _ => True) Q g

/-- No mapping is inserted. -/
def InsertsNothing : SocialOp → Prop
  | .insertMapping _ _ _ => False
  | _ => True

theorem LinkFlow.fits_of_insertsNothing {g : LinkFlow} {o : SocialOp} (plain : InsertsNothing o) :
    g.Fits o := by
  cases o <;> trivial

/-- Looking the subject up follows the stages. -/
theorem follows_findLinkedUser (provider subject : String) (g : LinkFlow) :
    FollowsOrder (PostgresSocialAccountRepository.findLinkedUser provider subject)
      (fun a g' => a.1 = .noMapping → g' = .free provider subject) g := by
  refine ⟨trivial, fun found _ => ?_⟩
  rcases found with _ | _ | userId
  · exact fun none => by cases none
  · exact fun _ => rfl
  · refine ⟨trivial, fun user _ => ?_⟩
    rcases user with _ | _ | user
    · exact fun none => by cases none
    · exact fun none => by cases none
    · refine ⟨trivial, fun now _ => ?_⟩
      refine Prog.Follows.ite (fun _ => ?_) fun _ => ?_
      · exact fun none => by cases none
      · exact fun none => by cases none

/-- So does what follows it. -/
theorem follows_onSubject (provider : String) (userId : Int32) (errorCode subject : String)
    (g : LinkFlow) :
    FollowsOrder (SocialLinkService.onSubject provider userId errorCode subject)
      (fun _ _ => True) g := by
  refine Prog.Follows.ite (fun _ => trivial) fun _ => ?_
  refine (follows_findLinkedUser provider subject g).bind fun found g' free => ?_
  obtain ⟨status, existing⟩ := found
  cases status with
  | noMapping =>
      obtain rfl := free rfl
      refine ⟨trivial, fun entries _ => ?_⟩
      cases entries with
      | none => trivial
      | some entries =>
          refine Prog.Follows.ite (fun _ => trivial) fun none => ?_
          refine ⟨?_, fun outcome _ => by cases outcome <;> trivial⟩
          show (if _ then _ else _) = _
          rw [if_neg none]
  | _ => trivial

theorem follows_proceedWithExchange (provider code : String) (userId : Int32) (g : LinkFlow) :
    FollowsOrder (svc.proceedWithExchange provider code userId) (fun _ _ => True) g := by
  refine Prog.Follows.ite (fun _ => ?_) fun _ => Prog.Follows.ite (fun _ => ?_) fun _ => ?_
  · exact Prog.Follows.ite (fun _ => trivial) fun _ =>
      ⟨trivial, fun profile _ => follows_onSubject provider userId _ _ _⟩
  · exact Prog.Follows.ite (fun _ => trivial) fun _ =>
      ⟨trivial, fun profile _ => follows_onSubject provider userId _ _ _⟩
  · exact Prog.Follows.ite (fun _ => trivial) fun _ =>
      ⟨trivial, fun profile _ => follows_onSubject provider userId _ _ _⟩

/-- **Every call follows the stages**. -/
theorem follows_call (svc : SocialLinkService) (call : SocialCall) (g : LinkFlow) :
    FollowsOrder (call.prog svc) (fun _ _ => True) g := by
  have fit : ∀ (g : LinkFlow) o, InsertsNothing o → g.Fits o :=
    fun _ _ plain => LinkFlow.fits_of_insertsNothing plain
  cases call with
  | beginLink provider userId =>
      exact (SocialLinkService.beginLink_only trivial fun _ _ _ => trivial).follows fit g
  | unlinkAccount provider userId =>
      exact (SocialLinkService.unlinkAccount_only trivial trivial trivial trivial).follows fit g
  | linkAccount provider code state userId =>
      change FollowsOrder (svc.linkAccount provider code state userId) _ g
      unfold SocialLinkService.linkAccount
      refine Prog.Follows.ite (fun _ => trivial) fun _ => ?_
      refine Prog.Follows.ite (fun _ => trivial) fun _ => ?_
      split
      · trivial
      · rename_i store _
        have consumes : (store.consume state).Only InsertsNothing :=
          RedisSocialLinkStateStore.consume_only (fun _ => trivial) state
        refine (consumes.follows fit g).bind fun bound g' _ => ?_
        cases bound with
        | none => trivial
        | some bound =>
            exact Prog.Follows.ite (fun _ => trivial) fun _ =>
              follows_proceedWithExchange provider code userId g'

end Calls

/-! ## Every run -/

section Runs

variable {ι : Type} [DecidableEq ι]

/-- The invariant is kept by steps that are not overtaken. -/
theorem linkRows_kept :
    KeptByFitting execSocial NotOvertaken LinkFlow.next .idle LinkFlow.Fits (fun _ _ _ => True)
      (fun w : SocialWorld ι => LinkRows w) :=
  fun _ _ _ _ _ _ rows fits done allowed => ⟨trivial, rows.step fits done allowed⟩

omit [DecidableEq ι] in
theorem IdentitiesApart.step {w : SocialWorld ι} {i : ι} {o : SocialOp} {r : SocialSig.Res o}
    {m : SocialMoment} {s : SocialStore} (apart : IdentitiesApart w.db)
    (done : execSocial m i o w.db = some (r, s)) : IdentitiesApart s := by
  rcases execSocial_mappings done w.tick with sub | ⟨p, q, u, _, absent, _, appended⟩
  · exact apart.sublist (sub.map _)
  · unfold IdentitiesApart
    rw [appended, List.map_append]
    refine List.nodup_append.mpr ⟨apart, by simp, ?_⟩
    intro key mem key' single same
    obtain ⟨row, stored, rfl⟩ := List.mem_map.mp mem
    rw [List.map_singleton, List.mem_singleton] at single
    subst single
    have taken : w.db.claimed p q = true :=
      List.any_eq_true.mpr ⟨row, stored, by simpa [Prod.ext_iff] using same⟩
    rw [absent] at taken
    cases taken

/-- In every interleaving an identity of a provider belongs to one user, and a user has one link
for each provider as long as no call is overtaken between its look at the links and its insert. -/
theorem social_links_apart (svc : SocialLinkService) (store : SocialStore)
    (calls : ι → SocialCall) (apart : IdentitiesApart store) (one : OneLinkPerProvider store)
    (sched : List (ι × SocialMoment)) :
    let run := (socialPool svc store calls).play execSocial sched
    IdentitiesApart run.store.db ∧
      (Abides NotOvertaken run.store.log → OneLinkPerProvider run.store.db) := by
  intro run
  refine ⟨?_, fun abides => ?_⟩
  · exact Pool.play_invariant (J := fun w => IdentitiesApart w.db) apart
      (fun w i o m r db apart done => apart.step done) sched
  · have start : LinkRows (socialPool svc store calls).store := by
      refine ⟨one, fun j p q u at_ => ?_⟩
      cases at_
    have kept := Pool.play_follows linkRows_kept start rfl
      (fun i => follows_call svc (calls i) .idle) sched abides
    exact kept.1.one

end Runs

/-! ## Two flows of one user -/

/-- User 7 has started two flows. -/
def twoStarted : SocialStore where
  redis :=
    (Table.empty.assign ⟨"social_link_state:a", googleState, 600000⟩).assign
      ⟨"social_link_state:b", googleState, 600000⟩

/-- Two links of one user to one provider. -/
def twoFlows : Bool → SocialCall
  | false => .linkAccount "google" "code1" "a" 7
  | true => .linkAccount "google" "code2" "b" 7

/-- A moment at which the provider names the subject. -/
def said (subject : String) : SocialMoment where
  subject := subject

/-- Both flows finish one after the other, and the second one is refused. -/
theorem social_links_apart_in_turn :
    let sched := (List.replicate 5 (false, said "ann1")) ++ List.replicate 5 (true, said "ann2")
    let run := (socialPool googleLinking twoStarted twoFlows).play execSocial sched
    Abides NotOvertaken run.store.log ∧ OneLinkPerProvider run.store.db := by
  intro sched run
  have abides : Abides NotOvertaken run.store.log := by decide
  exact ⟨abides, (social_links_apart googleLinking twoStarted twoFlows List.nodup_nil
    (fun _ => List.nodup_nil) sched).2 abides⟩

/-- Both flows look at the links before either of them inserts one. -/
theorem social_links_doubled :
    ∃ (svc : SocialLinkService) (store : SocialStore) (calls : Bool → SocialCall)
      (sched : List (Bool × SocialMoment)), IdentitiesApart store ∧ OneLinkPerProvider store ∧
      ¬ OneLinkPerProvider ((socialPool svc store calls).play execSocial sched).store.db := by
  refine ⟨googleLinking, twoStarted, twoFlows,
    List.replicate 4 (false, said "ann1") ++ List.replicate 5 (true, said "ann2") ++
      [(false, said "ann1")], List.nodup_nil, fun _ => List.nodup_nil, fun one => ?_⟩
  have twice := one 7
  revert twice
  decide

end Fulla
