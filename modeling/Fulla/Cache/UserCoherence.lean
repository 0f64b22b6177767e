import Fulla.Cache.UserReads

/-!
# Coherence of the user read cache

Calls of the readers and of a writer, their steps interleaved.  A reader that has fetched before
a write and fills after the second `DEL`, or that has looked up the profile before and keeps the
memo after it was dropped, leaves behind what nothing deletes any more.

`invalidated_data_not_served`: as long as nothing is kept that a write has overtaken and its
deletes have missed, a call that begins after the deletes is answered with what was fetched after
the write.
-/

namespace Fulla.UserReadCache

open Conc

variable {Change W X : Type}

/-- Where data of a user is kept. -/
inductive Place where
  | roles
  | profile
  | memo
deriving DecidableEq

namespace Place

/-- The key, if it is kept in Redis. -/
def key? (place : Place) (subject : String) : Option String :=
  match place with
  | roles => some (rolesKey subject)
  | profile => some (profileKey subject)
  | memo => none

/-- The payload that is kept. -/
def held (place : Place) (subject : String) (s : UserState W) : Option String :=
  match place.key? subject with
  | some key => (s.server.keys key).map CacheEntry.value
  | none => (s.memo subject).map Prod.fst

/-- The payload that the event stores. -/
def stored (place : Place) (subject : String) : UserReadEvent Change W → Option String
  | ⟨.inl (.redis (.set key value _)), ok, _, _⟩ =>
    if ok = true ∧ place.key? subject = some key then some value else none
  | ⟨.inr (.memoProfilePayload subject' payload), _, _, _⟩ =>
    if place = memo ∧ subject' = subject then some payload else none
  | _ => none

/-- The last of the deletes of an invalidation: the second `DEL` of the key, or the drop of the
memo. -/
def deletes (place : Place) (subject : String) : UserReadEvent Change W → Bool
  | ⟨.inl (.redis (.del key true)), ok, _, _⟩ =>
    (ok : Bool) && decide (place.key? subject = some key)
  | ⟨.inr (.dropMemo subject'), _, _, _⟩ => decide (place = memo) && decide (subject' = subject)
  | _ => false

/-- The payload for this place of what the event fetches. -/
def fetched (json : JsonText) (place : Place) (subject : String) :
    UserReadEvent Change W → Option String
  | ⟨.inl (.impl (.getUserRoles subject')), answer, _, _⟩ =>
    if place = roles ∧ subject' = subject then some (rolesPayload json answer) else none
  | ⟨.inl (.impl (.getUserInfo subject')), answer, _, _⟩ =>
    if place ≠ roles ∧ subject' = subject then some (profilePayload json answer) else none
  | _ => none

end Place

/-! ## The property and its condition -/

/-- A write of the data of the user who has this name. -/
def wrote (subject : String) : UserReadEvent Change W → Bool
  | ⟨.inl (.impl (.write subject' publicSub _)), ok, _, _⟩ =>
    (ok : Bool) && decide (subject ≠ "") && decide (subject = subject' ∨ subject = publicSub)
  | _ => false

/-- The answer is what the event fetched, as it was or written and read back. -/
def Serves (json : JsonText) : UserAnswer → UserReadEvent Change W → Prop
  | .roles subject roles, ⟨.inl (.impl (.getUserRoles subject')), answer, _, _⟩ =>
    subject' = subject ∧
      (roles = answer ∨ readRoles json (rolesPayload json answer) = .ok (some roles))
  | .profile subject profile, ⟨.inl (.impl (.getUserInfo subject')), answer, _, _⟩ =>
    subject' = subject ∧
      (profile = answer ∨ readProfile json (profilePayload json answer) = some profile)
  | _, _ => False

/-- If a write and all its deletes came before `began`, the answer was fetched after the write. -/
def UpToDate (json : JsonText) (began log : List (UserReadEvent Change W)) (a : UserAnswer) :
    Prop :=
  ∀ w older, w :: older <:+ began → wrote a.subject w = true →
    (∀ place : Place, ∃ d, After (w :: older) began d ∧ place.deletes a.subject d = true) →
    ∃ f, After (w :: older) log f ∧ Serves json a f

/-- An answer about the user is up to date at the begin of the call. -/
def NotServedAgain (json : JsonText) (subject : String) (log : List (UserReadEvent Change W))
    (e : UserReadEvent Change W) : Prop :=
  ∀ since a, e.op = .inl (.callback since a) → a.subject = subject →
    UpToDate json (firstOf since log) log a

/-- What held before a write is served by no look-up that starts after it, in the whole log. -/
def NeverServedAgain (json : JsonText) (subject : String) (log : List (UserReadEvent Change W)) :
    Prop :=
  ∀ e before, e :: before <:+ log → NotServedAgain json subject before e

/-- The payload was fetched, and no write since then has been followed by its delete. -/
def freshPayload (json : JsonText) (subject : String) (place : Place) (payload : String)
    (log : List (UserReadEvent Change W)) : Bool :=
  fresh (place.deletes subject) (wrote subject)
    (fun e => decide (place.fetched json subject e = some payload)) false log

/-- Nothing is kept of what was fetched before a write after its delete. -/
def keptInTime (json : JsonText) (subject : String) (log : List (UserReadEvent Change W))
    (e : UserReadEvent Change W) : Bool :=
  [Place.roles, Place.profile, Place.memo].all fun place =>
    (place.stored subject e).all fun payload => freshPayload json subject place payload log

/-! ## One step -/

section Steps

variable {impl : Wrapped (UserRepoSig Change) W X} {m : CacheMoment X} {s s' : UserState W}
  {o : (UserCacheSig Change).Op} {r : (UserCacheSig Change).Res o} {subject payload : String}
  {json : JsonText} {log log₀ : List (UserReadEvent Change W)}

theorem Place.held_of_deletes (place : Place) (stepped : execUsers impl m o s = some (r, s'))
    (deletes : place.deletes subject (⟨o, r, s, s'⟩ : UserReadEvent Change W) = true) :
    place.held subject s' = none := by
  unfold Place.deletes at deletes
  split at deletes
  · next key ok pre post eq =>
      cases eq
      simp only [Bool.and_eq_true, decide_eq_true_eq] at deletes
      obtain ⟨rfl, own⟩ := deletes
      have gone : s'.server.keys key = none := by
        rcases execCache_redis (execUsers_cache stepped).1 with ⟨failed, -⟩ | ⟨-, after⟩
        · cases failed
        · rw [after]
          exact Function.update_self ..
      simp only [held, own, gone, Option.map_none]
  · next subject' u pre post eq =>
      cases eq
      simp only [Bool.and_eq_true, decide_eq_true_eq] at deletes
      obtain ⟨rfl, rfl⟩ := deletes
      cases stepped
      simp [held, key?]
  · cases deletes

/-- What is kept is what was kept before or what the step stores. -/
theorem Place.held_next (place : Place) (stepped : execUsers impl m o s = some (r, s'))
    (holds : place.held subject s' = some payload) :
    place.held subject s = some payload ∨
      place.stored subject (⟨o, r, s, s'⟩ : UserReadEvent Change W) = some payload := by
  cases key : place.key? subject with
  | some k =>
      simp only [held, key] at holds ⊢
      rcases execUsers_key stepped k with same | ⟨value, ttl, set, now⟩ | ⟨delayed, -, gone⟩
      · exact .inl (same ▸ holds)
      · rw [now] at holds
        refine .inr ?_
        rw [set, stored, if_pos ⟨rfl, key⟩]
        exact holds
      · rw [gone] at holds
        cases holds
  | none =>
      have isMemo : place = memo := by
        cases place with
        | memo => rfl
        | _ => cases key
      simp only [held, key] at holds ⊢
      rcases execUsers_memo stepped subject with same | ⟨payload', time, store, now⟩ | gone
      · exact .inl (same ▸ holds)
      · rw [now] at holds
        refine .inr ?_
        rw [store, stored, if_pos ⟨isMemo, rfl⟩]
        exact holds
      · rw [gone] at holds
        cases holds

end Steps

/-! ## The invariant -/

section Invariant

variable {impl : Wrapped (UserRepoSig Change) W X} {m : CacheMoment X} {s s' : UserState W}
  {o : (UserCacheSig Change).Op} {r : (UserCacheSig Change).Res o} {subject payload : String}
  {json : JsonText} {log log₀ : List (UserReadEvent Change W)}

/-- Whatever is kept is fresh, and so was every answer. -/
structure Inv (json : JsonText) (subject : String) (s : UserState W)
    (log : List (UserReadEvent Change W)) : Prop where
  held : EachIn (keptInTime json subject) log = true → ∀ place payload,
    Place.held place subject s = some payload → freshPayload json subject place payload log = true
  answered : EachIn (keptInTime json subject) log = true → NeverServedAgain json subject log

/-- What the code does: it answers with what is up to date. -/
def Fits (json : JsonText) (subject : String) (log : List (UserReadEvent Change W)) :
    (UserCacheSig Change).Op → Prop
  | .inl (.callback since a) =>
    EachIn (keptInTime json subject) log = true → a.subject = subject →
      UpToDate json (firstOf since log) log a
  | _ => True

/-- The invariant after a step that fits. -/
theorem Inv.next (inv : Inv json subject s log) (fits : Fits json subject log o)
    (stepped : execUsers impl m o s = some (r, s')) :
    Inv json subject s' (⟨o, r, s, s'⟩ :: log) := by
  constructor
  case held =>
    intro inTime place payload holds
    obtain ⟨now, before⟩ := Bool.and_eq_true_iff.mp inTime
    have kept : freshPayload json subject place payload log = true := by
      rcases place.held_next stepped holds with old | store
      · exact inv.held before place payload old
      · have each := List.all_eq_true.mp now place (by cases place <;> simp)
        rw [store] at each
        exact each
    apply fresh_cons kept
    cases deletes : place.deletes subject (⟨o, r, s, s'⟩ : UserReadEvent Change W) with
    | false => rfl
    | true =>
        rw [place.held_of_deletes stepped deletes] at holds
        cases holds
  case answered =>
    intro inTime e before earlier
    obtain ⟨now, old⟩ := Bool.and_eq_true_iff.mp inTime
    rcases List.suffix_cons_iff.mp earlier with same | older
    · cases same
      intro since a isReply named
      cases isReply
      exact fits old named
    · exact inv.answered old e before older

/-- The invariant is kept by what fits. -/
theorem inv_kept : Async.Kept (execUsers impl) (Inv json subject) (Fits json subject) :=
  fun _ _ _ _ _ _ inv fits stepped => inv.next fits stepped

/-! ## What a call has in hand -/

/-- An answer that a call which began at `log₀` has in hand at `log`. -/
def Known (json : JsonText) (subject : String) (log₀ log : List (UserReadEvent Change W))
    (a : UserAnswer) : Prop :=
  EachIn (keptInTime json subject) log = true → a.subject = subject → UpToDate json log₀ log a

/-- What is known stays known. -/
theorem Known.mono {log' : List (UserReadEvent Change W)} {a : UserAnswer}
    (known : Known json subject log₀ log a) (later : log <:+ log') :
    Known json subject log₀ log' a := by
  intro inTime named w older mem written cleared
  obtain ⟨f, after, serves⟩ :=
    known (EachIn.of_suffix inTime later) named w older mem written cleared
  exact ⟨f, after.mono later, serves⟩

/-- What was fetched by a call itself. -/
theorem known_of_fetch {e : UserReadEvent Change W} {a : UserAnswer} (started : log₀ <:+ log)
    (serves : Serves json a e) : Known json subject log₀ (e :: log) a :=
  fun _ _ _ _ mem _ _ => ⟨e, .head (mem.trans started), serves⟩

/-- A write is no fetch. -/
theorem not_fetched_of_wrote {place : Place} {w : UserReadEvent Change W}
    (written : wrote subject w = true) : place.fetched json subject w = none := by
  unfold wrote at written
  split at written
  · rfl
  · cases written

/-- What was kept somewhere when it was found. -/
theorem known_of_held {place : Place} {a : UserAnswer} (inv : Inv json subject s log)
    (started : log₀ <:+ log) (holds : place.held subject s = some payload)
    (serves : ∀ e : UserReadEvent Change W, place.fetched json subject e = some payload →
      Serves json a e) : Known json subject log₀ log a := by
  intro inTime named w older mem written cleared
  rw [named] at written cleared
  obtain ⟨d, after, deletes⟩ := cleared place
  have unread : decide (place.fetched json subject w = some payload) = false := by
    rw [not_fetched_of_wrote written]
    rfl
  obtain ⟨f, after', fetched⟩ := After.read_of_fresh (inv.held inTime place payload holds) written
    unread ⟨d, after.mono started, deletes⟩
  exact ⟨f, after', serves f (of_decide_eq_true fetched)⟩

/-- Roles that are served were fetched. -/
theorem serves_roles {roles : List String} {e : UserReadEvent Change W}
    (read : readRoles json payload = .ok (some roles))
    (fetched : Place.roles.fetched json subject e = some payload) :
    Serves json (.roles subject roles) e := by
  unfold Place.fetched at fetched
  split at fetched
  · next subject' answer pre post =>
      split at fetched
      · next own =>
          cases fetched
          exact ⟨own.2, .inr read⟩
      · cases fetched
  · next subject' answer pre post =>
      rw [if_neg fun no => no.1 rfl] at fetched
      cases fetched
  · cases fetched

/-- A profile that is served was fetched. -/
theorem serves_profile {profile : Option Json} {place : Place} {e : UserReadEvent Change W}
    (other : place ≠ .roles) (read : readProfile json payload = some profile)
    (fetched : place.fetched json subject e = some payload) :
    Serves json (.profile subject profile) e := by
  unfold Place.fetched at fetched
  split at fetched
  · next subject' answer pre post =>
      rw [if_neg fun no => other no.1] at fetched
      cases fetched
  · next subject' answer pre post =>
      split at fetched
      · next own =>
          cases fetched
          exact ⟨own.2, .inr read⟩
      · cases fetched
  · cases fetched

end Invariant

/-! ## Programs -/

section Programs

variable {impl : Wrapped (UserRepoSig Change) W X} {cfg : UserReadCache} {subject name : String}
  {log log₀ : List (UserReadEvent Change W)}

/-- A reply that is known is safe. -/
theorem reply_safe {a : UserAnswer} (started : log₀ <:+ log)
    (known : Known cfg.json subject log₀ log a) :
    (reply log₀.length a : UserTask Change).Safe (execUsers impl) (Inv cfg.json subject) log := by
  refine .op_of_kept inv_kept (fun log' later => ?_) fun _ _ _ _ _ _ _ _ => trivial
  intro inTime named
  rw [firstOf_of_suffix (started.trans later)]
  exact known.mono later inTime named

/-- Sending a fill into the background is safe. -/
theorem fill_safe {key payload : String} {ttl : Nat} {next : UserTask Change}
    (rest : next.Safe (execUsers impl) (Inv cfg.json subject) log) :
    (Async.send (S := UserCacheSig Change) (.inl (.redis (.set key payload ttl))) next).Safe
      (execUsers impl) (Inv cfg.json subject) log :=
  .send (.of_kept inv_kept ⟨fun _ => trivial, fun _ => trivial⟩) rest

/-- The path of a miss is safe for roles. -/
theorem fetchAndFillRoles_safe (started : log₀ <:+ log) :
    (fetchAndFillRoles cfg log₀.length name : UserTask Change).Safe (execUsers impl)
      (Inv cfg.json subject) log := by
  refine .op_of_kept inv_kept (fun _ _ => trivial) fun s log' later inv m roles s' _ => fill_safe ?_
  have before := started.trans later
  exact reply_safe (before.trans (List.suffix_cons _ _)) (known_of_fetch before ⟨rfl, .inl rfl⟩)

/-- It is safe for the profile. -/
theorem fetchAndFillProfile_safe (started : log₀ <:+ log) :
    (fetchAndFillProfile cfg log₀.length name : UserTask Change).Safe (execUsers impl)
      (Inv cfg.json subject) log := by
  refine .op_of_kept inv_kept (fun _ _ => trivial)
    fun s log' later inv m profile s' _ => fill_safe ?_
  have before := started.trans later
  exact reply_safe (before.trans (List.suffix_cons _ _)) (known_of_fetch before ⟨rfl, .inl rfl⟩)

/-- Keeping the profile that came along is safe. -/
theorem piggyback_safe {payload : Option String} {next : UserTask Change}
    (rest : ∀ log', log <:+ log' → next.Safe (execUsers impl) (Inv cfg.json subject) log') :
    (piggyback name payload next).Safe (execUsers impl) (Inv cfg.json subject) log := by
  cases payload with
  | none => exact rest log List.suffix_rfl
  | some payload =>
      refine .op_of_kept inv_kept (fun _ _ => trivial) fun s log' later _ _ _ s' _ => ?_
      exact rest _ (later.trans (List.suffix_cons _ _))

/-- What an `MGET` has found for the roles was kept. -/
theorem held_of_mget {m : CacheMoment X} {s s' : UserState W} {text : String}
    {payload : Option String}
    (stepped : execUsers impl m (.inr (.mget (rolesKey name) (profileKey name)) :
      (UserCacheSig Change).Op) s = some (some (some text, payload), s')) :
    Place.roles.held name s = some text := by
  cases refused : m.refused with
  | true => simp [execUsers, execMemo, refused] at stepped
  | false =>
      simp only [execUsers, execMemo, refused, Bool.false_eq_true, if_false, Option.some.injEq,
        Prod.mk.injEq] at stepped
      obtain ⟨e, stored, -, value⟩ := CacheKeys.find?_eq_some.mp stepped.1.1
      rw [CacheState.pass_keys] at stored
      simp [Place.held, Place.key?, stored, value]

/-- **A look-up of the roles is safe**. -/
theorem getRoles_safe : (getRoles cfg log.length name : UserTask Change).Safe (execUsers impl)
    (Inv cfg.json subject) log := by
  unfold getRoles
  split
  · refine .op_of_kept inv_kept (fun _ _ => trivial) fun s log' later inv m found s' stepped => ?_
    have started := later.trans
      (List.suffix_cons (⟨_, found, s, s'⟩ : UserReadEvent Change W) log')
    unfold onRolesLookup
    split
    · next text payload =>
        apply piggyback_safe
        intro log'' later'
        cases read : readRoles cfg.json text with
        | error message => trivial
        | ok roles =>
            cases roles with
            | none => exact fetchAndFillRoles_safe (started.trans later')
            | some roles =>
                apply reply_safe (started.trans later')
                have known : Known cfg.json subject log log' (.roles name roles) := by
                  intro inTime named
                  have same : name = subject := named
                  subst same
                  exact known_of_held inv later (held_of_mget stepped)
                    (fun e fetched => serves_roles read fetched) inTime rfl
                exact known.mono ((List.suffix_cons _ _).trans later')
    · exact fetchAndFillRoles_safe started
  · refine .op_of_kept inv_kept (fun _ _ => trivial) fun s log' later inv m roles s' _ => ?_
    exact reply_safe (later.trans (List.suffix_cons _ _)) (known_of_fetch later ⟨rfl, .inl rfl⟩)

/-- What was kept in `place` is delivered, unless it is corrupt. -/
theorem deliverProfile_safe (place : Place) (other : place ≠ .roles) {s : UserState W}
    {log' log'' : List (UserReadEvent Change W)} (inv : Inv cfg.json subject s log')
    (started : log₀ <:+ log') (later : log' <:+ log'') {text : Option String}
    (holds : ∀ payload, text = some payload → place.held name s = some payload)
    {otherwise : UserTask Change}
    (rest : otherwise.Safe (execUsers impl) (Inv cfg.json subject) log'') :
    (deliverProfile cfg log₀.length name text otherwise).Safe (execUsers impl)
      (Inv cfg.json subject) log'' := by
  unfold deliverProfile
  split
  · next profile delivered =>
      obtain ⟨payload, rfl, read⟩ := Option.bind_eq_some_iff.mp delivered
      apply reply_safe (started.trans later)
      have known : Known cfg.json subject log₀ log' (.profile name profile) := by
        intro inTime named
        have same : name = subject := named
        subst same
        exact known_of_held inv started (holds payload rfl)
          (fun e fetched => serves_profile other read fetched) inTime rfl
      exact known.mono later
  · exact rest

/-- What a `GET` has found was kept. -/
theorem held_of_get {m : CacheMoment X} {s s' : UserState W} {text : String}
    (stepped : execUsers impl m (.inl (.redis (.words ["GET", profileKey name])) :
      (UserCacheSig Change).Op) s = some (some (some text), s')) :
    Place.profile.held name s = some text := by
  rcases execCache_redis (execUsers_cache stepped).1 with ⟨failed, -⟩ | ⟨answer, -⟩
  · cases failed
  · have found : s.server.keys.find? s'.server.clock (profileKey name) = some text :=
      (Option.some.inj answer).symm
    obtain ⟨e, stored, -, value⟩ := CacheKeys.find?_eq_some.mp found
    simp [Place.held, Place.key?, stored, value]

/-- A look-up of the profile in Redis is safe. -/
theorem lookUpProfile_safe (started : log₀ <:+ log) :
    (lookUpProfile cfg log₀.length name : UserTask Change).Safe (execUsers impl)
      (Inv cfg.json subject) log := by
  refine .op_of_kept inv_kept (fun _ _ => trivial) fun s log' later inv m found s' stepped => ?_
  apply deliverProfile_safe .profile (by decide) inv (started.trans later)
    (List.suffix_cons _ _)
  · intro payload eq
    obtain rfl := Option.join_eq_some_iff.mp eq
    exact held_of_get stepped
  · exact fetchAndFillProfile_safe ((started.trans later).trans (List.suffix_cons _ _))

theorem held_of_take {m : CacheMoment X} {s s' : UserState W} {text : String}
    (stepped : execUsers impl m (.inr (.takeMemoizedProfile name) : (UserCacheSig Change).Op) s =
      some (some text, s')) : Place.memo.held name s = some text := by
  have taken := congrArg Prod.fst (Option.some.inj stepped)
  obtain ⟨entry, kept, value⟩ := Option.map_eq_some_iff.mp taken
  obtain ⟨there, -⟩ := Option.filter_eq_some_iff.mp kept
  simp only [Place.held, Place.key?]
  exact Option.map_eq_some_iff.mpr ⟨entry, there, value⟩

/-- **A look-up of the profile is safe**. -/
theorem getProfile_safe : (getProfile cfg log.length name : UserTask Change).Safe (execUsers impl)
    (Inv cfg.json subject) log := by
  unfold getProfile
  split
  · refine .op_of_kept inv_kept (fun _ _ => trivial) fun s log' later inv m found s' stepped => ?_
    apply deliverProfile_safe .memo (by decide) inv later (List.suffix_cons _ _)
    · intro payload eq
      subst eq
      exact held_of_take stepped
    · exact lookUpProfile_safe (later.trans (List.suffix_cons _ _))
  · refine .op_of_kept inv_kept (fun _ _ => trivial) fun s log' later inv m profile s' _ => ?_
    exact reply_safe (later.trans (List.suffix_cons _ _)) (known_of_fetch later ⟨rfl, .inl rfl⟩)

/-! ### The writer -/

/-- An operation that is no answer. -/
def Quiet (o : (UserCacheSig Change).Op) : Prop :=
  ∀ since a, o ≠ .inl (.callback since a)

theorem doubleDelete_only {key : String} {next : UserTask Change} (rest : next.Only Quiet) :
    (doubleDelete cfg key next).Only Quiet := by
  refine ⟨nofun, fun now => ⟨Async.left_only ?_, rest⟩⟩
  exact invalidateWithDoubleDelete_only (fun _ => nofun) (fun _ => nofun) trivial

theorem hook_only {next : UserTask Change} (rest : next.Only Quiet) :
    (hook cfg name next).Only Quiet :=
  ⟨nofun, fun _ => doubleDelete_only (doubleDelete_only rest)⟩

theorem invalidateUser_only (subject publicSub : String) :
    (invalidateUser cfg subject publicSub : UserTask Change).Only Quiet := by
  have second : (if publicSub ≠ "" ∧ publicSub ≠ subject then hook cfg publicSub .done
      else .done : UserTask Change).Only Quiet := by
    split
    · exact hook_only trivial
    · trivial
  unfold invalidateUser
  split
  · dsimp only
    split
    · exact hook_only second
    · exact second
  · trivial

/-- A writer answers no reader. -/
theorem write_only (subject publicSub : String) (change : Change) :
    (write cfg subject publicSub change).Only Quiet := by
  refine ⟨nofun, fun ok => ?_⟩
  dsimp only
  split
  · exact invalidateUser_only subject publicSub
  · trivial

/-- What answers no reader fits. -/
theorem fits_of_quiet {json : JsonText} {o : (UserCacheSig Change).Op} (quiet : Quiet o) :
    Fits json subject log o := by
  unfold Fits
  split
  · exact absurd rfl (quiet _ _)
  · trivial

end Programs

/-! ## Runs -/

/-- As long as nothing is kept after its delete that was fetched before the write, a call that
begins after the deletes is answered with what was fetched after the write. -/
theorem invalidated_data_not_served (cfg : UserReadCache)
    (impl : Wrapped (UserRepoSig Change) W X) (w : W) (subject : String)
    (moves : List (UserMove Change X))
    (inTime : EachIn (keptInTime cfg.json subject) (runUsers cfg impl w moves).log = true) :
    NeverServedAgain cfg.json subject (runUsers cfg impl w moves).log := by
  have calls : ∀ call, Move.call call ∈ moves → ∀ (s : UserState W) log,
      Inv cfg.json subject s log →
        (call.prog cfg log.length).Safe (execUsers impl) (Inv cfg.json subject) log := by
    intro call _ s log _
    cases call with
    | getRoles name => exact getRoles_safe
    | getProfile name => exact getProfile_safe
    | write subject publicSub change =>
        exact .of_only (write_only subject publicSub change)
          fun _ quiet _ _ inv _ _ _ stepped => inv.next (fits_of_quiet quiet) stepped
  have empty : Inv cfg.json subject { server := { wrapped := w } }
      ([] : List (UserReadEvent Change W)) := by
    constructor
    case held =>
      intro _ place payload holds
      cases place <;> cases holds
    case answered =>
      intro _ e before mem
      cases List.suffix_nil.mp mem
  obtain ⟨inv, -⟩ := Tasks.run_safe calls (c := { store := { server := { wrapped := w } } })
    ⟨empty, nofun⟩
  exact inv.answered inTime

/-! ### A reader that stalls -/

/-- The event is the fetch of a reader. -/
def fetches : UserReadEvent Change W → Bool
  | ⟨.inl (.impl (.getUserRoles _)), _, _, _⟩ => true
  | ⟨.inl (.impl (.getUserInfo _)), _, _, _⟩ => true
  | _ => false

/-- What serves an answer has fetched it. -/
theorem fetches_of_serves {json : JsonText} {a : UserAnswer} {e : UserReadEvent Change W}
    (serves : Serves json a e) : fetches e = true := by
  unfold Serves at serves
  split at serves
  · rfl
  · rfl
  · cases serves

/-- The roles of everybody, and no profiles. -/
def sampleUsers : Wrapped (UserRepoSig (List String)) (List String) Unit where
  exec _
    | .getUserRoles _ => fun roles => (roles, roles)
    | .getUserInfo _ => fun roles => (none, roles)
    | .write _ _ change => fun _ => (true, change)

/-- Arrays of one item; nothing else is written. -/
def sampleJson : JsonText where
  write
    | .arr [.str role] => "[\"" ++ role ++ "\"]"
    | _ => "null"
  parse text :=
    if text = "[\"admin\"]" then some (.arr [.str "admin"])
    else if text = "[\"user\"]" then some (.arr [.str "user"])
    else if text = "null" then some .null
    else none

/-- `elapsed` milliseconds later, one of the operations in flight. -/
def later (elapsed j : Nat) : UserMove (List String) Unit :=
  .happen j { elapsed := elapsed, around := () }

/-- A reader has fetched the roles when they are written, and the memo and both keys are
deleted for the first time. -/
def fetchedBefore : List (UserMove (List String) Unit) :=
  [.call (.getRoles "7"), later 0 0, later 0 0, .call (.write "7" "" ["user"]), later 0 2,
    later 0 2, later 0 2, later 0 4, later 0 4, later 0 2]

/-- The second pair of `DEL`s, after their delay. -/
def secondDeletes (j : Nat) : List (UserMove (List String) Unit) :=
  [later 250 j, later 0 j, later 0 j, later 0 j]

/-- The reader fills after the second `DEL`, and another call begins. -/
def stalledMoves : List (UserMove (List String) Unit) :=
  fetchedBefore ++ secondDeletes 2 ++ [later 0 0, .call (.getRoles "7"), later 0 1, later 0 1]

/-- The log of the run in which a fill is stalled. -/
def stalledLog : List (UserReadEvent (List String) (List String)) :=
  (runUsers { json := sampleJson } sampleUsers ["admin"] stalledMoves).log

/-- The roles from before the write are delivered once more. -/
theorem stale_roles_delivered : ¬ NeverServedAgain sampleJson "7"
    (runUsers { json := sampleJson } sampleUsers ["admin"] stalledMoves).log := by
  intro never
  have cleared (place : Place) : ∃ d, After (stalledLog.drop 12) (stalledLog.drop 2) d ∧
      place.deletes "7" d = true := by
    have found : ((stalledLog.drop 2).take 10).any (place.deletes "7") = true := by
      cases place <;> decide
    obtain ⟨d, mem, deletes⟩ := List.any_eq_true.mp found
    exact ⟨d, ⟨_, (List.take_append_drop 10 (stalledLog.drop 2)).symm, mem⟩, deletes⟩
  obtain ⟨f, ⟨newer, eq, mem⟩, serves⟩ :=
    never _ (stalledLog.drop 1) List.suffix_rfl 13 (.roles "7" ["admin"]) rfl rfl _
      (stalledLog.drop 13) (List.drop_suffix 10 (stalledLog.drop 2)) rfl cleared
  have same : newer = (stalledLog.drop 1).take 11 :=
    List.append_cancel_right (eq.symm.trans (List.take_append_drop 11 (stalledLog.drop 1)).symm)
  have none_ : ((stalledLog.drop 1).take 11).all (fun e => !fetches e) = true := by decide
  have no := List.all_eq_true.mp none_ f (same ▸ mem)
  rw [fetches_of_serves serves] at no
  cases no

/-- The reader fills before it. -/
def promptMoves : List (UserMove (List String) Unit) :=
  fetchedBefore ++ [later 0 0] ++ secondDeletes 1 ++
    [.call (.getRoles "7"), later 0 1, later 0 1, later 0 1, later 0 1]

theorem invalidated_data_not_served_prompt : NeverServedAgain sampleJson "7"
    (runUsers { json := sampleJson } sampleUsers ["admin"] promptMoves).log :=
  invalidated_data_not_served { json := sampleJson } sampleUsers ["admin"] "7" promptMoves
    (by decide)

end Fulla.UserReadCache
