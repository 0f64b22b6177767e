import Fulla.Social.SocialLinkService

/-!
# Link states

`beginLink` stores a state for its user and provider under a random token, and `linkAccount`
takes it out of Redis before it exchanges a code.  What it takes was written by a `beginLink`,
so it names the user and the provider of that call; and it is gone afterwards.

The command that takes it gets the presented state as a C string.
-/

namespace Fulla

open Conc RedisSocialLinkStateStore RedisFormat

/-! ## Where a call stands -/

/-- How far a call has come with its state. -/
inductive LinkStateFlow where
  | idle
  | drawn (token : String)
  | issued
  /-- The value was under the key, and the key is gone. -/
  | taken (key value : String)
  | exchanged
deriving DecidableEq, Repr

/-- The request to the provider. -/
def isExchange : SocialOp → Bool
  | .fetchProfile _ => true
  | .googleLogin _ => true
  | .weChatLogin _ => true
  | _ => false

namespace LinkStateFlow

/-- The place after the request to the provider. -/
def exchange : LinkStateFlow → LinkStateFlow
  | taken _ _ => exchanged
  | g => g

def next (g : LinkStateFlow) : (o : SocialOp) → SocialSig.Res o → LinkStateFlow
  | .secureRandomBytes, draw =>
    match g with
    | idle => if draw.ok then drawn (hexToken draw.random) else idle
    | g => g
  | .setNxEx _ _ _, _ =>
    match g with
    | drawn _ => issued
    | g => g
  | .getDel key, some (some value) =>
    match g with
    | idle => taken key value
    | g => g
  | .fetchProfile _, _ => g.exchange
  | .googleLogin _, _ => g.exchange
  | .weChatLogin _, _ => g.exchange
  | _, _ => g

end LinkStateFlow

/-- What each call does with Redis and with the provider, and when. -/
def StateOrder (store : RedisSocialLinkStateStore) (call : SocialCall) (g : LinkStateFlow) :
    SocialOp → Prop
  | .secureRandomBytes => g = .idle
  | .setNxEx key value seconds => ∃ provider userId token, call = .beginLink provider userId ∧
    SocialLinkService.isValidProvider provider = true ∧ g = .drawn token ∧ key = stateKey token ∧
    value = store.encodeValue { internalUserId := userId, provider := provider } ∧
    seconds = store.ttlSeconds
  | .getDel key => g = .idle ∧ ∃ provider code state userId,
    call = .linkAccount provider code state userId ∧ key = stateKey (cString state)
  | o => isExchange o = true → ∃ provider code state userId value,
    call = .linkAccount provider code state userId ∧ g = .taken (stateKey (cString state)) value ∧
    store.decodeValue value = .ok { internalUserId := userId, provider := provider }

/-! ## The calls keep to the order -/

section Calls

variable {svc : SocialLinkService} {store : RedisSocialLinkStateStore}

/-- The program takes its steps in the order of the stages. -/
abbrev FollowsState {α : Type} (store : RedisSocialLinkStateStore) (call : SocialCall)
    (p : SocialProg α) (Q : α → LinkStateFlow → Prop) (g : LinkStateFlow) : Prop :=
  p.Follows LinkStateFlow.next (StateOrder store call) (fun _ _ _ => True) Q g

/-- A statement of the tables. -/
def OnTables : SocialOp → Prop
  | .secureRandomBytes => False
  | .setNxEx _ _ _ => False
  | .getDel _ => False
  | o => isExchange o = false

theorem stateOrder_of_onTables {call : SocialCall} {g : LinkStateFlow} {o : SocialOp}
    (tables : OnTables o) : StateOrder store call g o := by
  cases o with
  | secureRandomBytes => exact tables.elim
  | setNxEx key value seconds => exact tables.elim
  | getDel key => exact tables.elim
  | fetchProfile code => cases tables
  | googleLogin code => cases tables
  | weChatLogin code => cases tables
  | _ => exact fun exchange => by cases exchange

/-- Steps on the tables do not touch the states. -/
theorem follows_onTables {call : SocialCall} {α : Type} {p : SocialProg α}
    (only : p.Only OnTables) (g : LinkStateFlow) :
    FollowsState store call p (fun _ _ => True) g :=
  only.follows (fun _ _ tables => stateOrder_of_onTables tables) g

/-- Issuing a state: draw, store, answer. -/
theorem follows_issue {provider : String}
    (valid : SocialLinkService.isValidProvider provider = true) (userId : Int32) :
    FollowsState store (.beginLink provider userId) (store.issue userId provider)
      (fun _ _ => True) .idle := by
  refine Prog.Follows.ite (fun _ => trivial) fun _ => ?_
  refine ⟨rfl, fun draw _ => ?_⟩
  refine Prog.Follows.ite (fun _ => trivial) fun filled => ?_
  rw [Bool.not_eq_false] at filled
  refine ⟨⟨provider, userId, hexToken draw.random, rfl, valid, if_pos filled, rfl, rfl, rfl⟩, ?_⟩
  intro done _
  rcases done with _ | _ | _ <;> trivial

/-- Consuming a state: the value is read and the key deleted in one step. -/
theorem follows_consume (provider code state : String) (userId : Int32) :
    FollowsState store (.linkAccount provider code state userId) (store.consume state)
      (fun bound g => ∀ data, bound = some data → ∃ value,
        g = .taken (stateKey (cString state)) value ∧
          store.decodeValue value = .ok data) .idle := by
  refine Prog.Follows.ite (fun _ data none => by cases none) fun _ => ?_
  refine ⟨⟨rfl, provider, code, state, userId, rfl, rfl⟩, fun found _ => ?_⟩
  rcases found with _ | _ | value
  · exact fun data none => by cases none
  · exact fun data none => by cases none
  · dsimp only [Bind.bind, Prog.bind]
    cases decoded : store.decodeValue value with
    | error message => exact fun data none => by cases none
    | ok data =>
        intro data' same
        obtain rfl := Option.some.inj same
        exact ⟨value, rfl, decoded⟩

/-- The exchange of the code comes after the state. -/
theorem follows_proceed {provider code state : String} {userId : Int32} {value : String}
    (decoded : store.decodeValue value = .ok { internalUserId := userId, provider := provider }) :
    FollowsState store (.linkAccount provider code state userId)
      (svc.proceedWithExchange provider code userId) (fun _ _ => True)
      (.taken (stateKey (cString state)) value) := by
  have after : ∀ errorCode subject, (SocialLinkService.onSubject provider userId errorCode
      subject).Only OnTables :=
    SocialLinkService.onSubject_only (P := OnTables) (fun _ _ => rfl) (fun _ => rfl) rfl
      (fun _ => rfl)
      (fun _ _ _ => rfl) provider userId
  have fits : ∀ o, isExchange o = true → ∃ provider' code' state' userId' value',
      SocialCall.linkAccount provider code state userId =
        .linkAccount provider' code' state' userId' ∧
      LinkStateFlow.taken (stateKey (cString state)) value =
        .taken (stateKey (cString state')) value' ∧
      store.decodeValue value' = .ok { internalUserId := userId', provider := provider' } :=
    fun _ _ => ⟨provider, code, state, userId, value, rfl, rfl, decoded⟩
  refine Prog.Follows.ite (fun _ => ?_) fun _ => Prog.Follows.ite (fun _ => ?_) fun _ => ?_
  · exact Prog.Follows.ite (fun _ => trivial) fun _ =>
      ⟨fits _, fun _ _ => follows_onTables (after _ _) _⟩
  · exact Prog.Follows.ite (fun _ => trivial) fun _ =>
      ⟨fits _, fun _ _ => follows_onTables (after _ _) _⟩
  · exact Prog.Follows.ite (fun _ => trivial) fun _ =>
      ⟨fits _, fun _ _ => follows_onTables (after _ _) _⟩

/-- **Every call follows the stages of its state**. -/
theorem follows_state (wired : svc.stateStore = some store) (call : SocialCall) :
    FollowsState store call (call.prog svc) (fun _ _ => True) .idle := by
  cases call with
  | unlinkAccount provider userId =>
      exact follows_onTables (SocialLinkService.unlinkAccount_only rfl rfl rfl rfl) .idle
  | beginLink provider userId =>
      change FollowsState store _ (svc.beginLink provider userId) _ _
      unfold SocialLinkService.beginLink
      rw [wired]
      refine Prog.Follows.ite (fun _ => trivial) fun valid => ?_
      rw [Bool.not_eq_false] at valid
      refine (follows_issue valid userId).bind fun token g _ => ?_
      cases token <;> trivial
  | linkAccount provider code state userId =>
      change FollowsState store _ (svc.linkAccount provider code state userId) _ _
      unfold SocialLinkService.linkAccount
      rw [wired]
      refine Prog.Follows.ite (fun _ => trivial) fun _ => ?_
      refine Prog.Follows.ite (fun _ => trivial) fun _ => ?_
      refine (follows_consume provider code state userId).bind fun bound g taken => ?_
      cases bound with
      | none => trivial
      | some bound =>
          obtain ⟨value, rfl, decoded⟩ := taken bound rfl
          refine Prog.Follows.ite (fun _ => trivial) fun same => ?_
          rw [not_or, not_not, not_not] at same
          obtain ⟨rfl, rfl⟩ := same
          exact follows_proceed decoded

end Calls

/-! ## What the log says -/

section Events

variable {ι : Type} [DecidableEq ι]

/-- The stage of a call, read off the log. -/
def linkStateFlow (i : ι) (log : List (SocialEvent ι)) : LinkStateFlow :=
  track LinkStateFlow.next .idle i log

/-- The token of a draw that succeeds. -/
def drawnToken : SocialEvent ι → Option String
  | ⟨_, _, .secureRandomBytes, draw, _⟩ => if draw.ok then some (hexToken draw.random) else none
  | _ => none

/-- The entry that the event writes. -/
def issuedEntry : SocialEvent ι → Option LinkStateEntry
  | ⟨_, _, .setNxEx key value seconds, some true, pre⟩ =>
    some ⟨key, value, pre.clock + seconds * 1000⟩
  | _ => none

/-- The key and the value that the event takes. -/
def takenEntry : SocialEvent ι → Option (String × String)
  | ⟨_, _, .getDel key, some (some value), _⟩ => some (key, value)
  | _ => none

/-- The step exchanges a code with a provider. -/
def exchanges (e : SocialEvent ι) : Bool :=
  isExchange e.op

/-- How often the key was written, and how often it was taken. -/
def timesIssued (key : String) (log : List (SocialEvent ι)) : Nat :=
  log.countP fun e => (issuedEntry e).any fun entry => entry.key = key

/-- How often the state under a key was taken. -/
def timesTaken (key : String) (log : List (SocialEvent ι)) : Nat :=
  log.countP fun e => (takenEntry e).any fun entry => entry.1 = key

/-- What is taken was issued before, and is not yet gone. -/
def TakesIssued (e : SocialEvent ι) (log : List (SocialEvent ι)) : Prop :=
  ∀ token value, takenEntry e = some (stateKey token, value) →
    ∃ issue ∈ log, ∃ entry, issuedEntry issue = some entry ∧ entry.key = stateKey token ∧
      entry.value = value ∧ e.pre.clock < entry.expireAt

/-- The states in Redis were issued, and each was taken at most as often as it was issued. -/
structure StatesIssued (w : SocialWorld ι) : Prop where
  origin : ∀ token entry, w.db.redis.find? (stateKey token) = some entry →
    ∃ issue ∈ w.log, issuedEntry issue = some entry
  count : ∀ token, timesTaken (stateKey token) w.log +
      (if (w.db.redis.find? (stateKey token)).isSome then 1 else 0) ≤
    timesIssued (stateKey token) w.log
  taken : Abides TakesIssued w.log

/-! ### Steps -/

variable {w : SocialWorld ι} {i : ι} {o : SocialOp} {r : SocialSig.Res o} {m : SocialMoment}
  {s : SocialStore}

omit [DecidableEq ι] in
/-- What an operation does to Redis. -/
theorem execSocial_redis (done : execSocial m i o w.db = some (r, s)) :
    s.redis = w.db.redis ∧ issuedEntry ⟨i, w.tick, o, r, w.db⟩ = none ∧
        takenEntry ⟨i, w.tick, o, r, w.db⟩ = none ∨
      (∃ entry, issuedEntry ⟨i, w.tick, o, r, w.db⟩ = some entry ∧
        takenEntry ⟨i, w.tick, o, r, w.db⟩ = none ∧ s.redis = w.db.redis.assign entry) ∨
      ∃ key, s.redis = w.db.redis.erase key ∧ issuedEntry ⟨i, w.tick, o, r, w.db⟩ = none ∧
        (takenEntry ⟨i, w.tick, o, r, w.db⟩ = none ∨ ∃ entry, w.db.redis.find? key = some entry ∧
          w.db.clock < entry.expireAt ∧
          takenEntry ⟨i, w.tick, o, r, w.db⟩ = some (key, entry.value)) := by
  simp only [execSocial, Option.some.injEq, Prod.mk.injEq] at done
  obtain ⟨rfl, rfl⟩ := done
  cases o with
  | setNxEx key value seconds =>
      cases fault : m.fault with
      | true =>
          simp only [execSocialOp, fault, if_true]
          exact .inl ⟨trivial, rfl, rfl⟩
      | false =>
          simp only [execSocialOp, fault, Bool.false_eq_true, if_false]
          split
          · exact .inl ⟨rfl, rfl, rfl⟩
          · exact .inr (.inl ⟨_, rfl, rfl, rfl⟩)
  | getDel key =>
      cases fault : m.fault with
      | true =>
          simp only [execSocialOp, fault, if_true]
          exact .inl ⟨trivial, rfl, rfl⟩
      | false =>
          simp only [execSocialOp, fault, Bool.false_eq_true, if_false]
          refine .inr (.inr ⟨key, rfl, rfl, ?_⟩)
          cases found : w.db.linkState key with
          | none => exact .inl rfl
          | some value =>
              refine .inr ?_
              simp only [SocialStore.linkState, Option.map_eq_some_iff, Option.filter_eq_some_iff,
                decide_eq_true_eq] at found
              obtain ⟨entry, ⟨stored, alive⟩, rfl⟩ := found
              exact ⟨entry, stored, alive, rfl⟩
  | _ =>
      refine .inl ⟨?_, rfl, rfl⟩
      simp only [execSocialOp]
      all_goals repeat' split
      all_goals rfl

omit [DecidableEq ι] in
/-- Every stored state was issued, after each step. -/
theorem StatesIssued.step (states : StatesIssued w)
    (done : execSocial m i o w.db = some (r, s)) : StatesIssued (w.push i o r s) := by
  rcases execSocial_redis done with ⟨redis, issued, taken⟩ | ⟨entry, issued, taken, redis⟩ |
    ⟨key, redis, issued, taken⟩
  · refine ⟨fun token stored found => ?_, fun token => ?_, fun token value is => ?_, states.taken⟩
    · rw [World.push_db, redis] at found
      obtain ⟨issue, mem, wrote⟩ := states.origin token stored found
      exact ⟨issue, List.mem_cons_of_mem _ mem, wrote⟩
    · rw [World.push_db, redis]
      simpa [timesTaken, timesIssued, List.countP_cons, issued, taken] using states.count token
    · rw [taken] at is
      cases is
  · refine ⟨fun token stored found => ?_, fun token => ?_, fun token value is => ?_, states.taken⟩
    · rw [World.push_db, redis, Table.find?_assign] at found
      split at found
      · cases found
        exact ⟨_, List.mem_cons_self, issued⟩
      · obtain ⟨issue, mem, wrote⟩ := states.origin token stored found
        exact ⟨issue, List.mem_cons_of_mem _ mem, wrote⟩
    · rw [World.push_db, redis, Table.find?_assign]
      have before := states.count token
      by_cases same : stateKey token = entry.key
      · simp [timesTaken, timesIssued, issued, taken, same] at before ⊢
        omega
      · simp [timesTaken, timesIssued, issued, taken, same, Ne.symm same] at before ⊢
        exact before
    · rw [taken] at is
      cases is
  · refine ⟨fun token stored found => ?_, fun token => ?_, fun token value is => ?_, states.taken⟩
    · rw [World.push_db, redis, Table.find?_erase] at found
      split at found
      · cases found
      · obtain ⟨issue, mem, wrote⟩ := states.origin token stored found
        exact ⟨issue, List.mem_cons_of_mem _ mem, wrote⟩
    · rw [World.push_db, redis, Table.find?_erase]
      have before := states.count token
      by_cases same : stateKey token = key
      · rcases taken with taken | ⟨entry, stored, _, taken⟩
        · simp [timesTaken, timesIssued, issued, taken, same] at before ⊢
          omega
        · simp [timesTaken, timesIssued, issued, taken, same, stored] at before ⊢
          exact before
      · rcases taken with taken | ⟨entry, stored, _, taken⟩
        · simpa [timesTaken, timesIssued, issued, taken, same] using before
        · simpa [timesTaken, timesIssued, issued, taken, same, Ne.symm same] using before
    · rcases taken with taken | ⟨entry, stored, alive, taken⟩
      · rw [taken] at is
        cases is
      · rw [taken] at is
        cases is
        obtain ⟨issue, mem, wrote⟩ := states.origin token entry stored
        exact ⟨issue, mem, entry, wrote, Table.find?_key stored, rfl, alive⟩

/-! ### Reading the log -/

/-- A key belongs to one state. -/
theorem stateKey_inj {token token' : String} (same : stateKey token = stateKey token') :
    token = token' :=
  (String.append_right_inj _).mp same

/-- A stored state is read back. -/
theorem decodeValue_encodeValue {store : RedisSocialLinkStateStore} {data : SocialLinkStateData}
    (reads : store.json.ReadsBack (encodedMembers data)) :
    store.decodeValue (store.encodeValue data) = .ok data := by
  obtain ⟨members, parsed, same⟩ := reads
  have user : members.lookup "user_id" = some (.int data.internalUserId.toInt) := by
    rw [same]
    simp [encodedMembers]
  have provider : members.lookup "provider" = some (.str data.provider) := by
    rw [same]
    simp [encodedMembers, List.lookup_cons]
  have low := Int32.le_toInt data.internalUserId
  have high := Int32.toInt_lt data.internalUserId
  have range : -2 ^ 31 ≤ data.internalUserId.toInt ∧ data.internalUserId.toInt < 2 ^ 31 := by
    omega
  simp only [decodeValue, encodeValue, parsed, Json.hasMember, Json.get, user, provider,
    Option.isSome_some, Option.getD_some, userIdMember, providerMember, if_pos range]
  simp [bind, Except.bind, pure, Except.pure]

variable {log : List (SocialEvent ι)} {store : RedisSocialLinkStateStore} {calls : ι → SocialCall}

/-- Every event of the log is in the order of its call. -/
abbrev InOrder (store : RedisSocialLinkStateStore) (calls : ι → SocialCall)
    (log : List (SocialEvent ι)) : Prop :=
  Abides (FitsAll LinkStateFlow.next .idle fun i => StateOrder store (calls i)) log

/-- A step moves the stage of its own call only. -/
theorem linkStateFlow_cons {e : SocialEvent ι} :
    linkStateFlow i (e :: log) =
      if e.thread = i then (linkStateFlow i log).next e.op e.res else linkStateFlow i log :=
  rfl

theorem LinkStateFlow.next_issued {o : SocialOp} {r : SocialSig.Res o} :
    LinkStateFlow.issued.next o r = .issued := by
  cases o with
  | getDel key => rcases r with _ | _ | _ <;> rfl
  | _ => rfl

theorem LinkStateFlow.next_exchanged {o : SocialOp} {r : SocialSig.Res o} :
    LinkStateFlow.exchanged.next o r = .exchanged := by
  cases o with
  | getDel key => rcases r with _ | _ | _ <;> rfl
  | _ => rfl

omit [DecidableEq ι] in
/-- A state that was drawn was drawn by some step. -/
theorem drawn_step {g : LinkStateFlow} {e : SocialEvent ι} {token : String}
    (at_ : g.next e.op e.res = .drawn token) : g = .drawn token ∨ drawnToken e = some token := by
  obtain ⟨j, tick, o, r, pre⟩ := e
  cases o with
  | secureRandomBytes =>
      cases g with
      | idle =>
          simp only [LinkStateFlow.next] at at_
          split at at_
          · rename_i filled
            cases at_
            exact .inr (if_pos filled)
          · cases at_
      | _ => exact .inl at_
  | getDel key => rcases r with _ | _ | _ <;> cases g <;> first | exact .inl at_ | cases at_
  | _ => cases g <;> first | exact .inl at_ | cases at_

omit [DecidableEq ι] in
/-- A state that was taken was taken by some step. -/
theorem taken_step {g : LinkStateFlow} {e : SocialEvent ι} {key value : String}
    (at_ : g.next e.op e.res = .taken key value) :
    g = .taken key value ∨ takenEntry e = some (key, value) := by
  obtain ⟨j, tick, o, r, pre⟩ := e
  cases o with
  | secureRandomBytes =>
      cases g with
      | idle =>
          simp only [LinkStateFlow.next] at at_
          split at at_ <;> cases at_
      | _ => exact .inl at_
  | getDel key =>
      rcases r with _ | _ | value
      · exact .inl at_
      · exact .inl at_
      · cases g with
        | idle =>
            cases at_
            exact .inr rfl
        | _ => exact .inl at_
  | _ => cases g <;> first | exact .inl at_ | cases at_

/-- The step that has drawn it is in the log. -/
theorem drawn_of_flow {token : String} (at_ : linkStateFlow i log = .drawn token) :
    ∃ e ∈ log, e.thread = i ∧ drawnToken e = some token := by
  induction log with
  | nil => cases at_
  | cons e log ih =>
      have before : linkStateFlow i log = .drawn token →
          ∃ d ∈ e :: log, d.thread = i ∧ drawnToken d = some token := by
        intro at_
        obtain ⟨d, mem, own, drew⟩ := ih at_
        exact ⟨d, List.mem_cons_of_mem _ mem, own, drew⟩
      rw [linkStateFlow_cons] at at_
      split at at_
      · rename_i own
        rcases drawn_step at_ with at_ | drew
        · exact before at_
        · exact ⟨e, List.mem_cons_self, own, drew⟩
      · exact before at_

/-- The step that has taken it is in the log. -/
theorem taken_of_flow {key value : String} (at_ : linkStateFlow i log = .taken key value) :
    ∃ later e earlier, log = later ++ e :: earlier ∧ e.thread = i ∧
      takenEntry e = some (key, value) := by
  induction log with
  | nil => cases at_
  | cons e log ih =>
      have before : linkStateFlow i log = .taken key value →
          ∃ later t earlier, e :: log = later ++ t :: earlier ∧ t.thread = i ∧
            takenEntry t = some (key, value) := by
        intro at_
        obtain ⟨later, t, earlier, rfl, own, took⟩ := ih at_
        exact ⟨e :: later, t, earlier, rfl, own, took⟩
      rw [linkStateFlow_cons] at at_
      split at at_
      · rename_i own
        rcases taken_step at_ with at_ | took
        · exact before at_
        · exact ⟨[], e, log, rfl, own, took⟩
      · exact before at_

/-- What a call has done stays done. -/
theorem flow_of_mem {g : LinkStateFlow} (stays : ∀ o r, g.next o r = g) {e : SocialEvent ι}
    {earlier later : List (SocialEvent ι)}
    (here : linkStateFlow e.thread (e :: earlier) = g) :
    linkStateFlow e.thread (later ++ e :: earlier) = g := by
  induction later with
  | nil => exact here
  | cons e' later ih =>
      rw [List.cons_append, linkStateFlow_cons, ih, stays]
      exact ite_self g

/-- A state is stored by the call that drew it. -/
theorem issue_order {e : SocialEvent ι} {earlier : List (SocialEvent ι)}
    (fits : FitsAll LinkStateFlow.next .idle (fun i => StateOrder store (calls i)) e earlier)
    {entry : LinkStateEntry} (wrote : issuedEntry e = some entry) :
    ∃ provider userId token, calls e.thread = .beginLink provider userId ∧
      SocialLinkService.isValidProvider provider = true ∧
      linkStateFlow e.thread earlier = .drawn token ∧
      entry = ⟨stateKey token,
        store.encodeValue { internalUserId := userId, provider := provider },
        e.pre.clock + store.ttlSeconds * 1000⟩ ∧
      linkStateFlow e.thread (e :: earlier) = .issued := by
  unfold issuedEntry at wrote
  split at wrote
  · obtain ⟨provider, userId, token, call, valid, at_, rfl, rfl, rfl⟩ := fits
    cases wrote
    refine ⟨provider, userId, token, call, valid, at_, rfl, ?_⟩
    rw [linkStateFlow_cons, if_pos rfl]
    rw [show linkStateFlow _ earlier = _ from at_]
    rfl
  · cases wrote

/-- A code is exchanged by the call that took the state. -/
theorem exchange_order {e : SocialEvent ι} {earlier : List (SocialEvent ι)}
    (fits : FitsAll LinkStateFlow.next .idle (fun i => StateOrder store (calls i)) e earlier)
    (exchange : exchanges e = true) :
    ∃ provider code state userId value, calls e.thread = .linkAccount provider code state userId ∧
      linkStateFlow e.thread earlier = .taken (stateKey (cString state)) value ∧
      store.decodeValue value = .ok { internalUserId := userId, provider := provider } ∧
      linkStateFlow e.thread (e :: earlier) = .exchanged := by
  obtain ⟨j, tick, o, r, pre⟩ := e
  have order : StateOrder store (calls j) (linkStateFlow j earlier) o := fits
  have kind : isExchange o = true := exchange
  cases o with
  | fetchProfile code | googleLogin code | weChatLogin code =>
      obtain ⟨provider, code, state, userId, value, call, at_, decoded⟩ := order kind
      refine ⟨provider, code, state, userId, value, call, at_, decoded, ?_⟩
      rw [linkStateFlow_cons, if_pos rfl]
      dsimp only
      rw [at_]
      rfl
  | _ => cases kind

/-! ### One use -/

/-- Calls of the run draw different tokens. -/
def DistinctDraws (log : List (SocialEvent ι)) : Prop :=
  ∀ e ∈ log, ∀ e' ∈ log, ∀ token, drawnToken e = some token → drawnToken e' = some token →
    e.thread = e'.thread

omit [DecidableEq ι] in
theorem DistinctDraws.of_cons {e : SocialEvent ι} (distinct : DistinctDraws (e :: log)) :
    DistinctDraws log :=
  fun d mem d' mem' => distinct d (List.mem_cons_of_mem _ mem) d' (List.mem_cons_of_mem _ mem')

/-- With distinct draws, a key is stored once. -/
theorem timesIssued_le_one (order : InOrder store calls log) (distinct : DistinctDraws log)
    (token : String) : timesIssued (stateKey token) log ≤ 1 := by
  induction log with
  | nil => exact Nat.zero_le 1
  | cons e log ih =>
      have rest := ih order.2 distinct.of_cons
      unfold timesIssued at rest ⊢
      rw [List.countP_cons]
      split
      · -- Whoever has issued the token before has drawn it, so it is the same call.
        rename_i again
        obtain ⟨entry, wrote, key⟩ := (Option.any_eq_true _ _).mp again
        obtain ⟨_, _, token', _, _, at_, rfl, _⟩ := issue_order order.1 wrote
        obtain rfl := stateKey_inj (of_decide_eq_true key)
        have none : log.countP (fun e => (issuedEntry e).any fun entry =>
            entry.key = stateKey token') = 0 := by
          refine List.countP_eq_zero.mpr fun before mem again => ?_
          obtain ⟨entry, wrote, key⟩ := (Option.any_eq_true _ _).mp again
          obtain ⟨later, earlier, rfl, fits⟩ := order.2.of_mem mem
          obtain ⟨_, _, token, _, _, drawn, rfl, done⟩ := issue_order fits wrote
          obtain rfl := stateKey_inj (of_decide_eq_true key)
          obtain ⟨d, drew, own, isD⟩ := drawn_of_flow at_
          obtain ⟨d', drew', own', isD'⟩ := drawn_of_flow drawn
          have same := distinct.of_cons d drew d'
            (List.mem_append_right _ (List.mem_cons_of_mem _ drew')) _ isD isD'
          rw [own, own'] at same
          have issued : linkStateFlow before.thread (later ++ before :: earlier) = .issued :=
            flow_of_mem (fun _ _ => LinkStateFlow.next_issued) done
          rw [← same, at_] at issued
          cases issued
        omega
      · exact rest

theorem two_le_countP {α : Type} {p : α → Bool} {l : List α} {a b : α} (memA : a ∈ l)
    (memB : b ∈ l) (ne : a ≠ b) (pa : p a = true) (pb : p b = true) : 2 ≤ l.countP p := by
  have inA : a ∈ l.filter p := List.mem_filter.mpr ⟨memA, pa⟩
  have inB : b ∈ l.filter p := List.mem_filter.mpr ⟨memB, pb⟩
  rw [List.countP_eq_length_filter]
  generalize l.filter p = found at inA inB ⊢
  rcases found with _ | ⟨x, _ | ⟨y, rest⟩⟩
  · cases inA
  · exact absurd ((List.mem_singleton.mp inA).trans (List.mem_singleton.mp inB).symm) ne
  · exact Nat.le_add_left 2 rest.length

/-- The state that a call presents, as far as Redis sees it. -/
def presented : SocialCall → Option String
  | .linkAccount _ _ state _ => some (cString state)
  | _ => none

/-- An exchange and the taking of the state that its call presents. -/
theorem taken_of_exchange (order : InOrder store calls log) {e : SocialEvent ι} (mem : e ∈ log)
    (exchange : exchanges e = true) :
    ∃ token, presented (calls e.thread) = some token ∧ ∃ t ∈ log, t.thread = e.thread ∧
      ((takenEntry t).any fun entry => entry.1 = stateKey token) = true := by
  obtain ⟨later, earlier, rfl, fits⟩ := order.of_mem mem
  obtain ⟨provider, code, state, userId, value, call, at_, _⟩ := exchange_order fits exchange
  obtain ⟨later', t, earlier', rfl, own, took⟩ := taken_of_flow at_
  refine ⟨cString state, by rw [call]; rfl, t, by simp, own, ?_⟩
  rw [took]
  simp

/-- What was taken for one exchange is not taken again. -/
theorem exchanges_apart {w : SocialWorld ι} (order : InOrder store calls w.log)
    (states : StatesIssued w) (distinct : DistinctDraws w.log) :
    w.log.Pairwise fun e e' => exchanges e = true → exchanges e' = true →
      presented (calls e.thread) ≠ presented (calls e'.thread) := by
  rw [List.pairwise_iff_forall_sublist]
  intro e e' sub exchange exchange' same
  obtain ⟨upper, lower, split, inUpper, inLower⟩ := List.cons_sublist_iff.mp sub
  obtain ⟨later, between, rfl⟩ := List.append_of_mem inUpper
  have before : e' ∈ between ++ lower :=
    List.mem_append_right _ (List.singleton_sublist.mp inLower)
  rw [List.append_assoc, List.cons_append] at split
  have mem : e ∈ w.log := by simp [split]
  have mem' : e' ∈ w.log := by
    rw [split]
    exact List.mem_append_right _ (List.mem_cons_of_mem _ before)
  obtain ⟨token, is, t, took, own, hit⟩ := taken_of_exchange order mem exchange
  obtain ⟨token', is', t', took', own', hit'⟩ := taken_of_exchange order mem' exchange'
  rw [same, is'] at is
  cases is
  have apart : e.thread ≠ e'.thread := by
    intro eq
    rw [split] at order
    obtain ⟨fits, older⟩ := order.of_append
    obtain ⟨_, _, _, _, _, _, at_, _⟩ := exchange_order fits exchange
    obtain ⟨later', earlier', split', fits'⟩ := older.of_mem before
    obtain ⟨_, _, _, _, _, _, _, _, done⟩ := exchange_order fits' exchange'
    have exchanged : linkStateFlow e'.thread (later' ++ e' :: earlier') = .exchanged :=
      flow_of_mem (fun _ _ => LinkStateFlow.next_exchanged) done
    rw [← split', ← eq, at_] at exchanged
    cases exchanged
  have twice : 2 ≤ timesTaken (stateKey token) w.log := by
    refine two_le_countP took took' ?_ hit hit'
    intro eq
    rw [eq, own'] at own
    exact apart own.symm
  have most := timesIssued_le_one order distinct token
  have count := states.count token
  omega

/-- The exchange follows the taking of a state that a `beginLink` of the same user for the same
provider has issued, at most the lifetime ago. -/
def BoundExchange (store : RedisSocialLinkStateStore) (calls : ι → SocialCall)
    (e : SocialEvent ι) (log : List (SocialEvent ι)) : Prop :=
  exchanges e = true → ∃ provider code state userId,
    calls e.thread = .linkAccount provider code state userId ∧
    ∃ later take earlier, log = later ++ take :: earlier ∧ take.thread = e.thread ∧
      (takenEntry take).map Prod.fst = some (stateKey state) ∧
      ∃ issue ∈ earlier, calls issue.thread = .beginLink provider userId ∧
        (issuedEntry issue).map LinkStateEntry.key = some (stateKey state) ∧
        take.pre.clock < issue.pre.clock + store.ttlSeconds * 1000

/-- **An exchange stands behind a state** that its own user was issued for the provider. -/
theorem boundExchange (order : InOrder store calls log) (taken : Abides TakesIssued log)
    (reads : ∀ i provider userId, calls i = .beginLink provider userId →
      SocialLinkService.isValidProvider provider = true →
      store.json.ReadsBack (encodedMembers { internalUserId := userId, provider := provider }))
    (plain : ∀ i provider code state userId,
      calls i = .linkAccount provider code state userId → cString state = state) :
    Abides (BoundExchange store calls) log := by
  induction log with
  | nil => trivial
  | cons e log ih =>
      refine ⟨fun exchange => ?_, ih order.2 taken.2⟩
      obtain ⟨provider, code, state, userId, value, call, at_, decoded, _⟩ :=
        exchange_order order.1 exchange
      rw [plain _ _ _ _ _ call] at at_
      obtain ⟨later, take, earlier, rfl, own, took⟩ := taken_of_flow at_
      obtain ⟨issue, mem, entry, wrote, key, rfl, alive⟩ :=
        taken.2.of_append.1 state value took
      obtain ⟨_, before, split, fits⟩ := order.2.of_append.2.of_mem mem
      obtain ⟨provider', userId', token, call', valid, _, rfl, _⟩ := issue_order fits wrote
      rw [decodeValue_encodeValue (reads _ _ _ call' valid)] at decoded
      cases decoded
      exact ⟨provider, code, state, userId, call, later, take, earlier, rfl, own, by rw [took]; rfl,
        issue, mem, call', by rw [wrote, Option.map_some, key], alive⟩

omit [DecidableEq ι] in
/-- A step that issues nothing makes nothing usable. -/
theorem linkState_of_step (done : execSocial m i o w.db = some (r, s))
    (writes : issuedEntry ⟨i, w.tick, o, r, w.db⟩ = none) {key value : String}
    (after : s.linkState key = some value) : w.db.linkState key = some value := by
  have clock : w.db.clock ≤ s.clock := by
    simp only [execSocial, Option.some.injEq, Prod.mk.injEq] at done
    rw [← done.2]
    exact Nat.le_add_right _ _
  simp only [SocialStore.linkState, Option.map_eq_some_iff, Option.filter_eq_some_iff,
    decide_eq_true_eq] at after ⊢
  obtain ⟨entry, ⟨found, alive⟩, rfl⟩ := after
  refine ⟨entry, ⟨?_, by omega⟩, rfl⟩
  rcases execSocial_redis done with ⟨redis, _, _⟩ | ⟨_, issued, _, _⟩ | ⟨gone, redis, _, _⟩
  · rwa [redis] at found
  · rw [writes] at issued
    cases issued
  · rw [redis, Table.find?_erase] at found
    split at found
    · cases found
    · exact found

/-! ## Every run -/

/-- In every interleaving of calls that present states without a NUL and draw different tokens: an
exchange follows the taking of a state issued for the same user and provider within its lifetime,
no state leads to two exchanges, and no step of a `linkAccount` makes a state usable. -/
theorem link_state_bound (svc : SocialLinkService) (store : RedisSocialLinkStateStore)
    (wired : svc.stateStore = some store) (calls : ι → SocialCall)
    (reads : ∀ i provider userId, calls i = .beginLink provider userId →
      SocialLinkService.isValidProvider provider = true →
      store.json.ReadsBack (encodedMembers { internalUserId := userId, provider := provider }))
    (db : SocialStore) (fresh : ∀ token, db.redis.find? (stateKey token) = none)
    (plain : ∀ i provider code state userId,
      calls i = .linkAccount provider code state userId → Char.ofNat 0 ∉ state.toList)
    (sched : List (ι × SocialMoment))
    (distinct : DistinctDraws ((socialPool svc db calls).play execSocial sched).store.log) :
    let run := (socialPool svc db calls).play execSocial sched
    Abides (BoundExchange store calls) run.store.log ∧
      (run.store.log.Pairwise fun e e' => exchanges e = true → exchanges e' = true →
        presented (calls e.thread) ≠ presented (calls e'.thread)) ∧
      ∀ i m, (presented (calls i)).isSome = true → ∀ key value,
        (run.attempt execSocial (i, m)).store.db.linkState key = some value →
          run.store.db.linkState key = some value := by
  intro run
  have order : ∀ sched, InOrder store calls
      ((socialPool svc db calls).play execSocial sched).store.log :=
    Pool.play_fits rfl fun i => follows_state wired (calls i)
  have start : StatesIssued (socialPool svc db calls).store := by
    refine ⟨fun token entry found => ?_, fun token => ?_, trivial⟩
    · cases (fresh token).symm.trans found
    · have none : (socialPool svc db calls).store.db.redis.find? (stateKey token) = none :=
        fresh token
      rw [none]
      exact Nat.le_refl 0
  have states : StatesIssued run.store :=
    Pool.play_invariant start (fun w i o m r db states done => states.step done) sched
  refine ⟨?_, exchanges_apart (order sched) states distinct, ?_⟩
  · refine boundExchange (order sched) states.taken reads
      fun i provider code state userId call => ?_
    exact cString_of_nulFree (plain i provider code state userId call)
  · intro i m links key value after
    have longer := order (sched ++ [(i, m)])
    rw [Pool.play_append] at longer
    rcases Pool.attempt_cases execSocial run (i, m) with same | ⟨o, k, r, db', _, done, eq⟩
    · rwa [same] at after
    · rw [eq] at after
      refine linkState_of_step done ?_ after
      cases wrote : issuedEntry ⟨i, run.store.tick, o, r, run.store.db⟩ with
      | none => rfl
      | some entry =>
          have log : (((socialPool svc db calls).play execSocial sched).play execSocial
              [(i, m)]).store.log = ⟨i, run.store.tick, o, r, run.store.db⟩ :: run.store.log :=
            congrArg (fun c => c.store.log) eq
          rw [log] at longer
          obtain ⟨_, _, _, call, _⟩ := issue_order longer.1 wrote
          rw [show calls i = _ from call] at links
          cases links

end Events

/-! ### A flow of user 7 -/

/-- User 7 starts a flow, and presents the state with the given end. -/
def oneFlow (tail : String) : Bool → SocialCall
  | false => .beginLink "google" 7
  | true => .linkAccount "google" "code" ("00000000000000000000000000000000" ++ tail) 7

/-- A moment that draws zeros. -/
def zeros : SocialMoment where
  draw := Draw.filled (List.replicate 16 0)

/-- The whole flow, which gets to the exchange. -/
def oneFlowSched : List (Bool × SocialMoment) :=
  [(false, zeros), (false, {}), (true, {}), (true, { subject := "ann" })]

/-- A link from begin to end, with a tail on the state that comes back. -/
def oneFlowRun (tail : String) : Pool SocialSig Bool SocialLinkOpResult (SocialWorld Bool) :=
  (socialPool googleLinking {} (oneFlow tail)).play execSocial oneFlowSched

theorem googleStateJson_reads : googleStateJson.ReadsBack
    (encodedMembers { internalUserId := 7, provider := "google" }) := by
  refine ⟨[("provider", .str "google"), ("user_id", .int 7)], rfl, fun k => ?_⟩
  by_cases user : k = "user_id"
  · subst user
    rfl
  · by_cases provider : k = "provider"
    · subst provider
      rfl
    · have user' : (k == "user_id") = false := by simpa using user
      have provider' : (k == "provider") = false := by simpa using provider
      simp [encodedMembers, List.lookup_cons, user', provider']

theorem distinctDraws_of_one {log : List (SocialEvent Bool)}
    (one : ∀ e ∈ log, (drawnToken e).isSome = true → e.thread = false) : DistinctDraws log := by
  intro e mem e' mem' token drew drew'
  rw [one e mem (by rw [drew]; rfl), one e' mem' (by rw [drew']; rfl)]

theorem link_state_bound_google :
    (oneFlowRun "").store.log.any exchanges = true ∧
      Abides (BoundExchange { json := googleStateJson } (oneFlow ""))
        (oneFlowRun "").store.log := by
  refine ⟨by decide, ?_⟩
  have reads : ∀ i provider userId, oneFlow "" i = .beginLink provider userId →
      SocialLinkService.isValidProvider provider = true → googleStateJson.ReadsBack
        (encodedMembers { internalUserId := userId, provider := provider }) := by
    intro i provider userId call _
    cases i with
    | false =>
        cases call
        exact googleStateJson_reads
    | true => cases call
  have plain : ∀ i provider code state userId,
      oneFlow "" i = .linkAccount provider code state userId → Char.ofNat 0 ∉ state.toList := by
    intro i provider code state userId call
    cases i with
    | false => cases call
    | true =>
        cases call
        decide
  have said := @link_state_bound Bool _ googleLinking { json := googleStateJson } rfl (oneFlow "")
    reads {} (fun _ => rfl) plain oneFlowSched
  exact (said (distinctDraws_of_one (by decide))).1

/-- Redis reads the presented state up to its first NUL. -/
theorem link_state_with_nul :
    ∃ state, oneFlow "\x00x" true = .linkAccount "google" "code" state 7 ∧
      DistinctDraws (oneFlowRun "\x00x").store.log ∧
      (oneFlowRun "\x00x").store.log.any exchanges = true ∧
      ∀ issue ∈ (oneFlowRun "\x00x").store.log,
        (issuedEntry issue).map LinkStateEntry.key ≠ some (stateKey state) := by
  refine ⟨_, rfl, distinctDraws_of_one ?_, ?_, ?_⟩
  · decide
  · decide
  · decide

end Fulla
