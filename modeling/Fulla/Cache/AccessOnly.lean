import Fulla.Cache.CachedTokens

/-!
# The introspection cache is for access tokens

An introspection is kept only where the access entry of the same token exists, and an
access entry is written only for what the wrapped repository calls an access token or
has saved as one.  So nothing is ever kept for a refresh token, whatever the order of
the steps, and every introspection of one comes from the wrapped repository.
-/

namespace Fulla.AccessOnly

open Conc RedisCachedTokenRepository

variable {W X : Type}

/-- The wrapped repository keeps its access tokens apart from the refresh tokens, as long as
no access token is saved under the hash of one. -/
structure KeepsApart (impl : Wrapped TokenImplSig W X) (refresh : String → Prop)
    (apart : W → Prop) : Prop where
  answers : ∀ x token w t, apart w → (impl.exec x (.getAccessToken token) w).1 = some t →
    ¬ refresh token
  exec : ∀ x o w, apart w → (∀ t, o = .saveAccessToken t → ¬ refresh t.token) →
    apart (impl.exec x o w).2
  meanwhile : ∀ x w, apart w → apart (impl.meanwhile x w)

/-- An introspection of a refresh token that a call was answered with is the answer to a
revoked marker, or what the wrapped repository said after the call had begun. -/
def Served (refresh : String → Prop) (log : List (TokenEvent W)) : Prop :=
  ∀ rest since token r pre post,
    ⟨.callback since (.introspection token r), (), pre, post⟩ :: rest <:+ log → refresh token →
      r = some { active := false } ∨
        ∃ pre' post', ⟨.impl (.introspectToken token), r, pre', post'⟩ ∈ afterFirst since rest

/-- The invariant of a run: the keys of refresh tokens hold no entry, and what is in flight writes
none. -/
structure Inv (refresh : String → Prop) (apart : W → Prop) (s : CacheState W)
    (log : List (TokenEvent W)) : Prop where
  keys : ∀ h, refresh h → s.keys (accessKey h) = none ∧ s.keys (introspectKey h) = none
  wrapped : apart s.wrapped
  served : Served refresh log

/-! ## Steps -/

section Steps

/-- The operation writes nothing for a refresh token and answers no introspection. -/
def Harmless (refresh : String → Prop) : TokenCacheSig.Op → Prop
  | .redis (.set key _ _) => ∀ h, refresh h → accessKey h ≠ key ∧ introspectKey h ≠ key
  | .impl (.saveAccessToken t) => ¬ refresh t.token
  | .callback _ (.introspection _ _) => False
  | _ => True

variable {impl : Wrapped TokenImplSig W X} {refresh : String → Prop} {apart : W → Prop}
  {m : CacheMoment X} {s s' : CacheState W} {log : List (TokenEvent W)}

theorem key_kept {o : TokenCacheSig.Op} {r : TokenCacheSig.Res o} (harmless : Harmless refresh o)
    (stepped : execCache impl m o s = some (r, s')) {h key : String} (isRefresh : refresh h)
    (named : key = accessKey h ∨ key = introspectKey h) (absent : s.keys key = none) :
    s'.keys key = none := by
  rcases execCache_key stepped key with same | ⟨value, ttl, set, -⟩ | ⟨delayed, -, gone⟩
  · rw [same]
    exact absent
  · cases set
    rcases named with rfl | rfl
    · exact absurd rfl (harmless h isRefresh).1
    · exact absurd rfl (harmless h isRefresh).2
  · exact gone

/-- Everything but the answer to an introspection leaves what was served as it is. -/
theorem served_cons {e : TokenEvent W}
    (other : ∀ since token r, e.op ≠ .callback since (.introspection token r))
    (served : Served refresh log) : Served refresh (e :: log) := by
  intro rest since token r pre post found isRefresh
  rcases List.suffix_cons_iff.mp found with now | older
  · have eq := (List.cons.inj now).1
    rw [← eq] at other
    exact absurd rfl (other since token r)
  · exact served rest since token r pre post older isRefresh

theorem Inv.next {o : TokenCacheSig.Op} {r : TokenCacheSig.Res o} (inv : Inv refresh apart s log)
    (laws : KeepsApart impl refresh apart) (harmless : Harmless refresh o)
    (stepped : execCache impl m o s = some (r, s')) :
    Inv refresh apart s' (⟨o, r, s, s'⟩ :: log) := by
  constructor
  case keys =>
    intro h isRefresh
    obtain ⟨access, introspect⟩ := inv.keys h isRefresh
    exact ⟨key_kept harmless stepped isRefresh (.inl rfl) access,
      key_kept harmless stepped isRefresh (.inr rfl) introspect⟩
  case wrapped =>
    apply execCache_wrapped stepped (fun w => laws.meanwhile _ w) _ inv.wrapped
    intro i eq w holds
    apply laws.exec _ i w holds
    intro t saves
    rw [eq, saves] at harmless
    exact harmless
  case served =>
    apply served_cons _ inv.served
    intro since token r' eq
    rw [show o = _ from eq] at harmless
    exact harmless

theorem inv_kept (laws : KeepsApart impl refresh apart) :
    Async.Kept (execCache impl) (Inv refresh apart) fun _ => Harmless refresh :=
  fun _ _ _ _ _ _ inv harmless stepped => inv.next laws harmless stepped

end Steps

/-! ## Programs -/

section Programs

variable {impl : Wrapped TokenImplSig W X} {refresh : String → Prop} {apart : W → Prop}
  {log log₀ : List (TokenEvent W)}

/-- An answer that is no introspection. -/
theorem reply_safe (laws : KeepsApart impl refresh apart) {since : Nat} {a : TokenAnswer}
    (other : ∀ token r, a ≠ .introspection token r) :
    (reply since a).Safe (execCache impl) (Inv refresh apart) log := by
  apply Async.Safe.op_of_kept (inv_kept laws)
  · intro _ _
    cases a with
    | introspection token r => exact other token r rfl
    | _ => trivial
  · exact fun _ _ _ _ _ _ _ _ => trivial

/-- Where an introspection comes from. -/
def Sourced (refresh : String → Prop) (log₀ log : List (TokenEvent W)) (token : String)
    (r : Option TokenIntrospection) : Prop :=
  refresh token → r = some { active := false } ∨
    ∃ pre post log', log₀ <:+ log' ∧
      ⟨.impl (.introspectToken token), r, pre, post⟩ :: log' <:+ log

theorem reply_introspection_safe {token : String} {r : Option TokenIntrospection}
    (laws : KeepsApart impl refresh apart) (sourced : Sourced refresh log₀ log token r) :
    (reply log₀.length (.introspection token r)).Safe (execCache impl) (Inv refresh apart) log := by
  intro s log' later inv m u s' stepped
  have after : s' = s.pass impl m := execCache_local (by trivial) stepped
  refine ⟨⟨?_, ?_, ?_⟩, trivial⟩
  · rw [after]
    exact inv.keys
  · rw [after]
    exact laws.meanwhile _ _ inv.wrapped
  · intro rest since token' r' pre post found isRefresh
    rcases List.suffix_cons_iff.mp found with now | older
    · cases now
      rcases sourced isRefresh with inactive | ⟨pre', post', log'', before, asked⟩
      · exact .inl inactive
      · exact .inr ⟨pre', post', mem_afterFirst before (asked.trans later)⟩
    · exact inv.served rest since token' r' pre post older isRefresh

/-- The keys of a token that is no refresh token. -/
theorem keys_apart {token : String} (notRefresh : ¬ refresh token) {key : String}
    (named : key = accessKey token ∨ key = introspectKey token) (h : String)
    (isRefresh : refresh h) : accessKey h ≠ key ∧ introspectKey h ≠ key := by
  have ne : h ≠ token := fun eq => notRefresh (eq ▸ isRefresh)
  rcases named with rfl | rfl
  · exact ⟨fun same => ne (accessKey_inj same),
      fun same => accessKey_ne_introspectKey token h same.symm⟩
  · exact ⟨accessKey_ne_introspectKey h token, fun same => ne (introspectKey_inj same)⟩

theorem readAndFill_safe (cfg : TokenCache) (laws : KeepsApart impl refresh apart) (since : Nat)
    (token : String) :
    (readAndFill cfg since token).Safe (execCache impl) (Inv refresh apart) log := by
  refine .op_of_kept (inv_kept laws) (fun _ _ => trivial) fun s log' later inv m r s' stepped => ?_
  match r, stepped with
  | none, _ => exact reply_safe laws (fun _ _ eq => nomatch eq)
  | some t, stepped =>
      have notRefresh : ¬ refresh token :=
        laws.answers _ token _ t (laws.meanwhile _ _ inv.wrapped) (execCache_impl stepped).1.symm
      refine .op_of_kept (inv_kept laws) (fun _ _ => trivial) fun _ _ _ _ _ now _ _ => ?_
      apply fill_safe
      · intro ttl
        exact .op_of_kept (inv_kept laws) (fun _ _ => keys_apart notRefresh (.inl rfl))
          fun _ _ _ _ _ _ _ _ => trivial
      · exact reply_safe laws (fun _ _ eq => nomatch eq)

theorem delegateAccessToken_safe (laws : KeepsApart impl refresh apart) (since : Nat)
    (token : String) :
    (delegateAccessToken since token).Safe (execCache impl) (Inv refresh apart) log :=
  .op_of_kept (inv_kept laws) (fun _ _ => trivial) fun _ _ _ _ _ _ _ _ =>
    reply_safe laws (fun _ _ eq => nomatch eq)

theorem getAccessToken_safe (cfg : TokenCache) (laws : KeepsApart impl refresh apart) (since : Nat)
    (token : String) :
    (getAccessToken cfg since token).Safe (execCache impl) (Inv refresh apart) log := by
  unfold getAccessToken
  split
  · refine .op_of_kept (inv_kept laws) (fun _ _ => trivial)
      fun s log' later inv m r s' stepped => ?_
    match r with
    | none => exact delegateAccessToken_safe laws since token
    | some .revoked => exact reply_safe laws (fun _ _ eq => nomatch eq)
    | some .miss => exact readAndFill_safe cfg laws since token
    | some (.value v) =>
        dsimp only [onAccessLookup]
        split
        · trivial
        · exact reply_safe laws (fun _ _ eq => nomatch eq)
        · exact readAndFill_safe cfg laws since token
  · exact delegateAccessToken_safe laws since token

/-- The access entry is there, so the token is no refresh token. -/
theorem fillIntrospection_safe (cfg : TokenCache) (laws : KeepsApart impl refresh apart)
    (token : String) (r : TokenIntrospection) :
    (fillIntrospection cfg token r).Safe (execCache impl) (Inv refresh apart) log := by
  refine .op_of_kept (inv_kept laws) (fun _ _ => trivial) fun s log' later inv m ex s' stepped => ?_
  split
  · next present =>
      have notRefresh : ¬ refresh token := by
        intro isRefresh
        rw [present] at stepped
        rcases execCache_redis stepped with ⟨failed, -⟩ | ⟨answer, -⟩
        · cases failed
        · obtain ⟨e, stored, -⟩ := CacheKeys.alive_eq_true.mp (Option.some.inj answer).symm
          rw [(inv.keys token isRefresh).1] at stored
          cases stored
      refine .op_of_kept (inv_kept laws) (fun _ _ => trivial) fun _ _ _ _ _ now _ _ => ?_
      apply fill_safe
      · intro ttl
        exact .op_of_kept (inv_kept laws) (fun _ _ => keys_apart notRefresh (.inr rfl))
          fun _ _ _ _ _ _ _ _ => trivial
      · trivial
  · trivial

theorem introspectAndFill_safe (cfg : TokenCache) (laws : KeepsApart impl refresh apart)
    (token : String) (started : log₀ <:+ log) :
    (introspectAndFill cfg log₀.length token).Safe (execCache impl) (Inv refresh apart) log := by
  refine .op_of_kept (inv_kept laws) (fun _ _ => trivial) fun s log' later inv m r s' stepped => ?_
  have asked : Sourced refresh log₀ (⟨.impl (.introspectToken token), r, s, s'⟩ :: log') token r :=
    fun _ => .inr ⟨s, s', log', started.trans later, List.suffix_rfl⟩
  match r, asked with
  | none, asked => exact reply_introspection_safe laws asked
  | some r, asked =>
      dsimp only
      split
      · exact ⟨fillIntrospection_safe cfg laws token r, reply_introspection_safe laws asked⟩
      · exact reply_introspection_safe laws asked

theorem delegateIntrospection_safe (laws : KeepsApart impl refresh apart) (token : String)
    (started : log₀ <:+ log) :
    (delegateIntrospection log₀.length token).Safe (execCache impl) (Inv refresh apart) log :=
  .op_of_kept (inv_kept laws) (fun _ _ => trivial) fun s log' later _ _ _ s' _ =>
    reply_introspection_safe laws
    fun _ => .inr ⟨s, s', log', started.trans later, List.suffix_rfl⟩

theorem introspectToken_safe (cfg : TokenCache) (laws : KeepsApart impl refresh apart)
    (token : String) :
    (introspectToken cfg log.length token).Safe (execCache impl) (Inv refresh apart) log := by
  unfold introspectToken
  split
  · refine .op_of_kept (inv_kept laws) (fun _ _ => trivial)
      fun s log' later inv m r s' stepped => ?_
    have started := later.trans (List.suffix_cons (⟨_, r, s, s'⟩ : TokenEvent W) log')
    match r, stepped with
    | none, _ => exact delegateIntrospection_safe laws token started
    | some .revoked, _ => exact reply_introspection_safe laws fun _ => .inl rfl
    | some .miss, _ => exact introspectAndFill_safe cfg laws token started
    | some (.value v), stepped =>
        -- an entry was found, which a refresh token does not have
        have notRefresh : ¬ refresh token := by
          intro isRefresh
          rcases execCache_redis stepped with ⟨failed, -⟩ | ⟨answer, -⟩
          · cases failed
          · have absent : s.keys.find? s'.clock (introspectKey token) = none := by
              simp [CacheKeys.find?, (inv.keys token isRefresh).2]
            have found := Option.some.inj answer
            rw [absent] at found
            split at found <;> cases found
        dsimp only [onIntrospectionLookup]
        split
        · trivial
        · exact reply_introspection_safe laws fun isRefresh => absurd isRefresh notRefresh
        · exact introspectAndFill_safe cfg laws token started
  · exact delegateIntrospection_safe laws token List.suffix_rfl

theorem revokeAccessToken_safe (cfg : TokenCache) (laws : KeepsApart impl refresh apart)
    (since : Nat) (token revokedBy : String) :
    (revokeAccessToken cfg since token revokedBy).Safe (execCache impl)
      (Inv refresh apart) log := by
  have marker : Harmless refresh (.redis (.set (revokedKey token) "1" 60)) := fun h _ =>
    ⟨accessKey_ne_revokedKey h token, introspectKey_ne_revokedKey h token⟩
  apply Async.Safe.of_only (P := Harmless refresh)
  · exact revokeAccessToken_only trivial trivial marker (fun _ => ⟨trivial, trivial⟩)
      (fun _ => trivial) trivial
  · exact fun _ harmless _ _ inv _ _ _ stepped => inv.next laws harmless stepped

theorem saveAccessToken_safe (cfg : TokenCache) (laws : KeepsApart impl refresh apart) (since : Nat)
    {token : OAuth2AccessToken} (notRefresh : ¬ refresh token.token) :
    (saveAccessToken cfg since token).Safe (execCache impl) (Inv refresh apart) log := by
  apply Async.Safe.of_only (P := Harmless refresh)
  · exact saveAccessToken_only notRefresh trivial
      (fun _ _ => keys_apart notRefresh (.inl rfl)) trivial
  · exact fun _ harmless _ _ inv _ _ _ stepped => inv.next laws harmless stepped

end Programs

/-! ## Runs -/

/-- Nothing is ever kept for a refresh token, and an introspection of one is never served from
the cache. -/
theorem introspections_of_access_tokens (cfg : TokenCache) (impl : Wrapped TokenImplSig W X)
    (refresh : String → Prop) (apart : W → Prop) (laws : KeepsApart impl refresh apart) (w : W)
    (start : apart w) (moves : List (TokenMove X))
    (saves : ∀ t, Move.call (.saveAccessToken t) ∈ moves → ¬ refresh t.token) :
    (∀ h, refresh h → (runTokens cfg impl w moves).store.keys (introspectKey h) = none) ∧
      Served refresh (runTokens cfg impl w moves).log := by
  have calls : ∀ call, Move.call call ∈ moves → ∀ (s : CacheState W) log, Inv refresh apart s log →
      (call.prog cfg log.length).Safe (execCache impl) (Inv refresh apart) log := by
    intro call mem s log _
    cases call with
    | getAccessToken token => exact getAccessToken_safe cfg laws log.length token
    | introspectToken token => exact introspectToken_safe cfg laws token
    | revokeAccessToken token revokedBy =>
        exact revokeAccessToken_safe cfg laws log.length token revokedBy
    | saveAccessToken token => exact saveAccessToken_safe cfg laws log.length (saves token mem)
  have empty : Inv refresh apart { wrapped := w } [] := by
    refine ⟨fun _ _ => ⟨rfl, rfl⟩, start, fun rest since token r pre post found => ?_⟩
    cases List.suffix_nil.mp found
  obtain ⟨inv, -⟩ := Tasks.run_safe calls (c := { store := { wrapped := w } })
    ⟨empty, fun _ mem => nomatch mem⟩
  exact ⟨fun h isRefresh => (inv.keys h isRefresh).2, inv.served⟩

/-- The memory repository, with no access token under the hash of a refresh token. -/
theorem memoryTokens_keepsApart (refresh : String → Prop) :
    KeepsApart memoryTokens refresh
      fun db => ∀ token t, db.accessTokens.find? token = some t → ¬ refresh token := by
  constructor
  case answers =>
    intro x token db t apart_ answered
    simp only [memoryTokens, MemoryTokenRepository.getAccessToken] at answered
    cases found : db.accessTokens.find? token with
    | none => simp [found] at answered
    | some t' => exact apart_ token t' found
  case exec =>
    intro x o db apart_ saves token t found
    cases o with
    | getAccessToken token' =>
        rw [show (memoryTokens.exec x (.getAccessToken token') db).2 = db from
          MemoryTokenRepository.getAccessToken_snd _ _ _] at found
        exact apart_ token t found
    | introspectToken token' =>
        rw [show (memoryTokens.exec x (.introspectToken token') db).2 = db from
          MemoryTokenRepository.introspectToken_snd _ _ _] at found
        exact apart_ token t found
    | revokeAccessToken token' revokedBy =>
        simp only [memoryTokens, MemoryTokenRepository.revokeAccessToken,
          Table.find?_updateWhere] at found
        obtain ⟨t', was, -⟩ := Option.map_eq_some_iff.mp found
        exact apart_ token t' was
    | saveAccessToken t' =>
        simp only [memoryTokens, MemoryTokenRepository.saveAccessToken, Table.find?_assign] at found
        split at found
        · next eq =>
            rw [eq]
            exact saves t' rfl
        · exact apart_ token t found
  case meanwhile =>
    intro x db apart_ token t found
    rw [memoryTokens_meanwhile] at found
    exact apart_ token t found

/-! ### A rotated refresh token -/

/-- A store with one access token and one refresh token. -/
def sampleDb : Db :=
  { accessTokens := Table.empty.assign sampleToken
    refreshTokens := Table.empty.assign
      { token := "RT", accessToken := "AT", clientId := "app", userId := "sub-7"
        scope := "openid", expiresAt := 9000 } }

/-- A second of the sample run. -/
def sampleMoment (elapsed : Nat) (rotated : Option String) : CacheMoment MemoryAround :=
  { elapsed := elapsed, time := 1000
    around := { moment := { now := 1000000 }, rotated := rotated } }

/-- The refresh token is introspected, rotated, and introspected again. -/
def sampleMoves : List (TokenMove MemoryAround) :=
  [Move.call (TokenCall.getAccessToken "AT"), Move.call (TokenCall.introspectToken "RT")] ++
    List.replicate 9 (Move.happen 0 (sampleMoment 10 none)) ++
    [Move.call (TokenCall.introspectToken "RT")] ++
    List.replicate 3 (Move.happen 0 (sampleMoment 10 (some "RT")))

/-- What the callbacks of a log have delivered. -/
def sampleAnswers (log : List (TokenEvent Db)) : List TokenAnswer :=
  log.filterMap fun e =>
    match e.op with
    | .callback _ a => some a
    | _ => none

theorem introspections_of_access_tokens_rotated :
    (sampleAnswers (runTokens { json := sampleJson } memoryTokens sampleDb sampleMoves).log).head? =
        some (.introspection "RT" (some { active := false })) ∧
      (∀ h, h = "RT" → (runTokens { json := sampleJson } memoryTokens sampleDb
        sampleMoves).store.keys (introspectKey h) = none) ∧
      Served (· = "RT")
        (runTokens { json := sampleJson } memoryTokens sampleDb sampleMoves).log := by
  refine ⟨by decide +kernel, ?_⟩
  apply introspections_of_access_tokens { json := sampleJson } memoryTokens (· = "RT") _
    (memoryTokens_keepsApart _) sampleDb _ sampleMoves _
  · intro token t found isRefresh
    rw [isRefresh] at found
    cases found
  · intro t mem
    simp [sampleMoves] at mem

end Fulla.AccessOnly
