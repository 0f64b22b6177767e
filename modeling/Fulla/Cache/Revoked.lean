import Fulla.Cache.CachedTokens

/-!
# Revoked tokens and the cache

`revokeAccessToken` writes to the wrapped repository, and then sends a marker that
lives for sixty seconds, a `DEL` of the entries, and a second one two tenths of a
second later; it waits for none of them.  What may still come is the fill of a reader
that has asked the wrapped repository before the revocation.

The marker hides such a fill for as long as it lives and the second `DEL` removes it
for good, unless it comes after that and lives longer than the marker.  As long as no
fill does, and every look-up after the callback finds the marker or comes after the
second `DEL`, a revoked token is not handed out again.
-/

namespace Fulla.RevokedTokens

open Conc RedisCachedTokenRepository

variable {W X : Type}

/-- The wrapped repository hands out a token that it has revoked only as revoked, and does not
forget it, unless the token is saved anew. -/
structure Revokes (impl : Wrapped TokenImplSig W X) (revoked : String → W → Bool) : Prop where
  reads : ∀ x h w t, revoked h w = true → (impl.exec x (.getAccessToken h) w).1 = some t →
    t.revoked = true
  exec : ∀ x o h w, (∀ t, o = .saveAccessToken t → t.token ≠ h) → revoked h w = true →
    revoked h (impl.exec x o w).2 = true
  meanwhile : ∀ x h w, revoked h w = true → revoked h (impl.meanwhile x w) = true

section Conditions

variable (cfg : TokenCache) (revoked : String → W → Bool) (h : String)

/-- The text is an entry for a token that is not revoked. -/
def valid (value : String) : Bool :=
  match deserializeAccessToken cfg.json value with
  | .ok (some t) => !t.revoked
  | _ => false

/-- A revocation of `h` calls back, with `h` revoked in the wrapped repository. -/
def returns : TokenEvent W → Bool
  | ⟨.callback _ (.revoked token), _, pre, _⟩ => decide (token = h) && revoked h pre.wrapped
  | _ => false

/-- The log holds the reply of a revocation. -/
def returned (log : List (TokenEvent W)) : Bool :=
  log.any (returns revoked h)

/-- A second `DEL` of the access entry is executed, with `h` revoked in the wrapped repository. -/
def cleans : TokenEvent W → Bool
  | ⟨.redis (.del key true), ok, pre, _⟩ =>
    decide (key = accessKey h) && (ok : Bool) && revoked h pre.wrapped
  | _ => false

/-- The log holds the second `DEL` of a revocation. -/
def cleaned (log : List (TokenEvent W)) : Bool :=
  log.any (cleans revoked h)

/-- The marker lives until then. -/
def outlives (s : CacheState W) (time : Nat) : Bool :=
  (s.keys (revokedKey h)).any fun marker => time ≤ marker.expireAt

/-- A fill with a token that is not revoked comes before the second `DEL` or is gone with the
marker, and a look-up after the callback finds the marker or comes after the second `DEL`. -/
def InTime (log : List (TokenEvent W)) : TokenEvent W → Bool
  | ⟨.redis (.set key value ttl), ok, pre, post⟩ =>
    !(decide (key = accessKey h) && (ok : Bool) && valid cfg value && cleaned revoked h log) ||
      outlives h pre (post.clock + ttl * 1000)
  | ⟨.redis (.revokedThenGet _ key), reply, pre, post⟩ =>
    !(decide (key = accessKey h) && Option.isSome reply && returned revoked h log) ||
      pre.keys.alive post.clock (revokedKey h) || cleaned revoked h log
  | _ => true

/-- A call that began after the callback of a revocation is not answered with a token that is
not revoked. -/
def NotResurrected (log : List (TokenEvent W)) : TokenEvent W → Bool
  | ⟨.callback since (.accessToken token (some t)), _, _, _⟩ =>
    !(decide (token = h) && returned revoked h (firstOf since log)) || t.revoked
  | _ => true

end Conditions

/-! ## The invariant -/

section Invariant

variable (cfg : TokenCache) (revoked : String → W → Bool) (h : String)

/-- What holds as long as everything is in time. -/
structure Settled (s : CacheState W) (log : List (TokenEvent W)) : Prop where
  guarded : cleaned revoked h log = true → ∀ e, s.keys (accessKey h) = some e →
    valid cfg e.value = true → outlives h s e.expireAt = true
  answered : EachIn (NotResurrected revoked h) log = true

/-- The invariant of a run: what the marker, the entries and what is in flight may still hold. -/
structure Inv (s : CacheState W) (log : List (TokenEvent W)) : Prop where
  marker : ∀ e, s.keys (revokedKey h) = some e → e.expireAt ≤ s.clock + 60000
  wrapped : ∀ e ∈ log, revoked h e.pre.wrapped = true → revoked h s.wrapped = true
  settled : EachIn (InTime cfg revoked h) log = true → Settled cfg revoked h s log

/-- What the code does not do: a marker with another lifetime, a deletion of the marker, a second
save of the token, an answer with a resurrected token. -/
def Fits (log : List (TokenEvent W)) : TokenCacheSig.Op → Prop
  | .redis (.set key _ ttl) => key = revokedKey h → ttl = 60
  | .redis (.del key _) => key ≠ revokedKey h
  | .impl (.saveAccessToken t) => t.token ≠ h
  | .callback since (.accessToken token (some t)) =>
    token = h → EachIn (InTime cfg revoked h) log = true → t.revoked = false →
      returned revoked h (firstOf since log) = false
  | _ => True

end Invariant

section Steps

variable {cfg : TokenCache} {impl : Wrapped TokenImplSig W X} {revoked : String → W → Bool}
  {h : String} {m : CacheMoment X} {s s' : CacheState W} {log : List (TokenEvent W)}
  {o : TokenCacheSig.Op} {r : TokenCacheSig.Res o}

theorem outlives_eq_true {time : Nat} :
    outlives h s time = true ↔ ∃ e, s.keys (revokedKey h) = some e ∧ time ≤ e.expireAt := by
  simp [outlives, Option.any_eq_true]

/-- The marker of a later state lives at least as long. -/
theorem outlives_next (stepped : execCache impl m o s = some (r, s'))
    (fits : Fits cfg revoked h log o)
    (marker : ∀ e, s.keys (revokedKey h) = some e → e.expireAt ≤ s.clock + 60000) {time : Nat}
    (lives : outlives h s time = true) : outlives h s' time = true := by
  obtain ⟨e, stored, late⟩ := outlives_eq_true.mp lives
  rcases execCache_key stepped (revokedKey h) with same | ⟨value, ttl, set, now⟩ | ⟨_, del, -⟩
  · exact outlives_eq_true.mpr ⟨e, same.trans stored, late⟩
  · cases set
    have minute : ttl = 60 := fits rfl
    have bound := marker e stored
    have clock := execCache_clock stepped
    refine outlives_eq_true.mpr ⟨_, now, ?_⟩
    dsimp only
    omega
  · cases del
    exact absurd rfl fits

/-- The second `DEL` takes the entry away. -/
theorem cleaned_cons (stepped : execCache impl m o s = some (r, s'))
    (clean : cleaned revoked h (⟨o, r, s, s'⟩ :: log) = true) :
    s'.keys (accessKey h) = none ∨ cleaned revoked h log = true := by
  rcases Bool.or_eq_true_iff.mp clean with now | before
  · left
    unfold cleans at now
    split at now
    · next key ok pre post eq =>
        cases eq
        simp only [Bool.and_eq_true, decide_eq_true_eq] at now
        obtain ⟨⟨rfl, rfl⟩, -⟩ := now
        rcases execCache_redis stepped with ⟨failed, -⟩ | ⟨-, after⟩
        · cases failed
        · rw [after]
          exact Function.update_self ..
    · cases now
  · exact .inr before

/-- The marker after a step. -/
theorem guarded_next (stepped : execCache impl m o s = some (r, s'))
    (fits : Fits cfg revoked h log o)
    (marker : ∀ e, s.keys (revokedKey h) = some e → e.expireAt ≤ s.clock + 60000)
    (inTime : InTime cfg revoked h log ⟨o, r, s, s'⟩ = true)
    (guarded : cleaned revoked h log = true → ∀ e, s.keys (accessKey h) = some e →
      valid cfg e.value = true → outlives h s e.expireAt = true)
    (clean : cleaned revoked h (⟨o, r, s, s'⟩ :: log) = true) {e : CacheEntry}
    (stored : s'.keys (accessKey h) = some e) (isValid : valid cfg e.value = true) :
    outlives h s' e.expireAt = true := by
  rcases cleaned_cons stepped clean with gone | earlier
  · rw [gone] at stored
    cases stored
  · rcases execCache_key stepped (accessKey h) with same | ⟨value, ttl, set, now⟩ | ⟨_, -, gone⟩
    · exact outlives_next stepped fits marker (guarded earlier e (same ▸ stored) isValid)
    · -- a fill after the second `DEL`
      cases set
      rw [now] at stored
      cases stored
      have lives : outlives h s (s'.clock + ttl * 1000) = true := by
        simpa [InTime, isValid, earlier] using inTime
      exact outlives_next stepped fits marker lives
    · rw [gone] at stored
      cases stored

/-- A reply that fits serves no revoked token. -/
theorem notResurrected_of_fits (fits : Fits cfg revoked h log o)
    (inTime : EachIn (InTime cfg revoked h) log = true) :
    NotResurrected revoked h log ⟨o, r, s, s'⟩ = true := by
  unfold NotResurrected
  split
  · next since token t u pre post eq =>
      cases eq
      simp only [Bool.or_eq_true, Bool.not_eq_true', Bool.and_eq_false_iff, decide_eq_false_iff_not]
      by_cases named : token = h
      · cases flag : t.revoked with
        | true => exact .inr rfl
        | false => exact .inl (.inr (fits named inTime flag))
      · exact .inl (.inl named)
  · rfl

/-- The invariant after a step that fits. -/
theorem Inv.next (inv : Inv cfg revoked h s log) (laws : Revokes impl revoked)
    (fits : Fits cfg revoked h log o) (stepped : execCache impl m o s = some (r, s')) :
    Inv cfg revoked h s' (⟨o, r, s, s'⟩ :: log) := by
  have clock := execCache_clock stepped
  constructor
  case marker =>
    intro e stored
    rcases execCache_key stepped (revokedKey h) with same | ⟨value, ttl, set, now⟩ | ⟨_, -, gone⟩
    · have bound := inv.marker e (same ▸ stored)
      omega
    · cases set
      have minute : ttl = 60 := fits rfl
      rw [now] at stored
      cases stored
      dsimp only
      omega
    · rw [gone] at stored
      cases stored
  case wrapped =>
    intro e mem was
    have before : revoked h s.wrapped = true := by
      rcases List.mem_cons.mp mem with rfl | old
      · exact was
      · exact inv.wrapped e old was
    apply execCache_wrapped (P := fun w => revoked h w = true) stepped
      (fun w => laws.meanwhile _ h w) _ before
    intro i eq w holds
    apply laws.exec _ i h w _ holds
    intro t saves
    rw [eq, saves] at fits
    exact fits
  case settled =>
    intro inTime
    obtain ⟨now, before⟩ := Bool.and_eq_true_iff.mp inTime
    obtain ⟨guarded, answered⟩ := inv.settled before
    constructor
    case guarded =>
      exact fun clean _ stored isValid =>
        guarded_next stepped fits inv.marker now guarded clean stored isValid
    case answered =>
      exact Bool.and_eq_true_iff.mpr ⟨notResurrected_of_fits fits before, answered⟩

/-- The invariant is kept by what fits. -/
theorem inv_kept (laws : Revokes impl revoked) :
    Async.Kept (execCache impl) (Inv cfg revoked h) (Fits cfg revoked h) :=
  fun _ _ _ _ _ _ inv fits stepped => inv.next laws fits stepped

end Steps

/-! ## Programs -/

section Programs

variable {cfg : TokenCache} {impl : Wrapped TokenImplSig W X} {revoked : String → W → Bool}
  {h : String} {log log₀ : List (TokenEvent W)}

/-- An introspection is safe. -/
theorem introspectToken_safe (laws : Revokes impl revoked) (since : Nat) (token : String) :
    (introspectToken cfg since token).Safe (execCache impl) (Inv cfg revoked h) log := by
  apply Async.Safe.of_kept (inv_kept laws)
  apply introspectToken_only
  case set => exact fun _ _ _ same => absurd same (introspectKey_ne_revokedKey token h)
  case callback => exact fun _ _ => trivial
  all_goals exact fun _ => by trivial

/-- So is a revocation. -/
theorem revokeAccessToken_safe (laws : Revokes impl revoked) (since : Nat)
    (token revokedBy : String) :
    (revokeAccessToken cfg since token revokedBy).Safe (execCache impl)
      (Inv cfg revoked h) log := by
  apply Async.Safe.of_kept (inv_kept laws)
  apply revokeAccessToken_only
  case marker => exact fun _ _ => rfl
  case del =>
    exact fun _ => ⟨fun _ => accessKey_ne_revokedKey token h,
      fun _ => introspectKey_ne_revokedKey token h⟩
  case timer => exact fun _ _ => trivial
  all_goals exact fun _ => by trivial

/-- So is the save of another token. -/
theorem saveAccessToken_safe (laws : Revokes impl revoked) (since : Nat) {token : OAuth2AccessToken}
    (other : token.token ≠ h) :
    (saveAccessToken cfg since token).Safe (execCache impl) (Inv cfg revoked h) log := by
  apply Async.Safe.of_kept (inv_kept laws)
  apply saveAccessToken_only
  case impl => exact fun _ => other
  case set => exact fun _ _ _ same => absurd same (accessKey_ne_revokedKey token.token h)
  all_goals exact fun _ => by trivial

theorem returned_mono (later : log₀ <:+ log) (back : returned revoked h log₀ = true) :
    returned revoked h log = true := by
  obtain ⟨e, mem, is⟩ := List.any_eq_true.mp back
  exact List.any_eq_true.mpr ⟨e, later.mem mem, is⟩

/-- Once a revocation has called back, the token is revoked in the wrapped repository. -/
theorem Inv.revoked_of_returned {s : CacheState W} (inv : Inv cfg revoked h s log)
    (back : returned revoked h log = true) : revoked h s.wrapped = true := by
  obtain ⟨e, mem, is⟩ := List.any_eq_true.mp back
  apply inv.wrapped e mem
  unfold returns at is
  split at is
  · exact (Bool.and_eq_true_iff.mp is).2
  · cases is

/-- A record of `h` that a call which began at `log₀` has in hand at `log`: it is revoked, if a
revocation had called back by then and everything has been in time. -/
def Known (cfg : TokenCache) (revoked : String → W → Bool) (h : String)
    (log₀ log : List (TokenEvent W)) (token : String) (t : OAuth2AccessToken) : Prop :=
  token = h → EachIn (InTime cfg revoked h) log = true → t.revoked = false →
    returned revoked h log₀ = false

/-- What is known stays known. -/
theorem Known.mono {log' : List (TokenEvent W)} {token : String} {t : OAuth2AccessToken}
    (known : Known cfg revoked h log₀ log token t) (later : log <:+ log') :
    Known cfg revoked h log₀ log' token t :=
  fun named inTime => known named (EachIn.of_suffix inTime later)

theorem reply_safe (laws : Revokes impl revoked) (started : log₀ <:+ log) {token : String}
    {r : Option OAuth2AccessToken}
    (known : ∀ t, r = some t → Known cfg revoked h log₀ log token t) :
    (reply log₀.length (.accessToken token r)).Safe (execCache impl) (Inv cfg revoked h) log := by
  refine .op_of_kept (inv_kept laws) (fun log' later => ?_) fun _ _ _ _ _ _ _ _ => trivial
  cases r with
  | none => trivial
  | some t =>
      intro named inTime unrevoked
      rw [firstOf_of_suffix (started.trans later)]
      exact (known t rfl).mono later named inTime unrevoked

/-- What the wrapped repository answers. -/
theorem known_of_read (laws : Revokes impl revoked) {s s' : CacheState W} {m : CacheMoment X}
    (inv : Inv cfg revoked h s log) (started : log₀ <:+ log) {token : String}
    {t : OAuth2AccessToken}
    (stepped : execCache impl m (.impl (.getAccessToken token) : TokenCacheSig.Op) s =
      some (some t, s')) (e : TokenEvent W) :
    Known cfg revoked h log₀ (e :: log) token t := by
  intro named _ unrevoked
  by_contra back
  have wrapped : revoked h s.wrapped = true :=
    inv.revoked_of_returned (returned_mono started (Bool.not_eq_false _ ▸ back))
  have flagged := laws.reads _ h _ t (laws.meanwhile m.around h _ wrapped)
    (named ▸ (execCache_impl stepped).1.symm)
  rw [unrevoked] at flagged
  cases flagged

/-- What a look-up finds in the cache: the marker hides an entry that is not gone. -/
theorem known_of_hit {s s' : CacheState W} {m : CacheMoment X} (inv : Inv cfg revoked h s log)
    (started : log₀ <:+ log) {token v : String} {t : OAuth2AccessToken}
    (stepped : execCache impl m
      (.redis (.revokedThenGet (revokedKey token) (accessKey token)) : TokenCacheSig.Op) s =
        some (some (.value v), s'))
    (cached : deserializeAccessToken cfg.json v = .ok (some t)) :
    Known cfg revoked h log₀
      (⟨.redis (.revokedThenGet (revokedKey token) (accessKey token)), some (.value v),
        s, s'⟩ :: log)
      token t := by
  intro named inTime unrevoked
  subst named
  by_contra back
  have later : returned revoked token log = true :=
    returned_mono started (Bool.not_eq_false _ ▸ back)
  obtain ⟨now, before⟩ := Bool.and_eq_true_iff.mp inTime
  rcases execCache_redis stepped with ⟨failed, -⟩ | ⟨answer, -⟩
  · cases failed
  · have found := Option.some.inj answer
    split at found
    · cases found
    · next dead =>
        have clean : cleaned revoked token log = true := by
          simpa [InTime, later, dead] using now
        split at found
        · next v' hit =>
            cases found
            obtain ⟨e, stored, alive, value⟩ := CacheKeys.find?_eq_some.mp hit
            have isValid : valid cfg e.value = true := by
              simp [valid, value, cached, unrevoked]
            have lives := (inv.settled before).guarded clean e stored isValid
            obtain ⟨marker, there, late⟩ := outlives_eq_true.mp lives
            exact dead (CacheKeys.alive_eq_true.mpr ⟨marker, there, alive.trans late⟩)
        · cases found

/-- The path of a miss is safe. -/
theorem readAndFill_safe (laws : Revokes impl revoked) (started : log₀ <:+ log) (token : String) :
    (readAndFill cfg log₀.length token).Safe (execCache impl) (Inv cfg revoked h) log := by
  refine .op_of_kept (inv_kept laws) (fun _ _ => trivial) fun s log' later inv m r s' stepped => ?_
  have started' :=
    (started.trans later).trans (List.suffix_cons (⟨_, r, s, s'⟩ : TokenEvent W) log')
  match r, stepped, started' with
  | none, _, started' => exact reply_safe laws started' fun _ eq => nomatch eq
  | some t, stepped, started' =>
      have known := known_of_read laws inv (started.trans later) stepped
        ⟨.impl (.getAccessToken token), some t, s, s'⟩
      refine .op_of_kept (inv_kept laws) (fun _ _ => trivial) fun s₁ log₁ later' _ _ now s₂ _ => ?_
      have last := later'.trans (List.suffix_cons (⟨.time, now, s₁, s₂⟩ : TokenEvent W) log₁)
      apply fill_safe
      · intro ttl
        refine .op_of_kept (inv_kept laws) ?_ fun _ _ _ _ _ _ _ _ => trivial
        exact fun _ _ same => absurd same (accessKey_ne_revokedKey token h)
      · apply reply_safe laws (started'.trans last)
        exact fun t' eq => Option.some.inj eq ▸ known.mono last

theorem delegateAccessToken_safe (laws : Revokes impl revoked) (started : log₀ <:+ log)
    (token : String) :
    (delegateAccessToken log₀.length token).Safe (execCache impl) (Inv cfg revoked h) log := by
  refine .op_of_kept (inv_kept laws) (fun _ _ => trivial) fun s log' later inv m r s' stepped => ?_
  apply reply_safe laws ((started.trans later).trans (List.suffix_cons _ _))
  intro t eq
  subst eq
  exact known_of_read laws inv (started.trans later) stepped _

/-- **A look-up is safe**. -/
theorem getAccessToken_safe (laws : Revokes impl revoked) (token : String) :
    (getAccessToken cfg log.length token).Safe (execCache impl) (Inv cfg revoked h) log := by
  unfold getAccessToken
  split
  · refine .op_of_kept (inv_kept laws) (fun _ _ => trivial)
      fun s log' later inv m r s' stepped => ?_
    have started := later.trans (List.suffix_cons (⟨_, r, s, s'⟩ : TokenEvent W) log')
    match r, stepped, started with
    | none, _, started => exact delegateAccessToken_safe laws started token
    | some .revoked, _, started => exact reply_safe laws started fun _ eq => nomatch eq
    | some .miss, _, started => exact readAndFill_safe laws started token
    | some (.value v), stepped, started =>
        dsimp only [onAccessLookup]
        split
        · trivial
        · next t cached =>
            apply reply_safe laws started
            exact fun t' eq => Option.some.inj eq ▸ known_of_hit inv later stepped cached
        · exact readAndFill_safe laws started token
  · exact delegateAccessToken_safe laws List.suffix_rfl token

end Programs

/-! ## Runs -/

/-- As long as the fills and the look-ups are in time, a `getAccessToken` that begins after the
callback of a revocation does not deliver the token, unless as a revoked one. -/
theorem revoked_token_not_resurrected (cfg : TokenCache) (impl : Wrapped TokenImplSig W X)
    (revoked : String → W → Bool) (laws : Revokes impl revoked) (w : W) (h : String)
    (moves : List (TokenMove X))
    (saves : ∀ t, Move.call (.saveAccessToken t) ∈ moves → t.token ≠ h)
    (inTime : EachIn (InTime cfg revoked h) (runTokens cfg impl w moves).log = true) :
    EachIn (NotResurrected revoked h) (runTokens cfg impl w moves).log = true := by
  have calls : ∀ call, Move.call call ∈ moves → ∀ (s : CacheState W) log,
      Inv cfg revoked h s log →
        (call.prog cfg log.length).Safe (execCache impl) (Inv cfg revoked h) log := by
    intro call mem s log _
    cases call with
    | getAccessToken token => exact getAccessToken_safe laws token
    | introspectToken token => exact introspectToken_safe laws log.length token
    | revokeAccessToken token revokedBy =>
        exact revokeAccessToken_safe laws log.length token revokedBy
    | saveAccessToken token => exact saveAccessToken_safe laws log.length (saves token mem)
  have empty : Inv cfg revoked h { wrapped := w } [] := by
    refine ⟨(fun _ eq => nomatch eq), (fun _ mem => nomatch mem), fun _ => ?_⟩
    exact ⟨(fun clean => nomatch clean), rfl⟩
  obtain ⟨inv, -⟩ := Tasks.run_safe calls (c := { store := { wrapped := w } })
    ⟨empty, fun _ mem => nomatch mem⟩
  exact (inv.settled inTime).answered

/-! ## The memory repository -/

/-- The memory repository holds the token as revoked. -/
def memoryRevoked (h : String) (db : Db) : Bool :=
  (db.accessTokens.find? h).any fun t => t.revoked

theorem memoryRevoked_eq_true {h : String} {db : Db} :
    memoryRevoked h db = true ↔ ∃ t, db.accessTokens.find? h = some t ∧ t.revoked = true := by
  simp [memoryRevoked, Option.any_eq_true]

/-- The memory repository revokes as the cache expects. -/
theorem memoryTokens_revokes : Revokes memoryTokens memoryRevoked := by
  constructor
  case reads =>
    intro x h db t isRevoked answered
    obtain ⟨t', found, flag⟩ := memoryRevoked_eq_true.mp isRevoked
    simp [memoryTokens, MemoryTokenRepository.getAccessToken, found, flag] at answered
  case exec =>
    intro x o h db other isRevoked
    obtain ⟨t', found, flag⟩ := memoryRevoked_eq_true.mp isRevoked
    cases o with
    | getAccessToken token =>
        rw [show (memoryTokens.exec x (.getAccessToken token) db).2 = db from
          MemoryTokenRepository.getAccessToken_snd _ _ _]
        exact isRevoked
    | introspectToken token =>
        rw [show (memoryTokens.exec x (.introspectToken token) db).2 = db from
          MemoryTokenRepository.introspectToken_snd _ _ _]
        exact isRevoked
    | revokeAccessToken token revokedBy =>
        apply memoryRevoked_eq_true.mpr
        simp only [memoryTokens, MemoryTokenRepository.revokeAccessToken, Table.find?_updateWhere,
          found, Option.map_some]
        refine ⟨_, rfl, ?_⟩
        split
        · rfl
        · exact flag
    | saveAccessToken t =>
        apply memoryRevoked_eq_true.mpr
        have ne : h ≠ (MemoryTokenRepository.tokenWithDefaults x.moment t).token :=
          (other t rfl).symm
        simp only [memoryTokens, MemoryTokenRepository.saveAccessToken, Table.find?_assign,
          if_neg ne]
        exact ⟨t', found, flag⟩
  case meanwhile =>
    intro x h db isRevoked
    unfold memoryRevoked at isRevoked ⊢
    rw [memoryTokens_meanwhile]
    exact isRevoked

/-! ### A reader that stalls -/

/-- A store with one live token. -/
def sampleDb : Db :=
  { accessTokens := Table.empty.assign sampleToken }

/-- `elapsed` milliseconds later, one of the operations in flight. -/
def later (elapsed j : Nat) : TokenMove MemoryAround :=
  .happen j { elapsed := elapsed, time := 1000, around := { moment := { now := 1000000 } } }

/-- A reader has the token from the wrapped repository when it is revoked.  The marker and the
first `DEL` are executed, the revocation calls back, and the second `DEL` follows. -/
def stalledReader : List (TokenMove MemoryAround) :=
  [.call (.getAccessToken "AT"), later 0 0, later 0 0,
    .call (.revokeAccessToken "AT" "app"), later 0 1, later 0 1, later 0 1, later 0 1, later 0 4,
    later 250 1, later 0 3]

/-- A second after the revocation the reader fills the cache, and half a second after the end of
the marker another call begins. -/
def resurrectedMoves : List (TokenMove MemoryAround) :=
  stalledReader ++ [later 750 0, later 0 2, later 0 2, .call (.getAccessToken "AT"),
    later 59500 2, later 0 2]

theorem resurrected_after_marker :
    EachIn (NotResurrected memoryRevoked "AT")
      (runTokens { json := sampleJson } memoryTokens sampleDb resurrectedMoves).log = false := by
  decide +kernel

/-- The reader fills the cache before the second `DEL`. -/
def promptMoves : List (TokenMove MemoryAround) :=
  [.call (.getAccessToken "AT"), later 0 0, later 0 0,
    .call (.revokeAccessToken "AT" "app"), later 0 1, later 0 1, later 0 1, later 0 1, later 0 4,
    later 100 0, later 0 3, later 0 3, later 150 0, later 0 2, .call (.getAccessToken "AT"),
    later 60500 2, later 0 2, later 0 2]

theorem revoked_token_not_resurrected_prompt :
    EachIn (NotResurrected memoryRevoked "AT")
      (runTokens { json := sampleJson } memoryTokens sampleDb promptMoves).log = true := by
  apply revoked_token_not_resurrected { json := sampleJson } memoryTokens memoryRevoked
    memoryTokens_revokes sampleDb "AT" promptMoves
  · intro t mem
    simp [promptMoves, later] at mem
  · decide +kernel

end Fulla.RevokedTokens
