import Fulla.Conc.Coupling
import Fulla.Protocol.Introspection

/-!
# Purging

`purgeExpired` of the memory repositories removes what has expired, and every look-up of the
token service makes an expiry test of its own.  So two runs that make the same requests at the
same times, with the same random values, and differ in their purges answer alike: the stores
agree on everything that has not expired (`SameButExpired`), and a request that finds a
different expired record in the two runs is refused in both.

Two tests come in the wrong order.  The exchange checks the PKCE method before the expiry, so
an expired code of an unknown method throws while it is still stored and is an invalid grant
once it is purged.  Introspection looks for an access token first, so a name that is that of an
expired access token and of a live refresh token is inactive before the purge and active after.
-/

namespace Fulla

open Conc

namespace Purging

/-- A request to the token service, a sweep of one repository, or none. -/
inductive Request where
  | call (c : Call)
  | introspectToken (token : String)
  | purgeExpiredTokens
  | purgeExpiredGrants
  | nothing
deriving DecidableEq

deriving instance DecidableEq for Answer

/-- What a request gets back. -/
inductive Reply where
  | answer (answer : Answer)
  | introspection (result : Option TokenIntrospection)
deriving DecidableEq

namespace Request

/-- The service over both memory repositories. -/
def prog (svc : TokenService) (crypto : CryptoProvider) : Request → StoreProg Reply
  | call c => Reply.answer <$> c.prog (svc.over .memory .memory crypto)
  | introspectToken token =>
    Reply.introspection <$> (svc.over .memory .memory crypto).introspectToken .memory token
  | purgeExpiredTokens => (fun _ => .answer .done) <$> memoryTokenRepository.purgeExpired
  | purgeExpiredGrants => (fun _ => .answer .done) <$> memoryGrantRepository.purgeExpired
  | nothing => return .answer .done

/-- The request removes what has expired, or does nothing. -/
def isPurge : Request → Bool
  | call .purgeExpired => true
  | purgeExpiredTokens => true
  | purgeExpiredGrants => true
  | nothing => true
  | _ => false

end Request

/-- An error without its description. -/
def responseKind : TokenResponse → TokenResponse
  | .error error _ => .error error ""
  | response => response

/-- What of a reply the two runs have in common. -/
def Reply.kind : Reply → Reply
  | answer (.token response) => answer (.token (responseKind response))
  | reply => reply

/-! ## Runs -/

section Runs

variable {ι : Type} [DecidableEq ι]

/-- The moments of a run, each given with the milliseconds since the one before it. -/
def clocked : Nat → List (ι × Moment) → List (ι × Moment)
  | _, [] => []
  | t, e :: sched =>
    (e.1, { e.2 with now := t + e.2.now }) :: clocked (t + e.2.now) sched

/-- The requests over one store. -/
def start (svc : TokenService) (crypto : CryptoProvider) (requests : ι → Request) (db : Db) :
    Pool StoreSig ι Reply Db where
  store := db
  prog i := (requests i).prog svc crypto

/-- Run a schedule of the requests from time `t` on. -/
def run (svc : TokenService) (crypto : CryptoProvider) (requests : ι → Request) (db : Db)
    (t : Nat) (sched : List (ι × Moment)) : Pool StoreSig ι Reply Db :=
  (start svc crypto requests db).runAt execOp (clocked t sched)

end Runs

/-- The exchange would throw on the code: its challenge has a method that is not known. -/
def Malformed (clientId codeVerifier : String) (c : OAuth2AuthCode) : Prop :=
  c.clientId = clientId ∧ c.codeChallenge ≠ "" ∧ codeVerifier ≠ "" ∧
    c.codeChallengeMethod ∉ ["", "S256", "plain"]

instance (clientId codeVerifier : String) (c : OAuth2AuthCode) :
    Decidable (Malformed clientId codeVerifier c) :=
  inferInstanceAs (Decidable (_ ∧ _))

/-- The client and the verifier of an exchange. -/
def exchanging? : Request → Option (String × String)
  | .call (.exchangeCodeForToken _ clientId _ _ codeVerifier) => some (clientId, codeVerifier)
  | _ => none

/-- The code an operation takes, and the `redirect_uri` it presents. -/
def takes? : StoreOp → Option (String × String)
  | .mem (.consumeAuthCode key redirectUri) => some (key, redirectUri)
  | _ => none

/-- The token that an operation introspects. -/
def introspects? : StoreOp → Option String
  | .mem (.introspectToken key) => some key
  | _ => none

/-- An exchange takes no expired code of an unknown method, and introspection meets no expired
access token under the name of a live refresh token. -/
def Harmless (request : Request) (m : Moment) (o : StoreOp) (db : Db) : Prop :=
  (∀ p ∈ exchanging? request, ∀ q ∈ takes? o, ∀ c ∈ db.authCodes.find? q.1,
      c.expiresAt < m.seconds → c.used = false → (c.redirectUri = "" ∨ q.2 = c.redirectUri) →
        ¬ Malformed p.1 p.2 c) ∧
    ∀ key ∈ introspects? o, ∀ a ∈ db.accessTokens.find? key, a.expiresAt < m.seconds →
      ∀ r ∈ db.refreshTokens.find? key, r.revoked = true ∨ r.expiresAt < m.seconds

instance (request : Request) (m : Moment) (o : StoreOp) (db : Db) :
    Decidable (Harmless request m o db) :=
  inferInstanceAs (Decidable (_ ∧ _))

/-! ## Stores that agree on what has not expired -/

/-- A time in milliseconds, as the repositories read it. -/
def secondsAt (t : Nat) : Int :=
  (t / 1000 : Nat)

/-- At time `t` the stores differ in expired records only. -/
structure SameButExpired (t : Nat) (db db' : Db) : Prop where
  codes : db.authCodes.AgreeBut (fun c => c.expiresAt < secondsAt t) db'.authCodes
  access : db.accessTokens.AgreeBut (fun a => a.expiresAt < secondsAt t) db'.accessTokens
  refresh : db.refreshTokens.AgreeBut (fun r => r.expiresAt < secondsAt t) db'.refreshTokens

namespace SameButExpired

variable {t t' : Nat} {db db' : Db}

theorem refl : SameButExpired t db db :=
  ⟨.refl, .refl, .refl⟩

theorem symm (same : SameButExpired t db db') : SameButExpired t db' db :=
  ⟨same.codes.symm, same.access.symm, same.refresh.symm⟩

theorem mono (same : SameButExpired t db db') (later : t ≤ t') : SameButExpired t' db db' := by
  have seconds : secondsAt t ≤ secondsAt t' := Int.ofNat_le.mpr (Nat.div_le_div_right later)
  exact ⟨same.codes.mono fun _ expired => Int.lt_of_lt_of_le expired seconds,
    same.access.mono fun _ expired => Int.lt_of_lt_of_le expired seconds,
    same.refresh.mono fun _ expired => Int.lt_of_lt_of_le expired seconds⟩

end SameButExpired

/-- Two runs of the service, made at the same moments. -/
abbrev expiry : Pairing StoreSig Db Moment where
  exec := execOp
  time := Moment.now
  rel := SameButExpired
  symm := SameButExpired.symm
  mono := SameButExpired.mono

/-! ## Operations -/

section Operations

variable {cond : Moment → StoreOp → Db → Prop} {m : Moment} {db db' : Db}

/-- Asking the surroundings does not look at the store. -/
theorem env_respects (o : EnvOp) : expiry.Respects cond (.env o) :=
  fun _ _ _ related _ _ => ⟨rfl, related⟩

/-- A code is saved over whatever was there. -/
theorem saveAuthCode_respects (code : OAuth2AuthCode) :
    expiry.Respects cond (.mem (.saveAuthCode code)) :=
  fun _ _ _ related _ _ => ⟨rfl, related.codes.assign code, related.access, related.refresh⟩

/-- So is a pair of tokens. -/
theorem saveTokenPair_respects (a : OAuth2AccessToken) (r : OAuth2RefreshToken) :
    expiry.Respects cond (.mem (.saveTokenPair a r)) :=
  fun _ _ _ related _ _ =>
    ⟨rfl, related.codes, related.access.assign _, related.refresh.assign r⟩

/-- A revocation marks the entry in both stores, or in neither. -/
theorem revokeRefreshToken_respects (token : String) :
    expiry.Respects cond (.mem (.revokeRefreshToken token)) :=
  fun _ _ _ related _ _ =>
    ⟨rfl, related.codes, related.access,
      related.refresh.updateWhere (by intro; rfl) (by intro _ expired; exact expired)⟩

theorem revokeAccessToken_respects (token revokedBy : String) :
    expiry.Respects cond (.mem (.revokeAccessToken token revokedBy)) :=
  fun _ _ _ related _ _ =>
    ⟨rfl, related.codes, related.access.updateWhere (by intro; rfl)
      (by intro _ expired; exact expired),
      related.refresh.updateWhere (by intro; rfl) (by intro _ expired; exact expired)⟩

/-- An expired access token is not found. -/
theorem getAccessToken_eq (m : Moment) (token : String) (db : Db) :
    MemoryTokenRepository.getAccessToken m token db =
      ((db.accessTokens.find? token).filter fun t => t.expiresAt > m.seconds ∧ t.revoked = false,
        db) := by
  unfold MemoryTokenRepository.getAccessToken
  cases db.accessTokens.find? token with
  | none => rfl
  | some t =>
      by_cases live : t.expiresAt > m.seconds ∧ t.revoked = false
      · simp only [if_pos live, Option.filter_some, decide_eq_true live, if_true]
      · simp only [if_neg live, Option.filter_some, decide_eq_false live, Bool.false_eq_true,
          if_false]

/-- A look-up answers alike, since the service checks the expiry of what it finds. -/
theorem getAccessToken_respects (token : String) :
    expiry.Respects cond (.mem (.getAccessToken token)) := by
  intro m db db' related _ _
  change (MemoryTokenRepository.getAccessToken m token db).1 =
    (MemoryTokenRepository.getAccessToken m token db').1 ∧
    SameButExpired m.now (MemoryTokenRepository.getAccessToken m token db).2
      (MemoryTokenRepository.getAccessToken m token db').2
  rw [getAccessToken_eq, getAccessToken_eq]
  refine ⟨?_, related⟩
  have gone {o : Option OAuth2AccessToken} (dead : ∀ a ∈ o, a.expiresAt < secondsAt m.now) :
      o.filter (fun t => t.expiresAt > m.seconds ∧ t.revoked = false) = none := by
    rw [Option.filter_eq_none_iff]
    intro a found
    have expired : a.expiresAt < m.seconds := dead a found
    simp only [decide_eq_true_eq]
    omega
  rcases related.access token with same | dead
  · exact congrArg (Option.filter _) same
  · exact (gone dead.1).trans (gone dead.2).symm

/-- Introspection finds nothing but expired and revoked tokens. -/
theorem introspectToken_inactive {key : String}
    (access : ∀ a ∈ db.accessTokens.find? key, a.expiresAt < m.seconds)
    (refresh : ∀ r ∈ db.refreshTokens.find? key, r.revoked = true ∨ r.expiresAt < m.seconds) :
    (MemoryTokenRepository.introspectToken m key db).1 = {} := by
  unfold MemoryTokenRepository.introspectToken
  cases found : db.accessTokens.find? key with
  | some a =>
      have expired : a.revoked = true ∨ a.expiresAt < m.seconds := .inr (access a found)
      simp only [if_pos expired]
  | none =>
      cases found' : db.refreshTokens.find? key with
      | some r => simp only [if_pos (refresh r found')]
      | none => rfl

theorem introspectToken_db (m : Moment) (key : String) (db : Db) :
    (MemoryTokenRepository.introspectToken m key db).2 = db := by
  unfold MemoryTokenRepository.introspectToken
  split
  · split <;> rfl
  · split
    · split <;> rfl
    · rfl

/-- A refresh token is only looked for where there is no access token. -/
theorem introspectToken_congr {key : String}
    (access : db.accessTokens.find? key = db'.accessTokens.find? key)
    (refresh : db'.accessTokens.find? key = none →
      db.refreshTokens.find? key = db'.refreshTokens.find? key) :
    (MemoryTokenRepository.introspectToken m key db).1 =
      (MemoryTokenRepository.introspectToken m key db').1 := by
  unfold MemoryTokenRepository.introspectToken
  rw [access]
  cases found : db'.accessTokens.find? key with
  | some a =>
      dsimp only
      split <;> rfl
  | none =>
      rw [refresh found]
      cases db'.refreshTokens.find? key with
      | some r =>
          dsimp only
          split <;> rfl
      | none => rfl

/-- A refresh token that is dead in one store is dead or absent in the other. -/
theorem SameButExpired.inactive (related : SameButExpired m.now db db') {key : String}
    (dead : ∀ r ∈ db.refreshTokens.find? key, r.revoked = true ∨ r.expiresAt < m.seconds) :
    ∀ r ∈ db'.refreshTokens.find? key, r.revoked = true ∨ r.expiresAt < m.seconds := by
  intro r found
  rcases related.refresh key with same | gone
  · exact dead r (same.trans found)
  · exact .inr (gone.2 r found)

/-- An introspection answers alike if the entry is there or nobody asks for it. -/
theorem introspectToken_respects (request : Request) (key : String) :
    expiry.Respects (Harmless request) (.mem (.introspectToken key)) := by
  intro m db db' related met met'
  change (MemoryTokenRepository.introspectToken m key db).1 =
    (MemoryTokenRepository.introspectToken m key db').1 ∧
    SameButExpired m.now (MemoryTokenRepository.introspectToken m key db).2
      (MemoryTokenRepository.introspectToken m key db').2
  rw [introspectToken_db, introspectToken_db]
  refine ⟨?_, related⟩
  by_cases same : db.accessTokens.find? key = db'.accessTokens.find? key
  · rcases related.refresh key with same' | gone
    · exact introspectToken_congr same fun _ => same'
    · cases found : db'.accessTokens.find? key with
      | some a => exact introspectToken_congr same fun absent => by simp [found] at absent
      | none =>
          rw [introspectToken_inactive (by simp [same, found]) fun r stored =>
            .inr (gone.1 r stored),
            introspectToken_inactive (by simp [found]) fun r stored => .inr (gone.2 r stored)]
  · have gone := (related.access key).resolve_left same
    -- one of the stores still has the expired access token, and the condition speaks of it
    cases found : db.accessTokens.find? key with
    | some a =>
        have dead : ∀ r ∈ db.refreshTokens.find? key, r.revoked = true ∨ r.expiresAt < m.seconds :=
          fun r stored => met.2 key rfl a found (gone.1 a found) r stored
        rw [introspectToken_inactive gone.1 dead,
          introspectToken_inactive gone.2 (related.inactive dead)]
    | none =>
        cases found' : db'.accessTokens.find? key with
        | some a =>
            have dead : ∀ r ∈ db'.refreshTokens.find? key,
                r.revoked = true ∨ r.expiresAt < m.seconds :=
              fun r stored => met'.2 key rfl a found' (gone.2 a found') r stored
            rw [introspectToken_inactive gone.1 (SameButExpired.inactive related.symm dead),
              introspectToken_inactive gone.2 dead]
        | none => exact absurd (found.trans found'.symm) same

/-! ### Taking a code or a refresh token -/

/-- What taking a code makes of the codes. -/
def taken (key redirectUri : String) (c : OAuth2AuthCode) : OAuth2AuthCode :=
  if c.code = key ∧ (c.redirectUri = "" ∨ redirectUri = c.redirectUri) then { c with used := true }
  else c

theorem taken_used {key redirectUri : String} {c : OAuth2AuthCode} (used : c.used = true) :
    taken key redirectUri c = c := by
  obtain ⟨⟩ := c
  cases used
  exact ite_self _

/-- What a consumption leaves under every key. -/
theorem find?_consumeAuthCode (key redirectUri : String) (db : Db) (k : String) :
    (MemoryGrantRepository.consumeAuthCode key redirectUri db).2.authCodes.find? k =
      (db.authCodes.find? k).map (taken key redirectUri) := by
  unfold MemoryGrantRepository.consumeAuthCode
  cases stored : db.authCodes.find? key with
  | none =>
      refine Table.find?_eq_map fun c found => if_neg fun both => ?_
      have name : k = key := (Table.find?_key found).symm.trans both.1
      rw [name, stored] at found
      cases found
  | some c =>
      have own {c' : OAuth2AuthCode} (found : db.authCodes.find? k = some c')
          (name : c'.code = key) : c' = c := by
        have here : k = key := (Table.find?_key found).symm.trans name
        rw [here, stored] at found
        exact (Option.some.inj found).symm
      dsimp only
      split
      · next used =>
          refine Table.find?_eq_map fun c' found => ?_
          by_cases name : c'.code = key
          · exact taken_used (own found name ▸ used)
          · exact if_neg fun both => name both.1
      · split
        · next mismatch =>
            refine Table.find?_eq_map fun c' found => if_neg fun both => ?_
            rw [own found both.1] at both
            rcases both.2 with empty | same
            · exact mismatch.1 empty
            · exact mismatch.2 same
        · next matching =>
            rw [Db.markUsed, Table.find?_updateWhere]
            cases found : db.authCodes.find? k with
            | none => rfl
            | some c' =>
                simp only [Option.map_some, Option.some.injEq, taken, decide_eq_true_eq]
                by_cases name : c'.code = key
                · have uri : c'.redirectUri = "" ∨ redirectUri = c'.redirectUri := by
                    rw [own found name]
                    by_contra other
                    exact matching ⟨fun empty => other (.inl empty), fun same => other (.inr same)⟩
                  rw [if_pos name, if_pos ⟨name, uri⟩]
                · rw [if_neg name, if_neg fun both => name both.1]

/-- Two stores that differ in expired entries still do so after a consumption. -/
theorem consumeAuthCode_related (key redirectUri : String) (related : SameButExpired m.now db db') :
    SameButExpired m.now (MemoryGrantRepository.consumeAuthCode key redirectUri db).2
      (MemoryGrantRepository.consumeAuthCode key redirectUri db').2 := by
  have tokens (s : Db) :
      (MemoryGrantRepository.consumeAuthCode key redirectUri s).2.accessTokens = s.accessTokens ∧
        (MemoryGrantRepository.consumeAuthCode key redirectUri s).2.refreshTokens =
          s.refreshTokens := by
    unfold MemoryGrantRepository.consumeAuthCode
    split
    · exact ⟨rfl, rfl⟩
    · split
      · exact ⟨rfl, rfl⟩
      · split <;> exact ⟨rfl, rfl⟩
  refine ⟨?_, ?_, ?_⟩
  · refine related.codes.map (fun c expired => ?_) (find?_consumeAuthCode key redirectUri db)
      (find?_consumeAuthCode key redirectUri db')
    unfold taken
    split <;> exact expired
  · rw [(tokens db).1, (tokens db').1]
    exact related.access
  · rw [(tokens db).2, (tokens db').2]
    exact related.refresh

/-- The answer of a consumption depends on its entry alone. -/
theorem consumeAuthCode_congr {key redirectUri : String}
    (same : db.authCodes.find? key = db'.authCodes.find? key) :
    (MemoryGrantRepository.consumeAuthCode key redirectUri db).1 =
      (MemoryGrantRepository.consumeAuthCode key redirectUri db').1 := by
  unfold MemoryGrantRepository.consumeAuthCode
  rw [same]
  cases db'.authCodes.find? key with
  | none => rfl
  | some c =>
      dsimp only
      split
      · rfl
      · split <;> rfl

/-- What the compare-and-set leaves under every key. -/
theorem find?_atomicRevokeRefreshToken (token : String) (db : Db) (k : String) :
    (MemoryTokenRepository.atomicRevokeRefreshToken token db).2.refreshTokens.find? k =
      (db.refreshTokens.find? k).map fun r =>
        if r.token = token then { r with revoked := true } else r := by
  unfold MemoryTokenRepository.atomicRevokeRefreshToken
  cases stored : db.refreshTokens.find? token with
  | none =>
      refine Table.find?_eq_map fun r found => if_neg fun name => ?_
      rw [(Table.find?_key found).symm.trans name, stored] at found
      cases found
  | some r =>
      dsimp only
      split
      · next revoked =>
          refine Table.find?_eq_map fun r' found => ?_
          split
          · next name =>
              rw [(Table.find?_key found).symm.trans name, stored] at found
              cases found
              obtain ⟨⟩ := r
              cases revoked
              rfl
          · rfl
      · rw [Db.revokeRefreshWhere, Table.find?_updateWhere]
        simp only [decide_eq_true_eq]

/-- Two stores that differ in expired entries still do so after the compare-and-set. -/
theorem atomicRevokeRefreshToken_related (token : String) (related : SameButExpired m.now db db') :
    SameButExpired m.now (MemoryTokenRepository.atomicRevokeRefreshToken token db).2
      (MemoryTokenRepository.atomicRevokeRefreshToken token db').2 := by
  have others (s : Db) :
      (MemoryTokenRepository.atomicRevokeRefreshToken token s).2.authCodes = s.authCodes ∧
        (MemoryTokenRepository.atomicRevokeRefreshToken token s).2.accessTokens =
          s.accessTokens := by
    unfold MemoryTokenRepository.atomicRevokeRefreshToken
    split
    · exact ⟨rfl, rfl⟩
    · split <;> exact ⟨rfl, rfl⟩
  refine ⟨?_, ?_, ?_⟩
  · rw [(others db).1, (others db').1]
    exact related.codes
  · rw [(others db).2, (others db').2]
    exact related.access
  · refine related.refresh.map (fun r expired => ?_) (find?_atomicRevokeRefreshToken token db)
      (find?_atomicRevokeRefreshToken token db')
    split <;> exact expired

/-- The answer of the compare-and-set depends on its entry alone. -/
theorem atomicRevokeRefreshToken_congr {token : String}
    (same : db.refreshTokens.find? token = db'.refreshTokens.find? token) :
    (MemoryTokenRepository.atomicRevokeRefreshToken token db).1 =
      (MemoryTokenRepository.atomicRevokeRefreshToken token db').1 := by
  unfold MemoryTokenRepository.atomicRevokeRefreshToken
  rw [same]
  cases db'.refreshTokens.find? token with
  | none => rfl
  | some r =>
      dsimp only
      split <;> rfl

end Operations

/-! ## Requests -/

section Requests

variable (svc : TokenService) (crypto : CryptoProvider) {cond : Moment → StoreOp → Db → Prop}
  {t : Nat}

/-- The answers an expired grant may get. -/
def Refused (response : TokenResponse) : Prop :=
  responseKind response = .error "invalid_grant" ""

/-- Two programs that refuse whatever they find answer alike. -/
theorem coupled_of_refused {p p' : StoreProg TokenResponse} (left : expiry.Ends t Refused p)
    (right : expiry.Ends t Refused p') :
    expiry.Coupled cond (fun a b => responseKind a = responseKind b) t p p' :=
  .apart Refused left right fun _ _ refused refused' => Eq.trans refused (Eq.symm refused')

theorem respects_ports : OnPorts (expiry.Respects cond) :=
  fun o _ => env_respects o

theorem ask_respects (o : EnvOp) : (ask o).Only (expiry.Respects cond) :=
  Prog.only_call.mpr (env_respects o)

theorem save_respects (a : OAuth2AccessToken) (r : OAuth2RefreshToken)
    (_linked : r.accessToken = a.token) :
    (memoryTokenRepository.saveTokenPair a r).Only (expiry.Respects cond) :=
  Prog.only_call.mpr (saveTokenPair_respects a r)

/-- The clock, read after time `t`. -/
theorem ends_now {α : Type} {K : α → Prop} {f : Int → StoreProg α}
    (rest : ∀ now, secondsAt t ≤ now → expiry.Ends t K (f now)) :
    expiry.Ends t K (nowSeconds >>= f) :=
  fun _ _ _ later related =>
    ⟨related, rest _ (Int.ofNat_le.mpr (Nat.div_le_div_right later))⟩

/-- What `checkCode` refuses, except for a malformed request, is refused after the expiry as well.
-/
theorem checkCode_refused {clientId codeVerifier : String} {c : OAuth2AuthCode}
    {refusal : TokenResponse}
    (checked : TokenService.checkCode crypto clientId codeVerifier c = some refusal)
    (wellFormed : ¬ Malformed clientId codeVerifier c) : Refused refusal := by
  unfold TokenService.checkCode at checked
  split at checked
  · cases checked
    rfl
  · next client =>
      split at checked
      · cases checked
      · next challenge =>
          split at checked
          · cases checked
            rfl
          · next verifier =>
              split at checked
              · next unknown =>
                  refine absurd ⟨Classical.not_not.mp client, challenge, verifier, ?_⟩ wellFormed
                  intro known
                  have plain : TokenService.validatePkceCodeVerifier crypto codeVerifier
                      c.codeChallenge c.codeChallengeMethod ≠ none := by
                    unfold TokenService.validatePkceCodeVerifier
                    simp only [List.mem_cons, List.not_mem_nil, or_false] at known
                    rcases known with empty | s256 | plain
                    · simp [empty]
                    · simp [s256]
                    · simp [plain]
                  exact plain unknown
              · cases checked
                rfl
              · cases checked

/-- A memory repository reports no revoked token, so no reuse is ever detected. -/
theorem refuseRefresh_ends (hashedRt : String) :
    expiry.Ends t Refused (svc.refuseRefresh memoryTokenRepository hashedRt) := by
  intro m db db' _ related
  have reported : (MemoryTokenRepository.getRefreshToken m hashedRt db).2 = db ∧
      ∀ r, (MemoryTokenRepository.getRefreshToken m hashedRt db).1 = some r →
        r.revoked = false := by
    unfold MemoryTokenRepository.getRefreshToken
    split
    · exact ⟨rfl, by nofun⟩
    · split
      · next live =>
          refine ⟨rfl, fun r same => ?_⟩
          cases same
          exact live.2
      · exact ⟨rfl, by nofun⟩
  refine ⟨reported.1.symm ▸ related, ?_⟩
  have answered : (execOp m (.mem (.getRefreshToken hashedRt)) db).1 =
      (MemoryTokenRepository.getRefreshToken m hashedRt db).1 := rfl
  rw [answered]
  cases found : (MemoryTokenRepository.getRefreshToken m hashedRt db).1 with
  | none => rfl
  | some r =>
      change expiry.Ends t Refused (if r.revoked ∧ r.familyId ≠ "" then _ else _)
      rw [if_neg (by simp [reported.2 r found])]
      rfl

/-- What the rotation does with the token it has revoked. -/
def afterRevoke (refreshToken clientId : String) :
    Option OAuth2RefreshToken → StoreProg TokenResponse
  | none => svc.refuseRefresh memoryTokenRepository (hashToken crypto refreshToken)
  | some storedRt =>
    if storedRt.clientId ≠ clientId then return makeError "invalid_grant" "Client mismatch"
    else do
      let now ← nowSeconds
      if now > storedRt.expiresAt then return makeError "invalid_grant" "Token expired"
      else
        let subject ← svc.normalizedSubject storedRt.userId
        match subject with
        | none => return makeError "invalid_grant" "Legacy subject cannot be normalized"
        | some subject => svc.rotate memoryTokenRepository crypto storedRt now subject

/-- A refresh is the compare-and-set and what follows it. -/
theorem refreshAccessToken_eq (refreshToken clientId : String) :
    (svc.over .memory .memory crypto).refreshAccessToken refreshToken clientId =
      mem (.atomicRevokeRefreshToken (hashToken crypto refreshToken)) >>=
        afterRevoke (svc.over .memory .memory crypto) crypto refreshToken clientId := by
  unfold TokenService.refreshAccessToken
  refine congrArg (mem (.atomicRevokeRefreshToken (hashToken crypto refreshToken)) >>= ·) ?_
  funext storedRt
  cases storedRt <;> rfl

/-- An expired refresh token is refused in the end. -/
theorem afterRevoke_ends {refreshToken clientId : String} {r : OAuth2RefreshToken}
    (expired : r.expiresAt < secondsAt t) :
    expiry.Ends t Refused (afterRevoke svc crypto refreshToken clientId (some r)) := by
  unfold afterRevoke
  dsimp only
  split
  · rfl
  · refine ends_now fun now later => ?_
    rw [if_pos (Int.lt_of_lt_of_le expired later)]
    rfl

/-- Given one answer of the compare-and-set, the two runs go on alike. -/
theorem afterRevoke_coupled (refreshToken clientId : String) (answer : Option OAuth2RefreshToken) :
    expiry.Coupled cond (fun a b => responseKind a = responseKind b) t
      (afterRevoke svc crypto refreshToken clientId answer)
      (afterRevoke svc crypto refreshToken clientId answer) := by
  cases answer with
  | none =>
      exact coupled_of_refused (refuseRefresh_ends svc _) (refuseRefresh_ends svc _)
  | some r =>
      refine .refl ?_ fun _ => rfl
      unfold afterRevoke
      dsimp only
      split
      · trivial
      · refine (ask_respects _).bind fun now => ?_
        split
        · trivial
        · refine (normalizedSubject_only svc respects_ports _).bind fun subject => ?_
          cases subject with
          | none => trivial
          | some subject =>
              exact rotate_only svc respects_ports (fun _ => env_respects _) save_respects _ _ _ _

/-- **A refresh answers alike**, whether what has expired is there or not. -/
theorem coupled_refresh (refreshToken clientId : String) :
    expiry.Coupled cond (fun a b => responseKind a = responseKind b) t
      ((svc.over .memory .memory crypto).refreshAccessToken refreshToken clientId)
      ((svc.over .memory .memory crypto).refreshAccessToken refreshToken clientId) := by
  rw [refreshAccessToken_eq]
  refine .op (fun m db db' _ related _ _ => atomicRevokeRefreshToken_related _ related) ?_
  intro m db db' _ related _ _
  change expiry.Coupled _ _ m.now
    (afterRevoke _ crypto refreshToken clientId
      (MemoryTokenRepository.atomicRevokeRefreshToken (hashToken crypto refreshToken) db).1)
    (afterRevoke _ crypto refreshToken clientId
      (MemoryTokenRepository.atomicRevokeRefreshToken (hashToken crypto refreshToken) db').1)
  rcases related.refresh (hashToken crypto refreshToken) with same | gone
  · rw [atomicRevokeRefreshToken_congr same]
    exact afterRevoke_coupled _ _ _ _ _
  · -- whatever is left of the expired token, the rotation is refused
    have refused (s : Db) (dead : ∀ r ∈ s.refreshTokens.find? (hashToken crypto refreshToken),
        r.expiresAt < secondsAt m.now) :
        expiry.Ends m.now Refused (afterRevoke (svc.over .memory .memory crypto) crypto
          refreshToken clientId (MemoryTokenRepository.atomicRevokeRefreshToken
            (hashToken crypto refreshToken) s).1) := by
      unfold MemoryTokenRepository.atomicRevokeRefreshToken
      cases found : s.refreshTokens.find? (hashToken crypto refreshToken) with
      | none => exact refuseRefresh_ends _ _
      | some r =>
          have expired := dead r found
          dsimp only
          split
          · exact refuseRefresh_ends _ _
          · exact afterRevoke_ends _ _ expired
    exact coupled_of_refused (refused db gone.1) (refused db' gone.2)

/-- What the exchange does with the code it has taken. -/
def afterConsume (clientId codeVerifier : String) :
    Option OAuth2AuthCode → StoreProg TokenResponse
  | none => return makeError "invalid_grant" "Invalid authorization code"
  | some authCode =>
    match TokenService.checkCode crypto clientId codeVerifier authCode with
    | some refusal => return refusal
    | none => do
      let now ← nowSeconds
      if now > authCode.expiresAt then return makeError "invalid_grant" "Code expired"
      else svc.issueForCode memoryTokenRepository crypto authCode now

/-- The exchange of a service whose clients are wired. -/
theorem exchangeCodeForToken_eq (wired : svc.clients = true)
    (code clientId clientSecret redirectUri codeVerifier : String) :
    (svc.over .memory .memory crypto).exchangeCodeForToken code clientId clientSecret redirectUri
        codeVerifier =
      (ask (.validateClient clientId clientSecret) : StoreProg Bool) >>= fun isValid =>
        if isValid = false then return makeError "invalid_client" "Client authentication failed"
        else mem (.consumeAuthCode (hashToken crypto code) redirectUri) >>=
          afterConsume (svc.over .memory .memory crypto) crypto clientId codeVerifier := by
  have wired' : (svc.over .memory .memory crypto).clients = true := wired
  unfold TokenService.exchangeCodeForToken
  rw [wired']
  refine congrArg ((ask (.validateClient clientId clientSecret) : StoreProg Bool) >>= ·) ?_
  funext isValid
  split
  · rfl
  · refine congrArg (mem (.consumeAuthCode (hashToken crypto code) redirectUri) >>= ·) ?_
    funext authCode
    cases authCode <;> rfl

/-- An expired code is refused in the end, when the request is well formed. -/
theorem afterConsume_ends {clientId codeVerifier : String} {c : OAuth2AuthCode}
    (expired : c.expiresAt < secondsAt t) (wellFormed : ¬ Malformed clientId codeVerifier c) :
    expiry.Ends t Refused (afterConsume svc crypto clientId codeVerifier (some c)) := by
  unfold afterConsume
  dsimp only
  split
  · next refusal checked => exact checkCode_refused crypto checked wellFormed
  · refine ends_now fun now later => ?_
    rw [if_pos (Int.lt_of_lt_of_le expired later)]
    rfl

theorem afterConsume_only (clientId codeVerifier : String) (answer : Option OAuth2AuthCode) :
    (afterConsume svc crypto clientId codeVerifier answer).Only (expiry.Respects cond) := by
  unfold afterConsume
  cases answer with
  | none => trivial
  | some c =>
      dsimp only
      split
      · trivial
      · refine (ask_respects _).bind fun now => ?_
        split
        · trivial
        · exact issueForCode_only svc respects_ports (fun _ => env_respects _) save_respects _ _ _

/-- Whatever is left of an expired code, its exchange is refused. -/
theorem consumed_ends {m : Moment} {db : Db} {code clientId clientSecret uri redirectUri : String}
    {codeVerifier key : String}
    (dead : ∀ c ∈ db.authCodes.find? key, c.expiresAt < secondsAt m.now)
    (met : Harmless (.call (.exchangeCodeForToken code clientId clientSecret uri codeVerifier)) m
      (.mem (.consumeAuthCode key redirectUri)) db) :
    expiry.Ends m.now Refused (afterConsume svc crypto clientId codeVerifier
      (MemoryGrantRepository.consumeAuthCode key redirectUri db).1) := by
  unfold MemoryGrantRepository.consumeAuthCode
  cases found : db.authCodes.find? key with
  | none => rfl
  | some c =>
      have expired := dead c found
      dsimp only
      split
      · rfl
      · next unused =>
          split
          · rfl
          · next matching =>
              refine afterConsume_ends svc crypto expired ?_
              refine met.1 _ rfl _ rfl c found expired (Bool.eq_false_iff.mpr unused) ?_
              by_contra other
              exact matching ⟨fun empty => other (.inl empty), fun same => other (.inr same)⟩

/-- **An exchange answers alike** in the same sense. -/
theorem coupled_exchange (code clientId clientSecret redirectUri codeVerifier : String) :
    expiry.Coupled
      (Harmless (.call (.exchangeCodeForToken code clientId clientSecret redirectUri codeVerifier)))
      (fun a b => responseKind a = responseKind b) t
      ((svc.over .memory .memory crypto).exchangeCodeForToken code clientId clientSecret
        redirectUri codeVerifier)
      ((svc.over .memory .memory crypto).exchangeCodeForToken code clientId clientSecret
        redirectUri codeVerifier) := by
  by_cases wired : svc.clients = true
  · rw [exchangeCodeForToken_eq svc crypto wired]
    refine .bind (ask_respects _) fun isValid t' _ => ?_
    split
    · exact .ret rfl
    · refine .op (fun m db db' _ related _ _ => consumeAuthCode_related _ _ related) ?_
      intro m db db' _ related met met'
      change expiry.Coupled _ _ m.now
        (afterConsume _ crypto clientId codeVerifier
          (MemoryGrantRepository.consumeAuthCode (hashToken crypto code) redirectUri db).1)
        (afterConsume _ crypto clientId codeVerifier
          (MemoryGrantRepository.consumeAuthCode (hashToken crypto code) redirectUri db').1)
      rcases related.codes (hashToken crypto code) with same | gone
      · rw [consumeAuthCode_congr same]
        exact .refl (afterConsume_only _ crypto _ _ _) fun _ => rfl
      · exact coupled_of_refused (consumed_ends _ crypto gone.1 met)
          (consumed_ends _ crypto gone.2 met')
  · have unwired : (svc.over .memory .memory crypto).clients = false := Bool.eq_false_iff.mpr wired
    unfold TokenService.exchangeCodeForToken
    rw [unwired]
    exact .ret rfl

/-! ### Sweeps -/

/-- A sweep of the tokens on one side only. -/
theorem purgeTokens_related {m : Moment} {db db' : Db} (related : SameButExpired m.now db db') :
    SameButExpired m.now (MemoryTokenRepository.purgeExpired m db).2 db' :=
  ⟨related.codes, related.access.keep fun _ swept =>
    Classical.not_not.mp (of_decide_eq_false swept),
    related.refresh.keep fun _ swept => Classical.not_not.mp (of_decide_eq_false swept)⟩

/-- A sweep of the codes on one side only. -/
theorem purgeGrants_related {m : Moment} {db db' : Db} (related : SameButExpired m.now db db') :
    SameButExpired m.now (MemoryGrantRepository.purgeExpired m db).2 db' :=
  ⟨related.codes.keep fun _ swept => Classical.not_not.mp (of_decide_eq_false swept),
    related.access, related.refresh⟩

/-- A sweep removes what the other run need not have removed. -/
theorem purge_ends {request : Request} (purge : request.isPurge = true) :
    expiry.Ends t (fun reply => reply = .answer .done) (request.prog svc crypto) := by
  cases request with
  | call c =>
      cases c with
      | purgeExpired =>
          intro m db db' _ related
          refine ⟨purgeGrants_related related, ?_⟩
          intro m db db' _ related
          exact ⟨purgeTokens_related related, rfl⟩
      | _ => cases purge
  | introspectToken token => cases purge
  | purgeExpiredTokens => exact fun m db db' _ related => ⟨purgeTokens_related related, rfl⟩
  | purgeExpiredGrants => exact fun m db db' _ related => ⟨purgeGrants_related related, rfl⟩
  | nothing => rfl

theorem coupled_reply {p p' : StoreProg TokenResponse}
    (coupled : expiry.Coupled cond (fun a b => responseKind a = responseKind b) t p p') :
    expiry.Coupled cond (fun a b => a.kind = b.kind) t (Reply.answer <$> (Answer.token <$> p))
      (Reply.answer <$> (Answer.token <$> p')) := by
  have answers : expiry.Coupled cond
      (fun a b => (Reply.answer a).kind = (Reply.answer b).kind) t (Answer.token <$> p)
      (Answer.token <$> p') :=
    coupled.map fun _ _ alike => congrArg (fun r => Reply.answer (.token r)) alike
  exact answers.map fun _ _ alike => alike

/-- A request that is no sweep is answered alike. -/
theorem coupled_request (request : Request) (noPurge : request.isPurge = false) :
    expiry.Coupled (Harmless request) (fun a b => a.kind = b.kind) t (request.prog svc crypto)
      (request.prog svc crypto) := by
  cases request with
  | call c =>
      cases c with
      | generateAuthorizationCode clientId subject scope redirectUri challenge method nonce time amr
          orgId =>
          refine .refl (Prog.Only.map (Prog.Only.map ?_)) fun _ => rfl
          refine (generateSecureToken_only crypto (env_respects _)).bind fun code => ?_
          split
          · trivial
          · split
            · trivial
            · exact (ask_respects _).bind fun _ =>
                (Prog.only_call.mpr (saveAuthCode_respects _)).bind fun _ => trivial
      | exchangeCodeForToken code clientId secret redirectUri verifier =>
          exact coupled_reply (coupled_exchange svc crypto _ _ _ _ _)
      | refreshAccessToken refreshToken clientId =>
          exact coupled_reply (coupled_refresh svc crypto _ _)
      | validateAccessToken token =>
          refine .refl (Prog.Only.map (Prog.Only.map ?_)) fun _ => rfl
          refine (Prog.only_call.mpr (getAccessToken_respects _)).bind fun t => ?_
          cases t with
          | none => trivial
          | some t =>
              dsimp only
              split
              · trivial
              · refine (ask_respects _).bind fun now => ?_
                split <;> trivial
      | revokeAccessToken token revokedBy =>
          exact .refl (Prog.Only.map (Prog.Only.map
            (Prog.only_call.mpr (revokeAccessToken_respects _ _)))) fun _ => rfl
      | revokeRefreshToken token =>
          exact .refl (Prog.Only.map (Prog.Only.map
            (Prog.only_call.mpr (revokeRefreshToken_respects _)))) fun _ => rfl
      | purgeExpired => cases noPurge
  | introspectToken token =>
      exact .refl (Prog.Only.map (Prog.Only.map
        (Prog.only_call.mpr (introspectToken_respects _ _)))) fun _ => rfl
  | purgeExpiredTokens => cases noPurge
  | purgeExpiredGrants => cases noPurge
  | nothing => cases noPurge

end Requests

/-! ## Time -/

section Time

variable {ι : Type}

/-- When the last step of a schedule is made. -/
def endOf (t : Nat) (sched : List (ι × Moment)) : Nat :=
  sched.foldl (fun t e => t + e.2.now) t

/-- The moments of a thread that goes on alone after time `t`. -/
def onwards (t : Nat) (ms : Nat → Moment) : Nat → Moment
  | 0 => { ms 0 with now := t + (ms 0).now }
  | n + 1 => { ms (n + 1) with now := (onwards t ms n).now + (ms (n + 1)).now }

/-- The clock of a run only goes up. -/
theorem ascending_clocked (t : Nat) (sched : List (ι × Moment)) :
    Ascending Moment.now t (clocked t sched) := by
  induction sched generalizing t with
  | nil => trivial
  | cons e sched ih => exact ⟨Nat.le_add_right t e.2.now, ih (t + e.2.now)⟩

theorem endOf_clocked (t : Nat) (sched : List (ι × Moment)) :
    (clocked t sched).foldl (fun _ e => e.2.now) t = endOf t sched := by
  induction sched generalizing t with
  | nil => rfl
  | cons e sched ih => exact ih (t + e.2.now)

theorem clocked_append (t : Nat) (sched sched' : List (ι × Moment)) :
    clocked t (sched ++ sched') = clocked t sched ++ clocked (endOf t sched) sched' := by
  induction sched generalizing t with
  | nil => rfl
  | cons e sched ih => exact congrArg (List.cons _) (ih (t + e.2.now))

theorem onwards_succ (t : Nat) (ms : Nat → Moment) (n : Nat) :
    onwards t ms (n + 1) = onwards (t + (ms 0).now) (fun j => ms (j + 1)) n := by
  induction n with
  | zero => rfl
  | succ n ih =>
      have now := congrArg Moment.now ih
      simp only [onwards] at now ⊢
      rw [now]

theorem clocked_alone (t : Nat) (i : ι) (ms : Nat → Moment) (n : Nat) :
    clocked t ((List.range n).map fun j => (i, ms j)) =
      (List.range n).map fun j => (i, onwards t ms j) := by
  induction n generalizing t ms with
  | zero => rfl
  | succ n ih =>
      rw [List.range_succ_eq_map, List.map_cons, List.map_map, List.map_cons, List.map_map]
      refine congrArg (List.cons _) ?_
      refine (ih (t + (ms 0).now) fun j => ms (j + 1)).trans ?_
      simp only [Function.comp_def, Nat.succ_eq_add_one, onwards_succ]

theorem onwards_le (t : Nat) (ms : Nat → Moment) (n : Nat) : t ≤ (onwards t ms n).now := by
  induction n with
  | zero => exact Nat.le_add_right ..
  | succ n ih => exact Nat.le_trans ih (Nat.le_add_right ..)

end Time

/-! ## Two runs -/

section Unobservable

variable {ι : Type} [DecidableEq ι]

/-- The condition on a sweep is the same for every sweep. -/
theorem harmless_of_purges {request request' : Request} (purge : request.isPurge = true)
    {m : Moment} {o : StoreOp} {db : Db} (holds : Harmless request' m o db) :
    Harmless request m o db := by
  have noExchange : exchanging? request = none := by
    cases request with
    | call c =>
        cases c with
        | exchangeCodeForToken code clientId secret uri verifier => cases purge
        | _ => rfl
    | _ => rfl
  refine ⟨fun p exchange => ?_, holds.2⟩
  rw [noExchange] at exchange
  cases exchange

/-- The runs make the same requests, their sweeps apart. -/
def SameRequests (requests requests' : ι → Request) : Prop :=
  ∀ i, requests i = requests' i ∨ (requests i).isPurge = true ∧ (requests' i).isPurge = true

/-- Every step of the run meets `Harmless`. -/
def RunsHarmless (svc : TokenService) (crypto : CryptoProvider) (requests : ι → Request) (db : Db)
    (t : Nat) (sched : List (ι × Moment)) : Prop :=
  (start svc crypto requests db).Meets execOp (fun i => Harmless (requests i)) (clocked t sched)

omit [DecidableEq ι] in
/-- The two runs begin coupled. -/
theorem paired_start (svc : TokenService) (crypto : CryptoProvider)
    {requests requests' : ι → Request} (same : SameRequests requests requests') (db : Db)
    (t : Nat) :
    Pool.Paired expiry (fun i => Harmless (requests i)) (fun _ a b => a.kind = b.kind) t
      (start svc crypto requests db) (start svc crypto requests' db) := by
  refine ⟨.refl, fun i => ?_⟩
  have apart (left : (requests i).isPurge = true) (right : (requests' i).isPurge = true) :
      expiry.Coupled (Harmless (requests i)) (fun a b => a.kind = b.kind) t
        ((requests i).prog svc crypto) ((requests' i).prog svc crypto) := by
    refine .apart (fun reply => reply = .answer .done) (purge_ends svc crypto left)
      (purge_ends svc crypto right) fun a b done done' => ?_
    rw [done, done']
  rcases same i with eq | purges
  · cases purge : (requests i).isPurge with
    | true => exact apart purge (eq ▸ purge)
    | false =>
        change expiry.Coupled _ _ t ((requests i).prog svc crypto) ((requests' i).prog svc crypto)
        rw [← eq]
        exact coupled_request svc crypto (requests i) purge
  · exact apart purges.1 purges.2

/-- Purges are not observed: two runs that make the same requests at the same times and differ
in their sweeps give replies of the same kind, as long as no step of either meets an expired code
of an unknown challenge method or an expired access token named like a live refresh token. -/
theorem purging_unobservable (svc : TokenService) (crypto : CryptoProvider)
    {requests requests' : ι → Request} (same : SameRequests requests requests') (db : Db) (t : Nat)
    (sched : List (ι × Moment)) (met : RunsHarmless svc crypto requests db t sched)
    (met' : RunsHarmless svc crypto requests' db t sched) (i : ι) (a : Reply)
    (answered : (run svc crypto requests db t sched).answer? i = some a) :
    (∀ b, (run svc crypto requests' db t sched).answer? i = some b → a.kind = b.kind) ∧
      ∀ ms : Nat → Moment, ∃ n b,
        (run svc crypto requests' db t
          (sched ++ (List.range n).map fun j => (i, ms j))).answer? i = some b ∧
        a.kind = b.kind := by
  have agreed : (start svc crypto requests' db).Meets execOp (fun i => Harmless (requests i))
      (clocked t sched) := by
    refine met'.mono fun i m o s holds => ?_
    rcases same i with eq | purges
    · rw [eq]
      exact holds
    · exact harmless_of_purges purges.1 holds
  have paired := (paired_start svc crypto same db t).runAt (ascending_clocked t sched) met agreed
  rw [endOf_clocked] at paired
  refine ⟨fun b answered' => paired.alike answered answered', fun ms => ?_⟩
  obtain ⟨n, b, answered', alike⟩ := paired.answers answered
    (onwards_le (endOf t sched) ms) fun n => Nat.le_add_right ..
  refine ⟨n, b, ?_, alike⟩
  rw [run, clocked_append, Pool.runAt_append, clocked_alone]
  exact answered'

/-- A code with the given challenge method is issued, the sweep is made or not, and the code is
exchanged. -/
def issueAndExchange (method : String) (sweep : Request) : Nat → Request
  | 0 =>
    .call (.generateAuthorizationCode "app" "alice" "openid" "" "challenge" method "" 0 "" none)
  | 1 => sweep
  | 2 => .call (.exchangeCodeForToken (Sample.drawn 0) "app" "" "" "challenge")
  | _ => .nothing

/-- The code is issued in second 1000 and everything else happens 700 seconds later. -/
def lateExchange : List (Nat × Moment) :=
  [(0, Sample.envAt 0 0), (0, Sample.envAt 0 1), (0, Sample.envAt 0 2), (1, { now := 700000 }),
    (2, Sample.envAt 0 4), (2, Sample.envAt 0 5)]

theorem sameRequests_sweep (method : String) :
    SameRequests (issueAndExchange method .nothing)
      (issueAndExchange method .purgeExpiredGrants) := by
  intro i
  by_cases sweep : i = 1
  · subst sweep
    exact .inr ⟨rfl, rfl⟩
  · left
    unfold issueAndExchange
    split
    · rfl
    · exact absurd rfl sweep
    · rfl
    · rfl

theorem purging_unobservable_expired :
    (run Sample.service Sample.crypto (issueAndExchange "plain" .purgeExpiredGrants) Sample.db
        1000000 lateExchange).answer? 2 =
        some (.answer (.token (.error "invalid_grant" "Invalid authorization code"))) ∧
      ∀ ms : Nat → Moment, ∃ n b,
        (run Sample.service Sample.crypto (issueAndExchange "plain" .nothing) Sample.db 1000000
          (lateExchange ++ (List.range n).map fun j => (2, ms j))).answer? 2 = some b ∧
        .answer (.token (.error "invalid_grant" "")) = b.kind := by
  have answered : (run Sample.service Sample.crypto (issueAndExchange "plain" .purgeExpiredGrants)
      Sample.db 1000000 lateExchange).answer? 2 =
        some (.answer (.token (.error "invalid_grant" "Invalid authorization code"))) := by
    decide
  have same : SameRequests (issueAndExchange "plain" .purgeExpiredGrants)
      (issueAndExchange "plain" .nothing) := by
    intro i
    rcases sameRequests_sweep "plain" i with eq | sweeps
    · exact .inl eq.symm
    · exact .inr sweeps.symm
  refine ⟨answered, (purging_unobservable Sample.service Sample.crypto same Sample.db 1000000
    lateExchange ?_ ?_ 2 _ answered).2⟩
  · unfold RunsHarmless
    decide
  · unfold RunsHarmless
    decide

/-- An expired code of an unknown challenge method throws, unless it has been purged. -/
theorem purge_observed :
    SameRequests (issueAndExchange "MD5" .nothing) (issueAndExchange "MD5" .purgeExpiredGrants) ∧
      ∃ a b,
        (run Sample.service Sample.crypto (issueAndExchange "MD5" .nothing) Sample.db 1000000
          lateExchange).answer? 2 = some a ∧
        (run Sample.service Sample.crypto (issueAndExchange "MD5" .purgeExpiredGrants) Sample.db
          1000000 lateExchange).answer? 2 = some b ∧
        a.kind ≠ b.kind := by
  refine ⟨sameRequests_sweep "MD5",
    .answer (.token (.thrown "PkceChallenge: method must be 'S256' or 'plain', got 'MD5'")),
    .answer (.token (.error "invalid_grant" "Invalid authorization code")), ?_, ?_, ?_⟩
  · decide
  · decide
  · decide

end Unobservable

end Purging

end Fulla
