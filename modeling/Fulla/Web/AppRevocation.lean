import Fulla.Protocol.Calls
import Fulla.Web.Site

/-!
# Revoking an authorized app

`UserSelfServiceController::revokeAuthorizedApp` deletes the user's consents to a client and
revokes the access tokens stored under the public subject.  It does not touch the refresh
tokens, and it answers the same whether or not its last statement succeeds.

`revocation_ends_access_iff` says when a run of the token service after the answer never has
an access token of the two again: when no refresh token of theirs could be rotated before,
and every good access token was within reach of a statement that succeeded.
-/

namespace Fulla

open Conc

/-- A row of `oauth2_user_consents`. -/
structure UserConsent where
  internalUserId : Int
  clientId : String
  scopeName : String
deriving DecidableEq, Repr

/-! ## The subject normalizer -/

namespace Users

/-- `ClientOwnersRepository::findUserIdBySubject`: all digits are an internal id, anything else
a public subject. -/
def findUserIdBySubject (users : Users) (subject : String) : Option Int :=
  if subject = "" then none
  else if isNumeric subject then
    (stoInt (2 ^ 31) subject).bind fun id =>
      (users.findOne fun u => u.id = id && !u.deleted).map User.id
  else (users.findByPublicSub subject).map User.id

/-- The normalizer that `OAuth2Plugin` injects, when none of its look-ups fails. -/
def normalizeSubject (users : Users) (subject : String) : Option String :=
  (users.findUserIdBySubject subject).bind fun id =>
    ((users.rows.find? fun u => u.id = id).map User.publicSub).filter (· ≠ "")

end Users

/-- Public subjects are UUIDs. -/
def Users.Plain (users : Users) : Prop :=
  ∀ u ∈ users.rows, isNumeric u.publicSub = false

/-- Whatever the normalizer answers is what the table says. -/
def Env.NormalizesBy (env : Env) (users : Users) : Prop :=
  ∀ n u v, (env n).normalizeSubject u = some v → users.normalizeSubject u = some v

namespace AppRevocation

/-- The tables that the handler works on. -/
structure Tables where
  users : Users
  consents : List UserConsent := []
  db : Db := {}

/-- What a call finds around it. -/
structure Surroundings where
  /-- `app().getDbClient()` answers. -/
  dbAvailable : Bool := true
  findFails : Bool := false
  deleteFails : Bool := false
  updateFails : Bool := false
  /-- What the exceptions say. -/
  what : String := ""

/-- What a revocation answers. -/
inductive Reply where
  | error (code detail : String)
  | revoked (message clientId : String)
deriving DecidableEq, Repr

/-- `userId` is the subject of the bearer token. -/
def revokeAuthorizedApp (m : Surroundings) (userId clientId : String) (s : Tables) :
    Reply × Tables :=
  if clientId = "" then
    (.error "VALIDATION_MISSING_REQUIRED_FIELD" "revokeAuthorizedApp: clientId is required", s)
  else if m.dbAvailable = false then
    (.error "DB_CONNECTION_ERROR" "revokeAuthorizedApp: database unavailable", s)
  else if m.findFails then
    (.error "DB_QUERY_ERROR" ("revokeAuthorizedApp: user lookup failed: " ++ m.what), s)
  else
    match s.users.findByPublicSub userId with
    | none =>
      (.error "VALIDATION_RESOURCE_NOT_FOUND" "revokeAuthorizedApp: user not found", s)
    | some user =>
      if m.deleteFails then
        (.error "DB_QUERY_ERROR" ("revokeAuthorizedApp: consent DELETE failed: " ++ m.what), s)
      else
        let s := { s with
          consents := s.consents.filter fun c =>
            !(c.internalUserId = user.id && c.clientId = clientId) }
        -- the error callback of the UPDATE answers what its success answers
        let s := if m.updateFails then s else
          { s with
            db := s.db.revokeAccessWhere fun a => a.userId = userId && a.clientId = clientId }
        (.revoked "Authorization revoked successfully" clientId, s)

/-! ## The tokens of the two -/

/-- The subject is the user's public one, or a numeral of the internal id. -/
def Names (user : User) (subject : String) : Prop :=
  subject = user.publicSub ∨ isNumeric subject = true ∧ stoInt (2 ^ 31) subject = some user.id

instance (user : User) (subject : String) : Decidable (Names user subject) :=
  inferInstanceAs (Decidable (_ ∨ _))

/-- An access token of the two is revoked, or expired at `t`. -/
def AccessEnded (user : User) (clientId : String) (t : Int) (a : OAuth2AccessToken) : Prop :=
  Names user a.userId → a.clientId = clientId → a.revoked = true ∨ a.expiresAt < t

/-- A refresh token of the user and the client is refused from then on. -/
def RefreshEnded (user : User) (clientId : String) (t : Int) (r : OAuth2RefreshToken) : Prop :=
  Names user r.userId → r.clientId = clientId → r.revoked = true ∨ r.expiresAt < t

/-- No access token of the two is valid at `t` and no refresh token can be rotated. -/
structure Ended (user : User) (clientId : String) (t : Int) (db : Db) : Prop where
  access : ∀ a ∈ db.accessTokens.rows, AccessEnded user clientId t a
  refresh : ∀ r ∈ db.refreshTokens.rows, RefreshEnded user clientId t r

/-- The call exchanges no code. -/
def NoExchange : Call → Prop
  | .exchangeCodeForToken _ _ _ _ _ => False
  | _ => True

/-- From `t` on, whatever calls but exchanges are made, in any interleaving: no access token of
the two is ever valid in the store, and none is validated. -/
def StaysEnded (svc : TokenService) (grants : GrantBackend) (crypto : CryptoProvider)
    (users : Users) (user : User) (clientId : String) (t : Int) (db : Db) : Prop :=
  ∀ (ι : Type) [DecidableEq ι] (env : Env) (calls : ι → Call) (sched : List ι),
    (∀ n, t ≤ (env n).seconds) → env.NormalizesBy users → (∀ i, NoExchange (calls i)) →
    let c := runCalls env (svc.over grants .postgres crypto) calls db sched
    (∀ a ∈ c.store.db.accessTokens.rows, AccessEnded user clientId t a) ∧
      ∀ i a, c.answer? i = some (.access (some a)) → ¬ (Names user a.userId ∧ a.clientId = clientId)

/-! ## Runs of the token service -/

section Runs

variable {users : Users} {user : User} {clientId : String} {t : Int} {env : Env}

/-- What the normalizer makes of a numeral names the user only if the numeral did. -/
theorem names_of_normalized (member : user ∈ users.rows) (plain : users.Plain) {u v : String}
    (numeric : isNumeric u = true) (normalized : users.normalizeSubject u = some v)
    (names : Names user v) : Names user u := by
  obtain ⟨id, found, row⟩ := Option.bind_eq_some_iff.mp normalized
  obtain ⟨subject, -⟩ := Option.filter_eq_some_iff.mp row
  obtain ⟨other, stored, rfl⟩ := Option.map_eq_some_iff.mp subject
  have otherId : other.id = id := by simpa using List.find?_some stored
  have otherMem : other ∈ users.rows := List.mem_of_find?_eq_some stored
  unfold Users.findUserIdBySubject at found
  split_ifs at found with blank
  obtain ⟨id', numeral, found⟩ := Option.bind_eq_some_iff.mp found
  obtain ⟨third, looked, third_⟩ := Option.map_eq_some_iff.mp found
  have thirdId : third.id = id' := by
    have selected := (Users.mem_of_findOne looked).2
    simp only [Bool.and_eq_true, decide_eq_true_eq] at selected
    exact selected.1
  rcases names with own | ⟨digits, -⟩
  · have same : other = user := by
      have first := Table.mem_rows_iff.mp otherMem
      rw [own] at first
      exact Option.some.inj (first.symm.trans (Table.mem_rows_iff.mp member))
    refine .inr ⟨numeric, ?_⟩
    rw [numeral, ← thirdId, third_, ← otherId, same]
  · rw [plain other otherMem] at digits
    cases digits

/-! ### The invariant -/

theorem Ended.of_decays {db db' : Db} (ended : Ended user clientId t db) (decays : db.Decays db') :
    Ended user clientId t db' := by
  constructor
  · intro a' mem names client
    obtain ⟨a, found, aged⟩ := decays.access a'.token a' (Table.mem_rows_iff.mp mem)
    obtain ⟨-, client', subject, -, expiry, -⟩ := OAuth2AccessToken.identity_eq_iff.mp aged.identity
    rw [subject] at names
    rw [client'] at client
    rw [expiry]
    exact (ended.access a (Table.find?_eq_some.mp found).1 names client).imp aged.revoked id
  · intro r' mem names client
    obtain ⟨r, found, aged⟩ := decays.refresh r'.token r' (Table.mem_rows_iff.mp mem)
    obtain ⟨-, -, client', subject, -, expiry, -, -⟩ :=
      OAuth2RefreshToken.identity_eq_iff.mp aged.identity
    rw [subject] at names
    rw [client'] at client
    rw [expiry]
    exact (ended.refresh r (Table.find?_eq_some.mp found).1 names client).imp aged.revoked id

/-- A pair of somebody else is no pair of the two. -/
theorem Ended.of_stores {db db' : Db} (ended : Ended user clientId t db) {a : OAuth2AccessToken}
    {r : OAuth2RefreshToken} (stores : db.Stores a r db')
    (access : ¬ (Names user a.userId ∧ a.clientId = clientId))
    (refresh : ¬ (Names user r.userId ∧ r.clientId = clientId)) : Ended user clientId t db' := by
  obtain ⟨a₁, identityA, -, accessRows⟩ := stores.access
  obtain ⟨r₁, identityR, -, refreshRows⟩ := stores.refresh
  constructor
  · intro a' mem names client
    have found := Table.mem_rows_iff.mp mem
    rw [accessRows] at found
    split at found
    · cases found
      obtain ⟨-, client', subject, -⟩ := OAuth2AccessToken.identity_eq_iff.mp identityA
      exact absurd ⟨subject ▸ names, client' ▸ client⟩ access
    · exact ended.access a' (Table.find?_eq_some.mp found).1 names client
  · intro r' mem names client
    have found := Table.mem_rows_iff.mp mem
    rw [refreshRows] at found
    split at found
    · cases found
      obtain ⟨-, -, client', subject, -⟩ := OAuth2RefreshToken.identity_eq_iff.mp identityR
      exact absurd ⟨subject ▸ names, client' ▸ client⟩ refresh
    · exact ended.refresh r' (Table.find?_eq_some.mp found).1 names client

variable {ι : Type} [DecidableEq ι] {i : ι}

/-- What every call keeps; it looks at no thread. -/
def Inv (user : User) (clientId : String) (t : Int) (w : StoreWorld ι) (_ : ι → Unit) : Prop :=
  Ended user clientId t w.db

omit [DecidableEq ι] in
theorem inv_framed : Framed (Inv user clientId t : StoreWorld ι → (ι → Unit) → Prop) :=
  fun ended decays _ _ => Ended.of_decays ended decays

/-- A refresh token that is taken for a rotation is not of the two, or has expired. -/
theorem keeps_revokePresented (hashedRt : String) :
    Keeps (World.handler (exec env)) (Inv user clientId t) i
      (fun answer _ => ∀ r, answer = some r → Names user r.userId → r.clientId = clientId →
        r.expiresAt < t)
      (postgresTokenRepository.atomicRevokeRefreshToken hashedRt) () := by
  apply keeps_atomicRevokeRefreshToken TokenBackend.postgres
  intro e w w' γ answer inv _ step unsaved cas
  have ended : Ended user clientId t w.db := inv
  rcases cas with ⟨rfl, db⟩ | ⟨r, r', found, live, rfl, identity, db⟩
  · refine ⟨(), ?_, fun _ none => by cases none⟩
    rw [Inv, db]
    exact ended
  · refine ⟨(), ?_, ?_⟩
    · rw [Inv, db]
      exact ended.of_decays (Db.revokeRefreshWhere_decays _ _)
    · intro r'' eq names client
      cases eq
      obtain ⟨-, -, client', subject, -, expiry, -, -⟩ :=
        OAuth2RefreshToken.identity_eq_iff.mp identity
      rw [subject] at names
      rw [client'] at client
      rw [expiry]
      rcases ended.refresh r (Table.find?_eq_some.mp found).1 names client with revoked | expired
      · rw [revoked] at live
        cases live
      · exact expired

theorem keeps_nowSeconds (late : ∀ n, t ≤ (env n).seconds) :
    Keeps (World.handler (exec env)) (Inv user clientId t) i (fun now _ => t ≤ now) nowSeconds
      () := by
  apply Keeps.stutter
  · intro w γ inv _
    exact inv_framed inv .refl World.handler_stepped rfl
  · intro w γ _ _
    exact late w.tick

variable (svc : TokenService)

/-- The subject of a rotation names the user only if the token's subject did. -/
theorem keeps_normalizedSubject (member : user ∈ users.rows) (plain : users.Plain)
    (normalizes : env.NormalizesBy users) (userId : String) :
    Keeps (World.handler (exec env)) (Inv user clientId t) i
      (fun answer _ => ∀ subject, answer = some subject → Names user subject → Names user userId)
      (svc.normalizedSubject userId) () := by
  have refuse : Keeps (World.handler (exec env)) (Inv user clientId t) i
      (fun answer _ => ∀ subject, answer = some subject → Names user subject → Names user userId)
      (do
        svc.audit "refresh_subject_normalization_failed" "failure" userId "token" ""
        return none : StoreProg (Option String)) () := by
    refine Keeps.bind (inv_framed.keeps_quiet (audit_quiet svc _ _ _ _ _)) ?_
    intro _ _ _ _ none
    cases none
  unfold TokenService.normalizedSubject
  split
  · intro subject eq names
    cases eq
    exact names
  · next numeric =>
      split
      · exact refuse
      · apply Keeps.stutter
        · intro w γ inv _
          exact inv_framed inv .refl World.handler_stepped rfl
        · intro w γ _ _
          cases normalized :
              (World.handler (exec env) i (StoreOp.env (.normalizeSubject userId)) w).1 with
          | none => exact refuse
          | some subject =>
              dsimp only [Prog.bind]
              split
              · exact refuse
              · intro subject' eq names
                cases eq
                exact names_of_normalized member plain (by simpa using numeric)
                  (normalizes w.tick userId subject normalized) names

theorem keeps_saveRotated (crypto : CryptoProvider) {r : OAuth2RefreshToken} {subject : String}
    (other : ¬ (Names user subject ∧ r.clientId = clientId)) (now : Int)
    (tokenStr refreshTokenStr : String) :
    Keeps (World.handler (exec env)) (Inv user clientId t) i (fun _ _ => True)
      (postgresTokenRepository.saveTokenPair
        (svc.newAccessToken crypto tokenStr r.clientId subject r.scope r.orgId now)
        (svc.newRefreshToken crypto refreshTokenStr tokenStr r.clientId subject r.scope r.orgId
          r.familyId now)) () := by
  apply keeps_saveTokenPair TokenBackend.postgres
  · intro e w w' γ inv _ _ _ db
    refine ⟨(), ?_, trivial⟩
    rw [Inv, db]
    exact inv
  · intro e w w' γ inv _ _ _ stores
    exact ⟨(), Ended.of_stores inv stores other other, trivial⟩

theorem keeps_rotate (crypto : CryptoProvider) {r : OAuth2RefreshToken} {subject : String}
    (other : ¬ (Names user subject ∧ r.clientId = clientId)) (now : Int) :
    Keeps (World.handler (exec env)) (Inv user clientId t) i (fun _ _ => True)
      (svc.rotate postgresTokenRepository crypto r now subject) () := by
  unfold TokenService.rotate
  refine (inv_framed.keeps_quiet (resolveOrgContextForClaims_quiet svc _ _ _)).bind ?_
  intro orgCtx _ _
  refine (inv_framed.keeps_quiet (generateSecureToken_quiet _ _)).bind ?_
  intro newTokenStr _ _
  refine (inv_framed.keeps_quiet (generateSecureToken_quiet _ _)).bind ?_
  intro newRefreshTokenStr _ _
  split
  · trivial
  · refine Keeps.bind (keeps_saveRotated svc crypto other now _ _) fun ok _ _ => ?_
    split
    · trivial
    · exact inv_framed.keeps_rest ((audit_quiet svc _ _ _ _ _).bind fun _ =>
        (withIdToken_quiet svc _ _ _ _).bind fun _ => trivial)

variable (grants : GrantBackend) (crypto : CryptoProvider)

theorem keeps_refreshAccessToken (member : user ∈ users.rows) (plain : users.Plain)
    (normalizes : env.NormalizesBy users) (late : ∀ n, t ≤ (env n).seconds)
    (raw presenting : String) :
    Keeps (World.handler (exec env)) (Inv user clientId t) i (fun _ _ => True)
      ((svc.over grants .postgres crypto).refreshAccessToken raw presenting) () := by
  refine Keeps.bind (keeps_revokePresented _) ?_
  intro answer _ presented
  cases answer with
  | none => exact inv_framed.keeps_rest (refuseRefresh_quiet _ .postgres _)
  | some r =>
      dsimp only
      split
      · trivial
      · refine Keeps.bind (keeps_nowSeconds late) ?_
        intro now _ time
        split
        · trivial
        · next unexpired =>
            refine Keeps.bind (keeps_normalizedSubject _ member plain normalizes _) ?_
            intro answer _ normal
            cases answer with
            | none => trivial
            | some subject =>
                refine keeps_rotate _ crypto ?_ now
                rintro ⟨names, client⟩
                have expired := presented r rfl (normal subject rfl names) client
                omega

theorem keeps_getAccessToken (token : String) :
    Keeps (World.handler (exec env)) (Inv user clientId t) i
      (fun answer _ => ∀ a, answer = some a → AccessEnded user clientId t a)
      (postgresTokenRepository.getAccessToken token) () := by
  apply Keeps.stutter
  · intro w γ inv _
    exact inv_framed inv (execOp_decays (env w.tick) w.db rfl) World.handler_stepped rfl
  · intro w γ inv _
    have ended : Ended user clientId t w.db := inv
    have row : ∀ a, (World.handler (exec env) i (.sql (.selectAccess token)) w).1 = some a →
        a ∈ w.db.accessTokens.rows := by
      intro a answered
      have answered : ((SqlOp.selectAccess token).exec (env w.tick) w.db).1 = some a := answered
      by_cases fault : (env w.tick).fault = true
      · rw [SqlOp.exec_of_fault fault] at answered
        cases answered
      · rw [SqlOp.exec_of_ok fault] at answered
        exact (Table.find?_eq_some.mp answered).1
    intro a eq
    obtain ⟨a₀, answered, rfl⟩ := Option.map_eq_some_iff.mp eq
    exact ended.access a₀ (row a₀ answered)

/-- What is validated is not of the two. -/
theorem keeps_validateAccessToken (late : ∀ n, t ≤ (env n).seconds) (token : String) :
    Keeps (World.handler (exec env)) (Inv user clientId t) i
      (fun answer _ => ∀ a, answer = some a → ¬ (Names user a.userId ∧ a.clientId = clientId))
      ((svc.over grants .postgres crypto).validateAccessToken token) () := by
  refine Keeps.bind (keeps_getAccessToken _) ?_
  intro answer _ ended
  cases answer with
  | none =>
      intro a none
      cases none
  | some a =>
      dsimp only
      split
      · intro a none
        cases none
      · next live =>
          refine Keeps.bind (keeps_nowSeconds late) ?_
          intro now _ time
          split
          · intro a none
            cases none
          · next unexpired =>
              rintro a' eq ⟨names, client⟩
              cases eq
              rcases ended a rfl names client with revoked | expired
              · exact live revoked
              · omega

/-- The answer of a call is no access token of the two. -/
def Foreign (user : User) (clientId : String) : Answer → Prop
  | .access (some a) => ¬ (Names user a.userId ∧ a.clientId = clientId)
  | _ => True

theorem keeps_call (member : user ∈ users.rows) (plain : users.Plain)
    (normalizes : env.NormalizesBy users) (late : ∀ n, t ≤ (env n).seconds) {call : Call}
    (noExchange : NoExchange call) :
    Keeps (World.handler (exec env)) (Inv user clientId t) i
      (fun answer _ => Foreign user clientId answer)
      (call.prog (svc.over grants .postgres crypto)) () := by
  cases call with
  | generateAuthorizationCode c s o u h m n a r g =>
      exact (inv_framed.keeps_rest (generateAuthorizationCode_quiet svc grants .postgres crypto
        _ _ _ _ _ _ _ _ _ _)).bind fun _ _ _ => trivial
  | exchangeCodeForToken c d s u v => exact noExchange.elim
  | refreshAccessToken raw presenting =>
      exact (keeps_refreshAccessToken svc grants crypto member plain normalizes late _ _).bind
        fun _ _ _ => trivial
  | validateAccessToken token =>
      refine (keeps_validateAccessToken svc grants crypto late token).bind ?_
      intro answer _ foreign
      cases answer with
      | none => trivial
      | some a => exact foreign a rfl
  | revokeAccessToken token revokedBy =>
      exact (inv_framed.keeps_rest (revokeAccessToken_quiet .postgres _ _)).bind
        fun _ _ _ => trivial
  | revokeRefreshToken token =>
      exact (inv_framed.keeps_rest (revokeRefreshToken_quiet .postgres _)).bind
        fun _ _ _ => trivial
  | purgeExpired =>
      refine Keeps.bind (inv_framed.keeps_noSave (Prog.Only.bind ?_ fun _ => ?_))
        fun _ _ _ => trivial
      · exact (purgeGrants_quiet grants).mono fun _ quiet => quiet.noSave
      · exact purgeTokens_noSave .postgres

omit [DecidableEq ι] in
/-- What has ended stays ended. -/
theorem Ended.stays {db : Db} (ended : Ended user clientId t db) (member : user ∈ users.rows)
    (plain : users.Plain) : StaysEnded svc grants crypto users user clientId t db := by
  intro ι _ env calls sched late normalizes noExchange
  have good : (startCalls (svc.over grants .postgres crypto) calls db).Good
      (World.handler (exec env)) (Inv user clientId t)
      fun _ answer _ => Foreign user clientId answer :=
    ⟨fun _ => (), ended, fun i =>
      keeps_call svc grants crypto member plain normalizes late (noExchange i)⟩
  obtain ⟨γ, inv, threads⟩ := Pool.run_keeps good sched
  exact ⟨Ended.access inv, fun i a answered => Pool.post_of_answer? (threads i) answered⟩

end Runs

/-! ## After the answer -/

section Answer

variable {m : Surroundings} {s : Tables} {userId clientId : String} {user : User} {t : Int}

/-- What an answered revocation has done. -/
theorem revoked_db {message : String}
    (answered : (revokeAuthorizedApp m userId clientId s).1 = .revoked message clientId) :
    ∃ user, s.users.findByPublicSub userId = some user ∧
      (revokeAuthorizedApp m userId clientId s).2.db = if m.updateFails then s.db else
        s.db.revokeAccessWhere fun a => a.userId = userId && a.clientId = clientId := by
  unfold revokeAuthorizedApp at answered ⊢
  split at answered
  · cases answered
  split at answered
  · cases answered
  split at answered
  · cases answered
  split at answered
  · cases answered
  · next blank available finds _ user found =>
      split at answered
      · cases answered
      · next deletes =>
          rw [if_neg blank, if_neg available, if_neg finds, found]
          dsimp only
          rw [if_neg deletes]
          refine ⟨user, rfl, ?_⟩
          dsimp only
          split <;> rfl

/-- The tokens after the answer, by the tokens before it. -/
theorem ended_iff {db : Db} (public_ : user.publicSub = userId) :
    Ended user clientId t (if m.updateFails then db else
        db.revokeAccessWhere fun a => a.userId = userId && a.clientId = clientId) ↔
      (∀ a ∈ db.accessTokens.rows,
        AccessEnded user clientId t a ∨ m.updateFails = false ∧ a.userId = user.publicSub) ∧
      ∀ r ∈ db.refreshTokens.rows, RefreshEnded user clientId t r := by
  have both (db : Db) : Ended user clientId t db ↔
      (∀ a ∈ db.accessTokens.rows, AccessEnded user clientId t a) ∧
        ∀ r ∈ db.refreshTokens.rows, RefreshEnded user clientId t r :=
    ⟨fun ended => ⟨ended.access, ended.refresh⟩, fun both => ⟨both.1, both.2⟩⟩
  cases m.updateFails with
  | true => simp [both]
  | false =>
      rw [both]
      simp only [Bool.false_eq_true, if_false, true_and, Db.revokeAccessWhere,
        Table.forall_mem_updateWhere]
      refine and_congr_left fun _ => forall_congr' fun a => forall_congr' fun _ => ?_
      subst public_
      by_cases reached : a.userId = user.publicSub ∧ a.clientId = clientId
      · refine iff_of_true ?_ (.inr reached.1)
        simp only [reached, decide_true, Bool.and_self, if_true]
        exact fun _ _ => .inl rfl
      · have kept :
            (decide (a.userId = user.publicSub) && decide (a.clientId = clientId)) = false := by
          simpa [Decidable.imp_iff_not_or, not_and_or] using reached
        rw [kept]
        simp only [Bool.false_eq_true, if_false]
        refine ⟨.inl, fun either => ?_⟩
        rcases either with ended | own
        · exact ended
        · exact fun _ client => absurd ⟨own, client⟩ reached

/-- After an answered revocation no access token of the two is valid, no refresh token of
theirs can be rotated and no later run of calls, exchanges apart, changes that: just when every
refresh token of theirs was revoked or expired before, and so was every access token that no
successful `UPDATE` by the public subject reached. -/
theorem revocation_ends_access_iff (svc : TokenService) (grants : GrantBackend)
    (crypto : CryptoProvider) {m : Surroundings} {s : Tables} {userId clientId message : String}
    (answered : (revokeAuthorizedApp m userId clientId s).1 = .revoked message clientId)
    (plain : s.users.Plain) (t : Int) :
    ∃ user, s.users.findByPublicSub userId = some user ∧
      (Ended user clientId t (revokeAuthorizedApp m userId clientId s).2.db ∧
          StaysEnded svc grants crypto s.users user clientId t
            (revokeAuthorizedApp m userId clientId s).2.db ↔
        (∀ a ∈ s.db.accessTokens.rows,
          AccessEnded user clientId t a ∨ m.updateFails = false ∧ a.userId = user.publicSub) ∧
        ∀ r ∈ s.db.refreshTokens.rows, RefreshEnded user clientId t r) := by
  obtain ⟨user, found, db⟩ := revoked_db answered
  have stored := Users.find?_of_findByPublicSub found
  have member : user ∈ s.users.rows := (Table.find?_eq_some.mp stored).1
  refine ⟨user, found, ?_⟩
  rw [db, ← ended_iff (Table.find?_key stored)]
  exact and_iff_left_of_imp fun ended => ended.stays svc grants crypto member plain

end Answer

/-! ## A refresh token -/

/-- A user with a number and a public subject. -/
def alice : User where
  id := 7
  publicSub := "sub-alice"
  username := "alice"
  email := "alice@example.org"
  passwordHash := ""

/-- Alice's access token, and the given refresh tokens. -/
def sampleTables (refreshTokens : Table OAuth2RefreshToken.token) : Tables where
  users := { rows := [alice], nodup := by decide }
  consents := [⟨7, "app", "openid"⟩]
  db :=
    { clientIds := ["app"]
      accessTokens := Table.empty.assign
        { token := "A", clientId := "app", userId := "sub-alice", scope := "openid"
          expiresAt := 5000 }
      refreshTokens := refreshTokens }

/-- Without a refresh token the revocation is the end. -/
theorem revocation_ends_access_alone :
    ∃ user, (sampleTables .empty).users.findByPublicSub "sub-alice" = some user ∧
      StaysEnded Sample.service .postgres Sample.crypto (sampleTables .empty).users user "app" 1000
        (revokeAuthorizedApp {} "sub-alice" "app" (sampleTables .empty)).2.db := by
  have plain : (sampleTables .empty).users.Plain := by
    intro u mem
    cases List.mem_singleton.mp mem
    decide
  have answered : (revokeAuthorizedApp {} "sub-alice" "app" (sampleTables .empty)).1 =
      .revoked "Authorization revoked successfully" "app" := by decide
  obtain ⟨user, found, iff_⟩ := revocation_ends_access_iff Sample.service .postgres Sample.crypto
    answered plain 1000
  refine ⟨user, found, (iff_.mpr ⟨?_, fun _ mem => by cases mem⟩).2⟩
  intro a mem
  cases List.mem_singleton.mp mem
  cases found
  exact .inr ⟨rfl, rfl⟩

/-- Alice's refresh token is rotated after the answer: a new access token of hers is valid. -/
theorem refresh_outlives_revocation :
    let s := sampleTables (Table.empty.assign
      { token := "R", accessToken := "A", clientId := "app", userId := "sub-alice"
        scope := "openid", expiresAt := 5000, familyId := "F" })
    let answer := revokeAuthorizedApp {} "sub-alice" "app" s
    let c := runCalls (Sample.envAt 1001)
      (Sample.service.over .postgres .postgres Sample.crypto)
      (fun _ : Unit => .refreshAccessToken "R" "app") answer.2.db (List.replicate 12 ())
    answer.1 = .revoked "Authorization revoked successfully" "app" ∧
      (c.store.db.accessTokens.rows.any fun a => a.userId = "sub-alice" && a.clientId = "app" &&
        !a.revoked && 1001 ≤ a.expiresAt) = true := by
  decide +kernel

end AppRevocation

end Fulla
