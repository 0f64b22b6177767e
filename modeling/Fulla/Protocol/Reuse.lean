import Fulla.Protocol.Calls
import Fulla.Storage.TokenFamilies

/-!
# Reuse of a rotated refresh token

A refresh token that was already rotated and is presented again should end its
family: no refresh token of the family unrevoked, no access token linked to it
valid.

* Over the memory repository the look-up that should recognise the reuse hides
  revoked tokens, so the call answers an error and changes nothing.
  `reuse_ends_family_iff` says exactly when the family is dead afterwards: when it
  was dead before.
* Over the Postgres repository the family is revoked by two statements, and the
  winner of a concurrent rotation inserts its new pair in a step of its own.
  `revokeTokenFamily_final`: in every run in which no pair of the family is
  inserted after the first statement, the revocation is final.
-/

namespace Fulla.Reuse

open Conc

/-- What `validateAccessToken` accepts of a stored access token. -/
def validAt (now : Int) (a : OAuth2AccessToken) : Bool :=
  !a.revoked && decide (now < a.expiresAt)

/-- No refresh token of the family is unrevoked and no access token of it is valid. -/
def FamilyDead (db : Db) (now : Int) (family : String) : Prop :=
  (∀ r ∈ db.refreshTokens.rows, r.familyId = family → r.revoked = true) ∧
    ∀ a ∈ db.accessTokens.rows, db.linked family a = true → validAt now a = false

instance (db : Db) (now : Int) (family : String) : Decidable (FamilyDead db now family) :=
  inferInstanceAs (Decidable (_ ∧ _))

/-! ## Memory -/

section Memory

variable {ι : Type} (env : Env) (svc : TokenService) (grants : GrantBackend)
  (crypto : CryptoProvider)

/-- Presenting a revoked token to the memory repository does nothing. -/
theorem refresh_revoked_unchanged (i : ι) {w : StoreWorld ι} {raw : String} (clientId : String)
    {r : OAuth2RefreshToken} (stored : w.db.refreshTokens.find? (hashToken crypto raw) = some r)
    (revoked : r.revoked = true) :
    Prog.Sat (World.handler (exec env) i) w
      ((svc.over grants .memory crypto).refreshAccessToken raw clientId)
      fun response w' =>
        response = makeError "invalid_grant" "Invalid or revoked refresh token" ∧
          w'.db = w.db := by
  have cas : MemoryTokenRepository.atomicRevokeRefreshToken (hashToken crypto raw) w.db =
      (none, w.db) := by
    simp only [MemoryTokenRepository.atomicRevokeRefreshToken, stored, revoked, if_true]
  have first : Prog.Sat (World.handler (exec env) i) w
      (mem (.atomicRevokeRefreshToken (hashToken crypto raw)))
      fun answer w' => answer = none ∧ w'.db = w.db :=
    ⟨congrArg Prod.fst cas, congrArg Prod.snd cas⟩
  refine first.bind ?_
  intro _ w₁ answered
  rcases answered with ⟨rfl, db₁⟩
  have hidden : MemoryTokenRepository.getRefreshToken (env w₁.tick) (hashToken crypto raw) w₁.db =
      (none, w₁.db) := by
    simp [MemoryTokenRepository.getRefreshToken, db₁, stored, revoked]
  have second : Prog.Sat (World.handler (exec env) i) w₁
      (mem (.getRefreshToken (hashToken crypto raw)))
      fun answer w' => answer = none ∧ w'.db = w.db :=
    ⟨congrArg Prod.fst hidden, (congrArg Prod.snd hidden).trans db₁⟩
  refine second.bind ?_
  intro _ w₂ answered
  rcases answered with ⟨rfl, db₂⟩
  exact ⟨rfl, db₂⟩

/-- A rotated token presented again by its own client: the answer is an error and
the family is dead afterwards if and only if the family was dead before. -/
theorem reuse_ends_family_iff (i : ι) (w : StoreWorld ι) (raw : String) (r : OAuth2RefreshToken)
    (now : Int) (stored : w.db.refreshTokens.find? (hashToken crypto raw) = some r)
    (rotated : r.revoked = true ∧ r.familyId ≠ "") :
    let out := ((svc.over grants .memory crypto).refreshAccessToken raw r.clientId).run
      (World.handler (exec env) i) w
    (∃ error description, out.1 = .error error description) ∧
        FamilyDead out.2.db now r.familyId ↔
      FamilyDead w.db now r.familyId := by
  obtain ⟨response, db⟩ :=
    refresh_revoked_unchanged env svc grants crypto i r.clientId stored rotated.1
  constructor
  · intro answered
    rcases answered with ⟨-, dead⟩
    rwa [db] at dead
  · intro dead
    exact ⟨⟨_, _, response⟩, by rwa [db]⟩

/-- A code is exchanged and its refresh token rotated, all over the memory store. -/
def rotationCalls : Fin 4 → Call
  | 0 => .generateAuthorizationCode "app" "alice" "openid" "" "" "" "" 0 "" none
  | 1 => .exchangeCodeForToken (Sample.drawn 0) "app" "" "" ""
  | 2 => .refreshAccessToken (Sample.drawn 7) "app"
  | 3 => .validateAccessToken ""

/-- The store after an exchange and a rotation. -/
def rotatedWorld : StoreWorld (Fin 4) :=
  (runCalls (Sample.envAt 1000) (Sample.service.over .memory .memory Sample.crypto) rotationCalls
    Sample.db [0, 0, 0, 1, 1, 1, 1, 1, 1, 1, 2, 2, 2, 2, 2]).store

/-- The token of the exchange as it is stored after its rotation. -/
def rotatedToken : OAuth2RefreshToken :=
  { token := Sample.drawn 7, accessToken := Sample.drawn 6, clientId := "app"
    userId := "alice", scope := "openid", expiresAt := 87400, revoked := true
    familyId := Sample.drawn 8 }

/-- The rotated token is presented again, and its successor stays usable. -/
theorem reuse_leaves_family_alive :
    let out := ((Sample.service.over .memory .memory Sample.crypto).refreshAccessToken
      (Sample.drawn 7) "app").run (World.handler (exec (Sample.envAt 1000)) 3) rotatedWorld
    rotatedWorld.db.refreshTokens.find? (hashToken Sample.crypto (Sample.drawn 7)) =
        some rotatedToken ∧
      rotatedToken.revoked = true ∧ rotatedToken.familyId ≠ "" ∧
      ¬ ((∃ error description, out.1 = .error error description) ∧
        FamilyDead out.2.db 1000 rotatedToken.familyId) := by
  refine ⟨by decide, rfl, by decide, fun detected => ?_⟩
  exact absurd detected.2 (by decide)

theorem reuse_ends_family_iff_rotated :
    let out := ((Sample.service.over .memory .memory Sample.crypto).refreshAccessToken
      (Sample.drawn 7) rotatedToken.clientId).run
        (World.handler (exec (Sample.envAt 1000)) 3) rotatedWorld
    (∃ error description, out.1 = .error error description) ∧
        FamilyDead out.2.db 1000 rotatedToken.familyId ↔
      FamilyDead rotatedWorld.db 1000 rotatedToken.familyId :=
  reuse_ends_family_iff (Sample.envAt 1000) Sample.service .memory Sample.crypto 3 rotatedWorld
    (Sample.drawn 7) rotatedToken 1000 (by decide) ⟨rfl, by decide⟩

end Memory

/-! ## Postgres -/

section Postgres

variable {ι : Type}

/-- The first statement of `revokeTokenFamily` was executed. -/
def revokesRefresh (family : String) : StoreEvent ι → Bool
  | ⟨_, _, .sql (.revokeFamilyRefresh f), ok, _⟩ => (ok : Bool) && decide (f = family)
  | _ => false

/-- The second statement of `revokeTokenFamily` was executed. -/
def revokesAccess (family : String) : StoreEvent ι → Bool
  | ⟨_, _, .sql (.revokeFamilyAccess f), ok, _⟩ => (ok : Bool) && decide (f = family)
  | _ => false

/-- A pair of the family was saved. -/
def savesFamily (family : String) (e : StoreEvent ι) : Bool :=
  match savedBy e with
  | some (_, r) => r.familyId = family
  | none => false

/-- Some call has executed both statements of `revokeTokenFamily`. -/
def Completed (family : String) : List (StoreEvent ι) → Prop
  | [] => False
  | e :: log =>
    (revokesAccess family e = true ∧
        ∃ e' ∈ log, e'.thread = e.thread ∧ revokesRefresh family e' = true) ∨
      Completed family log

/-- No pair of the family was saved once a call had executed the first statement. -/
def NoLateSave (family : String) : List (StoreEvent ι) → Prop
  | [] => True
  | e :: log =>
    (savesFamily family e = true → ∀ e' ∈ log, revokesRefresh family e' = false) ∧
      NoLateSave family log

instance [DecidableEq ι] (family : String) :
    (log : List (StoreEvent ι)) → Decidable (Completed family log)
  | [] => isFalse id
  | _ :: log =>
    have := instDecidableCompletedOfDecidableEq family log
    inferInstanceAs (Decidable (_ ∨ _))

instance (family : String) : (log : List (StoreEvent ι)) → Decidable (NoLateSave family log)
  | [] => isTrue trivial
  | _ :: log =>
    have := instDecidableNoLateSave family log
    inferInstanceAs (Decidable (_ ∧ _))

theorem Completed.append {family : String} {log : List (StoreEvent ι)}
    (completed : Completed family log) (later : List (StoreEvent ι)) :
    Completed family (later ++ log) := by
  induction later with
  | nil => exact completed
  | cons e later ih => exact Or.inr ih

theorem Completed.exists_revokesRefresh {family : String} {log : List (StoreEvent ι)}
    (completed : Completed family log) : ∃ e ∈ log, revokesRefresh family e = true := by
  induction log with
  | nil => cases completed
  | cons e log ih =>
      rcases completed with ⟨-, e', mem, -, first⟩ | before
      · exact ⟨e', List.mem_cons_of_mem _ mem, first⟩
      · obtain ⟨e', mem, first⟩ := ih before
        exact ⟨e', List.mem_cons_of_mem _ mem, first⟩

/-- What a call of the service can execute on the Postgres token store when nobody
purges: quiet operations, and the transaction that inserts a linked pair. -/
inductive Permitted : StoreOp → Prop
  | quiet {o : StoreOp} (quiet : Quiet o) : Permitted o
  | save {a : OAuth2AccessToken} {r : OAuth2RefreshToken} (linked : r.accessToken = a.token) :
    Permitted (.sql (.insertTokenPair a r))

/-- The invariant of a run: pairs stay together, and on a run without late saves a
family whose revocation has begun has no unrevoked refresh token, and one whose
revocation is complete no unrevoked access token either. -/
structure Inv (family : String) (w : StoreWorld ι) : Prop where
  paired : ∀ k r, w.db.refreshTokens.find? k = some r →
    ∃ a, w.db.accessTokens.find? r.accessToken = some a
  begun : NoLateSave family w.log → ∀ e ∈ w.log, revokesRefresh family e = true →
    ∀ k r, w.db.refreshTokens.find? k = some r → r.familyId = family → r.revoked = true
  complete : NoLateSave family w.log → Completed family w.log →
    ∀ k r, w.db.refreshTokens.find? k = some r → r.familyId = family →
      ∀ a, w.db.accessTokens.find? r.accessToken = some a → a.revoked = true

variable {env : Env} {family : String} {w w' : StoreWorld ι} {i : ι} {e : StoreEvent ι}
  {o : StoreOp}

/-- The first statement has revoked every refresh token of the family. -/
theorem revokesRefresh_effect (m : Moment) (db : Db) (n : Nat)
    (first : revokesRefresh family (⟨i, n, o, (execOp m o db).1, db⟩ : StoreEvent ι) = true) :
    (execOp m o db).2 = db.revokeRefreshWhere fun r => r.familyId = family := by
  cases o with
  | sql o =>
      cases o with
      | revokeFamilyRefresh f =>
          by_cases fault : m.fault = true
          · simp [revokesRefresh, execOp, SqlOp.exec_of_fault fault, SqlOp.refused] at first
          · simp only [revokesRefresh, execOp, SqlOp.exec_of_ok fault, SqlOp.effect,
              Sql.revokeFamilyRefresh, Bool.true_and, decide_eq_true_eq] at first ⊢
            rw [first]
      | _ => cases first
  | _ => cases first

/-- The second statement has revoked every access token linked to the family. -/
theorem revokesAccess_effect (m : Moment) (db : Db) (n : Nat)
    (second : revokesAccess family (⟨i, n, o, (execOp m o db).1, db⟩ : StoreEvent ι) = true) :
    (execOp m o db).2 = db.revokeAccessWhere (db.linked family) := by
  cases o with
  | sql o =>
      cases o with
      | revokeFamilyAccess f =>
          by_cases fault : m.fault = true
          · simp [revokesAccess, execOp, SqlOp.exec_of_fault fault, SqlOp.refused] at second
          · simp only [revokesAccess, execOp, SqlOp.exec_of_ok fault, SqlOp.effect,
              Sql.revokeFamilyAccess, Bool.true_and, decide_eq_true_eq] at second ⊢
            rw [second]
            rfl
      | _ => cases second
  | _ => cases second

theorem find?_revokeRefreshWhere {db : Db} {sel : OAuth2RefreshToken → Bool} {k : String}
    {r : OAuth2RefreshToken}
    (found : (db.revokeRefreshWhere sel).refreshTokens.find? k = some r) :
    ∃ r₀, db.refreshTokens.find? k = some r₀ ∧ r.identity = r₀.identity ∧
      (sel r₀ = true → r.revoked = true) := by
  rw [Db.revokeRefreshWhere, Table.find?_updateWhere, Option.map_eq_some_iff] at found
  obtain ⟨r₀, found, rfl⟩ := found
  refine ⟨r₀, found, ?_⟩
  split
  · exact ⟨rfl, fun _ => rfl⟩
  · next unselected => exact ⟨rfl, fun selected => absurd selected unselected⟩

theorem find?_revokeAccessWhere {db : Db} {sel : OAuth2AccessToken → Bool} {k : String}
    {a : OAuth2AccessToken}
    (found : (db.revokeAccessWhere sel).accessTokens.find? k = some a) :
    ∃ a₀, db.accessTokens.find? k = some a₀ ∧ (sel a₀ = true → a.revoked = true) := by
  rw [Db.revokeAccessWhere, Table.find?_updateWhere, Option.map_eq_some_iff] at found
  obtain ⟨a₀, found, rfl⟩ := found
  refine ⟨a₀, found, ?_⟩
  split
  · exact fun _ => rfl
  · next unselected => exact fun selected => absurd selected unselected

/-- A step that saves nothing and loses no access token. -/
theorem Inv.frame (inv : Inv family w) (step : World.Stepped i e w w')
    (decays : w.db.Decays w'.db) (keeps : w.db.KeepsAccess w'.db) (unsaved : savedBy e = none)
    (first : revokesRefresh family e = true →
      w'.db = w.db.revokeRefreshWhere fun r => r.familyId = family)
    (second : revokesAccess family e = true →
      w'.db = w.db.revokeAccessWhere (w.db.linked family)) : Inv family w' := by
  have noLate : NoLateSave family w'.log → NoLateSave family w.log := by
    rw [step.log]
    exact And.right
  constructor
  case paired =>
    intro k r' found'
    obtain ⟨r, found, aged⟩ := decays.refresh k r' found'
    obtain ⟨a, stored⟩ := inv.paired k r found
    rw [OAuth2RefreshToken.accessToken_of_identity aged.identity]
    exact keeps _ a stored
  case begun =>
    intro clean e' mem isFirst k r' found' inFamily
    rw [step.log] at mem
    rcases List.mem_cons.mp mem with rfl | before
    · rw [first isFirst] at found'
      obtain ⟨r, -, identity, revoked⟩ := find?_revokeRefreshWhere found'
      refine revoked ?_
      rw [← OAuth2RefreshToken.familyId_of_identity identity]
      simpa using inFamily
    · obtain ⟨r, found, aged⟩ := decays.refresh k r' found'
      rw [OAuth2RefreshToken.familyId_of_identity aged.identity] at inFamily
      exact aged.revoked (inv.begun (noLate clean) e' before isFirst k r found inFamily)
  case complete =>
    intro clean completed k r' found' inFamily a' stored'
    rw [step.log] at completed
    rcases completed with ⟨isSecond, -⟩ | before
    · have db := second isSecond
      rw [db] at found' stored'
      obtain ⟨a, stored, revoked⟩ := find?_revokeAccessWhere stored'
      refine revoked ?_
      have key : a.token = r'.accessToken := Table.find?_key stored
      simp only [Db.linked, List.any_eq_true, Bool.and_eq_true, decide_eq_true_eq]
      exact ⟨r', (Table.find?_eq_some.mp found').1, inFamily, key.symm⟩
    · obtain ⟨r, found, aged⟩ := decays.refresh k r' found'
      obtain ⟨a, stored, agedA⟩ := decays.access _ a' stored'
      rw [OAuth2RefreshToken.familyId_of_identity aged.identity] at inFamily
      rw [OAuth2RefreshToken.accessToken_of_identity aged.identity] at stored
      exact agedA.revoked (inv.complete (noLate clean) before k r found inFamily a stored)

/-- A pair is inserted under a new name. -/
theorem Inv.store (inv : Inv family w) (step : World.Stepped i e w w') {a : OAuth2AccessToken}
    {r : OAuth2RefreshToken} (pair : r.accessToken = a.token) (saved : savedBy e = some (a, r))
    (absent : w.db.accessTokens.find? a.token = none) (stores : w.db.Stores a r w'.db)
    (notFirst : revokesRefresh family e = false) (notSecond : revokesAccess family e = false) :
    Inv family w' := by
  obtain ⟨a', -, -, access⟩ := stores.access
  obtain ⟨r', identity, -, refresh⟩ := stores.refresh
  have familyId : r'.familyId = r.familyId := OAuth2RefreshToken.familyId_of_identity identity
  -- On a clean run no statement against the family precedes a pair of the family.
  have first : NoLateSave family w'.log → ∀ e' ∈ w'.log, revokesRefresh family e' = true →
      NoLateSave family w.log ∧ e' ∈ w.log ∧ r.familyId ≠ family := by
    intro clean e' mem isFirst
    rw [step.log] at clean mem
    rcases List.mem_cons.mp mem with rfl | before
    · rw [notFirst] at isFirst
      cases isFirst
    · refine ⟨clean.2, before, fun inFamily => ?_⟩
      have late : savesFamily family e = true := by simp [savesFamily, saved, inFamily]
      rw [clean.1 late e' before] at isFirst
      cases isFirst
  constructor
  case paired =>
    intro k r₁ found
    rw [refresh] at found
    split at found
    · cases found
      rw [OAuth2RefreshToken.accessToken_of_identity identity, access, pair, if_pos rfl]
      exact ⟨a', rfl⟩
    · obtain ⟨a₁, stored⟩ := inv.paired k r₁ found
      rw [access]
      split
      · exact ⟨a', rfl⟩
      · exact ⟨a₁, stored⟩
  case begun =>
    intro clean e' mem isFirst k r₁ found inFamily
    obtain ⟨clean', before, other⟩ := first clean e' mem isFirst
    rw [refresh] at found
    split at found
    · cases found
      exact absurd (familyId.symm.trans inFamily) other
    · exact inv.begun clean' e' before isFirst k r₁ found inFamily
  case complete =>
    intro clean completed k r₁ found inFamily a₁ stored
    obtain ⟨e', mem, isFirst⟩ := completed.exists_revokesRefresh
    obtain ⟨clean', -, other⟩ := first clean e' mem isFirst
    have before : Completed family w.log := by
      rw [step.log] at completed
      rcases completed with ⟨isSecond, -⟩ | before
      · rw [notSecond] at isSecond
        cases isSecond
      · exact before
    rw [refresh] at found
    split at found
    · cases found
      exact absurd (familyId.symm.trans inFamily) other
    · -- The access token of an older pair is stored already, so it is not the new one.
      have ne : r₁.accessToken ≠ a.token := by
        intro eq
        obtain ⟨a₂, old⟩ := inv.paired k r₁ found
        rw [eq, absent] at old
        cases old
      rw [access, if_neg ne] at stored
      exact inv.complete clean' before k r₁ found inFamily a₁ stored

theorem Inv.step (inv : Inv family w) (permitted : Permitted o) :
    Inv family (World.handler (exec env) i o w).2 := by
  cases permitted with
  | quiet quiet =>
      exact inv.frame World.handler_stepped (execOp_decays (env w.tick) w.db quiet.noSave)
        (execOp_keepsAccess (env w.tick) w.db quiet) (savedBy_eq_none quiet.noSave)
        (revokesRefresh_effect (env w.tick) w.db w.tick)
        (revokesAccess_effect (env w.tick) w.db w.tick)
  | @save a r pair =>
      let o : StoreOp := .sql (.insertTokenPair a r)
      have step : World.Stepped i ⟨i, w.tick, o, (exec env w.tick o w.db).1, w.db⟩ w
          (World.handler (exec env) i o w).2 := World.handler_stepped
      rcases SqlOp.insertTokenPair_cases (env w.tick) a r w.db with same | ⟨db', eq, absent, stores⟩
      · have answer : (exec env w.tick o w.db).1 = false := congrArg Prod.fst same
        have after : (World.handler (exec env) i o w).2.db = w.db := congrArg Prod.snd same
        rw [answer] at step
        exact inv.frame step (after ▸ .refl) (.of_eq (congrArg Db.accessTokens after)) rfl
          Bool.noConfusion Bool.noConfusion
      · have answer : (exec env w.tick o w.db).1 = true := congrArg Prod.fst eq
        have after : (World.handler (exec env) i o w).2.db = db' := congrArg Prod.snd eq
        rw [answer] at step
        exact inv.store step pair rfl absent (after ▸ stores) rfl rfl

/-! ### The calls -/

section Calls

variable (svc : TokenService) (crypto : CryptoProvider)

theorem permitted_quiet {α : Type} {p : StoreProg α} (quiet : p.Only Quiet) : p.Only Permitted :=
  quiet.mono fun _ => .quiet

theorem permitted_ports : OnPorts Permitted :=
  fun _ _ => .quiet ⟨rfl, rfl⟩

theorem permitted_draw (n : Nat) : Permitted (.env (.secureRandomBytes n)) :=
  .quiet ⟨rfl, rfl⟩

theorem permitted_save (a : OAuth2AccessToken) (r : OAuth2RefreshToken)
    (linked : r.accessToken = a.token) :
    (postgresTokenRepository.saveTokenPair a r).Only Permitted :=
  Prog.only_call.mpr (.save linked)

/-- An exchange saves linked pairs only. -/
theorem exchangeCodeForToken_permitted (grants : GrantBackend)
    (code clientId clientSecret redirectUri codeVerifier : String) :
    ((svc.over grants .postgres crypto).exchangeCodeForToken code clientId clientSecret redirectUri
      codeVerifier).Only Permitted := by
  unfold TokenService.exchangeCodeForToken
  split
  · next grants' tokens' crypto' _ wiredG wiredT wiredC =>
      cases wiredG
      cases wiredT
      cases wiredC
      refine (permitted_quiet (ask_quiet _)).bind fun isValid => ?_
      split
      · trivial
      · refine (permitted_quiet (consumeAuthCode_quiet grants _ _)).bind fun authCode => ?_
        cases authCode with
        | none => trivial
        | some authCode =>
            dsimp only
            split
            · trivial
            · refine (permitted_quiet nowSeconds_quiet).bind fun now => ?_
              split
              · trivial
              · exact issueForCode_only _ permitted_ports permitted_draw permitted_save _ _ _
  · trivial

/-- So does a refresh. -/
theorem refreshAccessToken_permitted (grants : GrantBackend) (raw clientId : String) :
    ((svc.over grants .postgres crypto).refreshAccessToken raw clientId).Only Permitted := by
  unfold TokenService.refreshAccessToken
  split
  · next tokens' crypto' wiredT wiredC =>
      cases wiredT
      cases wiredC
      refine Prog.Only.bind (Prog.only_call.mpr (.quiet ⟨rfl, rfl⟩)) fun storedRt => ?_
      cases storedRt with
      | none => exact permitted_quiet (refuseRefresh_quiet _ .postgres _)
      | some storedRt =>
          dsimp only
          split
          · trivial
          · refine (permitted_quiet nowSeconds_quiet).bind fun now => ?_
            split
            · trivial
            · refine (permitted_quiet (normalizedSubject_quiet _ _)).bind fun subject => ?_
              cases subject with
              | none => trivial
              | some subject =>
                  exact rotate_only _ permitted_ports permitted_draw permitted_save _ _ _ _
  · trivial

/-- Every call but the sweep is permitted. -/
theorem call_permitted (grants : GrantBackend) {call : Call} (noPurge : call ≠ .purgeExpired) :
    (call.prog (svc.over grants .postgres crypto)).Only Permitted := by
  cases call with
  | exchangeCodeForToken code clientId secret redirectUri verifier =>
      exact (exchangeCodeForToken_permitted svc crypto grants _ _ _ _ _).map
  | refreshAccessToken raw clientId =>
      exact (refreshAccessToken_permitted svc crypto grants _ _).map
  | generateAuthorizationCode clientId subject scope redirectUri challenge method nonce time amr
      orgId =>
      exact permitted_quiet (generateAuthorizationCode_quiet svc grants .postgres crypto _ _ _ _ _
        _ _ _ _ _).map
  | validateAccessToken token =>
      exact permitted_quiet (validateAccessToken_quiet svc grants .postgres crypto _).map
  | revokeAccessToken token revokedBy =>
      exact permitted_quiet (revokeAccessToken_quiet .postgres _ _).map
  | revokeRefreshToken token => exact permitted_quiet (revokeRefreshToken_quiet .postgres _).map
  | purgeExpired => exact absurd rfl noPurge

end Calls

/-! ### Runs -/

theorem inv_start (db : Db) : Inv family (World.start db.withoutTokens : StoreWorld ι) := by
  constructor <;> simp [World.start, Db.withoutTokens]

/-- **The invariant after every run**. -/
theorem inv_runCalls [DecidableEq ι] (svc : TokenService) (grants : GrantBackend)
    (crypto : CryptoProvider) {calls : ι → Call} (noPurge : ∀ i, calls i ≠ .purgeExpired) (db : Db)
    (sched : List ι) :
    Inv family
      (runCalls env (svc.over grants .postgres crypto) calls db.withoutTokens sched).store :=
  Pool.run_only (inv_start db) (fun i => call_permitted svc crypto grants (noPurge i))
    (fun _ _ _ permitted inv => inv.step permitted) sched

/-- A completed revocation without a later save has ended the family. -/
theorem Inv.dead (inv : Inv family w) (completed : Completed family w.log)
    (clean : NoLateSave family w.log) (now : Int) : FamilyDead w.db now family := by
  obtain ⟨e, mem, isFirst⟩ := completed.exists_revokesRefresh
  refine ⟨fun r stored inFamily => ?_, fun a stored isLinked => ?_⟩
  · exact inv.begun clean e mem isFirst _ r (Table.mem_rows_iff.mp stored) inFamily
  · simp only [Db.linked, List.any_eq_true, Bool.and_eq_true, decide_eq_true_eq] at isLinked
    obtain ⟨r, storedR, inFamily, link⟩ := isLinked
    have found : w.db.accessTokens.find? r.accessToken = some a := by
      rw [link]
      exact Table.mem_rows_iff.mp stored
    simp [validAt, inv.complete clean completed _ r
      (Table.mem_rows_iff.mp storedR) inFamily a found]

/-- Once both statements of a `revokeTokenFamily` have been executed, nothing of the
family is usable in that state or in any later one, in every run in which no pair
of the family is saved after the first of them. -/
theorem revokeTokenFamily_final [DecidableEq ι] (env : Env) (svc : TokenService)
    (grants : GrantBackend) (crypto : CryptoProvider) (calls : ι → Call)
    (noPurge : ∀ i, calls i ≠ .purgeExpired) (db : Db) (sched later : List ι) (family : String)
    (now : Int) :
    let run := runCalls env (svc.over grants .postgres crypto) calls db.withoutTokens
    Completed family (run sched).store.log → NoLateSave family (run (sched ++ later)).store.log →
      FamilyDead (run (sched ++ later)).store.db now family := by
  intro run completed clean
  have grown : ∃ events, (run (sched ++ later)).store.log = events ++ (run sched).store.log := by
    simp only [run, runCalls, Pool.run_append]
    exact World.run_log _ _ later
  obtain ⟨events, log⟩ := grown
  have inv : Inv family (run (sched ++ later)).store :=
    inv_runCalls svc grants crypto noPurge db (sched ++ later)
  exact inv.dead (log ▸ completed.append events) clean now

/-- Two clients present the same refresh token; call `2` wins the compare-and-set. -/
def reuseCalls : Fin 4 → Call
  | 0 => .generateAuthorizationCode "app" "alice" "openid" "" "" "" "" 0 "" none
  | 1 => .exchangeCodeForToken (Sample.drawn 0) "app" "" "" ""
  | 2 => .refreshAccessToken (Sample.drawn 7) "app"
  | 3 => .refreshAccessToken (Sample.drawn 7) "app"

/-- The same calls on Postgres, in the order of a schedule. -/
def reuseRun : List (Fin 4) → Pool StoreSig (Fin 4) Answer (StoreWorld (Fin 4)) :=
  runCalls (Sample.envAt 1000) (Sample.service.over .memory .postgres Sample.crypto) reuseCalls
    Sample.db.withoutTokens

/-- The loser revokes the whole family while the winner has yet to save its pair. -/
theorem revokeTokenFamily_overtaken :
    Completed (Sample.drawn 8)
        (reuseRun [0, 0, 0, 1, 1, 1, 1, 1, 1, 1, 2, 3, 3, 3, 3]).store.log ∧
      ¬ FamilyDead (reuseRun ([0, 0, 0, 1, 1, 1, 1, 1, 1, 1, 2, 3, 3, 3, 3] ++
        [2, 2, 2, 2])).store.db 1000 (Sample.drawn 8) := by
  decide

/-- With the rotation finished first, the replay ends the family for good. -/
theorem revokeTokenFamily_final_replay :
    FamilyDead (reuseRun ([0, 0, 0, 1, 1, 1, 1, 1, 1, 1, 2, 2, 2, 2, 2, 3, 3, 3, 3] ++ [])).store.db
      1000 (Sample.drawn 8) :=
  revokeTokenFamily_final (Sample.envAt 1000) Sample.service .memory Sample.crypto reuseCalls
    (by decide) Sample.db _ [] (Sample.drawn 8) 1000 (by decide) (by decide)

end Postgres

end Fulla.Reuse
