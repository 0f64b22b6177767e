import Fulla.Conc.History
import Fulla.Protocol.GrantEnd
import Fulla.Web.RefreshStages

/-!
# Refresh families across the issuing paths

Reuse of a rotated refresh token is recognised by its family, which survives the store and
every rotation; the social login issues tokens without one.

The requests are handled one at a time over the Postgres token store.  `Chain` is what has
become of one issued token, and `reuse_revokes_chain_iff` says when the reuse of a token of
the chain revokes it.
-/

namespace Fulla.RefreshFamilies

open Conc

/-! ## What the store holds afterwards -/

/-- The token has been consumed, and is of this family. -/
def Spent (db : Db) (token familyId : String) : Prop :=
  ∃ r, db.refreshTokens.find? token = some r ∧ r.revoked = true ∧ r.familyId = familyId

/-- The token is stored, whatever has happened to it since. -/
def Held (db : Db) (r : OAuth2RefreshToken) : Prop :=
  ∃ r', db.refreshTokens.find? r.token = some r' ∧ r'.identity = r.identity

/-- What is known at a stage. -/
def Stage.Facts (roots : String → Prop) (db : Db) : Stage → Prop
  | .idle => True
  | .consumed token familyId => Spent db token familyId
  | .issued r => roots r.familyId ∧ Held db r
  | .rotated token r => Spent db token r.familyId ∧ Held db r

section Store

variable {db db' : Db} {roots : String → Prop} {r : OAuth2RefreshToken}

theorem Spent.keep {token familyId : String} (spent : Spent db token familyId)
    (keeps : db.KeepsRefresh db') : Spent db' token familyId := by
  obtain ⟨r, found, revoked, family⟩ := spent
  obtain ⟨r', found', aged⟩ := keeps _ r found
  refine ⟨r', found', aged.revoked revoked, ?_⟩
  rw [OAuth2RefreshToken.familyId_of_identity aged.identity, family]

theorem Held.keep (held : Held db r) (keeps : db.KeepsRefresh db') : Held db' r := by
  obtain ⟨r₁, found, same⟩ := held
  obtain ⟨r₂, found', aged⟩ := keeps _ r₁ found
  exact ⟨r₂, found', aged.identity.trans same⟩

theorem Stage.Facts.keep {g : Stage} (facts : g.Facts roots db) (keeps : db.KeepsRefresh db') :
    g.Facts roots db' := by
  cases g with
  | idle => trivial
  | consumed token familyId => exact Spent.keep facts keeps
  | issued r => exact ⟨facts.1, Held.keep facts.2 keeps⟩
  | rotated token r => exact ⟨Spent.keep facts.1 keeps, Held.keep facts.2 keeps⟩

/-- A pair that Postgres has taken is new, and nothing else has changed. -/
theorem insertTokenPair_keeps {m : Moment} {a : OAuth2AccessToken}
    (done : SqlOp.exec m (.insertTokenPair a r) db = (true, db')) :
    db.KeepsRefresh db' ∧ Held db' r := by
  by_cases fault : m.fault = true
  · rw [SqlOp.exec_of_fault fault] at done
    cases congrArg Prod.fst done
  rw [SqlOp.exec_of_ok fault] at done
  change Sql.insertTokenPair m a r db = (true, db') at done
  unfold Sql.insertTokenPair at done
  split at done
  · split at done
    · next accessTokens refreshTokens _ insertRefresh =>
        cases done
        obtain ⟨absent, rfl⟩ := Table.insertNew_eq_some.mp insertRefresh
        constructor
        · intro k r₀ found
          refine ⟨r₀, ?_, .refl⟩
          have other : k ≠ r.token := by
            rintro rfl
            cases absent.symm.trans found
          exact (Table.find?_assign _ _ _).trans ((if_neg other).trans found)
        · exact ⟨Sql.refreshRow r, (Table.find?_assign _ _ _).trans (if_pos rfl), rfl⟩
    · cases congrArg Prod.fst done
  · cases congrArg Prod.fst done

theorem redis_refreshTokens (m : Moment) (o : RedisOp) (db : Db) :
    (o.exec m db).2.refreshTokens = db.refreshTokens := by
  by_cases fault : m.fault = true
  · rw [RedisOp.exec_of_fault fault]
  rw [RedisOp.exec_of_ok fault]
  cases o with
  | setex key ttl value =>
      simp only [RedisOp.effect, Redis.setex]
      split <;> rfl
  | get key => rfl
  | consumeScript key uri =>
      simp only [RedisOp.effect, Redis.consumeScript]
      split
      · rfl
      · split
        · rfl
        · split <;> rfl

variable (clients : ClientRepository) (m : TokenMoment) (s : TokenDb)

theorem harmless_keeps {o : TokenSig.Op} (harmless : Harmless o) :
    s.db.KeepsRefresh (execToken clients .postgres m o s).2.db := by
  cases o with
  | inl o =>
      cases o with
      | env o => exact .of_eq rfl
      | mem o => exact .of_eq (harmless _ _)
      | redis o => exact .of_eq (redis_refreshTokens _ o _)
      | sql o =>
          refine SqlOp.keepsRefresh (o := o) _ _ ?_ ?_
          · cases o <;> first | rfl | exact harmless.elim
          · rintro now rfl
            exact harmless
  | inr o =>
      cases o with
      | saveAccessToken a =>
          refine .of_eq ?_
          simp only [execToken, TokenBackend.saveAccessToken]
          split
          · split <;> rfl
          · rfl
      | _ => exact .of_eq rfl

/-- An operation that fits keeps every refresh token, and leaves what its stage says. -/
theorem fits_keeps {g : Stage} {o : TokenSig.Op} (facts : g.Facts roots s.db)
    (fits : Fits roots g o) :
    s.db.KeepsRefresh (execToken clients .postgres m o s).2.db ∧
      (g.next o (execToken clients .postgres m o s).1).Facts roots
        (execToken clients .postgres m o s).2.db := by
  have store (a : OAuth2AccessToken) (r : OAuth2RefreshToken)
      (fail : g.next (.inl (.sql (.insertTokenPair a r))) false = g)
      (ok : ∀ db', s.db.KeepsRefresh db' → Held db' r →
        (g.next (.inl (.sql (.insertTokenPair a r))) true).Facts roots db') :
      s.db.KeepsRefresh
          (execToken clients .postgres m (.inl (.sql (.insertTokenPair a r))) s).2.db ∧
        (g.next (.inl (.sql (.insertTokenPair a r)))
            (execToken clients .postgres m (.inl (.sql (.insertTokenPair a r))) s).1).Facts roots
          (execToken clients .postgres m (.inl (.sql (.insertTokenPair a r))) s).2.db := by
    let m' : Moment := { m.store with validateClient := clients.validateClient }
    change s.db.KeepsRefresh (SqlOp.exec m' (.insertTokenPair a r) s.db).2 ∧
      (g.next (.inl (.sql (.insertTokenPair a r)))
        (SqlOp.exec m' (.insertTokenPair a r) s.db).1).Facts roots
          (SqlOp.exec m' (.insertTokenPair a r) s.db).2
    rcases SqlOp.insertTokenPair_cases m' a r s.db with same | ⟨db', done, -, -⟩
    · rw [same]
      exact ⟨.of_eq rfl, (congrArg (Stage.Facts roots s.db) fail).mpr facts⟩
    · obtain ⟨keeps, held⟩ := insertTokenPair_keeps done
      rw [done]
      exact ⟨keeps, ok db' keeps held⟩
  cases fits with
  | harmless harmless =>
      have keeps := harmless_keeps clients m s harmless
      rw [next_harmless harmless]
      exact ⟨keeps, facts.keep keeps⟩
  | consume token =>
      have cas := SqlOp.casRevokeRefresh_cas
        { m.store with validateClient := clients.validateClient } token s.db
      rcases cas with ⟨none_, same⟩ | ⟨r, r', found, -, some_, identity, after⟩
      · refine ⟨.of_eq (congrArg Db.refreshTokens same), ?_⟩
        rw [show (execToken clients .postgres m (.inl (.sql (.casRevokeRefresh token))) s).1 = none
          from none_]
        trivial
      · have keeps : s.db.KeepsRefresh
            (execToken clients .postgres m (.inl (.sql (.casRevokeRefresh token))) s).2.db := by
          rw [show
            (execToken clients .postgres m (.inl (.sql (.casRevokeRefresh token))) s).2.db = _
            from after]
          exact .revokeRefreshWhere _ _
        refine ⟨keeps, ?_⟩
        rw [show (execToken clients .postgres m (.inl (.sql (.casRevokeRefresh token))) s).1 =
          some r' from some_]
        show Spent _ token r'.familyId
        rw [show (execToken clients .postgres m (.inl (.sql (.casRevokeRefresh token))) s).2.db = _
          from after]
        refine ⟨{ r with revoked := true }, ?_, rfl,
          (OAuth2RefreshToken.familyId_of_identity identity).symm⟩
        rw [Db.revokeRefreshWhere, Table.find?_updateWhere, found, Option.map_some,
          if_pos (by simpa using Table.find?_key found)]
  | root a family => exact store _ _ rfl fun db' _ held => ⟨family, held⟩
  | replace a family =>
      refine store _ _ rfl fun db' keeps held => ⟨?_, held⟩
      rw [family]
      exact Spent.keep facts keeps

end Store

/-! ## Histories -/

/-- The token endpoint over Postgres, with its client and grant repositories. -/
structure Server where
  ep : TokenEndpoint
  clients : ClientRepository
  grants : GrantBackend

/-- A request and the moments of its steps. -/
abbrev Visit := (Nat → TokenMoment) × RefreshRequest

namespace Server

variable (server : Server)

/-- The run of one request. -/
def serve (s : TokenDb) (v : Visit) : World TokenSig Unit TokenDb :=
  ((v.2.prog (server.ep.onStores server.grants .postgres)).run
    (World.handler (fun n => execToken server.clients .postgres (v.1 n)) ()) (World.start s)).2

/-- What a request has done to the refresh tokens, read off its log. -/
def stageOf (e : TokenDb × Visit) : Stage :=
  track Stage.next .idle () (server.serve e.1 e.2).log

/-- The requests of a run, newest first, each with the state it found, and the last state. -/
def run (s : TokenDb) (visits : List Visit) : List (TokenDb × Visit) × TokenDb :=
  History.run (fun s v => (server.serve s v).db) s visits

theorem serve_facts (s : TokenDb) (v : Visit) :
    s.db.KeepsRefresh (server.serve s v).db.db ∧
      (server.stageOf (s, v)).Facts v.2.roots (server.serve s v).db.db := by
  have follows := prog_follows server.ep server.grants v.2
  refine (Prog.Follows.run (J := fun g s' => s.db.KeepsRefresh s'.db ∧ g.Facts v.2.roots s'.db)
    (w := (World.start s : World TokenSig Unit TokenDb)) follows ?_ ⟨.of_eq rfl, trivial⟩).1
  rintro g n o s' ⟨keeps, facts⟩ fits
  obtain ⟨keeps', facts'⟩ := fits_keeps server.clients (v.1 n) s' facts fits
  exact ⟨keeps.trans keeps', facts'⟩

/-- What every request of a run has done still shows in the store. -/
theorem run_facts (s : TokenDb) (visits : List Visit) :
    ∀ e ∈ (server.run s visits).1,
      (server.stageOf e).Facts e.2.2.roots (server.run s visits).2.db := by
  have every : History.Each (fun _ _ => True) (server.run s visits).1 :=
    History.each_of_forall fun _ _ => trivial
  refine History.run_invariant
    (I := fun h s => ∀ e ∈ h, (server.stageOf e).Facts e.2.2.roots s.db) ?_ ?_ visits every
  · intro e mem
    cases mem
  · intro h s v facts _ e mem
    obtain ⟨keeps, own⟩ := server.serve_facts s v
    rcases List.mem_cons.mp mem with rfl | old
    · exact own
    · exact (facts e old).keep keeps

/-- The refresh tokens that the token `root` has led to. -/
inductive Chain (h : List (TokenDb × Visit)) (root : OAuth2RefreshToken) :
    OAuth2RefreshToken → Prop
  | root {e : TokenDb × Visit} (mem : e ∈ h) (issued : server.stageOf e = .issued root) :
      Chain h root root
  | rotated {e : TokenDb × Visit} {r r' : OAuth2RefreshToken} (chain : Chain h root r)
      (mem : e ∈ h) (rotated : server.stageOf e = .rotated r.token r') : Chain h root r'

/-- The token was replaced by another. -/
def Rotated (h : List (TokenDb × Visit)) (r : OAuth2RefreshToken) : Prop :=
  ∃ e ∈ h, ∃ r', server.stageOf e = .rotated r.token r'

variable {server} {s : TokenDb} {visits : List Visit} {root r : OAuth2RefreshToken}

/-- Every token of a chain is stored, and of the family of its root. -/
theorem Chain.held (chain : server.Chain (server.run s visits).1 root r) :
    Held (server.run s visits).2.db r ∧ r.familyId = root.familyId := by
  induction chain with
  | root mem issued =>
      have facts := server.run_facts s visits _ mem
      rw [issued] at facts
      exact ⟨facts.2, rfl⟩
  | rotated chain mem rotated ih =>
      have facts := server.run_facts s visits _ mem
      rw [rotated] at facts
      obtain ⟨⟨row, found, -, family⟩, held⟩ := facts
      obtain ⟨⟨row', found', same⟩, inherited⟩ := ih
      -- the consumed row is the row of the token before in the chain
      rw [found] at found'
      cases found'
      refine ⟨held, ?_⟩
      rw [← family, OAuth2RefreshToken.familyId_of_identity same, inherited]

end Server

/-! ## The reuse of a rotated token -/

/-- The step of a refresh at which a recognised family begins to be revoked: after the
compare-and-set, the look-up and the audit record. -/
def updateStep (svc : TokenService) : Nat :=
  if svc.auditSink then 3 else 2

/-- The data after the two `UPDATE`s of a family, made from step `n` on; the second follows
only on the success of the first. -/
def revokedFamily (env : Env) (n : Nat) (familyId : String) (db : Db) : Db :=
  if (env n).fault then db
  else
    let db := (Sql.revokeFamilyRefresh familyId db).2
    if (env (n + 1)).fault then db else (Sql.revokeFamilyAccess familyId db).2

section Reuse

variable {ι : Type} {env : Env} {i : ι} (svc : TokenService) (crypto : CryptoProvider)
  (grants : GrantBackend)

theorem revokeTokenFamily_sat (w : StoreWorld ι) {familyId : String} (family : familyId ≠ "") :
    Prog.Sat (World.handler (exec env) i) w (PostgresTokenRepository.revokeTokenFamily familyId)
      fun _ w' => w'.db = revokedFamily env w.tick familyId w.db := by
  rw [PostgresTokenRepository.revokeTokenFamily, if_neg family]
  refine (GrantEnd.sql_sat (.revokeFamilyRefresh familyId) w).bind ?_
  intro ok w₁ answered
  rcases answered with ⟨rfl, db, tick⟩
  unfold revokedFamily
  cases fault : (env w.tick).fault with
  | true =>
      rw [SqlOp.exec_of_fault fault] at db ⊢
      exact db
  | false =>
      rw [SqlOp.exec_of_ok (by simp [fault])] at db ⊢
      refine (GrantEnd.sql_sat (.revokeFamilyAccess familyId) w₁).bind ?_
      intro _ w₂ answered
      rcases answered with ⟨-, db', -⟩
      rw [db, tick] at db'
      refine (show w₂.db = _ from db').trans ?_
      cases fault' : (env (w.tick + 1)).fault with
      | true =>
          rw [SqlOp.exec_of_fault fault']
          rfl
      | false =>
          rw [SqlOp.exec_of_ok (by simp [fault'])]
          rfl

theorem getRefreshToken_sat (w : StoreWorld ι) (token : String) :
    Prog.Sat (World.handler (exec env) i) w (PostgresTokenRepository.getRefreshToken token)
      fun row w' => row = (if (env w.tick).fault then none
          else (w.db.refreshTokens.find? token).map Sql.refreshRow) ∧
        RefreshFailure.Elapsed 1 w w' := by
  refine (GrantEnd.sql_sat (.selectRefresh token) w).bind ?_
  intro row w₁ answered
  rcases answered with ⟨rfl, db, tick⟩
  cases fault : (env w.tick).fault with
  | true =>
      rw [SqlOp.exec_of_fault fault] at db ⊢
      exact ⟨rfl, db, tick⟩
  | false =>
      rw [SqlOp.exec_of_ok (by simp [fault])] at db ⊢
      exact ⟨rfl, db, tick⟩

/-- What the refusal of a consumed token leaves. -/
theorem refuseRefresh_sat (w : StoreWorld ι) {hashedRt : String} {row : OAuth2RefreshToken}
    (found : w.db.refreshTokens.find? hashedRt = some row) (revoked : row.revoked = true) :
    Prog.Sat (World.handler (exec env) i) w (svc.refuseRefresh postgresTokenRepository hashedRt)
      fun _ w' => w'.db = if (env w.tick).fault = false ∧ row.familyId ≠ "" then
        revokedFamily env (w.tick + if svc.auditSink then 2 else 1) row.familyId w.db
      else w.db := by
  unfold TokenService.refuseRefresh
  refine (getRefreshToken_sat w _).bind ?_
  intro looked w₁ answered
  rcases answered with ⟨rfl, elapsed⟩
  rw [found]
  by_cases seen : (env w.tick).fault = false ∧ row.familyId ≠ ""
  · have known : (Sql.refreshRow row).revoked = true ∧ (Sql.refreshRow row).familyId ≠ "" :=
      ⟨revoked, seen.2⟩
    rw [if_pos seen, if_neg (by simp [seen.1])]
    simp only [Option.map_some]
    rw [if_pos known]
    have audited : Prog.Sat (World.handler (exec env) i) w₁
        (svc.audit "refresh_token_reuse_detected" "failure" (Sql.refreshRow row).userId
          "token_family" (Sql.refreshRow row).familyId)
        fun _ w₂ => w₂.db = w.db ∧ w₂.tick = w.tick + if svc.auditSink then 2 else 1 := by
      unfold TokenService.audit
      split
      · refine (RefreshFailure.ask_sat _ w₁).mono ?_
        intro _ w₂ answered
        exact ⟨answered.2.db.trans elapsed.db, by rw [answered.2.tick, elapsed.tick]⟩
      · exact ⟨elapsed.db, elapsed.tick⟩
    refine audited.bind ?_
    intro _ w₂ after
    rcases after with ⟨db, tick⟩
    refine (revokeTokenFamily_sat w₂ seen.2).bind ?_
    intro _ w₃ ended
    refine (show w₃.db = _ from ended).trans ?_
    rw [db, tick]
  · rw [if_neg seen]
    cases fault : (env w.tick).fault with
    | true => exact elapsed.db
    | false =>
        have unknown : ¬ ((Sql.refreshRow row).revoked = true ∧
          (Sql.refreshRow row).familyId ≠ "") := fun both => seen ⟨fault, both.2⟩
        simp only [Bool.false_eq_true, if_false, Option.map_some]
        rw [if_neg unknown]
        exact elapsed.db

/-- What the presentation of a consumed token leaves. -/
theorem reuse_sat (w : StoreWorld ι) {raw : String} (clientId : String) {row : OAuth2RefreshToken}
    (found : w.db.refreshTokens.find? (hashToken crypto raw) = some row)
    (revoked : row.revoked = true) :
    Prog.Sat (World.handler (exec env) i) w
      ((svc.over grants .postgres crypto).refreshAccessToken raw clientId) fun _ w' =>
      w'.db = if (env (w.tick + 1)).fault = false ∧ row.familyId ≠ "" then
        revokedFamily env (w.tick + updateStep svc) row.familyId w.db else w.db := by
  refine (GrantEnd.sql_sat (.casRevokeRefresh (hashToken crypto raw)) w).bind ?_
  intro answer w₁ answered
  rcases answered with ⟨rfl, db, tick⟩
  rcases SqlOp.casRevokeRefresh_cas (env w.tick) (hashToken crypto raw) w.db with
    ⟨none_, same⟩ | ⟨r, r', found', unrevoked, -⟩
  · rw [none_]
    rw [same] at db
    have left : Prog.Sat (World.handler (exec env) i) w₁ _ _ :=
      refuseRefresh_sat (svc.over grants .postgres crypto) w₁ (db ▸ found) revoked
    have step : w.tick + 1 + (if (svc.over grants .postgres crypto).auditSink then 2 else 1) =
        w.tick + updateStep svc := by
      have sink : (svc.over grants .postgres crypto).auditSink = svc.auditSink := rfl
      rw [sink, updateStep]
      split_ifs <;> omega
    rw [db, tick, step] at left
    exact left
  · rw [found] at found'
    cases found'
    cases revoked.symm.trans unrevoked

end Reuse

namespace Server

variable (server : Server)

/-- No refresh token of the chain is live. -/
def RefreshRevoked (h : List (TokenDb × Visit)) (root : OAuth2RefreshToken) (db : Db) : Prop :=
  ∀ r, server.Chain h root r → ∀ row, db.refreshTokens.find? r.token = some row →
    row.revoked = true

/-- No access token linked to the chain is live. -/
def AccessRevoked (h : List (TokenDb × Visit)) (root : OAuth2RefreshToken) (db : Db) : Prop :=
  ∀ r, server.Chain h root r → ∀ a, db.accessTokens.find? r.accessToken = some a →
    a.revoked = true

/-- The data after a refresh with `raw`. -/
def reuse (env : Env) (raw clientId : String) (db : Db) : Db :=
  (((server.ep.site.tokenService.over server.grants .postgres server.ep.crypto).refreshAccessToken
    raw clientId).run (World.handler (exec env) ()) (World.start db)).2.db

/-- The root was issued with a family, and neither the look-up nor the first `UPDATE` of the
refresh is refused. -/
structure Recognised (env : Env) (root : OAuth2RefreshToken) : Prop where
  family : root.familyId ≠ ""
  lookup : (env 1).fault = false
  update : (env (updateStep server.ep.site.tokenService)).fault = false

variable {server} {s : TokenDb} {visits : List Visit} {root r : OAuth2RefreshToken}

theorem reuse_eq {env : Env} (chain : server.Chain (server.run s visits).1 root r)
    (rotated : server.Rotated (server.run s visits).1 r) {raw clientId : String}
    (presented : hashToken server.ep.crypto raw = r.token) :
    server.reuse env raw clientId (server.run s visits).2.db =
      if (env 1).fault = false ∧ root.familyId ≠ "" then
        revokedFamily env (updateStep server.ep.site.tokenService) root.familyId
          (server.run s visits).2.db
      else (server.run s visits).2.db := by
  obtain ⟨⟨row, found, same⟩, family⟩ := chain.held
  obtain ⟨e, mem, r', stage⟩ := rotated
  have facts := server.run_facts s visits e mem
  rw [stage] at facts
  obtain ⟨⟨spent, found', revoked, -⟩, -⟩ := facts
  rw [found] at found'
  cases found'
  rw [← presented] at found
  have left : Prog.Sat (World.handler (exec env) ()) _ _ _ :=
    reuse_sat server.ep.site.tokenService server.ep.crypto server.grants
      (World.start (server.run s visits).2.db) clientId found revoked
  rw [OAuth2RefreshToken.familyId_of_identity same, family] at left
  rw [show (World.start (server.run s visits).2.db : StoreWorld Unit).tick = 0 from rfl,
    Nat.zero_add, Nat.zero_add] at left
  exact left

/-- The `UPDATE` of a family revokes every refresh token of the chain. -/
theorem refreshRevoked_of_update (chain : ∀ r, server.Chain (server.run s visits).1 root r →
      Held (server.run s visits).2.db r ∧ r.familyId = root.familyId) {db : Db}
    (tokens : db.refreshTokens =
      ((server.run s visits).2.db.revokeRefreshWhere fun r =>
        r.familyId = root.familyId).refreshTokens) :
    server.RefreshRevoked (server.run s visits).1 root db := by
  intro r descends row found
  obtain ⟨⟨row₀, found₀, same⟩, family⟩ := chain r descends
  rw [tokens] at found
  obtain ⟨row₁, found₁, -, revoked⟩ := Reuse.find?_revokeRefreshWhere found
  rw [found₀] at found₁
  cases found₁
  refine revoked ?_
  rw [OAuth2RefreshToken.familyId_of_identity same, family]
  exact decide_eq_true rfl

/-- The second `UPDATE` revokes every access token that is linked to the chain. -/
theorem accessRevoked_of_update (chain : ∀ r, server.Chain (server.run s visits).1 root r →
      Held (server.run s visits).2.db r ∧ r.familyId = root.familyId) :
    server.AccessRevoked (server.run s visits).1 root (Sql.revokeFamilyAccess root.familyId
      (Sql.revokeFamilyRefresh root.familyId (server.run s visits).2.db).2).2 := by
  intro r descends a found
  obtain ⟨⟨row, stored, same⟩, family⟩ := chain r descends
  obtain ⟨a₀, found₀, revoked⟩ := Reuse.find?_revokeAccessWhere found
  refine revoked (List.any_eq_true.mpr ⟨{ row with revoked := true }, ?_, ?_⟩)
  · -- the row of the token is in the sub-select
    refine Table.mem_rows_iff.mpr ?_
    have key := Table.find?_key stored
    have selected : row.familyId = root.familyId := by
      rw [OAuth2RefreshToken.familyId_of_identity same, family]
    change (Db.revokeRefreshWhere _ _).refreshTokens.find? row.token = _
    rw [Db.revokeRefreshWhere, Table.find?_updateWhere, key, stored, Option.map_some,
      if_pos (by simp [selected]), key]
  · have token : a₀.token = r.accessToken := Table.find?_key found₀
    rw [token]
    simp [OAuth2RefreshToken.familyId_of_identity same, family,
      OAuth2RefreshToken.accessToken_of_identity same]

/-- Every token is issued in a family, but by the social login, which issues none, and perhaps
by the device grant.  The reuse of a rotated token revokes every refresh token of its chain and
every access token linked to it if and only if it is recognised and no statement is refused, or
what it does not revoke is revoked already. -/
theorem reuse_revokes_chain_iff (server : Server) (s : TokenDb) (visits : List Visit) :
    (∀ e ∈ (server.run s visits).1, ∀ r, server.stageOf e = .issued r → e.2.2.roots r.familyId) ∧
    ∀ (env : Env) (root r : OAuth2RefreshToken), server.Chain (server.run s visits).1 root r →
      server.Rotated (server.run s visits).1 r → ∀ raw clientId,
      hashToken server.ep.crypto raw = r.token →
      (server.RefreshRevoked (server.run s visits).1 root
            (server.reuse env raw clientId (server.run s visits).2.db) ∧
          server.AccessRevoked (server.run s visits).1 root
            (server.reuse env raw clientId (server.run s visits).2.db) ↔
        (server.Recognised env root ∨
            server.RefreshRevoked (server.run s visits).1 root (server.run s visits).2.db) ∧
          (server.Recognised env root ∧
              (env (updateStep server.ep.site.tokenService + 1)).fault = false ∨
            server.AccessRevoked (server.run s visits).1 root (server.run s visits).2.db)) := by
  constructor
  · intro e mem r issued
    have facts := server.run_facts s visits e mem
    rw [issued] at facts
    exact facts.1
  intro env root r chain rotated raw clientId presented
  have held : ∀ r, server.Chain (server.run s visits).1 root r →
      Held (server.run s visits).2.db r ∧ r.familyId = root.familyId := fun _ chain => chain.held
  rw [reuse_eq chain rotated presented]
  by_cases recognised : server.Recognised env root
  · have update : ¬ (env (updateStep server.ep.site.tokenService)).fault = true := by
      simp [recognised.update]
    rw [if_pos ⟨recognised.lookup, recognised.family⟩, revokedFamily, if_neg update]
    simp only [recognised, true_or, true_and]
    by_cases second : (env (updateStep server.ep.site.tokenService + 1)).fault = true
    · rw [if_pos second]
      simp only [second, Bool.true_eq_false, false_or]
      exact and_iff_right (refreshRevoked_of_update held rfl)
    · rw [if_neg second]
      refine iff_of_true ⟨refreshRevoked_of_update held rfl, accessRevoked_of_update held⟩ ?_
      exact .inl (by simpa using second)
  · have unchanged : (if (env 1).fault = false ∧ root.familyId ≠ "" then
        revokedFamily env (updateStep server.ep.site.tokenService) root.familyId
          (server.run s visits).2.db else (server.run s visits).2.db) =
        (server.run s visits).2.db := by
      split
      · next seen =>
          rw [revokedFamily, if_pos]
          by_contra accepted
          exact recognised ⟨seen.2, seen.1, by simpa using accepted⟩
      · rfl
    rw [unchanged]
    simp only [recognised, false_or, false_and]

end Server

/-! ## A code exchange and a social login -/

/-- A server with Postgres and one kind of client. -/
def sampleServer : Server where
  ep := Sample.endpoint .postgres
  clients :=
    { getClient := fun id => some { clientId := id, clientType := .public_ }
      validateClient := fun _ _ => true }
  grants := .postgres

/-- One code is stored. -/
def sampleStart : TokenDb where
  db :=
    { clientIds := ["app", "fulla-portal"]
      authCodes := Table.empty.assign
        { code := "CODE", clientId := "app", userId := "alice", scope := "openid"
          redirectUri := "", codeChallenge := "", codeChallengeMethod := "", nonce := ""
          expiresAt := 2000 } }

/-- A request in second 1000. -/
def sampleVisit (request : RefreshRequest) : Visit :=
  (fun n => { store := Sample.envAt 1000 n }, request)

/-- The two tokens of a chain: issued, and after its rotation. -/
def sampleToken (token accessToken clientId userId scope familyId : String) : OAuth2RefreshToken :=
  { token := token, accessToken := accessToken, clientId := clientId, userId := userId
    scope := scope, expiresAt := 87400, familyId := familyId }

namespace Server

/-- A token that was issued and rotated once, read off the stages of a run. -/
theorem chain_of_stages {server : Server} {h : List (TokenDb × Visit)}
    {root r : OAuth2RefreshToken}
    (stages : h.map server.stageOf = [.rotated root.token r, .issued root]) :
    server.Chain h root root ∧ server.Chain h root r ∧ server.Rotated h root := by
  have happened (g : Stage) (mem : g ∈ [Stage.rotated root.token r, .issued root]) :
      ∃ e ∈ h, server.stageOf e = g := by
    rw [← stages] at mem
    exact List.mem_map.mp mem
  obtain ⟨e, mem, issued⟩ := happened (.issued root) (by simp)
  obtain ⟨e', mem', rotated⟩ := happened (.rotated root.token r) (by simp)
  exact ⟨.root mem issued, .rotated (.root mem issued) mem' rotated, e', mem', r, rotated⟩

/-- The token of a code exchange is rotated and presented again: its successor is revoked. -/
theorem reuse_revokes_chain_exchanged :
    let visits := [sampleVisit (.completeMfa "CODE" "app" "" ""),
      sampleVisit (.refresh "E" "app")]
    let root := sampleToken "E" "D" "app" "alice" "openid" "F"
    sampleServer.RefreshRevoked (sampleServer.run sampleStart visits).1 root
      (sampleServer.reuse (Sample.envAt 1001) "E" "app"
        (sampleServer.run sampleStart visits).2.db) := by
  intro visits root
  have stages : (sampleServer.run sampleStart visits).1.map sampleServer.stageOf =
      [.rotated root.token (sampleToken "D" "C" "app" "alice" "openid" "F"), .issued root] := by
    decide
  obtain ⟨chain, -, rotated⟩ := chain_of_stages stages
  have said := (reuse_revokes_chain_iff sampleServer sampleStart visits).2 (Sample.envAt 1001)
    root root chain rotated "E" "app" (by decide)
  exact (said.mpr ⟨.inl ⟨by decide, rfl, rfl⟩, .inl ⟨⟨by decide, rfl, rfl⟩, rfl⟩⟩).1

/-- The token of a social login is rotated and presented again: its successor stays live. -/
theorem reuse_of_social_token :
    ∃ (server : Server) (s : TokenDb) (visits : List Visit) (env : Env)
      (root r row : OAuth2RefreshToken) (raw clientId : String),
      server.Chain (server.run s visits).1 root root ∧
      server.Rotated (server.run s visits).1 root ∧ hashToken server.ep.crypto raw = root.token ∧
      (∀ n, (env n).fault = false) ∧ server.Chain (server.run s visits).1 root r ∧
      (server.reuse env raw clientId (server.run s visits).2.db).refreshTokens.find? r.token =
        some row ∧ row.revoked = false := by
  let visits := [sampleVisit (.social none "github" "sub-7"),
    sampleVisit (.refresh "C" "fulla-portal")]
  let root := sampleToken "C" "B" "fulla-portal" "sub-7" "openid profile email" ""
  let next := sampleToken "D" "C" "fulla-portal" "sub-7" "openid profile email" ""
  have stages : (sampleServer.run sampleStart visits).1.map sampleServer.stageOf =
      [.rotated root.token next, .issued root] := by decide
  obtain ⟨chain, chain', rotated⟩ := chain_of_stages stages
  exact ⟨sampleServer, sampleStart, visits, Sample.envAt 1001, root, next, next, "C",
    "fulla-portal", chain, rotated, by decide, fun _ => rfl, chain', by decide, rfl⟩

end Server

end Fulla.RefreshFamilies
