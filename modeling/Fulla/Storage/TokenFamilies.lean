import Fulla.Storage.Repository

/-!
# Revoking a token family

A family has its refresh tokens, and the access tokens that these name.  Postgres takes two
statements for them and leaves the empty family alone; the memory repository goes through its
refresh tokens one by one and takes the empty family for the tokens that were saved without one.
-/

namespace Fulla

open Conc

namespace Db

/-- Some refresh token of the family names the access token. -/
def linked (db : Db) (familyId : String) (a : OAuth2AccessToken) : Bool :=
  db.refreshTokens.rows.any fun r => r.familyId = familyId && r.accessToken = a.token

theorem token_revoked_refresh (r : OAuth2RefreshToken) :
    ({ r with revoked := true } : OAuth2RefreshToken).token = r.token :=
  rfl

theorem token_revoked_access (a : OAuth2AccessToken) :
    ({ a with revoked := true } : OAuth2AccessToken).token = a.token :=
  rfl

/-- What is left when the refresh tokens of a family were revoked, and when the access tokens
that they name were. -/
def revokeFamily (db : Db) (refresh access : Bool) (familyId : String) : Db :=
  { db with
    refreshTokens := db.refreshTokens.updateWhere
      (fun r => refresh && decide (r.familyId = familyId)) (fun r => { r with revoked := true })
      token_revoked_refresh
    accessTokens := db.accessTokens.updateWhere (fun a => access && db.linked familyId a)
      (fun a => { a with revoked := true }) token_revoked_access }

/-- The tokens of a family are revoked, and nothing else happens; the empty text is no family. -/
structure RevokesFamily (familyId : String) (db db' : Db) : Prop where
  refresh : ∀ token, db'.refreshTokens.find? token = (db.refreshTokens.find? token).map fun r =>
    if familyId ≠ "" ∧ r.familyId = familyId then { r with revoked := true } else r
  access : ∀ token, db'.accessTokens.find? token = (db.accessTokens.find? token).map fun a =>
    if familyId ≠ "" ∧ db.linked familyId a = true then { a with revoked := true } else a
  rest : db' = { db with refreshTokens := db'.refreshTokens, accessTokens := db'.accessTokens }

/-- No refresh token of the family is left to revoke. -/
def RefreshRevoked (db : Db) (familyId : String) : Prop :=
  ∀ r ∈ db.refreshTokens.rows, r.familyId = familyId → r.revoked = true

/-- No access token of the family is left to revoke. -/
def AccessRevoked (db : Db) (familyId : String) : Prop :=
  ∀ a ∈ db.accessTokens.rows, db.linked familyId a = true → a.revoked = true

end Db

/-! ## The loop of the memory repository -/

namespace MemoryTokenRepository

section Loop

variable {familyId : String} {db : Db}

/-- One of the refresh tokens is of the family and has this name. -/
def turnsRefresh (familyId : String) (rts : List OAuth2RefreshToken) (r : OAuth2RefreshToken) :
    Bool :=
  rts.any fun rt => rt.familyId = familyId && r.token = rt.token

/-- One of the refresh tokens is of the family and names the access token. -/
def turnsAccess (familyId : String) (rts : List OAuth2RefreshToken) (a : OAuth2AccessToken) :
    Bool :=
  rts.any fun rt => rt.familyId = familyId && a.token = rt.accessToken

theorem foldl_revokeTokenFamilyStep (rts : List OAuth2RefreshToken) :
    rts.foldl (revokeTokenFamilyStep familyId) db =
      (db.revokeRefreshWhere (turnsRefresh familyId rts)).revokeAccessWhere
        (turnsAccess familyId rts) := by
  induction rts generalizing db with
  | nil =>
      obtain ⟨codes, access, refresh, redis, clients, orgs⟩ := db
      simp [Db.revokeRefreshWhere, Db.revokeAccessWhere, turnsRefresh, turnsAccess,
        Table.updateWhere, Table.modify]
  | cons rt rts ih =>
      rw [List.foldl_cons, ih]
      unfold revokeTokenFamilyStep
      by_cases own : rt.familyId = familyId
      · have refresh : turnsRefresh familyId (rt :: rts) = fun r =>
            decide (r.token = rt.token) || turnsRefresh familyId rts r := by
          funext r
          simp [turnsRefresh, own]
        have access : turnsAccess familyId (rt :: rts) = fun a =>
            decide (a.token = rt.accessToken) || turnsAccess familyId rts a := by
          funext a
          simp [turnsAccess, own]
        rw [if_pos own, refresh, access]
        simp only [Db.revokeRefreshWhere, Db.revokeAccessWhere]
        rw [Table.updateWhere_updateWhere, Table.updateWhere_updateWhere]
        · exact fun _ => rfl
        · exact fun _ => rfl
        · exact fun _ => rfl
        · exact fun _ => rfl
      · rw [if_neg own]
        have refresh : turnsRefresh familyId (rt :: rts) = turnsRefresh familyId rts := by
          funext r
          simp [turnsRefresh, own]
        have access : turnsAccess familyId (rt :: rts) = turnsAccess familyId rts := by
          funext a
          simp [turnsAccess, own]
        rw [refresh, access]

/-- The name of a refresh token is its own, so the loop takes the family. -/
theorem revokeTokenFamily_eq (familyId : String) (db : Db) :
    (revokeTokenFamily familyId db).2 = db.revokeFamily true true familyId := by
  have refresh : ∀ r ∈ db.refreshTokens.rows, turnsRefresh familyId db.refreshTokens.rows r =
      (true && decide (r.familyId = familyId)) := by
    intro r mem
    rw [Bool.true_and, turnsRefresh, Bool.eq_iff_iff, List.any_eq_true, decide_eq_true_eq]
    constructor
    · rintro ⟨rt, mem', turns⟩
      simp only [Bool.and_eq_true, decide_eq_true_eq] at turns
      have found := Table.mem_rows_iff.mp mem
      rw [turns.2, Table.mem_rows_iff.mp mem'] at found
      cases found
      exact turns.1
    · intro own
      exact ⟨r, mem, by simp [own]⟩
  have access : turnsAccess familyId db.refreshTokens.rows = fun a =>
      true && db.linked familyId a := by
    funext a
    simp only [turnsAccess, Db.linked, Bool.true_and, eq_comm]
  unfold revokeTokenFamily
  rw [foldl_revokeTokenFamilyStep, access]
  simp only [Db.revokeRefreshWhere, Db.revokeAccessWhere, Db.revokeFamily]
  rw [Table.updateWhere_congr refresh]

end Loop

end MemoryTokenRepository

/-! ## What a call does -/

section Calls

variable {ι : Type} {env : Env} {i : ι} {w : StoreWorld ι} {familyId : String}

/-- Each of the two tables is updated as it should be, or holds nothing to update. -/
theorem revokesFamily_iff (db : Db) (refresh access : Bool) :
    db.RevokesFamily familyId (db.revokeFamily refresh access familyId) ↔
      (refresh = decide (familyId ≠ "") ∨ db.RefreshRevoked familyId) ∧
        (access = decide (familyId ≠ "") ∨ db.AccessRevoked familyId) := by
  have refreshes : (∀ r ∈ db.refreshTokens.rows, r.familyId = familyId →
      { r with revoked := true } = r) ↔ db.RefreshRevoked familyId := by
    refine forall₂_congr fun r _ => imp_congr_right fun _ => ?_
    exact ⟨fun same => same ▸ rfl, fun revoked => by rw [← revoked]⟩
  have accesses : (∀ a ∈ db.accessTokens.rows, db.linked familyId a = true →
      { a with revoked := true } = a) ↔ db.AccessRevoked familyId := by
    refine forall₂_congr fun a _ => imp_congr_right fun _ => ?_
    exact ⟨fun same => same ▸ rfl, fun revoked => by rw [← revoked]⟩
  have shouldRefresh := @Table.updateWhere_exact_iff _ _ OAuth2RefreshToken.token _
    db.refreshTokens (fun r => decide (r.familyId = familyId)) (fun r => { r with revoked := true })
    (fun _ => rfl) refresh (decide (familyId ≠ ""))
  have shouldAccess := @Table.updateWhere_exact_iff _ _ OAuth2AccessToken.token _
    db.accessTokens (db.linked familyId) (fun a => { a with revoked := true }) (fun _ => rfl)
    access (decide (familyId ≠ ""))
  simp only [Bool.and_eq_true, decide_eq_true_eq] at shouldRefresh shouldAccess
  rw [← refreshes, ← accesses, ← shouldRefresh, ← shouldAccess]
  exact ⟨fun exact_ => ⟨exact_.refresh, exact_.access⟩, fun tables => ⟨tables.1, tables.2, rfl⟩⟩

theorem memory_db (familyId : String) :
    ((memoryTokenRepository.revokeTokenFamily familyId).run (World.handler (exec env) i) w).2.db =
      w.db.revokeFamily true true familyId :=
  MemoryTokenRepository.revokeTokenFamily_eq familyId w.db

theorem revokeFamily_none (db : Db) : db.revokeFamily false false familyId = db := by
  obtain ⟨codes, access, refresh, redis, clients, orgs⟩ := db
  simp [Db.revokeFamily, Table.updateWhere, Table.modify]

/-- The sub-select finds the same access tokens after the refresh tokens are revoked. -/
theorem any_revokeRefreshWhere (db : Db) (sel : OAuth2RefreshToken → Bool)
    (a : OAuth2AccessToken) :
    ((db.revokeRefreshWhere sel).refreshTokens.rows.any fun r =>
      r.familyId = familyId && r.accessToken = a.token) = db.linked familyId a := by
  simp only [Db.revokeRefreshWhere, Table.updateWhere, Table.modify, List.any_map, Db.linked]
  congr 1
  funext r
  simp only [Function.comp_apply]
  split <;> rfl

/-- The second statement is executed only if the first one is. -/
theorem postgres_db (family : familyId ≠ "") :
    ((postgresTokenRepository.revokeTokenFamily familyId).run (World.handler (exec env) i) w).2.db =
      w.db.revokeFamily (!(env w.tick).fault)
        (!(env w.tick).fault && !(env (w.tick + 1)).fault) familyId := by
  have run : ((postgresTokenRepository.revokeTokenFamily familyId).run
      (World.handler (exec env) i) w).2.db =
      if ((SqlOp.revokeFamilyRefresh familyId).exec (env w.tick) w.db).1 = true then
        ((SqlOp.revokeFamilyAccess familyId).exec (env (w.tick + 1))
          ((SqlOp.revokeFamilyRefresh familyId).exec (env w.tick) w.db).2).2
      else ((SqlOp.revokeFamilyRefresh familyId).exec (env w.tick) w.db).2 := by
    change ((PostgresTokenRepository.revokeTokenFamily familyId).run _ w).2.db = _
    unfold PostgresTokenRepository.revokeTokenFamily
    rw [if_neg family, Prog.run_bind]
    cases ok : ((SqlOp.revokeFamilyRefresh familyId).exec (env w.tick) w.db).1 with
    | true =>
        have answer : ((sql (.revokeFamilyRefresh familyId) : StoreProg Bool).run
            (World.handler (exec env) i) w).1 = true := ok
        rw [answer]
        rfl
    | false =>
        have answer : ((sql (.revokeFamilyRefresh familyId) : StoreProg Bool).run
            (World.handler (exec env) i) w).1 = false := ok
        rw [answer]
        rfl
  rw [run]
  cases first : (env w.tick).fault with
  | true =>
      rw [SqlOp.exec_of_fault first]
      exact (revokeFamily_none w.db).symm
  | false =>
      rw [SqlOp.exec_of_ok (by simp [first])]
      change ((SqlOp.revokeFamilyAccess familyId).exec (env (w.tick + 1))
        (w.db.revokeRefreshWhere fun r => r.familyId = familyId)).2 = _
      cases second : (env (w.tick + 1)).fault with
      | true =>
          rw [SqlOp.exec_of_fault second]
          simp [Db.revokeRefreshWhere, Db.revokeFamily, Table.updateWhere, Table.modify]
      | false =>
          rw [SqlOp.exec_of_ok (by simp [second])]
          simp only [SqlOp.effect, Sql.revokeFamilyAccess, any_revokeRefreshWhere]
          simp [Db.revokeRefreshWhere, Db.revokeAccessWhere, Db.revokeFamily]

end Calls

/-- What a call cannot reach has nothing left to revoke: in memory the tokens without a family,
and on Postgres what a statement that the server refuses is for. -/
def MissesNothing (backend : TokenBackend) (env : Env) (tick : Nat) (db : Db) (familyId : String) :
    Prop :=
  match backend with
  | .memory => familyId = "" → db.RefreshRevoked familyId ∧ db.AccessRevoked familyId
  | .postgres => familyId ≠ "" → ((env tick).fault = true → db.RefreshRevoked familyId) ∧
    ((env tick).fault = true ∨ (env (tick + 1)).fault = true → db.AccessRevoked familyId)

/-- A call revokes exactly the family exactly where it misses nothing. -/
theorem revokeTokenFamily_exact_iff {ι : Type} (backend : TokenBackend) (env : Env) (i : ι)
    (w : StoreWorld ι) (familyId : String) :
    w.db.RevokesFamily familyId
        ((backend.repository.revokeTokenFamily familyId).run (World.handler (exec env) i) w).2.db ↔
      MissesNothing backend env w.tick w.db familyId := by
  cases backend with
  | memory =>
      refine (iff_of_eq (congrArg _ (memory_db familyId))).trans
        ((revokesFamily_iff w.db _ _).trans ?_)
      by_cases family : familyId = ""
      · simp [MissesNothing, family]
      · simp [MissesNothing, family]
  | postgres =>
      by_cases family : familyId = ""
      · subst family
        refine (iff_of_eq (congrArg _ (revokeFamily_none w.db).symm)).trans
          ((revokesFamily_iff w.db _ _).trans ?_)
        simp [MissesNothing]
      · refine (iff_of_eq (congrArg _ (postgres_db family))).trans
          ((revokesFamily_iff w.db _ _).trans ?_)
        cases first : (env w.tick).fault <;> cases second : (env (w.tick + 1)).fault <;>
          simp [MissesNothing, family, first, second]

/-- A refresh token that was saved without a family. -/
def loneDb : Db :=
  { refreshTokens := Table.empty.assign
      { token := "R", accessToken := "A", clientId := "app", userId := "alice", scope := "openid"
        expiresAt := 10 } }

/-- The memory repository revokes it with the empty family. -/
theorem empty_family_revoked :
    ¬ loneDb.RevokesFamily ""
      ((memoryTokenRepository.revokeTokenFamily "").run
        (World.handler (exec fun _ => { now := 0 }) ()) (World.start loneDb)).2.db := by
  intro revokes
  exact absurd (revokes.refresh "R") (by decide)

end Fulla
