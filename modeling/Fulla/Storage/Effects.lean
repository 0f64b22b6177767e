import Fulla.Storage.Repository

/-!
# What an operation can do to the token tables

Two facts say everything the proofs about runs need to know about a step on the
token tables, for every backend at once.

* `execOp_decays`: an operation that does not save a pair only ages the tables.
  Every token found afterwards was there before with the same identity, and a
  revoked token stays revoked (`Db.Decays`).
* `saveTokenPair_stores`, `insertTokenPair_cases`: saving a pair stores the two
  records, or (Postgres only) leaves the tables alone and answers `false`.

`Db.Cas` is the meaning of the compare-and-set both token backends offer.
-/

namespace Fulla

open Conc

/-! ## Ageing of records -/

/-- The fields of a refresh token that no operation changes. -/
def OAuth2RefreshToken.identity (r : OAuth2RefreshToken) : OAuth2RefreshToken :=
  { token := r.token, accessToken := r.accessToken, clientId := r.clientId, userId := r.userId
    scope := r.scope, expiresAt := r.expiresAt, familyId := r.familyId, orgId := r.orgId }

/-- The fields of an access token that no operation changes. -/
def OAuth2AccessToken.identity (a : OAuth2AccessToken) : OAuth2AccessToken :=
  { token := a.token, clientId := a.clientId, userId := a.userId, scope := a.scope
    expiresAt := a.expiresAt, orgId := a.orgId }

/-- `r'` is `r` at a later time. -/
structure OAuth2RefreshToken.Aged (r r' : OAuth2RefreshToken) : Prop where
  identity : r'.identity = r.identity
  revoked : r.revoked = true → r'.revoked = true

/-- `a'` is `a` at a later time. -/
structure OAuth2AccessToken.Aged (a a' : OAuth2AccessToken) : Prop where
  identity : a'.identity = a.identity
  revoked : a.revoked = true → a'.revoked = true

namespace OAuth2RefreshToken

variable {r r' r'' : OAuth2RefreshToken}

/-- A refresh token that stays as it is has aged. -/
theorem Aged.refl : r.Aged r :=
  ⟨rfl, id⟩

/-- Ageing twice is ageing. -/
theorem Aged.trans (first : r.Aged r') (second : r'.Aged r'') : r.Aged r'' :=
  ⟨second.identity.trans first.identity, fun revoked => second.revoked (first.revoked revoked)⟩

/-- A token that is not revoked was not revoked before. -/
theorem Aged.unrevoked (aged : r.Aged r') (unrevoked : r'.revoked = false) : r.revoked = false := by
  cases eq : r.revoked with
  | false => rfl
  | true => rw [aged.revoked eq] at unrevoked; cases unrevoked

/-- What belongs to the identity of a refresh token. -/
theorem identity_eq_iff : r'.identity = r.identity ↔
    r'.token = r.token ∧ r'.accessToken = r.accessToken ∧ r'.clientId = r.clientId ∧
      r'.userId = r.userId ∧ r'.scope = r.scope ∧ r'.expiresAt = r.expiresAt ∧
      r'.familyId = r.familyId ∧ r'.orgId = r.orgId := by
  simp [identity]

theorem token_of_identity (eq : r'.identity = r.identity) : r'.token = r.token :=
  (identity_eq_iff.mp eq).1

theorem familyId_of_identity (eq : r'.identity = r.identity) : r'.familyId = r.familyId :=
  (identity_eq_iff.mp eq).2.2.2.2.2.2.1

theorem accessToken_of_identity (eq : r'.identity = r.identity) :
    r'.accessToken = r.accessToken :=
  (identity_eq_iff.mp eq).2.1

end OAuth2RefreshToken

namespace OAuth2AccessToken

variable {a a' a'' : OAuth2AccessToken}

theorem Aged.refl : a.Aged a :=
  ⟨rfl, id⟩

theorem Aged.trans (first : a.Aged a') (second : a'.Aged a'') : a.Aged a'' :=
  ⟨second.identity.trans first.identity, fun revoked => second.revoked (first.revoked revoked)⟩

/-- What belongs to the identity of an access token. -/
theorem identity_eq_iff : a'.identity = a.identity ↔
    a'.token = a.token ∧ a'.clientId = a.clientId ∧ a'.userId = a.userId ∧
      a'.scope = a.scope ∧ a'.expiresAt = a.expiresAt ∧ a'.orgId = a.orgId := by
  simp [identity]

end OAuth2AccessToken

/-! ## Ageing of the tables -/

/-- Whatever token `db'` holds, `db` held at an earlier time of its life. -/
structure Db.Decays (db db' : Db) : Prop where
  refresh : ∀ k r', db'.refreshTokens.find? k = some r' →
    ∃ r, db.refreshTokens.find? k = some r ∧ r.Aged r'
  access : ∀ k a', db'.accessTokens.find? k = some a' →
    ∃ a, db.accessTokens.find? k = some a ∧ a.Aged a'

namespace Db.Decays

variable {db db' db'' : Db}

theorem refl : db.Decays db where
  refresh _ r found := ⟨r, found, .refl⟩
  access _ a found := ⟨a, found, .refl⟩

theorem trans (first : db.Decays db') (second : db'.Decays db'') : db.Decays db'' where
  refresh k r'' found := by
    obtain ⟨r', found', aged'⟩ := second.refresh k r'' found
    obtain ⟨r, found, aged⟩ := first.refresh k r' found'
    exact ⟨r, found, aged.trans aged'⟩
  access k a'' found := by
    obtain ⟨a', found', aged'⟩ := second.access k a'' found
    obtain ⟨a, found, aged⟩ := first.access k a' found'
    exact ⟨a, found, aged.trans aged'⟩

/-- Tables that did not change have not aged. -/
theorem of_tables (refresh : db'.refreshTokens = db.refreshTokens)
    (access : db'.accessTokens = db.accessTokens) : db.Decays db' where
  refresh _ r found := ⟨r, refresh ▸ found, .refl⟩
  access _ a found := ⟨a, access ▸ found, .refl⟩

end Db.Decays

namespace Db

/-- An `UPDATE` of the refresh tokens ages them if it ages every row. -/
theorem updateRefresh_decays (db : Db) (sel : OAuth2RefreshToken → Bool)
    (f : OAuth2RefreshToken → OAuth2RefreshToken) (same : ∀ r, (f r).token = r.token)
    (ages : ∀ r : OAuth2RefreshToken, r.Aged (f r)) :
    db.Decays { db with refreshTokens := db.refreshTokens.updateWhere sel f same } where
  refresh k r' found := by
    rw [Table.find?_updateWhere, Option.map_eq_some_iff] at found
    obtain ⟨r, stored, rfl⟩ := found
    refine ⟨r, stored, ?_⟩
    split
    · exact ages r
    · exact .refl
  access _ a found := ⟨a, found, .refl⟩

/-- An `UPDATE` of the access tokens ages them if it ages every row. -/
theorem updateAccess_decays (db : Db) (sel : OAuth2AccessToken → Bool)
    (f : OAuth2AccessToken → OAuth2AccessToken) (same : ∀ a, (f a).token = a.token)
    (ages : ∀ a : OAuth2AccessToken, a.Aged (f a)) :
    db.Decays { db with accessTokens := db.accessTokens.updateWhere sel f same } where
  refresh _ r found := ⟨r, found, .refl⟩
  access k a' found := by
    rw [Table.find?_updateWhere, Option.map_eq_some_iff] at found
    obtain ⟨a, stored, rfl⟩ := found
    refine ⟨a, stored, ?_⟩
    split
    · exact ages a
    · exact .refl

/-- Dropping refresh tokens is decay. -/
theorem keepRefresh_decays {db : Db} {p : OAuth2RefreshToken → Bool} {db' : Db}
    (refresh : db'.refreshTokens = db.refreshTokens.keep p)
    (access : db'.accessTokens = db.accessTokens) : db.Decays db' where
  refresh k r found := by
    rw [refresh, Table.find?_keep, Option.filter_eq_some_iff] at found
    exact ⟨r, found.1, .refl⟩
  access _ a found := ⟨a, access ▸ found, .refl⟩

/-- Dropping access tokens is decay. -/
theorem keepAccess_decays {db : Db} {p : OAuth2AccessToken → Bool} {db' : Db}
    (refresh : db'.refreshTokens = db.refreshTokens)
    (access : db'.accessTokens = db.accessTokens.keep p) : db.Decays db' where
  refresh _ r found := ⟨r, refresh ▸ found, .refl⟩
  access k a found := by
    rw [access, Table.find?_keep, Option.filter_eq_some_iff] at found
    exact ⟨a, found.1, .refl⟩

/-- Revoking refresh tokens is decay. -/
theorem revokeRefreshWhere_decays (db : Db) (sel : OAuth2RefreshToken → Bool) :
    db.Decays (db.revokeRefreshWhere sel) :=
  updateRefresh_decays _ _ _ (by intro; rfl) (by intro; exact ⟨rfl, fun _ => rfl⟩)

/-- Revoking access tokens is decay. -/
theorem revokeAccessWhere_decays (db : Db) (sel : OAuth2AccessToken → Bool) :
    db.Decays (db.revokeAccessWhere sel) :=
  updateAccess_decays _ _ _ (by intro; rfl) (by intro; exact ⟨rfl, fun _ => rfl⟩)

end Db

/-! ## Memory calls -/

namespace MemoryTokenRepository

theorem revokeTokenFamilyStep_decays (familyId : String) (db : Db) (rt : OAuth2RefreshToken) :
    db.Decays (revokeTokenFamilyStep familyId db rt) := by
  unfold revokeTokenFamilyStep
  split
  · exact (db.revokeRefreshWhere_decays _).trans (Db.revokeAccessWhere_decays _ _)
  · exact .refl

/-- The loop ages the tables because every turn of it does. -/
theorem revokeTokenFamily_decays (familyId : String) (db : Db) :
    db.Decays (revokeTokenFamily familyId db).2 := by
  unfold revokeTokenFamily
  generalize db.refreshTokens.rows = rows
  induction rows generalizing db with
  | nil => exact .refl
  | cons rt rows ih => exact (revokeTokenFamilyStep_decays familyId db rt).trans (ih _)

theorem revokeAccessToken_decays (m : Moment) (token revokedBy : String) (db : Db) :
    db.Decays (revokeAccessToken m token revokedBy db).2 := by
  let access := db.accessTokens.updateWhere (fun a => a.token = token)
    (fun a => { a with revoked := true, revokedAt := m.seconds, revokedBy := revokedBy })
    fun _ => rfl
  have first : db.Decays { db with accessTokens := access } :=
    Db.updateAccess_decays _ _ _ (by intro; rfl) (by intro; exact ⟨rfl, fun _ => rfl⟩)
  exact first.trans
    (Db.updateRefresh_decays _ _ _ (by intro; rfl) (by intro; exact ⟨rfl, fun _ => rfl⟩))

theorem purgeExpired_decays (m : Moment) (db : Db) : db.Decays (purgeExpired m db).2 := by
  let access := db.accessTokens.keep fun a => ¬ a.expiresAt < m.seconds
  have first : db.Decays { db with accessTokens := access } := Db.keepAccess_decays rfl rfl
  exact first.trans (Db.keepRefresh_decays rfl rfl)

end MemoryTokenRepository

/-- The pair an operation asks to save. -/
def savedPair? : StoreOp → Option (OAuth2AccessToken × OAuth2RefreshToken)
  | .mem (.saveTokenPair a r) => some (a, r)
  | .sql (.insertTokenPair a r) => some (a, r)
  | _ => none

/-- **A call on the maps that saves no pair only lets tokens decay**. -/
theorem MemOp.decays {o : MemOp} (m : Moment) (db : Db) (noSave : savedPair? (.mem o) = none) :
    db.Decays (o.exec m db).2 := by
  cases o with
  | saveAuthCode code => exact .of_tables rfl rfl
  | getAuthCode code =>
      simp only [exec, MemoryGrantRepository.getAuthCode]
      split
      · exact .refl
      · split <;> exact .of_tables rfl rfl
  | consumeAuthCode code uri =>
      simp only [exec, MemoryGrantRepository.consumeAuthCode]
      split
      · exact .refl
      · split
        · exact .refl
        · split <;> exact .of_tables rfl rfl
  | purgeExpiredGrants => exact .of_tables rfl rfl
  | saveTokenPair a r => cases noSave
  | getAccessToken t =>
      simp only [exec, MemoryTokenRepository.getAccessToken]
      split
      · exact .refl
      · split <;> exact .refl
  | getRefreshToken t =>
      simp only [exec, MemoryTokenRepository.getRefreshToken]
      split
      · exact .refl
      · split <;> exact .refl
  | revokeRefreshToken t => exact db.revokeRefreshWhere_decays _
  | atomicRevokeRefreshToken t =>
      simp only [exec, MemoryTokenRepository.atomicRevokeRefreshToken]
      split
      · exact .refl
      · split
        · exact .refl
        · exact db.revokeRefreshWhere_decays _
  | revokeTokenFamily f => exact MemoryTokenRepository.revokeTokenFamily_decays f db
  | introspectToken t =>
      simp only [exec, MemoryTokenRepository.introspectToken]
      split
      · split <;> exact .refl
      · split
        · split <;> exact .refl
        · exact .refl
  | incrementIntrospectCount t =>
      exact Db.updateAccess_decays _ _ _ (by intro; rfl) (by intro; exact ⟨rfl, id⟩)
  | revokeAccessToken t by' => exact MemoryTokenRepository.revokeAccessToken_decays m t by' db
  | purgeExpiredTokens => exact MemoryTokenRepository.purgeExpired_decays m db

/-! ## SQL statements -/

/-- So does a statement. -/
theorem SqlOp.effect_decays {o : SqlOp} (m : Moment) (db : Db)
    (noSave : savedPair? (.sql o) = none) : db.Decays (o.effect m db).2 := by
  cases o with
  | insertCode c =>
      simp only [effect, Sql.insertCode]
      split
      · split <;> exact .of_tables rfl rfl
      · exact .refl
  | selectCode c => exact .refl
  | consumeCode c =>
      simp only [effect, Sql.consumeCode]
      split
      · exact .refl
      · split <;> exact .of_tables rfl rfl
  | deleteExpiredCodes now => exact .of_tables rfl rfl
  | insertTokenPair a r => cases noSave
  | selectAccess t => exact .refl
  | selectRefresh t => exact .refl
  | selectRefreshByAccess t =>
      simp only [effect, Sql.selectRefreshByAccess]
      split <;> exact .refl
  | revokeRefresh t => exact db.revokeRefreshWhere_decays _
  | casRevokeRefresh t =>
      simp only [effect, Sql.casRevokeRefresh]
      split
      · exact .refl
      · split
        · exact .refl
        · exact db.revokeRefreshWhere_decays _
  | revokeFamilyRefresh f => exact db.revokeRefreshWhere_decays _
  | revokeFamilyAccess f => exact db.revokeAccessWhere_decays _
  | revokeAccessAudited now t by' =>
      simp only [effect, Sql.revokeAccessAudited]
      split
      · exact Db.updateAccess_decays _ _ _ (by intro; rfl) (by intro; exact ⟨rfl, fun _ => rfl⟩)
      · exact .refl
  | revokeAccess t => exact db.revokeAccessWhere_decays _
  | deleteExpiredAccess now => exact Db.keepAccess_decays rfl rfl
  | deleteExpiredRefresh now => exact Db.keepRefresh_decays rfl rfl
  | archiveExpiredTokens days => exact Db.keepAccess_decays rfl rfl

/-- So does a statement that may be refused. -/
theorem SqlOp.decays {o : SqlOp} (m : Moment) (db : Db) (noSave : savedPair? (.sql o) = none) :
    db.Decays (o.exec m db).2 := by
  unfold exec
  split
  · exact .refl
  · exact effect_decays m db noSave

/-- So does a Redis command, which touches no token. -/
theorem RedisOp.decays {o : RedisOp} (m : Moment) (db : Db) : db.Decays (o.exec m db).2 := by
  unfold exec
  split
  · exact .refl
  · cases o with
    | setex key ttl value =>
        simp only [effect, Redis.setex]
        split <;> exact .of_tables rfl rfl
    | get key => exact .refl
    | consumeScript key uri =>
        simp only [effect, Redis.consumeScript]
        split
        · exact .refl
        · split
          · exact .refl
          · split <;> exact .of_tables rfl rfl

/-- An operation that saves no pair only ages the token tables. -/
theorem execOp_decays {o : StoreOp} (m : Moment) (db : Db) (noSave : savedPair? o = none) :
    db.Decays (execOp m o db).2 := by
  cases o with
  | env o => exact .refl
  | mem o => exact o.decays m db noSave
  | sql o => exact o.decays m db noSave
  | redis o => exact o.decays m db

/-! ## Access tokens that stay -/

/-- The operation saves no token pair. -/
def NoSave (o : StoreOp) : Prop :=
  savedPair? o = none

/-- The operation deletes access tokens. -/
def deletesAccess : StoreOp → Bool
  | .mem .purgeExpiredTokens => true
  | .sql (.deleteExpiredAccess _) => true
  | .sql (.archiveExpiredTokens _) => true
  | _ => false

/-- The operation neither saves a token pair nor deletes an access token. -/
structure Quiet (o : StoreOp) : Prop where
  noSave : NoSave o
  keeps : deletesAccess o = false

/-- Every access token of `db` is still there in `db'`, in whatever state. -/
def Db.KeepsAccess (db db' : Db) : Prop :=
  ∀ k a, db.accessTokens.find? k = some a → ∃ a', db'.accessTokens.find? k = some a'

namespace Db.KeepsAccess

variable {db db' db'' : Db}

theorem of_eq (same : db'.accessTokens = db.accessTokens) : db.KeepsAccess db' :=
  fun _ a found => ⟨a, same ▸ found⟩

theorem trans (first : db.KeepsAccess db') (second : db'.KeepsAccess db'') :
    db.KeepsAccess db'' := by
  intro k a found
  obtain ⟨a', found'⟩ := first k a found
  exact second k a' found'

theorem updateWhere {sel : OAuth2AccessToken → Bool} {f : OAuth2AccessToken → OAuth2AccessToken}
    (same : ∀ a, (f a).token = a.token)
    (update : db'.accessTokens = db.accessTokens.updateWhere sel f same) :
    db.KeepsAccess db' := by
  intro k a found
  rw [update, Table.find?_updateWhere, found]
  exact ⟨_, rfl⟩

end Db.KeepsAccess

theorem MemoryTokenRepository.revokeTokenFamily_keepsAccess (familyId : String) (db : Db) :
    db.KeepsAccess (revokeTokenFamily familyId db).2 := by
  unfold revokeTokenFamily
  generalize db.refreshTokens.rows = rows
  induction rows generalizing db with
  | nil => exact .of_eq rfl
  | cons rt rows ih =>
      refine Db.KeepsAccess.trans ?_ (ih (revokeTokenFamilyStep familyId db rt))
      unfold revokeTokenFamilyStep
      split
      · exact .updateWhere (by intro; rfl) rfl
      · exact .of_eq rfl

/-- A quiet call on the maps keeps every access token. -/
theorem MemOp.keepsAccess {o : MemOp} (m : Moment) (db : Db) (quiet : Quiet (.mem o)) :
    db.KeepsAccess (o.exec m db).2 := by
  cases o with
  | saveTokenPair a r => cases quiet.noSave
  | purgeExpiredTokens => cases quiet.keeps
  | getAuthCode code =>
      simp only [exec, MemoryGrantRepository.getAuthCode]
      split
      · exact .of_eq rfl
      · split <;> exact .of_eq rfl
  | consumeAuthCode code uri =>
      simp only [exec, MemoryGrantRepository.consumeAuthCode]
      split
      · exact .of_eq rfl
      · split
        · exact .of_eq rfl
        · split <;> exact .of_eq rfl
  | getAccessToken t =>
      simp only [exec, MemoryTokenRepository.getAccessToken]
      split
      · exact .of_eq rfl
      · split <;> exact .of_eq rfl
  | getRefreshToken t =>
      simp only [exec, MemoryTokenRepository.getRefreshToken]
      split
      · exact .of_eq rfl
      · split <;> exact .of_eq rfl
  | atomicRevokeRefreshToken t =>
      simp only [exec, MemoryTokenRepository.atomicRevokeRefreshToken]
      split
      · exact .of_eq rfl
      · split <;> exact .of_eq rfl
  | introspectToken t =>
      simp only [exec, MemoryTokenRepository.introspectToken]
      split
      · split <;> exact .of_eq rfl
      · split
        · split <;> exact .of_eq rfl
        · exact .of_eq rfl
  | revokeTokenFamily f => exact MemoryTokenRepository.revokeTokenFamily_keepsAccess f db
  | incrementIntrospectCount t => exact .updateWhere (by intro; rfl) rfl
  | revokeAccessToken t by' => exact .updateWhere (by intro; rfl) rfl
  | saveAuthCode code => exact .of_eq rfl
  | purgeExpiredGrants => exact .of_eq rfl
  | revokeRefreshToken t => exact .of_eq rfl

/-- So does a quiet statement. -/
theorem SqlOp.keepsAccess {o : SqlOp} (m : Moment) (db : Db) (quiet : Quiet (.sql o)) :
    db.KeepsAccess (o.exec m db).2 := by
  by_cases fault : m.fault = true
  · rw [exec_of_fault fault]
    exact .of_eq rfl
  rw [exec_of_ok fault]
  cases o with
  | insertTokenPair a r => cases quiet.noSave
  | deleteExpiredAccess now => cases quiet.keeps
  | archiveExpiredTokens days => cases quiet.keeps
  | insertCode c =>
      simp only [effect, Sql.insertCode]
      split
      · split <;> exact .of_eq rfl
      · exact .of_eq rfl
  | consumeCode c =>
      simp only [effect, Sql.consumeCode]
      split
      · exact .of_eq rfl
      · split <;> exact .of_eq rfl
  | selectRefreshByAccess t =>
      simp only [effect, Sql.selectRefreshByAccess]
      split <;> exact .of_eq rfl
  | casRevokeRefresh t =>
      simp only [effect, Sql.casRevokeRefresh]
      split
      · exact .of_eq rfl
      · split <;> exact .of_eq rfl
  | revokeAccessAudited now t by' =>
      simp only [effect, Sql.revokeAccessAudited]
      split
      · exact .updateWhere (by intro; rfl) rfl
      · exact .of_eq rfl
  | revokeFamilyAccess f => exact .updateWhere (by intro; rfl) rfl
  | revokeAccess t => exact .updateWhere (by intro; rfl) rfl
  | selectCode c => exact .of_eq rfl
  | deleteExpiredCodes now => exact .of_eq rfl
  | selectAccess t => exact .of_eq rfl
  | selectRefresh t => exact .of_eq rfl
  | revokeRefresh t => exact .of_eq rfl
  | revokeFamilyRefresh f => exact .of_eq rfl
  | deleteExpiredRefresh now => exact .of_eq rfl

theorem RedisOp.keepsAccess {o : RedisOp} (m : Moment) (db : Db) :
    db.KeepsAccess (o.exec m db).2 := by
  by_cases fault : m.fault = true
  · rw [exec_of_fault fault]
    exact .of_eq rfl
  rw [exec_of_ok fault]
  cases o with
  | setex key ttl value =>
      simp only [effect, Redis.setex]
      split <;> exact .of_eq rfl
  | get key => exact .of_eq rfl
  | consumeScript key uri =>
      simp only [effect, Redis.consumeScript]
      split
      · exact .of_eq rfl
      · split
        · exact .of_eq rfl
        · split <;> exact .of_eq rfl

/-- A quiet operation loses no access token. -/
theorem execOp_keepsAccess {o : StoreOp} (m : Moment) (db : Db) (quiet : Quiet o) :
    db.KeepsAccess (execOp m o db).2 := by
  cases o with
  | env o => exact .of_eq rfl
  | mem o => exact o.keepsAccess m db quiet
  | sql o => exact o.keepsAccess m db quiet
  | redis o => exact o.keepsAccess m db

/-! ## Refresh tokens that stay -/

/-- Every refresh token of `db` is still there in `db'`, older. -/
def Db.KeepsRefresh (db db' : Db) : Prop :=
  ∀ k r, db.refreshTokens.find? k = some r → ∃ r', db'.refreshTokens.find? k = some r' ∧ r.Aged r'

namespace Db.KeepsRefresh

variable {db db' db'' : Db}

theorem of_eq (same : db'.refreshTokens = db.refreshTokens) : db.KeepsRefresh db' :=
  fun _ r found => ⟨r, same ▸ found, .refl⟩

theorem trans (first : db.KeepsRefresh db') (second : db'.KeepsRefresh db'') :
    db.KeepsRefresh db'' := by
  intro k r found
  obtain ⟨r', found', aged⟩ := first k r found
  obtain ⟨r'', found'', aged'⟩ := second k r' found'
  exact ⟨r'', found'', aged.trans aged'⟩

theorem revokeRefreshWhere (db : Db) (sel : OAuth2RefreshToken → Bool) :
    db.KeepsRefresh (db.revokeRefreshWhere sel) := by
  intro k r found
  rw [Db.revokeRefreshWhere, Table.find?_updateWhere, found]
  refine ⟨_, rfl, ?_⟩
  dsimp only
  split
  · exact ⟨rfl, fun _ => rfl⟩
  · exact .refl

end Db.KeepsRefresh

/-- A statement that neither saves a pair nor deletes refresh tokens. -/
theorem SqlOp.keepsRefresh {o : SqlOp} (m : Moment) (db : Db)
    (noSave : savedPair? (.sql o) = none) (noDelete : ∀ now, o ≠ .deleteExpiredRefresh now) :
    db.KeepsRefresh (o.exec m db).2 := by
  by_cases fault : m.fault = true
  · rw [exec_of_fault fault]
    exact .of_eq rfl
  rw [exec_of_ok fault]
  cases o with
  | insertTokenPair a r => cases noSave
  | deleteExpiredRefresh now => exact absurd rfl (noDelete now)
  | insertCode c =>
      simp only [effect, Sql.insertCode]
      split
      · split <;> exact .of_eq rfl
      · exact .of_eq rfl
  | consumeCode c =>
      simp only [effect, Sql.consumeCode]
      split
      · exact .of_eq rfl
      · split <;> exact .of_eq rfl
  | selectRefreshByAccess t =>
      simp only [effect, Sql.selectRefreshByAccess]
      split <;> exact .of_eq rfl
  | casRevokeRefresh t =>
      simp only [effect, Sql.casRevokeRefresh]
      split
      · exact .of_eq rfl
      · split
        · exact .of_eq rfl
        · exact .revokeRefreshWhere db _
  | revokeAccessAudited now t by' =>
      simp only [effect, Sql.revokeAccessAudited]
      split <;> exact .of_eq rfl
  | revokeRefresh t => exact .revokeRefreshWhere db _
  | revokeFamilyRefresh f => exact .revokeRefreshWhere db _
  | revokeFamilyAccess f => exact .of_eq rfl
  | revokeAccess t => exact .of_eq rfl
  | selectCode c => exact .of_eq rfl
  | deleteExpiredCodes now => exact .of_eq rfl
  | selectAccess t => exact .of_eq rfl
  | selectRefresh t => exact .of_eq rfl
  | deleteExpiredAccess now => exact .of_eq rfl
  | archiveExpiredTokens days => exact .of_eq rfl

/-! ## Saving a pair -/

/-- `db'` is `db` with the pair stored, revoked only if it was handed over so. -/
structure Db.Stores (db : Db) (a : OAuth2AccessToken) (r : OAuth2RefreshToken) (db' : Db) :
    Prop where
  access : ∃ a', a'.identity = a.identity ∧ a'.revoked = a.revoked ∧
    ∀ k, db'.accessTokens.find? k = if k = a.token then some a' else db.accessTokens.find? k
  refresh : ∃ r', r'.identity = r.identity ∧ r'.revoked = r.revoked ∧
    ∀ k, db'.refreshTokens.find? k = if k = r.token then some r' else db.refreshTokens.find? k

/-- The memory repository stores a pair, with its defaults. -/
theorem MemoryTokenRepository.saveTokenPair_stores (m : Moment) (a : OAuth2AccessToken)
    (r : OAuth2RefreshToken) (db : Db) : db.Stores a r (saveTokenPair m a r db).2 where
  access := ⟨tokenWithDefaults m a, rfl, rfl, fun k => Table.find?_assign _ _ k⟩
  refresh := ⟨r, rfl, rfl, fun k => Table.find?_assign _ _ k⟩

/-- The transaction stores a pair of new names, or nothing. -/
theorem Sql.insertTokenPair_cases (m : Moment) (a : OAuth2AccessToken) (r : OAuth2RefreshToken)
    (db : Db) :
    insertTokenPair m a r db = (false, db) ∨
      ∃ db', insertTokenPair m a r db = (true, db') ∧
        db.accessTokens.find? a.token = none ∧ db.Stores a r db' := by
  unfold insertTokenPair
  split
  · split
    · next accessTokens refreshTokens insertAccess insertRefresh =>
        obtain ⟨absent, rfl⟩ := Table.insertNew_eq_some.mp insertAccess
        obtain ⟨_, rfl⟩ := Table.insertNew_eq_some.mp insertRefresh
        refine Or.inr ⟨_, rfl, absent, ?_⟩
        exact
          { access := ⟨accessRow m a, rfl, rfl, fun k => Table.find?_assign _ _ k⟩
            refresh := ⟨refreshRow r, rfl, rfl, fun k => Table.find?_assign _ _ k⟩ }
    · exact Or.inl rfl
  · exact Or.inl rfl

/-- The statement is refused without a trace, or it stores the pair. -/
theorem SqlOp.insertTokenPair_cases (m : Moment) (a : OAuth2AccessToken) (r : OAuth2RefreshToken)
    (db : Db) :
    exec m (.insertTokenPair a r) db = (false, db) ∨
      ∃ db', exec m (.insertTokenPair a r) db = (true, db') ∧
        db.accessTokens.find? a.token = none ∧ db.Stores a r db' := by
  by_cases fault : m.fault = true
  · exact Or.inl (exec_of_fault fault)
  · rw [exec_of_ok fault]
    exact Sql.insertTokenPair_cases m a r db

/-! ## The compare-and-set on a refresh token -/

/-- `answer` and `db'` are those of a compare-and-set of `token` in `db`: nothing
happened, or the stored token was unrevoked and is revoked now. -/
def Db.Cas (db : Db) (token : String) (answer : Option OAuth2RefreshToken) (db' : Db) : Prop :=
  answer = none ∧ db' = db ∨
    ∃ r r', db.refreshTokens.find? token = some r ∧ r.revoked = false ∧
      answer = some r' ∧ r'.identity = r.identity ∧
      db' = db.revokeRefreshWhere fun r => r.token = token

/-- The call of the memory repository is a compare-and-set. -/
theorem MemoryTokenRepository.atomicRevokeRefreshToken_cas (token : String) (db : Db) :
    db.Cas token (atomicRevokeRefreshToken token db).1 (atomicRevokeRefreshToken token db).2 := by
  unfold atomicRevokeRefreshToken
  split
  · exact Or.inl ⟨rfl, rfl⟩
  · next r found =>
      split
      · exact Or.inl ⟨rfl, rfl⟩
      · next unrevoked => exact Or.inr ⟨r, _, found, by simpa using unrevoked, rfl, rfl, rfl⟩

/-- So is the `UPDATE … RETURNING` of Postgres. -/
theorem Sql.casRevokeRefresh_cas (token : String) (db : Db) :
    db.Cas token (casRevokeRefresh token db).1 (casRevokeRefresh token db).2 := by
  unfold casRevokeRefresh
  split
  · exact Or.inl ⟨rfl, rfl⟩
  · next r found =>
      split
      · exact Or.inl ⟨rfl, rfl⟩
      · next unrevoked => exact Or.inr ⟨r, _, found, by simpa using unrevoked, rfl, rfl, rfl⟩

/-- So is the statement that may be refused. -/
theorem SqlOp.casRevokeRefresh_cas (m : Moment) (token : String) (db : Db) :
    db.Cas token (exec m (.casRevokeRefresh token) db).1
      (exec m (.casRevokeRefresh token) db).2 := by
  by_cases fault : m.fault = true
  · rw [exec_of_fault fault]
    exact Or.inl ⟨rfl, rfl⟩
  · rw [exec_of_ok fault]
    exact Sql.casRevokeRefresh_cas token db

end Fulla
