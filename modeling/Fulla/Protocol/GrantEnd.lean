import Fulla.Protocol.RefreshFailure
import Fulla.Protocol.Reuse

/-!
# Revoking an access token

After `revokeAccessToken` no refresh token of the grant behind the access token should
be good for a rotation.

* `MemoryTokenRepository` revokes the records stored under the given name and follows
  no link, so the grant is over only if it was over before.
* `PostgresTokenRepository` follows the link to the refresh token and from there to the
  family, but only after the audited `UPDATE`; the fallback for a refused one revokes
  the linked refresh token alone, whatever its rotation has led to.

`revokeAccessToken_ends_grant_iff` says for both repositories, and for every state of
the store, exactly when the grant is over.
-/

namespace Fulla.GrantEnd

open Conc

/-- The refresh tokens of the grant of `r`.  A row from before the families is a grant
of its own. -/
def sameFamily (r r' : OAuth2RefreshToken) : Bool :=
  r'.token = r.token || (r.familyId ≠ "" && r'.familyId = r.familyId)

/-- At some moment from second `now` on the refresh token passes the compare-and-set
that starts a rotation, and is not expired. -/
def Rotatable (tokens : TokenBackend) (db : Db) (now : Nat) (token : String) : Prop :=
  ∃ (m : Moment) (r : OAuth2RefreshToken), (now : Int) ≤ m.seconds ∧
    ((tokens.repository.atomicRevokeRefreshToken token).run (execOp m) db).1 = some r ∧
    ¬ m.seconds > r.expiresAt

/-- Neither revoked nor expired in second `now`. -/
def usable (now : Nat) (r : OAuth2RefreshToken) : Bool :=
  !r.revoked && decide ((now : Int) ≤ r.expiresAt)

theorem usable_iff {now : Nat} {r : OAuth2RefreshToken} :
    usable now r = true ↔ r.revoked = false ∧ (now : Int) ≤ r.expiresAt := by
  simp [usable]

/-- What the compare-and-set of either repository answers. -/
theorem cas_answer {tokens : TokenBackend} {m : Moment} {db : Db} {token : String}
    {r' : OAuth2RefreshToken}
    (won : ((tokens.repository.atomicRevokeRefreshToken token).run (execOp m) db).1 = some r') :
    ∃ r, db.refreshTokens.find? token = some r ∧ r.revoked = false ∧
      r'.expiresAt = r.expiresAt := by
  cases tokens with
  | memory =>
      change (MemoryTokenRepository.atomicRevokeRefreshToken token db).1 = some r' at won
      unfold MemoryTokenRepository.atomicRevokeRefreshToken at won
      cases found : db.refreshTokens.find? token with
      | none => simp [found] at won
      | some r =>
          cases revoked : r.revoked with
          | true => simp [found, revoked] at won
          | false =>
              simp only [found, revoked, Bool.false_eq_true, if_false, Option.some.injEq] at won
              exact ⟨r, rfl, revoked, by rw [← won]⟩
  | postgres =>
      change (SqlOp.exec m (.casRevokeRefresh token) db).1 = some r' at won
      cases fault : m.fault with
      | true =>
          rw [SqlOp.exec_of_fault fault] at won
          cases won
      | false =>
          rw [SqlOp.exec_of_ok (by simp [fault])] at won
          change (Sql.casRevokeRefresh token db).1 = some r' at won
          unfold Sql.casRevokeRefresh at won
          cases found : db.refreshTokens.find? token with
          | none => simp [found] at won
          | some r =>
              cases revoked : r.revoked with
              | true => simp [found, revoked] at won
              | false =>
                  simp only [found, revoked, Bool.false_eq_true, if_false, Option.some.injEq] at won
                  exact ⟨r, rfl, revoked, by rw [← won]; rfl⟩

theorem cas_of_unrevoked (tokens : TokenBackend) {m : Moment} {db : Db} {token : String}
    {r : OAuth2RefreshToken} (ok : m.fault = false)
    (found : db.refreshTokens.find? token = some r) (unrevoked : r.revoked = false) :
    ∃ r', ((tokens.repository.atomicRevokeRefreshToken token).run (execOp m) db).1 = some r' ∧
      r'.expiresAt = r.expiresAt := by
  cases tokens with
  | memory =>
      refine ⟨{ r with revoked := true }, ?_, rfl⟩
      change (MemoryTokenRepository.atomicRevokeRefreshToken token db).1 = _
      simp [MemoryTokenRepository.atomicRevokeRefreshToken, found, unrevoked]
  | postgres =>
      refine ⟨{ Sql.refreshRow r with revoked := true }, ?_, rfl⟩
      change (SqlOp.exec m (.casRevokeRefresh token) db).1 = _
      rw [SqlOp.exec_of_ok (by simp [ok])]
      change (Sql.casRevokeRefresh token db).1 = _
      simp [Sql.casRevokeRefresh, found, unrevoked]

theorem rotatable_iff {tokens : TokenBackend} {db : Db} {now : Nat} {token : String} :
    Rotatable tokens db now token ↔
      ∃ r, db.refreshTokens.find? token = some r ∧ usable now r = true := by
  constructor
  · intro rotatable
    obtain ⟨m, r', later, won, unexpired⟩ := rotatable
    obtain ⟨r, found, unrevoked, expiry⟩ := cas_answer won
    exact ⟨r, found, usable_iff.mpr ⟨unrevoked, by omega⟩⟩
  · intro stored
    obtain ⟨r, found, usable⟩ := stored
    obtain ⟨unrevoked, unexpired⟩ := usable_iff.mp usable
    have second : Moment.seconds { now := 1000 * now } = now := by
      simp [Moment.seconds]
    obtain ⟨r', won, expiry⟩ :=
      cas_of_unrevoked tokens (m := { now := 1000 * now }) rfl found unrevoked
    exact ⟨_, r', by omega, won, by omega⟩

/-! ## What a revocation does to the refresh tokens -/

/-- The access token is stored and found, and `r` is the one refresh token with its name
in the `access_token` column. -/
structure Found (env : Env) (n : Nat) (db : Db) (token : String) (r : OAuth2RefreshToken) :
    Prop where
  accepted : (env (n + 1)).fault = false
  stored : (db.accessTokens.find? token).isSome = true
  only : (db.refreshTokens.rows.filter fun r' => r'.accessToken = token) = [r]

/-- The server takes the audited `UPDATE`. -/
def Audited (env : Env) (n : Nat) (revokedBy : String) : Prop :=
  (env (n + 2)).fault = false ∧ Sql.varchar 50 revokedBy = true

/-- The revocation goes through the family: nothing is refused up to its first `UPDATE`. -/
structure Cascades (env : Env) (n : Nat) (db : Db) (token revokedBy : String)
    (r : OAuth2RefreshToken) : Prop where
  found : Found env n db token r
  audited : Audited env n revokedBy
  family : r.familyId ≠ ""
  linkRead : (env (n + 3)).fault = false
  executed : (env (n + 4)).fault = false

/-- The revocation stops at the linked refresh token: that token has no family, or the
audited `UPDATE` was refused and the rest was not. -/
structure PairOnly (env : Env) (n : Nat) (db : Db) (token revokedBy : String)
    (r : OAuth2RefreshToken) : Prop where
  found : Found env n db token r
  third : (env (n + 3)).fault = false
  fourth : (env (n + 4)).fault = false
  branch : Audited env n revokedBy ∧ r.familyId = "" ∨
    ¬ Audited env n revokedBy ∧ (env (n + 5)).fault = false

section Postgres

variable {ι : Type} {env : Env} {i : ι} {w : StoreWorld ι} {token revokedBy : String}
  {r : OAuth2RefreshToken}

/-- One statement, executed at the current step. -/
theorem sql_sat (o : SqlOp) (w : StoreWorld ι) :
    Prog.Sat (World.handler (exec env) i) w (sql o) fun a w' =>
      a = (o.exec (env w.tick) w.db).1 ∧ w'.db = (o.exec (env w.tick) w.db).2 ∧
        w'.tick = w.tick + 1 :=
  ⟨rfl, rfl, rfl⟩

/-- A look-up of the access token: it is found if it is stored and nothing is refused. -/
theorem selectAccess_sat (w : StoreWorld ι) :
    Prog.Sat (World.handler (exec env) i) w
      (sql (.selectAccess token) : StoreProg (Option OAuth2AccessToken)) fun found w' =>
      (found.isSome = true ↔ (env w.tick).fault = false ∧
        (w.db.accessTokens.find? token).isSome = true) ∧ RefreshFailure.Elapsed 1 w w' := by
  refine ⟨?_, ?_, rfl⟩
  · change ((SqlOp.selectAccess token).exec (env w.tick) w.db).1.isSome = true ↔ _
    unfold SqlOp.exec
    cases (env w.tick).fault <;> simp [SqlOp.refused, SqlOp.effect, Sql.selectAccess]
  · change ((SqlOp.selectAccess token).exec (env w.tick) w.db).2 = w.db
    unfold SqlOp.exec
    split <;> rfl

/-- The audited `UPDATE` and the one of the fallback leave the refresh tokens alone. -/
theorem revokeAccessAudited_sat (now : Int) {n : Nat} (w : StoreWorld ι) (tick : w.tick = n + 2) :
    Prog.Sat (World.handler (exec env) i) w
      (sql (.revokeAccessAudited now token revokedBy) : StoreProg Bool) fun ok w' =>
      (ok = true ↔ Audited env n revokedBy) ∧ w'.db.refreshTokens = w.db.refreshTokens ∧
        w'.tick = n + 3 := by
  refine (sql_sat (.revokeAccessAudited now token revokedBy) w).mono ?_
  intro ok w' answered
  rcases answered with ⟨rfl, db, tick'⟩
  rw [db, tick', tick]
  unfold SqlOp.exec Audited
  cases (env (n + 2)).fault with
  | true => simp [SqlOp.refused]
  | false =>
      simp only [Bool.false_eq_true, if_false, SqlOp.effect, Sql.revokeAccessAudited, true_and]
      split <;> simp_all

theorem revokeAccess_sat (w : StoreWorld ι) :
    Prog.Sat (World.handler (exec env) i) w
      (sql (.revokeAccess token) : StoreProg Bool) fun ok w' =>
      (ok = true ↔ (env w.tick).fault = false) ∧ w'.db.refreshTokens = w.db.refreshTokens ∧
        w'.tick = w.tick + 1 := by
  refine (sql_sat (.revokeAccess token) w).mono ?_
  intro ok w' answered
  rcases answered with ⟨rfl, db, tick⟩
  rw [db, tick]
  unfold SqlOp.exec
  cases (env w.tick).fault <;>
    simp [SqlOp.refused, SqlOp.effect, Sql.revokeAccess, Db.revokeAccessWhere]

/-- The look-up by the `access_token` column finds `r` if it is the only one. -/
theorem selectRefreshByAccess_sat (w : StoreWorld ι) (stored : r ∈ w.db.refreshTokens.rows)
    (linked : r.accessToken = token) :
    Prog.Sat (World.handler (exec env) i) w
      (sql (.selectRefreshByAccess token) : StoreProg (Option OAuth2RefreshToken)) fun rt w' =>
      ((env w.tick).fault = false ∧
            (w.db.refreshTokens.rows.filter fun r' => r'.accessToken = token) = [r] ∧ rt = some r ∨
          ¬ ((env w.tick).fault = false ∧
            (w.db.refreshTokens.rows.filter fun r' => r'.accessToken = token) = [r]) ∧ rt = none) ∧
        w'.db.refreshTokens = w.db.refreshTokens ∧ w'.tick = w.tick + 1 := by
  refine (sql_sat (.selectRefreshByAccess token) w).mono ?_
  intro rt w' answered
  rcases answered with ⟨rfl, db, tick⟩
  rw [db]
  cases fault : (env w.tick).fault with
  | true =>
      rw [SqlOp.exec_of_fault fault]
      exact ⟨.inr ⟨fun bad => absurd bad.1 (by decide), rfl⟩, rfl, tick⟩
  | false =>
      have mem : r ∈ w.db.refreshTokens.rows.filter fun r' => r'.accessToken = token :=
        List.mem_filter.mpr ⟨stored, by simp [linked]⟩
      rw [SqlOp.exec_of_ok (by simp [fault])]
      change (_ ∧ _ ∧ (Sql.selectRefreshByAccess token w.db).1 = _ ∨
        _ ∧ (Sql.selectRefreshByAccess token w.db).1 = _) ∧
          (Sql.selectRefreshByAccess token w.db).2.refreshTokens = _ ∧ _
      unfold Sql.selectRefreshByAccess
      split
      · next r' only =>
          rw [only] at mem
          cases List.mem_singleton.mp mem
          exact ⟨.inl ⟨rfl, only, rfl⟩, rfl, tick⟩
      · next other => exact ⟨.inr ⟨fun bad => other r bad.2, rfl⟩, rfl, tick⟩

/-- The last statement of the branches that stop at one refresh token. -/
theorem revokeRefresh_sat (w : StoreWorld ι) :
    Prog.Sat (World.handler (exec env) i) w
      (do let _ ← (sql (.revokeRefresh r.token) : StoreProg Bool); return ()) fun _ w' =>
      ((env w.tick).fault = false ∧ w'.db.refreshTokens =
          (w.db.revokeRefreshWhere fun r' => r'.token = r.token).refreshTokens) ∨
        ((env w.tick).fault = true ∧ w'.db.refreshTokens = w.db.refreshTokens) := by
  rw [Prog.sat_bind]
  refine (sql_sat (.revokeRefresh r.token) w).mono ?_
  intro ok w' answered
  rcases answered with ⟨rfl, db, -⟩
  change _ ∧ w'.db.refreshTokens = _ ∨ _ ∧ w'.db.refreshTokens = _
  rw [db]
  cases fault : (env w.tick).fault with
  | true => exact .inr ⟨rfl, by rw [SqlOp.exec_of_fault fault]⟩
  | false => exact .inl ⟨rfl, by rw [SqlOp.exec_of_ok (by simp [fault])]; rfl⟩

/-- A family is revoked by the first of the two statements. -/
theorem revokeTokenFamily_sat (w : StoreWorld ι) {familyId : String} (family : familyId ≠ "") :
    Prog.Sat (World.handler (exec env) i) w
      (PostgresTokenRepository.revokeTokenFamily familyId) fun _ w' =>
      ((env w.tick).fault = false ∧ w'.db.refreshTokens =
          (w.db.revokeRefreshWhere fun r' => r'.familyId = familyId).refreshTokens) ∨
        ((env w.tick).fault = true ∧ w'.db.refreshTokens = w.db.refreshTokens) := by
  rw [PostgresTokenRepository.revokeTokenFamily, if_neg family]
  refine (sql_sat (.revokeFamilyRefresh familyId) w).bind ?_
  intro ok w₁ answered
  rcases answered with ⟨rfl, db, -⟩
  cases fault : (env w.tick).fault with
  | true =>
      rw [SqlOp.exec_of_fault fault] at db ⊢
      exact .inr ⟨rfl, congrArg Db.refreshTokens db⟩
  | false =>
      rw [SqlOp.exec_of_ok (by simp [fault])] at db ⊢
      refine (sql_sat (.revokeFamilyAccess familyId) w₁).bind ?_
      intro _ w₂ answered
      have unchanged : w₂.db.refreshTokens = w₁.db.refreshTokens := by
        rw [answered.2.1]
        unfold SqlOp.exec
        split <;> rfl
      exact .inl ⟨rfl, unchanged.trans (congrArg Db.refreshTokens db)⟩

/-- The refresh tokens after a call that began at step `n`: revoked through the family,
or the linked one only, or none. -/
def Outcome (env : Env) (n : Nat) (db : Db) (token revokedBy : String) (r : OAuth2RefreshToken)
    (after : Table OAuth2RefreshToken.token) : Prop :=
  (Cascades env n db token revokedBy r ∧
      after = (db.revokeRefreshWhere fun r' => r'.familyId = r.familyId).refreshTokens) ∨
    (PairOnly env n db token revokedBy r ∧
      after = (db.revokeRefreshWhere fun r' => r'.token = r.token).refreshTokens) ∨
    (¬ Cascades env n db token revokedBy r ∧ ¬ PairOnly env n db token revokedBy r ∧
      after = db.refreshTokens)

theorem revokeRefreshWhere_congr {db db' : Db} {sel : OAuth2RefreshToken → Bool}
    (same : db'.refreshTokens = db.refreshTokens) :
    (db'.revokeRefreshWhere sel).refreshTokens = (db.revokeRefreshWhere sel).refreshTokens := by
  rw [Db.revokeRefreshWhere, same]
  rfl

section Branches

variable {n : Nat} {db : Db} (stored : r ∈ db.refreshTokens.rows) (linked : r.accessToken = token)
  (accepted : (env (n + 1)).fault = false)
  (there : (db.accessTokens.find? token).isSome = true) (w : StoreWorld ι)
  (rows : w.db.refreshTokens = db.refreshTokens) (tick : w.tick = n + 3)

include stored linked accepted there rows tick

/-- After an audited `UPDATE`. -/
theorem audited_sat (audited : Audited env n revokedBy) :
    Prog.Sat (World.handler (exec env) i) w
      (do
        let rt : Option OAuth2RefreshToken ← sql (.selectRefreshByAccess token)
        match rt with
        | none => return ()
        | some rt =>
          if rt.familyId ≠ "" then PostgresTokenRepository.revokeTokenFamily rt.familyId
          else
            let _ ← sql (.revokeRefresh rt.token)
            return ())
      fun _ w' => Outcome env n db token revokedBy r w'.db.refreshTokens := by
  refine (selectRefreshByAccess_sat w (rows ▸ stored) linked).bind ?_
  intro rt w₁ looked
  rcases looked with ⟨link, rows₁, tick₁⟩
  rw [rows, tick] at link
  rw [tick] at tick₁
  rw [rows] at rows₁
  rcases link with ⟨third, only, rfl⟩ | ⟨unread, rfl⟩
  · by_cases family : r.familyId = ""
    · simp only [family, ne_eq, not_true_eq_false, if_false]
      refine (revokeRefresh_sat w₁).mono ?_
      intro _ w' ended
      rw [tick₁] at ended
      rcases ended with ⟨fourth, rows'⟩ | ⟨fourth, rows'⟩
      · exact .inr (.inl ⟨⟨⟨accepted, there, only⟩, third, fourth, .inl ⟨audited, family⟩⟩,
          rows'.trans (revokeRefreshWhere_congr rows₁)⟩)
      · exact .inr (.inr ⟨fun c => c.family family,
          fun p => absurd (fourth.symm.trans p.fourth) (by decide), rows'.trans rows₁⟩)
    · simp only [family, ne_eq, not_false_eq_true, if_true]
      refine (revokeTokenFamily_sat w₁ family).mono ?_
      intro _ w' ended
      rw [tick₁] at ended
      rcases ended with ⟨fourth, rows'⟩ | ⟨fourth, rows'⟩
      · exact .inl ⟨⟨⟨accepted, there, only⟩, audited, family, third, fourth⟩,
          rows'.trans (revokeRefreshWhere_congr rows₁)⟩
      · exact .inr (.inr ⟨fun c => absurd (fourth.symm.trans c.executed) (by decide),
          fun p => absurd (fourth.symm.trans p.fourth) (by decide), rows'.trans rows₁⟩)
  · exact .inr (.inr ⟨fun c => unread ⟨c.linkRead, c.found.only⟩,
      fun p => unread ⟨p.third, p.found.only⟩, rows₁⟩)

/-- After a refused one. -/
theorem fallback_sat (refused : ¬ Audited env n revokedBy) :
    Prog.Sat (World.handler (exec env) i) w
      (do
        let simple : Bool ← sql (.revokeAccess token)
        if simple then
          let rt : Option OAuth2RefreshToken ← sql (.selectRefreshByAccess token)
          match rt with
          | none => return ()
          | some rt =>
            let _ ← sql (.revokeRefresh rt.token)
            return ()
        else return ())
      fun _ w' => Outcome env n db token revokedBy r w'.db.refreshTokens := by
  have noCascade : ¬ Cascades env n db token revokedBy r := fun c => refused c.audited
  refine (revokeAccess_sat w).bind ?_
  intro simple w₁ updated
  rcases updated with ⟨simple_iff, rows₁, tick₁⟩
  rw [tick] at simple_iff tick₁
  rw [rows] at rows₁
  cases simple with
  | false =>
      have unexecuted : ¬ (env (n + 3)).fault = false := fun third =>
        Bool.false_ne_true (simple_iff.mpr third)
      exact .inr (.inr ⟨noCascade, fun p => unexecuted p.third, rows₁⟩)
  | true =>
      have third := simple_iff.mp rfl
      refine (selectRefreshByAccess_sat w₁ (rows₁ ▸ stored) linked).bind ?_
      intro rt w₂ looked
      rcases looked with ⟨link, rows₂, tick₂⟩
      rw [rows₁, tick₁] at link
      rw [tick₁] at tick₂
      rw [rows₁] at rows₂
      rcases link with ⟨fourth, only, rfl⟩ | ⟨unread, rfl⟩
      · refine (revokeRefresh_sat w₂).mono ?_
        intro _ w' ended
        rw [tick₂] at ended
        rcases ended with ⟨fifth, rows'⟩ | ⟨fifth, rows'⟩
        · exact .inr (.inl ⟨⟨⟨accepted, there, only⟩, third, fourth, .inr ⟨refused, fifth⟩⟩,
            rows'.trans (revokeRefreshWhere_congr rows₂)⟩)
        · refine .inr (.inr ⟨noCascade, fun p => ?_, rows'.trans rows₂⟩)
          rcases p.branch with ⟨audited, -⟩ | ⟨-, executed⟩
          · exact refused audited
          · cases fifth.symm.trans executed
      · exact .inr (.inr ⟨noCascade, fun p => unread ⟨p.fourth, p.found.only⟩, rows₂⟩)

end Branches

theorem revokeAccessToken_sat (w : StoreWorld ι) (stored : r ∈ w.db.refreshTokens.rows)
    (linked : r.accessToken = token) :
    Prog.Sat (World.handler (exec env) i) w
      (PostgresTokenRepository.revokeAccessToken token revokedBy) fun _ w' =>
      Outcome env w.tick w.db token revokedBy r w'.db.refreshTokens := by
  refine (RefreshFailure.ask_sat .nowSeconds w).bind ?_
  intro now w₁ asked
  rcases asked with ⟨-, elapsed₁⟩
  refine (selectAccess_sat w₁).bind ?_
  intro found w₂ looked
  rcases looked with ⟨found_iff, elapsed₂⟩
  rw [elapsed₁.db, elapsed₁.tick] at found_iff
  have elapsed := elapsed₁.trans elapsed₂
  cases found with
  | none =>
      have absent : ∀ r', ¬ Found env w.tick w.db token r' := fun r' found =>
        Bool.false_ne_true (found_iff.mpr ⟨found.accepted, found.stored⟩)
      exact .inr (.inr ⟨fun c => absent _ c.found, fun p => absent _ p.found,
        congrArg Db.refreshTokens elapsed.db⟩)
  | some a =>
      obtain ⟨accepted, there⟩ := found_iff.mp rfl
      refine (revokeAccessAudited_sat now w₂ elapsed.tick).bind ?_
      intro audited w₃ updated
      rcases updated with ⟨audited_iff, rows, tick⟩
      rw [elapsed.db] at rows
      cases audited with
      | true => exact audited_sat stored linked accepted there w₃ rows tick (audited_iff.mp rfl)
      | false =>
          have refused : ¬ Audited env w.tick revokedBy := fun ok =>
            Bool.false_ne_true (audited_iff.mpr ok)
          exact fallback_sat stored linked accepted there w₃ rows tick refused

end Postgres

/-! ## The end of a grant -/

/-- No refresh token of the grant of `r` is good for a rotation from second `now` on. -/
def Over (tokens : TokenBackend) (db : Db) (now : Nat) (r : OAuth2RefreshToken) : Prop :=
  ∀ r' ∈ db.refreshTokens.rows, sameFamily r r' = true → ¬ Rotatable tokens db now r'.token

/-- Every refresh token of the grant that could be rotated before the call is among `sel`. -/
def LiveWithin (db : Db) (now : Nat) (r : OAuth2RefreshToken) (sel : OAuth2RefreshToken → Bool) :
    Prop :=
  ∀ r' ∈ db.refreshTokens.rows, sameFamily r r' = true → usable now r' = true → sel r' = true

theorem over_iff {tokens : TokenBackend} {db : Db} {now : Nat} {r : OAuth2RefreshToken} :
    Over tokens db now r ↔ LiveWithin db now r fun _ => false := by
  unfold Over LiveWithin
  refine forall₃_congr fun r' stored _ => ?_
  rw [rotatable_iff, Table.mem_rows_iff.mp stored]
  simp

/-- Revoking the refresh tokens `sel` selects ends the grant if the others were dead. -/
theorem over_of_updated {tokens : TokenBackend} {db after : Db} {now : Nat}
    {r : OAuth2RefreshToken} {sel : OAuth2RefreshToken → Bool}
    {f : OAuth2RefreshToken → OAuth2RefreshToken} {same : ∀ r', (f r').token = r'.token}
    (rows : after.refreshTokens = db.refreshTokens.updateWhere sel f same)
    (revoked : ∀ r', (f r').revoked = true) (family : ∀ r', (f r').familyId = r'.familyId) :
    Over tokens after now r ↔ LiveWithin db now r sel := by
  have kept : ∀ r', sameFamily r (if sel r' then f r' else r') = sameFamily r r' := by
    intro r'
    cases sel r' <;> simp [sameFamily, same, family]
  have alive : ∀ r', (usable now (if sel r' then f r' else r') = true → false = true) ↔
      (usable now r' = true → sel r' = true) := by
    intro r'
    cases sel r' <;> simp [usable, revoked]
  rw [over_iff, LiveWithin, rows]
  simp only [Table.updateWhere, Table.modify, List.forall_mem_map, kept, alive, LiveWithin]

theorem over_of_revoked {tokens : TokenBackend} {db after : Db} {now : Nat}
    {r : OAuth2RefreshToken} {sel : OAuth2RefreshToken → Bool}
    (rows : after.refreshTokens = (db.revokeRefreshWhere sel).refreshTokens) :
    Over tokens after now r ↔ LiveWithin db now r sel := by
  have rows' : after.refreshTokens = db.refreshTokens.updateWhere sel
      (fun r' => { r' with revoked := true }) fun _ => rfl := rows
  exact over_of_updated rows' (fun _ => rfl) fun _ => rfl

/-- When a revocation that starts at step `n` ends the grant of the linked refresh token
`r`: on memory if every live token of the grant is stored under the given name itself; on
Postgres if it goes through the family, or stops at `r` with nothing else of the grant
alive, or the grant was over before. -/
def Ends (tokens : TokenBackend) (env : Env) (n : Nat) (db : Db) (token revokedBy : String)
    (now : Nat) (r : OAuth2RefreshToken) : Prop :=
  match tokens with
  | .memory => LiveWithin db now r fun r' => r'.token = token
  | .postgres =>
    Cascades env n db token revokedBy r ∨
      (PairOnly env n db token revokedBy r ∧ LiveWithin db now r fun r' => r'.token = r.token) ∨
      LiveWithin db now r fun _ => false

theorem liveWithin_family {db : Db} {now : Nat} {r : OAuth2RefreshToken}
    (stored : r ∈ db.refreshTokens.rows) :
    LiveWithin db now r fun r' => r'.familyId = r.familyId := by
  intro r' stored' same _
  simp only [sameFamily, Bool.or_eq_true, Bool.and_eq_true, decide_eq_true_eq] at same ⊢
  rcases same with token | ⟨-, eq⟩
  · have found := Table.mem_rows_iff.mp stored'
    rw [token, Table.mem_rows_iff.mp stored] at found
    rw [Option.some.inj found]
  · exact eq

theorem LiveWithin.of_dead {db : Db} {now : Nat} {r : OAuth2RefreshToken}
    {sel : OAuth2RefreshToken → Bool} (dead : LiveWithin db now r fun _ => false) :
    LiveWithin db now r sel :=
  fun r' stored same alive => absurd (dead r' stored same alive) Bool.false_ne_true

theorem PairOnly.not_cascades {env : Env} {n : Nat} {db : Db} {token revokedBy : String}
    {r : OAuth2RefreshToken} (pair : PairOnly env n db token revokedBy r) :
    ¬ Cascades env n db token revokedBy r := by
  intro cascades
  rcases pair.branch with ⟨-, family⟩ | ⟨refused, -⟩
  · exact cascades.family family
  · exact refused cascades.audited

/-- For every state of either store, every access token with a linked refresh token and
every instant. -/
theorem revokeAccessToken_ends_grant_iff {ι : Type} (tokens : TokenBackend) (env : Env) (i : ι)
    (w : StoreWorld ι) (token revokedBy : String) (now : Nat) (r : OAuth2RefreshToken)
    (stored : r ∈ w.db.refreshTokens.rows) (linked : r.accessToken = token) :
    Over tokens ((tokens.repository.revokeAccessToken token revokedBy).run
        (World.handler (exec env) i) w).2.db now r ↔
      Ends tokens env w.tick w.db token revokedBy now r := by
  cases tokens with
  | memory =>
      have rows : ((TokenBackend.memory.repository.revokeAccessToken token revokedBy).run
          (World.handler (exec env) i) w).2.db.refreshTokens =
          w.db.refreshTokens.updateWhere (fun r' => r'.token = token)
            (fun r' => { r' with
              revoked := true, revokedAt := (env w.tick).seconds, revokedBy := revokedBy })
            fun _ => rfl := rfl
      exact over_of_updated rows (fun _ => rfl) fun _ => rfl
  | postgres =>
      have spec : Outcome env w.tick w.db token revokedBy r
          ((PostgresTokenRepository.revokeAccessToken token revokedBy).run
            (World.handler (exec env) i) w).2.db.refreshTokens :=
        revokeAccessToken_sat w stored linked
      rcases spec with ⟨cascades, rows⟩ | ⟨pair, rows⟩ | ⟨noCascade, noPair, rows⟩
      · refine iff_of_true ?_ (.inl cascades)
        exact (over_of_revoked rows).mpr (liveWithin_family stored)
      · refine (over_of_revoked rows).trans ⟨?_, ?_⟩
        · exact fun within => .inr (.inl ⟨pair, within⟩)
        · intro ends
          rcases ends with cascades | ⟨-, within⟩ | dead
          · exact absurd cascades pair.not_cascades
          · exact within
          · exact dead.of_dead
      · have unchanged : Over .postgres ((PostgresTokenRepository.revokeAccessToken token
            revokedBy).run (World.handler (exec env) i) w).2.db now r ↔
            LiveWithin w.db now r fun _ => false := by
          rw [over_iff, LiveWithin, rows]
          rfl
        refine unchanged.trans ⟨fun dead => .inr (.inr dead), ?_⟩
        intro ends
        rcases ends with cascades | ⟨pair, -⟩ | dead
        · exact absurd cascades noCascade
        · exact absurd pair noPair
        · exact dead

/-- A code is exchanged and its refresh token rotated, over Postgres. -/
def rotatedPostgres : StoreWorld (Fin 4) :=
  (runCalls (Sample.envAt 1000) (Sample.service.over .memory .postgres Sample.crypto)
    Reuse.rotationCalls Sample.db ((List.finRange 4).flatMap (List.replicate 8))).store

/-- The access token of the exchange is revoked after the rotation. -/
theorem revokeAccessToken_ends_grant_iff_rotated :
    Over .postgres ((TokenBackend.postgres.repository.revokeAccessToken (Sample.drawn 6) "app").run
      (World.handler (exec (Sample.envAt 1000)) 3) rotatedPostgres).2.db 1000
      Reuse.rotatedToken := by
  refine (revokeAccessToken_ends_grant_iff .postgres (Sample.envAt 1000) 3 rotatedPostgres
    (Sample.drawn 6) "app" 1000 Reuse.rotatedToken (by decide) rfl).mpr (.inl ?_)
  exact ⟨⟨rfl, by decide, by decide⟩, ⟨rfl, by decide⟩, by decide, rfl, rfl⟩

/-- On memory the rotated refresh token stays good. -/
theorem revoked_access_token_leaves_grant :
    Reuse.rotatedToken ∈ Reuse.rotatedWorld.db.refreshTokens.rows ∧
      Reuse.rotatedToken.accessToken = Sample.drawn 6 ∧
      ¬ Over .memory ((TokenBackend.memory.repository.revokeAccessToken (Sample.drawn 6) "app").run
        (World.handler (exec (Sample.envAt 1000)) 3) Reuse.rotatedWorld).2.db 1000
        Reuse.rotatedToken := by
  refine ⟨by decide, rfl, ?_⟩
  rw [over_iff]
  unfold LiveWithin
  decide

end Fulla.GrantEnd
