import Fulla.Protocol.Calls

/-!
# A refresh that fails

`refreshAccessToken` revokes the presented token before it knows whether it can
issue a new one: the owner of the token, the clock, the subject, the CSPRNG and
the insertion of the pair are all looked at after the compare-and-set, and
nothing takes the revocation back.

`Rotatable` says of the surroundings and the state before the call that none of
these will refuse, and `CasRefused` that the server refuses the first statement.
`failed_refresh_harmless_iff`: a failed refresh leaves the token alone, and its
retry is not taken for reuse, exactly in these two cases.
-/

namespace Fulla.RefreshFailure

open Conc

/-! ## What the surroundings answer -/

section Surroundings

variable (env : Env) (svc : TokenService) (crypto : CryptoProvider)

/-- The string `generateSecureToken` returns at step `n`. -/
def drawnAt (n : Nat) : String :=
  match (env n).random 32 with
  | none => ""
  | some bytes => crypto.base64UrlEncode bytes

/-- The subject of the new pair; `none` when a numeric one cannot be translated. -/
def subjectAt (n : Nat) (userId : String) : Option String :=
  if isNumeric userId = false then some userId
  else if svc.subjectNormalizer then ((env n).normalizeSubject userId).filter fun s => s ≠ ""
  else none

/-- The steps a translated subject has cost. -/
def subjectSteps (userId : String) : Nat :=
  if isNumeric userId then 1 else 0

/-- The steps the organisation context costs. -/
def orgSteps (orgId : Option Int) (scope : String) : Nat :=
  if orgId.isSome && (svc.orgContextResolver && scopeContains scope "org") then 1 else 0

end Surroundings

/-- The store takes the pair at moment `m`. -/
def Persists (tokens : TokenBackend) (m : Moment) (db : Db) (a : OAuth2AccessToken)
    (r : OAuth2RefreshToken) : Prop :=
  match tokens with
  | .memory => True
  | .postgres =>
    m.fault = false ∧ (Sql.accessFits db a && Sql.refreshFits db r) = true ∧
      db.accessTokens.find? a.token = none ∧ db.refreshTokens.find? r.token = none

/-- The server refuses the compare-and-set at moment `m`. -/
def CasRefused (tokens : TokenBackend) (m : Moment) : Prop :=
  tokens = .postgres ∧ m.fault = true

/-- Two strings drawn from step `k` on are a pair that the store takes. -/
def Issues (env : Env) (svc : TokenService) (tokens : TokenBackend) (crypto : CryptoProvider)
    (db : Db) (r : OAuth2RefreshToken) (now : Int) (subject : String) (k : Nat) : Prop :=
  drawnAt env crypto k ≠ "" ∧ drawnAt env crypto (k + 1) ≠ "" ∧
    Persists tokens (env (k + 2)) db
      (svc.newAccessToken crypto (drawnAt env crypto k) r.clientId subject r.scope r.orgId now)
      (svc.newRefreshToken crypto (drawnAt env crypto (k + 1)) (drawnAt env crypto k) r.clientId
        subject r.scope r.orgId r.familyId now)

/-- Whoever presents `r` from step `n` on is its client, in time, and everything a
rotation needs is there. -/
structure Rotatable (env : Env) (svc : TokenService) (tokens : TokenBackend)
    (crypto : CryptoProvider) (db : Db) (r : OAuth2RefreshToken) (clientId : String)
    (n : Nat) : Prop where
  owner : r.clientId = clientId
  unexpired : (env (n + 1)).seconds ≤ r.expiresAt
  issued : ∃ subject, subjectAt env svc (n + 2) r.userId = some subject ∧
    Issues env svc tokens crypto db r (env (n + 1)).seconds subject
      (n + 2 + subjectSteps r.userId + orgSteps svc r.orgId r.scope)

/-! ## The steps of a refresh -/

section Steps

variable {ι : Type} {env : Env} {i : ι} (svc : TokenService) (crypto : CryptoProvider)

/-- `n` steps later, with the same data. -/
structure Elapsed (n : Nat) (w w' : StoreWorld ι) : Prop where
  db : w'.db = w.db
  tick : w'.tick = w.tick + n

theorem Elapsed.refl (w : StoreWorld ι) : Elapsed 0 w w :=
  ⟨rfl, rfl⟩

theorem Elapsed.trans {n n' : Nat} {w w' w'' : StoreWorld ι} (first : Elapsed n w w')
    (second : Elapsed n' w' w'') : Elapsed (n + n') w w'' :=
  ⟨second.db.trans first.db, by rw [second.tick, first.tick, Nat.add_assoc]⟩

theorem ask_sat (o : EnvOp) (w : StoreWorld ι) :
    Prog.Sat (World.handler (exec env) i) w (ask o) fun a w' =>
      a = o.answer (env w.tick) ∧ Elapsed 1 w w' :=
  ⟨rfl, rfl, rfl⟩

theorem generateSecureToken_sat (w : StoreWorld ι) :
    Prog.Sat (World.handler (exec env) i) w (generateSecureToken crypto 32) fun a w' =>
      a = drawnAt env crypto w.tick ∧ Elapsed 1 w w' := by
  refine (ask_sat (.secureRandomBytes 32) w).bind ?_
  intro buffer w₁ answered
  rcases answered with ⟨rfl, elapsed⟩
  refine Prog.Sat.mono (Q := fun a w' => a = drawnAt env crypto w.tick ∧ w' = w₁) ?_ ?_
  · simp only [EnvOp.answer, drawnAt]
    cases (env w.tick).random 32 <;> exact ⟨rfl, rfl⟩
  · intro a w' eq
    rcases eq with ⟨rfl, rfl⟩
    exact ⟨rfl, elapsed⟩

theorem audit_sat (action outcome actorId targetType targetId : String) (w : StoreWorld ι) :
    Prog.Sat (World.handler (exec env) i) w
      (svc.audit action outcome actorId targetType targetId) fun _ w' => w'.db = w.db := by
  unfold TokenService.audit
  split
  · exact (ask_sat _ w).mono fun _ _ answered => answered.2.db
  · exact rfl

theorem normalizedSubject_sat (userId : String) (w : StoreWorld ι) :
    Prog.Sat (World.handler (exec env) i) w (svc.normalizedSubject userId) fun a w' =>
      a = subjectAt env svc w.tick userId ∧ w'.db = w.db ∧
        (a.isSome → Elapsed (subjectSteps userId) w w') := by
  have refuse (w₁ : StoreWorld ι) (same : w₁.db = w.db)
      (none_at : subjectAt env svc w.tick userId = none) :
      Prog.Sat (World.handler (exec env) i) w₁ (do
        svc.audit "refresh_subject_normalization_failed" "failure" userId "token" ""
        return none : StoreProg (Option String)) fun a w' =>
        a = subjectAt env svc w.tick userId ∧ w'.db = w.db ∧
          (a.isSome → Elapsed (subjectSteps userId) w w') := by
    refine (audit_sat svc _ _ _ _ _ w₁).bind ?_
    intro _ w₂ db
    refine ⟨none_at.symm, db.trans same, ?_⟩
    intro some_at
    cases some_at
  unfold TokenService.normalizedSubject
  split
  · next letters =>
      refine ⟨?_, rfl, fun _ => ?_⟩
      · simp only [subjectAt, letters, if_true]
        rfl
      · simp only [subjectSteps, letters]
        exact Elapsed.refl w
  · next digits =>
      have numeric : isNumeric userId = true := by simpa using digits
      split
      · next unwired =>
          refine refuse w rfl ?_
          simp [subjectAt, numeric, unwired]
      · next wired =>
          have normalizer : svc.subjectNormalizer = true := by simpa using wired
          refine (ask_sat (.normalizeSubject userId) w).bind ?_
          intro normalized w₁ answered
          rcases answered with ⟨eq, elapsed⟩
          have at_n : subjectAt env svc w.tick userId = normalized.filter fun s => s ≠ "" := by
            simp only [subjectAt, numeric, normalizer, eq, EnvOp.answer]
            simp
          cases normalized with
          | none => exact refuse w₁ elapsed.db at_n
          | some subject =>
              dsimp only
              split
              · next empty =>
                  refine refuse w₁ elapsed.db ?_
                  simp [at_n, empty]
              · next nonempty =>
                  have some_at : subjectAt env svc w.tick userId = some subject := by
                    rw [at_n, Option.filter_some]
                    simp [nonempty]
                  have steps : subjectSteps userId = 1 := by
                    rw [subjectSteps, if_pos numeric]
                  exact ⟨some_at.symm, elapsed.db, fun _ => steps ▸ elapsed⟩

theorem resolveOrgContextForClaims_sat (subject : String) (orgId : Option Int) (scope : String)
    (w : StoreWorld ι) :
    Prog.Sat (World.handler (exec env) i) w (svc.resolveOrgContextForClaims subject orgId scope)
      fun _ w' => Elapsed (orgSteps svc orgId scope) w w' := by
  unfold TokenService.resolveOrgContextForClaims
  cases orgId with
  | none => exact Elapsed.refl w
  | some id =>
      dsimp only
      split
      · next asked =>
          refine (ask_sat _ w).mono fun _ w' answered => ?_
          simpa only [orgSteps, Option.isSome_some, Bool.true_and, asked, if_true] using answered.2
      · next silent =>
          have off : (svc.orgContextResolver && scopeContains scope "org") = false := by
            simpa using silent
          simp only [orgSteps, Option.isSome_some, Bool.true_and, off]
          exact Elapsed.refl w

/-! ### The two writes -/

variable (tokens : TokenBackend)

/-- What a pair is inserted into does not depend on which tokens are revoked. -/
theorem persists_revokeRefreshWhere {m : Moment} {db : Db} {sel : OAuth2RefreshToken → Bool}
    {a : OAuth2AccessToken} {r : OAuth2RefreshToken} :
    Persists tokens m (db.revokeRefreshWhere sel) a r ↔ Persists tokens m db a r := by
  cases tokens with
  | memory => exact Iff.rfl
  | postgres =>
      simp only [Persists, Db.revokeRefreshWhere, Table.find?_updateWhere, Option.map_eq_none_iff]
      exact Iff.rfl

theorem insertTokenPair_true_iff {m : Moment} {a : OAuth2AccessToken} {r : OAuth2RefreshToken}
    {db : Db} :
    (Sql.insertTokenPair m a r db).1 = true ↔
      (Sql.accessFits db a && Sql.refreshFits db r) = true ∧
        db.accessTokens.find? a.token = none ∧ db.refreshTokens.find? r.token = none := by
  have access : (Sql.accessRow m a).token = a.token := rfl
  have refresh : (Sql.refreshRow r).token = r.token := rfl
  unfold Sql.insertTokenPair
  split
  · next fits =>
      simp only [fits, true_and]
      cases foundA : db.accessTokens.find? a.token with
      | some _ => simp [Table.insertNew, access, foundA]
      | none =>
          cases foundR : db.refreshTokens.find? r.token with
          | some _ => simp [Table.insertNew, access, refresh, foundA, foundR]
          | none => simp [Table.insertNew, access, refresh, foundA, foundR]
  · next unfit => simp [unfit]

theorem saveTokenPair_sat (a : OAuth2AccessToken) (r : OAuth2RefreshToken) (w : StoreWorld ι) :
    Prog.Sat (World.handler (exec env) i) w (tokens.repository.saveTokenPair a r) fun ok w' =>
      (ok = true ↔ Persists tokens (env w.tick) w.db a r) ∧ (ok = false → w'.db = w.db) := by
  cases tokens with
  | memory => exact ⟨iff_of_true rfl trivial, fun failed => nomatch failed⟩
  | postgres =>
      let o : SqlOp := .insertTokenPair a r
      have answer : (o.exec (env w.tick) w.db).1 = true ↔
          Persists .postgres (env w.tick) w.db a r := by
        cases fault : (env w.tick).fault with
        | true =>
            rw [SqlOp.exec_of_fault fault]
            exact iff_of_false (fun bad => nomatch bad) fun persists =>
              nomatch fault.symm.trans persists.1
        | false =>
            rw [SqlOp.exec_of_ok (by simp [fault])]
            exact insertTokenPair_true_iff.trans ⟨fun fits => ⟨fault, fits⟩, fun fits => fits.2⟩
      have unchanged : (o.exec (env w.tick) w.db).1 = false →
          (o.exec (env w.tick) w.db).2 = w.db := by
        intro failed
        rcases SqlOp.insertTokenPair_cases (env w.tick) a r w.db with same | ⟨db', eq, -⟩
        · exact congrArg Prod.snd same
        · exact nomatch failed.symm.trans (congrArg Prod.fst eq)
      exact ⟨answer, unchanged⟩

/-- After the insertion no error is answered. -/
theorem withIdToken_sat (userId scope : String) (claims : Json) (json : TokenJson)
    (w : StoreWorld ι) :
    Prog.Sat (World.handler (exec env) i) w
      (do return .ofAnswer (← svc.withIdToken userId scope claims json) : StoreProg TokenResponse)
      fun response _ => ∃ answer, response = .ofAnswer answer := by
  rw [Prog.sat_bind]
  exact ⟨_, rfl⟩

/-- The answer to a token that is taken for a reused one. -/
def reuseDetected : TokenResponse :=
  makeError "invalid_grant" "Token reuse detected"

/-- An error, other than that of a detected reuse. -/
def Refuses (response : TokenResponse) : Prop :=
  (∃ error desc, response = .error error desc) ∧ response ≠ reuseDetected

theorem Refuses.of_desc {error desc : String} (other : desc ≠ "Token reuse detected") :
    Refuses (makeError error desc) := by
  refine ⟨⟨_, _, rfl⟩, fun eq => other ?_⟩
  injection eq

/-- Tokens when the pair can be issued, an error and unchanged data otherwise. -/
theorem rotate_sat (r : OAuth2RefreshToken) (now : Int) (subject : String) (w : StoreWorld ι) :
    Prog.Sat (World.handler (exec env) i) w
      (svc.rotate tokens.repository crypto r now subject) fun response w' =>
        (Issues env svc tokens crypto w.db r now subject (w.tick + orgSteps svc r.orgId r.scope) ∧
            ∃ answer, response = .ofAnswer answer) ∨
          (¬ Issues env svc tokens crypto w.db r now subject
              (w.tick + orgSteps svc r.orgId r.scope) ∧
            Refuses response ∧ w'.db = w.db) := by
  unfold TokenService.rotate
  refine (resolveOrgContextForClaims_sat svc subject r.orgId r.scope w).bind ?_
  intro orgCtx w₁ org
  refine (generateSecureToken_sat crypto w₁).bind ?_
  intro newToken w₂ drawn
  rcases drawn with ⟨rfl, first⟩
  refine (generateSecureToken_sat crypto w₂).bind ?_
  intro newRefreshToken w₃ drawn
  rcases drawn with ⟨rfl, second⟩
  have all := org.trans (first.trans second)
  rw [first.tick, org.tick]
  split
  · next failed =>
      refine .inr ⟨?_, .of_desc (by decide), all.db⟩
      intro issues
      exact failed.elim issues.1 issues.2.1
  · next nonempty =>
      rw [not_or] at nonempty
      refine (saveTokenPair_sat tokens _ _ w₃).bind ?_
      intro ok w₄ saved
      rcases saved with ⟨iff, unchanged⟩
      rw [all.tick, all.db, ← Nat.add_assoc] at iff
      split
      · next failed =>
          refine .inr ⟨?_, .of_desc (by decide), (unchanged failed).trans all.db⟩
          intro issues
          exact nomatch failed.symm.trans (iff.mpr issues.2.2)
      · next stored =>
          have persists := iff.mp (by simpa using stored)
          refine (audit_sat svc _ _ _ _ _ w₄).bind ?_
          intro _ w₅ _
          exact (withIdToken_sat svc _ _ _ _ w₅).mono fun response _ answered =>
            .inl ⟨⟨nonempty.1, nonempty.2, persists⟩, answered⟩

/-! ### The whole call -/

variable {hashed : String} {r : OAuth2RefreshToken} {w : StoreWorld ι}

theorem atomicRevokeRefreshToken_sat (stored : w.db.refreshTokens.find? hashed = some r)
    (live : r.revoked = false) :
    Prog.Sat (World.handler (exec env) i) w (tokens.repository.atomicRevokeRefreshToken hashed)
      fun answer w' =>
        (CasRefused tokens (env w.tick) ∧ answer = none ∧ w'.db = w.db) ∨
          (¬ CasRefused tokens (env w.tick) ∧ w'.tick = w.tick + 1 ∧
            (w'.db = w.db.revokeRefreshWhere fun x => x.token = hashed) ∧
            ∃ r', answer = some r' ∧ r'.identity = r.identity) := by
  cases tokens with
  | memory =>
      have cas : MemoryTokenRepository.atomicRevokeRefreshToken hashed w.db =
          (some { r with revoked := true }, w.db.revokeRefreshWhere fun x => x.token = hashed) := by
        simp [MemoryTokenRepository.atomicRevokeRefreshToken, stored, live]
      refine .inr ⟨fun refused => (by cases refused.1), rfl, congrArg Prod.snd cas, ?_⟩
      exact ⟨_, congrArg Prod.fst cas, rfl⟩
  | postgres =>
      let o : SqlOp := .casRevokeRefresh hashed
      by_cases fault : (env w.tick).fault = true
      · have refused : o.exec (env w.tick) w.db = (none, w.db) := SqlOp.exec_of_fault fault
        exact .inl ⟨⟨rfl, fault⟩, congrArg Prod.fst refused, congrArg Prod.snd refused⟩
      · have cas : o.exec (env w.tick) w.db =
            (some { Sql.refreshRow r with revoked := true },
              w.db.revokeRefreshWhere fun x => x.token = hashed) := by
          rw [SqlOp.exec_of_ok fault]
          simp [o, SqlOp.effect, Sql.casRevokeRefresh, stored, live]
        refine .inr ⟨fun refused => fault refused.2, rfl, congrArg Prod.snd cas, ?_⟩
        exact ⟨_, congrArg Prod.fst cas, rfl⟩

/-- The look-up for reuse finds an unrevoked token, or nothing. -/
theorem getRefreshToken_sat (stored : w.db.refreshTokens.find? hashed = some r)
    (live : r.revoked = false) :
    Prog.Sat (World.handler (exec env) i) w (tokens.repository.getRefreshToken hashed)
      fun answer w' => (∀ r' ∈ answer, r'.revoked = false) ∧ w'.db = w.db := by
  cases tokens with
  | memory =>
      have eq : ∃ answer : Option OAuth2RefreshToken, (∀ r' ∈ answer, r'.revoked = false) ∧
          MemoryTokenRepository.getRefreshToken (env w.tick) hashed w.db = (answer, w.db) := by
        simp only [MemoryTokenRepository.getRefreshToken, stored]
        split
        · exact ⟨some r, fun r' mem => Option.some.inj mem ▸ live, rfl⟩
        · exact ⟨none, fun r' mem => (by cases mem), rfl⟩
      obtain ⟨answer, unrevoked, eq⟩ := eq
      refine ⟨?_, congrArg Prod.snd eq⟩
      have fst := congrArg Prod.fst eq
      exact fst ▸ unrevoked
  | postgres =>
      let o : SqlOp := .selectRefresh hashed
      have first : Prog.Sat (World.handler (exec env) i) w (sql o)
          fun answer w' => (∀ r' ∈ answer, r'.revoked = false) ∧ w'.db = w.db := by
        by_cases fault : (env w.tick).fault = true
        · have refused : o.exec (env w.tick) w.db = (none, w.db) := SqlOp.exec_of_fault fault
          have fst : (o.exec (env w.tick) w.db).1 = none := congrArg Prod.fst refused
          refine ⟨?_, congrArg Prod.snd refused⟩
          intro r' mem
          cases fst.symm.trans mem
        · have found : o.exec (env w.tick) w.db = (some r, w.db) := by
            rw [SqlOp.exec_of_ok fault]
            simp [o, SqlOp.effect, Sql.selectRefresh, stored]
          have fst : (o.exec (env w.tick) w.db).1 = some r := congrArg Prod.fst found
          refine ⟨?_, congrArg Prod.snd found⟩
          intro r' mem
          have eq : r = r' := Option.some.inj (fst.symm.trans mem)
          exact eq ▸ live
      refine first.bind ?_
      intro row w₁ answered
      rcases answered with ⟨unrevoked, db⟩
      refine ⟨?_, db⟩
      intro r' mem
      obtain ⟨r₀, mem₀, rfl⟩ := Option.map_eq_some_iff.mp mem
      exact unrevoked r₀ mem₀

theorem refuseRefresh_sat (stored : w.db.refreshTokens.find? hashed = some r)
    (live : r.revoked = false) :
    Prog.Sat (World.handler (exec env) i) w (svc.refuseRefresh tokens.repository hashed)
      fun response w' => Refuses response ∧ w'.db = w.db := by
  unfold TokenService.refuseRefresh
  refine (getRefreshToken_sat tokens stored live).bind ?_
  intro maybeRevoked w₁ answered
  rcases answered with ⟨unrevoked, db⟩
  cases maybeRevoked with
  | none => exact ⟨.of_desc (by decide), db⟩
  | some rt =>
      have flag : rt.revoked = false := unrevoked rt rfl
      simp only [flag, Bool.false_eq_true, false_and, if_false]
      exact ⟨.of_desc (by decide), db⟩

/-- Once the owner, the clock and the subject have passed, only the pair is left. -/
theorem issues_iff_rotatable {svc : TokenService} {crypto : CryptoProvider}
    {tokens : TokenBackend} {db : Db} {clientId subject : String} {n : Nat}
    (owner : r.clientId = clientId) (inTime : (env (n + 1)).seconds ≤ r.expiresAt)
    (at_n : subjectAt env svc (n + 2) r.userId = some subject) :
    Issues env svc tokens crypto db r (env (n + 1)).seconds subject
        (n + 2 + subjectSteps r.userId + orgSteps svc r.orgId r.scope) ↔
      Rotatable env svc tokens crypto db r clientId n := by
  constructor
  · intro issues
    exact ⟨owner, inTime, subject, at_n, issues⟩
  · intro rotatable
    obtain ⟨other, at_n', issues⟩ := rotatable.issued
    cases Option.some.inj (at_n.symm.trans at_n')
    exact issues

variable {raw : String}

/-- What becomes of an unrevoked token that is presented. -/
theorem refreshAccessToken_sat (env : Env) (i : ι) (grants : GrantBackend) (clientId : String)
    (stored : w.db.refreshTokens.find? (hashToken crypto raw) = some r)
    (live : r.revoked = false) :
    Prog.Sat (World.handler (exec env) i) w
      ((svc.over grants tokens crypto).refreshAccessToken raw clientId) fun response w' =>
        (CasRefused tokens (env w.tick) ∧ Refuses response ∧ w'.db = w.db) ∨
          (Rotatable env svc tokens crypto w.db r clientId w.tick ∧
            ∃ answer, response = .ofAnswer answer) ∨
          (¬ CasRefused tokens (env w.tick) ∧
            ¬ Rotatable env svc tokens crypto w.db r clientId w.tick ∧ Refuses response ∧
            w'.db = w.db.revokeRefreshWhere fun x => x.token = hashToken crypto raw) := by
  refine (atomicRevokeRefreshToken_sat tokens stored live).bind ?_
  intro answer w₁ cas
  rcases cas with ⟨refused, rfl, db⟩ | ⟨executed, tick, db, r', rfl, identity⟩
  · have stored₁ : w₁.db.refreshTokens.find? (hashToken crypto raw) = some r := db ▸ stored
    exact (refuseRefresh_sat (svc.over grants tokens crypto) tokens stored₁ live).mono
      fun response w' answered => .inl ⟨refused, answered.1, answered.2.trans db⟩
  · obtain ⟨-, -, clientEq, userEq, scopeEq, expiresEq, familyEq, orgEq⟩ :=
      OAuth2RefreshToken.identity_eq_iff.mp identity
    dsimp only
    split
    · next other =>
        refine .inr (.inr ⟨executed, ?_, .of_desc (by decide), db⟩)
        intro rotatable
        exact other (clientEq.trans rotatable.owner)
    · next own =>
        have owner : r.clientId = clientId := clientEq.symm.trans (not_not.mp own)
        refine (ask_sat .nowSeconds w₁).bind ?_
        intro now w₂ clock
        rcases clock with ⟨rfl, elapsed⟩
        have nowEq : EnvOp.nowSeconds.answer (env w₁.tick) = (env (w.tick + 1)).seconds := by
          rw [tick]
          rfl
        rw [nowEq]
        split
        · next expired =>
            refine .inr (.inr ⟨executed, ?_, .of_desc (by decide), elapsed.db.trans db⟩)
            intro rotatable
            rw [expiresEq] at expired
            exact absurd rotatable.unexpired (Int.not_le.mpr expired)
        · next late =>
            rw [expiresEq] at late
            have inTime : (env (w.tick + 1)).seconds ≤ r.expiresAt := Int.not_lt.mp late
            have tick₂ : w₂.tick = w.tick + 2 := by
              rw [elapsed.tick, tick]
            refine (normalizedSubject_sat (svc.over grants tokens crypto) r'.userId w₂).bind ?_
            intro subject w₃ normalized
            rcases normalized with ⟨at_n, db₃, steps⟩
            rw [tick₂, userEq] at at_n
            cases subject with
            | none =>
                refine .inr (.inr ⟨executed, ?_, .of_desc (by decide), ?_⟩)
                · intro rotatable
                  obtain ⟨subject, some_at, -⟩ := rotatable.issued
                  exact nomatch at_n.trans some_at
                · exact db₃.trans (elapsed.db.trans db)
            | some subject =>
                have tick₃ : w₃.tick = w.tick + 2 + subjectSteps r.userId := by
                  rw [(steps rfl).tick, tick₂, userEq]
                have db' :
                    w₃.db = w.db.revokeRefreshWhere fun x => x.token = hashToken crypto raw :=
                  db₃.trans (elapsed.db.trans db)
                have issues : Issues env (svc.over grants tokens crypto) tokens crypto w₃.db r'
                    (env (w.tick + 1)).seconds subject
                    (w₃.tick + orgSteps (svc.over grants tokens crypto) r'.orgId r'.scope) ↔
                    Rotatable env svc tokens crypto w.db r clientId w.tick := by
                  rw [Issues, db', persists_revokeRefreshWhere, tick₃, clientEq, scopeEq, orgEq,
                    familyEq]
                  have at_svc : subjectAt env svc (w.tick + 2) r.userId = some subject := at_n.symm
                  exact issues_iff_rotatable owner inTime at_svc
                refine (rotate_sat (svc.over grants tokens crypto) crypto tokens r' _ subject
                  w₃).mono ?_
                intro response w' answered
                rw [issues] at answered
                rcases answered with ⟨rotatable, answer⟩ | ⟨stuck, refuses, db₄⟩
                · exact .inr (.inl ⟨rotatable, answer⟩)
                · exact .inr (.inr ⟨executed, stuck, refuses, db₄.trans db'⟩)

end Steps

/-! ## Failures and the retry -/

section Failures

variable {ι : Type}

/-- If the call answers an error, the token is unrevoked afterwards, and whenever
its own client tries again this is not taken for reuse. -/
def Harmless (env : Env) (svc : TokenService) (crypto : CryptoProvider) (i : ι)
    (w : StoreWorld ι) (raw clientId ownerId : String) : Prop :=
  let out := (svc.refreshAccessToken raw clientId).run (World.handler (exec env) i) w
  (∃ error desc, out.1 = .error error desc) →
    (∃ r, out.2.db.refreshTokens.find? (hashToken crypto raw) = some r ∧ r.revoked = false) ∧
      ∀ later : Env, ((svc.refreshAccessToken raw ownerId).run (World.handler (exec later) i)
        out.2).1 ≠ reuseDetected

/-- From any state and whatever the collaborators answer: presenting an unrevoked
token is harmless exactly when the server refuses the compare-and-set, or when
nothing that is looked at after it refuses. -/
theorem failed_refresh_harmless_iff (env : Env) (svc : TokenService) (grants : GrantBackend)
    (tokens : TokenBackend) (crypto : CryptoProvider) (i : ι) (w : StoreWorld ι)
    (raw clientId : String) (r : OAuth2RefreshToken)
    (stored : w.db.refreshTokens.find? (hashToken crypto raw) = some r)
    (live : r.revoked = false) :
    Harmless env (svc.over grants tokens crypto) crypto i w raw clientId r.clientId ↔
      CasRefused tokens (env w.tick) ∨
        Rotatable env svc tokens crypto w.db r clientId w.tick := by
  have spec := refreshAccessToken_sat svc crypto tokens env i grants clientId stored live
  rcases spec with ⟨refused, -, db⟩ | ⟨rotatable, answer, given⟩ | ⟨executed, stuck, error, db⟩
  · refine iff_of_true ?_ (.inl refused)
    intro _
    have stored' := db ▸ stored
    refine ⟨⟨r, stored', live⟩, fun later => ?_⟩
    have retry := refreshAccessToken_sat svc crypto tokens later i grants r.clientId stored' live
    rcases retry with ⟨-, refuses, -⟩ | ⟨-, answer, eq⟩ | ⟨-, -, refuses, -⟩
    · exact refuses.2
    · exact fun bad => TokenResponse.ofAnswer_ne_error (eq.symm.trans bad)
    · exact refuses.2
  · refine iff_of_true ?_ (.inr rotatable)
    intro answered
    rcases answered with ⟨_, _, eq⟩
    exact absurd (given.symm.trans eq) TokenResponse.ofAnswer_ne_error
  · refine iff_of_false ?_ (fun either => either.elim executed stuck)
    intro harmless
    obtain ⟨⟨r', found, unrevoked⟩, -⟩ := harmless error.1
    rw [db, Db.revokeRefreshWhere, Table.find?_updateWhere, stored] at found
    have key : r.token = hashToken crypto raw := Table.find?_key stored
    simp only [Option.map_some, key, decide_true, if_true, Option.some.injEq] at found
    rw [← found] at unrevoked
    cases unrevoked

/-- A code is exchanged over Postgres for the refresh token that is presented. -/
def exchangedWorld : StoreWorld (Fin 2) :=
  (runCalls (Sample.envAt 1000) (Sample.service.over .postgres .postgres Sample.crypto)
    (fun
      | 0 => .generateAuthorizationCode "app" "alice" "openid" "" "" "" "" 0 "" none
      | 1 => .exchangeCodeForToken (Sample.drawn 0) "app" "" "" "")
    Sample.db [0, 0, 0, 1, 1, 1, 1, 1, 1, 1]).store

/-- The refresh token of the exchange. -/
def exchangedToken : OAuth2RefreshToken :=
  { token := Sample.drawn 7, accessToken := Sample.drawn 6, clientId := "app"
    userId := "alice", scope := "openid", expiresAt := 87400, familyId := Sample.drawn 8 }

/-- Another client presents the token and is answered `Client mismatch`; when its
own client then uses it, this is taken for reuse. -/
theorem mismatch_destroys_session :
    exchangedWorld.db.refreshTokens.find? (hashToken Sample.crypto (Sample.drawn 7)) =
        some exchangedToken ∧
      exchangedToken.revoked = false ∧ (1000 : Int) < exchangedToken.expiresAt ∧
      ¬ Harmless (Sample.envAt 1000) (Sample.service.over .postgres .postgres Sample.crypto)
        Sample.crypto 1 exchangedWorld (Sample.drawn 7) "other" exchangedToken.clientId := by
  refine ⟨by decide, rfl, by decide, fun harmless => ?_⟩
  have answered := harmless ⟨"invalid_grant", "Client mismatch", by decide⟩
  exact answered.2 (Sample.envAt 1000) (by decide)

theorem failed_refresh_harmless_iff_exchanged :
    Harmless (Sample.envAt 1000) (Sample.service.over .postgres .postgres Sample.crypto)
        Sample.crypto 1 exchangedWorld (Sample.drawn 7) "other" exchangedToken.clientId ↔
      CasRefused .postgres (Sample.envAt 1000 exchangedWorld.tick) ∨
        Rotatable (Sample.envAt 1000) Sample.service .postgres Sample.crypto exchangedWorld.db
          exchangedToken "other" exchangedWorld.tick :=
  failed_refresh_harmless_iff (Sample.envAt 1000) Sample.service .postgres .postgres Sample.crypto 1
    exchangedWorld (Sample.drawn 7) "other" exchangedToken (by decide) rfl

end Failures

end Fulla.RefreshFailure
