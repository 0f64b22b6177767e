import Fulla.Protocol.Calls

/-!
# Rotation has a single winner

Any number of calls of the token service run in any interleaving over the memory
or the Postgres token repository, from a store without tokens.  If the strings of
the CSPRNG never collide, not even after hashing, then in every state reached
every refresh token has been rotated by at most one call, and every family holds
at most one unrevoked refresh token (`rotation_single_winner`).

The invariant has to speak about calls that stand between two of their steps.  A
thread carries a ghost value (`Ghost`): the draws of the CSPRNG it has not stored
yet, and whether it has won the compare-and-set of a refresh token and still owes
the family its successor.  While it owes one, the family has no unrevoked token.
-/

namespace Fulla.Rotation

open Conc

variable {ι : Type} {env : Env} {crypto : CryptoProvider}

/-- `s` is the text of the bytes the CSPRNG gave in step `n`. -/
def Drawn (env : Env) (crypto : CryptoProvider) (n : Nat) (s : String) : Prop :=
  ∃ length bytes, (env n).random length = some bytes ∧ s = crypto.base64UrlEncode bytes

/-- Strings drawn in different steps differ, and so do their hashes. -/
def Fresh (env : Env) (crypto : CryptoProvider) : Prop :=
  ∀ m n s s', Drawn env crypto m s → Drawn env crypto n s' →
    hashToken crypto s = hashToken crypto s' → m = n

/-- The event is the saving of a successor of the refresh token stored as `t`. -/
def rotates (crypto : CryptoProvider) (calls : ι → Call) (t : String) (e : StoreEvent ι) : Bool :=
  match calls e.thread with
  | .refreshAccessToken raw _ => decide (hashToken crypto raw = t) && (savedBy e).isSome
  | _ => false

/-- The successors of `t` saved so far. -/
def rotations (crypto : CryptoProvider) (calls : ι → Call) (t : String)
    (log : List (StoreEvent ι)) : List (StoreEvent ι) :=
  log.filter (rotates crypto calls t)

/-! ## Ghost values -/

/-- How far a call has come with the refresh token it presented. -/
inductive Role where
  | idle
  /-- It has revoked `token`; the family awaits the successor. -/
  | won (token family : String)
  /-- It has saved the successor. -/
  | saved (token : String)

/-- The refresh token that the call has taken out, if it has. -/
def Role.token? : Role → Option String
  | idle => none
  | won t _ => some t
  | saved t => some t

/-- What a call holds between its steps. -/
structure Ghost where
  /-- The steps whose strings the call has drawn and not stored. -/
  drawn : List Nat := []
  role : Role := .idle

/-- `s` was drawn, and no call holds it back. -/
def Settled (env : Env) (crypto : CryptoProvider) (w : StoreWorld ι) (γ : ι → Ghost)
    (s : String) : Prop :=
  ∃ n, n < w.tick ∧ Drawn env crypto n s ∧ ∀ i, n ∉ (γ i).drawn

/-- The shared invariant of all calls. -/
structure Inv (env : Env) (crypto : CryptoProvider) (calls : ι → Call) (w : StoreWorld ι)
    (γ : ι → Ghost) : Prop where
  keys : ∀ k r, w.db.refreshTokens.find? k = some r →
    ∃ s, Settled env crypto w γ s ∧ hashToken crypto s = k
  families : ∀ k r, w.db.refreshTokens.find? k = some r → Settled env crypto w γ r.familyId
  single : ∀ k k' r r', w.db.refreshTokens.find? k = some r →
    w.db.refreshTokens.find? k' = some r' → r.familyId = r'.familyId →
    r.revoked = false → r'.revoked = false → k = k'
  past : ∀ i, ∀ n ∈ (γ i).drawn, n < w.tick
  apart : ∀ i j n, n ∈ (γ i).drawn → n ∈ (γ j).drawn → i = j
  /-- Whoever owes a family its successor is alone in that, and nothing lives there. -/
  owner : ∀ i t f, (γ i).role = .won t f →
    Settled env crypto w γ f ∧
      (∀ k r, w.db.refreshTokens.find? k = some r → r.familyId = f → r.revoked = true) ∧
      ∀ j t', (γ j).role = .won t' f → j = i
  /-- Whoever has revoked a token is alone in that, and the token stays revoked. -/
  winner : ∀ i t, (γ i).role.token? = some t →
    (∃ s, Settled env crypto w γ s ∧ hashToken crypto s = t) ∧
      (∀ r, w.db.refreshTokens.find? t = some r → r.revoked = true) ∧
      ∀ j, (γ j).role.token? = some t → j = i
  log : ∀ t, (rotations crypto calls t w.log).length ≤ 1 ∧
    (rotations crypto calls t w.log ≠ [] → ∃ i, (γ i).role = .saved t)

/-! ## Steps -/

section Steps

variable {calls : ι → Call} {w w' : StoreWorld ι} {γ : ι → Ghost} {i : ι} {e : StoreEvent ι}

theorem rotations_of_unsaved {t : String} {log : List (StoreEvent ι)} (unsaved : savedBy e = none) :
    rotations crypto calls t (e :: log) = rotations crypto calls t log := by
  have no : rotates crypto calls t e = false := by
    unfold rotates
    split <;> simp [unsaved]
  simp [rotations, no]

theorem Settled.mono {s : String} (settled : Settled env crypto w γ s) (tick : w.tick ≤ w'.tick) :
    Settled env crypto w' γ s := by
  obtain ⟨n, past, drawn, free⟩ := settled
  exact ⟨n, Nat.lt_of_lt_of_le past tick, drawn, free⟩

/-- A step that only ages the tokens needs no new ghost value. -/
theorem Inv.frame (inv : Inv env crypto calls w γ) (decays : w.db.Decays w'.db)
    (step : World.Stepped i e w w') (unsaved : savedBy e = none) : Inv env crypto calls w' γ := by
  have tick : w.tick ≤ w'.tick := by
    rw [step.tick]
    exact Nat.le_succ _
  constructor
  case keys =>
    intro k r' found'
    obtain ⟨r, found, aged⟩ := decays.refresh k r' found'
    obtain ⟨s, settled, eq⟩ := inv.keys k r found
    exact ⟨s, settled.mono tick, eq⟩
  case families =>
    intro k r' found'
    obtain ⟨r, found, aged⟩ := decays.refresh k r' found'
    rw [OAuth2RefreshToken.familyId_of_identity aged.identity]
    exact (inv.families k r found).mono tick
  case single =>
    intro k k₂ r' r₂' found' found₂' same live live₂
    obtain ⟨r, found, aged⟩ := decays.refresh k r' found'
    obtain ⟨r₂, found₂, aged₂⟩ := decays.refresh k₂ r₂' found₂'
    rw [OAuth2RefreshToken.familyId_of_identity aged.identity,
      OAuth2RefreshToken.familyId_of_identity aged₂.identity] at same
    exact inv.single k k₂ r r₂ found found₂ same (aged.unrevoked live) (aged₂.unrevoked live₂)
  case past =>
    intro j n mem
    exact Nat.lt_of_lt_of_le (inv.past j n mem) tick
  case apart => exact inv.apart
  case owner =>
    intro j t f owns
    obtain ⟨settled, dead, alone⟩ := inv.owner j t f owns
    refine ⟨settled.mono tick, fun k r' found' same => ?_, alone⟩
    obtain ⟨r, found, aged⟩ := decays.refresh k r' found'
    rw [OAuth2RefreshToken.familyId_of_identity aged.identity] at same
    exact aged.revoked (dead k r found same)
  case winner =>
    intro j t wins
    obtain ⟨⟨s, settled, eq⟩, dead, alone⟩ := inv.winner j t wins
    refine ⟨⟨s, settled.mono tick, eq⟩, fun r' found' => ?_, alone⟩
    obtain ⟨r, found, aged⟩ := decays.refresh t r' found'
    exact aged.revoked (dead r found)
  case log =>
    intro t
    rw [step.log, rotations_of_unsaved unsaved]
    exact inv.log t

/-- A string in a call's hands is not one that is settled. -/
theorem not_settled_of_held (fresh : Fresh env crypto) {n : Nat} {s s' : String}
    (held : n ∈ (γ i).drawn) (drawn : Drawn env crypto n s)
    (settled : Settled env crypto w γ s') : hashToken crypto s ≠ hashToken crypto s' := by
  intro same
  obtain ⟨m, -, drawn', free⟩ := settled
  have eq : n = m := fresh n m s s' drawn drawn' same
  exact free i (eq ▸ held)

variable [DecidableEq ι]

/-- A call draws a string: the current step is one nobody has drawn in before. -/
theorem Inv.draw (inv : Inv env crypto calls w γ) (step : World.Stepped i e w w')
    (unsaved : savedBy e = none) (db : w'.db = w.db) :
    Inv env crypto calls w'
      (Function.update γ i { γ i with drawn := w.tick :: (γ i).drawn }) := by
  have framed : Inv env crypto calls w' γ := inv.frame (db ▸ .refl) step unsaved
  have role : ∀ j, (Function.update γ i { γ i with drawn := w.tick :: (γ i).drawn } j).role =
      (γ j).role := by
    intro j
    by_cases eq : j = i
    · subst eq
      simp
    · simp [eq]
  have drawn : ∀ j n,
      n ∈ (Function.update γ i { γ i with drawn := w.tick :: (γ i).drawn } j).drawn →
        n = w.tick ∧ j = i ∨ n ∈ (γ j).drawn := by
    intro j n mem
    by_cases eq : j = i
    · subst eq
      rw [Function.update_self] at mem
      rcases List.mem_cons.mp mem with now | before
      · exact Or.inl ⟨now, rfl⟩
      · exact Or.inr before
    · rw [Function.update_of_ne eq] at mem
      exact Or.inr mem
  -- What was settled before the step stays so: it was drawn at an earlier tick.
  have settle : ∀ s, Settled env crypto w γ s → Settled env crypto w'
      (Function.update γ i { γ i with drawn := w.tick :: (γ i).drawn }) s := by
    intro s drawn
    rcases drawn with ⟨n, past, isDrawn, free⟩
    refine ⟨n, by rw [step.tick]; omega, isDrawn, fun j mem => ?_⟩
    rcases drawn j n mem with ⟨now, -⟩ | before
    · omega
    · exact free j before
  constructor
  case keys =>
    intro k r found
    obtain ⟨s, settled, eq⟩ := inv.keys k r (db ▸ found)
    exact ⟨s, settle s settled, eq⟩
  case families => exact fun k r found => settle _ (inv.families k r (db ▸ found))
  case single => exact framed.single
  case past =>
    intro j n mem
    rw [step.tick]
    rcases drawn j n mem with ⟨now, -⟩ | before
    · omega
    · exact Nat.lt_succ_of_lt (inv.past j n before)
  case apart =>
    intro j l n mem mem'
    rcases drawn j n mem with ⟨now, eq⟩ | before
    · rcases drawn l n mem' with ⟨-, eq'⟩ | before'
      · exact eq.trans eq'.symm
      · exact absurd (inv.past l n before') (by omega)
    · rcases drawn l n mem' with ⟨now', -⟩ | before'
      · exact absurd (inv.past j n before) (by omega)
      · exact inv.apart j l n before before'
  case owner =>
    intro j t f owns
    rw [role] at owns
    obtain ⟨settled, dead, alone⟩ := inv.owner j t f owns
    refine ⟨settle f settled, fun k r found => dead k r (db ▸ found), fun l t' owns' => ?_⟩
    rw [role] at owns'
    exact alone l t' owns'
  case winner =>
    intro j t wins
    rw [role] at wins
    obtain ⟨⟨s, settled, eq⟩, dead, alone⟩ := inv.winner j t wins
    refine ⟨⟨s, settle s settled, eq⟩, fun r found => dead r (db ▸ found), fun l wins' => ?_⟩
    rw [role] at wins'
    exact alone l wins'
  case log =>
    intro t
    obtain ⟨atMost, ofSome⟩ := framed.log t
    refine ⟨atMost, fun some => ?_⟩
    obtain ⟨j, saved⟩ := ofSome some
    exact ⟨j, (role j).trans saved⟩

/-- A call wins the compare-and-set: the family has lost its only live token to it. -/
theorem Inv.win (inv : Inv env crypto calls w γ) (step : World.Stepped i e w w')
    (unsaved : savedBy e = none) {t : String} {r : OAuth2RefreshToken}
    (found : w.db.refreshTokens.find? t = some r) (live : r.revoked = false)
    (db : w'.db = w.db.revokeRefreshWhere fun r => r.token = t) (idle : (γ i).role = .idle) :
    Inv env crypto calls w' (Function.update γ i { γ i with role := .won t r.familyId }) := by
  have decays : w.db.Decays w'.db := db ▸ w.db.revokeRefreshWhere_decays _
  have framed : Inv env crypto calls w' γ := inv.frame decays step unsaved
  have drawn : ∀ j, (Function.update γ i { γ i with role := .won t r.familyId } j).drawn =
      (γ j).drawn := by
    intro j
    by_cases eq : j = i
    · subst eq
      simp
    · simp [eq]
  have settle : ∀ s, Settled env crypto w' γ s → Settled env crypto w'
      (Function.update γ i { γ i with role := .won t r.familyId }) s := by
    intro s drawn
    rcases drawn with ⟨n, past, isDrawn, free⟩
    exact ⟨n, past, isDrawn, fun j => by rw [drawn]; exact free j⟩
  have tick : w.tick ≤ w'.tick := by
    rw [step.tick]
    exact Nat.le_succ _
  have dead : ∀ k r', w'.db.refreshTokens.find? k = some r' → r'.familyId = r.familyId →
      r'.revoked = true := by
    intro k r' found' same
    rw [db, Db.revokeRefreshWhere, Table.find?_updateWhere, Option.map_eq_some_iff] at found'
    obtain ⟨r₀, found₀, rfl⟩ := found'
    split
    · rfl
    · next other =>
        rw [if_neg other] at same
        cases live₀ : r₀.revoked with
        | true => rfl
        | false =>
            have eq : k = t := inv.single k t r₀ r found₀ found same live₀ live
            have key := Table.find?_key found₀
            simp [key, eq] at other
  have noOwner : ∀ j t', (γ j).role ≠ .won t' r.familyId := by
    intro j t' owns
    have := (inv.owner j t' _ owns).2.1 t r found rfl
    rw [live] at this
    cases this
  have noWinner : ∀ j, (γ j).role.token? ≠ some t := by
    intro j wins
    have := (inv.winner j t wins).2.1 r found
    rw [live] at this
    cases this
  constructor
  case keys =>
    intro k r found
    obtain ⟨s, settled, eq⟩ := framed.keys k r found
    exact ⟨s, settle s settled, eq⟩
  case families => exact fun k r found => settle _ (framed.families k r found)
  case single => exact framed.single
  case past =>
    intro j n mem
    rw [drawn] at mem
    exact framed.past j n mem
  case apart =>
    intro j l n mem mem'
    rw [drawn] at mem mem'
    exact inv.apart j l n mem mem'
  case owner =>
    intro j t' f owns
    by_cases eq : j = i
    · subst eq
      simp only [Function.update_self, Role.won.injEq] at owns
      obtain ⟨rfl, rfl⟩ := owns
      refine ⟨settle _ ((inv.families _ r found).mono tick), dead, fun l t' owns' => ?_⟩
      by_cases eq : l = j
      · exact eq
      · rw [Function.update_of_ne eq] at owns'
        exact absurd owns' (noOwner l t')
    · rw [Function.update_of_ne eq] at owns
      obtain ⟨settled, dead', alone⟩ := framed.owner j t' f owns
      refine ⟨settle f settled, dead', fun l t₂ owns' => ?_⟩
      by_cases eq' : l = i
      · subst eq'
        simp only [Function.update_self, Role.won.injEq] at owns'
        exact absurd (owns'.2 ▸ owns) (noOwner j t')
      · rw [Function.update_of_ne eq'] at owns'
        exact alone l t₂ owns'
  case winner =>
    intro j t' wins
    by_cases eq : j = i
    · subst eq
      simp only [Function.update_self, Role.token?, Option.some.injEq] at wins
      subst wins
      obtain ⟨s, settled, eq⟩ := inv.keys _ r found
      refine ⟨⟨s, settle s (settled.mono tick), eq⟩, fun r' found' => ?_, fun l wins' => ?_⟩
      · rw [db, Db.revokeRefreshWhere, Table.find?_updateWhere, found] at found'
        simp only [Option.map_some, Table.find?_key found, decide_true, if_true,
          Option.some.injEq] at found'
        rw [← found']
      · by_cases eq' : l = j
        · exact eq'
        · rw [Function.update_of_ne eq'] at wins'
          exact absurd wins' (noWinner l)
    · rw [Function.update_of_ne eq] at wins
      obtain ⟨⟨s, settled, hash⟩, dead', alone⟩ := framed.winner j t' wins
      refine ⟨⟨s, settle s settled, hash⟩, dead', fun l wins' => ?_⟩
      by_cases eq' : l = i
      · subst eq'
        simp only [Function.update_self, Role.token?, Option.some.injEq] at wins'
        exact absurd (wins' ▸ wins) (noWinner j)
      · rw [Function.update_of_ne eq'] at wins'
        exact alone l wins'
  case log =>
    intro t'
    obtain ⟨atMost, ofSome⟩ := framed.log t'
    refine ⟨atMost, fun some => ?_⟩
    obtain ⟨j, saved⟩ := ofSome some
    have ne : j ≠ i := by
      intro same
      subst same
      rw [idle] at saved
      cases saved
    exact ⟨j, by rw [Function.update_of_ne ne]; exact saved⟩

/-- A call stores a pair under a string it holds, in a family where nothing lives
and to which no call owes a successor afterwards. -/
theorem Inv.store (fresh : Fresh env crypto) (inv : Inv env crypto calls w γ)
    (step : World.Stepped i e w w') {a : OAuth2AccessToken} {r : OAuth2RefreshToken}
    (stores : w.db.Stores a r w'.db)
    (held : ∃ n ∈ (γ i).drawn, ∃ s, Drawn env crypto n s ∧ hashToken crypto s = r.token)
    (family : ∃ n, n < w.tick ∧ Drawn env crypto n r.familyId ∧ ∀ j, j ≠ i → n ∉ (γ j).drawn)
    (vacant : ∀ k r', w.db.refreshTokens.find? k = some r' → r'.familyId = r.familyId →
      r'.revoked = true)
    {role : Role} (same : role.token? = (γ i).role.token?) (settles : ∀ t f, role ≠ .won t f)
    (unowned : ∀ j t, j ≠ i → (γ j).role ≠ .won t r.familyId)
    (log : ∀ t, (rotations crypto calls t w'.log).length ≤ 1 ∧
      (rotations crypto calls t w'.log ≠ [] →
        ∃ j, (Function.update γ i { drawn := [], role := role } j).role = .saved t)) :
    Inv env crypto calls w' (Function.update γ i { drawn := [], role := role }) := by
  obtain ⟨r', identity, -, refresh⟩ := stores.refresh
  obtain ⟨n₀, mem₀, s₀, drawn₀, hash₀⟩ := held
  have familyId : r'.familyId = r.familyId := OAuth2RefreshToken.familyId_of_identity identity
  have tick : w'.tick = w.tick + 1 := step.tick
  have drawn : ∀ j n, n ∈ (Function.update γ i { drawn := [], role := role } j).drawn →
      j ≠ i ∧ n ∈ (γ j).drawn := by
    intro j n mem
    by_cases eq : j = i
    · subst eq
      simp at mem
    · rw [Function.update_of_ne eq] at mem
      exact ⟨eq, mem⟩
  have settle : ∀ s, Settled env crypto w γ s → Settled env crypto w'
      (Function.update γ i { drawn := [], role := role }) s := by
    intro s drawn
    rcases drawn with ⟨n, past, isDrawn, free⟩
    exact ⟨n, by omega, isDrawn, fun j mem => free j (drawn j n mem).2⟩
  have settledFamily : Settled env crypto w' (Function.update γ i { drawn := [], role := role })
      r.familyId := by
    obtain ⟨n, past, isDrawn, free⟩ := family
    exact ⟨n, by omega, isDrawn, fun j mem => free j (drawn j n mem).1 (drawn j n mem).2⟩
  have settledKey :
      Settled env crypto w' (Function.update γ i { drawn := [], role := role }) s₀ := by
    refine ⟨n₀, ?_, drawn₀, fun j mem => ?_⟩
    · have := inv.past i n₀ mem₀
      omega
    · obtain ⟨ne, mem⟩ := drawn j n₀ mem
      exact ne (inv.apart j i n₀ mem mem₀)
  have wins : ∀ j t, (Function.update γ i { drawn := [], role := role } j).role.token? = some t →
      (γ j).role.token? = some t := by
    intro j t wins
    by_cases eq : j = i
    · subst eq
      rw [Function.update_self] at wins
      exact same.symm.trans wins
    · rwa [Function.update_of_ne eq] at wins
  have owns : ∀ j t f, (Function.update γ i { drawn := [], role := role } j).role = .won t f →
      j ≠ i ∧ (γ j).role = .won t f := by
    intro j t f owns
    by_cases eq : j = i
    · subst eq
      rw [Function.update_self] at owns
      exact absurd owns (settles t f)
    · rw [Function.update_of_ne eq] at owns
      exact ⟨eq, owns⟩
  constructor
  case keys =>
    intro k r₁ found
    rw [refresh] at found
    split at found
    · next eq => exact ⟨s₀, settledKey, hash₀.trans eq.symm⟩
    · obtain ⟨s, settled, eq⟩ := inv.keys k r₁ found
      exact ⟨s, settle s settled, eq⟩
  case families =>
    intro k r₁ found
    rw [refresh] at found
    split at found
    · cases found
      rw [familyId]
      exact settledFamily
    · exact settle _ (inv.families k r₁ found)
  case single =>
    intro k k₂ r₁ r₂ found found₂ sameFamily live live₂
    rw [refresh] at found found₂
    -- A live token beside the new one would have been live in a vacant family.
    split at found <;> split at found₂
    · next eq eq₂ => exact eq.trans eq₂.symm
    · cases found
      have := vacant k₂ r₂ found₂ (sameFamily.symm.trans familyId)
      rw [live₂] at this
      cases this
    · cases found₂
      have := vacant k r₁ found (sameFamily.trans familyId)
      rw [live] at this
      cases this
    · exact inv.single k k₂ r₁ r₂ found found₂ sameFamily live live₂
  case past =>
    intro j n mem
    have := inv.past j n (drawn j n mem).2
    omega
  case apart => exact fun j l n mem mem' => inv.apart j l n (drawn j n mem).2 (drawn l n mem').2
  case owner =>
    intro j t f role'
    obtain ⟨ne, role'⟩ := owns j t f role'
    obtain ⟨settled, dead, alone⟩ := inv.owner j t f role'
    refine ⟨settle f settled, fun k r₁ found sameFamily => ?_, fun l t' role'' =>
      alone l t' (owns l t' f role'').2⟩
    rw [refresh] at found
    split at found
    · cases found
      have eq : f = r.familyId := sameFamily.symm.trans familyId
      exact absurd (eq ▸ role') (unowned j t ne)
    · exact dead k r₁ found sameFamily
  case winner =>
    intro j t token
    obtain ⟨⟨s, settled, hash⟩, dead, alone⟩ := inv.winner j t (wins j t token)
    refine ⟨⟨s, settle s settled, hash⟩, fun r₁ found => ?_, fun l token' =>
      alone l (wins l t token')⟩
    rw [refresh] at found
    split at found
    · next eq =>
        exact absurd (hash₀.trans (eq.symm.trans hash.symm))
          (not_settled_of_held fresh mem₀ drawn₀ settled)
    · exact dead r₁ found
  case log => exact log

end Steps

/-! ## The calls, thread by thread -/

section Threads

variable [DecidableEq ι] {calls : ι → Call} {i : ι} {g : Ghost}

omit [DecidableEq ι] in
theorem Inv.framed : Framed (Inv env crypto calls) :=
  fun inv decays step unsaved => inv.frame decays step unsaved

theorem keeps_generateSecureToken (length : Nat) :
    Keeps (World.handler (exec env)) (Inv env crypto calls) i
      (fun s g' => s = "" ∧ g' = g ∨
        ∃ n, Drawn env crypto n s ∧ g' = { g with drawn := n :: g.drawn })
      (generateSecureToken crypto length) g := by
  intro w γ inv own
  cases bytes : (World.handler (exec env) i (StoreOp.env (.secureRandomBytes length)) w).1 with
  | none =>
      refine ⟨g, ?_, ?_⟩
      · rw [← own, Function.update_eq_self]
        exact inv.frame .refl World.handler_stepped rfl
      · exact Or.inl ⟨rfl, rfl⟩
  | some b =>
      refine ⟨{ g with drawn := w.tick :: g.drawn }, ?_, ?_⟩
      · rw [← own]
        exact inv.draw World.handler_stepped rfl rfl
      · exact Or.inr ⟨w.tick, ⟨length, b, bytes, rfl⟩, rfl⟩

variable (svc : TokenService) (tokens : TokenBackend)

/-- A failed save leaves everything as it was. -/
theorem Inv.unsaved {w w' : StoreWorld ι} {γ : ι → Ghost} {e : StoreEvent ι}
    (inv : Inv env crypto calls w γ) (own : γ i = g) (step : World.Stepped i e w w')
    (unsaved : savedBy e = none) (db : w'.db = w.db) :
    Inv env crypto calls w' (Function.update γ i g) := by
  rw [← own, Function.update_eq_self]
  exact inv.frame (db ▸ .refl) step unsaved

/-- The first pair of a new family, saved by a call that is not a rotation. -/
theorem keeps_saveRoot (fresh : Fresh env crypto) {a : OAuth2AccessToken} {r : OAuth2RefreshToken}
    (notRotation : ∀ raw clientId, calls i ≠ .refreshAccessToken raw clientId)
    (idle : g.role = .idle) {n n' : Nat} {s : String} (key : n ∈ g.drawn)
    (drawnKey : Drawn env crypto n s) (hash : hashToken crypto s = r.token) (family : n' ∈ g.drawn)
    (drawnFamily : Drawn env crypto n' r.familyId) :
    Keeps (World.handler (exec env)) (Inv env crypto calls) i (fun _ _ => True)
      (tokens.repository.saveTokenPair a r) g := by
  apply keeps_saveTokenPair
  · intro e w w' γ inv own step unsaved db
    exact ⟨g, inv.unsaved own step unsaved db, trivial⟩
  · intro e w w' γ inv own step saved stores
    subst own
    have noRotation : ∀ t, rotations crypto calls t w'.log = rotations crypto calls t w.log := by
      intro t
      have no : rotates crypto calls t e = false := by
        unfold rotates
        rw [step.thread]
        split
        · next raw clientId eq => exact absurd eq (notRotation raw clientId)
        · rfl
      simp [rotations, step.log, no]
    -- The family was drawn by this call and never stored, so no one else can know it.
    have unknown : ∀ f, Settled env crypto w γ f → f ≠ r.familyId := by
      intro f settled same
      subst same
      exact not_settled_of_held fresh family drawnFamily settled rfl
    refine ⟨{ drawn := [], role := .idle }, ?_, trivial⟩
    refine inv.store fresh step stores ⟨n, key, s, drawnKey, hash⟩
      ⟨n', inv.past i n' family, drawnFamily, fun j ne mem => ne (inv.apart j i n' mem family)⟩
      (fun k r' found same => absurd same (unknown _ (inv.families k r' found)))
      (by rw [idle]) (fun _ _ => Role.noConfusion)
      (fun j t _ owns => unknown _ (inv.owner j t _ owns).1 rfl) fun t => ?_
    rw [noRotation]
    refine ⟨(inv.log t).1, fun some => ?_⟩
    obtain ⟨j, saved⟩ := (inv.log t).2 some
    have ne : j ≠ i := by
      intro same
      subst same
      rw [idle] at saved
      cases saved
    exact ⟨j, by rw [Function.update_of_ne ne]; exact saved⟩

/-- The successor a winner owes. -/
theorem keeps_saveRotated (fresh : Fresh env crypto) {a : OAuth2AccessToken}
    {r : OAuth2RefreshToken} {raw clientId : String}
    (rotation : calls i = .refreshAccessToken raw clientId)
    {f : String} (won : g.role = .won (hashToken crypto raw) f) (family : r.familyId = f)
    {n : Nat} {s : String} (key : n ∈ g.drawn) (drawnKey : Drawn env crypto n s)
    (hash : hashToken crypto s = r.token) :
    Keeps (World.handler (exec env)) (Inv env crypto calls) i (fun _ _ => True)
      (tokens.repository.saveTokenPair a r) g := by
  subst family
  apply keeps_saveTokenPair
  · intro e w w' γ inv own step unsaved db
    exact ⟨g, inv.unsaved own step unsaved db, trivial⟩
  · intro e w w' γ inv own step saved stores
    subst own
    obtain ⟨⟨n', past, drawnFamily, free⟩, vacant, alone⟩ := inv.owner i _ _ won
    refine ⟨{ drawn := [], role := .saved (hashToken crypto raw) }, ?_, trivial⟩
    refine inv.store fresh step stores ⟨n, key, s, drawnKey, hash⟩
      ⟨n', past, drawnFamily, fun j _ => free j⟩ vacant (by rw [won]; rfl)
      (fun _ _ => Role.noConfusion) (fun j t ne owns => ne (alone j t owns)) fun t => ?_
    by_cases eq : t = hashToken crypto raw
    · subst eq
      have none : rotations crypto calls (hashToken crypto raw) w.log = [] := by
        by_contra some
        obtain ⟨j, saved⟩ := (inv.log _).2 some
        have same : j = i := by
          refine (inv.winner i (hashToken crypto raw) (by rw [won]; rfl)).2.2 j ?_
          rw [saved]
          rfl
        rw [same, won] at saved
        cases saved
      refine ⟨?_, fun _ => ⟨i, by rw [Function.update_self]⟩⟩
      have tail : (rotations crypto calls (hashToken crypto raw) w'.log).length ≤
          (rotations crypto calls (hashToken crypto raw) w.log).length + 1 := by
        simp only [rotations, step.log, List.filter_cons]
        split <;> simp
      rwa [none] at tail
    · have no : rotates crypto calls t e = false := by
        simp [rotates, step.thread, rotation, Ne.symm eq]
      have same : rotations crypto calls t w'.log = rotations crypto calls t w.log := by
        simp [rotations, step.log, no]
      rw [same]
      refine ⟨(inv.log t).1, fun some => ?_⟩
      obtain ⟨j, saved⟩ := (inv.log t).2 some
      have ne : j ≠ i := by
        intro same
        subst same
        rw [won] at saved
        cases saved
      exact ⟨j, by rw [Function.update_of_ne ne]; exact saved⟩

/-! ### Exchange -/

theorem keeps_issueForCode (fresh : Fresh env crypto)
    (notRotation : ∀ raw clientId, calls i ≠ .refreshAccessToken raw clientId)
    (authCode : OAuth2AuthCode) (now : Int) :
    Keeps (World.handler (exec env)) (Inv env crypto calls) i (fun _ _ => True)
      (svc.issueForCode tokens.repository crypto authCode now) { } := by
  unfold TokenService.issueForCode
  refine (Inv.framed.keeps_quiet (resolveOrgContextForClaims_quiet svc _ _ _)).bind ?_
  intro orgCtx _ same
  subst same
  refine (Inv.framed.keeps_quiet (resolveRoles_quiet svc _)).bind ?_
  intro answer _ same
  subst same
  rcases answer with _ | roles
  · trivial
  refine (keeps_generateSecureToken 32).bind fun tokenStr g₁ drawn₁ => ?_
  refine (keeps_generateSecureToken 32).bind fun refreshTokenStr g₂ drawn₂ => ?_
  refine (keeps_generateSecureToken 16).bind fun familyId g₃ drawn₃ => ?_
  split
  · exact Inv.framed.keeps_rest ((audit_quiet svc _ _ _ _ _).bind fun _ => trivial)
  · next nonempty =>
      simp only [not_or] at nonempty
      obtain ⟨ne₁, ne₂, ne₃⟩ := nonempty
      obtain ⟨n₁, -, rfl⟩ := drawn₁.resolve_left fun empty => ne₁ empty.1
      obtain ⟨n₂, key, rfl⟩ := drawn₂.resolve_left fun empty => ne₂ empty.1
      obtain ⟨n₃, family, rfl⟩ := drawn₃.resolve_left fun empty => ne₃ empty.1
      refine (keeps_saveRoot tokens fresh notRotation rfl
        (List.mem_cons_of_mem _ (List.mem_cons_self ..)) key rfl (List.mem_cons_self ..)
        family).bind fun ok g' _ => ?_
      split
      · exact Inv.framed.keeps_rest ((audit_quiet svc _ _ _ _ _).bind fun _ => trivial)
      · exact Inv.framed.keeps_rest ((withIdToken_quiet svc _ _ _ _).bind fun _ =>
          (auditIssued_quiet svc _ _).bind fun _ => trivial)

theorem keeps_exchangeCodeForToken (fresh : Fresh env crypto) (grants : GrantBackend)
    (notRotation : ∀ raw clientId, calls i ≠ .refreshAccessToken raw clientId)
    (code clientId clientSecret redirectUri codeVerifier : String) :
    Keeps (World.handler (exec env)) (Inv env crypto calls) i (fun _ _ => True)
      ((svc.over grants tokens crypto).exchangeCodeForToken code clientId clientSecret redirectUri
        codeVerifier) { } := by
  unfold TokenService.exchangeCodeForToken
  split
  · next grants' tokens' crypto' _ wiredG wiredT wiredC =>
      cases wiredG
      cases wiredT
      cases wiredC
      refine (Inv.framed.keeps_quiet (ask_quiet _)).bind ?_
      intro isValid _ same
      subst same
      split
      · trivial
      · refine (Inv.framed.keeps_quiet (consumeAuthCode_quiet grants _ _)).bind ?_
        intro answer _ same
        subst same
        rcases answer with _ | authCode
        · trivial
        · dsimp only
          split
          · trivial
          · refine (Inv.framed.keeps_quiet nowSeconds_quiet).bind ?_
            intro now _ same
            subst same
            split
            · trivial
            · exact keeps_issueForCode _ tokens fresh notRotation authCode now
  · trivial

/-! ### Rotation -/

theorem keeps_rotate (fresh : Fresh env crypto) {raw clientId : String}
    (rotation : calls i = .refreshAccessToken raw clientId) {storedRt : OAuth2RefreshToken}
    (won : g.role = .won (hashToken crypto raw) storedRt.familyId) (now : Int) (subject : String) :
    Keeps (World.handler (exec env)) (Inv env crypto calls) i (fun _ _ => True)
      (svc.rotate tokens.repository crypto storedRt now subject) g := by
  unfold TokenService.rotate
  refine (Inv.framed.keeps_quiet (resolveOrgContextForClaims_quiet svc _ _ _)).bind ?_
  intro orgCtx _ same
  subst same
  refine (keeps_generateSecureToken 32).bind fun newTokenStr g₁ drawn₁ => ?_
  refine (keeps_generateSecureToken 32).bind fun newRefreshTokenStr g₂ drawn₂ => ?_
  split
  · trivial
  · next nonempty =>
      simp only [not_or] at nonempty
      obtain ⟨n₁, -, rfl⟩ := drawn₁.resolve_left fun empty => nonempty.1 empty.1
      obtain ⟨n₂, key, rfl⟩ := drawn₂.resolve_left fun empty => nonempty.2 empty.1
      refine Keeps.bind (keeps_saveRotated tokens fresh rotation won rfl (List.mem_cons_self ..)
        key rfl) fun ok g' _ => ?_
      split
      · trivial
      · exact Inv.framed.keeps_rest ((audit_quiet svc _ _ _ _ _).bind fun _ =>
          (withIdToken_quiet svc _ _ _ _).bind fun _ => trivial)

theorem keeps_refreshAccessToken (fresh : Fresh env crypto) (grants : GrantBackend)
    {raw clientId : String} (rotation : calls i = .refreshAccessToken raw clientId) :
    Keeps (World.handler (exec env)) (Inv env crypto calls) i (fun _ _ => True)
      ((svc.over grants tokens crypto).refreshAccessToken raw clientId) { } := by
  unfold TokenService.refreshAccessToken
  split
  · next tokens' crypto' wiredT wiredC =>
      cases wiredT
      cases wiredC
      have cas : Keeps (World.handler (exec env)) (Inv env crypto calls) i
          (fun storedRt g' => ∀ r, storedRt = some r →
            g'.role = .won (hashToken crypto raw) r.familyId)
          (tokens.repository.atomicRevokeRefreshToken (hashToken crypto raw)) { } := by
        apply keeps_atomicRevokeRefreshToken
        intro e w w' γ answer inv own step unsaved result
        rcases result with ⟨rfl, db⟩ | ⟨r, r', found, live, rfl, identity, db⟩
        · exact ⟨{ }, inv.unsaved own step unsaved db, fun _ none => by cases none⟩
        · refine ⟨{ γ i with role := .won (hashToken crypto raw) r.familyId },
            inv.win step unsaved found live db (by rw [own]), fun _ eq => ?_⟩
          cases eq
          rw [OAuth2RefreshToken.familyId_of_identity identity]
      refine cas.bind fun storedRt g' won => ?_
      cases storedRt with
      | none => exact Inv.framed.keeps_rest (refuseRefresh_quiet _ tokens _)
      | some storedRt =>
          dsimp only
          split
          · trivial
          · refine (Inv.framed.keeps_quiet nowSeconds_quiet).bind ?_
            intro now _ same
            subst same
            split
            · trivial
            · refine (Inv.framed.keeps_quiet (normalizedSubject_quiet _ _)).bind ?_
              intro answer _ same
              subst same
              rcases answer with _ | subject
              · trivial
              · exact keeps_rotate _ tokens fresh rotation (won _ rfl) now subject
  · trivial

/-- Every call of the service keeps the invariant, whatever the others do. -/
theorem keeps_call (fresh : Fresh env crypto) (grants : GrantBackend) (i : ι) :
    Keeps (World.handler (exec env)) (Inv env crypto calls) i (fun _ _ => True)
      ((calls i).prog (svc.over grants tokens crypto)) { } := by
  cases call : calls i with
  | generateAuthorizationCode clientId subject scope redirectUri challenge method nonce time amr
      orgId =>
      exact Inv.framed.keeps_rest
        (generateAuthorizationCode_quiet svc grants tokens crypto _ _ _ _ _ _ _ _ _
        _).map
  | exchangeCodeForToken code clientId secret redirectUri verifier =>
      exact (keeps_exchangeCodeForToken svc tokens fresh grants (by simp [call]) code clientId
        secret redirectUri verifier).bind fun _ _ _ => trivial
  | refreshAccessToken raw clientId =>
      exact (keeps_refreshAccessToken svc tokens fresh grants call).bind fun _ _ _ => trivial
  | validateAccessToken token =>
      exact Inv.framed.keeps_rest (validateAccessToken_quiet svc grants tokens crypto _).map
  | revokeAccessToken token revokedBy =>
      exact Inv.framed.keeps_rest (revokeAccessToken_quiet tokens _ _).map
  | revokeRefreshToken token => exact Inv.framed.keeps_rest (revokeRefreshToken_quiet tokens _).map
  | purgeExpired =>
      refine (Inv.framed.keeps_noSave (Prog.Only.map ?_)).mono fun _ _ _ => trivial
      exact ((purgeGrants_quiet grants).mono fun _ quiet => quiet.noSave).bind fun _ =>
        purgeTokens_noSave tokens

end Threads

/-! ## Runs -/

theorem inv_start (calls : ι → Call) (db : Db) :
    Inv env crypto calls (World.start db.withoutTokens) fun _ => { } := by
  constructor <;> simp [World.start, Db.withoutTokens, rotations, Role.token?]

section Runs

variable [DecidableEq ι]

theorem inv_runCalls (fresh : Fresh env crypto) (svc : TokenService) (grants : GrantBackend)
    (tokens : TokenBackend) (calls : ι → Call) (db : Db) (sched : List ι) :
    ∃ γ, Inv env crypto calls
      (runCalls env (svc.over grants tokens crypto) calls db.withoutTokens sched).store γ := by
  have good : (startCalls (svc.over grants tokens crypto) calls db.withoutTokens).Good
      (World.handler (exec env)) (Inv env crypto calls) fun _ _ _ => True :=
    ⟨fun _ => { }, inv_start calls db, keeps_call svc tokens fresh grants⟩
  obtain ⟨γ, inv, -⟩ := Pool.run_keeps good sched
  exact ⟨γ, inv⟩

/-- The unrevoked refresh tokens of a family. -/
def liveTokens (db : Db) (family : String) : List OAuth2RefreshToken :=
  db.refreshTokens.rows.filter fun r => r.familyId = family && r.revoked = false

theorem length_liveTokens_le_one {db : Db} {f : String}
    (single : ∀ k k' r r', db.refreshTokens.find? k = some r →
      db.refreshTokens.find? k' = some r' → r.familyId = r'.familyId →
      r.revoked = false → r'.revoked = false → k = k') : (liveTokens db f).length ≤ 1 := by
  have nodup : ((liveTokens db f).map OAuth2RefreshToken.token).Nodup :=
    db.refreshTokens.nodup.sublist (List.filter_sublist.map _)
  have same : ∀ r ∈ liveTokens db f, ∀ r' ∈ liveTokens db f, r.token = r'.token := by
    intro r mem r' mem'
    simp only [liveTokens, List.mem_filter, Bool.and_eq_true, decide_eq_true_eq] at mem mem'
    exact single _ _ r r' (Table.mem_rows_iff.mp mem.1) (Table.mem_rows_iff.mp mem'.1)
      (mem.2.1.trans mem'.2.1.symm) mem.2.2 mem'.2.2
  rcases rows : liveTokens db f with _ | ⟨r, _ | ⟨r', rest⟩⟩
  · simp
  · simp
  · rw [rows] at nodup same
    have eq := same r (by simp) r' (by simp)
    simp [eq] at nodup

/-- For every number of concurrent calls and every interleaving of their steps:
each refresh token has at most one successor, and each family at most one
unrevoked refresh token, in every state reached. -/
theorem rotation_single_winner (fresh : Fresh env crypto) (svc : TokenService)
    (grants : GrantBackend) (tokens : TokenBackend) (calls : ι → Call) (db : Db)
    (sched : List ι) :
    let w := (runCalls env (svc.over grants tokens crypto) calls db.withoutTokens sched).store
    (∀ t, (rotations crypto calls t w.log).length ≤ 1) ∧
      ∀ f, (liveTokens w.db f).length ≤ 1 := by
  obtain ⟨γ, inv⟩ := inv_runCalls fresh svc grants tokens calls db sched
  exact ⟨fun t => (inv.log t).1, fun f => length_liveTokens_le_one inv.single⟩

end Runs

/-! ## Two clients race for one token -/

/-- A drawn string tells its step. -/
theorem drawn_sample {t n : Nat} {s : String} (isDrawn : Drawn (Sample.envAt t) Sample.crypto n s) :
    n < 26 ∧ hashToken Sample.crypto s = String.ofList [(Char.ofNat (65 + n)).toUpper] := by
  obtain ⟨length, bytes, random, rfl⟩ := isDrawn
  simp only [Sample.envAt, Option.ite_none_right_eq_some, Option.some.injEq] at random
  obtain ⟨⟨lt, -⟩, rfl⟩ := random
  have small : n % 256 = n := Nat.mod_eq_of_lt (by omega)
  refine ⟨lt, ?_⟩
  simp [hashToken, toUpperAscii, Sample.crypto, small]

theorem fresh_sample (t : Nat) : Fresh (Sample.envAt t) Sample.crypto := by
  intro m n s s' drawn drawn' same
  obtain ⟨lt, eq⟩ := drawn_sample drawn
  obtain ⟨lt', eq'⟩ := drawn_sample drawn'
  rw [eq, eq', String.ofList_inj] at same
  have letters : ∀ m < 26, ∀ n < 26,
      (Char.ofNat (65 + m)).toUpper = (Char.ofNat (65 + n)).toUpper → m = n := by decide
  exact letters m lt n lt' (List.cons.inj same).1

/-- A code is exchanged, and two calls present its refresh token at the same time. -/
def raceCalls : Fin 4 → Call
  | 0 => .generateAuthorizationCode "app" "alice" "openid" "" "" "" "" 0 "" none
  | 1 => .exchangeCodeForToken (Sample.drawn 0) "app" "" "" ""
  | 2 => .refreshAccessToken (Sample.drawn 7) "app"
  | 3 => .refreshAccessToken (Sample.drawn 7) "app"

/-- The race runs to its end with exactly one successor. -/
theorem rotation_single_winner_race :
    let w := (runCalls (Sample.envAt 1000) (Sample.service.over .memory .postgres Sample.crypto)
      raceCalls Sample.db.withoutTokens [0, 0, 0, 1, 1, 1, 1, 1, 1, 1, 2, 3, 2, 3, 2, 2, 2]).store
    (rotations Sample.crypto raceCalls (Sample.drawn 7) w.log).length = 1 ∧
      (∀ t, (rotations Sample.crypto raceCalls t w.log).length ≤ 1) ∧
      ∀ f, (liveTokens w.db f).length ≤ 1 :=
  ⟨by decide +kernel, rotation_single_winner (fresh_sample 1000) Sample.service .memory
    .postgres raceCalls
    Sample.db _⟩

end Fulla.Rotation
