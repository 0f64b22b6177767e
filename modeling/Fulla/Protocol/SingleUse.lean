import Fulla.Protocol.Provenance
import Fulla.Storage.GrantCalls

/-!
# Authorization codes are single-use

Any number of calls of a grant repository run in any interleaving over one of the
three stores.  Between two consumptions of a code there is always a save of it, so
one saved code is delivered at most once.

The stores do not look at the clock when they deliver: expiry is the business of the
exchange, which reads the clock after the consumption and saves no tokens for a
code that is past its time.  `consumeAuthCode_single_use` states both.
-/

namespace Fulla.SingleUse

open Conc

variable {ι : Type} {env : Env} {grants : GrantBackend} {calls : ι → GrantCall}

/-- The event stored a record under `k`. -/
def Saves (k : String) (e : StoreEvent ι) : Prop :=
  savesCode k e.op e.res = true

/-- The event took the record stored under `k`. -/
def Takes (k : String) (e : StoreEvent ι) : Prop :=
  takesCode k e.op e.res = true

/-- Between the two events a record was stored under `k`. -/
def SavedBetween (k : String) (log : List (StoreEvent ι)) (e e' : StoreEvent ι) : Prop :=
  ∃ s ∈ log, Saves k s ∧ e.tick < s.tick ∧ s.tick < e'.tick

/-- `γ i` tells that call `i` has taken the code it was made for. -/
structure Inv (grants : GrantBackend) (calls : ι → GrantCall) (w : StoreWorld ι) (γ : ι → Bool) :
    Prop where
  past : ∀ e ∈ w.log, e.tick < w.tick
  steps : ∀ e ∈ w.log, ∀ e' ∈ w.log, e.tick = e'.tick → e.thread = e'.thread
  spent : ∀ k, w.db.FreshCode k grants → ∀ e ∈ w.log, Takes k e →
    ∃ s ∈ w.log, Saves k s ∧ e.tick < s.tick
  apart : ∀ k, ∀ e ∈ w.log, ∀ e' ∈ w.log, Takes k e → Takes k e' → e.tick < e'.tick →
    SavedBetween k w.log e e'
  taken : ∀ i, γ i = true → ∃ k redirectUri, calls i = .consumeAuthCode k redirectUri ∧
    ∃ e ∈ w.log, e.thread = i ∧ Takes k e

section Steps

variable {w w' : StoreWorld ι} {γ : ι → Bool} {i : ι} {e : StoreEvent ι}

/-- One operation, of which only the effect on each record is known. -/
theorem Inv.step (inv : Inv grants calls w γ) (step : World.Stepped i e w w')
    (codes : ∀ k, CodeStep grants k e.op e.res w.db w'.db) : Inv grants calls w' γ := by
  have log : w'.log = e :: w.log := step.log
  have tick : e.tick = w.tick := step.time
  have cons : ∀ {e'}, e' ∈ w'.log → e' = e ∨ e' ∈ w.log := by
    intro e' mem
    rw [log] at mem
    exact List.mem_cons.mp mem
  have keep : ∀ {e'}, e' ∈ w.log → e' ∈ w'.log := by
    intro e' mem
    rw [log]
    exact List.mem_cons_of_mem _ mem
  constructor
  case past =>
    intro e' mem
    rw [step.tick]
    rcases cons mem with rfl | before
    · omega
    · have := inv.past e' before
      omega
  case steps =>
    intro e₁ mem₁ e₂ mem₂ same
    rcases cons mem₁ with rfl | before₁
    · rcases cons mem₂ with rfl | before₂
      · rfl
      · have := inv.past e₂ before₂
        omega
    · rcases cons mem₂ with rfl | before₂
      · have := inv.past e₁ before₁
        omega
      · exact inv.steps e₁ before₁ e₂ before₂ same
  case spent =>
    intro k fresh e' mem takes
    rcases cons mem with rfl | before
    · exact absurd fresh ((codes k).taken takes).2
    · rcases (codes k).fresh fresh with fresh' | saves
      · rcases inv.spent k fresh' e' before takes with ⟨s, memS, saves, lt⟩
        exact ⟨s, keep memS, saves, lt⟩
      · have := inv.past e' before
        exact ⟨e, by rw [log]; exact List.mem_cons_self .., saves, by omega⟩
  case apart =>
    intro k e₁ mem₁ e₂ mem₂ takes₁ takes₂ lt
    rcases cons mem₂ with rfl | before₂
    · -- The second taking is the new step: it found the record fresh.
      rcases cons mem₁ with rfl | before₁
      · omega
      · rcases inv.spent k ((codes k).taken takes₂).1 e₁ before₁ takes₁ with
          ⟨s, memS, saves, after⟩
        have := inv.past s memS
        exact ⟨s, keep memS, saves, after, by omega⟩
    · rcases cons mem₁ with rfl | before₁
      · have := inv.past e₂ before₂
        omega
      · rcases inv.apart k e₁ before₁ e₂ before₂ takes₁ takes₂ lt with ⟨s, memS, rest⟩
        exact ⟨s, keep memS, rest⟩
  case taken =>
    intro j holds
    rcases inv.taken j holds with ⟨k, redirectUri, call, e', mem, rest⟩
    exact ⟨k, redirectUri, call, e', keep mem, rest⟩

theorem Inv.handler {o : StoreOp} (inv : Inv grants calls w γ) (isGrant : grantOp grants o = true) :
    Inv grants calls (World.handler (exec env) i o w).2 γ :=
  inv.step World.handler_stepped fun k => execOp_grant (env w.tick) w.db k isGrant

variable [DecidableEq ι]

/-- Call `i` has taken its code in the step just made. -/
theorem Inv.take {o : StoreOp} (inv : Inv grants calls w γ) (isGrant : grantOp grants o = true)
    {k redirectUri : String} (call : calls i = .consumeAuthCode k redirectUri)
    (takes : takesCode k o (exec env w.tick o w.db).1 = true) :
    Inv grants calls (World.handler (exec env) i o w).2 (Function.update γ i true) := by
  refine { inv.handler isGrant with taken := fun j holds => ?_ }
  by_cases eq : j = i
  · subst eq
    exact ⟨k, redirectUri, call, _, List.mem_cons_self .., rfl, takes⟩
  · rw [Function.update_of_ne eq] at holds
    exact (inv.handler isGrant).taken j holds

end Steps

/-! ## The calls, thread by thread -/

section Threads

variable [DecidableEq ι] {i : ι}

/-- The operation of a consumption, and what follows when it took the code and when
it did not. -/
theorem keeps_take {α : Type} {Q : α → Bool → Prop} {o : StoreOp}
    {f : StoreSig.Res o → StoreProg α} (isGrant : grantOp grants o = true) {k redirectUri : String}
    (call : calls i = .consumeAuthCode k redirectUri)
    (rest : ∀ res, Keeps (World.handler (exec env)) (Inv grants calls) i Q (f res)
      (takesCode k o res)) :
    Keeps (World.handler (exec env)) (Inv grants calls) i Q (.op o f) false := by
  intro w γ inv own
  cases takes : takesCode k o (exec env w.tick o w.db).1 with
  | false =>
      refine ⟨false, ?_, ?_⟩
      · rw [← own, Function.update_eq_self]
        exact inv.handler isGrant
      · have := rest (exec env w.tick o w.db).1
        rw [takes] at this
        exact this
  | true =>
      refine ⟨true, inv.take isGrant call takes, ?_⟩
      have := rest (exec env w.tick o w.db).1
      rw [takes] at this
      exact this

/-- A delivered code has been taken. -/
def Delivered (answer : GrantAnswer) (holds : Bool) : Prop :=
  ∀ c, answer = .code (some c) → holds = true

theorem keeps_consumeAuthCode {k redirectUri : String}
    (call : calls i = .consumeAuthCode k redirectUri) :
    Keeps (World.handler (exec env)) (Inv grants calls) i Delivered
      ((GrantCall.consumeAuthCode k redirectUri).prog grants.repository) false := by
  cases grants with
  | memory =>
      refine keeps_take (o := .mem (.consumeAuthCode k redirectUri)) rfl call fun res => ?_
      intro c delivered
      cases delivered
      simp [takesCode]
  | redis =>
      refine keeps_take (o := .redis (.consumeScript (Redis.codeKey k)
        (RedisFormat.cString redirectUri))) rfl call fun res => ?_
      intro c delivered
      cases res with
      | none => cases delivered
      | some json => simp [takesCode]
  | postgres =>
      refine keeps_take (o := .sql (.consumeCode k)) rfl call fun row => ?_
      cases row with
      | none =>
          intro c delivered
          cases delivered
      | some row =>
          show Keeps _ _ _ _ (GrantAnswer.code <$> if _ then _ else _) _
          split
          · intro c delivered
            cases delivered
          · intro c _
            simp [takesCode]

theorem keeps_call (i : ι) :
    Keeps (World.handler (exec env)) (Inv grants calls) i
      (fun answer holds => ∀ k redirectUri, calls i = .consumeAuthCode k redirectUri →
        Delivered answer holds)
      ((calls i).prog grants.repository) false := by
  have other (differs : ∀ k redirectUri, calls i ≠ .consumeAuthCode k redirectUri) :
      Keeps (World.handler (exec env)) (Inv grants calls) i
        (fun answer holds => ∀ k redirectUri, calls i = .consumeAuthCode k redirectUri →
          Delivered answer holds)
        ((calls i).prog grants.repository) false :=
    Keeps.of_only (GrantCall.prog_only grants (calls i))
      (fun _ _ _ isGrant inv => inv.handler isGrant)
      fun _ k redirectUri call => absurd call (differs k redirectUri)
  cases call : calls i with
  | consumeAuthCode k redirectUri =>
      exact (keeps_consumeAuthCode call).mono fun _ _ delivered _ _ _ => delivered
  | saveAuthCode c => exact call ▸ other (by simp [call])
  | getAuthCode k => exact call ▸ other (by simp [call])
  | purgeExpired => exact call ▸ other (by simp [call])

end Threads

/-! ## Runs -/

theorem inv_start (grants : GrantBackend) (calls : ι → GrantCall) (db : Db) :
    Inv grants calls (World.start db) fun _ => false := by
  constructor <;> simp [World.start]

section Runs

variable [DecidableEq ι]

/-- Two calls that were both delivered the code `k` took it in two different steps,
and between these steps `k` was saved. -/
theorem saved_between (env : Env) (grants : GrantBackend) (calls : ι → GrantCall) (db : Db)
    (sched : List ι) {i j : ι} (ne : i ≠ j) {k redirectUri redirectUri' : String}
    {c c' : OAuth2AuthCode} (callI : calls i = .consumeAuthCode k redirectUri)
    (callJ : calls j = .consumeAuthCode k redirectUri')
    (deliveredI : (runGrants env grants calls db sched).answer? i = some (.code (some c)))
    (deliveredJ : (runGrants env grants calls db sched).answer? j = some (.code (some c'))) :
    ∃ e ∈ (runGrants env grants calls db sched).store.log,
      ∃ e' ∈ (runGrants env grants calls db sched).store.log,
        e.thread = i ∧ e'.thread = j ∧ Takes k e ∧ Takes k e' ∧
        (SavedBetween k (runGrants env grants calls db sched).store.log e e' ∨
          SavedBetween k (runGrants env grants calls db sched).store.log e' e) := by
  have good : (startGrants grants calls db).Good (World.handler (exec env)) (Inv grants calls)
      fun i answer holds => ∀ k redirectUri, calls i = .consumeAuthCode k redirectUri →
        Delivered answer holds :=
    ⟨fun _ => false, inv_start grants calls db, keeps_call⟩
  rcases Pool.run_keeps good sched with ⟨γ, inv, threads⟩
  have taken : ∀ {l uri x}, calls l = .consumeAuthCode k uri →
      (runGrants env grants calls db sched).answer? l = some (.code (some x)) →
      ∃ e ∈ (runGrants env grants calls db sched).store.log, e.thread = l ∧ Takes k e := by
    intro l uri x call delivered
    have done : ((startGrants grants calls db).run (World.handler (exec env)) sched).prog l =
        .ret (.code (some x)) := Pool.prog_of_answer? delivered
    have thread := threads l
    rw [done] at thread
    rcases inv.taken l (thread k uri call x rfl) with ⟨k', uri', call', e, mem, mine, takes⟩
    rw [call] at call'
    cases call'
    exact ⟨e, mem, mine, takes⟩
  rcases taken callI deliveredI with ⟨e, mem, mine, takes⟩
  rcases taken callJ deliveredJ with ⟨e', mem', mine', takes'⟩
  refine ⟨e, mem, e', mem', mine, mine', takes, takes', ?_⟩
  rcases Nat.lt_trichotomy e.tick e'.tick with lt | same | gt
  · exact Or.inl (inv.apart k e mem e' mem' takes takes' lt)
  · have := inv.steps e mem e' mem' same
    rw [mine, mine'] at this
    exact absurd this ne
  · exact Or.inr (inv.apart k e' mem' e mem takes' takes gt)

/-- On every store and in every interleaving of repository calls, one saved code is
delivered at most once; and in every interleaving of service calls over it, an
exchange saves tokens only for a code that had not passed its expiry when the
exchange read the clock, after the consumption. -/
theorem consumeAuthCode_single_use (env : Env) (grants : GrantBackend) :
    (∀ (calls : ι → GrantCall) (db : Db) (sched : List ι) (i j : ι)
        (k redirectUri redirectUri' : String) (c c' : OAuth2AuthCode), i ≠ j →
        calls i = .consumeAuthCode k redirectUri → calls j = .consumeAuthCode k redirectUri' →
        (runGrants env grants calls db sched).answer? i = some (.code (some c)) →
        (runGrants env grants calls db sched).answer? j = some (.code (some c')) →
        ∃ e ∈ (runGrants env grants calls db sched).store.log,
          ∃ e' ∈ (runGrants env grants calls db sched).store.log,
            e.thread = i ∧ e'.thread = j ∧ Takes k e ∧ Takes k e' ∧
            (SavedBetween k (runGrants env grants calls db sched).store.log e e' ∨
              SavedBetween k (runGrants env grants calls db sched).store.log e' e)) ∧
      ∀ (svc : TokenService) (tokens : TokenBackend) (crypto : CryptoProvider)
        (calls : ι → Call) (db : Db) (sched : List ι),
        let w := (runCalls env (svc.over grants tokens crypto) calls db.withoutTokens sched).store
        ∀ e ∈ w.log, ∀ pair, savedBy e = some pair →
          ∀ code clientId clientSecret redirectUri codeVerifier,
            calls e.thread =
              .exchangeCodeForToken code clientId clientSecret redirectUri codeVerifier →
            ∃ g now, Provenance.Timely grants env w.log e.thread (hashToken crypto code)
              redirectUri g now ∧ now ≤ g.expiresAt := by
  constructor
  · intro calls db sched i j k redirectUri redirectUri' c c' ne callI callJ deliveredI deliveredJ
    exact saved_between env grants calls db sched ne callI callJ deliveredI deliveredJ
  · intro svc tokens crypto calls db sched w e mem pair saved code clientId clientSecret redirectUri
      codeVerifier call
    rcases Provenance.inv_runCalls env svc grants tokens crypto calls db sched with ⟨γ, inv⟩
    rcases inv.exchanges e mem pair.1 pair.2 saved _ _ _ _ _ call with ⟨g, now, accepted, -⟩
    exact ⟨g, now, accepted.timely, accepted.unexpired⟩

end Runs

/-! ## A store delivers an expired code -/

/-- A code that expires in second 5. -/
def shortCode : OAuth2AuthCode :=
  { code := "c", clientId := "app", userId := "alice", scope := "openid", redirectUri := ""
    codeChallenge := "", codeChallengeMethod := "", nonce := "", expiresAt := 5 }

/-- The code is saved and then consumed. -/
def shortCalls : Fin 2 → GrantCall
  | 0 => .saveAuthCode shortCode
  | 1 => .consumeAuthCode "c" ""

/-- The first step happens in second 1, the others in second 1000. -/
def lateEnv : Env := fun n =>
  { now := if n = 0 then 1000 else 1000000 }

/-- The code is saved, consumed, saved again and consumed again. -/
def againCalls : Fin 4 → GrantCall
  | 0 | 2 => .saveAuthCode shortCode
  | 1 | 3 => .consumeAuthCode "c" ""

/-- A code that was saved twice is delivered twice, with the second save in between. -/
theorem delivered_again :
    let c := runGrants lateEnv .memory againCalls Sample.db [0, 1, 2, 3]
    c.answer? 1 = some (.code (some { shortCode with used := true })) ∧
      c.answer? 3 = some (.code (some { shortCode with used := true })) ∧
      ∃ e ∈ c.store.log, ∃ e' ∈ c.store.log,
        e.thread = 1 ∧ e'.thread = 3 ∧ Takes "c" e ∧ Takes "c" e' ∧
          (SavedBetween "c" c.store.log e e' ∨ SavedBetween "c" c.store.log e' e) := by
  intro c
  have first : c.answer? 1 = some (.code (some { shortCode with used := true })) := by decide
  have second : c.answer? 3 = some (.code (some { shortCode with used := true })) := by decide
  exact ⟨first, second, (consumeAuthCode_single_use lateEnv .memory).1 againCalls Sample.db
    [0, 1, 2, 3] 1 3 "c" "" "" _ _ (by decide) rfl rfl first second⟩

/-- Saved in second 1, the code is delivered in second 1000. -/
theorem expired_code_delivered :
    shortCode.expiresAt < (lateEnv 1).seconds ∧
      (runGrants lateEnv .memory shortCalls Sample.db [0, 1]).answer? 1 =
        some (.code (some { shortCode with used := true })) ∧
      (runGrants lateEnv .postgres shortCalls Sample.db [0, 1]).answer? 1 =
        some (.code (some { shortCode with used := true })) := by
  decide +kernel

end Fulla.SingleUse
