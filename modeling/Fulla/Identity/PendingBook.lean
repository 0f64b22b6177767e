import Fulla.Identity.PendingMfa

/-!
# Who opened a binding and who cleared it

A login opens a binding in the row of its user and a verification that succeeds
clears one.  As long as every clearing `UPDATE` still finds the binding that its
request was checked against, the login that opened the current binding belongs to
the verification that clears it, and to no other: `Book` keeps that account along
a run.
-/

namespace Fulla.PendingMfa

open Conc

/-- The requests of a login with a second factor. -/
inductive MfaCall where
  | login (req : LoginRequest)
  | verifyLogin (req : VerifyLoginRequest)

/-- The program that a request runs. -/
def MfaCall.prog (cfg : MfaSite) : MfaCall → MfaProg Response
  | login req => SessionController.login cfg req
  | verifyLogin req => MfaController.verifyLogin cfg req

abbrev MfaEvent (ι : Type) := Event MfaSig ι MfaDb

/-- The database with the log of the steps. -/
abbrev MfaWorld (ι : Type) := World MfaSig ι MfaDb

/-- Nobody is waiting for a second factor. -/
def withoutPending (s : MfaDb) : MfaDb :=
  { s with
    users := s.users.modify
      (fun u => { u with mfaPendingClientId := none, mfaPendingRedirectUri := none }) fun _ => rfl }

/-- Run a schedule of logins and verifications. -/
def runMfa {ι : Type} [DecidableEq ι] (cfg : MfaSite) (env : Nat → MfaMoment) (calls : ι → MfaCall)
    (s : MfaDb) (sched : List ι) : Pool MfaSig ι Response (MfaWorld ι) :=
  Pool.run (World.handler fun n => execMfa (env n))
    { store := World.start s, prog := fun i => (calls i).prog cfg } sched

/-- The binding of a user, if both columns are set. -/
def pendingOf (users : UserRows) (u : Int) : Option (String × String) := do
  let row ← users.find? u
  let clientId ← row.mfaPendingClientId
  let redirectUri ← row.mfaPendingRedirectUri
  return (clientId, redirectUri)

section Log

variable {ι : Type}

/-- The event has opened a binding for `u`. -/
def opens (u : Int) : MfaEvent ι → Bool
  | ⟨_, _, .inr (.inl (.update id (.pendingBinding (some _) (some _)))), ok, _⟩ =>
    (ok : Bool) && decide (id = u)
  | _ => false

/-- The event has cleared the binding of `u`. -/
def clears (u : Int) : MfaEvent ι → Bool
  | ⟨_, _, .inr (.inl (.update id (.pendingBinding none none))), ok, _⟩ =>
    (ok : Bool) && decide (id = u)
  | _ => false

/-- No look-up of a single row is refused, and a clearing `UPDATE` is accepted and finds the
binding its request names. -/
def clearsOwn (calls : ι → MfaCall) : MfaEvent ι → Bool
  | ⟨_, _, .inr (.inl (.selectById _)), found, _⟩ => Option.isSome found
  | ⟨_, _, .inr (.inl (.selectByPublicSub _)), found, _⟩ => Option.isSome found
  | ⟨i, _, .inr (.inl (.update id (.pendingBinding none none))), ok, pre⟩ =>
    (ok : Bool) &&
      match calls i with
      | .verifyLogin req => decide (pendingOf pre.users id = some (req.clientId, req.redirectUri))
      | .login _ => true
  | _ => true

/-- Call `i` is a verification that has returned a pair of tokens. -/
def Completed (calls : ι → MfaCall) (c : Pool MfaSig ι Response (MfaWorld ι)) (i : ι) : Prop :=
  ∃ req json remaining, calls i = .verifyLogin req ∧ c.answer? i = some (.tokens json remaining)

/-- Verification `i` has cleared the binding that login `j` had opened before, for the same
user, client and redirect URI. -/
def ClearedAfter (calls : ι → MfaCall) (s : MfaDb) (log : List (MfaEvent ι)) (i j : ι) : Prop :=
  ∃ verify login u, calls i = .verifyLogin verify ∧ calls j = .login login ∧
    login.clientId = verify.clientId ∧ login.redirectUri = verify.redirectUri ∧
    (s.users.find? u).map (fun row => row.publicSub) = some verify.mfaToken ∧
    ∃ e ∈ log, ∃ e' ∈ log, e.thread = j ∧ opens u e = true ∧ e'.thread = i ∧ clears u e' = true ∧
      e.tick < e'.tick

end Log

/-! ## The invariant -/

/-- What a call has done to the binding of a user. -/
inductive Mark where
  | idle
  | opened (u : Int)
  | cleared

section Invariant

variable {ι : Type}

/-- `owner u` is the login that opened the current binding of `u`, and `taken i` the login
whose binding verification `i` has cleared. -/
structure Book (calls : ι → MfaCall) (s : MfaDb) (w : MfaWorld ι) (γ : ι → Mark)
    (owner : Int → Option ι) (taken : ι → Option ι) : Prop where
  opened : ∀ j u, (∃ e ∈ w.log, e.thread = j ∧ opens u e = true) → γ j = .opened u
  owned : ∀ u j, owner u = some j → (∃ e ∈ w.log, e.thread = j ∧ opens u e = true) ∧
    ∃ login, calls j = .login login ∧
      pendingOf w.db.users u = some (login.clientId, login.redirectUri)
  free : ∀ u, owner u = none → pendingOf w.db.users u = none
  single : ∀ i i' j, taken i = some j → taken i' = some j → i = i'
  unused : ∀ u j i, owner u = some j → taken i ≠ some j
  taken_ok : ∀ i j, taken i = some j → ClearedAfter calls s w.log i j
  cleared : ∀ i, γ i = .cleared → (taken i).isSome = true

/-- The invariant of all runs, and that of the runs in which every clearing `UPDATE` finds
its binding. -/
structure Shared (calls : ι → MfaCall) (s : MfaDb) (w : MfaWorld ι) (γ : ι → Mark) : Prop where
  ticks : ∀ e ∈ w.log, e.tick < w.tick
  subs : ∀ id, (w.db.users.find? id).map (fun row => row.publicSub) =
    (s.users.find? id).map fun row => row.publicSub
  book : (∀ e ∈ w.log, clearsOwn calls e = true) → ∃ owner taken, Book calls s w γ owner taken

variable {calls : ι → MfaCall} {s : MfaDb} {w w' : MfaWorld ι} {γ : ι → Mark}
  {owner : Int → Option ι} {taken : ι → Option ι} {e : MfaEvent ι}

theorem ClearedAfter.mono {i j : ι} (after : ClearedAfter calls s w.log i j)
    (log : w'.log = e :: w.log) : ClearedAfter calls s w'.log i j := by
  obtain ⟨verify, login, u, hv, hl, client, uri, sub, e₁, mem₁, e₂, mem₂, rest⟩ := after
  refine ⟨verify, login, u, hv, hl, client, uri, sub, e₁, ?_, e₂, ?_, rest⟩
  · rw [log]
    exact List.mem_cons_of_mem _ mem₁
  · rw [log]
    exact List.mem_cons_of_mem _ mem₂

/-- A step that leaves every binding alone. -/
theorem Book.frame (book : Book calls s w γ owner taken) (log : w'.log = e :: w.log)
    (silent : ∀ u, opens u e = false)
    (same : ∀ u, pendingOf w'.db.users u = pendingOf w.db.users u) :
    Book calls s w' γ owner taken := by
  constructor
  case opened =>
    intro j u found
    obtain ⟨e', mem, thread, opens_⟩ := found
    rw [log] at mem
    rcases List.mem_cons.mp mem with rfl | old
    · rw [silent u] at opens_
      cases opens_
    · exact book.opened j u ⟨e', old, thread, opens_⟩
  case owned =>
    intro u j own
    obtain ⟨⟨e', mem, thread, opens_⟩, login⟩ := book.owned u j own
    rw [same]
    exact ⟨⟨e', log ▸ List.mem_cons_of_mem _ mem, thread, opens_⟩, login⟩
  case free =>
    intro u none_
    rw [same]
    exact book.free u none_
  case single => exact book.single
  case unused => exact book.unused
  case taken_ok => exact fun i j has => (book.taken_ok i j has).mono log
  case cleared => exact book.cleared

variable [DecidableEq ι] {i : ι} {u : Int}

/-- Login `i` opens a binding; whatever was there is overwritten. -/
theorem Book.open_ (book : Book calls s w γ owner taken) (log : w'.log = e :: w.log)
    {login : LoginRequest} (call : calls i = .login login) (fresh : γ i = .idle)
    (thread : e.thread = i) (opens_ : opens u e = true) (only : ∀ v ≠ u, opens v e = false)
    (after : pendingOf w'.db.users u = some (login.clientId, login.redirectUri))
    (other : ∀ v ≠ u, pendingOf w'.db.users v = pendingOf w.db.users v) :
    Book calls s w' (Function.update γ i (.opened u)) (Function.update owner u (some i)) taken := by
  have new (j : ι) (v : Int) (found : ∃ e ∈ w.log, e.thread = j ∧ opens v e = true) : j ≠ i := by
    intro eq
    have marked := book.opened j v found
    rw [eq, fresh] at marked
    cases marked
  constructor
  case opened =>
    intro j v found
    obtain ⟨e', mem, own, opens'⟩ := found
    rw [log] at mem
    rcases List.mem_cons.mp mem with rfl | old
    · have eq : v = u := by
        by_contra ne
        rw [only v ne] at opens'
        cases opens'
      rw [eq, ← own, thread, Function.update_self]
    · have older : ∃ e ∈ w.log, e.thread = j ∧ opens v e = true := ⟨e', old, own, opens'⟩
      rw [Function.update_of_ne (new j v older)]
      exact book.opened j v older
  case owned =>
    intro v j own
    by_cases eq : v = u
    · subst eq
      rw [Function.update_self] at own
      cases own
      exact ⟨⟨e, log ▸ List.mem_cons_self, thread, opens_⟩, login, call, after⟩
    · rw [Function.update_of_ne eq] at own
      obtain ⟨⟨e', mem, rest⟩, was⟩ := book.owned v j own
      rw [other v eq]
      exact ⟨⟨e', log ▸ List.mem_cons_of_mem _ mem, rest⟩, was⟩
  case free =>
    intro v none_
    by_cases eq : v = u
    · subst eq
      rw [Function.update_self] at none_
      cases none_
    · rw [Function.update_of_ne eq] at none_
      rw [other v eq]
      exact book.free v none_
  case single => exact book.single
  case unused =>
    intro v j i' own has
    by_cases eq : v = u
    · subst eq
      rw [Function.update_self] at own
      cases own
      obtain ⟨-, -, v', -, -, -, -, -, e₁, mem₁, -, -, thread₁, opens₁, -⟩ := book.taken_ok i' i has
      exact new i v' ⟨e₁, mem₁, thread₁, opens₁⟩ rfl
    · rw [Function.update_of_ne eq] at own
      exact book.unused v j i' own has
  case taken_ok => exact fun i' j has => (book.taken_ok i' j has).mono log
  case cleared =>
    intro i' marked
    by_cases eq : i' = i
    · rw [eq, Function.update_self] at marked
      cases marked
    · rw [Function.update_of_ne eq] at marked
      exact book.cleared i' marked

/-- Verification `i` clears the binding that its request names. -/
theorem Book.clear (book : Book calls s w γ owner taken) (log : w'.log = e :: w.log)
    (ticks : ∀ e ∈ w.log, e.tick < w.tick) (tick : e.tick = w.tick) {verify : VerifyLoginRequest}
    (call : calls i = .verifyLogin verify) (thread : e.thread = i) (clears_ : clears u e = true)
    (silent : ∀ v, opens v e = false)
    (sub : (s.users.find? u).map (fun row => row.publicSub) = some verify.mfaToken)
    (fresh : ∀ v, γ i ≠ .opened v)
    (before : pendingOf w.db.users u = some (verify.clientId, verify.redirectUri))
    (after : pendingOf w'.db.users u = none)
    (other : ∀ v ≠ u, pendingOf w'.db.users v = pendingOf w.db.users v) :
    ∃ owner' taken', Book calls s w' (Function.update γ i .cleared) owner' taken' := by
  cases current : owner u with
  | none =>
      rw [book.free u current] at before
      cases before
  | some j =>
      obtain ⟨⟨e₁, mem₁, thread₁, opens₁⟩, login, called, pending⟩ := book.owned u j current
      rw [before] at pending
      have same : verify.clientId = login.clientId ∧ verify.redirectUri = login.redirectUri := by
        simpa using pending
      have mine : ClearedAfter calls s w'.log i j :=
        ⟨verify, login, u, call, called, same.1.symm, same.2.symm, sub, e₁,
          log ▸ List.mem_cons_of_mem _ mem₁, e, log ▸ List.mem_cons_self, thread₁, opens₁, thread,
          clears_, tick ▸ ticks e₁ mem₁⟩
      have others (i' : ι) : taken i' ≠ some j := fun has => book.unused u j i' current has
      refine ⟨Function.update owner u none, Function.update taken i (some j), ?_⟩
      constructor
      case opened =>
        intro j' v found
        obtain ⟨e', mem, own, opens'⟩ := found
        rw [log] at mem
        rcases List.mem_cons.mp mem with rfl | old
        · rw [silent v] at opens'
          cases opens'
        · have marked := book.opened j' v ⟨e', old, own, opens'⟩
          have ne : j' ≠ i := by
            intro eq
            rw [eq] at marked
            exact fresh v marked
          rwa [Function.update_of_ne ne]
      case owned =>
        intro v j' own
        by_cases eq : v = u
        · rw [eq, Function.update_self] at own
          cases own
        · rw [Function.update_of_ne eq] at own
          obtain ⟨⟨e', mem, rest⟩, was⟩ := book.owned v j' own
          rw [other v eq]
          exact ⟨⟨e', log ▸ List.mem_cons_of_mem _ mem, rest⟩, was⟩
      case free =>
        intro v none_
        by_cases eq : v = u
        · rw [eq]
          exact after
        · rw [Function.update_of_ne eq] at none_
          rw [other v eq]
          exact book.free v none_
      case single =>
        intro i₁ i₂ j' has₁ has₂
        by_cases eq₁ : i₁ = i
        · by_cases eq₂ : i₂ = i
          · rw [eq₁, eq₂]
          · rw [eq₁, Function.update_self] at has₁
            rw [Function.update_of_ne eq₂] at has₂
            cases has₁
            exact absurd has₂ (others i₂)
        · rw [Function.update_of_ne eq₁] at has₁
          by_cases eq₂ : i₂ = i
          · rw [eq₂, Function.update_self] at has₂
            cases has₂
            exact absurd has₁ (others i₁)
          · rw [Function.update_of_ne eq₂] at has₂
            exact book.single i₁ i₂ j' has₁ has₂
      case unused =>
        intro v j' i' own has
        by_cases eqv : v = u
        · rw [eqv, Function.update_self] at own
          cases own
        · rw [Function.update_of_ne eqv] at own
          by_cases eq : i' = i
          · rw [eq, Function.update_self] at has
            cases has
            -- one login does not open bindings for two users
            obtain ⟨found, -⟩ := book.owned v j own
            have marked := book.opened j v found
            rw [book.opened j u ⟨e₁, mem₁, thread₁, opens₁⟩] at marked
            exact eqv (Mark.opened.inj marked).symm
          · rw [Function.update_of_ne eq] at has
            exact book.unused v j' i' own has
      case taken_ok =>
        intro i' j' has
        by_cases eq : i' = i
        · rw [eq, Function.update_self] at has
          cases has
          rw [eq]
          exact mine
        · rw [Function.update_of_ne eq] at has
          exact (book.taken_ok i' j' has).mono log
      case cleared =>
        intro i' marked
        by_cases eq : i' = i
        · rw [eq, Function.update_self]
          rfl
        · rw [Function.update_of_ne eq] at marked ⊢
          exact book.cleared i' marked

end Invariant

/-! ## Statements -/

section Statements

variable {ι : Type} [DecidableEq ι] {α : Type} {env : Nat → MfaMoment} {calls : ι → MfaCall}
  {s : MfaDb} {i : ι}

abbrev mfaHandler (env : Nat → MfaMoment) : ι → Handler MfaSig (MfaWorld ι) :=
  World.handler fun n => execMfa (env n)

/-- The handler of the statements to the user table. -/
abbrev userHandler (env : Nat → MfaMoment) : ι → Handler UserSig (MfaWorld ι) := fun i o w =>
  mfaHandler env i (.inr (.inl o)) w

/-- The statement leaves every binding alone. -/
def Plain : UserOp → Prop
  | .update _ (.pendingBinding _ _) => False
  | _ => True

/-- The operation leaves every binding alone. -/
def PlainOp : MfaSig.Op → Prop
  | .inr (.inl o) => Plain o
  | _ => True

omit [DecidableEq ι] in
theorem opens_of_plain {o : MfaSig.Op} {n : Nat} {r : MfaSig.Res o} {pre : MfaDb}
    (plain : PlainOp o) (u : Int) : opens u (⟨i, n, o, r, pre⟩ : MfaEvent ι) = false := by
  cases o with
  | inl o => rfl
  | inr o =>
      cases o with
      | inl o =>
          cases o with
          | update id columns => cases columns <;> first | rfl | exact plain.elim
          | _ => rfl
      | inr o => rfl

theorem pendingOf_update {users : UserRows} {id u : Int} {f : UserRow → UserRow}
    {same : ∀ r, (f r).id = r.id}
    (keeps : ∀ r, (f r).mfaPendingClientId = r.mfaPendingClientId ∧
      (f r).mfaPendingRedirectUri = r.mfaPendingRedirectUri) :
    pendingOf (users.update id f same) u = pendingOf users u := by
  have views := users.map_find?_update id u f same
    (fun r => (r.mfaPendingClientId, r.mfaPendingRedirectUri)) fun r => by
      rw [(keeps r).1, (keeps r).2]
  unfold pendingOf
  cases before : users.find? u with
  | none =>
      rw [before, Option.map_none, Option.map_eq_none_iff] at views
      rw [views]
  | some r =>
      rw [before] at views
      obtain ⟨r', found, eq⟩ := Option.map_eq_some_iff.mp views
      rw [found]
      simp only [Option.bind_eq_bind, Option.bind_some]
      rw [(Prod.mk.inj eq).1, (Prod.mk.inj eq).2]

theorem pendingOf_of_plain (m : UserMoment) (users : UserRows) {o : UserOp} (plain : Plain o)
    (u : Int) : pendingOf (execUser m o users).2 u = pendingOf users u := by
  cases o with
  | update id columns =>
      simp only [execUser]
      split
      · rfl
      · cases columns with
        | pendingBinding c r => exact plain.elim
        | _ =>
            apply pendingOf_update
            · exact UserColumns.apply_id _
            · exact fun _ => ⟨rfl, rfl⟩
  | casBackupCodes id updated stored =>
      simp only [execUser]
      split
      · rfl
      · split
        · rfl
        · split
          · apply pendingOf_update
            · exact fun _ => rfl
            · exact fun _ => ⟨rfl, rfl⟩
          · rfl
  | _ => rfl

/-- The binding of one row is set. -/
theorem pendingOf_bind {users : UserRows} {u : Int} {row : UserRow}
    (found : users.find? u = some row)
    (c r : Option String) :
    pendingOf (users.update u (UserColumns.pendingBinding c r).apply
        (UserColumns.pendingBinding c r).apply_id) u = (do return (← c, ← r)) ∧
      ∀ v ≠ u, pendingOf (users.update u (UserColumns.pendingBinding c r).apply
        (UserColumns.pendingBinding c r).apply_id) v = pendingOf users v := by
  constructor
  · unfold pendingOf
    rw [UserRows.find?_update, if_pos rfl, found]
    rfl
  · intro v ne
    unfold pendingOf
    rw [UserRows.find?_update, if_neg ne]

omit [DecidableEq ι] in
/-- Every step is later than those before it and leaves the subjects alone. -/
theorem Shared.next {w : MfaWorld ι} {γ γ' : ι → Mark} {o : MfaSig.Op} (shared : Shared calls s w γ)
    (book : (∀ e ∈ (mfaHandler env i o w).2.log, clearsOwn calls e = true) →
      ∃ owner taken, Book calls s (mfaHandler env i o w).2 γ' owner taken) :
    Shared calls s (mfaHandler env i o w).2 γ' := by
  refine ⟨?_, ?_, book⟩
  · intro e mem
    rcases List.mem_cons.mp mem with rfl | old
    · exact Nat.lt_succ_self _
    · exact Nat.lt_succ_of_lt (shared.ticks e old)
  · intro id
    rw [← shared.subs id]
    cases o with
    | inl o => rfl
    | inr o =>
        cases o with
        | inl o => exact execUser_publicSub _ _ o id
        | inr o => cases o <;> rfl

omit [DecidableEq ι] in
theorem Shared.plain {w : MfaWorld ι} {γ : ι → Mark} {o : MfaSig.Op} (shared : Shared calls s w γ)
    (plain : PlainOp o) : Shared calls s (mfaHandler env i o w).2 γ := by
  refine shared.next fun settled => ?_
  obtain ⟨owner, taken, book⟩ := shared.book fun e mem => settled e (List.mem_cons_of_mem _ mem)
  refine ⟨owner, taken, book.frame rfl (opens_of_plain plain) fun u => ?_⟩
  cases o with
  | inl o => rfl
  | inr o =>
      cases o with
      | inl o => exact pendingOf_of_plain _ _ plain u
      | inr o => cases o <;> rfl

theorem keeps_plain {p : MfaProg α} {g : Mark} (only : p.Only PlainOp) :
    Keeps (mfaHandler env) (Shared calls s) i (fun _ g' => g' = g) p g :=
  Keeps.of_only only (fun _ _ _ plain shared => shared.plain plain) fun _ => rfl

/-- Programs of the token service. -/
theorem keeps_store {p : StoreProg α} {g : Mark} :
    Keeps (mfaHandler env) (Shared calls s) i (fun _ g' => g' = g) (MfaProg.store p) g :=
  keeps_plain (Prog.Only.inl (Prog.only_of_forall fun _ => trivial))

theorem keeps_ask {o : MfaOp} {g : Mark} :
    Keeps (mfaHandler env) (Shared calls s) i (fun _ g' => g' = g) (MfaProg.ask o) g :=
  keeps_plain (Prog.only_call.mpr trivial)

/-- Programs over the user table. -/
theorem keeps_users {p : UserProg α} {Q : α → Mark → Prop} {g : Mark}
    (keeps : Keeps (userHandler env) (Shared calls s) i Q p g) :
    Keeps (mfaHandler env) (Shared calls s) i Q (MfaProg.users p) g :=
  Keeps.inr (Keeps.inl keeps)

theorem keeps_plain_users {p : UserProg α} {g : Mark} (only : p.Only Plain) :
    Keeps (userHandler env) (Shared calls s) i (fun _ g' => g' = g) p g :=
  Keeps.of_only only (fun o _ _ plain shared => shared.plain (o := .inr (.inl o)) plain)
    fun _ => rfl

end Statements

end Fulla.PendingMfa
