import Mathlib.Data.List.Perm.Basic
import Fulla.Access.Scopes
import Fulla.Conc.Tasks

/-!
# The fan-in of `evaluateScopes`

`AuthorizationService::evaluateScopes` asks for the consent of every requested scope at
once.  The answers arrive in any order; each of them enters its scope into a map and
counts down under one mutex, and whoever reaches zero evaluates all scopes over the map
and calls back.

`calls_evaluateScopes`: what the callback has been called with when nothing is in flight any
more does not depend on the order.  Mostly it is called once, with what the sequential
evaluation answers; but a callback that throws in the last finisher is called again, and an
empty subject leaves the request without an answer (`evaluateScopes_fans_in`).
-/

namespace Fulla

open Conc

/-- The answers of one request and the callback it was given. -/
structure ScopeService where
  /-- Absent when no client repository is wired. -/
  getClient : Option (String → Option OAuth2Client)
  adminScopes : List String
  ports : ScopePorts
  /-- Whether the callback returns when it is handed a summary, or throws. -/
  callbackReturns : ScopeValidationSummary → Bool := fun _ => true

/-- The operations of an evaluation of scopes. -/
inductive ScopeOp where
  | getClient (clientId : String)
  | resolve (subject : String)
  | getRoles (internalUserId : Int)
  | getRolePermissions (roles : List String)
  /-- The map and the counter of the fan-out come into being. -/
  | allocate (remaining : Nat)
  | hasUserConsent (internalUserId : Int) (clientId scope : String)
  | hasOrgConsentForUser (internalUserId : Int) (clientId scope : String)
  /-- The locked part of the finisher: whether it reached zero. -/
  | finish (scope : String) (hasConsent : Bool)
  /-- The map as the evaluation reads it. -/
  | consentMap
  /-- The caller's callback: whether it returns. -/
  | callback (summary : ScopeValidationSummary)

abbrev ScopeSig : Sig where
  Op := ScopeOp
  Res
    | .getClient _ => Option OAuth2Client
    | .resolve _ => Option Int
    | .getRoles _ => List String
    | .getRolePermissions _ => List String
    | .allocate _ => Unit
    | .hasUserConsent _ _ _ => Bool
    | .hasOrgConsentForUser _ _ _ => Bool
    | .finish _ _ => Bool
    | .consentMap => String → Option Bool
    | .callback _ => Bool

/-- What the callbacks of one request share, and the calls of its own callback. -/
structure FanIn where
  consentMap : String → Option Bool := fun _ => none
  remaining : Nat := 0
  /-- Newest first. -/
  calls : List ScopeValidationSummary := []

namespace ScopeService

variable (svc : ScopeService)

/-- The consent tables do not change during a request. -/
def exec : (o : ScopeOp) → FanIn → ScopeSig.Res o × FanIn
  | .getClient clientId, s => (svc.getClient.bind fun get => get clientId, s)
  | .resolve subject, s => (svc.ports.subjectResolver.bind fun resolve => resolve subject, s)
  | .getRoles id, s =>
    ((svc.ports.roleProvider.map fun provider => provider.getRoles id).getD [], s)
  | .getRolePermissions roles, s =>
    (((svc.ports.roleProvider.bind RoleProvider.getRolePermissions).map fun get =>
      get roles).getD [], s)
  | .allocate n, s => ((), { s with consentMap := fun _ => none, remaining := n })
  | .hasUserConsent id clientId scope, s =>
    ((svc.ports.hasUserConsent.map fun has => has id clientId scope).getD false, s)
  | .hasOrgConsentForUser id clientId scope, s =>
    ((svc.ports.hasOrgConsentForUser.map fun has => has id clientId scope).getD false, s)
  | .finish scope hasConsent, s =>
    (s.remaining - 1 = 0,
      { s with
        consentMap := fun k => if k = scope then some hasConsent else s.consentMap k
        remaining := s.remaining - 1 })
  | .consentMap, s => (s.consentMap, s)
  | .callback summary, s => (svc.callbackReturns summary, { s with calls := summary :: s.calls })

/-- The program of a single operation that ends the request. -/
def reply (summary : ScopeValidationSummary) : Async ScopeSig :=
  .op (.callback summary) fun _ => .done

section Request

variable (clientId : String) (requestedScopes : List String) (client : OAuth2Client)
  (hasAdminRole : Bool) (userPermissions : List String)

/-- An admin-class scope that no permission of the user covers. -/
def scopeRequiresAdmin (scope : String) : Bool :=
  svc.adminScopes.contains scope && !userPermissions.contains scope

/-- The evaluation under the given consents. -/
def evaluated (hasConsentForScope : String → Bool) : ScopeValidationSummary :=
  ScopeDecisionEngine.evaluateScopes requestedScopes client hasAdminRole hasConsentForScope
    (svc.scopeRequiresAdmin userPermissions)

/-- After the lock is released: the last finisher evaluates and calls back.  An exception
that leaves the callback is answered by a second call of it. -/
def fire : Async ScopeSig :=
  .op .consentMap fun consentMap =>
    .op (.callback (svc.evaluated requestedScopes client hasAdminRole userPermissions
      fun s => (consentMap s).getD false)) fun returned =>
        if returned then .done
        else reply (AuthorizationService.allInvalid requestedScopes "internal_error")

/-- What every consent answer runs; the one that completes the summary calls back. -/
def finisher (scope : String) (hasConsent : Bool) : Async ScopeSig :=
  .op (.finish scope hasConsent) fun fire =>
    if fire then svc.fire requestedScopes client hasAdminRole userPermissions else .done

/-- The look-up in the organisations of the user. -/
def orgLookup (internalUserId : Int) (scope : String) : Async ScopeSig :=
  .op (.hasOrgConsentForUser internalUserId clientId scope) fun orgConsent =>
    svc.finisher requestedScopes client hasAdminRole userPermissions scope orgConsent

/-- The personal look-up comes first and may be enough. -/
def lookup (internalUserId : Int) (scope : String) : Async ScopeSig :=
  .op (.hasUserConsent internalUserId clientId scope) fun hasConsent =>
    if hasConsent || svc.ports.hasOrgConsentForUser.isNone then
      svc.finisher requestedScopes client hasAdminRole userPermissions scope hasConsent
    else svc.orgLookup clientId requestedScopes client hasAdminRole userPermissions internalUserId
      scope

/-- The loop over the requested scopes. -/
def fanOut (internalUserId : Int) : List String → Async ScopeSig
  | [] => .done
  | scope :: scopes =>
    .fork
      (svc.lookup clientId requestedScopes client hasAdminRole userPermissions internalUserId scope)
      (fanOut internalUserId scopes)

/-- What follows once it is known whether the user is an administrator. -/
def proceedWithAdminFlag (internalUserId : Option Int) : Async ScopeSig :=
  let withoutConsent := reply
    (svc.evaluated requestedScopes client hasAdminRole userPermissions fun _ => false)
  match svc.ports.hasUserConsent, internalUserId with
  | some _, some id =>
    if requestedScopes.isEmpty then withoutConsent
    else
      .op (.allocate requestedScopes.length) fun _ =>
        svc.fanOut clientId requestedScopes client hasAdminRole userPermissions id requestedScopes
  | _, _ => withoutConsent

end Request

/-- The roles, and the permissions they carry if the provider knows of any. -/
def withRoles (clientId : String) (requestedScopes : List String) (client : OAuth2Client)
    (internalUserId : Option Int) : Async ScopeSig :=
  let proceed := fun hasAdminRole userPermissions =>
    svc.proceedWithAdminFlag clientId requestedScopes client hasAdminRole userPermissions
      internalUserId
  if AuthorizationService.anyRequiresAdminRole requestedScopes svc.adminScopes = false then
    proceed false []
  else
    match svc.ports.roleProvider, internalUserId with
    | some provider, some id =>
      .op (.getRoles id) fun roles =>
        if provider.getRolePermissions.isNone then proceed (roles.contains "admin") []
        else
          .op (.getRolePermissions roles) fun permissions =>
            proceed (roles.contains "admin") permissions
    | _, _ => proceed false []

/-- `Subject` refuses an empty subject: the exception leaves the callback and nothing is
answered. -/
def withClient (clientId subject : String) (requestedScopes : List String)
    (client : OAuth2Client) : Async ScopeSig :=
  match svc.ports.subjectResolver with
  | none => svc.withRoles clientId requestedScopes client none
  | some _ =>
    if subject = "" then .done
    else .op (.resolve subject) fun internalUserId =>
      svc.withRoles clientId requestedScopes client internalUserId

/-- `AuthorizationService::evaluateScopes`, with its answers in any order. -/
def evaluateScopes (clientId subject : String) (requestedScopes : List String) : Async ScopeSig :=
  match svc.getClient with
  | none => reply (AuthorizationService.allInvalid requestedScopes "server_error")
  | some _ =>
    .op (.getClient clientId) fun clientOpt =>
      match clientOpt with
      | none => reply (AuthorizationService.allInvalid requestedScopes "client_not_found")
      | some client => svc.withClient clientId subject requestedScopes client

/-- What the request is to be answered with: one evaluation, scope by scope, with the
personal or the organisations' consent of each. -/
def sequential (clientId subject : String) (requestedScopes : List String) :
    ScopeValidationSummary :=
  match svc.getClient with
  | none => AuthorizationService.allInvalid requestedScopes "server_error"
  | some getClient =>
    AuthorizationService.evaluateScopes getClient svc.adminScopes svc.ports clientId subject
      requestedScopes

/-! ## Runs -/

/-- Any operation in flight may happen, and always can. -/
def execTask (_ : Unit) (o : ScopeOp) (s : FanIn) : Option (ScopeSig.Res o × FanIn) :=
  some (svc.exec o s)

/-- The request has just been made. -/
def start (clientId subject : String) (requestedScopes : List String) : Tasks ScopeSig FanIn where
  store := {}
  flights := (svc.evaluateScopes clientId subject requestedScopes).flights

/-- What is in flight at position `j` happens; no further request is made. -/
def happen (c : Tasks ScopeSig FanIn) (j : Nat) : Tasks ScopeSig FanIn :=
  c.move (C := Empty) svc.execTask (fun _ call => call.elim) (.happen j ())

/-- The positions of what happens next, one after the other. -/
def run (c : Tasks ScopeSig FanIn) (order : List Nat) : Tasks ScopeSig FanIn :=
  order.foldl svc.happen c

/-- The callback is called with `calls` (newest first), and with all of them when nothing is in
flight any more. -/
def CallsBack (calls : List ScopeValidationSummary) (s : FanIn)
    (flights : List (Flight ScopeSig)) : Prop :=
  ∀ log order, let c := svc.run { store := s, log := log, flights := flights } order
    c.store.calls <:+ calls ∧ (c.flights = [] → c.store.calls = calls)

section CallsBack

variable {svc} {calls : List ScopeValidationSummary} {result : ScopeValidationSummary}
  {s : FanIn} {flights : List (Flight ScopeSig)}

theorem run_cons {c : Tasks ScopeSig FanIn} {j : Nat} {order : List Nat} :
    svc.run c (j :: order) = svc.run (svc.happen c j) order :=
  rfl

/-- The operation at position `j` happens. -/
theorem happen_some {c : Tasks ScopeSig FanIn} {j : Nat} {f : Flight ScopeSig}
    (found : c.flights[j]? = some f) :
    svc.happen c j =
      { store := (svc.exec f.op c.store).2
        log := ⟨f.op, (svc.exec f.op c.store).1, c.store, (svc.exec f.op c.store).2⟩ :: c.log
        flights := c.flights.eraseIdx j ++ (f.next (svc.exec f.op c.store).1).flights } := by
  simp only [happen, Tasks.move, found, execTask]

theorem happen_none {c : Tasks ScopeSig FanIn} {j : Nat} (absent : c.flights[j]? = none) :
    svc.happen c j = c := by
  simp only [happen, Tasks.move, absent]

theorem calls_done (called : s.calls = calls) : svc.CallsBack calls s [] := by
  intro log order
  have stays : svc.run { store := s, log := log, flights := [] } order =
      { store := s, log := log, flights := [] } := by
    induction order with
    | nil => rfl
    | cons j order ih =>
        rw [run_cons, happen_none (by simp)]
        exact ih
  rw [stays]
  exact ⟨called ▸ List.suffix_rfl, fun _ => called⟩

/-- One operation in flight: it happens sooner or later. -/
theorem calls_single {o : ScopeOp} {next : ScopeSig.Res o → Async ScopeSig}
    (so_far : s.calls <:+ calls)
    (rest : svc.CallsBack calls (svc.exec o s).2 (next (svc.exec o s).1).flights) :
    svc.CallsBack calls s (Async.op o next).flights := by
  intro log order
  induction order with
  | nil => exact ⟨so_far, fun none => by cases none⟩
  | cons j order ih =>
      rw [run_cons]
      cases j with
      | zero =>
          rw [happen_some rfl]
          exact rest _ order
      | succ j =>
          rw [happen_none rfl]
          exact ih

/-- The operation in flight is one before any call. -/
theorem calls_first {o : ScopeOp} {next : ScopeSig.Res o → Async ScopeSig} (quiet : s.calls = [])
    (rest : svc.CallsBack calls (svc.exec o s).2 (next (svc.exec o s).1).flights) :
    svc.CallsBack calls s (Async.op o next).flights :=
  calls_single (quiet ▸ List.nil_suffix) rest

theorem calls_reply (quiet : s.calls = []) :
    svc.CallsBack [result] s (reply result).flights := by
  refine calls_first quiet (calls_done ?_)
  simp [exec, quiet]

end CallsBack

/-! ### The fan-out -/

section FanOut

variable {svc} {clientId : String} {requestedScopes : List String} {client : OAuth2Client}
  {hasAdminRole : Bool} {userPermissions : List String} {id : Int}

/-- The consent the look-ups of a scope end with. -/
def consent (svc : ScopeService) (clientId : String) (id : Int) (scope : String) : Bool :=
  AuthorizationService.consented svc.ports (some id) clientId scope

variable (svc clientId requestedScopes client hasAdminRole userPermissions id) in
/-- What may be in flight for a scope: one of its look-ups or its finisher. -/
inductive Pending (scope : String) : Async ScopeSig → Prop
  | personal : Pending scope
      (svc.lookup clientId requestedScopes client hasAdminRole userPermissions id scope)
  | org (answer : (svc.exec (.hasOrgConsentForUser id clientId scope) {}).1 =
      svc.consent clientId id scope) : Pending scope
      (svc.orgLookup clientId requestedScopes client hasAdminRole userPermissions id scope)
  | finish : Pending scope
      (svc.finisher requestedScopes client hasAdminRole userPermissions scope
        (svc.consent clientId id scope))

/-- The scope an operation in flight is for. -/
def scopeOf : Async ScopeSig → Option String
  | .op (.hasUserConsent _ _ scope) _ => some scope
  | .op (.hasOrgConsentForUser _ _ scope) _ => some scope
  | .op (.finish scope _) _ => some scope
  | _ => none

/-- The store after the finisher of a scope. -/
def FanIn.finished (s : FanIn) (scope : String) (hasConsent : Bool) : FanIn :=
  { s with
    consentMap := fun k => if k = scope then some hasConsent else s.consentMap k
    remaining := s.remaining - 1 }

theorem Pending.scopeOf {scope : String} {p : Async ScopeSig}
    (pending : Pending svc clientId requestedScopes client hasAdminRole userPermissions id scope
      p) :
    ScopeService.scopeOf p = some scope := by
  cases pending <;> rfl

/-- The personal look-up was not enough and there are organisations to ask. -/
theorem consent_of_org {scope : String} (personal : (svc.exec (.hasUserConsent id clientId scope)
    {}).1 = false) (wired : svc.ports.hasUserConsent.isSome = true) :
    (svc.exec (.hasOrgConsentForUser id clientId scope) {}).1 = svc.consent clientId id scope := by
  obtain ⟨has, eq⟩ := Option.isSome_iff_exists.mp wired
  simp only [exec, eq, Option.map_some, Option.getD_some] at personal
  cases org : svc.ports.hasOrgConsentForUser <;>
    simp [exec, consent, AuthorizationService.consented, eq, org, personal]

theorem consent_of_personal {scope : String} (wired : svc.ports.hasUserConsent.isSome = true)
    (enough : ((svc.exec (.hasUserConsent id clientId scope) {}).1 ||
      svc.ports.hasOrgConsentForUser.isNone) = true) :
    (svc.exec (.hasUserConsent id clientId scope) {}).1 = svc.consent clientId id scope := by
  obtain ⟨has, eq⟩ := Option.isSome_iff_exists.mp wired
  simp only [exec, eq, Option.map_some, Option.getD_some] at enough ⊢
  cases org : svc.ports.hasOrgConsentForUser with
  | none => simp [consent, AuthorizationService.consented, eq, org]
  | some has' =>
      simp only [org, Option.isNone_some, Bool.or_false] at enough
      simp [consent, AuthorizationService.consented, eq, enough]

/-- An answer for a scope leads to another operation for it, or its finisher has run. -/
theorem Pending.happens {scope : String} {f : Flight ScopeSig}
    (wired : svc.ports.hasUserConsent.isSome = true)
    (pending : Pending svc clientId requestedScopes client hasAdminRole userPermissions id scope
      (.op f.op f.next)) (s : FanIn) :
    ((svc.exec f.op s).2 = s ∧ ∃ f', (f.next (svc.exec f.op s).1).flights = [f'] ∧
        Pending svc clientId requestedScopes client hasAdminRole userPermissions id scope
          (.op f'.op f'.next)) ∨
      ((svc.exec f.op s).2 = FanIn.finished s scope (svc.consent clientId id scope) ∧
        (f.next (svc.exec f.op s).1).flights =
          if s.remaining - 1 = 0 then
            (svc.fire requestedScopes client hasAdminRole userPermissions).flights
          else []) := by
  obtain ⟨o, next⟩ := f
  generalize eq : Async.op o next = p at pending
  cases pending with
  | personal =>
      cases eq
      refine .inl ⟨rfl, ?_⟩
      by_cases enough : ((svc.exec (.hasUserConsent id clientId scope) {}).1 ||
          svc.ports.hasOrgConsentForUser.isNone) = true
      · refine ⟨_, congrArg Async.flights (if_pos enough), ?_⟩
        rw [show (svc.exec (.hasUserConsent id clientId scope) s).1 = _ from
          consent_of_personal wired enough]
        exact .finish
      · refine ⟨_, congrArg Async.flights (if_neg enough), ?_⟩
        rw [Bool.or_eq_true, not_or, Bool.not_eq_true] at enough
        exact .org (consent_of_org enough.1 wired)
  | org answer =>
      cases eq
      refine .inl ⟨rfl, _, rfl, ?_⟩
      rw [show (svc.exec (.hasOrgConsentForUser id clientId scope) s).1 = _ from answer]
      exact .finish
  | finish =>
      cases eq
      refine .inr ⟨rfl, ?_⟩
      by_cases last : s.remaining - 1 = 0
      · rw [if_pos last]
        exact congrArg Async.flights (if_pos (decide_eq_true last))
      · rw [if_neg last]
        exact congrArg Async.flights (if_neg (by simpa [exec] using last))

/-- The operation that happened apart, everything else is still in flight. -/
theorem mem_flights_iff {flights : List (Flight ScopeSig)} {j : Nat} {f g : Flight ScopeSig}
    (found : flights[j]? = some f) : g ∈ flights ↔ g = f ∨ g ∈ flights.eraseIdx j := by
  obtain ⟨bound, at_j⟩ := List.getElem?_eq_some_iff.mp found
  have moved : (f :: flights.eraseIdx j).Perm flights := by
    rw [← at_j]
    exact List.getElem_cons_eraseIdx_perm bound
  rw [← moved.mem_iff, List.mem_cons]

variable (svc clientId requestedScopes client hasAdminRole userPermissions id) in
/-- The fan-out is under way: the counter counts what is in flight, each of it for a scope,
and a requested scope is entered in the map or still being looked up. -/
structure Lookups (s : FanIn) (flights : List (Flight ScopeSig)) : Prop where
  quiet : s.calls = []
  counted : s.remaining = flights.length
  waiting : flights ≠ []
  pending : ∀ f ∈ flights, ∃ scope, Pending svc clientId requestedScopes client hasAdminRole
    userPermissions id scope (.op f.op f.next)
  right : ∀ k b, s.consentMap k = some b → b = svc.consent clientId id k
  covered : ∀ k ∈ requestedScopes, (s.consentMap k).isSome = true ∨
    ∃ f ∈ flights, scopeOf (.op f.op f.next) = some k

namespace Lookups

variable {s : FanIn} {flights : List (Flight ScopeSig)} {j : Nat} {f : Flight ScopeSig}
  {scope : String}

/-- A look-up leads to the next operation for its scope. -/
theorem goes_on {f' : Flight ScopeSig}
    (lookups : Lookups svc clientId requestedScopes client hasAdminRole userPermissions id s
      flights)
    (found : flights[j]? = some f)
    (for_scope : scopeOf (.op f.op f.next) = some scope)
    (pending : Pending svc clientId requestedScopes client hasAdminRole userPermissions id scope
      (.op f'.op f'.next)) :
    Lookups svc clientId requestedScopes client hasAdminRole userPermissions id s
      (flights.eraseIdx j ++ [f']) where
  quiet := lookups.quiet
  counted := by
    obtain ⟨bound, -⟩ := List.getElem?_eq_some_iff.mp found
    rw [lookups.counted, List.length_append, List.length_eraseIdx_of_lt bound,
      List.length_singleton]
    omega
  waiting := by simp
  pending g mem := by
    rcases List.mem_append.mp mem with old | new
    · exact lookups.pending g (List.mem_of_mem_eraseIdx old)
    · rw [List.mem_singleton.mp new]
      exact ⟨scope, pending⟩
  right := lookups.right
  covered k requested := by
    refine (lookups.covered k requested).imp_right fun ⟨g, mem, eq⟩ => ?_
    rcases (mem_flights_iff found).mp mem with rfl | old
    · refine ⟨f', by simp, ?_⟩
      rw [pending.scopeOf, ← for_scope, eq]
    · exact ⟨g, List.mem_append_left _ old, eq⟩

/-- The map after a finisher has the scope and is as right as before. -/
theorem finished_right
    (lookups : Lookups svc clientId requestedScopes client hasAdminRole userPermissions id s
      flights) (k : String) (b : Bool)
    (entered : (FanIn.finished s scope (svc.consent clientId id scope)).consentMap k = some b) :
    b = svc.consent clientId id k := by
  simp only [FanIn.finished] at entered
  split at entered
  · next same =>
      rw [same, Option.some.inj entered]
  · exact lookups.right k b entered

theorem finished_covered
    (lookups : Lookups svc clientId requestedScopes client hasAdminRole userPermissions id s
      flights)
    (found : flights[j]? = some f)
    (for_scope : scopeOf (.op f.op f.next) = some scope) (k : String)
    (requested : k ∈ requestedScopes) :
    ((FanIn.finished s scope (svc.consent clientId id scope)).consentMap k).isSome = true ∨
      ∃ g ∈ flights.eraseIdx j, scopeOf (.op g.op g.next) = some k := by
  simp only [FanIn.finished]
  by_cases same : k = scope
  · rw [if_pos same]
    exact .inl rfl
  · rw [if_neg same]
    refine (lookups.covered k requested).imp_right fun ⟨g, mem, eq⟩ => ?_
    rcases (mem_flights_iff found).mp mem with rfl | old
    · exact absurd (Option.some.inj (eq.symm.trans for_scope)) same
    · exact ⟨g, old, eq⟩

/-- A finisher that is not the last. -/
theorem counts_down
    (lookups : Lookups svc clientId requestedScopes client hasAdminRole userPermissions id s
      flights)
    (found : flights[j]? = some f)
    (for_scope : scopeOf (.op f.op f.next) = some scope) (more : s.remaining - 1 ≠ 0) :
    Lookups svc clientId requestedScopes client hasAdminRole userPermissions id
      (FanIn.finished s scope (svc.consent clientId id scope)) (flights.eraseIdx j) := by
  obtain ⟨bound, -⟩ := List.getElem?_eq_some_iff.mp found
  have left : s.remaining - 1 = (flights.eraseIdx j).length := by
    rw [List.length_eraseIdx_of_lt bound, lookups.counted]
  exact {
    quiet := lookups.quiet
    counted := left
    waiting := fun none => more (left.trans (by rw [none]; rfl))
    pending := fun g mem => lookups.pending g (List.mem_of_mem_eraseIdx mem)
    right := lookups.finished_right
    covered := lookups.finished_covered found for_scope }

/-- After the last finisher the map knows every requested scope. -/
theorem complete
    (lookups : Lookups svc clientId requestedScopes client hasAdminRole userPermissions id s
      flights)
    (found : flights[j]? = some f)
    (for_scope : scopeOf (.op f.op f.next) = some scope) (last : s.remaining - 1 = 0) :
    flights.eraseIdx j = [] ∧ ∀ k ∈ requestedScopes,
      ((FanIn.finished s scope (svc.consent clientId id scope)).consentMap k).getD false =
        svc.consent clientId id k := by
  obtain ⟨bound, -⟩ := List.getElem?_eq_some_iff.mp found
  have none_left : flights.eraseIdx j = [] := by
    rw [← List.length_eq_zero_iff, List.length_eraseIdx_of_lt bound, ← lookups.counted, last]
  refine ⟨none_left, fun k requested => ?_⟩
  rcases lookups.finished_covered found for_scope k requested with entered | ⟨g, mem, -⟩
  · obtain ⟨b, eq⟩ := Option.isSome_iff_exists.mp entered
    rw [eq, Option.getD_some]
    exact lookups.finished_right k b eq
  · rw [none_left] at mem
    cases mem

end Lookups

/-- Only the consents of the requested scopes matter. -/
theorem evaluated_congr {hasConsent hasConsent' : String → Bool}
    (same : ∀ k ∈ requestedScopes, hasConsent k = hasConsent' k) :
    svc.evaluated requestedScopes client hasAdminRole userPermissions hasConsent =
      svc.evaluated requestedScopes client hasAdminRole userPermissions hasConsent' := by
  apply List.foldl_ext
  intro summary scope requested
  simp only [ScopeDecisionEngine.evaluateListed, same scope requested]

variable (svc requestedScopes) in
/-- The calls of a callback that the last finisher hands `result`, newest first. -/
def firedCalls (result : ScopeValidationSummary) : List ScopeValidationSummary :=
  if svc.callbackReturns result then [result]
  else [AuthorizationService.allInvalid requestedScopes "internal_error", result]

/-- The last finisher calls back with the evaluation over the consents, and again if the
callback throws. -/
theorem calls_fire {s : FanIn} {result : ScopeValidationSummary} (quiet : s.calls = [])
    (known : svc.evaluated requestedScopes client hasAdminRole userPermissions
      (fun k => (s.consentMap k).getD false) = result) :
    svc.CallsBack (svc.firedCalls requestedScopes result) s
      (svc.fire requestedScopes client hasAdminRole userPermissions).flights := by
  refine calls_first quiet (calls_first quiet ?_)
  simp only [exec, known, firedCalls]
  cases svc.callbackReturns result with
  | true =>
      refine calls_done ?_
      simp [quiet]
  | false =>
      refine calls_single ?_ (calls_done ?_)
      · simp [quiet]
      · simp [exec, quiet]

/-- The look-ups under way end with the same calls, whatever order their answers come in. -/
theorem calls_lookups {s : FanIn} {flights : List (Flight ScopeSig)}
    {result : ScopeValidationSummary} (wired : svc.ports.hasUserConsent.isSome = true)
    (result_eq : svc.evaluated requestedScopes client hasAdminRole userPermissions
      (svc.consent clientId id) = result)
    (lookups : Lookups svc clientId requestedScopes client hasAdminRole userPermissions id s
      flights) : svc.CallsBack (svc.firedCalls requestedScopes result) s flights := by
  intro log order
  induction order generalizing s flights log with
  | nil =>
      exact ⟨lookups.quiet ▸ List.nil_suffix, fun none => absurd none lookups.waiting⟩
  | cons j order ih =>
      rw [run_cons]
      cases found : flights[j]? with
      | none =>
          rw [happen_none found]
          exact ih lookups log
      | some f =>
          rw [happen_some found]
          obtain ⟨scope, pending⟩ := lookups.pending f (List.mem_of_getElem? found)
          rcases pending.happens wired s with ⟨same, f', next, pending'⟩ | ⟨finished, next⟩
          · rw [same, next]
            exact ih (lookups.goes_on found pending.scopeOf pending') _
          · rw [finished, next]
            by_cases last : s.remaining - 1 = 0
            · obtain ⟨none_left, known⟩ := lookups.complete found pending.scopeOf last
              rw [if_pos last, none_left, List.nil_append]
              refine calls_fire (s := FanIn.finished s scope _) lookups.quiet ?_ _ order
              exact (evaluated_congr known).trans result_eq
            · rw [if_neg last, List.append_nil]
              exact ih (lookups.counts_down found pending.scopeOf last) _

/-- The loop sends one look-up for each requested scope. -/
theorem flights_fanOut (scopes : List String) :
    (svc.fanOut clientId requestedScopes client hasAdminRole userPermissions id scopes).flights =
      scopes.flatMap fun scope =>
        (svc.lookup clientId requestedScopes client hasAdminRole userPermissions id
          scope).flights := by
  induction scopes with
  | nil => rfl
  | cons scope scopes ih =>
      rw [List.flatMap_cons, ← ih]
      rfl

theorem mem_flights_fanOut {scopes : List String} {f : Flight ScopeSig} :
    f ∈ (svc.fanOut clientId requestedScopes client hasAdminRole userPermissions id
        scopes).flights ↔
      ∃ scope ∈ scopes, Async.op f.op f.next =
        svc.lookup clientId requestedScopes client hasAdminRole userPermissions id scope := by
  rw [flights_fanOut, List.mem_flatMap]
  refine exists_congr fun scope => and_congr_right fun _ => ?_
  simp only [lookup, Async.flights, List.mem_singleton]
  constructor
  · intro eq
    rw [eq]
  · intro eq
    cases f
    injection eq with op next
    cases op
    cases next
    rfl

/-- Before anything has happened. -/
theorem lookups_fanOut {s : FanIn} (quiet : s.calls = []) (requested : requestedScopes ≠ []) :
    Lookups svc clientId requestedScopes client hasAdminRole userPermissions id
      (svc.exec (.allocate requestedScopes.length) s).2
      (svc.fanOut clientId requestedScopes client hasAdminRole userPermissions id
        requestedScopes).flights where
  quiet := quiet
  counted := by simp [exec, flights_fanOut, lookup, Async.flights]
  waiting none := by
    rw [flights_fanOut] at none
    refine requested (List.eq_nil_iff_forall_not_mem.mpr ?_)
    simpa [lookup, Async.flights] using none
  pending f mem := by
    obtain ⟨scope, -, eq⟩ := mem_flights_fanOut.mp mem
    rw [eq]
    exact ⟨scope, .personal⟩
  right k b entered := by cases entered
  covered k mem := by
    refine .inr ⟨⟨_, _⟩, mem_flights_fanOut.mpr ⟨k, mem, rfl⟩, rfl⟩

end FanOut

/-! ### The whole request -/

/-- The consent of each scope is looked up, and the callback is called in the last finisher. -/
def FansOut (internalUserId : Option Int) (requestedScopes : List String) : Prop :=
  svc.ports.hasUserConsent.isSome = true ∧ internalUserId.isSome = true ∧ requestedScopes ≠ []

/-- `Subject` throws at the subject. -/
def SubjectRefused (subject : String) : Prop :=
  svc.ports.subjectResolver.isSome = true ∧ subject = ""

instance (internalUserId : Option Int) (requestedScopes : List String) :
    Decidable (svc.FansOut internalUserId requestedScopes) :=
  inferInstanceAs (Decidable (_ ∧ _))

instance (subject : String) : Decidable (svc.SubjectRefused subject) :=
  inferInstanceAs (Decidable (_ ∧ _))

/-- The calls once client and subject are known: by the last finisher, or by the one answer of a
path that looks no consent up. -/
def answerCalls (internalUserId : Option Int) (requestedScopes : List String)
    (result : ScopeValidationSummary) : List ScopeValidationSummary :=
  if svc.FansOut internalUserId requestedScopes then svc.firedCalls requestedScopes result
  else [result]

/-- The calls for a known client: none for a subject that the evaluation throws at. -/
def clientCalls (subject : String) (requestedScopes : List String)
    (result : ScopeValidationSummary) : List ScopeValidationSummary :=
  if svc.SubjectRefused subject then []
  else
    svc.answerCalls (AuthorizationService.resolveInternalUserId svc.ports subject) requestedScopes
      result

/-- The calls of the callback, newest first, in a run that has come to its end. -/
def finalCalls (clientId subject : String) (requestedScopes : List String) :
    List ScopeValidationSummary :=
  let result := svc.sequential clientId subject requestedScopes
  match svc.getClient.bind fun get => get clientId with
  | none => [result]
  | some _ => svc.clientCalls subject requestedScopes result

section Whole

variable {svc} {clientId subject : String} {requestedScopes : List String} {client : OAuth2Client}
  {s : FanIn} {result : ScopeValidationSummary}

theorem calls_proceed {hasAdminRole : Bool} {userPermissions : List String}
    {internalUserId : Option Int} (quiet : s.calls = [])
    (result_eq : svc.evaluated requestedScopes client hasAdminRole userPermissions
      (AuthorizationService.consented svc.ports internalUserId clientId) = result) :
    svc.CallsBack (svc.answerCalls internalUserId requestedScopes result) s
      (svc.proceedWithAdminFlag clientId requestedScopes client hasAdminRole userPermissions
        internalUserId).flights := by
  cases wired : svc.ports.hasUserConsent with
  | none =>
      have none_consented : AuthorizationService.consented svc.ports internalUserId clientId =
          fun _ => false := by
        funext scope
        simp [AuthorizationService.consented, wired]
      rw [none_consented] at result_eq
      simp only [proceedWithAdminFlag, wired, result_eq]
      rw [answerCalls, if_neg (by simp [FansOut, wired])]
      exact calls_reply quiet
  | some has =>
      cases internalUserId with
      | none =>
          have none_consented : AuthorizationService.consented svc.ports none clientId =
              fun _ => false := by
            funext scope
            simp [AuthorizationService.consented, wired]
          rw [none_consented] at result_eq
          simp only [proceedWithAdminFlag, wired, result_eq]
          rw [answerCalls, if_neg (by simp [FansOut])]
          exact calls_reply quiet
      | some id =>
          simp only [proceedWithAdminFlag, wired]
          cases requestedScopes with
          | nil =>
              rw [answerCalls, if_neg (by simp [FansOut]), ← result_eq]
              exact calls_reply quiet
          | cons scope scopes =>
              rw [answerCalls, if_pos (by simp [FansOut, wired])]
              refine calls_first quiet ?_
              exact calls_lookups (by rw [wired]; rfl) result_eq
                (lookups_fanOut quiet (List.cons_ne_nil _ _))

/-- The facts are those of the sequential look-up. -/
theorem calls_withRoles {internalUserId : Option Int} (quiet : s.calls = [])
    (result_eq : svc.evaluated requestedScopes client
      (AuthorizationService.lookUpFacts svc.adminScopes svc.ports internalUserId requestedScopes).1
      (AuthorizationService.lookUpFacts svc.adminScopes svc.ports internalUserId requestedScopes).2
      (AuthorizationService.consented svc.ports internalUserId clientId) = result) :
    svc.CallsBack (svc.answerCalls internalUserId requestedScopes result) s
      (svc.withRoles clientId requestedScopes client internalUserId).flights := by
  unfold AuthorizationService.lookUpFacts at result_eq
  unfold withRoles
  cases needed : AuthorizationService.anyRequiresAdminRole requestedScopes svc.adminScopes with
  | false =>
      rw [needed] at result_eq
      exact calls_proceed quiet result_eq
  | true =>
      rw [needed, if_pos rfl] at result_eq
      simp only [Bool.true_eq_false, if_false]
      unfold AuthorizationService.adminFacts at result_eq
      cases provided : svc.ports.roleProvider with
      | none =>
          rw [provided] at result_eq
          exact calls_proceed quiet result_eq
      | some provider =>
          rw [provided] at result_eq
          cases internalUserId with
          | none => exact calls_proceed quiet result_eq
          | some id =>
              refine calls_first quiet ?_
              cases permissions : provider.getRolePermissions with
              | none =>
                  simp only [permissions, Option.isNone_none, if_true, exec, provided,
                    Option.map_some, Option.getD_some] at result_eq ⊢
                  exact calls_proceed quiet result_eq
              | some get =>
                  simp only [permissions, Option.isNone_some, Bool.false_eq_true, if_false, exec,
                    provided, Option.map_some, Option.getD_some] at result_eq ⊢
                  refine calls_first quiet ?_
                  simp only [exec, provided, permissions, Option.bind_some, Option.map_some,
                    Option.getD_some]
                  exact calls_proceed quiet result_eq

theorem calls_withClient (quiet : s.calls = [])
    (result_eq : svc.evaluated requestedScopes client
      (AuthorizationService.lookUpFacts svc.adminScopes svc.ports
        (AuthorizationService.resolveInternalUserId svc.ports subject) requestedScopes).1
      (AuthorizationService.lookUpFacts svc.adminScopes svc.ports
        (AuthorizationService.resolveInternalUserId svc.ports subject) requestedScopes).2
      (AuthorizationService.consented svc.ports
        (AuthorizationService.resolveInternalUserId svc.ports subject) clientId) = result) :
    svc.CallsBack (svc.clientCalls subject requestedScopes result) s
      (svc.withClient clientId subject requestedScopes client).flights := by
  unfold withClient clientCalls
  cases resolved : svc.ports.subjectResolver with
  | none =>
      rw [if_neg (by simp [SubjectRefused, resolved])]
      rw [AuthorizationService.resolveInternalUserId, resolved, Option.bind_none] at result_eq ⊢
      exact calls_withRoles quiet result_eq
  | some resolve =>
      by_cases empty : subject = ""
      · rw [if_pos (by simp [SubjectRefused, resolved, empty])]
        simp only [empty, if_true]
        exact calls_done quiet
      · rw [if_neg (by simp [SubjectRefused, empty])]
        simp only [empty, if_false]
        exact calls_first quiet (calls_withRoles quiet result_eq)

/-- The request as a whole. -/
theorem calls_evaluateScopes (quiet : s.calls = []) :
    svc.CallsBack (svc.finalCalls clientId subject requestedScopes) s
      (svc.evaluateScopes clientId subject requestedScopes).flights := by
  unfold finalCalls sequential evaluateScopes
  cases wired : svc.getClient with
  | none => exact calls_reply quiet
  | some getClient =>
      refine calls_first quiet ?_
      simp only [exec, wired, Option.bind_some, AuthorizationService.evaluateScopes]
      cases found : getClient clientId with
      | none => exact calls_reply quiet
      | some client => exact calls_withClient quiet rfl

/-- A run can be brought to its end. -/
theorem drained (c : Tasks ScopeSig FanIn) : ∃ more, (svc.run c more).flights = [] := by
  have can : ∀ o s, ∃ m, (svc.execTask m o s).isSome = true := fun _ _ => ⟨(), rfl⟩
  obtain ⟨moves, none⟩ := Tasks.drained (fun _ call => Empty.elim call) can c
  refine ⟨moves.map Prod.fst, ?_⟩
  rw [← none, run, List.foldl_map, Tasks.run, Tasks.happenings, List.foldl_map]
  rfl

end Whole

end ScopeService

/-! ## The answer -/

namespace ScopeValidationSummary

/-- Every occurrence of a scope is where the decision on the scope puts it, in the order of
the request, and each invalid one has its reason. -/
structure SortedBy (summary : ScopeValidationSummary) (requestedScopes : List String)
    (decision : String → ScopeDecision) : Prop where
  valid : summary.valid = requestedScopes.filter fun s => decision s = .valid
  invalid : summary.invalid =
    requestedScopes.filter fun s => (ScopeDecisionEngine.invalidReason? (decision s)).isSome
  consentRequired : summary.consentRequired =
    requestedScopes.filter fun s => decision s = .consentRequired
  reasons : summary.invalidReasons =
    requestedScopes.filterMap fun s => ScopeDecisionEngine.invalidReason? (decision s)
  one_each : summary.invalidReasons.length = summary.invalid.length

theorem sortedBy_foldl_push (requestedScopes : List String) (decision : String → ScopeDecision) :
    (requestedScopes.foldl (fun acc scope => ScopeValidationSummary.push acc scope (decision scope))
      {}).SortedBy requestedScopes decision := by
  rw [ScopeDecisionEngine.foldl_push]
  refine ⟨by simp, by simp, by simp, by simp, ?_⟩
  simp [List.length_filterMap_eq_countP, List.countP_eq_length_filter]

theorem sortedBy_allInvalid (requestedScopes : List String) (reason : String) :
    (AuthorizationService.allInvalid requestedScopes reason).SortedBy requestedScopes
      fun _ => .invalid reason := by
  refine ⟨?_, ?_, ?_, ?_, ?_⟩ <;>
    simp [AuthorizationService.allInvalid, ScopeDecisionEngine.invalidReason?]

end ScopeValidationSummary

namespace ScopeService

variable (svc : ScopeService) (clientId subject : String) (requestedScopes : List String)

theorem exists_sortedBy_sequential :
    ∃ decision, (svc.sequential clientId subject requestedScopes).SortedBy requestedScopes
      decision := by
  unfold sequential
  cases svc.getClient with
  | none => exact ⟨_, ScopeValidationSummary.sortedBy_allInvalid requestedScopes _⟩
  | some getClient =>
      simp only [AuthorizationService.evaluateScopes]
      cases getClient clientId with
      | none => exact ⟨_, ScopeValidationSummary.sortedBy_allInvalid requestedScopes _⟩
      | some client => exact ⟨_, ScopeValidationSummary.sortedBy_foldl_push requestedScopes _⟩

/-- The client is known and allows the scope, the subject passes the admin tier for it, and
it is consented. -/
def ValidFor (scope : String) : Prop :=
  ∃ getClient client, svc.getClient = some getClient ∧ getClient clientId = some client ∧
    client.allowsScope scope = true ∧
    AuthorizationService.PassesAdminTier svc.adminScopes svc.ports subject scope ∧
    AuthorizationService.consented svc.ports
      (AuthorizationService.resolveInternalUserId svc.ports subject) clientId scope = true

variable {svc clientId subject requestedScopes} in
theorem validFor_of_mem_valid {scope : String}
    (mem : scope ∈ (svc.sequential clientId subject requestedScopes).valid) :
    svc.ValidFor clientId subject scope := by
  unfold sequential at mem
  cases wired : svc.getClient with
  | none =>
      rw [wired] at mem
      cases mem
  | some getClient =>
      simp only [wired, AuthorizationService.evaluateScopes] at mem
      cases found : getClient clientId with
      | none =>
          rw [found] at mem
          cases mem
      | some client =>
          simp only [found] at mem
          have granted := ScopeDecisionEngine.mem_granted.mp (List.mem_append_left _ mem)
          have passes := (AuthorizationService.passesAllowlistAndRole_iff granted.1).mp granted.2
          refine ⟨getClient, client, wired, found, passes.1, passes.2, ?_⟩
          rw [ScopeDecisionEngine.evaluateScopes, ScopeDecisionEngine.foldl_push] at mem
          simp only [List.nil_append, List.mem_filter, decide_eq_true_eq] at mem
          exact ScopeDecisionEngine.consented_of_valid mem.2

/-- Where consents are asked for, the callback returns from the call with the answer; and a
subject that is to be resolved is not empty. -/
def Undisturbed : Prop :=
  (svc.getClient.bind fun get => get clientId).isSome = true →
    ¬ svc.SubjectRefused subject ∧
      (svc.FansOut (AuthorizationService.resolveInternalUserId svc.ports subject)
          requestedScopes →
        svc.callbackReturns (svc.sequential clientId subject requestedScopes) = true)

variable {svc clientId subject requestedScopes} in
theorem finalCalls_eq_iff :
    svc.finalCalls clientId subject requestedScopes =
        [svc.sequential clientId subject requestedScopes] ↔
      svc.Undisturbed clientId subject requestedScopes := by
  unfold finalCalls Undisturbed
  cases svc.getClient.bind fun get => get clientId with
  | none => simp
  | some client =>
      by_cases refused : svc.SubjectRefused subject
      · simp [clientCalls, refused]
      · by_cases fans_out : svc.FansOut
            (AuthorizationService.resolveInternalUserId svc.ports subject) requestedScopes
        · cases returned : svc.callbackReturns (svc.sequential clientId subject requestedScopes)
          · simp [clientCalls, answerCalls, firedCalls, refused, fans_out, returned]
          · simp [clientCalls, answerCalls, firedCalls, refused, fans_out, returned]
        · simp [clientCalls, answerCalls, refused, fans_out]

/-- The fan-in: the callback fires once, with the sequential answer, unless it throws in the
last finisher or the subject is refused; the answer sorts the requested scopes, and what it
reports as valid is. -/
theorem evaluateScopes_fans_in :
    ((∀ order,
      let answer := svc.sequential clientId subject requestedScopes
      let c := svc.run (svc.start clientId subject requestedScopes) order
      (c.store.calls = [] ∨ c.store.calls = [answer]) ∧
        (c.flights = [] → c.store.calls = [answer]) ∧
        ∃ more, (svc.run c more).flights = []) ↔
      svc.Undisturbed clientId subject requestedScopes) ∧
    (∃ decision, (svc.sequential clientId subject requestedScopes).SortedBy requestedScopes
      decision) ∧
    ∀ scope ∈ (svc.sequential clientId subject requestedScopes).valid,
      svc.ValidFor clientId subject scope := by
  refine ⟨?_, svc.exists_sortedBy_sequential clientId subject requestedScopes,
    fun scope mem => validFor_of_mem_valid mem⟩
  have calls_back : svc.CallsBack (svc.finalCalls clientId subject requestedScopes) {}
      (svc.evaluateScopes clientId subject requestedScopes).flights := calls_evaluateScopes rfl
  rw [← finalCalls_eq_iff]
  constructor
  · intro once
    -- A run to the end has made all the calls, and one is what it was to make.
    obtain ⟨-, -, more, ended⟩ := once []
    exact ((calls_back [] more).2 ended).symm.trans ((once more).2.1 ended)
  · intro one order
    obtain ⟨so_far, ended⟩ := calls_back [] order
    rw [one] at so_far ended
    exact ⟨(List.suffix_cons_iff.mp so_far).symm.imp_left List.suffix_nil.mp, ended, drained _⟩

/-- One scope by the user's own consent and one by that of an organisation. -/
def twoConsents : ScopeService where
  getClient := some fun _ => some { clientId := "app", allowedScopes := ["openid", "roles:read"] }
  adminScopes := defaultAdminScopes
  ports :=
    { subjectResolver := some fun _ => some 7
      roleProvider := some
        { getRoles := fun _ => ["auditor"]
          getRolePermissions := some fun _ => ["roles:read"] }
      hasUserConsent := some fun _ _ scope => scope == "openid"
      hasOrgConsentForUser := some fun _ _ scope => scope == "roles:read" }

/-- A scope requested twice is looked up and reported twice. -/
theorem evaluateScopes_fans_in_twoConsents :
    let answer : ScopeValidationSummary :=
      { valid := ["openid", "roles:read", "openid"]
        invalid := ["email"]
        invalidReasons := ["scope_not_allowed_for_client"] }
    ∀ order,
      let c := twoConsents.run
        (twoConsents.start "app" "u7" ["openid", "roles:read", "email", "openid"]) order
      c.flights = [] → c.store.calls = [answer] := by
  intro answer order c none
  have fans_in := twoConsents.evaluateScopes_fans_in "app" "u7"
    ["openid", "roles:read", "email", "openid"]
  exact (fans_in.1.mpr (fun _ => ⟨by decide, fun _ => rfl⟩) order).2.1 none

/-- The callback throws at an answer, and is called again. -/
theorem throwing_callback_called_twice :
    let svc := { twoConsents with callbackReturns := fun summary => summary.valid.isEmpty }
    let c := svc.run (svc.start "app" "u7" ["openid"]) [0, 0, 0, 0, 0, 0, 0, 0]
    c.flights = [] ∧
      c.store.calls =
        [AuthorizationService.allInvalid ["openid"] "internal_error", { valid := ["openid"] }] := by
  exact ⟨rfl, rfl⟩

end ScopeService

end Fulla
