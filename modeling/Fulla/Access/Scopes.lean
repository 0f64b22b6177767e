import Fulla.Model.Text

/-!
# Scope decisions

`Client.h`, `ScopeDecision.h`, `ScopeDecisionEngine.cc` and the orchestration of
`AuthorizationService::evaluateScopes` around it.  A scope is judged in three
tiers: the client's allowlist, the admin role (or a permission that covers an
admin-class scope), and recorded consent.

The subject resolver, the role provider and the consent look-ups are the answers
of one request, a `ScopePorts`; the consent look-ups of the source fan out per
scope and meet in a map, which is a function of the scope.
-/

namespace Fulla

/-- The types of a client. -/
inductive ClientType where
  | confidential
  | public_
deriving DecidableEq, Repr

/-- `OAuth2Client` of `Dto.h`. -/
structure OAuth2Client where
  clientId : String
  clientType : ClientType := .public_
  clientSecretHash : String := ""
  salt : String := ""
  redirectUris : List String := []
  allowedScopes : List String := []
  /-- `client_secret_basic`, `client_secret_post`, `none`, or empty for no declaration. -/
  tokenEndpointAuthMethod : String := ""
  /-- Empty when every grant is allowed. -/
  allowedGrantTypes : List String := []
  /-- Empty when the login redirect URIs stand in. -/
  postLogoutRedirectUris : List String := []
deriving DecidableEq, Repr

namespace OAuth2Client

/-- RFC 6749 3.1.2.3: exact match. -/
def isRegisteredRedirectUri (client : OAuth2Client) (redirectUri : String) : Bool :=
  client.redirectUris.contains redirectUri

/-- The scope is registered for the client. -/
def allowsScope (client : OAuth2Client) (scope : String) : Bool :=
  client.allowedScopes.contains scope

/-- Every space-separated token is in the allowlist. -/
def allowsAllScopes (client : OAuth2Client) (requestedScope : String) : Bool :=
  (splitSpaces requestedScope).all client.allowsScope

theorem allowsAllScopes_iff {client : OAuth2Client} {requestedScope : String} :
    client.allowsAllScopes requestedScope = true ↔
      ∀ s ∈ splitSpaces requestedScope, client.allowsScope s = true :=
  List.all_eq_true

@[simp]
theorem allowsAllScopes_empty (client : OAuth2Client) : client.allowsAllScopes "" = true :=
  rfl

end OAuth2Client

/-! ## The engine -/

/-- What is decided about a scope. -/
inductive ScopeDecision where
  | valid
  | invalid (reason : String)
  | consentRequired
deriving DecidableEq, Repr

/-- What is decided about the requested scopes. -/
structure ScopeValidationSummary where
  valid : List String := []
  invalid : List String := []
  consentRequired : List String := []
  /-- One for each entry of `invalid`, in the same order. -/
  invalidReasons : List String := []
deriving DecidableEq, Repr

namespace ScopeValidationSummary

/-- Invalid takes precedence: consent is only asked for when nothing was rejected. -/
def needsConsent (summary : ScopeValidationSummary) : Bool :=
  summary.invalid.isEmpty && !summary.consentRequired.isEmpty

/-- Some scope is invalid. -/
def hasErrors (summary : ScopeValidationSummary) : Bool :=
  !summary.invalid.isEmpty

/-- Everything but the invalid scopes, the valid ones first. -/
def granted (summary : ScopeValidationSummary) : List String :=
  summary.valid ++ summary.consentRequired

/-- The body of the loop's `switch`. -/
def push (summary : ScopeValidationSummary) (scope : String) :
    ScopeDecision → ScopeValidationSummary
  | .valid => { summary with valid := summary.valid ++ [scope] }
  | .invalid reason =>
    { summary with
      invalid := summary.invalid ++ [scope]
      invalidReasons := summary.invalidReasons ++ [reason] }
  | .consentRequired => { summary with consentRequired := summary.consentRequired ++ [scope] }

end ScopeValidationSummary

namespace ScopeDecisionEngine

/-- One scope: registered, admin tier, consent, in this order. -/
def evaluateScope (scope : String) (client : OAuth2Client) (hasAdminRole hasConsent : Bool)
    (scopeRequiresAdmin : String → Bool) : ScopeDecision :=
  if client.allowsScope scope = false then .invalid "scope_not_allowed_for_client"
  else if scopeRequiresAdmin scope && !hasAdminRole then .invalid "admin_role_required"
  else if hasConsent = false then .consentRequired
  else .valid

/-- Consent is looked up only for a scope that passes the first two tiers. -/
def evaluateListed (client : OAuth2Client) (hasAdminRole : Bool)
    (hasConsentForScope scopeRequiresAdmin : String → Bool) (scope : String) : ScopeDecision :=
  let passes :=
    match evaluateScope scope client hasAdminRole true scopeRequiresAdmin with
    | .invalid _ => false
    | _ => true
  let hasConsent := passes && hasConsentForScope scope
  evaluateScope scope client hasAdminRole hasConsent scopeRequiresAdmin

/-- The decisions on the requested scopes, each in its list. -/
def evaluateScopes (scopes : List String) (client : OAuth2Client) (hasAdminRole : Bool)
    (hasConsentForScope scopeRequiresAdmin : String → Bool) : ScopeValidationSummary :=
  scopes.foldl (fun summary scope =>
    summary.push scope
      (evaluateListed client hasAdminRole hasConsentForScope scopeRequiresAdmin scope)) {}

/-- The reason of an invalid scope. -/
def invalidReason? : ScopeDecision → Option String
  | .invalid reason => some reason
  | _ => none

/-- The loop sorts the scopes by decision and keeps their order, duplicates included. -/
theorem foldl_push (decision : String → ScopeDecision) (scopes : List String)
    (summary : ScopeValidationSummary) :
    scopes.foldl (fun acc scope => acc.push scope (decision scope)) summary =
      { valid := summary.valid ++ scopes.filter fun s => decision s = .valid
        invalid := summary.invalid ++ scopes.filter fun s => (invalidReason? (decision s)).isSome
        consentRequired :=
          summary.consentRequired ++ scopes.filter fun s => decision s = .consentRequired
        invalidReasons :=
          summary.invalidReasons ++ scopes.filterMap fun s => invalidReason? (decision s) } := by
  induction scopes generalizing summary with
  | nil => simp
  | cons scope scopes ih =>
      rw [List.foldl_cons, ih]
      cases eq : decision scope <;> simp [ScopeValidationSummary.push, invalidReason?, eq]

/-- The client's allowlist, then the admin role. -/
def passesAllowlistAndRole (client : OAuth2Client) (hasAdminRole : Bool)
    (scopeRequiresAdmin : String → Bool) (scope : String) : Bool :=
  client.allowsScope scope && (!scopeRequiresAdmin scope || hasAdminRole)

section Tiers

variable {client : OAuth2Client} {hasAdminRole : Bool}
  {hasConsentForScope scopeRequiresAdmin : String → Bool} {scopes : List String} {s : String}

/-- The first two tiers alone decide whether a scope is invalid. -/
theorem invalidReason?_evaluateListed :
    (invalidReason?
        (evaluateListed client hasAdminRole hasConsentForScope scopeRequiresAdmin s)).isSome =
      !passesAllowlistAndRole client hasAdminRole scopeRequiresAdmin s := by
  unfold evaluateListed evaluateScope passesAllowlistAndRole
  cases client.allowsScope s <;> cases scopeRequiresAdmin s <;> cases hasAdminRole <;>
    cases hasConsentForScope s <;> rfl

theorem evaluateListed_granted :
    (evaluateListed client hasAdminRole hasConsentForScope scopeRequiresAdmin s = .valid ∨
        evaluateListed client hasAdminRole hasConsentForScope scopeRequiresAdmin s =
          .consentRequired) ↔
      passesAllowlistAndRole client hasAdminRole scopeRequiresAdmin s = true := by
  unfold evaluateListed evaluateScope passesAllowlistAndRole
  cases client.allowsScope s <;> cases scopeRequiresAdmin s <;> cases hasAdminRole <;>
    cases hasConsentForScope s <;> decide

theorem consented_of_valid
    (valid : evaluateListed client hasAdminRole hasConsentForScope scopeRequiresAdmin s = .valid) :
    hasConsentForScope s = true := by
  revert valid
  unfold evaluateListed evaluateScope
  cases client.allowsScope s <;> cases scopeRequiresAdmin s <;> cases hasAdminRole <;>
    cases hasConsentForScope s <;> decide

theorem mem_invalid :
    s ∈ (evaluateScopes scopes client hasAdminRole hasConsentForScope scopeRequiresAdmin).invalid ↔
      s ∈ scopes ∧ passesAllowlistAndRole client hasAdminRole scopeRequiresAdmin s = false := by
  rw [evaluateScopes, foldl_push]
  simp [invalidReason?_evaluateListed]

theorem mem_granted :
    s ∈ (evaluateScopes scopes client hasAdminRole hasConsentForScope scopeRequiresAdmin).granted ↔
      s ∈ scopes ∧ passesAllowlistAndRole client hasAdminRole scopeRequiresAdmin s = true := by
  have decided := @evaluateListed_granted client hasAdminRole hasConsentForScope
    scopeRequiresAdmin s
  rw [evaluateScopes, foldl_push, ← decided]
  simp [ScopeValidationSummary.granted, and_or_left]

end Tiers

end ScopeDecisionEngine

/-! ## The service -/

/-- `IRoleProvider`; a provider without the permission path answers none. -/
structure RoleProvider where
  getRoles : Int → List String
  getRolePermissions : Option (List String → List String)

/-- What `AuthorizationService` asks of its collaborators during one request; a
collaborator that is not wired is absent. -/
structure ScopePorts where
  subjectResolver : Option (String → Option Int) := none
  roleProvider : Option RoleProvider := none
  hasUserConsent : Option (Int → String → String → Bool) := none
  hasOrgConsentForUser : Option (Int → String → String → Bool) := none

/-- The V006 seed, used when no set was loaded from the database. -/
def defaultAdminScopes : List String :=
  ["admin", "users:read", "users:write", "clients:read", "clients:write", "tokens:read",
    "tokens:write", "roles:read", "roles:write", "audit:read"]

namespace AuthorizationService

/-- Every scope refused for the same reason. -/
def allInvalid (scopes : List String) (reason : String) : ScopeValidationSummary :=
  { invalid := scopes, invalidReasons := scopes.map fun _ => reason }

/-- Some scope is of the admin tier. -/
def anyRequiresAdminRole (scopes adminScopes : List String) : Bool :=
  scopes.any adminScopes.contains

/-- The number of the user, if a resolver is injected and knows the subject. -/
def resolveInternalUserId (ports : ScopePorts) (subject : String) : Option Int :=
  ports.subjectResolver.bind fun resolve => resolve subject

/-- Whether the subject has the admin role, and the permissions of its roles. -/
def adminFacts (ports : ScopePorts) (internalUserId : Option Int) : Bool × List String :=
  match ports.roleProvider, internalUserId with
  | some provider, some id =>
    let roles := provider.getRoles id
    (roles.contains "admin",
      match provider.getRolePermissions with
      | none => []
      | some permissions => permissions roles)
  | _, _ => (false, [])

/-- Personal consent first, then the organisations of the user. -/
def consented (ports : ScopePorts) (internalUserId : Option Int) (clientId scope : String) : Bool :=
  match ports.hasUserConsent, internalUserId with
  | some personal, some id =>
    personal id clientId scope ||
      match ports.hasOrgConsentForUser with
      | none => false
      | some org => org id clientId scope
  | _, _ => false

/-- Roles and permissions are only looked up when an admin-class scope is requested. -/
def lookUpFacts (adminScopes : List String) (ports : ScopePorts) (internalUserId : Option Int)
    (requestedScopes : List String) : Bool × List String :=
  if anyRequiresAdminRole requestedScopes adminScopes then adminFacts ports internalUserId
  else (false, [])

/-- `AuthorizationService::evaluateScopes`, with the answers of its ports. -/
def evaluateScopes (getClient : String → Option OAuth2Client) (adminScopes : List String)
    (ports : ScopePorts) (clientId subject : String) (requestedScopes : List String) :
    ScopeValidationSummary :=
  match getClient clientId with
  | none => allInvalid requestedScopes "client_not_found"
  | some client =>
    let internalUserId := resolveInternalUserId ports subject
    let facts := lookUpFacts adminScopes ports internalUserId requestedScopes
    ScopeDecisionEngine.evaluateScopes requestedScopes client facts.1
      (consented ports internalUserId clientId)
      fun s => adminScopes.contains s && !facts.2.contains s

/-- The second tier: the scope is not of the admin class, or the subject has the
admin role or a permission of that name. -/
def PassesAdminTier (adminScopes : List String) (ports : ScopePorts) (subject scope : String) :
    Prop :=
  scope ∈ adminScopes →
    (adminFacts ports (resolveInternalUserId ports subject)).1 = true ∨
      scope ∈ (adminFacts ports (resolveInternalUserId ports subject)).2

instance (adminScopes : List String) (ports : ScopePorts) (subject scope : String) :
    Decidable (PassesAdminTier adminScopes ports subject scope) :=
  inferInstanceAs (Decidable (_ → _))

/-- The engine, asked about this one scope, rejects it. -/
def Invalid (getClient : String → Option OAuth2Client) (adminScopes : List String)
    (ports : ScopePorts) (clientId subject scope : String) : Prop :=
  (evaluateScopes getClient adminScopes ports clientId subject [scope]).hasErrors = true

instance (getClient : String → Option OAuth2Client) (adminScopes : List String)
    (ports : ScopePorts) (clientId subject scope : String) :
    Decidable (Invalid getClient adminScopes ports clientId subject scope) :=
  inferInstanceAs (Decidable (_ = _))

section Spec

variable {getClient : String → Option OAuth2Client} {adminScopes : List String}
  {ports : ScopePorts} {clientId subject : String} {client : OAuth2Client}

/-- The lookup that is skipped would not have mattered: an admin-class scope in the
list forces it. -/
theorem passesAllowlistAndRole_iff {requestedScopes : List String} {s : String}
    (mem : s ∈ requestedScopes) :
    ScopeDecisionEngine.passesAllowlistAndRole client
        (lookUpFacts adminScopes ports (resolveInternalUserId ports subject) requestedScopes).1
        (fun s => adminScopes.contains s &&
          !(lookUpFacts adminScopes ports (resolveInternalUserId ports subject)
            requestedScopes).2.contains s) s = true ↔
      client.allowsScope s = true ∧ PassesAdminTier adminScopes ports subject s := by
  unfold PassesAdminTier ScopeDecisionEngine.passesAllowlistAndRole
  by_cases admin : s ∈ adminScopes
  · have needed : anyRequiresAdminRole requestedScopes adminScopes = true :=
      List.any_eq_true.mpr ⟨s, mem, List.contains_iff_mem.mpr admin⟩
    simp [lookUpFacts, needed, admin, or_comm]
  · simp [admin]

theorem hasErrors_eq_false_iff {requestedScopes : List String}
    (found : getClient clientId = some client) :
    (evaluateScopes getClient adminScopes ports clientId subject requestedScopes).hasErrors =
        false ↔
      ∀ s ∈ requestedScopes,
        client.allowsScope s = true ∧ PassesAdminTier adminScopes ports subject s := by
  rw [evaluateScopes, found, ScopeValidationSummary.hasErrors, Bool.not_eq_false',
    List.isEmpty_iff, List.eq_nil_iff_forall_not_mem]
  refine forall_congr' fun s => ?_
  rw [ScopeDecisionEngine.mem_invalid, not_and, Bool.not_eq_false]
  exact forall_congr' fun mem => passesAllowlistAndRole_iff mem

/-- The first two tiers, for one scope. -/
theorem not_invalid_iff {scope : String} (found : getClient clientId = some client) :
    ¬ Invalid getClient adminScopes ports clientId subject scope ↔
      client.allowsScope scope = true ∧ PassesAdminTier adminScopes ports subject scope := by
  rw [Invalid, Bool.not_eq_true, hasErrors_eq_false_iff found]
  simp

/-- A list without errors has no invalid member, and conversely. -/
theorem hasErrors_eq_false_iff_forall {requestedScopes : List String}
    (found : getClient clientId = some client) :
    (evaluateScopes getClient adminScopes ports clientId subject requestedScopes).hasErrors =
        false ↔
      ∀ s ∈ requestedScopes, ¬ Invalid getClient adminScopes ports clientId subject s := by
  rw [hasErrors_eq_false_iff found]
  exact forall_congr' fun s => forall_congr' fun _ => (not_invalid_iff found).symm

theorem not_invalid_of_mem_granted {requestedScopes : List String} {s : String}
    (found : getClient clientId = some client)
    (mem : s ∈
      (evaluateScopes getClient adminScopes ports clientId subject requestedScopes).granted) :
    s ∈ requestedScopes ∧ ¬ Invalid getClient adminScopes ports clientId subject s := by
  rw [evaluateScopes, found] at mem
  obtain ⟨requested, passes⟩ := ScopeDecisionEngine.mem_granted.mp mem
  exact ⟨requested, (not_invalid_iff found).mpr ((passesAllowlistAndRole_iff requested).mp passes)⟩

end Spec

end AuthorizationService

end Fulla
