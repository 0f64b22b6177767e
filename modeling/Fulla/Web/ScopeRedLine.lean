import Fulla.Web.Runs

/-!
# The admin-scope red line

A code should carry only scopes that the decision engine does not reject for its
client and its user.  Authorize and login ask the engine about what they put into
the code.  Consent and the MFA completion ask only the issuance guard, which knows
the client's allowlist and nothing of roles and permissions: their codes keep to
the red line exactly when the requested scopes pass the admin tier by themselves.
-/

namespace Fulla.ScopeRedLine

open Conc AuthorizationService

/-- Every scope of the code passes the engine for the code's client and `user`. -/
def KeepsToRedLine (site : Site) (around : Around) (w : WebState) (m : IssuedCode)
    (user : User) : Prop :=
  ∀ s ∈ splitSpaces m.scope,
    ¬ Invalid around.getClient site.adminScopes (around.scopePorts w) m.clientId
      (toString user.id) s

/-- Every requested scope is outside the admin class or covered by the user's roles. -/
def RequestPassesAdminTier (site : Site) (around : Around) (w : WebState) (scope : String)
    (user : User) : Prop :=
  ∀ s ∈ splitSpaces scope,
    PassesAdminTier site.adminScopes (around.scopePorts w) (toString user.id) s

/-- The requests whose codes keep to the red line. -/
def Safe (site : Site) (around : Around) (w : WebState) (user : User) : Request → Prop
  | .login _ => True
  | .authorize _ => True
  | .consent r => RequestPassesAdminTier site around w r.scope user
  | .verifyLogin r => RequestPassesAdminTier site around w (verifyLoginScope r) user

section Paths

variable {site : Site} {around : Around} {w : WebState} {m : IssuedCode}

/-- Behind the issuance guard only the admin tier is left to decide. -/
theorem keepsToRedLine_iff_of_guarded {clientId redirectUri scope : String} {user : User}
    (guarded : checkCodeIssuanceGuards around clientId redirectUri scope = .ok ())
    (client_eq : m.clientId = clientId) (scope_eq : m.scope = scope) :
    KeepsToRedLine site around w m user ↔ RequestPassesAdminTier site around w scope user := by
  obtain ⟨client, found, -, allows⟩ := checkCodeIssuanceGuards_ok guarded
  unfold KeepsToRedLine RequestPassesAdminTier
  rw [client_eq, scope_eq]
  refine forall_congr' fun s => forall_congr' fun mem => ?_
  rw [not_invalid_iff found]
  exact and_iff_right (OAuth2Client.allowsAllScopes_iff.mp allows s mem)

theorem keepsToRedLine_of_authorize {r : AuthorizeRequest} {user : User}
    (checked : AuthorizeChecked site around w r m.toCodeRequest)
    (named : w.session.userId = some (toString user.id)) :
    KeepsToRedLine site around w m user := by
  obtain ⟨client, found⟩ := checked.client
  have scopes := checked.scopes
  rw [named] at scopes
  unfold KeepsToRedLine
  rw [checked.clientId_eq, checked.scope_eq]
  exact (hasErrors_eq_false_iff_forall found).mp scopes

theorem keepsToRedLine_of_login {r : LoginRequest} {user : User} {w' : WebState}
    (consents : w'.consents = w.consents)
    (granted : loginGrant site around w' r user = .ok m.toCodeRequest) :
    KeepsToRedLine site around w m user := by
  obtain ⟨guarded, -, kept, client_eq, -⟩ := loginGrant_ok granted
  obtain ⟨client, found, -⟩ := checkCodeIssuanceGuards_ok guarded
  have ports : around.scopePorts w' = around.scopePorts w := by
    rw [Around.scopePorts, consents]
    rfl
  unfold KeepsToRedLine
  rw [client_eq]
  intro s mem
  unfold loginScope at kept
  split at kept
  · rw [← Except.ok.inj kept] at mem
    cases mem
  · dsimp only at kept
    split at kept
    · cases kept
    · rw [← Except.ok.inj kept, splitSpaces_joinSpaces, List.mem_flatMap] at mem
      obtain ⟨token, granted, memToken⟩ := mem
      rw [evaluateScopes, ports] at granted
      obtain ⟨requested, passes⟩ := not_invalid_of_mem_granted found granted
      rw [splitSpaces_of_mem requested, List.mem_singleton] at memToken
      exact memToken ▸ passes

end Paths

/-- A code minted in a run belongs to an account, and keeps to the red line exactly
when its request is `Safe`. -/
theorem minted_scopes_pass_engine_iff {site : Site} {start : WebState} (signedOut : start.SignedOut)
    (requests : List Visit) (around : Around) (r : Request) (m : IssuedCode)
    (minted : (handle site around (browse site start requests) r).minted = some m) :
    ∃ user, (browse site start requests).users.find? m.subject = some user ∧
      (KeepsToRedLine site around (browse site start requests) m user ↔
        Safe site around (browse site start requests) user r) := by
  have owned := browse_owned site signedOut requests
  generalize browse site start requests = w at minted owned ⊢
  -- the session's account, for the two paths that mint for the session's subject
  have sessionUser {subject : String} (eq : subject = Session.text w.session.sub)
      (usable : w.session.Usable) :
      ∃ user, w.users.find? subject = some user ∧
        w.session.userId = some (toString user.id) := by
    cases held : w.session.sub with
    | none => exact absurd (by rw [held]; rfl) usable.sub
    | some sub =>
        rw [held] at eq
        rw [eq]
        exact owned sub held
  cases r with
  | login r =>
      obtain ⟨user, users, matched, -, -, granted⟩ := login_minted minted
      refine ⟨user, ?_, iff_of_true (keepsToRedLine_of_login (by exact rfl) granted) trivial⟩
      rw [(loginGrant_ok granted).2.2.2.2.1]
      exact find?_of_matchedUser matched
  | verifyLogin r =>
      obtain ⟨user, users, verified, granted⟩ := verifyLogin_minted minted
      obtain ⟨guarded, client_eq, subject_eq, scope_eq, -⟩ := verifyLoginGrant_ok granted
      refine ⟨user, ?_, keepsToRedLine_iff_of_guarded guarded client_eq scope_eq⟩
      rw [subject_eq, publicSub_of_verifiedUser verified]
      exact find?_of_verifiedUser verified
  | authorize r =>
      have checked := authorize_minted minted
      obtain ⟨user, found, named⟩ := sessionUser checked.subject_eq checked.session
      exact ⟨user, found, iff_of_true (keepsToRedLine_of_authorize checked named) trivial⟩
  | consent r =>
      have checked := consent_minted minted
      obtain ⟨user, found, -⟩ := sessionUser checked.subject_eq checked.session
      exact ⟨user, found,
        keepsToRedLine_iff_of_guarded checked.guarded checked.clientId_eq checked.scope_eq⟩

/-- The code of an MFA completion for `openid`, in the run of one earlier login. -/
theorem minted_scopes_pass_engine_iff_openid :
    ∃ m user,
      (handle Sample.site (Sample.around 950) Sample.paused
        (.verifyLogin (Sample.verifyAs Sample.alice))).minted = some m ∧
      Sample.paused.users.find? m.subject = some user ∧
      (KeepsToRedLine Sample.site (Sample.around 950) Sample.paused m user ↔
        Safe Sample.site (Sample.around 950) Sample.paused user
          (.verifyLogin (Sample.verifyAs Sample.alice))) := by
  let m : IssuedCode :=
    { clientId := "app", subject := "sub-alice", scope := "openid"
      redirectUri := "https://app.example/cb", codeChallenge := "", codeChallengeMethod := ""
      nonce := "", authTime := 950, amr := "pwd mfa", code := "A" }
  have minted : (handle Sample.site (Sample.around 950) Sample.paused
      (.verifyLogin (Sample.verifyAs Sample.alice))).minted = some m := by decide
  obtain ⟨user, found, iff⟩ := minted_scopes_pass_engine_iff (rfl : Sample.signedOut.SignedOut)
    [(Sample.around 900, .login (Sample.loginAs "alice"))] _ _ m minted
  exact ⟨m, user, minted, found, iff⟩

/-- Alice is a plain user without permissions, and her MFA completion is given an `admin`
code. -/
theorem admin_scope_minted_without_role :
    ∃ m user,
      (handle Sample.site (Sample.around 950) Sample.paused
        (.verifyLogin { Sample.verifyAs Sample.alice with scope := "admin" })).minted = some m ∧
      Sample.paused.users.find? m.subject = some user ∧
      "admin" ∈ splitSpaces m.scope ∧ "admin" ∈ Sample.site.adminScopes ∧
      adminFacts ((Sample.around 950).scopePorts Sample.paused) (some user.id) = (false, []) ∧
      ¬ KeepsToRedLine Sample.site (Sample.around 950) Sample.paused m user := by
  let m : IssuedCode :=
    { clientId := "app", subject := "sub-alice", scope := "admin"
      redirectUri := "https://app.example/cb", codeChallenge := "", codeChallengeMethod := ""
      nonce := "", authTime := 950, amr := "pwd mfa", code := "A" }
  let user : User :=
    { Sample.alice with
      mfaPendingClientId := some "app", mfaPendingRedirectUri := some "https://app.example/cb" }
  refine ⟨m, user, by decide, by decide, by decide, by decide,
    rfl, ?_⟩
  intro keeps
  exact keeps "admin" (by decide) (by decide)

end Fulla.ScopeRedLine
