import Fulla.Web.Runs

/-!
# After a refused login

The login handler writes the account into the session before it applies the policy
and the issuance checks, and no refusal takes it out again.  Only the refusal at the
pause for the second factor leaves a marker that the gates look at.  So a session is
unusable after a refusal exactly while that marker stands: in the runs where every
other refusal is ruled out, and where no second factor is verified on the session
before the next login succeeds.
-/

namespace Fulla.RefusedLogin

open Conc

/-- The account whose password matched a login that was answered with an error. -/
def refusedOf (site : Site) : WebState × Visit → Option User
  | (w, around, .login r) =>
    if (login site around w r).answer.isError then matchedUser site around w r else none
  | _ => none

/-- The visit was a login of the account `sub`, refused after its password matched. -/
def RefusesLoginOf (site : Site) (sub : String) (e : WebState × Visit) : Prop :=
  (refusedOf site e).map User.publicSub = some sub

instance (site : Site) (sub : String) : DecidablePred (RefusesLoginOf site sub) := fun _ =>
  inferInstanceAs (Decidable (_ = _))

/-- The visit was a login that succeeded: the password matched, and no error was
answered. -/
def LoginSucceeds (site : Site) (e : WebState × Visit) : Prop :=
  (passwordOf site e).isSome = true ∧ (refusedOf site e).isNone = true

instance (site : Site) : DecidablePred (LoginSucceeds site) := fun _ =>
  inferInstanceAs (Decidable (_ ∧ _))

/-- A login of `sub` was refused, and no login has succeeded since. -/
def Refused (site : Site) (sub : String) (h : List (WebState × Visit)) : Prop :=
  Since (RefusesLoginOf site sub) (LoginSucceeds site) h

instance (site : Site) (sub : String) : DecidablePred (Refused site sub) :=
  Since.decidable

/-- Any login was refused, and none has succeeded since. -/
def RefusalStands (site : Site) (h : List (WebState × Visit)) : Prop :=
  Since (fun e => (refusedOf site e).isSome = true) (LoginSucceeds site) h

theorem Refused.stands {site : Site} {sub : String} {h : List (WebState × Visit)}
    (refused : Refused site sub h) : RefusalStands site h := by
  induction h with
  | nil => exact refused
  | cons e h ih =>
      rcases Since.cons.mp refused with now | ⟨still, before⟩
      · refine .now ?_
        obtain ⟨user, some, -⟩ := Option.map_eq_some_iff.mp now
        rw [some]
        rfl
      · exact .keep still (ih before)

theorem passwordOf_of_refusedOf {site : Site} {e : WebState × Visit} {user : User}
    (refused : refusedOf site e = some user) : passwordOf site e = some user := by
  unfold refusedOf at refused
  split at refused
  · split at refused
    · exact refused
    · cases refused
  · cases refused

theorem error_of_refusedOf {site : Site} {around : Around} {w : WebState} {r : LoginRequest}
    {user : User} (refused : refusedOf site (w, around, .login r) = some user) :
    (login site around w r).answer.isError = true := by
  unfold refusedOf at refused
  dsimp only at refused
  split at refused
  · assumption
  · cases refused

/-- A login that matches while a refusal stands was itself refused. -/
theorem refusedOf_of_stands {site : Site} {e : WebState × Visit} {user : User}
    {h : List (WebState × Visit)} (matched : passwordOf site e = some user)
    (stands : RefusalStands site (e :: h)) : refusedOf site e = some user := by
  cases refused : refusedOf site e with
  | some other => rw [← passwordOf_of_refusedOf refused, matched]
  | none =>
      rcases Since.cons.mp stands with now | ⟨still, -⟩
      · rw [refused] at now
        cases now
      · exact absurd ⟨by rw [matched]; rfl, by rw [refused]; rfl⟩ still

/-- A request without a password leaves a refusal standing from before. -/
theorem RefusalStands.before {site : Site} {e : WebState × Visit} {h : List (WebState × Visit)}
    (stands : RefusalStands site (e :: h)) (noPassword : passwordOf site e = none) :
    RefusalStands site h := by
  rcases Since.cons.mp stands with now | ⟨-, before⟩
  · obtain ⟨user, refused⟩ := Option.isSome_iff_exists.mp now
    rw [passwordOf_of_refusedOf refused] at noPassword
    cases noPassword
  · exact before

/-! ## The condition -/

/-- What the issuance checks of a login ask for. -/
structure PassesIssuance (site : Site) (around : Around) (w : WebState) (r : LoginRequest)
    (user : User) : Prop where
  guarded : checkCodeIssuanceGuards around r.clientId r.redirectUri r.scope = .ok ()
  pkce : site.requirePkce = true → r.codeChallenge ≠ ""
  format : r.codeChallenge ≠ "" → Pkce.isValidCodeChallengeFormat r.codeChallenge = true
  org : r.orgId ≠ "" → ∃ orgId, around.orgGate r.orgId r.clientId user.id "pwd" = .proceed orgId
  scope : r.scope ≠ "" →
    joinSpaces (evaluateScopes site around w r.clientId (toString user.id)
      (splitSpaces r.scope)).granted ≠ ""
  nonce : r.nonce.utf8ByteSize ≤ 512
  service : ∃ grants crypto, site.tokenService.grants = some grants ∧
    site.tokenService.crypto = some crypto ∧
    (w.runStore around (generateSecureToken crypto 32)).1 ≠ ""

/-- The address is verified where that is asked for, and an account without a second factor
passes the issuance checks. -/
structure LoginAllowed (site : Site) (around : Around) (w : WebState) (r : LoginRequest)
    (user : User) : Prop where
  email : site.requireEmailVerification = true → user.emailVerified = true
  issuance : user.mfaEnabled = false → PassesIssuance site around w r user

/-- After the history `h`: a login whose password matches is allowed, or sent to the
password change, and no second factor is verified while a refusal stands. -/
structure OnlyPausedRefusals (site : Site) (h : List (WebState × Visit))
    (e : WebState × Visit) : Prop where
  login : ∀ around r, e.2 = (around, .login r) → ∀ user ∈ matchedUser site around e.1 r,
    user.mustChangePassword = false → LoginAllowed site around e.1 r user
  factor : (factorOf site e).isSome = true → ¬ RefusalStands site h

/-! ## An allowed login is refused at the pause only -/

section Allowed

variable {site : Site} {around : Around} {w : WebState} {r : LoginRequest} {user : User}

theorem PassesIssuance.loginOrg_ok (passes : PassesIssuance site around w r user)
    (amr : Session.text w.session.amr = "pwd") :
    ∃ orgId, loginOrg around w r user = .ok orgId := by
  unfold loginOrg
  split
  · exact ⟨none, rfl⟩
  · next named =>
      obtain ⟨orgId, proceeds⟩ := passes.org named
      rw [amr, proceeds]
      exact ⟨some orgId, rfl⟩

theorem PassesIssuance.loginScope_ok (passes : PassesIssuance site around w r user) :
    ∃ scope, loginScope site around w r user = .ok scope := by
  unfold loginScope
  split
  · exact ⟨"", rfl⟩
  · next asked =>
      dsimp only
      rw [if_neg (passes.scope asked)]
      exact ⟨_, rfl⟩

theorem PassesIssuance.loginGrant_ok (passes : PassesIssuance site around w r user)
    (amr : Session.text w.session.amr = "pwd") :
    ∃ c, loginGrant site around w r user = .ok c ∧ c.nonce = r.nonce := by
  obtain ⟨orgId, org⟩ := passes.loginOrg_ok amr
  obtain ⟨scope, kept⟩ := passes.loginScope_ok
  have challenged : (site.requirePkce && decide (r.codeChallenge = "")) = false := by
    simpa using passes.pkce
  have formed : (decide (r.codeChallenge ≠ "") &&
      !Pkce.isValidCodeChallengeFormat r.codeChallenge) = false := by
    simpa using passes.format
  simp only [loginGrant, bind_eq_ok, orAnswer_eq_ok, refuseIf_eq_ok, pure_eq_ok, exists_const]
  exact ⟨_, ⟨(), passes.guarded, challenged, formed, orgId, org, scope, kept, rfl⟩, rfl⟩

/-- The token service has a code to give. -/
theorem PassesIssuance.issue_answer (passes : PassesIssuance site around w r user)
    {c : CodeRequest} (nonce : c.nonce = r.nonce) {failed succeeded : String → Response} :
    ∃ code, (issue site around w c failed succeeded).answer = succeeded code := by
  obtain ⟨grants, crypto, wired, wiredCrypto, drawn⟩ := passes.service
  unfold WebState.runStore at drawn
  unfold issue WebState.runStore TokenService.generateAuthorizationCode
  rw [wired, wiredCrypto]
  simp only [Prog.run_bind]
  rw [if_neg drawn, if_neg (by rw [nonce]; exact Nat.not_lt.mpr passes.nonce)]
  simp only [Prog.run_bind, Prog.pure_eq, Prog.run_ret]
  exact ⟨_, rfl⟩

/-- The checks only look at the parts of the state that signing in leaves alone. -/
theorem PassesIssuance.signedIn (passes : PassesIssuance site around w r user) (s : Session)
    (users : Users) :
    PassesIssuance site around { w with session := s, users := users } r user :=
  ⟨passes.guarded, passes.pkce, passes.format, passes.org, passes.scope, passes.nonce,
    passes.service⟩

theorem LoginAllowed.policy (allowed : LoginAllowed site around w r user) :
    evaluateLoginPolicy user site.requireEmailVerification =
      if user.mfaEnabled then .requireMfa else .proceed := by
  unfold evaluateLoginPolicy
  rw [if_neg]
  simpa using allowed.email

/-- The answer is an error only when the pause could not be written down. -/
theorem requireMfa_of_loginMatched_error {users : Users}
    (allowed : user.mustChangePassword = false → LoginAllowed site around w r user)
    (refused : (loginMatched site around
      { w with session := w.session.signIn user around.now, users := users } r
        user).answer.isError = true) :
    user.mustChangePassword = false ∧
      evaluateLoginPolicy user site.requireEmailVerification = .requireMfa := by
  unfold loginMatched at refused
  split at refused
  · split at refused <;> cases refused
  · next unflagged =>
      have unforced : user.mustChangePassword = false := by simpa using unflagged
      refine ⟨unforced, ?_⟩
      rw [(allowed unforced).policy] at refused ⊢
      by_cases enabled : user.mfaEnabled = true
      · rw [if_pos enabled]
      · -- without a second factor the code is issued
        have passes := ((allowed unforced).issuance (by simpa using enabled)).signedIn
          (w.session.signIn user around.now) users
        obtain ⟨c, granted, nonce⟩ := passes.loginGrant_ok rfl
        rw [if_neg enabled, granted] at refused
        obtain ⟨code, answer⟩ := passes.issue_answer nonce
        rw [answer] at refused
        cases refused

theorem requireMfa_of_login_error (matched : matchedUser site around w r = some user)
    (allowed : user.mustChangePassword = false → LoginAllowed site around w r user)
    (refused : (login site around w r).answer.isError = true) :
    user.mustChangePassword = false ∧
      evaluateLoginPolicy user site.requireEmailVerification = .requireMfa := by
  unfold matchedUser at matched
  unfold login at refused
  dsimp only at refused
  split at refused
  · next errors =>
      rw [if_pos errors] at matched
      cases matched
  · next clean =>
      rw [if_neg clean] at matched
      cases valid : validateUser site around w.users r.username r.password with
      | mk found users =>
          rw [valid] at matched refused
          cases matched
          exact requireMfa_of_loginMatched_error allowed refused

theorem afterLogin_pending {s : Session} (unforced : user.mustChangePassword = false)
    (policy : evaluateLoginPolicy user site.requireEmailVerification = .requireMfa) :
    (s.afterLogin site around r user).mfaPending = some true := by
  unfold Session.afterLogin
  dsimp only
  rw [if_neg (by simp [unforced]), policy]
  rfl

end Allowed

/-! ## Whole runs -/

/-- While a refusal stands the session is paused. -/
def Blocked (site : Site) (h : List (WebState × Visit)) (w : WebState) : Prop :=
  RefusalStands site h → w.session.mfaPending = some true

theorem next_blocked {site : Site} {h : List (WebState × Visit)} {w : WebState} (v : Visit)
    (blocked : Blocked site h w) (only : OnlyPausedRefusals site h (w, v)) :
    Blocked site ((w, v) :: h) (next site w v) := by
  intro stands
  have step := next_session site w v
  generalize (next site w v).session = session at step
  cases step with
  | @login around r user matched =>
      have refused := error_of_refusedOf (refusedOf_of_stands matched stands)
      obtain ⟨unforced, policy⟩ :=
        requireMfa_of_login_error matched (only.login around r rfl user matched) refused
      exact afterLogin_pending unforced policy
  | @elevate around r user verified =>
      -- the condition keeps the second factor away from a standing refusal
      have factor : factorOf site (w, around, .verifyLogin r) = some user := verified
      exact absurd (stands.before rfl) (only.factor (by rw [factor]; rfl))
  | keep same noPassword =>
      rw [same]
      exact blocked (stands.before noPassword)

section Runs

variable {site : Site} {start : WebState} {sub : String}

theorem browse_blocked (requests : List Visit)
    (only : History.Each (OnlyPausedRefusals site) (visits site start requests)) :
    Blocked site (visits site start requests) (browse site start requests) := by
  refine History.run_invariant ?_ (fun _ _ v blocked only => next_blocked v blocked only) requests
    only
  intro stands
  cases stands

/-- In a run whose steps all meet `OnlyPausedRefusals`, no authorize and no consent request
mints a code after a refused login, until a login succeeds. -/
theorem refused_login_mints_nothing (requests : List Visit)
    (only : History.Each (OnlyPausedRefusals site) (visits site start requests))
    (refused : Refused site sub (visits site start requests)) (around : Around) (r : Request)
    (fromSession : MintsFromSession r) :
    (handle site around (browse site start requests) r).minted = none := by
  have pending := browse_blocked requests only refused.stands
  cases minted : (handle site around (browse site start requests) r).minted with
  | none => rfl
  | some m =>
      obtain ⟨usable, -⟩ := usable_of_minted fromSession minted
      exact absurd usable.notPending (by rw [pending]; decide)

end Runs

/-- The binding of a pause cannot be written. -/
def readOnly : Around :=
  { Sample.around 900 with
    writeFails := fun kind => kind = .pendingBinding, dbError := "read-only" }

/-- Alice's password, in those surroundings. -/
def unwrittenPause : List Visit :=
  [(readOnly, .login (Sample.loginAs "alice"))]

/-- Her login is refused, and the session stays paused. -/
theorem refused_login_mints_nothing_alice :
    Refused Sample.site "sub-alice" (visits Sample.site Sample.signedOut unwrittenPause) ∧
      (handle Sample.site (Sample.around 1000)
        (browse Sample.site Sample.signedOut unwrittenPause)
        (.authorize Sample.authorizeApp)).minted = none := by
  have found : matchedUser Sample.site readOnly Sample.signedOut (Sample.loginAs "alice") =
      some Sample.alice := by decide
  have only : History.Each (OnlyPausedRefusals Sample.site)
      (visits Sample.site Sample.signedOut unwrittenPause) := by
    refine ⟨⟨?_, fun factor => nomatch factor⟩, trivial⟩
    intro around r eq user matched unforced
    cases eq
    cases found.symm.trans matched
    exact ⟨fun _ => rfl, fun disabled => nomatch disabled⟩
  have refused : Refused Sample.site "sub-alice"
      (visits Sample.site Sample.signedOut unwrittenPause) := by decide
  exact ⟨refused, refused_login_mints_nothing unwrittenPause only refused _ _ trivial⟩

/-- The same site with `auth.require_email_verification` set. -/
def strictSite : Site :=
  { Sample.site with requireEmailVerification := true }

/-- Carol's password, on a site that asks for a verified address. -/
def unverifiedLogin : List Visit :=
  [(Sample.around 900, .login (Sample.loginAs "carol"))]

/-- Carol's login is refused for her address, and authorize mints a code for her. -/
theorem unverified_login_mints :
    Refused strictSite "sub-carol" (visits strictSite Sample.signedOut unverifiedLogin) ∧
      (handle strictSite (Sample.around 1000)
        (browse strictSite Sample.signedOut unverifiedLogin)
        (.authorize Sample.authorizeApp)).minted =
        some
          { clientId := "app", subject := "sub-carol", scope := "openid"
            redirectUri := "https://app.example/cb", codeChallenge := Sample.challenge
            codeChallengeMethod := "S256", nonce := "", authTime := 900, amr := "pwd"
            code := "A" } := by
  exact ⟨by decide, by decide⟩

end Fulla.RefusedLogin
