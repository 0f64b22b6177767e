import Fulla.Web.Runs

/-!
# Whose second factor

The MFA completion finds its account by the request's `mfa_token` and elevates the
session whatever subject that session holds.  So a session of an MFA account is
trustworthy only in runs where nobody completes somebody else's pause, and where no
login of an MFA account is turned away for an unverified address after the session
has been written.  In those runs every session that the gates accept for an MFA
account has seen that account's own second factor since its last password.
-/

namespace Fulla.SecondFactor

open Conc

variable {site : Site} {w : WebState} {h : List (WebState × Visit)} {sub : String}

/-- The visit verified a second factor of the account `sub`. -/
def VerifiesFactorOf (site : Site) (sub : String) (e : WebState × Visit) : Prop :=
  (factorOf site e).map User.publicSub = some sub

instance (site : Site) (sub : String) : DecidablePred (VerifiesFactorOf site sub) := fun _ =>
  inferInstanceAs (Decidable (_ = _))

/-- The visit was a login with the password of the account `sub`. -/
def PasswordLoginOf (site : Site) (sub : String) (e : WebState × Visit) : Prop :=
  (passwordOf site e).map User.publicSub = some sub

instance (site : Site) (sub : String) : DecidablePred (PasswordLoginOf site sub) := fun _ =>
  inferInstanceAs (Decidable (_ = _))

/-- The account's own second factor was verified, and not before its latest password. -/
def OwnFactor (site : Site) (sub : String) (h : List (WebState × Visit)) : Prop :=
  Since (VerifiesFactorOf site sub) (PasswordLoginOf site sub) h

instance (site : Site) (sub : String) : DecidablePred (OwnFactor site sub) :=
  Since.decidable

/-- The account `sub` has MFA enabled. -/
def MfaAccount (w : WebState) (sub : String) : Prop :=
  ∃ user, w.users.find? sub = some user ∧ user.mfaEnabled = true

/-- The session holds `sub`, an account with MFA. -/
def HoldsMfaAccount (w : WebState) (sub : String) : Prop :=
  w.session.sub = some sub ∧ MfaAccount w sub

/-- Nobody completes the pause of another account, and no login of an MFA account is
refused for its address. -/
structure OwnCompletion (site : Site) (w : WebState) (v : Visit) : Prop where
  factor : ∀ user ∈ factorOf site (w, v), w.session.mfaPending = some true →
    w.session.sub = some user.publicSub
  password : ∀ user ∈ passwordOf site (w, v), user.mfaEnabled = true →
    user.mustChangePassword = false →
    evaluateLoginPolicy user site.requireEmailVerification ≠ .denyEmailNotVerified

instance (site : Site) (w : WebState) (v : Visit) : Decidable (OwnCompletion site w v) :=
  decidable_of_iff (_ ∧ _) ⟨fun both => ⟨both.1, both.2⟩, fun own => ⟨own.factor, own.password⟩⟩

/-- No login of an MFA account is sent to the forced password change. -/
def NoForcedChange (site : Site) (w : WebState) (v : Visit) : Prop :=
  ∀ user ∈ passwordOf site (w, v), user.mfaEnabled = true → user.mustChangePassword = false

/-! ## What a step keeps -/

theorem HoldsMfaAccount.before {v : Visit} (holds : HoldsMfaAccount (next site w v) sub)
    (same : (next site w v).session.sub = w.session.sub) : HoldsMfaAccount w sub := by
  obtain ⟨held, user, found, enabled⟩ := holds
  obtain ⟨before, foundBefore, -, mfa⟩ := (next_users site w v).find?_before found
  exact ⟨same.symm.trans held, before, foundBefore, mfa.trans enabled⟩

/-- After a login the session's account is the one whose password matched. -/
theorem HoldsMfaAccount.of_login {v : Visit} {user : User}
    (holds : HoldsMfaAccount (next site w v) sub)
    (found : w.users.find? user.publicSub = some user)
    (held : (next site w v).session.sub = some user.publicSub) : user.mfaEnabled = true := by
  obtain ⟨heldSub, row, foundRow, enabled⟩ := holds
  rw [held] at heldSub
  cases heldSub
  obtain ⟨before, foundBefore, -, mfa⟩ := (next_users site w v).find?_before foundRow
  rw [found] at foundBefore
  cases foundBefore
  exact mfa.trans enabled

/-- A login of an MFA account ends paused or flagged, or is refused for its address. -/
theorem afterLogin_gated {s : Session} {around : Around} {r : LoginRequest} {user : User}
    (enabled : user.mfaEnabled = true)
    (verified : user.mustChangePassword = false →
      evaluateLoginPolicy user site.requireEmailVerification ≠ .denyEmailNotVerified) :
    (s.afterLogin site around r user).mfaPending = some true ∨
      (s.afterLogin site around r user).mustChangePassword = some true := by
  unfold Session.afterLogin
  dsimp only
  split
  · exact .inr rfl
  · next unflagged =>
      have allowed := verified (by simpa using unflagged)
      have policy : evaluateLoginPolicy user site.requireEmailVerification = .requireMfa := by
        unfold evaluateLoginPolicy at allowed ⊢
        split at allowed
        · exact absurd rfl allowed
        · next verified => rw [if_neg verified, if_pos enabled]
      rw [policy]
      exact .inl rfl

/-- A session of an MFA account is paused, flagged, or has seen the account's factor. -/
def Gated (site : Site) (h : List (WebState × Visit)) (w : WebState) : Prop :=
  ∀ sub, HoldsMfaAccount w sub →
    w.session.mfaPending = some true ∨ w.session.mustChangePassword = some true ∨
      OwnFactor site sub h

theorem next_gated (v : Visit) (gated : Gated site h w) (own : OwnCompletion site w v) :
    Gated site ((w, v) :: h) (next site w v) := by
  intro sub holds
  have step := next_session site w v
  generalize eq : (next site w v).session = session at step
  cases step with
  | login matched =>
      have enabled := holds.of_login (find?_of_matchedUser matched)
        (by rw [eq, Session.afterLogin_sub])
      rcases afterLogin_gated enabled (own.password _ matched enabled) with pending | flagged
      · exact .inl pending
      · exact .inr (.inl flagged)
  | @elevate around r user verified =>
      have before := holds.before (by rw [eq]; rfl)
      rcases gated sub before with pending | flagged | seen
      · -- the pause is completed by its own account
        have same := own.factor _ verified pending
        rw [before.1] at same
        have factor : factorOf site (w, around, .verifyLogin r) = some user := verified
        refine .inr (.inr (.now ?_))
        rw [VerifiesFactorOf, factor, Option.map_some, ← same]
      · exact .inr (.inl flagged)
      · exact .inr (.inr (.keep (fun login => nomatch login) seen))
  | keep same noPassword =>
      rw [same]
      rcases gated sub (holds.before (by rw [eq, same])) with pending | flagged | seen
      · exact .inl pending
      · exact .inr (.inl flagged)
      · refine .inr (.inr (.keep ?_ seen))
        rw [PasswordLoginOf, noPassword]
        exact fun login => nomatch login

/-- The marker is absent, or stands next to the first factor's `amr`. -/
def PendingIsFirstFactor (s : Session) : Prop :=
  s.mfaPending = none ∨ s.mfaPending = some true ∧ s.amr = some "pwd"

theorem next_pendingIsFirstFactor (v : Visit) (pending : PendingIsFirstFactor w.session) :
    PendingIsFirstFactor (next site w v).session := by
  have step := next_session site w v
  generalize (next site w v).session = session at step ⊢
  cases step with
  | login matched =>
      unfold Session.afterLogin
      dsimp only
      split
      · exact .inl rfl
      · split
        · exact .inr ⟨rfl, rfl⟩
        · exact .inl rfl
  | elevate verified => exact .inl rfl
  | keep same =>
      rw [same]
      exact pending

/-- The session of an MFA account is not flagged for a password change. -/
def Unflagged (w : WebState) : Prop :=
  ∀ sub, HoldsMfaAccount w sub → w.session.mustChangePassword ≠ some true

theorem next_unflagged (v : Visit) (unflagged : Unflagged w) (free : NoForcedChange site w v) :
    Unflagged (next site w v) := by
  intro sub holds
  have step := next_session site w v
  generalize eq : (next site w v).session = session at step
  cases step with
  | @login around r user matched =>
      have unforced := free _ matched (holds.of_login (find?_of_matchedUser matched)
        (by rw [eq, Session.afterLogin_sub]))
      unfold Session.afterLogin
      dsimp only
      rw [if_neg (by simp [unforced])]
      split <;> exact fun flagged => nomatch flagged
  | elevate verified => exact unflagged sub (holds.before (by rw [eq]; rfl))
  | keep same =>
      rw [same]
      exact unflagged sub (holds.before (by rw [eq, same]))

/-! ## Whole runs -/

section Runs

variable {start : WebState} (signedOut : start.SignedOut) (requests : List Visit)

include signedOut

theorem browse_gated (own : ∀ e ∈ visits site start requests, OwnCompletion site e.1 e.2) :
    Gated site (visits site start requests) (browse site start requests) := by
  refine History.run_invariant ?_ (fun _ _ v gated own => next_gated v gated own) requests
    (History.each_of_forall own)
  intro sub holds
  rw [HoldsMfaAccount, signedOut] at holds
  cases holds.1

theorem browse_pendingIsFirstFactor (site : Site) :
    PendingIsFirstFactor (browse site start requests).session := by
  refine History.run_always (I := fun w : WebState => PendingIsFirstFactor w.session) ?_
    (fun _ v pending => next_pendingIsFirstFactor v pending) requests
  rw [signedOut]
  exact .inl rfl

theorem browse_unflagged
    (free : ∀ e ∈ visits site start requests, NoForcedChange site e.1 e.2) :
    Unflagged (browse site start requests) := by
  refine History.run_invariant (I := fun _ w => Unflagged w) ?_
    (fun _ _ v unflagged free => next_unflagged v unflagged free) requests
    (History.each_of_forall free)
  intro sub holds
  rw [HoldsMfaAccount, signedOut] at holds
  cases holds.1

end Runs

/-- In a run whose steps are all `OwnCompletion`, authorize and consent mint a code for an
MFA account only after that account's own second factor; and where moreover no login of an
MFA account met the forced password change, a session that holds such an account and is
elevated or not paused has seen that factor. -/
theorem second_factor_is_the_accounts_own {start : WebState} (signedOut : start.SignedOut)
    (requests : List Visit)
    (own : ∀ e ∈ visits site start requests, OwnCompletion site e.1 e.2) :
    (∀ around r m, MintsFromSession r →
      (handle site around (browse site start requests) r).minted = some m →
      MfaAccount (browse site start requests) m.subject →
      OwnFactor site m.subject (visits site start requests)) ∧
    ((∀ e ∈ visits site start requests, NoForcedChange site e.1 e.2) →
      ∀ sub, HoldsMfaAccount (browse site start requests) sub →
      ("mfa" ∈ splitSpaces (Session.text (browse site start requests).session.amr) ∨
        (browse site start requests).session.mfaPending = none) →
      OwnFactor site sub (visits site start requests)) := by
  have gated := browse_gated signedOut requests own
  constructor
  · intro around r m fromSession minted enabled
    obtain ⟨usable, held⟩ := usable_of_minted fromSession minted
    rcases gated _ ⟨held, enabled⟩ with pending | flagged | seen
    · exact absurd usable.notPending (by rw [pending]; decide)
    · exact absurd usable.notFlagged (by rw [flagged]; decide)
    · exact seen
  · intro free sub holds elevated
    rcases gated sub holds with pending | flagged | seen
    · rcases browse_pendingIsFirstFactor signedOut requests site with none | ⟨-, amr⟩
      · rw [none] at pending
        cases pending
      · rcases elevated with mfa | none
        · rw [amr] at mfa
          exact absurd mfa (by decide)
        · rw [none] at pending
          cases pending
    · exact absurd flagged (browse_unflagged signedOut requests free sub holds)
    · exact seen

/-- Alice's password, then the second factor of `user`. -/
def completedBy (user : User) : List Visit :=
  [(Sample.around 900, .login (Sample.loginAs "alice")),
    (Sample.around 950, .verifyLogin (Sample.verifyAs user))]

/-- The code authorize then mints for the session's subject. -/
def mintedForAlice : IssuedCode :=
  { clientId := "app", subject := "sub-alice", scope := "openid"
    redirectUri := "https://app.example/cb", codeChallenge := Sample.challenge
    codeChallengeMethod := "S256", nonce := "", authTime := 950, amr := "pwd mfa", code := "A" }

/-- With Alice's own second factor, what authorize mints rests on it. -/
theorem second_factor_is_the_accounts_own_alice :
    (handle Sample.site (Sample.around 1000)
        (browse Sample.site Sample.signedOut (completedBy Sample.alice))
        (.authorize Sample.authorizeApp)).minted = some mintedForAlice ∧
      OwnFactor Sample.site "sub-alice"
        (visits Sample.site Sample.signedOut (completedBy Sample.alice)) := by
  have minted : (handle Sample.site (Sample.around 1000)
      (browse Sample.site Sample.signedOut (completedBy Sample.alice))
      (.authorize Sample.authorizeApp)).minted = some mintedForAlice := by decide
  have own : ∀ e ∈ visits Sample.site Sample.signedOut (completedBy Sample.alice),
      OwnCompletion Sample.site e.1 e.2 := by decide
  refine ⟨minted, ?_⟩
  exact (second_factor_is_the_accounts_own (rfl : Sample.signedOut.SignedOut) _ own).1
    (Sample.around 1000) (.authorize Sample.authorizeApp) mintedForAlice trivial minted
    ⟨Sample.alice, by decide, rfl⟩

/-- With Bob's second factor the completion is refused, but the session is elevated, and
authorize mints a code for Alice with the `amr` of both factors. -/
theorem another_accounts_factor_elevates :
    (handle Sample.site (Sample.around 1000)
        (browse Sample.site Sample.signedOut (completedBy Sample.bob))
        (.authorize Sample.authorizeApp)).minted = some mintedForAlice ∧
      MfaAccount (browse Sample.site Sample.signedOut (completedBy Sample.bob)) "sub-alice" ∧
      ¬ OwnFactor Sample.site "sub-alice"
        (visits Sample.site Sample.signedOut (completedBy Sample.bob)) := by
  let row : User :=
    { Sample.alice with
      mfaPendingClientId := some "app", mfaPendingRedirectUri := some "https://app.example/cb" }
  exact ⟨by decide, ⟨row, by decide, rfl⟩, by decide⟩

end Fulla.SecondFactor
