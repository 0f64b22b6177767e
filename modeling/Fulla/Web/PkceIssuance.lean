import Fulla.Web.Runs

/-!
# PKCE on the issuance paths

Login, consent and authorize take the challenge from their request.  The MFA
completion takes the copy the login left in the session, after it has erased it:
its code never carries a challenge, and the exchange that follows asks for no
verifier.
-/

namespace Fulla.PkceIssuance

open Conc

/-- The exchange would let this verifier pass for the challenge. -/
def VerifierAccepted (site : Site) (codeVerifier codeChallenge codeChallengeMethod : String) :
    Prop :=
  codeChallenge = "" ∨ ∃ crypto, site.tokenService.crypto = some crypto ∧
    TokenService.validatePkceCodeVerifier crypto codeVerifier codeChallenge codeChallengeMethod =
      some true

/-- The code of an MFA completion carries the challenge of the login, and tokens are
delivered only for a verifier of that challenge. -/
structure CarriesChallenge (site : Site) (login : LoginRequest) (verify : VerifyLoginRequest)
    (outcome : Outcome) (m : IssuedCode) : Prop where
  codeChallenge : m.codeChallenge = login.codeChallenge
  codeChallengeMethod : m.codeChallengeMethod = login.codeChallengeMethod
  delivered : ∀ json remaining, outcome.answer = .tokens json remaining →
    VerifierAccepted site verify.codeVerifier login.codeChallenge login.codeChallengeMethod

/-- The request is of a path that insists on `S256`, or names it. -/
def NamesS256 : Request → Prop
  | .authorize _ => True
  | .login r => r.codeChallengeMethod = "S256"
  | .consent r => r.codeChallengeMethod = "S256"
  | .verifyLogin _ => False

section Paths

variable {site : Site} {around : Around} {w : WebState} {m : IssuedCode}

theorem verifyLogin_challenge {r : VerifyLoginRequest}
    (minted : (verifyLogin site around w r).minted = some m) :
    m.codeChallenge = "" ∧ m.codeChallengeMethod = "" := by
  obtain ⟨user, users, -, granted⟩ := verifyLogin_minted minted
  obtain ⟨-, -, -, -, challenge, method⟩ := verifyLoginGrant_ok granted
  exact ⟨challenge, method⟩

theorem login_challenge {r : LoginRequest} (minted : (login site around w r).minted = some m) :
    (site.requirePkce = true → m.codeChallenge ≠ "") ∧
      m.codeChallengeMethod = r.codeChallengeMethod := by
  obtain ⟨user, users, -, -, -, granted⟩ := login_minted minted
  obtain ⟨-, pkce, -, -, -, challenge, method⟩ := loginGrant_ok granted
  exact ⟨fun required => challenge ▸ pkce required, method⟩

theorem carriesChallenge_iff {l : LoginRequest} {r : VerifyLoginRequest}
    (minted : (verifyLogin site around w r).minted = some m) :
    CarriesChallenge site l r (verifyLogin site around w r) m ↔
      l.codeChallenge = "" ∧ l.codeChallengeMethod = "" := by
  obtain ⟨challenge, method⟩ := verifyLogin_challenge minted
  constructor
  · intro carries
    exact ⟨carries.codeChallenge.symm.trans challenge,
      carries.codeChallengeMethod.symm.trans method⟩
  · intro none
    exact ⟨challenge.trans none.1.symm, method.trans none.2.symm, fun _ _ _ => .inl none.1⟩

/-- Where PKCE is required, a code has an `S256` challenge exactly when its request
`NamesS256`. -/
theorem s256_iff {r : Request} (minted : (handle site around w r).minted = some m)
    (required : site.requirePkce = true) :
    m.codeChallenge ≠ "" ∧ m.codeChallengeMethod = "S256" ↔ NamesS256 r := by
  cases r with
  | login r =>
      obtain ⟨challenge, method⟩ := login_challenge minted
      rw [method]
      exact and_iff_right (challenge required)
  | verifyLogin r =>
      obtain ⟨challenge, -⟩ := verifyLogin_challenge minted
      exact iff_of_false (fun s256 => s256.1 challenge) id
  | authorize r =>
      have checked := authorize_minted minted
      refine iff_of_true ⟨?_, ?_⟩ trivial
      · rw [checked.codeChallenge_eq]
        exact checked.pkce required
      · rw [checked.codeChallengeMethod_eq]
        exact checked.method (checked.pkce required)
  | consent r =>
      have checked := consent_minted minted
      rw [checked.codeChallenge_eq, checked.codeChallengeMethod_eq]
      exact and_iff_right (checked.pkce required)

end Paths

/-- For a code minted at the end of a run: an MFA completion carries the challenge of an
earlier login of an MFA account exactly when that login sent neither a challenge nor a
method; and where PKCE is required, an `S256` challenge is carried exactly by the codes
of authorize and of the logins and consents that name `S256`. -/
theorem pkce_survives_issuance_iff {site : Site} {start : WebState} {requests : List Visit}
    {around : Around} {r : Request} {m : IssuedCode}
    (minted : (handle site around (browse site start requests) r).minted = some m) :
    (∀ w₀ around₀ l sub v, (w₀, around₀, .login l) ∈ visits site start requests →
      (login site around₀ w₀ l).answer = .mfaRequired sub → r = .verifyLogin v →
      (CarriesChallenge site l v (handle site around (browse site start requests) r) m ↔
        l.codeChallenge = "" ∧ l.codeChallengeMethod = "")) ∧
      (site.requirePkce = true →
        (m.codeChallenge ≠ "" ∧ m.codeChallengeMethod = "S256" ↔ NamesS256 r)) := by
  refine ⟨?_, s256_iff minted⟩
  intro _ _ l _ v _ _ eq
  subst eq
  exact carriesChallenge_iff minted

/-- The code Alice's MFA completion mints after a login with a challenge. -/
theorem pkce_survives_issuance_iff_completion :
    ∃ m, (handle Sample.site (Sample.around 950) Sample.paused
        (.verifyLogin (Sample.verifyAs Sample.alice))).minted = some m ∧
      (m.codeChallenge ≠ "" ∧ m.codeChallengeMethod = "S256" ↔
        NamesS256 (.verifyLogin (Sample.verifyAs Sample.alice))) := by
  let m : IssuedCode :=
    { clientId := "app", subject := "sub-alice", scope := "openid"
      redirectUri := "https://app.example/cb", codeChallenge := "", codeChallengeMethod := ""
      nonce := "", authTime := 950, amr := "pwd mfa", code := "A" }
  have minted : (handle Sample.site (Sample.around 950) Sample.paused
      (.verifyLogin (Sample.verifyAs Sample.alice))).minted = some m := by decide
  exact ⟨m, minted, (pkce_survives_issuance_iff minted).2 rfl⟩

/-- Alice signs in with an `S256` challenge; her second factor and a verifier that does not
belong to the challenge get tokens. -/
theorem wrong_verifier_gets_tokens :
    (login Sample.site (Sample.around 900) Sample.signedOut (Sample.loginAs "alice")).answer =
        .mfaRequired "sub-alice" ∧
      ∃ m json,
        (handle Sample.site (Sample.around 950) Sample.paused (.verifyLogin
          { Sample.verifyAs Sample.alice with codeVerifier := "wrong" })).minted = some m ∧
        (handle Sample.site (Sample.around 950) Sample.paused (.verifyLogin
          { Sample.verifyAs Sample.alice with codeVerifier := "wrong" })).answer =
            .tokens json none ∧
        m.codeChallenge = "" ∧ (Sample.loginAs "alice").codeChallenge = Sample.challenge ∧
        ¬ VerifierAccepted Sample.site "wrong" Sample.challenge "S256" := by
  refine ⟨by decide, ?_⟩
  let m : IssuedCode :=
    { clientId := "app", subject := "sub-alice", scope := "openid"
      redirectUri := "https://app.example/cb", codeChallenge := "", codeChallengeMethod := ""
      nonce := "", authTime := 950, amr := "pwd mfa", code := "A" }
  let json : TokenJson :=
    { accessToken := "D", tokenType := "Bearer", expiresIn := 3600, refreshToken := "E"
      roles := some [], idToken := none }
  refine ⟨m, json, by decide, by decide, rfl, rfl, ?_⟩
  intro accepted
  rcases accepted with empty | ⟨crypto, wired, valid⟩
  · exact absurd empty (by decide)
  · cases wired
    exact absurd valid (by decide)

end Fulla.PkceIssuance
