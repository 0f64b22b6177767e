import Fulla.Web.Runs
import Fulla.Webauthn.LoginChallenges
import Fulla.Webauthn.SignCounts

/-!
# The forced password change

The flag `must_change_password` is a column of the account; the gates of authorize,
consent and the MFA completion look at a marker in the session.  A password login
copies the flag.  The passkey login erases the marker without looking at the column,
and the MFA completion takes its account from the request, on a session that may
never have seen that account.  Where no step does either for a flagged account, no
code is minted for one.
-/

namespace Fulla

open Conc
open WebAuthnService (AssertionInput AssertionMoment WebAuthnAuthResult)

/-- The session writes of `authenticateFinish`. -/
def Session.signInWithPasskey (s : Session) (result : WebAuthnAuthResult) (now : Int) : Session :=
  { s with
    userId := some (toString result.userId.toInt)
    sub := some result.publicSub
    authTime := some now
    amr := some "hwk user"
    mfaPending := none
    mustChangePassword := none }

namespace PasswordChange

/-- The browser's session keys, the users and the registered passkeys. -/
structure BrowserState where
  web : WebState
  /-- The session key `webauthn_auth_challenge`. -/
  challenge : Option String := none
  credentials : Credentials

/-- The requests of one browser. -/
inductive BrowserRequest where
  | web (around : Around) (r : Request)
  | authenticateBegin (now : Int64) (draw : Draw WebAuthnService.kChallengeBytes)
  | authenticateFinish (now : Int64) (m : AssertionMoment) (input : Option AssertionInput)

/-- What the assertion behind the challenge gate comes to, and the counters afterwards. -/
def assertion (c : WebAuthnController) (now : Int64) (m : AssertionMoment)
    (input : Option AssertionInput) (s : BrowserState) : Option WebAuthnAuthResult × Credentials :=
  match (c.authenticateFinish now input s.challenge).1, input, c.service with
  | .verify presented, some input, some svc =>
    (svc.finishAuthenticationVerified presented input).run (WebAuthnService.execAssertion m)
      s.credentials
  | _, _, _ => (none, s.credentials)

/-- A passkey login signs the user in. -/
def authenticateFinish (c : WebAuthnController) (now : Int64) (m : AssertionMoment)
    (input : Option AssertionInput) (s : BrowserState) : BrowserState :=
  let verified := assertion c now m input s
  { web :=
      match verified.1 with
      | none => s.web
      | some result =>
        { s.web with session := s.web.session.signInWithPasskey result now.toInt }
    challenge := (c.authenticateFinish now input s.challenge).2
    credentials := verified.2 }

/-- What a request leaves behind. -/
def browserNext (site : Site) (c : WebAuthnController) (s : BrowserState) :
    BrowserRequest → BrowserState
  | .web around r => { s with web := next site s.web (around, r) }
  | .authenticateBegin now draw =>
    { s with challenge := (c.authenticateBegin now draw s.challenge).2 }
  | .authenticateFinish now m input => authenticateFinish c now m input s

/-- The steps of a run, newest first, each with the state it found. -/
def steps (site : Site) (c : WebAuthnController) (start : BrowserState)
    (requests : List BrowserRequest) : List (BrowserState × BrowserRequest) :=
  (History.run (browserNext site c) start requests).1

/-- The code a step mints. -/
def mintedBy (site : Site) : BrowserState × BrowserRequest → Option IssuedCode
  | (s, .web around r) => (handle site around s.web r).minted
  | _ => none

/-- The account has the flag. -/
def MustChange (w : WebState) (sub : String) : Prop :=
  (w.users.find? sub).any User.mustChangePassword = true

instance (w : WebState) (sub : String) : Decidable (MustChange w sub) :=
  inferInstanceAs (Decidable (_ = _))

/-! ## The two steps that do not look -/

/-- The account that a passkey signs in. -/
def passkeyOf (c : WebAuthnController) : BrowserState × BrowserRequest → Option WebAuthnAuthResult
  | (s, .authenticateFinish now m input) => (assertion c now m input s).1
  | _ => none

/-- The account of a verified second factor whose pending binding is the request's client and
redirect URI. -/
def completedOf (site : Site) : BrowserState × BrowserRequest → Option User
  | (s, .web around (.verifyLogin r)) =>
    (verifiedUser site around s.web r).filter fun user =>
      r.clientId = user.mfaPendingClientId.getD "" ∧
        r.redirectUri = user.mfaPendingRedirectUri.getD ""
  | _ => none

/-- Neither step happens for a flagged account. -/
structure Unskipped (site : Site) (c : WebAuthnController) (e : BrowserState × BrowserRequest) :
    Prop where
  passkey : ∀ result ∈ passkeyOf c e, ¬ MustChange e.1.web result.publicSub
  factor : ∀ user ∈ completedOf site e, user.mustChangePassword = false

instance (site : Site) (c : WebAuthnController) (e : BrowserState × BrowserRequest) :
    Decidable (Unskipped site c e) :=
  decidable_of_iff (_ ∧ _) ⟨fun both => ⟨both.1, both.2⟩, fun kept => ⟨kept.passkey, kept.factor⟩⟩

variable {site : Site} {c : WebAuthnController} {s : BrowserState} {sub : String}

theorem MustChange.of_row {w : WebState} {user : User} (flagged : MustChange w sub)
    (found : w.users.find? sub = some user) : user.mustChangePassword = true := by
  rw [MustChange, found, Option.any_some] at flagged
  exact flagged

/-- The grant of the MFA completion insists on the pending binding of its account. -/
theorem verifyLoginGrant_binding {around : Around} {w : WebState} {r : VerifyLoginRequest}
    {user : User} {request : CodeRequest}
    (granted : verifyLoginGrant site around w r user = .ok request) :
    r.clientId = user.mfaPendingClientId.getD "" ∧
      r.redirectUri = user.mfaPendingRedirectUri.getD "" := by
  simp only [verifyLoginGrant, bind_eq_ok, orAnswer_eq_ok, refuseIf_eq_ok, pure_eq_ok, exists_const]
    at granted
  obtain ⟨-, -, bound, -⟩ := granted
  simpa using bound

/-- A session that holds the account is marked. -/
def Marked (sub : String) (s : BrowserState) : Prop :=
  s.web.session.sub = some sub → s.web.session.mustChangePassword = some true

/-- No step mints for a flagged account. -/
theorem minted_other {r : BrowserRequest} (marked : Marked sub s)
    (flagged : MustChange s.web sub) (kept : Unskipped site c (s, r)) {m : IssuedCode}
    (minted : mintedBy site (s, r) = some m) : m.subject ≠ sub := by
  intro own
  have fromSession {around : Around} {r : Request} (reads : MintsFromSession r)
      (minted : (handle site around s.web r).minted = some m) : False := by
    obtain ⟨usable, held⟩ := usable_of_minted reads minted
    have marker := marked (own ▸ held)
    exact absurd usable.notFlagged (by rw [marker]; decide)
  cases r with
  | authenticateBegin now draw => cases minted
  | authenticateFinish now moment input => cases minted
  | web around r =>
      cases r with
      | login r =>
          obtain ⟨user, users, matched, fresh, -, granted⟩ := login_minted minted
          obtain ⟨-, -, -, -, subject, -⟩ := loginGrant_ok granted
          have found := find?_of_matchedUser matched
          rw [← subject, show m.toCodeRequest.subject = sub from own] at found
          exact absurd (flagged.of_row found) (by simp [fresh])
      | verifyLogin r =>
          obtain ⟨user, users, verified, granted⟩ := verifyLogin_minted minted
          have binding := verifyLoginGrant_binding granted
          obtain ⟨-, -, subject, -⟩ := verifyLoginGrant_ok granted
          have completed : completedOf site (s, .web around (.verifyLogin r)) = some user := by
            rw [completedOf, verified]
            exact Option.filter_eq_some_iff.mpr ⟨rfl, by simpa using binding⟩
          have fresh := kept.factor user completed
          have found := find?_of_verifiedUser verified
          rw [← publicSub_of_verifiedUser verified, ← subject,
            show m.toCodeRequest.subject = sub from own] at found
          exact absurd (flagged.of_row found) (by simp [fresh])
      | authorize r => exact fromSession (r := .authorize r) trivial minted
      | consent r => exact fromSession (r := .consent r) trivial minted

/-- A password login of a flagged account ends marked. -/
theorem afterLogin_marked {session : Session} {around : Around} {r : LoginRequest} {user : User}
    (flag : user.mustChangePassword = true) :
    (session.afterLogin site around r user).mustChangePassword = some true := by
  unfold Session.afterLogin
  dsimp only
  rw [if_pos flag]

theorem browserNext_marked {r : BrowserRequest} (marked : Marked sub s)
    (flagged : MustChange s.web sub) (kept : Unskipped site c (s, r)) :
    Marked sub (browserNext site c s r) := by
  cases r with
  | authenticateBegin now draw => exact marked
  | authenticateFinish now m input =>
      intro held
      simp only [browserNext, authenticateFinish] at held ⊢
      cases verified : (assertion c now m input s).1 with
      | none =>
          rw [verified] at held
          exact marked held
      | some result =>
          rw [verified] at held
          have same : result.publicSub = sub := Option.some.inj held
          exact absurd (same ▸ flagged) (kept.passkey result verified)
  | web around r =>
      have step := next_session site s.web (around, r)
      show (next site s.web (around, r)).session.sub = some sub → _
      intro held
      show (next site s.web (around, r)).session.mustChangePassword = some true
      generalize (next site s.web (around, r)).session = session at step held ⊢
      cases step with
      | login matched =>
          rw [Session.afterLogin_sub, Option.some.injEq] at held
          have found := find?_of_matchedUser matched
          rw [held] at found
          exact afterLogin_marked (flagged.of_row found)
      | elevate verified => exact marked held
      | keep same =>
          rw [same] at held ⊢
          exact marked held

/-! ## Whole runs -/

/-- In a run that starts signed out and skips the change in no step, no code is minted for an
account that is flagged in every state of the run. -/
theorem forced_change_mints_nothing (site : Site) (c : WebAuthnController) {start : BrowserState}
    (signedOut : start.web.SignedOut) (requests : List BrowserRequest) (sub : String)
    (flagged : ∀ e ∈ steps site c start requests, MustChange e.1.web sub)
    (kept : ∀ e ∈ steps site c start requests, Unskipped site c e) :
    ∀ e ∈ steps site c start requests, ∀ m, mintedBy site e = some m → m.subject ≠ sub := by
  have both : ∀ e ∈ steps site c start requests, MustChange e.1.web sub ∧ Unskipped site c e :=
    fun e mem => ⟨flagged e mem, kept e mem⟩
  have invariant := History.run_invariant
    (I := fun h s => Marked sub s ∧ ∀ e ∈ h, ∀ m, mintedBy site e = some m → m.subject ≠ sub)
    ?_ ?_ requests (History.each_of_forall both)
  · exact invariant.2
  · refine ⟨?_, fun e mem => by cases mem⟩
    intro held
    rw [signedOut] at held
    cases held
  · rintro h s r ⟨marked, clean⟩ ⟨flag, unskipped⟩
    refine ⟨browserNext_marked marked flag unskipped, ?_⟩
    intro e mem m minted
    rcases List.mem_cons.mp mem with rfl | old
    · exact minted_other marked flag unskipped minted
    · exact clean e old m minted

/-! ## A flagged account with a passkey and an unfinished second factor -/

/-- A user who must change the password. -/
def dana : User :=
  { id := 4, publicSub := "sub-dana", username := "dana", email := "dana@example.org"
    passwordHash := "$pbkdf2-sha256$dana-pw", emailVerified := true, mfaEnabled := true
    mustChangePassword := true, mfaSecret := "444444", mfaPendingClientId := some "app"
    mfaPendingRedirectUri := some "https://app.example/cb" }

def signedOut : BrowserState where
  web := { users := { rows := [dana], nodup := by decide }, db := Sample.db }
  credentials := Table.empty.assign ⟨"ch", 4, "pk", "Passkey", some 0⟩

/-- Every challenge is `ch`. -/
def passkeys : WebAuthnController where
  service := some
    { crypto := some { WebAuthnService.sampleVerifier with base64UrlEncode := fun _ => "ch" }
      rpOrigins := ["https://rp"] }
  base64UrlDecode := fun _ => some [1]
  readJson := fun _ => some (.obj [("challenge", .str "ch")])

/-- The two requests of a passkey login. -/
def passkeyLogin : List BrowserRequest :=
  [.authenticateBegin 900 (Draw.filled (List.replicate 32 1)),
    .authenticateFinish 910 { publicSub := fun _ => some "sub-dana" }
      (some { WebAuthnService.sampleAssertion "five" with
        clientDataJSON := "data", signature := "signature" })]

/-- The login with the password. -/
def passwordLogin : BrowserRequest :=
  .web (Sample.around 900) (.login (Sample.loginAs "dana"))

/-- A request for a code. -/
def authorized : BrowserRequest :=
  .web (Sample.around 1000) (.authorize Sample.authorizeApp)

/-- Dana's password, then authorize: no code for her. -/
theorem forced_change_mints_nothing_dana :
    MustChange signedOut.web "sub-dana" ∧
      ∀ e ∈ steps Sample.site passkeys signedOut [passwordLogin, authorized], ∀ m,
        mintedBy Sample.site e = some m → m.subject ≠ "sub-dana" := by
  have flagged : ∀ e ∈ steps Sample.site passkeys signedOut [passwordLogin, authorized],
      MustChange e.1.web "sub-dana" := by decide
  have kept : ∀ e ∈ steps Sample.site passkeys signedOut [passwordLogin, authorized],
      Unskipped Sample.site passkeys e := by decide
  exact ⟨by decide, forced_change_mints_nothing Sample.site passkeys
    (rfl : signedOut.web.SignedOut) _ "sub-dana" flagged kept⟩

/-- Dana is flagged in every state.  Her passkey signs her in without the marker and authorize
mints a code for her; and so does the second factor of a login from before the flag was set. -/
theorem forced_change_skipped :
    (∃ requests m, (∀ e ∈ steps Sample.site passkeys signedOut requests,
        MustChange e.1.web "sub-dana") ∧
      (steps Sample.site passkeys signedOut requests).head?.bind (mintedBy Sample.site) = some m ∧
      m.subject = "sub-dana" ∧ m.amr = "hwk user") ∧
    ∃ requests m, (∀ e ∈ steps Sample.site passkeys signedOut requests,
        MustChange e.1.web "sub-dana") ∧
      (steps Sample.site passkeys signedOut requests).head?.bind (mintedBy Sample.site) = some m ∧
      m.subject = "sub-dana" ∧ m.amr = "pwd mfa" := by
  have minted (requests : List BrowserRequest) {amr : String}
      (flagged : ∀ e ∈ steps Sample.site passkeys signedOut requests, MustChange e.1.web "sub-dana")
      (last : ((steps Sample.site passkeys signedOut requests).head?.bind
        (mintedBy Sample.site)).map (fun m => (m.subject, m.amr)) = some ("sub-dana", amr)) :
      ∃ requests m, (∀ e ∈ steps Sample.site passkeys signedOut requests,
          MustChange e.1.web "sub-dana") ∧
        (steps Sample.site passkeys signedOut requests).head?.bind (mintedBy Sample.site) = some m ∧
        m.subject = "sub-dana" ∧ m.amr = amr := by
    obtain ⟨m, code, pair⟩ := Option.map_eq_some_iff.mp last
    exact ⟨requests, m, flagged, code, (Prod.mk.inj pair).1, (Prod.mk.inj pair).2⟩
  constructor
  · exact minted (passkeyLogin ++ [authorized]) (by decide) (by decide)
  · exact minted [.web (Sample.around 1000) (.verifyLogin (Sample.verifyAs dana))]
      (by decide) (by decide)

end PasswordChange

end Fulla
