import Fulla.Web.Runs

/-!
# Authorize without a user interface

With `prompt=none` the session gate and the consent gate of the authorize endpoint answer the
client with an error.  The `max_age` gate between them does not look at the prompt: a session
that is too old is sent to the login page.
-/

namespace Fulla.PromptNone

open Conc

/-- A redirect with a code, a redirect with an error, or an error page. -/
def withoutUi : Response → Bool
  | .code _ _ _ json => !json
  | answer => answer.isError

variable {site : Site} {around : Around} {w : WebState} {r : AuthorizeRequest}

/-- `prompt` contains `none`. -/
abbrev AsksForNone (r : AuthorizeRequest) : Prop :=
  "none" ∈ splitSpaces r.prompt

/-- The request is in order and the session is a full one, but older than `max_age`. -/
structure SessionTooOld (site : Site) (around : Around) (w : WebState) (r : AuthorizeRequest) :
    Prop where
  request : authorizeRequestChecks site around r = .ok ()
  session : w.session.Usable
  age : maxAgeExceeded around w.session r = true

/-- The answer shows a user interface. -/
abbrev ShowsUi (answer : Response) : Prop :=
  withoutUi answer = false

theorem requestChecks_withoutUi : ¬ Fails ShowsUi (authorizeRequestChecks site around r) := by
  simp [authorizeRequestChecks, fails_bind, ShowsUi, withoutUi, Response.isError]

theorem org_withoutUi : ¬ Fails ShowsUi (authorizeOrg around w r) := by
  unfold authorizeOrg
  dsimp only
  split <;> simp [ShowsUi, withoutUi, Response.isError]

/-- `none` stands alone in a request that is in order. -/
theorem noLogin_of_checked (asked : AsksForNone r)
    (checked : authorizeRequestChecks site around r = .ok ()) :
    "login" ∉ splitSpaces r.prompt := by
  simp only [authorizeRequestChecks, bind_eq_ok, refuseIf_eq_ok, exists_const] at checked
  obtain ⟨-, alone, -⟩ := checked
  rw [List.contains_iff_mem.mpr asked, Bool.true_and, decide_eq_false_iff_not, not_lt] at alone
  intro login
  obtain ⟨v, single⟩ : ∃ v, splitSpaces r.prompt = [v] := by
    apply List.length_eq_one_iff.mp
    have nonempty := List.length_pos_of_mem asked
    omega
  rw [AsksForNone, single, List.mem_singleton] at asked
  rw [single, List.mem_singleton, ← asked] at login
  exact absurd login (by decide)

theorem usable_iff {session : Session} :
    session.Usable ↔ (Session.text session.userId = "" || Session.text session.sub = "" ||
      Session.flag session.mfaPending || Session.flag session.mustChangePassword) = false := by
  constructor
  · rintro ⟨userId, sub, notPending, notFlagged⟩
    simp [userId, sub, notPending, notFlagged]
  · intro usable
    simp only [Bool.or_eq_false_iff, decide_eq_false_iff_not] at usable
    exact ⟨usable.1.1.1, usable.1.1.2, usable.1.2, usable.2⟩

/-- Only the gate on the age of the session shows something. -/
theorem sessionChecks_showsUi {session : Session} (asked : AsksForNone r)
    (noLogin : "login" ∉ splitSpaces r.prompt) :
    Fails ShowsUi (authorizeSessionChecks around session r) ↔
      session.Usable ∧ maxAgeExceeded around session r = true := by
  have noLogin' : (splitSpaces r.prompt).contains "login" = false :=
    Bool.not_eq_true _ ▸ mt List.contains_iff_mem.mp noLogin
  rw [usable_iff, authorizeSessionChecks, List.contains_iff_mem.mpr asked, noLogin']
  generalize (decide (Session.text session.userId = "") || decide (Session.text session.sub = "") ||
    Session.flag session.mfaPending || Session.flag session.mustChangePassword) = unusable
  cases unusable <;> simp [fails_bind, ShowsUi, withoutUi, Response.isError]

theorem clientError_withoutUi {error description : String} :
    ¬ ShowsUi (.oauthError r.redirectUri error description r.state) := by
  simp [ShowsUi, withoutUi, Response.isError]

/-- The checks show something where the age of the session is looked at, and nowhere else. -/
theorem grant_showsUi (asked : AsksForNone r) :
    Fails ShowsUi (authorizeGrant site around w r) ↔ SessionTooOld site around w r := by
  simp only [authorizeGrant, fails_bind, requestChecks_withoutUi, org_withoutUi, fails_refuseIf,
    scopeErrorAnswer, clientError_withoutUi, not_fails_pure, and_false, exists_const, or_false,
    false_or]
  constructor
  · rintro ⟨⟨⟩, checked, shows⟩
    have noLogin := noLogin_of_checked asked checked
    obtain ⟨session, age⟩ := (sessionChecks_showsUi asked noLogin).mp shows
    exact ⟨checked, session, age⟩
  · rintro ⟨checked, session, age⟩
    have noLogin := noLogin_of_checked asked checked
    exact ⟨(), checked, (sessionChecks_showsUi asked noLogin).mpr ⟨session, age⟩⟩

/-- Nobody is asked for consent. -/
theorem grant_issues (asked : AsksForNone r) {next : AuthorizeNext}
    (granted : authorizeGrant site around w r = .ok next) :
    ∃ request, next = .issueCode request := by
  simp only [authorizeGrant, bind_eq_ok, refuseIf_eq_ok, pure_eq_ok, exists_const] at granted
  obtain ⟨⟨⟩, -, ⟨⟩, -, orgId, -, -, silent, -, rfl⟩ := granted
  rw [List.contains_iff_mem.mpr asked, Bool.and_true] at silent
  rw [silent]
  exact ⟨_, rfl⟩

theorem issue_withoutUi {request : CodeRequest} {failed : String → Response}
    (errors : ∀ reason, withoutUi (failed reason) = true) {redirectUri state : String} :
    withoutUi (issue site around w request failed
      fun code => .code redirectUri code state false).answer = true := by
  unfold issue
  split
  · exact errors _
  · rfl

/-- An authorize request with `prompt=none` shows no user interface exactly if it is not in order,
or the session is no full one, or the session is not older than `max_age`. -/
theorem prompt_none_without_ui_iff (site : Site) (around : Around) (w : WebState)
    (r : AuthorizeRequest) (asked : AsksForNone r) :
    withoutUi (authorize site around w r).answer = true ↔ ¬ SessionTooOld site around w r := by
  rw [← grant_showsUi asked]
  unfold authorize
  cases granted : authorizeGrant site around w r with
  | error answer => simp [fails_error, ShowsUi]
  | ok next =>
      obtain ⟨request, rfl⟩ := grant_issues asked granted
      simp only [not_fails_ok, not_false_eq_true, iff_true]
      exact issue_withoutUi fun _ => rfl

/-! ### A session from an hour ago -/

/-- A request with `prompt=none`. -/
def silently (maxAge : String) : AuthorizeRequest :=
  { Sample.authorizeApp with prompt := "none", maxAge := maxAge }

/-- Alice signed in with both factors at second 1000. -/
def signedIn : WebState :=
  { Sample.signedOut with
    session := (Sample.signedOut.session.signIn Sample.alice 1000).elevateAfterMfa 1000 }

/-- An hour later she is sent to the login page. -/
theorem login_page_shown :
    AsksForNone (silently "60") ∧
      (authorize Sample.site (Sample.around 4600) signedIn (silently "60")).answer =
        .loginScreen (silently "60") ∧
      ¬ withoutUi (authorize Sample.site (Sample.around 4600) signedIn (silently "60")).answer =
        true := by
  decide +kernel

theorem prompt_none_without_ui_within_age :
    withoutUi (authorize Sample.site (Sample.around 1030) signedIn (silently "60")).answer = true :=
  (prompt_none_without_ui_iff Sample.site (Sample.around 1030) signedIn (silently "60")
    (by decide +kernel)).mpr fun old => absurd old.age (by decide +kernel)

end Fulla.PromptNone
