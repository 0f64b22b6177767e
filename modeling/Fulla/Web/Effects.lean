import Fulla.Web.Controllers

/-!
# What a request can do

For every handler: what it does to the session and to the users, and from which
checks a minted code comes.  The properties of the flows are proved from these,
without looking into a handler again.
-/

namespace Fulla

open Conc

/-! ## Who was recognised -/

/-- The account whose password the login request matched. -/
def matchedUser (site : Site) (around : Around) (w : WebState) (r : LoginRequest) : Option User :=
  if RuleSet.login site r.username r.password ≠ [] then none
  else (validateUser site around w.users r.username r.password).1

/-- The account whose second factor the request verified. -/
def verifiedUser (site : Site) (around : Around) (w : WebState) (r : VerifyLoginRequest) :
    Option User :=
  match verifyLoginUser site around w r with
  | .error _ => none
  | .ok user =>
    match (secondFactor site around w.users user r.code).1 with
    | none => none
    | some _ => some user

/-- The session of an account whose password matched. -/
def Session.afterLogin (s : Session) (site : Site) (around : Around) (r : LoginRequest)
    (user : User) : Session :=
  let s := s.signIn user around.now
  if user.mustChangePassword then { s with mustChangePassword := some true }
  else
    match evaluateLoginPolicy user site.requireEmailVerification with
    | .requireMfa => s.pauseForMfa r.codeChallenge r.codeChallengeMethod
    | _ => s

/-- Nothing but the consent and organisation slots has changed. -/
def Session.SameLogin (s s' : Session) : Prop :=
  s' = { s with
    pendingConsentCsrfSlots := s'.pendingConsentCsrfSlots
    pendingOrgContextSlots := s'.pendingOrgContextSlots }

theorem Session.SameLogin.refl (s : Session) : s.SameLogin s :=
  rfl

theorem Session.SameLogin.trans {a b c : Session} (ab : a.SameLogin b) (bc : b.SameLogin c) :
    a.SameLogin c := by
  refine Eq.trans bc ?_
  rw [ab]

section Recognised

variable {site : Site} {around : Around} {w : WebState}

/-- A login that matched somebody matched a user of the table. -/
theorem find?_of_matchedUser {r : LoginRequest} {user : User}
    (matched : matchedUser site around w r = some user) :
    w.users.find? user.publicSub = some user := by
  unfold matchedUser at matched
  split at matched
  · cases matched
  · exact find?_of_validateUser matched

/-- The first checks of `verifyLogin` find the user and refuse under `must_change_password`. -/
theorem verifyLoginUser_ok {r : VerifyLoginRequest} {user : User}
    (passed : verifyLoginUser site around w r = .ok user) :
    Session.flag w.session.mustChangePassword = false ∧
      w.users.find? r.mfaToken = some user := by
  simp only [verifyLoginUser, bind_eq_ok, refuseIf_eq_ok, orRefuse_eq_ok, pure_eq_ok, exists_const]
    at passed
  obtain ⟨-, -, flag, -, u, found, -, rfl⟩ := passed
  refine ⟨flag, ?_⟩
  split at found
  · cases found
  · exact Users.find?_of_findByPublicSub found

/-- A second factor that is verified is that of a user of the table. -/
theorem find?_of_verifiedUser {r : VerifyLoginRequest} {user : User}
    (verified : verifiedUser site around w r = some user) :
    w.users.find? r.mfaToken = some user := by
  unfold verifiedUser at verified
  split at verified
  · cases verified
  · next u passed =>
      split at verified
      · cases verified
      · cases verified
        exact (verifyLoginUser_ok passed).2

/-- The user it belongs to is the one that `mfa_token` names, whatever the session says. -/
theorem publicSub_of_verifiedUser {r : VerifyLoginRequest} {user : User}
    (verified : verifiedUser site around w r = some user) : user.publicSub = r.mfaToken :=
  Table.find?_key (find?_of_verifiedUser verified)

end Recognised

/-! ## Login -/

section Login

variable (site : Site) (around : Around) (w : WebState) (r : LoginRequest)

/-- A login that waits for the second factor leaves the pause in the session, changes no user and
issues no code. -/
theorem pauseLogin_spec (user : User) :
    (pauseLogin around w r user).state.session =
        w.session.pauseForMfa r.codeChallenge r.codeChallengeMethod ∧
      w.users.SameUsers (pauseLogin around w r user).state.users ∧
      (pauseLogin around w r user).minted = none := by
  unfold pauseLogin
  dsimp only
  split
  · exact ⟨rfl, w.users.sameUsers_update _ _, rfl⟩
  · exact ⟨rfl, .refl _, rfl⟩

/-- What the session holds after a login whose password matched. -/
theorem loginMatched_session (user : User) :
    (loginMatched site around { w with session := w.session.signIn user around.now } r
        user).state.session = w.session.afterLogin site around r user := by
  unfold loginMatched Session.afterLogin
  dsimp only
  split
  · rfl
  · cases evaluateLoginPolicy user site.requireEmailVerification with
    | denyEmailNotVerified => rfl
    | requireMfa => exact (pauseLogin_spec around _ r user).1
    | proceed =>
        dsimp only
        split
        · rfl
        · exact issue_session

/-- A login whose password matched leaves the users as they are, but for their pending binding. -/
theorem loginMatched_users (user : User) :
    w.users.SameUsers (loginMatched site around w r user).state.users := by
  unfold loginMatched
  split
  · exact .refl _
  · cases evaluateLoginPolicy user site.requireEmailVerification with
    | denyEmailNotVerified => exact .refl _
    | requireMfa => exact (pauseLogin_spec around w r user).2.1
    | proceed =>
        dsimp only
        split
        · exact .refl _
        · rw [issue_users]
          exact .refl _

/-- A login writes the session only when the password matched. -/
theorem login_session :
    (login site around w r).state.session =
      match matchedUser site around w r with
      | none => w.session
      | some user => w.session.afterLogin site around r user := by
  unfold login matchedUser
  dsimp only
  split
  · rfl
  · cases valid : validateUser site around w.users r.username r.password with
    | mk matched users =>
        cases matched with
        | none => rfl
        | some user => exact loginMatched_session site around { w with users := users } r user

/-- A login keeps the users, but for their pending binding. -/
theorem login_users : w.users.SameUsers (login site around w r).state.users := by
  have checked := sameUsers_validateUser site around w.users r.username r.password
  unfold login
  dsimp only
  split
  · exact .refl _
  · cases valid : validateUser site around w.users r.username r.password with
    | mk matched users =>
        rw [valid] at checked
        cases matched with
        | none => exact checked
        | some user => exact checked.trans (loginMatched_users site around _ r user)

variable {site around w r}

/-- A login that mints a code passed the policy without a second factor. -/
theorem login_minted {m : IssuedCode} (minted : (login site around w r).minted = some m) :
    ∃ user users, matchedUser site around w r = some user ∧
      user.mustChangePassword = false ∧
      evaluateLoginPolicy user site.requireEmailVerification = .proceed ∧
      loginGrant site around
          { w with session := w.session.signIn user around.now, users := users } r user =
        .ok m.toCodeRequest := by
  unfold login at minted
  unfold matchedUser
  dsimp only at minted
  split at minted
  · cases minted
  · next clean =>
      rw [if_neg clean]
      cases valid : validateUser site around w.users r.username r.password with
      | mk matched users =>
          rw [valid] at minted
          cases matched with
          | none => cases minted
          | some user =>
              refine ⟨user, users, rfl, ?_⟩
              dsimp only [loginMatched] at minted
              split at minted
              · cases minted
              · next fresh =>
                  refine ⟨by simpa using fresh, ?_⟩
                  split at minted
                  · cases minted
                  · rw [(pauseLogin_spec around _ r user).2.2] at minted
                    cases minted
                  · next policy =>
                      refine ⟨policy, ?_⟩
                      split at minted
                      · cases minted
                      · next request granted =>
                          rw [issue_minted minted, granted]

/-- A login that may issue a code has passed the guards, the PKCE rule and the scope decision. -/
theorem loginGrant_ok {user : User} {c : CodeRequest}
    (granted : loginGrant site around w r user = .ok c) :
    checkCodeIssuanceGuards around r.clientId r.redirectUri r.scope = .ok () ∧
      (site.requirePkce = true → r.codeChallenge ≠ "") ∧
      loginScope site around w r user = .ok c.scope ∧
      c.clientId = r.clientId ∧ c.subject = user.publicSub ∧
      c.codeChallenge = r.codeChallenge ∧ c.codeChallengeMethod = r.codeChallengeMethod := by
  simp only [loginGrant, bind_eq_ok, orAnswer_eq_ok, refuseIf_eq_ok, pure_eq_ok, exists_const]
    at granted
  obtain ⟨⟨⟩, guarded, pkce, -, orgId, -, scope, kept, rfl⟩ := granted
  exact ⟨guarded, by simpa using pkce, kept, rfl, rfl, rfl, rfl⟩

end Login

/-! ## Second factor -/

section VerifyLogin

variable (site : Site) (around : Around) (w : WebState) (r : VerifyLoginRequest)

/-- Using a backup code changes nothing but the list of them. -/
theorem attemptBackupCode_users (users : Users) (user : User) (code : String) :
    users.SameUsers (attemptBackupCode site around users user code).2 := by
  unfold attemptBackupCode
  split
  · exact .refl _
  · split
    · exact .refl _
    · split
      · exact .refl _
      · exact users.sameUsers_update _ _

/-- A second factor changes nothing but the list of backup codes. -/
theorem secondFactor_users (users : Users) (user : User) (code : String) :
    users.SameUsers (secondFactor site around users user code).2 := by
  have backup := attemptBackupCode_users site around users user code
  unfold secondFactor
  split
  · exact .refl _
  · split
    · next eq =>
        rw [eq] at backup
        exact backup
    · next eq =>
        rw [eq] at backup
        exact backup

/-- What the exchange after a second factor does to the session and the users, and which code it
issues. -/
theorem exchangeAfterMfa_spec (issued : Outcome) (code : String) (user : User)
    (remaining : Option Nat) :
    (exchangeAfterMfa site around issued code r user remaining).state.session =
        issued.state.session ∧
      issued.state.users.SameUsers
        (exchangeAfterMfa site around issued code r user remaining).state.users ∧
      (exchangeAfterMfa site around issued code r user remaining).minted = issued.minted := by
  unfold exchangeAfterMfa
  dsimp only
  split
  · exact ⟨rfl, .refl _, rfl⟩
  · exact ⟨rfl, .refl _, rfl⟩
  · exact ⟨rfl, around.sameUsers_write _ _ _ _, rfl⟩

/-- A verified second factor elevates the session, and the code it issues is one that was granted.
-/
theorem onTotpVerified_spec (user : User) (remaining : Option Nat) :
    (onTotpVerified site around w r user remaining).state.session =
        w.session.elevateAfterMfa around.now ∧
      w.users.SameUsers (onTotpVerified site around w r user remaining).state.users ∧
      ∀ m, (onTotpVerified site around w r user remaining).minted = some m →
        verifyLoginGrant site around
            { w with session := w.session.elevateAfterMfa around.now } r user =
          .ok m.toCodeRequest := by
  unfold onTotpVerified
  dsimp only
  split
  · exact ⟨rfl, .refl _, fun _ eq => nomatch eq⟩
  · next request granted =>
      split
      · next none =>
          refine ⟨issue_session, by rw [issue_users]; exact .refl _, ?_⟩
          intro m eq
          rw [none] at eq
          cases eq
      · next minted some =>
          obtain ⟨session, users, same⟩ := exchangeAfterMfa_spec site around r _ minted.code user
            remaining
          refine ⟨session.trans issue_session, ?_, ?_⟩
          · rw [issue_users] at users
            exact users
          · intro m eq
            rw [same] at eq
            rw [granted, issue_minted eq]

/-- `verifyLogin` writes the session only when the second factor was right. -/
theorem verifyLogin_session :
    (verifyLogin site around w r).state.session =
      match verifiedUser site around w r with
      | none => w.session
      | some _ => w.session.elevateAfterMfa around.now := by
  unfold verifyLogin verifiedUser
  cases verifyLoginUser site around w r with
  | error answer => rfl
  | ok user =>
      dsimp only
      cases eq : secondFactor site around w.users user r.code with
      | mk factor users =>
          cases factor with
          | none => rfl
          | some remaining => exact (onTotpVerified_spec site around _ r user remaining).1

/-- `verifyLogin` keeps the users, but for their pending binding and backup codes. -/
theorem verifyLogin_users : w.users.SameUsers (verifyLogin site around w r).state.users := by
  unfold verifyLogin
  cases verifyLoginUser site around w r with
  | error answer => exact .refl _
  | ok user =>
      have factored := secondFactor_users site around w.users user r.code
      dsimp only
      cases eq : secondFactor site around w.users user r.code with
      | mk factor users =>
          rw [eq] at factored
          cases factor with
          | none => exact factored
          | some remaining =>
              exact factored.trans (onTotpVerified_spec site around _ r user remaining).2.1

variable {site around w r}

/-- A code issued by `verifyLogin` stands behind a verified user and a grant on the elevated
session. -/
theorem verifyLogin_minted {m : IssuedCode}
    (minted : (verifyLogin site around w r).minted = some m) :
    ∃ user users, verifiedUser site around w r = some user ∧
      verifyLoginGrant site around
          { w with session := w.session.elevateAfterMfa around.now, users := users } r user =
        .ok m.toCodeRequest := by
  unfold verifyLogin at minted
  unfold verifiedUser
  cases passed : verifyLoginUser site around w r with
  | error answer =>
      rw [passed] at minted
      cases minted
  | ok user =>
      rw [passed] at minted
      dsimp only at minted ⊢
      cases eq : secondFactor site around w.users user r.code with
      | mk factor users =>
          rw [eq] at minted
          cases factor with
          | none => cases minted
          | some remaining =>
              exact ⟨user, users, rfl, (onTotpVerified_spec site around { w with users := users } r
                user remaining).2.2 m minted⟩

/-- The session copy of the challenge is gone before it is read. -/
theorem verifyLoginGrant_ok {user : User} {users : Users} {now : Int} {c : CodeRequest}
    (granted : verifyLoginGrant site around
      { w with session := w.session.elevateAfterMfa now, users := users } r user = .ok c) :
    checkCodeIssuanceGuards around r.clientId r.redirectUri (verifyLoginScope r) = .ok () ∧
      c.clientId = r.clientId ∧ c.subject = user.publicSub ∧ c.scope = verifyLoginScope r ∧
      c.codeChallenge = "" ∧ c.codeChallengeMethod = "" := by
  simp only [verifyLoginGrant, bind_eq_ok, orAnswer_eq_ok, refuseIf_eq_ok, pure_eq_ok, exists_const]
    at granted
  obtain ⟨⟨⟩, guarded, -, rfl⟩ := granted
  refine ⟨guarded, rfl, rfl, rfl, ?_, ?_⟩
  · simp [Session.elevateAfterMfa, Session.text]
  · simp [Session.elevateAfterMfa, Session.text]

end VerifyLogin

/-! ## Authorize -/

/-- A session that the authorize and consent gates let through. -/
structure Session.Usable (s : Session) : Prop where
  userId : Session.text s.userId ≠ ""
  sub : Session.text s.sub ≠ ""
  notPending : Session.flag s.mfaPending = false
  notFlagged : Session.flag s.mustChangePassword = false

/-- What stands behind a code the authorize endpoint mints. -/
structure AuthorizeChecked (site : Site) (around : Around) (w : WebState) (r : AuthorizeRequest)
    (c : CodeRequest) : Prop where
  client : ∃ client, around.getClient r.clientId = some client
  method : r.codeChallenge ≠ "" → r.codeChallengeMethod = "S256"
  pkce : site.requirePkce = true → r.codeChallenge ≠ ""
  session : w.session.Usable
  scopes : (evaluateScopes site around w r.clientId (Session.text w.session.userId)
    (splitSpaces r.scope)).hasErrors = false
  clientId_eq : c.clientId = r.clientId
  subject_eq : c.subject = Session.text w.session.sub
  scope_eq : c.scope = r.scope
  codeChallenge_eq : c.codeChallenge = r.codeChallenge
  codeChallengeMethod_eq : c.codeChallengeMethod = r.codeChallengeMethod

section Authorize

variable {site : Site} {around : Around} {w : WebState} {r : AuthorizeRequest}

/-- A request that `authorize` looks further at names a client, and its challenge is an S256 one.
-/
theorem authorizeRequestChecks_ok (passed : authorizeRequestChecks site around r = .ok ()) :
    (∃ client, around.getClient r.clientId = some client) ∧
      (r.codeChallenge ≠ "" → r.codeChallengeMethod = "S256") := by
  simp only [authorizeRequestChecks, bind_eq_ok, refuseIf_eq_ok, pure_eq_ok, exists_const] at passed
  obtain ⟨-, -, -, -, -, known, -, -, -, method, -⟩ := passed
  refine ⟨Option.isSome_iff_exists.mp (Option.isNone_eq_false_iff.mp known), ?_⟩
  intro challenged
  simpa [challenged] using method

/-- The session checks of `authorize` pass usable sessions only. -/
theorem authorizeSessionChecks_ok {session : Session}
    (passed : authorizeSessionChecks around session r = .ok ()) : session.Usable := by
  simp only [authorizeSessionChecks, bind_eq_ok, refuseIf_eq_ok, pure_eq_ok, exists_const]
    at passed
  obtain ⟨-, -, usable, -⟩ := passed
  simp only [Bool.or_eq_false_iff, decide_eq_false_iff_not] at usable
  exact ⟨usable.1.1.1, usable.1.1.2, usable.1.2, usable.2⟩

/-- A code is granted by `authorize` after all of its checks. -/
theorem authorizeGrant_issueCode {c : CodeRequest}
    (granted : authorizeGrant site around w r = .ok (.issueCode c)) :
    AuthorizeChecked site around w r c := by
  simp only [authorizeGrant, bind_eq_ok, refuseIf_eq_ok, pure_eq_ok, exists_const] at granted
  obtain ⟨⟨⟩, request, ⟨⟩, session, orgId, -, scopes, -, pkce, next⟩ := granted
  split at next
  · cases next
  · next silent =>
      cases next
      obtain ⟨client, method⟩ := authorizeRequestChecks_ok request
      refine ⟨client, method, ?_, authorizeSessionChecks_ok session, scopes, rfl, rfl,
        rfl, rfl, rfl⟩
      intro required
      rw [Bool.not_eq_true] at silent
      rw [silent, required] at pkce
      simpa using pkce

/-- A code issued by `authorize` has passed all of its checks. -/
theorem authorize_minted {m : IssuedCode} (minted : (authorize site around w r).minted = some m) :
    AuthorizeChecked site around w r m.toCodeRequest := by
  unfold authorize at minted
  split at minted
  · cases minted
  · cases minted
  · next request granted =>
      rw [← issue_minted minted] at granted
      exact authorizeGrant_issueCode granted

variable (site around w r)

/-- `authorize` leaves the login of the session as it is. -/
theorem authorize_sameLogin : w.session.SameLogin (authorize site around w r).state.session := by
  unfold authorize
  split
  · exact .refl _
  · rfl
  · rw [issue_session]
    exact .refl _

/-- `authorize` does not write users. -/
theorem authorize_users : (authorize site around w r).state.users = w.users := by
  unfold authorize
  split
  · rfl
  · rfl
  · exact issue_users

end Authorize

/-! ## Consent -/

/-- What stands behind a code the consent endpoint mints. -/
structure ConsentChecked (site : Site) (around : Around) (w : WebState) (r : ConsentRequest)
    (c : CodeRequest) : Prop where
  guarded : checkCodeIssuanceGuards around r.clientId r.redirectUri r.scope = .ok ()
  pkce : site.requirePkce = true → r.codeChallenge ≠ ""
  session : w.session.Usable
  clientId_eq : c.clientId = r.clientId
  subject_eq : c.subject = Session.text w.session.sub
  scope_eq : c.scope = r.scope
  codeChallenge_eq : c.codeChallenge = r.codeChallenge
  codeChallengeMethod_eq : c.codeChallengeMethod = r.codeChallengeMethod

section Consent

variable {site : Site} {around : Around} {w : WebState} {r : ConsentRequest}

/-- The gates of `consent` pass a usable session of the user in the form. -/
theorem consentGates_ok {session : Session} {slots : List ConsentCsrfSlot}
    (passed : consentGates around session r = .ok slots) :
    session.Usable ∧ r.userId = Session.text session.sub := by
  simp only [consentGates, bind_eq_ok, refuseIf_eq_ok, orRefuse_eq_ok, exists_const] at passed
  obtain ⟨signedIn, same, notPending, notFlagged, -⟩ := passed
  simp only [Bool.or_eq_false_iff, decide_eq_false_iff_not] at signedIn
  exact ⟨⟨signedIn.2, signedIn.1, notPending, notFlagged⟩, by simpa using same⟩

/-- The checks of `consent` are the guards of a code and the PKCE rule. -/
theorem consentChecks_ok {uid : Int} (passed : consentChecks site around r = .ok uid) :
    checkCodeIssuanceGuards around r.clientId r.redirectUri r.scope = .ok () ∧
      (site.requirePkce = true → r.codeChallenge ≠ "") := by
  simp only [consentChecks, bind_eq_ok, refuseIf_eq_ok, orRefuse_eq_ok, orAnswer_eq_ok,
    exists_const] at passed
  obtain ⟨pkce, ⟨⟩, guarded, -, -⟩ := passed
  exact ⟨guarded, by simpa using pkce⟩

/-- An approval keeps the login and the users, and issues a code as it was asked for. -/
theorem consentApprove_spec (uid : Int) :
    w.session.SameLogin (consentApprove site around w r uid).state.session ∧
      (consentApprove site around w r uid).state.users = w.users ∧
      ∀ m, (consentApprove site around w r uid).minted = some m →
        m.clientId = r.clientId ∧ m.subject = r.userId ∧ m.scope = r.scope ∧
          m.codeChallenge = r.codeChallenge ∧ m.codeChallengeMethod = r.codeChallengeMethod := by
  unfold consentApprove
  dsimp only
  split
  · exact ⟨rfl, rfl, fun _ eq => nomatch eq⟩
  · split
    · exact ⟨rfl, rfl, fun _ eq => nomatch eq⟩
    · refine ⟨?_, issue_users, ?_⟩
      · rw [issue_session]
        rfl
      · intro m minted
        have request := issue_minted minted
        exact ⟨congrArg CodeRequest.clientId request, congrArg CodeRequest.subject request,
          congrArg CodeRequest.scope request, congrArg CodeRequest.codeChallenge request,
          congrArg CodeRequest.codeChallengeMethod request⟩

/-- A code issued by `consent` has passed its gates and its checks. -/
theorem consent_minted {m : IssuedCode} (minted : (consent site around w r).minted = some m) :
    ConsentChecked site around w r m.toCodeRequest := by
  unfold consent at minted
  split at minted
  · cases minted
  · next slots gates =>
      dsimp only at minted
      split at minted
      · cases minted
      · split at minted
        · cases minted
        · next uid checks =>
            obtain ⟨usable, same⟩ := consentGates_ok gates
            obtain ⟨guarded, pkce⟩ := consentChecks_ok checks
            obtain ⟨client, subject, scope, challenge, method⟩ :=
              (consentApprove_spec uid).2.2 m minted
            exact ⟨guarded, pkce, usable, client, subject.trans same, scope, challenge, method⟩

variable (site around w r)

/-- `consent` leaves the login of the session as it is. -/
theorem consent_sameLogin : w.session.SameLogin (consent site around w r).state.session := by
  unfold consent
  split
  · exact .refl _
  · dsimp only
    split
    · rfl
    · split
      · rfl
      · have paid (slots : List ConsentCsrfSlot) :
            w.session.SameLogin { w.session with pendingConsentCsrfSlots := slots } := rfl
        exact (paid _).trans (consentApprove_spec _).1

/-- `consent` does not write users. -/
theorem consent_users : (consent site around w r).state.users = w.users := by
  unfold consent
  split
  · rfl
  · dsimp only
    split
    · rfl
    · split
      · rfl
      · exact (consentApprove_spec _).2.1

end Consent

/-! ## Any request -/

/-- No handler changes a user beyond the pending binding and the backup codes. -/
theorem handle_users (site : Site) (around : Around) (w : WebState) (r : Request) :
    w.users.SameUsers (handle site around w r).state.users := by
  cases r with
  | login r => exact login_users site around w r
  | verifyLogin r => exact verifyLogin_users site around w r
  | authorize r =>
      rw [handle, authorize_users]
      exact .refl _
  | consent r =>
      rw [handle, consent_users]
      exact .refl _

/-- The two requests that mint for the session's subject. -/
def MintsFromSession : Request → Prop
  | .authorize _ => True
  | .consent _ => True
  | _ => False

/-- A code that rests on the session is issued for its subject, and only while it is usable. -/
theorem usable_of_minted {site : Site} {w : WebState} {around : Around} {r : Request}
    {m : IssuedCode}
    (fromSession : MintsFromSession r) (minted : (handle site around w r).minted = some m) :
    w.session.Usable ∧ w.session.sub = some m.subject := by
  have held (usable : w.session.Usable) (eq : m.subject = Session.text w.session.sub) :
      w.session.sub = some m.subject := by
    cases sub : w.session.sub with
    | none => exact absurd (by rw [sub]; rfl) usable.sub
    | some s =>
        rw [eq, sub]
        rfl
  cases r with
  | login r => cases fromSession
  | verifyLogin r => cases fromSession
  | authorize r =>
      have checked := authorize_minted minted
      exact ⟨checked.session, held checked.session checked.subject_eq⟩
  | consent r =>
      have checked := consent_minted minted
      exact ⟨checked.session, held checked.session checked.subject_eq⟩

end Fulla
