import Fulla.Conc.History
import Fulla.Protocol.Calls
import Fulla.Web.Effects

/-!
# Runs of one browser session

A run starts with an empty session, over any users, consents and stored codes, and
handles any list of requests, each in its own surroundings.
-/

namespace Fulla

open Conc

/-- A request with what it meets. -/
abbrev Visit := Around × Request

/-- The session has not been used. -/
def WebState.SignedOut (w : WebState) : Prop :=
  w.session = {}

/-- The visits of a run, newest first, each with the state it found. -/
def visits (site : Site) (w : WebState) (requests : List Visit) : List (WebState × Visit) :=
  (History.run (next site) w requests).1

/-- The state a run ends in. -/
def browse (site : Site) (w : WebState) (requests : List Visit) : WebState :=
  (History.run (next site) w requests).2

/-! ## Steps -/

/-- The account whose password the visit matched. -/
def passwordOf (site : Site) : WebState × Visit → Option User
  | (w, around, .login r) => matchedUser site around w r
  | _ => none

/-- The account whose second factor the visit verified. -/
def factorOf (site : Site) : WebState × Visit → Option User
  | (w, around, .verifyLogin r) => verifiedUser site around w r
  | _ => none

/-- All a visit can do to the session. -/
inductive SessionStep (site : Site) (w : WebState) : Visit → Session → Prop
  | login {around : Around} {r : LoginRequest} {user : User}
      (matched : matchedUser site around w r = some user) :
      SessionStep site w (around, .login r) (w.session.afterLogin site around r user)
  | elevate {around : Around} {r : VerifyLoginRequest} {user : User}
      (verified : verifiedUser site around w r = some user) :
      SessionStep site w (around, .verifyLogin r) (w.session.elevateAfterMfa around.now)
  | keep {v : Visit} {s : Session} (same : w.session.SameLogin s)
      (noPassword : passwordOf site (w, v) = none) (noFactor : factorOf site (w, v) = none) :
      SessionStep site w v s

theorem next_session (site : Site) (w : WebState) (v : Visit) :
    SessionStep site w v (next site w v).session := by
  obtain ⟨around, r⟩ := v
  cases r with
  | login r =>
      have session : (next site w (around, .login r)).session = _ := login_session site around w r
      rw [session]
      cases matched : matchedUser site around w r with
      | none => exact .keep (.refl _) matched rfl
      | some user => exact .login matched
  | verifyLogin r =>
      have session : (next site w (around, .verifyLogin r)).session = _ :=
        verifyLogin_session site around w r
      rw [session]
      cases verified : verifiedUser site around w r with
      | none => exact .keep (.refl _) rfl verified
      | some user => exact .elevate verified
  | authorize r => exact .keep (authorize_sameLogin site around w r) rfl rfl
  | consent r => exact .keep (consent_sameLogin site around w r) rfl rfl

theorem next_users (site : Site) (w : WebState) (v : Visit) :
    w.users.SameUsers (next site w v).users :=
  handle_users site v.1 w v.2

/-- The same row before the step, by identity and MFA enrolment. -/
theorem Users.SameUsers.find?_before {users users' : Users} (same : users.SameUsers users')
    {sub : String} {user' : User} (found : users'.find? sub = some user') :
    ∃ user, users.find? sub = some user ∧ user.id = user'.id ∧
      user.mfaEnabled = user'.mfaEnabled := by
  have eq := same sub
  rw [found] at eq
  obtain ⟨user, foundBefore, pair⟩ := Option.map_eq_some_iff.mp eq.symm
  exact ⟨user, foundBefore, (Prod.mk.inj pair).1, (Prod.mk.inj pair).2⟩

theorem Users.SameUsers.find?_after {users users' : Users} (same : users.SameUsers users')
    {sub : String} {user : User} (found : users.find? sub = some user) :
    ∃ user', users'.find? sub = some user' ∧ user'.id = user.id ∧
      user'.mfaEnabled = user.mfaEnabled := by
  have eq := same sub
  rw [found] at eq
  obtain ⟨user', foundAfter, pair⟩ := Option.map_eq_some_iff.mp eq
  exact ⟨user', foundAfter, (Prod.mk.inj pair).1, (Prod.mk.inj pair).2⟩

/-! ## The session's account -/

/-- The subject and the internal id in the session are of one row of the table. -/
def Owned (w : WebState) : Prop :=
  ∀ sub, w.session.sub = some sub →
    ∃ user, w.users.find? sub = some user ∧ w.session.userId = some (toString user.id)

theorem Owned.sameUsers {w w' : WebState} (owned : Owned w) (users : w.users.SameUsers w'.users)
    (sub : w'.session.sub = w.session.sub) (userId : w'.session.userId = w.session.userId) :
    Owned w' := by
  intro s held
  obtain ⟨user, found, named⟩ := owned s (sub ▸ held)
  obtain ⟨user', found', id, -⟩ := users.find?_after found
  refine ⟨user', found', ?_⟩
  rw [userId, named, id]

theorem Session.afterLogin_sub (s : Session) (site : Site) (around : Around) (r : LoginRequest)
    (user : User) : (s.afterLogin site around r user).sub = some user.publicSub := by
  unfold Session.afterLogin
  dsimp only
  split
  · rfl
  · split <;> rfl

theorem Session.afterLogin_userId (s : Session) (site : Site) (around : Around) (r : LoginRequest)
    (user : User) : (s.afterLogin site around r user).userId = some (toString user.id) := by
  unfold Session.afterLogin
  dsimp only
  split
  · rfl
  · split <;> rfl

theorem next_owned {site : Site} {w : WebState} (v : Visit) (owned : Owned w) :
    Owned (next site w v) := by
  have users := next_users site w v
  have step := next_session site w v
  generalize next site w v = w' at users step ⊢
  generalize eq : w'.session = session at step
  cases step with
  | @login around r user matched =>
      intro sub held
      rw [eq, Session.afterLogin_sub] at held
      cases held
      obtain ⟨user', found', id, -⟩ := users.find?_after (find?_of_matchedUser matched)
      refine ⟨user', found', ?_⟩
      rw [eq, Session.afterLogin_userId, id]
  | elevate verified => exact owned.sameUsers users (by rw [eq]; rfl) (by rw [eq]; rfl)
  | keep same => exact owned.sameUsers users (by rw [eq, same]) (by rw [eq, same])

theorem browse_owned (site : Site) {w : WebState} (start : w.SignedOut) (requests : List Visit) :
    Owned (browse site w requests) := by
  refine History.run_always ?_ (fun _ v owned => next_owned v owned) requests
  intro sub held
  rw [start] at held
  cases held

/-! ## A concrete site

Two accounts with MFA, `alice` and `bob`, and `carol` without it and with an
unverified address; one client.  The password hash is the password behind the
PBKDF2 mark, a TOTP code is the secret, and every request matches the patterns of
the validation rules. -/

namespace Sample

/-- A user with a second factor. -/
def alice : User :=
  { id := 1, publicSub := "sub-alice", username := "alice", email := "alice@example.org"
    passwordHash := "$pbkdf2-sha256$alice-pw", emailVerified := true, mfaEnabled := true
    mfaSecret := "111111" }

/-- Another one. -/
def bob : User :=
  { id := 2, publicSub := "sub-bob", username := "bob", email := "bob@example.org"
    passwordHash := "$pbkdf2-sha256$bob-pw", emailVerified := true, mfaEnabled := true
    mfaSecret := "222222" }

/-- A user without a second factor. -/
def carol : User :=
  { id := 3, publicSub := "sub-carol", username := "carol", email := "carol@example.org"
    passwordHash := "$pbkdf2-sha256$carol-pw" }

/-- The three users. -/
def users : Users :=
  { rows := [alice, bob, carol], nodup := by decide }

/-- A client with two scopes. -/
def app : OAuth2Client :=
  { clientId := "app", redirectUris := ["https://app.example/cb"]
    allowedScopes := ["openid", "admin"] }

/-- Plain text in place of hashes. -/
def site : Site where
  regexMatch _ _ := true
  verifyPassword password hash _ := hash = "$pbkdf2-sha256$" ++ password
  verifyTotp secret code _ := secret = code
  sha256Hex s := s
  tokenService := service.over .memory .memory crypto

/-- Second `t`; nobody is an administrator, and consent to `openid` was given by an
organisation of every user. -/
def around (t : Nat) : Around where
  now := t
  env := envAt t
  getClient clientId := if clientId = "app" then some app else none
  resolveSubject subject := stoInt (2 ^ 31) subject
  roleProvider := some { getRoles := fun _ => ["user"], getRolePermissions := some fun _ => [] }
  hasOrgConsentForUser := some fun _ _ scope => scope = "openid"

def signedOut : WebState :=
  { users := users, db := db }

/-- A well-formed challenge. -/
def challenge : String :=
  "abcdefghijklmnopqrstuvwxyzABCDEFGHIJKLMNOPQ"

/-- A login with the right password. -/
def loginAs (name : String) : LoginRequest :=
  { username := name, password := name ++ "-pw", clientId := "app"
    redirectUri := "https://app.example/cb", scope := "openid", state := "state-123"
    codeChallenge := challenge, codeChallengeMethod := "S256" }

/-- A second factor that is right. -/
def verifyAs (user : User) : VerifyLoginRequest :=
  { mfaToken := user.publicSub, code := user.mfaSecret, clientId := "app"
    redirectUri := "https://app.example/cb", scope := "openid" }

/-- A request for a code. -/
def authorizeApp : AuthorizeRequest :=
  { responseType := "code", clientId := "app", redirectUri := "https://app.example/cb"
    scope := "openid", state := "state-123", codeChallenge := challenge
    codeChallengeMethod := "S256" }

/-- Alice's password was accepted and her second factor is outstanding. -/
def paused : WebState :=
  browse site signedOut [(around 900, .login (loginAs "alice"))]

end Sample

end Fulla
