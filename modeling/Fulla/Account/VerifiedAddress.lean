import Mathlib.Data.List.Induction
import Fulla.Account.Exchanges

/-!
# The verified flag and the address

`EmailVerificationService.cc` (`sendVerificationEmail`, `verifyToken`) beside the update of users
by an administrator, in sequences of calls.

A token is bound to the address it was sent to, but presenting it sets the flag of the user
whatever the address is by then, and an update of the address leaves the flag as it was.
`verified_of_current_address`: what a sequence of calls has to avoid for the flag to belong to
the current address.
-/

namespace Fulla

namespace Account

open Conc UserAdminService

namespace EmailVerificationService

/-- `EmailVerificationService::sendVerificationEmail`. -/
def sendVerificationEmail (hashToken : String → String) (internalUserId : Int32)
    (email : String) : AccountProg :=
  if email = "" then return
  else
    Prog.op (S := AccountSig) .secureToken fun rawToken => withNow fun now =>
      sqlOr (.insertVerificationToken ⟨hashToken rawToken, internalUserId, email, now + 86400⟩)
        (fun _ => return) fun _ => Prog.call (S := AccountSig) (.sendMail email rawToken)

/-- `user`: the row of the consumed token. -/
def markVerified (userId : Int32) : AccountProg :=
  sqlOr (.user userId)
    (fun what => respondError "DB_QUERY_ERROR"
      ("Failed to find user for email_verified update: " ++ what))
    fun user =>
      sqlOr (.updateUser user.id { emailVerified := some true })
        (fun what => respondError "DB_QUERY_ERROR" ("Failed to update email_verified: " ++ what))
        fun _ => respond .emailVerified

/-- `EmailVerificationService::verifyToken`. -/
def verifyToken (hashToken : String → String) (token : String) : AccountProg :=
  if token = "" then
    respondError "VALIDATION_MISSING_REQUIRED_FIELD" "verify: token parameter is required"
  else
    withNow fun now => sqlOr (.consumeVerificationToken (hashToken token) now)
      (fun what => respondError "DB_QUERY_ERROR" ("Email verification failed: " ++ what)) fun
        | [] =>
          respondError "VALIDATION_VERIFICATION_TOKEN_INVALID" "verify: token is invalid or expired"
        | t :: _ => markVerified t.userId

end EmailVerificationService

open EmailVerificationService

/-! ## Sequences of calls -/

/-- The calls that touch the address of an account. -/
inductive AddressCall where
  | sendVerificationEmail (internalUserId : Int32) (email : String)
  | verifyToken (token : String)
  | updateUser (userId : String) (body : Option (List (String × Json)))

/-- The program that a call runs. -/
def AddressCall.prog (hashToken : String → String) : AddressCall → AccountProg
  | sendVerificationEmail internalUserId email =>
    EmailVerificationService.sendVerificationEmail hashToken internalUserId email
  | verifyToken token => EmailVerificationService.verifyToken hashToken token
  | updateUser userId body => UserAdminService.updateUser userId body

/-- A call that was made. -/
structure Made where
  call : AddressCall
  surroundings : Pattern
  before : AccountDb
  after : AccountDb
  answers : List AccountAnswer

/-- A call that runs to its end, and what it leaves. -/
def makeCall (hashToken : String → String) (db : AccountDb) (c : AddressCall × Pattern) : Made :=
  let x := afterwards c.2 (c.1.prog hashToken) ⟨db, []⟩
  ⟨c.1, c.2, db, x.db, x.answers⟩

/-- The calls made so far, newest first, and the tables. -/
def makeCalls (hashToken : String → String) (start : AccountDb)
    (calls : List (AddressCall × Pattern)) : List Made × AccountDb :=
  calls.foldl (fun s c => (makeCall hashToken s.2 c :: s.1, (makeCall hashToken s.2 c).after))
    ([], start)

/-- The current address of a user. -/
def addressOf (db : AccountDb) (id : Int32) : Option String :=
  (db.users.find? id).bind (·.email)

/-- The flag of the account. -/
def isVerified (db : AccountDb) (id : Int32) : Bool :=
  (db.users.find? id).any (·.emailVerified)

/-- An administrator set the flag, or a token was presented that had been issued for the address
that the user has. -/
def Grants (hashToken : String → String) (m : Made) (id : Int32) : Prop :=
  match m.call with
  | .sendVerificationEmail _ _ => False
  | .verifyToken token =>
    m.answers = [.emailVerified] ∧ ∃ t ∈ m.before.verificationTokens,
      t.tokenHash = hashToken token ∧ t.userId = id ∧
        ∃ e, addressOf m.after id = some e ∧ normalizeEmail t.email = normalizeEmail e
  | .updateUser userId body =>
    m.answers = [.userUpdated] ∧ parseUserId userId = some id ∧
      body.bind (boolMember · "email_verified") = some true

/-- The flag was granted, and the address has not changed since. -/
def Earned (hashToken : String → String) (made : List Made) (id : Int32) : Prop :=
  ∃ later m earlier, made = later ++ m :: earlier ∧ Grants hashToken m id ∧
    ∀ m' ∈ later, addressOf m'.after id = addressOf m.after id

/-- An update that moves a verified user to another address says what becomes of the flag; a token
that is presented in time and verifies its user was issued for the address that the user has. -/
def Proper (hashToken : String → String) (m : Made) : Prop :=
  match m.call with
  | .sendVerificationEmail _ _ => True
  | .verifyToken token =>
    ∀ t ∈ m.before.verificationTokens, t.tokenHash = hashToken token →
      m.before.clock + (m.surroundings .now).elapsed < t.expiresAt →
        isVerified m.before t.userId = false →
          ∀ user ∈ m.before.users.find? t.userId,
            ∃ e, user.email = some e ∧ normalizeEmail t.email = normalizeEmail e
  | .updateUser userId body =>
    ∀ id, parseUserId userId = some id → isVerified m.before id = true →
      ∀ email, body.bind (stringMember · "email") = some email →
        addressOf m.before id ≠ some (normalizeEmail email) →
          body.bind (boolMember · "email_verified") ≠ none

/-! ## One call -/

section OneCall

variable {hashToken : String → String} {π : Pattern} {db : AccountDb} {x : Exchange}

theorem Exchange.Later.users {x' : Exchange} (later : x.Later x') : x'.db.users = x.db.users := by
  obtain ⟨_, clock, eq⟩ := later
  rw [eq]

theorem users_sendVerificationEmail (internalUserId : Int32) (email : String) :
    (afterwards π (sendVerificationEmail hashToken internalUserId email) x).db.users =
      x.db.users := by
  unfold sendVerificationEmail
  split
  · rfl
  · rw [afterwards, Prog.run_op, run_withNow]
    generalize (Exchange.wait _ (π .now)).db.clock = now
    rcases run_sqlOr_cases π _ _ _ _ with ⟨text, run⟩ | ⟨r, db', eval, run⟩
    · rw [run]
      rfl
    · rw [run]
      simp only [AccountStatement.eval] at eval
      split at eval
      · cases eval
      · cases eval
        rfl

/-- The flag of the user is set, or nothing is done to the users. -/
theorem markVerified_cases (userId : Int32) :
    let x' := afterwards π (markVerified userId) x
    x'.db.users = x.db.users ∨ x'.answers = x.answers ++ [.emailVerified] ∧
      x'.db.users = changeUser x.db.users userId { emailVerified := some true } := by
  intro x'
  simp only [x', afterwards]
  unfold markVerified
  rcases run_sqlOr_cases π x (.user userId) _ _ with ⟨text, run⟩ | ⟨user, db₁, eval, run⟩
  · rw [run]
    exact .inl rfl
  · rw [run]
    simp only [AccountStatement.eval] at eval
    split at eval
    · cases eval
    · next row found =>
        cases eval
        have key : user.id = userId := Table.find?_key found
        rcases run_sqlOr_cases π _ _ _ _ with ⟨text, run⟩ | ⟨r, db₂, eval, run⟩
        · rw [run]
          exact .inl rfl
        · rw [run, (AccountStatement.eval_updateUser eval).2, key]
          exact .inr ⟨rfl, rfl⟩

/-- What the presentation of a token does: nothing to the users, or the flag of the user of a
token that is still good. -/
theorem verifyToken_cases (hashToken : String → String) (π : Pattern) (db : AccountDb)
    (token : String) :
    let x' := afterwards π (verifyToken hashToken token) ⟨db, []⟩
    x'.db.users = db.users ∨ ∃ t ∈ db.verificationTokens, t.tokenHash = hashToken token ∧
      db.clock + (π .now).elapsed < t.expiresAt ∧ x'.answers = [.emailVerified] ∧
        x'.db.users = changeUser db.users t.userId { emailVerified := some true } := by
  intro x'
  simp only [x', afterwards]
  unfold verifyToken
  split
  · exact .inl rfl
  · rw [run_withNow]
    rcases run_sqlOr_cases π _ _ _ _ with ⟨text, run⟩ | ⟨r, db₁, eval, run⟩
    · rw [run]
      exact .inl rfl
    · rw [run]
      cases eval
      split
      · exact .inl rfl
      · next t rest consumed =>
          have good : t ∈ db.verificationTokens.filter fun t =>
              t.tokenHash = hashToken token ∧ db.clock + (π .now).elapsed < t.expiresAt :=
            consumed ▸ List.mem_cons_self
          rw [List.mem_filter, decide_eq_true_eq] at good
          rcases markVerified_cases t.userId with same | ⟨answers, users⟩
          · exact .inl same
          · exact .inr ⟨t, good.1, good.2.1, good.2.2, answers, users⟩

theorem proceedWithUpdate_cases (id : Int32) (body : List (String × Json)) :
    let x' := afterwards π (proceedWithUpdate id body) x
    x'.db.users = x.db.users ∨ x'.answers = x.answers ++ [.userUpdated] ∧
      x'.db.users = changeUser x.db.users id (requestedChanges body) := by
  intro x'
  simp only [x', afterwards]
  unfold proceedWithUpdate
  rcases run_sqlOr_cases π x (.updateUser id (requestedChanges body)) _ _ with
    ⟨text, run⟩ | ⟨r, db', eval, run⟩
  · rw [run]
    refine .inl ?_
    unfold updateFailed
    split
    · rfl
    · split
      · rfl
      · rfl
  · rw [run, (AccountStatement.eval_updateUser eval).2]
    exact .inr ⟨rfl, rfl⟩

/-- The guard of the last administrator changes nothing. -/
theorem guardedUpdate_cases (id : Int32) (body : List (String × Json)) :
    let x' := afterwards π
      (if boolMember body "locked" ≠ some true then proceedWithUpdate id body
        else
          isLastActiveAdmin id
            (fun lastAdmin =>
              if lastAdmin then
                respondError "VALIDATION_RESOURCE_CONFLICT" "Cannot lock the last active admin"
              else proceedWithUpdate id body)
            guardFailed) x
    x'.db.users = x.db.users ∨ x'.answers = x.answers ++ [.userUpdated] ∧
      x'.db.users = changeUser x.db.users id (requestedChanges body) := by
  intro x'
  simp only [x', afterwards]
  split
  · exact proceedWithUpdate_cases id body
  · obtain ⟨x₁, later, run⟩ := run_isLastActiveAdmin π x id
      (fun lastAdmin =>
        if lastAdmin then
          respondError "VALIDATION_RESOURCE_CONFLICT" "Cannot lock the last active admin"
        else proceedWithUpdate id body)
      guardFailed
    rw [run, ← later.users, ← later.1]
    cases guardAnswer π id x with
    | none => exact .inl rfl
    | some lastAdmin =>
        cases lastAdmin with
        | true => exact .inl rfl
        | false => exact proceedWithUpdate_cases id body

/-- What an update does: nothing to the users, or what was requested. -/
theorem updateUser_cases (π : Pattern) (db : AccountDb) (userId : String)
    (body : Option (List (String × Json))) :
    let x' := afterwards π (updateUser userId body) ⟨db, []⟩
    x'.db.users = db.users ∨ ∃ id members, parseUserId userId = some id ∧ body = some members ∧
      x'.answers = [.userUpdated] ∧
        x'.db.users = changeUser db.users id (requestedChanges members) := by
  intro x'
  simp only [x', afterwards]
  unfold updateUser withUserId
  cases parsed : parseUserId userId with
  | none => exact .inl rfl
  | some id =>
      cases body with
      | none => exact .inl rfl
      | some members =>
          dsimp only
          split
          · exact .inl rfl
          · split
            · exact .inl rfl
            · split
              · exact .inl rfl
              · rcases run_sqlOr_cases π ⟨db, []⟩ (.liveUser id) _ _ with
                  ⟨text, run⟩ | ⟨row, db₁, eval, run⟩
                · rw [run]
                  exact .inl rfl
                · rw [run]
                  cases AccountStatement.eval_query rfl eval
                  rcases guardedUpdate_cases id members with same | ⟨answers, users⟩
                  · exact .inl same
                  · exact .inr ⟨id, members, rfl, rfl, answers, users⟩

/-! ## What a call leaves of the flag -/

/-- The user was verified before, at the same address. -/
def StaysVerified (db db' : AccountDb) (id : Int32) : Prop :=
  isVerified db id = true ∧ addressOf db' id = addressOf db id

variable {db' : AccountDb} {id id' : Int32} {c : UserChanges}

theorem staysVerified_of_same (same : db'.users.find? id = db.users.find? id)
    (verified : isVerified db' id = true) : StaysVerified db db' id := by
  unfold isVerified at verified
  rw [same] at verified
  refine ⟨verified, ?_⟩
  unfold addressOf
  rw [same]

theorem staysVerified_of_users (same : db'.users = db.users)
    (verified : isVerified db' id = true) : StaysVerified db db' id :=
  staysVerified_of_same (by rw [same]) verified

/-- A user whose row is not the one that changes. -/
theorem staysVerified_of_ne (users : db'.users = changeUser db.users id' c) (ne : id ≠ id')
    (verified : isVerified db' id = true) : StaysVerified db db' id := by
  refine staysVerified_of_same ?_ verified
  rw [users, find?_changeUser, if_neg ne]

theorem find?_changed (users : db'.users = changeUser db.users id c) :
    db'.users.find? id = (db.users.find? id).map c.apply := by
  rw [users, find?_changeUser, if_pos rfl]

/-- The row of a verified user, before and after. -/
theorem exists_row_of_changed (users : db'.users = changeUser db.users id c)
    (verified : isVerified db' id = true) : ∃ row, db.users.find? id = some row ∧
      c.emailVerified.getD row.emailVerified = true ∧ isVerified db id = row.emailVerified ∧
        addressOf db id = row.email ∧ addressOf db' id = c.email.getD row.email := by
  unfold isVerified at verified
  rw [find?_changed users] at verified
  unfold isVerified addressOf
  rw [find?_changed users]
  cases found : db.users.find? id with
  | none =>
      rw [found] at verified
      cases verified
  | some row =>
      rw [found] at verified
      exact ⟨row, rfl, verified, rfl, rfl, rfl⟩

section Step

variable {token userId : String} {body : Option (List (String × Json))}

theorem verifyToken_step (proper : Proper hashToken (makeCall hashToken db (.verifyToken token, π)))
    (verified : isVerified (makeCall hashToken db (.verifyToken token, π)).after id = true) :
    StaysVerified db (makeCall hashToken db (.verifyToken token, π)).after id ∨
      Grants hashToken (makeCall hashToken db (.verifyToken token, π)) id := by
  rcases verifyToken_cases hashToken π db token with
    same | ⟨t, mem, hash, good, answers, users⟩
  · exact .inl (staysVerified_of_users same verified)
  · by_cases own : id = t.userId
    · subst own
      obtain ⟨row, found, _, before, address, address'⟩ := exists_row_of_changed users verified
      cases flag : isVerified db t.userId with
      | true => exact .inl ⟨flag, address'.trans address.symm⟩
      | false =>
          obtain ⟨e, email, same⟩ := proper t mem hash good flag row found
          exact .inr ⟨answers, t, mem, hash, rfl, e, address'.trans email, same⟩
    · exact .inl (staysVerified_of_ne users own verified)

theorem updateUser_step
    (proper : Proper hashToken (makeCall hashToken db (.updateUser userId body, π)))
    (verified : isVerified (makeCall hashToken db (.updateUser userId body, π)).after id = true) :
    StaysVerified db (makeCall hashToken db (.updateUser userId body, π)).after id ∨
      Grants hashToken (makeCall hashToken db (.updateUser userId body, π)) id := by
  rcases updateUser_cases π db userId body with
    same | ⟨id', members, parsed, rfl, answers, users⟩
  · exact .inl (staysVerified_of_users same verified)
  · by_cases own : id = id'
    · subst own
      obtain ⟨row, found, flag, before, address, address'⟩ := exists_row_of_changed users verified
      cases requested : boolMember members "email_verified" with
      | some b =>
          cases b with
          | true => exact .inr ⟨answers, parsed, requested⟩
          | false =>
              simp only [requestedChanges, requested, Option.getD_some] at flag
              cases flag
      | none =>
          simp only [requestedChanges, requested, Option.getD_none] at flag
          have wasVerified : isVerified db id = true := before.trans flag
          refine .inl ⟨wasVerified, address'.trans (Eq.trans ?_ address.symm)⟩
          -- an address that is set without the flag is the one the user had
          cases email : stringMember members "email" with
          | none => simp only [requestedChanges, email, Option.map_none, Option.getD_none]
          | some e =>
              simp only [requestedChanges, email, Option.map_some, Option.getD_some]
              by_contra moved
              exact proper id parsed wasVerified e email
                (fun same => moved (same.symm.trans address)) requested
    · exact .inl (staysVerified_of_ne users own verified)

end Step

/-- A user who is verified after a proper call was so before, at the same address, or was granted
the flag by the call. -/
theorem verified_step {call : AddressCall × Pattern}
    (proper : Proper hashToken (makeCall hashToken db call))
    (verified : isVerified (makeCall hashToken db call).after id = true) :
    StaysVerified db (makeCall hashToken db call).after id ∨
      Grants hashToken (makeCall hashToken db call) id := by
  obtain ⟨call, π⟩ := call
  cases call with
  | sendVerificationEmail internalUserId email =>
      exact .inl
        (staysVerified_of_users (users_sendVerificationEmail internalUserId email) verified)
  | verifyToken token => exact verifyToken_step proper verified
  | updateUser userId body => exact updateUser_step proper verified

end OneCall

/-! ## Every sequence -/

section Sequences

variable {hashToken : String → String} {start : AccountDb}

/-- The tables are those that the newest call has left. -/
def Current (s : List Made × AccountDb) : Prop :=
  ∀ m ∈ s.1.head?, m.after = s.2

/-- The flag of every user is earned, at the address that the user has. -/
def AllEarned (hashToken : String → String) (s : List Made × AccountDb) : Prop :=
  ∀ id, isVerified s.2 id = true → Earned hashToken s.1 id

theorem earned_step {s : List Made × AccountDb} {call : AddressCall × Pattern}
    (current : Current s) (earned : AllEarned hashToken s)
    (proper : Proper hashToken (makeCall hashToken s.2 call)) :
    AllEarned hashToken
      (makeCall hashToken s.2 call :: s.1, (makeCall hashToken s.2 call).after) := by
  intro id verified
  rcases verified_step proper verified with ⟨before, same⟩ | grants
  · obtain ⟨later, m, earlier, eq, grants, unmoved⟩ := earned id before
    refine ⟨makeCall hashToken s.2 call :: later, m, earlier, congrArg (_ :: ·) eq, grants, ?_⟩
    -- the call before this one has left the address of the grant
    have last : addressOf s.2 id = addressOf m.after id := by
      cases later with
      | nil => rw [current m (by rw [eq]; rfl)]
      | cons m' later =>
          rw [← current m' (by rw [eq]; rfl)]
          exact unmoved m' List.mem_cons_self
    intro m' mem
    rcases List.mem_cons.mp mem with rfl | mem
    · exact same.trans last
    · exact unmoved m' mem
  · exact ⟨[], _, s.1, rfl, grants, nofun⟩

/-- In every sequence of proper calls from users who are not verified, the flag is the flag of the
current address. -/
theorem verified_of_current_address (hashToken : String → String) (start : AccountDb)
    (unverified : ∀ id, isVerified start id = false) (calls : List (AddressCall × Pattern))
    (proper : ∀ m ∈ (makeCalls hashToken start calls).1, Proper hashToken m) :
    ∀ id, isVerified (makeCalls hashToken start calls).2 id = true →
      Earned hashToken (makeCalls hashToken start calls).1 id := by
  suffices both : Current (makeCalls hashToken start calls) ∧
      AllEarned hashToken (makeCalls hashToken start calls) from both.2
  induction calls using List.reverseRecOn with
  | nil =>
      exact ⟨nofun, fun id verified => absurd ((unverified id).symm.trans verified)
        Bool.false_ne_true⟩
  | append_singleton calls call ih =>
      have eq : makeCalls hashToken start (calls ++ [call]) =
          (makeCall hashToken (makeCalls hashToken start calls).2 call ::
              (makeCalls hashToken start calls).1,
            (makeCall hashToken (makeCalls hashToken start calls).2 call).after) := by
        rw [makeCalls, List.foldl_append]
        rfl
      rw [eq] at proper ⊢
      obtain ⟨current, earned⟩ := ih fun m mem => proper m (List.mem_cons_of_mem _ mem)
      refine ⟨?_, earned_step current earned (proper _ List.mem_cons_self)⟩
      rintro m ⟨⟩
      rfl

end Sequences

section Sample

/-- User 7, not verified, at an address. -/
def oneUser : AccountDb where
  users := ⟨[{ id := 7, publicSub := "7f", email := some "old@x.org" }], by decide⟩
  roles := Table.empty

/-- The next token. -/
def drawing (rawToken : String) : Pattern
  | .secureToken => { token := rawToken }
  | _ => {}

theorem oneUser_unverified (id : Int32) : isVerified oneUser id = false := by
  unfold isVerified
  cases found : oneUser.users.find? id with
  | none => rfl
  | some row =>
      have mem := (Table.find?_eq_some.mp found).1
      rw [List.mem_singleton.mp mem]
      rfl

/-- A verification mail was sent to the old address. -/
def sent : Made :=
  makeCall id oneUser (.sendVerificationEmail 7 "old@x.org", drawing "r")

/-- An administrator changes the address after the token was sent. -/
def moved : Made :=
  makeCall id sent.after (.updateUser "7" (some [("email", .str "new@x.org")]), drawing "")

/-- The token is presented after that. -/
def presented : Made :=
  makeCall id moved.after (.verifyToken "r", drawing "")

/-- The address changes between the mail and the link. -/
def staleToken : List (AddressCall × Pattern) :=
  [(.sendVerificationEmail 7 "old@x.org", drawing "r"),
    (.updateUser "7" (some [("email", .str "new@x.org")]), drawing ""),
    (.verifyToken "r", drawing "")]

/-- The user is verified at an address that no token was sent to. -/
theorem verified_at_another_address :
    isVerified (makeCalls id oneUser staleToken).2 7 = true ∧
      addressOf (makeCalls id oneUser staleToken).2 7 = some "new@x.org" ∧
      ¬ Earned id (makeCalls id oneUser staleToken).1 7 := by
  have made : (makeCalls id oneUser staleToken).1 = [presented, moved, sent] := rfl
  have tokens : presented.before.verificationTokens = [⟨"r", 7, "old@x.org", 86400⟩] := by decide
  have address : addressOf presented.after 7 = some "new@x.org" := by decide
  refine ⟨by decide, by decide, ?_⟩
  rintro ⟨later, m, earlier, eq, grants, _⟩
  have mem : m ∈ [presented, moved, sent] :=
    made ▸ eq ▸ List.mem_append_right _ List.mem_cons_self
  rcases List.mem_cons.mp mem with rfl | mem
  · obtain ⟨_, t, stored, _, _, e, current, same⟩ := grants
    rw [tokens, List.mem_singleton] at stored
    rw [address] at current
    cases current
    subst stored
    exact absurd same (by decide)
  · rcases List.mem_cons.mp mem with rfl | mem
    · exact absurd grants.2.2 (by decide)
    · cases List.mem_singleton.mp mem
      exact grants

/-- The token is presented while the address is the one it was sent to. -/
theorem verified_of_current_address_in_turn :
    isVerified (makeCalls id oneUser
        [(.sendVerificationEmail 7 "old@x.org", drawing "r"), (.verifyToken "r", drawing "")]).2
          7 = true ∧
      Earned id (makeCalls id oneUser
        [(.sendVerificationEmail 7 "old@x.org", drawing "r"), (.verifyToken "r", drawing "")]).1
          7 := by
  have verified : isVerified (makeCalls id oneUser
      [(.sendVerificationEmail 7 "old@x.org", drawing "r"), (.verifyToken "r", drawing "")]).2
        7 = true := by decide
  refine ⟨verified, verified_of_current_address id oneUser oneUser_unverified _
    (fun m mem => ?_) 7 verified⟩
  have made : m ∈ [makeCall id sent.after (.verifyToken "r", drawing ""), sent] := mem
  rcases List.mem_cons.mp made with rfl | made
  · have tokens : sent.after.verificationTokens = [⟨"r", 7, "old@x.org", 86400⟩] := by decide
    have user : sent.after.users.find? 7 =
        some { id := 7, publicSub := "7f", email := some "old@x.org" } := by decide
    intro t stored _ _ _ row found
    rw [show Made.before _ = sent.after from rfl, tokens, List.mem_singleton] at stored
    subst stored
    cases user.symm.trans found
    exact ⟨"old@x.org", rfl, rfl⟩
  · cases List.mem_singleton.mp made
    trivial

end Sample

end Account

end Fulla
