import Mathlib.Data.Set.Function
import Fulla.Identity.PendingBook
import Fulla.Web.Runs

/-!
# A pending login completes once in turn

The programs of both handlers keep the account of `PendingBook`, so in every run
whose clearing `UPDATE`s find the binding they are for, the verifications that
return tokens belong to different logins.
-/

namespace Fulla.PendingMfa

open Conc

/-! ## Programs that leave the bindings alone -/

section PlainPrograms

/-- Counting a failed login leaves every binding alone. -/
theorem incrementFailedLogins_plain (id : Int) :
    (PostgresIdentityRepository.incrementFailedLogins id).Only Plain :=
  PostgresIdentityRepository.incrementFailedLogins_only (fun _ => trivial) trivial
    (fun _ _ _ => trivial) id

/-- So does what follows a password that matched. -/
theorem afterMatch_plain (user : UserRow) (password : String) :
    (AuthService.afterMatch user password).Only Plain :=
  AuthService.afterMatch_only (fun _ => trivial) (fun _ => trivial) (fun _ => trivial)
    (fun _ _ => trivial) user password

/-- So does reading the second factor of a user. -/
theorem getMfaData_plain (id : Int) : (MfaService.getMfaData id).Only Plain :=
  (statement_only (o := .selectById id) trivial).bind fun _ => trivial

/-- So does checking a TOTP code. -/
theorem verifyLoginCode_plain (site : Site) (id : Int) (code : String) :
    (MfaService.verifyLoginCode site id code).Only Plain := by
  refine (getMfaData_plain id).bind fun data => ?_
  match data with
  | none => trivial
  | some data =>
      dsimp only
      split
      · trivial
      · exact (statement_only (o := .now) trivial).bind fun _ => trivial

/-- So does reading the binding. -/
theorem getPendingBinding_plain (id : Int) : (MfaService.getPendingBinding id).Only Plain :=
  (getMfaData_plain id).bind fun _ => trivial

/-- So does using up a backup code. -/
theorem attemptBackupCode_plain (site : BackupSite) (id : Int) (code : String) :
    (MfaController.attemptBackupCode site id code).Only Plain := by
  unfold MfaController.attemptBackupCode
  split
  · trivial
  · refine (statement_only (o := .selectById id) trivial).bind fun found => ?_
    match found with
    | none => trivial
    | some none => trivial
    | some (some user) =>
        dsimp only
        unfold MfaController.consumeStored
        split
        · trivial
        · dsimp only
          split
          · trivial
          · refine (statement_only (o := .casBackupCodes _ _ _) trivial).bind fun consumed => ?_
            split <;> trivial

/-- So does the second factor as a whole. -/
theorem secondFactor_plain (cfg : MfaSite) (id : Int) (code : String) (totpOk : Bool) :
    (MfaController.secondFactor cfg id code totpOk).Only Plain := by
  unfold MfaController.secondFactor
  split
  · trivial
  · exact (attemptBackupCode_plain _ _ _).bind fun _ => trivial

end PlainPrograms

/-! ## Login -/

section Login

variable {ι : Type} [DecidableEq ι] {env : Nat → MfaMoment} {calls : ι → MfaCall}
  {s : MfaDb} {i : ι}

/-- The user's row is there from the start, under the same subject. -/
def Known (s : MfaDb) (user : UserRow) : Prop :=
  (s.users.find? user.id).map (fun row => row.publicSub) = some user.publicSub

omit [DecidableEq ι] in
/-- A row that is found during the run belongs to a user of the start. -/
theorem Shared.known {w : MfaWorld ι} {γ : ι → Mark} (shared : Shared calls s w γ) {user : UserRow}
    (found : w.db.users.find? user.id = some user) : Known s user := by
  unfold Known
  rw [← shared.subs, found]
  rfl

/-- Looking a user up by name or address finds a known user and marks nothing. -/
theorem findUser_keeps (identifier : String) :
    Keeps (userHandler env) (Shared calls s) i
      (fun r g => g = .idle ∧ ∀ user, r = some user → Known s user)
      (AuthService.findUser identifier) .idle := by
  have here {w : MfaWorld ι} {γ : ι → Mark} (shared : Shared calls s w γ) (p : UserRow → Bool)
      (user : UserRow)
      (found : (if (env w.tick).users.fault then none else w.db.users.findOne p) = some user) :
      Known s user := by
    split at found
    · cases found
    · exact shared.known (UserRows.find?_of_findOne found)
  unfold AuthService.findUser
  split
  · intro w γ shared own
    refine ⟨.idle, ?_, rfl, here shared _⟩
    rw [← own, Function.update_eq_self]
    exact shared.plain trivial
  · intro w γ shared own
    refine ⟨.idle, ?_, rfl, here shared _⟩
    rw [← own, Function.update_eq_self]
    exact shared.plain trivial

/-- The password check answers for the user it was given, or not at all. -/
theorem checkFound_keeps (site : LoginSite) (user : UserRow) (password : String) :
    Keeps (userHandler env) (Shared calls s) i
      (fun r g => g = .idle ∧ ∀ u, r = .matched u → u = user)
      (AuthService.checkFound site user password) .idle := by
  refine (keeps_plain_users (statement_only (o := .now) trivial)).bind fun now g same => ?_
  subst same
  split
  · exact .pure ⟨rfl, fun _ told => by cases told⟩
  · split
    · exact .pure ⟨rfl, fun _ told => by cases told⟩
    · split
      · refine (keeps_plain_users (incrementFailedLogins_plain user.id)).bind fun _ g same => ?_
        exact .pure ⟨same, fun _ told => by cases told⟩
      · refine (keeps_plain_users (afterMatch_plain user password)).bind fun _ g same => ?_
        refine .pure ⟨same, fun u eq => ?_⟩
        exact (LoginResult.matched.inj eq).symm

/-- A login whose password matched has matched a known user. -/
theorem validateUser_keeps (site : LoginSite) (identifier password : String) :
    Keeps (userHandler env) (Shared calls s) i
      (fun r g => g = .idle ∧ ∀ u, r = .matched u → Known s u)
      (AuthService.validateUser site identifier password) .idle := by
  refine (findUser_keeps identifier).bind fun found g post => ?_
  obtain ⟨rfl, known⟩ := post
  match found, known with
  | none, _ => exact .pure ⟨rfl, fun _ eq => nomatch eq⟩
  | some user, known =>
      refine (checkFound_keeps site user password).mono fun r g post => ?_
      exact ⟨post.1, fun u eq => post.2 u eq ▸ known user rfl⟩

/-- A login that has opened a binding says so. -/
def LoginTold (s : MfaDb) (a : Response) (g : Mark) : Prop :=
  ∀ u, g = .opened u → ∃ sub, a = .mfaRequired sub ∧
    (s.users.find? u).map (fun row => row.publicSub) = some sub

/-- A row selected by an id has that id. -/
theorem selectById_keeps (id : Int) {g : Mark} :
    Keeps (userHandler env) (Shared calls s) i
      (fun r g' => g' = g ∧ ∀ row, r = some (some row) → row.id = id)
      (statement (.selectById id)) g := by
  intro w γ shared own
  refine ⟨g, ?_, rfl, fun row read => ?_⟩
  · rw [← own, Function.update_eq_self]
    exact shared.plain trivial
  · have answered : (if (env w.tick).users.fault then none else some (w.db.users.find? id)) =
        some (some row) := read
    split at answered
    · cases answered
    · exact Table.find?_key (Option.some.inj answered)

omit [DecidableEq ι] in
/-- An update of a row fails without a trace or takes effect. -/
theorem update_cases (m : MfaMoment) (db : MfaDb) (id : Int) (columns : UserColumns) :
    execMfa m (.inr (.inl (.update id columns))) db = (false, db) ∨
      execMfa m (.inr (.inl (.update id columns))) db =
        (true, { db with users := db.users.update id columns.apply columns.apply_id }) := by
  cases fault : m.users.fault with
  | true => exact .inl (by simp [execMfa, execUser, fault])
  | false => exact .inr (by simp [execMfa, execUser, fault])

/-- The `UPDATE` that opens a binding, unless the server refuses it. -/
theorem open_keeps {req : LoginRequest} (call : calls i = .login req) {id : Int}
    (present : ∃ sub, (s.users.find? id).map (fun row => row.publicSub) = some sub) :
    Keeps (userHandler env) (Shared calls s) i
      (fun r g => g = if r then .opened id else .idle)
      (statement (.update id (.pendingBinding (some req.clientId) (some req.redirectUri))))
        .idle := by
  intro w γ shared own
  let columns : UserColumns := .pendingBinding (some req.clientId) (some req.redirectUri)
  have answer (ok : Bool) (db : MfaDb)
      (stepped : execMfa (env w.tick) (.inr (.inl (.update id columns))) w.db =
        (ok, db)) (v : Int) :
      opens v (⟨i, w.tick, .inr (.inl (.update id columns)),
        (execMfa (env w.tick) (.inr (.inl (.update id columns))) w.db).1, w.db⟩ : MfaEvent ι) =
        (ok && decide (id = v)) := by
    rw [stepped]
    rfl
  rcases update_cases (env w.tick) w.db id columns with stepped | stepped
  · refine ⟨.idle, ?_, ?_⟩
    · rw [← own, Function.update_eq_self]
      refine shared.next fun settled => ?_
      obtain ⟨owner, taken, book⟩ := shared.book fun e mem => settled e (List.mem_cons_of_mem _ mem)
      refine ⟨owner, taken, book.frame rfl (fun v => answer _ _ stepped v) fun v => ?_⟩
      rw [World.handler_db, stepped]
    · rw [World.handler_fst, stepped]
      rfl
  · refine ⟨.opened id, ?_, ?_⟩
    · refine shared.next fun settled => ?_
      obtain ⟨owner, taken, book⟩ := shared.book fun e mem => settled e (List.mem_cons_of_mem _ mem)
      obtain ⟨sub, known⟩ := present
      rw [← shared.subs] at known
      obtain ⟨row, found, -⟩ := Option.map_eq_some_iff.mp known
      obtain ⟨after, other⟩ := pendingOf_bind found (some req.clientId) (some req.redirectUri)
      refine ⟨_, _, book.open_ rfl call own rfl ?_ ?_ ?_ ?_⟩
      · rw [answer _ _ stepped]
        exact decide_eq_true rfl
      · intro v ne
        rw [answer _ _ stepped]
        exact decide_eq_false ne.symm
      · rw [World.handler_db, stepped]
        exact after
      · rw [World.handler_db, stepped]
        exact other
    · rw [World.handler_fst, stepped]
      rfl

/-- **The step that opens a binding.**  A login that waits for the second factor writes the
pending client and says for whom. -/
theorem pauseLogin_keeps {req : LoginRequest} (call : calls i = .login req) {user : UserRow}
    (known : Known s user) :
    Keeps (mfaHandler env) (Shared calls s) i (LoginTold s)
      (SessionController.pauseLogin req user) .idle := by
  refine (keeps_users (selectById_keeps user.id)).bind fun found g post => ?_
  obtain ⟨rfl, key⟩ := post
  match found, key with
  | none, _ => exact .pure fun _ bad => nomatch bad
  | some none, _ => exact .pure fun _ bad => nomatch bad
  | some (some row), key =>
      have knownRow : (s.users.find? row.id).map (fun r => r.publicSub) = some user.publicSub := by
        rw [key row rfl]
        exact known
      refine (keeps_users (open_keeps call ⟨_, knownRow⟩)).bind fun updated g marked => ?_
      subst marked
      cases updated with
      | false => exact .pure fun _ bad => nomatch bad
      | true =>
          refine .pure fun u opened => ⟨user.publicSub, rfl, ?_⟩
          rw [← Mark.opened.inj opened]
          exact knownRow

/-- A call that has done nothing to a binding has nothing to tell. -/
theorem login_untouched (s : MfaDb) (a : Response) : LoginTold s a .idle := fun _ bad =>
  nomatch bad

/-- A login that needs no second factor opens no binding. -/
theorem issueAtLogin_keeps (cfg : MfaSite) (req : LoginRequest) (user : UserRow) :
    Keeps (mfaHandler env) (Shared calls s) i (LoginTold s)
      (SessionController.issueAtLogin cfg req user) .idle := by
  refine keeps_ask.bind fun grant g same => ?_
  subst same
  match grant with
  | .error answer => exact .pure (login_untouched s answer)
  | .ok request =>
      refine keeps_store.bind fun code g same => ?_
      subst same
      cases code <;> exact .pure (login_untouched s _)

/-- A login opens a binding only if it then answers `mfaRequired`. -/
theorem login_keeps (cfg : MfaSite) {req : LoginRequest} (call : calls i = .login req) :
    Keeps (mfaHandler env) (Shared calls s) i (LoginTold s) (SessionController.login cfg req)
      .idle := by
  unfold SessionController.login
  dsimp only
  split
  · exact .pure (login_untouched s _)
  · refine (keeps_users (validateUser_keeps _ _ _)).bind fun result g post => ?_
    obtain ⟨rfl, known⟩ := post
    cases result with
    | matched user =>
        dsimp only
        unfold SessionController.onValidated
        split
        · exact .pure (login_untouched s _)
        · split
          · exact .pure (login_untouched s _)
          · split
            · exact pauseLogin_keeps call (known user rfl)
            · exact issueAtLogin_keeps cfg req user
    | unknown => exact .pure (login_untouched s _)
    | locked => exact .pure (login_untouched s _)
    | legacyRejected => exact .pure (login_untouched s _)
    | wrongPassword _ => exact .pure (login_untouched s _)

end Login

/-! ## Verification -/

section Verify

variable {ι : Type} [DecidableEq ι] {env : Nat → MfaMoment} {calls : ι → MfaCall}
  {s : MfaDb} {i : ι}

/-- A verification that returns tokens has cleared a binding. -/
def VerifyTold (a : Response) (g : Mark) : Prop :=
  ∀ json remaining, a = .tokens json remaining → g = .cleared

/-- An error carries no tokens. -/
theorem verify_error (code detail : String) (g : Mark) : VerifyTold (.error code detail) g := by
  intro json remaining told
  cases told

/-- The `UPDATE` that clears a binding, or the run is no longer in turn. -/
theorem clearRow_keeps {verify : VerifyLoginRequest} (call : calls i = .verifyLogin verify)
    {row : UserRow}
    (sub : (s.users.find? row.id).map (fun r => r.publicSub) = some verify.mfaToken) :
    Keeps (userHandler env) (Shared calls s) i (fun _ g => g = .cleared)
      (MfaService.clearRow (some (some row))) .idle := by
  intro w γ shared own
  refine ⟨.cleared, ?_, rfl⟩
  refine shared.next fun settled => ?_
  have mine := settled _ List.mem_cons_self
  obtain ⟨owner, taken, book⟩ := shared.book fun e mem => settled e (List.mem_cons_of_mem _ mem)
  rcases update_cases (env w.tick) w.db row.id (.pendingBinding none none) with stepped | stepped
  · simp only [clearsOwn, stepped, Bool.false_and, Bool.false_eq_true] at mine
  · have before : pendingOf w.db.users row.id = some (verify.clientId, verify.redirectUri) := by
      simpa only [clearsOwn, stepped, call, Bool.true_and, decide_eq_true_eq] using mine
    have known := sub
    rw [← shared.subs] at known
    obtain ⟨row', found, -⟩ := Option.map_eq_some_iff.mp known
    obtain ⟨after, other⟩ := pendingOf_bind found none none
    refine book.clear rfl shared.ticks rfl call rfl ?_ (fun _ => rfl) sub ?_ before ?_ ?_
    · simp only [clears, stepped, decide_true, Bool.and_self]
    · intro v opened
      rw [own] at opened
      cases opened
    · rw [World.handler_db, stepped]
      exact after
    · rw [World.handler_db, stepped]
      exact other

/-- **The step that clears a binding**, under the id of the user. -/
theorem clearPendingBinding_keeps {verify : VerifyLoginRequest}
    (call : calls i = .verifyLogin verify) {id : Int}
    (sub : (s.users.find? id).map (fun r => r.publicSub) = some verify.mfaToken) :
    Keeps (userHandler env) (Shared calls s) i (fun _ g => g = .cleared)
      (MfaService.clearPendingBinding id) .idle := by
  intro w γ shared own
  have known := sub
  rw [← shared.subs] at known
  obtain ⟨row, found, -⟩ := Option.map_eq_some_iff.mp known
  cases fault : (env w.tick).users.fault with
  | true =>
      refine ⟨.cleared, shared.next fun settled => ?_, ?_⟩
      · have mine := settled _ List.mem_cons_self
        simp [clearsOwn, execMfa, execUser, fault] at mine
      · simp only [World.handler_fst, execMfa, execUser, fault, if_true]
        rfl
  | false =>
      refine ⟨.idle, ?_, ?_⟩
      · rw [← own, Function.update_eq_self]
        exact shared.plain trivial
      · simp only [World.handler_fst, execMfa, execUser, fault, Bool.false_eq_true, if_false, found]
        have key : row.id = id := Table.find?_key found
        exact clearRow_keeps call (key ▸ sub)

/-- The same under the public subject, which is that of the same user. -/
theorem clearPendingBySub_keeps {verify : VerifyLoginRequest}
    (call : calls i = .verifyLogin verify) {id : Int}
    (sub : (s.users.find? id).map (fun r => r.publicSub) = some verify.mfaToken) :
    Keeps (userHandler env) (Shared calls s) i (fun _ g => g = .cleared)
      (MfaService.clearPendingBySub verify.mfaToken) .idle := by
  intro w γ shared own
  have known := sub
  rw [← shared.subs] at known
  obtain ⟨row, found, subEq⟩ := Option.map_eq_some_iff.mp known
  cases fault : (env w.tick).users.fault with
  | true =>
      refine ⟨.cleared, shared.next fun settled => ?_, ?_⟩
      · have mine := settled _ List.mem_cons_self
        simp [clearsOwn, execMfa, execUser, fault] at mine
      · simp only [World.handler_fst, execMfa, execUser, fault, if_true]
        rfl
  | false =>
      refine ⟨.idle, ?_, ?_⟩
      · rw [← own, Function.update_eq_self]
        exact shared.plain trivial
      · simp only [World.handler_fst, execMfa, execUser, fault, Bool.false_eq_true, if_false]
        cases first : w.db.users.rows.find? fun u => u.publicSub = verify.mfaToken with
        | none =>
            have mem : row ∈ w.db.users.rows := (Table.find?_eq_some.mp found).1
            have absent := List.find?_eq_none.mp first row mem
            simp [subEq] at absent
        | some row' =>
            have named : row'.publicSub = verify.mfaToken := by
              simpa using List.find?_some first
            have stored : w.db.users.find? row'.id = some row' :=
              Table.mem_rows_iff.mp (List.mem_of_find?_eq_some first)
            refine clearRow_keeps call ?_
            rw [← shared.subs, stored, Option.map_some, named]

/-- The tokens are returned after the binding is cleared. -/
theorem exchangeAndClear_keeps (cfg : MfaSite) {verify : VerifyLoginRequest}
    (call : calls i = .verifyLogin verify) {id : Int}
    (sub : (s.users.find? id).map (fun r => r.publicSub) = some verify.mfaToken)
    (authCode : String) (remaining : Option Nat) :
    Keeps (mfaHandler env) (Shared calls s) i VerifyTold
      (MfaController.exchangeAndClear cfg verify id authCode remaining) .idle := by
  unfold MfaController.exchangeAndClear
  dsimp only
  refine keeps_store.bind fun result g same => ?_
  subst same
  match result with
  | .error error description => exact .pure fun _ _ bad => nomatch bad
  | .thrown what => exact .pure fun _ _ bad => nomatch bad
  | .tokens json =>
      dsimp only
      refine (keeps_users (?_ : Keeps _ _ _ (fun _ g => g = Mark.cleared) _ _)).bind
        fun _ g marked => .pure fun _ _ _ => marked
      split
      · exact clearPendingBinding_keeps call sub
      · exact clearPendingBySub_keeps call sub

/-- What follows the second factor either answers an error or clears the binding. -/
theorem onTotpVerified_keeps (cfg : MfaSite) {verify : VerifyLoginRequest}
    (call : calls i = .verifyLogin verify) {user : UserRow}
    (sub : (s.users.find? user.id).map (fun r => r.publicSub) = some verify.mfaToken)
    (pending : String × String) (mfaAuthTime : Int) (remaining : Option Nat) :
    Keeps (mfaHandler env) (Shared calls s) i VerifyTold
      (MfaController.onTotpVerified cfg verify user pending mfaAuthTime remaining) .idle := by
  refine keeps_ask.bind fun guard g same => ?_
  subst same
  cases guard with
  | error guard => exact .pure (verify_error _ _ _)
  | ok =>
      dsimp only
      split
      · exact .pure (verify_error _ _ _)
      · have challenge : Keeps (mfaHandler env) (Shared calls s) i (fun _ g' => g' = Mark.idle)
            (MfaController.sessionChallenge cfg) .idle := by
          unfold MfaController.sessionChallenge
          split
          · exact keeps_ask
          · exact .pure rfl
        refine challenge.bind fun _ g same => ?_
        subst same
        refine keeps_store.bind fun code g same => ?_
        subst same
        cases code with
        | error reason => exact .pure (verify_error _ _ _)
        | ok authCode => exact exchangeAndClear_keeps cfg call sub authCode remaining

/-- A verification with the MFA service wired in. -/
theorem verifyWired_keeps (cfg : MfaSite) {verify : VerifyLoginRequest}
    (call : calls i = .verifyLogin verify) (mfaAuthTime : Int) :
    Keeps (mfaHandler env) (Shared calls s) i VerifyTold
      (MfaController.verifyWired cfg verify mfaAuthTime) .idle := by
  have look : Keeps (userHandler env) (Shared calls s) i
      (fun r g => g = .idle ∧ ∀ user, r = some user →
        (s.users.find? user.id).map (fun r => r.publicSub) = some verify.mfaToken)
      (statement (.findByPublicSub verify.mfaToken)) .idle := by
    intro w γ shared own
    refine ⟨.idle, ?_, rfl, fun user read => ?_⟩
    · rw [← own, Function.update_eq_self]
      exact shared.plain trivial
    · have answered : (if (env w.tick).users.fault then none
          else w.db.users.findOne fun u => u.publicSub = verify.mfaToken && !u.deleted) =
          some user := read
      split at answered
      · cases answered
      · have named : user.publicSub = verify.mfaToken := by
          have holds := UserRows.sat_of_findOne answered
          simp only [Bool.and_eq_true, decide_eq_true_eq] at holds
          exact holds.1
        rw [← named]
        exact shared.known (UserRows.find?_of_findOne answered)
  refine (keeps_users look).bind fun found g post => ?_
  obtain ⟨rfl, known⟩ := post
  cases found with
  | none => exact .pure (verify_error _ _ _)
  | some user =>
      refine (keeps_users (keeps_plain_users (statement_only (o := .now) trivial))).bind
        fun nowSecs g same => ?_
      subst same
      split
      · exact .pure (verify_error _ _ _)
      · refine (keeps_users (keeps_plain_users (verifyLoginCode_plain _ _ _))).bind
          fun codeValid g same => ?_
        subst same
        refine (keeps_users (keeps_plain_users (secondFactor_plain _ _ _ _))).bind
          fun factor g same => ?_
        subst same
        cases factor with
        | none => exact .pure (verify_error _ _ _)
        | some remaining =>
            refine (keeps_users (keeps_plain_users (getPendingBinding_plain _))).bind
              fun pending g same => ?_
            subst same
            exact onTotpVerified_keeps cfg call (known user rfl) _ _ _

/-- A verification with the fallback of the controller. -/
theorem verifyLegacy_keeps (cfg : MfaSite) {verify : VerifyLoginRequest}
    (call : calls i = .verifyLogin verify) (mfaAuthTime : Int) :
    Keeps (mfaHandler env) (Shared calls s) i VerifyTold
      (MfaController.verifyLegacy cfg verify mfaAuthTime) .idle := by
  have look : Keeps (userHandler env) (Shared calls s) i
      (fun r g => g = .idle ∧ ∀ user, r = some (some user) →
        (s.users.find? user.id).map (fun r => r.publicSub) = some verify.mfaToken)
      (statement (.selectLiveByPublicSub verify.mfaToken)) .idle := by
    intro w γ shared own
    refine ⟨.idle, ?_, rfl, fun user read => ?_⟩
    · rw [← own, Function.update_eq_self]
      exact shared.plain trivial
    · have answered : (if (env w.tick).users.fault then none
          else some (w.db.users.rows.find? fun u =>
            u.publicSub = verify.mfaToken && !u.deleted)) = some (some user) := read
      split at answered
      · cases answered
      · have first := Option.some.inj answered
        have named : user.publicSub = verify.mfaToken := by
          have holds := List.find?_some first
          simp only [Bool.and_eq_true, decide_eq_true_eq] at holds
          exact holds.1
        rw [← named]
        exact shared.known (Table.mem_rows_iff.mp (List.mem_of_find?_eq_some first))
  refine (keeps_users look).bind fun found g post => ?_
  obtain ⟨rfl, known⟩ := post
  cases found with
  | none => exact .pure (verify_error _ _ _)
  | some found =>
      cases found with
      | none => exact .pure (verify_error _ _ _)
      | some user =>
          refine (keeps_users (keeps_plain_users (statement_only (o := .now) trivial))).bind
            fun nowSecs g same => ?_
          subst same
          split
          · exact .pure (verify_error _ _ _)
          · refine (keeps_users (keeps_plain_users (statement_only (o := .now) trivial))).bind
              fun totpTime g same => ?_
            subst same
            refine (keeps_users (keeps_plain_users (secondFactor_plain _ _ _ _))).bind
              fun factor g same => ?_
            subst same
            cases factor with
            | none => exact .pure (verify_error _ _ _)
            | some remaining => exact onTotpVerified_keeps cfg call (known user rfl) _ _ _

/-- A verification returns tokens only if it has cleared a binding. -/
theorem verifyLogin_keeps (cfg : MfaSite) {verify : VerifyLoginRequest}
    (call : calls i = .verifyLogin verify) :
    Keeps (mfaHandler env) (Shared calls s) i VerifyTold (MfaController.verifyLogin cfg verify)
      .idle := by
  unfold MfaController.verifyLogin
  split
  · exact .pure (verify_error _ _ _)
  · split
    · exact .pure (verify_error _ _ _)
    · refine keeps_ask.bind fun mustChange g same => ?_
      subst same
      split
      · exact .pure (verify_error _ _ _)
      · refine (keeps_users (keeps_plain_users (statement_only (o := .now) trivial))).bind
          fun mfaAuthTime g same => ?_
        subst same
        split
        · exact verifyWired_keeps cfg call mfaAuthTime
        · exact verifyLegacy_keeps cfg call mfaAuthTime

end Verify

/-! ## Runs -/

section Runs

variable {ι : Type} [DecidableEq ι] (cfg : MfaSite) (env : Nat → MfaMoment) (calls : ι → MfaCall)
  (s : MfaDb)

/-- What a call tells when it has answered. -/
def Told (s : MfaDb) : MfaCall → Response → Mark → Prop
  | .login _ => LoginTold s
  | .verifyLogin _ => VerifyTold

/-- **Every call keeps the invariant**, and its answer tells what it has done. -/
theorem prog_keeps (i : ι) :
    Keeps (mfaHandler env) (Shared calls s) i (Told s (calls i)) ((calls i).prog cfg) .idle := by
  cases call : calls i with
  | login req => exact login_keeps cfg call
  | verifyLogin req => exact verifyLogin_keeps cfg call

omit [DecidableEq ι] in
/-- A table without bindings holds none. -/
theorem pendingOf_withoutPending (u : Int) : pendingOf (withoutPending s).users u = none := by
  unfold pendingOf withoutPending
  rw [Table.find?_modify]
  cases s.users.find? u <;> rfl

omit [DecidableEq ι] in
/-- The invariant holds at the start, when no binding is open. -/
theorem Shared.start :
    Shared calls (withoutPending s) (World.start (withoutPending s)) fun _ => .idle := by
  refine ⟨(fun _ mem => nomatch mem), fun _ => rfl, fun _ => ?_⟩
  refine ⟨fun _ => none, fun _ => none, ?_⟩
  constructor
  case opened => exact fun _ _ found => nomatch found.choose_spec.1
  case owned => exact fun _ _ bad => nomatch bad
  case free => exact fun u _ => pendingOf_withoutPending s u
  case single => exact fun _ _ _ bad => nomatch bad
  case unused => exact fun _ _ _ bad => nomatch bad
  case taken_ok => exact fun _ _ bad => nomatch bad
  case cleared => exact fun _ bad => nomatch bad

/-- As long as every clearing `UPDATE` finds the binding its request names, the verifications
that return tokens belong to different logins: earlier ones, of the same user, client and
redirect URI, which were told to go on with a second factor. -/
theorem pending_login_completes_once (sched : List ι)
    (settled : ∀ e ∈ (runMfa cfg env calls (withoutPending s) sched).store.log,
      clearsOwn calls e = true) :
    let c := runMfa cfg env calls (withoutPending s) sched
    ∃ first : ι → ι, Set.InjOn first {i | Completed calls c i} ∧
      ∀ i, Completed calls c i →
        ClearedAfter calls (withoutPending s) c.store.log i (first i) ∧
          ∀ a, c.answer? (first i) = some a →
            ∃ verify, calls i = .verifyLogin verify ∧ a = .mfaRequired verify.mfaToken := by
  intro c
  let start : Pool MfaSig ι Response (MfaWorld ι) :=
    { store := World.start (withoutPending s), prog := fun i => (calls i).prog cfg }
  have good : start.Good (mfaHandler env) (Shared calls (withoutPending s))
      (fun i => Told (withoutPending s) (calls i)) :=
    ⟨fun _ => .idle, Shared.start calls s, prog_keeps cfg env calls (withoutPending s)⟩
  obtain ⟨γ, shared, threads⟩ := Pool.run_keeps good sched
  obtain ⟨owner, taken, book⟩ := shared.book settled
  have took {i : ι} (completed : Completed calls c i) : ∃ j, taken i = some j := by
    obtain ⟨verify, json, remaining, call, answered⟩ := completed
    have told := Pool.post_of_answer? (threads i) answered
    simp only [call] at told
    exact Option.isSome_iff_exists.mp (book.cleared i (told json remaining rfl))
  refine ⟨fun i => (taken i).getD i, ?_, ?_⟩
  · intro i done i' done' same
    obtain ⟨j, has⟩ := took done
    obtain ⟨j', has'⟩ := took done'
    simp only [has, has', Option.getD_some] at same
    exact book.single i i' j has (same ▸ has')
  · intro i done
    obtain ⟨j, has⟩ := took done
    simp only [has, Option.getD_some]
    have after := book.taken_ok i j has
    refine ⟨after, fun a answered => ?_⟩
    obtain ⟨verify, login, u, hv, hl, -, -, sub, e, mem, -, -, thread, opens_, -⟩ := after
    have told := Pool.post_of_answer? (threads j) answered
    simp only [hl] at told
    obtain ⟨sub', answer, known⟩ := told u (book.opened j u ⟨e, mem, thread, opens_⟩)
    rw [sub] at known
    exact ⟨verify, hv, (Option.some.inj known) ▸ answer⟩

end Runs

/-! ### Verifications side by side -/

/-- A server with one user whose second factor is enabled. -/
def sampleDb : MfaDb :=
  { db := Sample.db
    users := Table.empty.assign
      { id := 7, publicSub := "sub-7", username := "alice", passwordHash := "secret"
        mfaEnabled := true, mfaSecret := "111111" } }

/-- The leading byte decides the string, which no letter case changes. -/
def sampleCrypto : CryptoProvider :=
  { Sample.crypto with
    base64UrlEncode := fun bytes =>
      String.ofList ((bytes.take 1).map fun b => Char.ofNat (20000 + b.toNat)) }

/-- A site that compares passwords as plain texts and keeps its grants in the maps. -/
def sampleSite : MfaSite where
  site := { Sample.site with tokenService := Sample.service.over .memory .memory sampleCrypto }
  login :=
    { allowLegacyHash := true
      verifyPassword := fun password hash _ => password = hash
      hasherVerify := fun password hash _ => password = hash }
  backup := { json := ⟨fun _ => none, fun _ => ""⟩, sha256Hex := id }

/-- The number of the step is the leading random byte. -/
def sampleEnv : Nat → MfaMoment := fun n =>
  { store :=
      { now := 1000000
        random := fun length => some (UInt8.ofNat n :: List.replicate (length - 1) 0) }
    users := { now := 1000 }
    around := Sample.around 1000
    loginGrant := fun _ _ => .error .passwordChangeRequired }

/-- One login and two verifications of the same code. -/
def sampleCalls : Fin 3 → MfaCall
  | 0 => .login
      { username := "alice", password := "secret", clientId := "app"
        redirectUri := "https://app.example/cb", scope := "openid" }
  | _ => .verifyLogin
      { mfaToken := "sub-7", code := "111111", clientId := "app"
        redirectUri := "https://app.example/cb", scope := "openid" }

/-- The response carries tokens. -/
def returnsTokens : Option Response → Bool
  | some (.tokens _ _) => true
  | _ => false

/-- A verification that returned tokens has completed. -/
theorem completed_of_returnsTokens {ι : Type} {calls : ι → MfaCall}
    {c : Pool MfaSig ι Response (MfaWorld ι)} {i : ι} {req : VerifyLoginRequest}
    (call : calls i = .verifyLogin req) (returned : returnsTokens (c.answer? i) = true) :
    Completed calls c i := by
  unfold returnsTokens at returned
  split at returned
  · exact ⟨req, _, _, call, by assumption⟩
  · cases returned

/-- After the login both verifications run step by step. -/
def sideBySide : List (Fin 3) :=
  List.replicate 5 0 ++ (List.replicate 21 [1, 2]).flatten

/-- One login, two pairs of tokens. -/
theorem two_pairs_for_one_login :
    ¬ ∃ first : Fin 3 → Fin 3,
      Set.InjOn first {i | Completed sampleCalls
        (runMfa sampleSite sampleEnv sampleCalls (withoutPending sampleDb) sideBySide) i} ∧
      ∀ i, Completed sampleCalls
        (runMfa sampleSite sampleEnv sampleCalls (withoutPending sampleDb) sideBySide) i →
        ∃ login, sampleCalls (first i) = .login login := by
  intro found
  obtain ⟨first, inj, logins⟩ := found
  have done₁ : Completed sampleCalls
      (runMfa sampleSite sampleEnv sampleCalls (withoutPending sampleDb) sideBySide) 1 :=
    completed_of_returnsTokens rfl (by decide)
  have done₂ : Completed sampleCalls
      (runMfa sampleSite sampleEnv sampleCalls (withoutPending sampleDb) sideBySide) 2 :=
    completed_of_returnsTokens rfl (by decide)
  have only (i : Fin 3) (login : LoginRequest) (call : sampleCalls i = .login login) : i = 0 := by
    match i, call with
    | 0, _ => rfl
  obtain ⟨_, call₁⟩ := logins 1 done₁
  obtain ⟨_, call₂⟩ := logins 2 done₂
  have same : (1 : Fin 3) = 2 :=
    inj done₁ done₂ ((only _ _ call₁).trans (only _ _ call₂).symm)
  exact absurd same (by decide)

/-- The second verification comes after the first has cleared the binding. -/
def inTurn : List (Fin 3) :=
  List.replicate 5 0 ++ List.replicate 21 1 ++ List.replicate 21 2

theorem pending_login_completes_once_in_turn :
    returnsTokens ((runMfa sampleSite sampleEnv sampleCalls (withoutPending sampleDb)
        inTurn).answer? 1) = true ∧
      ∃ first : Fin 3 → Fin 3, Set.InjOn first {i | Completed sampleCalls
        (runMfa sampleSite sampleEnv sampleCalls (withoutPending sampleDb) inTurn) i} := by
  refine ⟨by decide, ?_⟩
  obtain ⟨first, inj, -⟩ := pending_login_completes_once sampleSite sampleEnv sampleCalls sampleDb
    inTurn (by decide)
  exact ⟨first, inj⟩

end Fulla.PendingMfa
