import Mathlib.Data.List.Perm.Basic
import Fulla.Account.Exchanges

/-!
# The assignment of roles

`assignUserRoles` clears the roles of the user, resolves the names and inserts the roles
concurrently; the insert that completes last chooses the answer.

`assign_honest_iff`: when a call leaves all or nothing and says which, for every pattern of
failing statements and every order of completion.
-/

namespace Fulla

namespace Account

open Conc UserAdminService

/-! ## The concurrent inserts -/

/-- The user has the role. -/
def Holds (db : AccountDb) (id roleId : Int32) : Prop :=
  ⟨id, roleId⟩ ∈ db.userRoles

/-- The inserts in the order in which they complete, each with its failure. -/
def completions (π : Pattern) (id : Int32) : Nat → List RoleRow → List (RoleRow × Option String)
  | 0, _ | _, [] => []
  | n + 1, first :: others =>
    let m := π (.insertNext id first others)
    let picked := pickRole m.pick first others
    (picked.1, m.fault) :: completions π id n picked.2

section Inserts

variable {π : Pattern} {id : Int32} {x : Exchange} {pending : List RoleRow}

/-- Every insert completes once. -/
theorem completions_perm (π : Pattern) (id : Int32) {n : Nat} (count : pending.length = n) :
    ((completions π id n pending).map Prod.fst).Perm pending := by
  induction n generalizing pending with
  | zero =>
      rw [List.length_eq_zero_iff.mp count]
      exact .refl _
  | succ n ih =>
      cases pending with
      | nil => cases count
      | cons first others =>
          have perm := pickRole_perm (π (.insertNext id first others)).pick first others
          have rest :
              (pickRole (π (.insertNext id first others)).pick first others).2.length = n := by
            have := perm.length_eq
            simp only [List.length_cons] at this count
            omega
          exact ((ih rest).cons _).trans perm

theorem mem_completions {n : Nat} (count : pending.length = n) {role : RoleRow} :
    (∃ fault, (role, fault) ∈ completions π id n pending) ↔ role ∈ pending := by
  rw [← (completions_perm π id count).mem_iff]
  simp

/-- The user has been given the role. -/
def Exchange.grant (x : Exchange) (id roleId : Int32) : Exchange :=
  { x with db := { x.db with userRoles := ⟨id, roleId⟩ :: x.db.userRoles } }

@[simp]
theorem holds_grant {roleId r : Int32} :
    Holds (x.grant id roleId).db id r ↔ r = roleId ∨ Holds x.db id r := by
  simp [Holds, Exchange.grant]

variable {first : RoleRow} {others : List RoleRow}

theorem insertNext_ok (fault : (π (.insertNext id first others)).fault = none)
    (free : ¬ Holds x.db id (pickRole (π (.insertNext id first others)).pick first others).1.id) :
    exchange π (.insertNext id first others) x =
      ((pickRole (π (.insertNext id first others)).pick first others, .ok ()),
        (x.wait (π (.insertNext id first others))).grant id
          (pickRole (π (.insertNext id first others)).pick first others).1.id) := by
  have eval : insertUserRole none id (pickRole (π (.insertNext id first others)).pick first
      others).1 (x.wait (π (.insertNext id first others))).db =
        (.ok (), ((x.wait (π (.insertNext id first others))).grant id
          (pickRole (π (.insertNext id first others)).pick first others).1.id).db) :=
    if_neg free
  rw [← fault] at eval
  exact Prod.ext (Prod.ext rfl (congrArg Prod.fst eval))
    (congrArg (fun r : Except String Unit × AccountDb => (⟨r.2, x.answers⟩ : Exchange)) eval)

theorem insertNext_error {text : String}
    (fault : (π (.insertNext id first others)).fault = some text) :
    exchange π (.insertNext id first others) x =
      ((pickRole (π (.insertNext id first others)).pick first others, .error text),
        x.wait (π (.insertNext id first others))) := by
  have eval : insertUserRole (some text) id (pickRole (π (.insertNext id first others)).pick first
      others).1 (x.wait (π (.insertNext id first others))).db =
        (.error text, (x.wait (π (.insertNext id first others))).db) := rfl
  rw [← fault] at eval
  exact Prod.ext (Prod.ext rfl (congrArg Prod.fst eval))
    (congrArg (fun r : Except String Unit × AccountDb => (⟨r.2, x.answers⟩ : Exchange)) eval)

/-- The next insert completes: the role is stored unless the insert fails, and the last one
answers. -/
theorem awaitInserts_next (n : Nat) (assigned : List String)
    (free : ∀ role ∈ first :: others, ¬ Holds x.db id role.id) :
    let m := π (.insertNext id first others)
    let picked := pickRole m.pick first others
    ∃ x' assigned', afterwards π (awaitInserts id (n + 1) (first :: others) assigned) x =
        afterwards π (awaitInserts id n picked.2 assigned') x' ∧
      (∀ r, Holds x'.db id r ↔ Holds x.db id r ∨ m.fault = none ∧ picked.1.id = r) ∧
      (n ≠ 0 → x'.answers = x.answers) ∧
      (n = 0 → ∃ answer, x'.answers = x.answers ++ [answer] ∧ answer.isError = m.fault.isSome) := by
  intro m picked
  have absent : ¬ Holds x.db id picked.1.id :=
    free picked.1 ((pickRole_perm m.pick first others).mem_iff.mp List.mem_cons_self)
  cases fault : m.fault with
  | none =>
      have added (r : Int32) : Holds ((x.wait m).grant id picked.1.id).db id r ↔
          Holds x.db id r ∨ (none : Option String) = none ∧ picked.1.id = r := by
        rw [holds_grant, or_comm, eq_comm]
        simp [Exchange.wait, Holds]
      rw [afterwards, awaitInserts, Prog.run_op, insertNext_ok fault absent]
      by_cases zero : n = 0
      · subst zero
        exact ⟨{ ((x.wait m).grant id picked.1.id).wait
            (π (.respond (.rolesUpdated id (assigned ++ [picked.1.name])))) with
              answers := x.answers ++ [.rolesUpdated id (assigned ++ [picked.1.name])] },
          assigned ++ [picked.1.name], rfl, added, fun ne => absurd rfl ne, fun _ => ⟨_, rfl, rfl⟩⟩
      · refine ⟨(x.wait m).grant id picked.1.id, assigned ++ [picked.1.name], ?_, added,
          fun _ => rfl, fun eq => absurd eq zero⟩
        simp only [if_neg zero]
        rfl
  | some text =>
      have same (r : Int32) : Holds (x.wait m).db id r ↔
          Holds x.db id r ∨ some text = none ∧ picked.1.id = r := by
        simp [Exchange.wait, Holds]
      rw [afterwards, awaitInserts, Prog.run_op, insertNext_error fault]
      by_cases zero : n = 0
      · subst zero
        exact ⟨{ (x.wait m).wait (π (.respond
            (.error "DB_QUERY_ERROR" ("Failed to assign some roles: " ++ text)))) with
              answers := x.answers ++
                [.error "DB_QUERY_ERROR" ("Failed to assign some roles: " ++ text)] },
          assigned, rfl, same, fun ne => absurd rfl ne, fun _ => ⟨_, rfl, rfl⟩⟩
      · refine ⟨x.wait m, assigned, ?_, same, fun _ => rfl, fun eq => absurd eq zero⟩
        simp only [if_neg zero]
        rfl

/-- The roles whose inserts do not fail are stored, and the insert that completes last answers. -/
theorem awaitInserts_run (π : Pattern) (x : Exchange) {n : Nat} (assigned : List String)
    (count : pending.length = n) (apart : (pending.map (·.id)).Nodup)
    (free : ∀ role ∈ pending, ¬ Holds x.db id role.id) :
    let x' := afterwards π (awaitInserts id n pending assigned) x
    let inserts := completions π id n pending
    (∀ r, Holds x'.db id r ↔ Holds x.db id r ∨ ∃ role, (role, none) ∈ inserts ∧ role.id = r) ∧
      (inserts = [] → x'.answers = x.answers) ∧
      ∀ last ∈ inserts.getLast?, ∃ answer,
        x'.answers = x.answers ++ [answer] ∧ answer.isError = last.2.isSome := by
  induction n generalizing pending x assigned with
  | zero =>
      cases pending with
      | nil => exact ⟨fun r => by simp [afterwards, awaitInserts, completions], fun _ => rfl, nofun⟩
      | cons => cases count
  | succ n ih =>
      cases pending with
      | nil => cases count
      | cons first others =>
          intro x' inserts
          let m := π (.insertNext id first others)
          let picked := pickRole m.pick first others
          have perm : (picked.1 :: picked.2).Perm (first :: others) := pickRole_perm ..
          obtain ⟨x₁, assigned', run, stored, between, atEnd⟩ :=
            awaitInserts_next n assigned free
          have apart' := (perm.map (·.id)).nodup_iff.mpr apart
          rw [List.map_cons, List.nodup_cons] at apart'
          have count' : picked.2.length = n := by
            have := perm.length_eq
            simp only [List.length_cons] at this count
            omega
          have free' : ∀ role ∈ picked.2, ¬ Holds x₁.db id role.id := by
            intro role mem holds
            rcases (stored role.id).mp holds with holds | ⟨_, same⟩
            · exact free role (perm.mem_iff.mp (List.mem_cons_of_mem _ mem)) holds
            · exact apart'.1 (same ▸ List.mem_map_of_mem mem)
          obtain ⟨holds, none, last⟩ := ih x₁ assigned' count' apart'.2 free'
          have eq : x' = afterwards π (awaitInserts id n picked.2 assigned') x₁ := run
          have list : inserts = (picked.1, m.fault) :: completions π id n picked.2 := rfl
          rw [eq, list]
          refine ⟨fun r => ?_, nofun, ?_⟩
          · rw [holds, stored, or_assoc]
            refine or_congr_right ?_
            simp only [List.mem_cons, Prod.mk.injEq]
            constructor
            · rintro (⟨fault, same⟩ | ⟨role, mem, same⟩)
              · exact ⟨picked.1, .inl ⟨rfl, fault.symm⟩, same⟩
              · exact ⟨role, .inr mem, same⟩
            · rintro ⟨role, ⟨rfl, fault⟩ | mem, same⟩
              · exact .inl ⟨fault.symm, same⟩
              · exact .inr ⟨role, mem, same⟩
          · -- the last of one insert is its own, of more it is the last of the rest
            rcases Nat.eq_zero_or_pos n with rfl | pos
            · obtain ⟨answer, answers, error⟩ := atEnd rfl
              have nothing : completions π id 0 picked.2 = [] := rfl
              rw [nothing] at none ⊢
              rintro last ⟨⟩
              exact ⟨answer, (none rfl).trans answers, error⟩
            · have more : completions π id n picked.2 ≠ [] := by
                intro nothing
                have := (completions_perm π id count').length_eq
                rw [nothing, List.map_nil, List.length_nil] at this
                omega
              rw [List.getLast?_cons_of_ne_nil more, ← between (Nat.ne_of_gt pos)]
              exact last

end Inserts

/-! ## One answer, all or nothing -/

/-- The requested roles that exist. -/
def Requested (db : AccountDb) (roleNames : List String) (roleId : Int32) : Prop :=
  ∃ role ∈ db.roles.rows, role.name ∈ roleNames ∧ role.id = roleId

/-- There is one answer; after a success the user has exactly the requested roles that exist, after
an error exactly the roles of before. -/
def AnsweredHonestly (db : AccountDb) (userId : String) (body : Option (List (String × Json)))
    (x' : Exchange) : Prop :=
  ∃ answer, x'.answers = [answer] ∧ ∀ id, parseUserId userId = some id →
    (answer.isError = true → ∀ r, Holds x'.db id r ↔ Holds db id r) ∧
      (answer.isError = false → ∀ roleNames, requestedRoles body = some roleNames →
        ∀ r, Holds x'.db id r ↔ Requested db roleNames r)

/-- The call gets past the look-up, the guard and the clearing of the old roles. -/
def Clears (π : Pattern) (db : AccountDb) (id : Int32) (roleNames : List String) : Prop :=
  let m := π (.sql (.liveUser id))
  m.fault = none ∧ ((db.users.find? id).filter fun u => u.deletedAt = none).isSome ∧
    ("admin" ∈ roleNames ∨ guardAnswer π id (Exchange.wait ⟨db, []⟩ m) = some false) ∧
    (π (.sql (.clearRoles id))).fault = none

/-- The inserts of the call, in the order in which they complete. -/
def insertsOf (π : Pattern) (db : AccountDb) (id : Int32) (roleNames : List String) :
    List (RoleRow × Option String) :=
  let resolved := db.roles.rows.filter fun r => r.name ∈ roleNames
  completions π id resolved.length resolved

/-- If the resolution fails the user had no roles.  If the insert that completes last succeeds then
all do, and if it fails then those that succeed are of the roles that the user had, and of all of
them. -/
def Tells (π : Pattern) (db : AccountDb) (id : Int32) (roleNames : List String) : Prop :=
  ((π (.sql (.rolesNamed roleNames))).fault ≠ none → ∀ r, ¬ Holds db id r) ∧
    ((π (.sql (.rolesNamed roleNames))).fault = none →
      ∀ last ∈ (insertsOf π db id roleNames).getLast?,
        (last.2 = none → ∀ i ∈ insertsOf π db id roleNames, i.2 = none) ∧
          (last.2 ≠ none → ∀ r, Holds db id r ↔
            ∃ role, (role, none) ∈ insertsOf π db id roleNames ∧ role.id = r))

section Honest

variable {π : Pattern} {db : AccountDb} {userId : String} {body : Option (List (String × Json))}
  {id : Int32} {roleNames : List String} {x x' : Exchange}

theorem answeredHonestly_iff (parsed : parseUserId userId = some id)
    (requested : requestedRoles body = some roleNames) {answer : AccountAnswer}
    (answered : x'.answers = [answer]) :
    AnsweredHonestly db userId body x' ↔
      ∀ r, Holds x'.db id r ↔ if answer.isError then Holds db id r
        else Requested db roleNames r := by
  unfold AnsweredHonestly
  rw [answered, parsed, requested]
  cases error : answer.isError with
  | true =>
      constructor
      · rintro ⟨answer', same, honest⟩
        cases same
        simpa using (honest id rfl).1 error
      · intro same
        refine ⟨answer, rfl, fun id' eq => ?_⟩
        cases eq
        exact ⟨fun _ => by simpa using same, fun success => by simp [error] at success⟩
  | false =>
      constructor
      · rintro ⟨answer', same, honest⟩
        cases same
        simpa using (honest id rfl).2 error roleNames rfl
      · intro same
        refine ⟨answer, rfl, fun id' eq => ?_⟩
        cases eq
        refine ⟨fun failure => by simp [error] at failure, fun _ roleNames' eq => ?_⟩
        cases eq
        simpa using same

/-- A call that is refused has changed nothing. -/
theorem answeredHonestly_of_refused {code detail : String}
    (answered : x'.answers = [.error code detail]) (same : x'.db.userRoles = db.userRoles) :
    AnsweredHonestly db userId body x' := by
  refine ⟨_, answered, fun _ _ => ⟨fun _ r => ?_, fun success => nomatch success⟩⟩
  rw [Holds, same, Holds]

theorem Exchange.Later.userRoles (later : x.Later x') : x'.db.userRoles = x.db.userRoles := by
  obtain ⟨_, clock, eq⟩ := later
  rw [eq]

theorem Exchange.Later.roles (later : x.Later x') : x'.db.roles = x.db.roles := by
  obtain ⟨_, clock, eq⟩ := later
  rw [eq]

/-- The error that a call answers where only time has passed. -/
theorem answeredHonestly_of_later {code detail : String} (later : (Exchange.mk db []).Later x) :
    AnsweredHonestly db userId body (afterwards π (respondError code detail) x) := by
  have answered : x.answers ++ [AccountAnswer.error code detail] = [.error code detail] :=
    congrArg (· ++ [AccountAnswer.error code detail]) later.1
  exact answeredHonestly_of_refused answered later.userRoles

/-- What remains to be done once the roles are cleared. -/
def afterClear (id : Int32) (roleNames : List String) : AccountProg :=
  if roleNames.isEmpty then respond (.rolesUpdated id [])
  else
    sqlOr (.rolesNamed roleNames)
      (fun what => respondError "DB_QUERY_ERROR" ("Failed to resolve role names: " ++ what))
      fun resolved =>
        if resolved.isEmpty then respond (.rolesUpdated id [])
        else awaitInserts id resolved.length resolved []

/-- The user of the call has no roles, and the roles are as before. -/
structure Cleared (db : AccountDb) (id : Int32) (x : Exchange) : Prop where
  answers : x.answers = []
  roles : x.db.roles = db.roles
  none : ∀ r, ¬ Holds x.db id r

theorem Cleared.wait {m : AccountMoment} (cleared : Cleared db id x) : Cleared db id (x.wait m) :=
  ⟨cleared.answers, cleared.roles, cleared.none⟩

theorem requested_iff {r : Int32} : Requested db roleNames r ↔
    ∃ role ∈ db.roles.rows.filter (fun r => r.name ∈ roleNames), role.id = r := by
  simp only [Requested, List.mem_filter, decide_eq_true_eq, and_assoc]

theorem mem_insertsOf (π : Pattern) (db : AccountDb) (id : Int32) (roleNames : List String)
    {role : RoleRow} : (∃ fault, (role, fault) ∈ insertsOf π db id roleNames) ↔
    role ∈ db.roles.rows.filter fun r => r.name ∈ roleNames :=
  mem_completions rfl

theorem resolved_apart (p : RoleRow → Bool) : ((db.roles.rows.filter p).map (·.id)).Nodup :=
  db.roles.nodup.sublist (List.filter_sublist.map _)

/-- An answer of success where the user has no roles. -/
theorem answeredHonestly_of_none (parsed : parseUserId userId = some id)
    (requested : requestedRoles body = some roleNames) (cleared : Cleared db id x)
    (none : db.roles.rows.filter (fun r => r.name ∈ roleNames) = []) :
    AnsweredHonestly db userId body (afterwards π (respond (.rolesUpdated id [])) x) := by
  have answered : x.answers ++ [AccountAnswer.rolesUpdated id []] = [.rolesUpdated id []] :=
    congrArg (· ++ [AccountAnswer.rolesUpdated id []]) cleared.answers
  refine (answeredHonestly_iff parsed requested answered).mpr ?_
  intro r
  refine iff_of_false (cleared.none r) fun wanted => ?_
  obtain ⟨role, mem, _⟩ := requested_iff.mp wanted
  rw [none] at mem
  cases mem

/-- All that was requested is stored just when no insert fails. -/
theorem stored_requested_iff :
    (∀ r, (∃ role, (role, none) ∈ insertsOf π db id roleNames ∧ role.id = r) ↔
      Requested db roleNames r) ↔ ∀ i ∈ insertsOf π db id roleNames, i.2 = none := by
  constructor
  · rintro all ⟨role, fault⟩ mem
    have wanted := (mem_insertsOf π db id roleNames).mp ⟨fault, mem⟩
    obtain ⟨role', mem', same⟩ := (all role.id).mpr (requested_iff.mpr ⟨role, wanted, rfl⟩)
    have eq : role' = role := List.inj_on_of_nodup_map (resolved_apart _)
      ((mem_insertsOf π db id roleNames).mp ⟨_, mem'⟩) wanted same
    subst eq
    -- every insert completes once
    have once : ((insertsOf π db id roleNames).map Prod.fst).Nodup :=
      (completions_perm π id rfl).nodup_iff.mpr (db.roles.nodup.of_map.filter _)
    cases List.inj_on_of_nodup_map once mem mem' rfl
    rfl
  · intro all r
    rw [requested_iff]
    constructor
    · rintro ⟨role, mem, same⟩
      exact ⟨role, (mem_insertsOf π db id roleNames).mp ⟨_, mem⟩, same⟩
    · rintro ⟨role, wanted, same⟩
      obtain ⟨fault, mem⟩ := (mem_insertsOf π db id roleNames).mpr wanted
      cases all _ mem
      exact ⟨role, mem, same⟩

theorem insertsOf_eq_nil : insertsOf π db id roleNames = [] ↔
    db.roles.rows.filter (fun r => r.name ∈ roleNames) = [] := by
  have perm : ((insertsOf π db id roleNames).map Prod.fst).Perm
      (db.roles.rows.filter fun r => r.name ∈ roleNames) := completions_perm π id rfl
  constructor
  · intro nothing
    rw [nothing] at perm
    exact List.nil_perm.mp perm
  · intro none
    unfold insertsOf
    rw [none]
    rfl

/-- The inserts run to their end where the user has no roles. -/
theorem answeredHonestly_inserts_iff (parsed : parseUserId userId = some id)
    (requested : requestedRoles body = some roleNames) (cleared : Cleared db id x)
    {last : RoleRow × Option String} (ends : (insertsOf π db id roleNames).getLast? = some last) :
    let resolved := db.roles.rows.filter fun r => r.name ∈ roleNames
    AnsweredHonestly db userId body
        (afterwards π (awaitInserts id resolved.length resolved []) x) ↔
      (last.2 = none → ∀ i ∈ insertsOf π db id roleNames, i.2 = none) ∧
        (last.2 ≠ none → ∀ r, Holds db id r ↔
          ∃ role, (role, none) ∈ insertsOf π db id roleNames ∧ role.id = r) := by
  intro resolved
  obtain ⟨stored, _, answers⟩ := awaitInserts_run π x [] rfl
    (resolved_apart _) fun role (_ : role ∈ resolved) => cleared.none role.id
  obtain ⟨answer, answered, error⟩ := answers last ends
  rw [cleared.answers] at answered
  rw [answeredHonestly_iff parsed requested answered]
  have exactly_ (r : Int32) :
      Holds (afterwards π (awaitInserts id resolved.length resolved []) x).db
      id r ↔ ∃ role, (role, none) ∈ insertsOf π db id roleNames ∧ role.id = r := by
    rw [stored]
    exact or_iff_right (cleared.none r)
  refine (forall_congr' fun r => iff_congr (exactly_ r) .rfl).trans ?_
  rw [error]
  cases fault : last.2 with
  | none =>
      rw [and_iff_left fun ne => absurd rfl ne, forall_prop_of_true rfl]
      exact stored_requested_iff
  | some text =>
      rw [and_iff_right fun eq => nomatch eq]
      have failed : some text ≠ none := Option.some_ne_none text
      exact ⟨fun same _ r => (same r).symm, fun same r => (same failed r).symm⟩

theorem answeredHonestly_afterClear_iff (parsed : parseUserId userId = some id)
    (requested : requestedRoles body = some roleNames) (cleared : Cleared db id x) :
    AnsweredHonestly db userId body (afterwards π (afterClear id roleNames) x) ↔
      (roleNames ≠ [] → Tells π db id roleNames) := by
  unfold afterClear
  by_cases noNames : roleNames = []
  · subst noNames
    refine iff_of_true ?_ fun ne => absurd rfl ne
    exact answeredHonestly_of_none parsed requested cleared (by simp)
  · rw [if_neg (by simpa using noNames), forall_prop_of_true noNames]
    unfold Tells
    cases fault : (π (.sql (.rolesNamed roleNames))).fault with
    | some text =>
        rw [afterwards, run_sqlOr_fault fault, ← afterwards, and_iff_left fun eq => nomatch eq]
        rw [answeredHonestly_iff parsed requested (congrArg (· ++ [_]) cleared.answers)]
        constructor
        · intro same _ r holds
          exact cleared.none r ((same r).mpr holds)
        · intro none r
          exact iff_of_false (cleared.none r) (none (Option.some_ne_none text) r)
    | none =>
        have eval : AccountStatement.eval (x.wait (π (.sql (.rolesNamed roleNames)))).db
            (.rolesNamed roleNames) = .ok (db.roles.rows.filter fun r => r.name ∈ roleNames,
              (x.wait (π (.sql (.rolesNamed roleNames)))).db) := by
          rw [← cleared.roles]
          rfl
        rw [afterwards, run_sqlOr_ok fault eval, ← afterwards,
          and_iff_right fun ne => absurd rfl ne, forall_prop_of_true rfl]
        cases ends : (insertsOf π db id roleNames).getLast? with
        | none =>
            have none := insertsOf_eq_nil.mp (List.getLast?_eq_none_iff.mp ends)
            rw [none]
            refine iff_of_true ?_ nofun
            exact answeredHonestly_of_none parsed requested cleared.wait none
        | some last =>
            have some_ : db.roles.rows.filter (fun r => r.name ∈ roleNames) ≠ [] := by
              intro none
              rw [insertsOf_eq_nil.mpr none] at ends
              cases ends
            rw [if_neg (by simpa using some_)]
            simp only [Option.mem_def, Option.some.injEq, forall_eq']
            exact answeredHonestly_inserts_iff parsed requested cleared.wait ends

theorem answeredHonestly_proceed_iff (parsed : parseUserId userId = some id)
    (requested : requestedRoles body = some roleNames) (later : (Exchange.mk db []).Later x) :
    AnsweredHonestly db userId body (afterwards π (proceedWithAssign id roleNames) x) ↔
      ((π (.sql (.clearRoles id))).fault = none → roleNames ≠ [] → Tells π db id roleNames) := by
  have eq : proceedWithAssign id roleNames = sqlOr (.clearRoles id)
      (fun what => respondError "DB_QUERY_ERROR" ("Failed to clear existing roles: " ++ what))
      fun _ => afterClear id roleNames := rfl
  rw [eq]
  cases fault : (π (.sql (.clearRoles id))).fault with
  | some text =>
      refine iff_of_true ?_ fun eq => nomatch eq
      rw [afterwards, run_sqlOr_fault fault, ← afterwards]
      exact answeredHonestly_of_later (later.trans Exchange.later_wait)
  | none =>
      rw [forall_prop_of_true rfl]
      have eval : AccountStatement.eval (x.wait (π (.sql (.clearRoles id)))).db (.clearRoles id) =
          .ok ((x.db.userRoles.filter fun r => r.userId = id).length,
            { (x.wait (π (.sql (.clearRoles id)))).db with
              userRoles := x.db.userRoles.filter fun r => r.userId ≠ id }) := rfl
      rw [afterwards, run_sqlOr_ok fault eval, ← afterwards]
      refine answeredHonestly_afterClear_iff parsed requested
        ⟨later.1, later.roles, fun r holds => ?_⟩
      simp [Holds] at holds

/-- The call does not reach the inserts, or what it answers is what it leaves. -/
def Unharmed (π : Pattern) (db : AccountDb) (userId : String)
    (body : Option (List (String × Json))) : Prop :=
  ∀ id, parseUserId userId = some id → ∀ roleNames, requestedRoles body = some roleNames →
    Clears π db id roleNames → roleNames ≠ [] → Tells π db id roleNames

/-- A call past the look-up of the user. -/
theorem answeredHonestly_guarded_iff (π : Pattern) (parsed : parseUserId userId = some id)
    (requested : requestedRoles body = some roleNames) (later : (Exchange.mk db []).Later x) :
    AnsweredHonestly db userId body (afterwards π
        (if "admin" ∈ roleNames then proceedWithAssign id roleNames
          else
            isLastActiveAdmin id
              (fun lastAdmin =>
                if lastAdmin then
                  respondError "VALIDATION_RESOURCE_CONFLICT"
                    "Cannot remove the admin role from the last active admin"
                else proceedWithAssign id roleNames)
              guardFailed) x) ↔
      ("admin" ∈ roleNames ∨ guardAnswer π id x = some false →
        (π (.sql (.clearRoles id))).fault = none → roleNames ≠ [] → Tells π db id roleNames) := by
  by_cases keepsAdmin : "admin" ∈ roleNames
  · rw [if_pos keepsAdmin, forall_prop_of_true (.inl keepsAdmin)]
    exact answeredHonestly_proceed_iff parsed requested later
  · rw [if_neg keepsAdmin]
    obtain ⟨x', later', run⟩ := run_isLastActiveAdmin π x id
      (fun lastAdmin =>
        if lastAdmin then
          respondError "VALIDATION_RESOURCE_CONFLICT"
            "Cannot remove the admin role from the last active admin"
        else proceedWithAssign id roleNames)
      guardFailed
    rw [afterwards, run, ← afterwards]
    have later'' := later.trans later'
    cases answer : guardAnswer π id x with
    | none =>
        refine iff_of_true (answeredHonestly_of_later later'') fun passes => ?_
        exact absurd passes (by simp [keepsAdmin])
    | some lastAdmin =>
        cases lastAdmin with
        | true =>
            refine iff_of_true (answeredHonestly_of_later later'') fun passes => ?_
            exact absurd passes (by simp [keepsAdmin])
        | false =>
            rw [forall_prop_of_true (.inr rfl)]
            exact answeredHonestly_proceed_iff parsed requested later''

/-- An assignment of roles is all or nothing and says which, just when it gets no further than
the clearing or tells the truth about the inserts. -/
theorem assign_honest_iff (π : Pattern) (db : AccountDb) (userId : String)
    (body : Option (List (String × Json))) :
    AnsweredHonestly db userId body (afterwards π (assignUserRoles userId body) ⟨db, []⟩) ↔
      Unharmed π db userId body := by
  unfold assignUserRoles withUserId Unharmed
  cases parsed : parseUserId userId with
  | none => exact iff_of_true (answeredHonestly_of_later ⟨rfl, _, rfl⟩) nofun
  | some id =>
      cases requested : requestedRoles body with
      | none => exact iff_of_true (answeredHonestly_of_later ⟨rfl, _, rfl⟩) nofun
      | some roleNames =>
          simp only [Option.some.injEq, forall_eq']
          unfold Clears
          have later := Exchange.later_wait (x := ⟨db, []⟩) (m := π (.sql (.liveUser id)))
          cases fault : (π (.sql (.liveUser id))).fault with
          | some text =>
              rw [afterwards, run_sqlOr_fault fault, ← afterwards]
              refine iff_of_true (answeredHonestly_of_later later) fun clears => ?_
              exact absurd (fault.symm.trans clears.1) (Option.some_ne_none text)
          | none =>
              cases found : (db.users.find? id).filter fun u => u.deletedAt = none with
              | none =>
                  have eval : AccountStatement.eval
                      (Exchange.wait ⟨db, []⟩ (π (.sql (.liveUser id)))).db (.liveUser id) =
                        .error "0 rows found" := by
                    simp only [AccountStatement.eval, Exchange.wait, found]
                  rw [afterwards, run_sqlOr_error fault eval, ← afterwards]
                  refine iff_of_true (answeredHonestly_of_later later) fun clears => ?_
                  exact absurd clears.2.1 Bool.false_ne_true
              | some row =>
                  have eval : AccountStatement.eval
                      (Exchange.wait ⟨db, []⟩ (π (.sql (.liveUser id)))).db (.liveUser id) =
                        .ok (row, (Exchange.wait ⟨db, []⟩ (π (.sql (.liveUser id)))).db) := by
                    simp only [AccountStatement.eval, Exchange.wait, found]
                  rw [afterwards, run_sqlOr_ok fault eval, ← afterwards]
                  refine (answeredHonestly_guarded_iff π parsed requested later).trans ?_
                  exact ⟨fun tells clears => tells clears.2.2.1 clears.2.2.2,
                    fun tells passes clear => tells ⟨fault, rfl, passes, clear⟩⟩

end Honest

section Sample

/-- User 7 has the role of a user; there are two more roles. -/
def sampleRoles : AccountDb where
  users := ⟨[{ id := 7, publicSub := "7f" }], by decide⟩
  roles := ⟨[⟨1, "admin"⟩, ⟨2, "user"⟩, ⟨3, "auditor"⟩, ⟨4, "support"⟩], by decide⟩
  userRoles := [⟨7, 2⟩]

/-- The insert that completes first fails while another is under way. -/
def firstInsertFails : Pattern
  | .insertNext _ _ (_ :: _) => { fault := some "connection lost" }
  | _ => {}

/-- A request for two roles. -/
def twoRoles : Option (List (String × Json)) :=
  some [("roles", .arr [.str "auditor", .str "support"])]

/-- The insert of one of two roles fails before the other completes: the call answers success. -/
theorem role_missing_after_success :
    (afterwards firstInsertFails (assignUserRoles "7" twoRoles) ⟨sampleRoles, []⟩).answers =
        [.rolesUpdated 7 ["auditor"]] ∧
      ¬ AnsweredHonestly sampleRoles "7" twoRoles
        (afterwards firstInsertFails (assignUserRoles "7" twoRoles) ⟨sampleRoles, []⟩) := by
  have parsed : parseUserId "7" = some 7 := by decide
  have requested : requestedRoles twoRoles = some ["auditor", "support"] := rfl
  have answers : (afterwards firstInsertFails (assignUserRoles "7" twoRoles)
      ⟨sampleRoles, []⟩).answers = [.rolesUpdated 7 ["auditor"]] := by decide
  have stored : (afterwards firstInsertFails (assignUserRoles "7" twoRoles)
      ⟨sampleRoles, []⟩).db.userRoles = [⟨7, 3⟩] := by decide
  refine ⟨answers, fun honest => ?_⟩
  have support := ((answeredHonestly_iff parsed requested answers).mp honest 4).mpr
    ⟨⟨4, "support"⟩, by decide, by decide, rfl⟩
  rw [Holds, stored] at support
  exact absurd support (by decide)

end Sample

end Account

end Fulla
