import Fulla.Storage.GrantCalls

/-!
# Three grant stores, one book of codes

`Book` says what a grant store is for: a map from codes to records in which a
consumption sets the `used` flag, provided the redirect URI is repeated, and a refused
one changes nothing.  Codes do not expire in it; it remembers for which codes a
redirect URI was refused.

Each store follows the book on the sequential runs that stay within what the store
was built for, and these conditions differ:

* memory hides an expired code from `getAuthCode`, but delivers it;
* Redis forgets a code with its key, drops what JSON leaves out and cuts numbers to
  fourteen digits when a script rewrites them;
* Postgres knows no expiry but has a schema, keeps the first record of a code, and
  marks a code as used before it compares the redirect URI.

`grant_stores_follow_book` is the refinement; with it the three stores give the same
answers on every run that meets the three conditions.
-/

namespace Fulla

open Conc RedisFormat

/-! ## The book -/

/-- The codes as a book that one reads and writes in. -/
structure Book where
  codes : String → Option OAuth2AuthCode
  /-- The codes of which a consumption was refused for its redirect URI. -/
  refused : List String

namespace Book

/-- A book without codes. -/
def empty : Book :=
  { codes := fun _ => none, refused := [] }

/-- The redirect URI recorded with the code is not the one presented. -/
def mismatch (c : OAuth2AuthCode) (redirectUri : String) : Prop :=
  c.redirectUri ≠ "" ∧ redirectUri ≠ c.redirectUri

instance (c : OAuth2AuthCode) (redirectUri : String) : Decidable (mismatch c redirectUri) :=
  inferInstanceAs (Decidable (_ ∧ _))

@[simp]
theorem mismatch_used (c : OAuth2AuthCode) (redirectUri : String) :
    mismatch { c with used := true } redirectUri ↔ mismatch c redirectUri :=
  Iff.rfl

/-- A code is delivered once, to a request that agrees with its redirect URI. -/
def consume (b : Book) (k redirectUri : String) : Option OAuth2AuthCode × Book :=
  match b.codes k with
  | none => (none, b)
  | some c =>
    if c.used then (none, b)
    else if mismatch c redirectUri then (none, { b with refused := k :: b.refused })
    else
      (some { c with used := true },
        { b with codes := Function.update b.codes k (some { c with used := true }) })

/-- What a call does to the book. -/
def step (b : Book) : GrantCall → GrantAnswer × Book
  | .saveAuthCode c => (.done, { b with codes := Function.update b.codes c.code (some c) })
  | .getAuthCode k => (.code (b.codes k), b)
  | .consumeAuthCode k redirectUri =>
    (.code (b.consume k redirectUri).1, (b.consume k redirectUri).2)
  | .purgeExpired => (.done, b)

section Consume

variable {b : Book} {k redirectUri : String} {c : OAuth2AuthCode}

/-- A code that is not in the book is not delivered. -/
theorem step_consume_absent (absent : b.codes k = none) :
    b.step (.consumeAuthCode k redirectUri) = (.code none, b) := by
  simp [step, consume, absent]

/-- A used code is not delivered. -/
theorem step_consume_used (found : b.codes k = some c) (used : c.used = true) :
    b.step (.consumeAuthCode k redirectUri) = (.code none, b) := by
  simp [step, consume, found, used]

/-- A code with another redirect URI is not delivered, and the refusal is noted. -/
theorem step_consume_mismatch (found : b.codes k = some c) (unused : ¬ c.used = true)
    (differs : mismatch c redirectUri) :
    b.step (.consumeAuthCode k redirectUri) =
      (.code none, { b with refused := k :: b.refused }) := by
  simp [step, consume, found, unused, differs]

/-- A code that agrees is delivered and used. -/
theorem step_consume_match (found : b.codes k = some c) (unused : ¬ c.used = true)
    (matching : ¬ mismatch c redirectUri) :
    b.step (.consumeAuthCode k redirectUri) =
      (.code (some { c with used := true }),
        { b with codes := Function.update b.codes k (some { c with used := true }) }) := by
  simp [step, consume, found, unused, matching]

end Consume

/-- The answers of a sequence of calls. -/
def answers (b : Book) : List (Moment × GrantCall) → List GrantAnswer
  | [] => []
  | (_, call) :: rest => (b.step call).1 :: (b.step call).2.answers rest

/-- The book after a run. -/
def after (b : Book) (run : List (Moment × GrantCall)) : Book :=
  run.foldl (fun b entry => (b.step entry.2).2) b

/-- Every call of the run meets a condition on the book before it. -/
def Meets (ok : Book → Moment → GrantCall → Prop) (b : Book) : List (Moment × GrantCall) → Prop
  | [] => True
  | (m, call) :: rest => ok b m call ∧ (b.step call).2.Meets ok rest

end Book

/-! ## Sequential runs of a store -/

/-- One call, alone on the store. -/
def GrantBackend.call (grants : GrantBackend) (m : Moment) (call : GrantCall) (db : Db) :
    GrantAnswer × Db :=
  (call.prog grants.repository).run (execOp m) db

/-- The answers to the calls of a run, each made at its own moment. -/
def GrantBackend.answers (grants : GrantBackend) (db : Db) :
    List (Moment × GrantCall) → List GrantAnswer
  | [] => []
  | (m, call) :: rest =>
    (grants.call m call db).1 :: grants.answers (grants.call m call db).2 rest

/-- One call answers as the book does and leaves related states. -/
structure Follows (R : Book → Db → Prop) (b : Book) (call : GrantCall) (result : GrantAnswer × Db) :
    Prop where
  answer : result.1 = (b.step call).1
  next : R (b.step call).2 result.2

/-- A call follows the book if its answer and its state do. -/
theorem Follows.of_step {R : Book → Db → Prop} {b b' : Book} {call : GrantCall}
    {answer : GrantAnswer} {db : Db} (step : b.step call = (answer, b')) (related : R b' db) :
    Follows R b call (answer, db) := by
  constructor
  · rw [step]
  · rw [step]
    exact related

/-- A store that follows the book call by call gives the answers of the book. -/
theorem GrantBackend.answers_eq {grants : GrantBackend} {R : Book → Db → Prop}
    {ok : Book → Moment → GrantCall → Prop}
    (follow : ∀ b m call db, ok b m call → R b db → Follows R b call (grants.call m call db))
    {b : Book} {db : Db} (related : R b db) {run : List (Moment × GrantCall)}
    (meets : b.Meets ok run) : grants.answers db run = b.answers run := by
  induction run generalizing b db with
  | nil => rfl
  | cons entry rest ih =>
      rcases entry with ⟨m, call⟩
      rcases meets with ⟨now, later⟩
      have step := follow b m call db now related
      rw [GrantBackend.answers, Book.answers, step.answer, ih step.next later]

/-- No code has been saved yet. -/
def Db.withoutCodes (db : Db) : Db :=
  { db with authCodes := .empty, redis := .empty }

theorem Db.find?_markUsed (db : Db) (k k' : String) :
    (db.markUsed k).authCodes.find? k' =
      if k' = k then (db.authCodes.find? k).map fun c => { c with used := true }
      else db.authCodes.find? k' := by
  rw [Db.markUsed, Table.find?_updateWhere]
  split
  · next eq =>
      subst eq
      refine Option.map_congr fun c found => ?_
      have key : c.code = k' := Table.find?_key found
      exact if_pos (decide_eq_true key)
  · next ne =>
      rw [Option.map_congr (g := id), Option.map_id]
      · rfl
      · intro c found
        have key : c.code = k' := Table.find?_key found
        exact if_neg (by simp [key, ne])

/-- Setting the flag on a record the book holds too. -/
theorem Book.update_used {b : Book} {db : Db} {k : String} {c : OAuth2AuthCode}
    (found : db.authCodes.find? k = some c) {k' : String}
    (same : db.authCodes.find? k' = b.codes k') :
    (db.markUsed k).authCodes.find? k' =
      Function.update b.codes k (some { c with used := true }) k' := by
  rw [Db.find?_markUsed, Function.update_apply, found, same]
  rfl

/-! ## Memory -/

namespace MemoryGrantRepository

/-- A code is asked for only within its lifetime; nothing is purged. -/
def InScope (b : Book) (m : Moment) : GrantCall → Prop
  | .saveAuthCode _ => True
  | .getAuthCode k => ∀ c, b.codes k = some c → m.seconds < c.expiresAt
  | .consumeAuthCode _ _ => True
  | .purgeExpired => False

/-- The map of the repository is the book. -/
def Holds (b : Book) (db : Db) : Prop :=
  ∀ k, db.authCodes.find? k = b.codes k

/-- The memory repository saves as the book does. -/
theorem saveAuthCode_follows {b : Book} {db : Db} (holds : Holds b db) (m : Moment)
    (c : OAuth2AuthCode) :
    Follows Holds b (.saveAuthCode c) (GrantBackend.memory.call m (.saveAuthCode c) db) where
  answer := rfl
  next k := by
    show (db.authCodes.assign c).find? k = Function.update b.codes c.code (some c) k
    rw [Table.find?_assign, Function.update_apply, holds k]

/-- It reads as the book does, before the expiry. -/
theorem getAuthCode_follows {b : Book} {db : Db} (holds : Holds b db) {m : Moment} {k : String}
    (alive : ∀ c, b.codes k = some c → m.seconds < c.expiresAt) :
    Follows Holds b (.getAuthCode k) (GrantBackend.memory.call m (.getAuthCode k) db) := by
  have same : getAuthCode m k db = (b.codes k, db) := by
    unfold getAuthCode
    rw [holds k]
    cases found : b.codes k with
    | none => rfl
    | some c => exact if_pos (alive c found)
  show Follows Holds b _ (GrantAnswer.code (getAuthCode m k db).1, (getAuthCode m k db).2)
  rw [same]
  exact ⟨rfl, holds⟩

/-- It consumes as the book does. -/
theorem consumeAuthCode_follows {b : Book} {db : Db} (holds : Holds b db) (m : Moment)
    (k redirectUri : String) :
    Follows Holds b (.consumeAuthCode k redirectUri)
      (GrantBackend.memory.call m (.consumeAuthCode k redirectUri) db) := by
  show Follows Holds b _ (GrantAnswer.code (consumeAuthCode k redirectUri db).1,
    (consumeAuthCode k redirectUri db).2)
  have found := holds k
  unfold consumeAuthCode
  cases stored : b.codes k with
  | none =>
      rw [stored] at found
      rw [found]
      exact .of_step (Book.step_consume_absent stored) holds
  | some c =>
      rw [stored] at found
      rw [found]
      dsimp only
      split
      · next used => exact .of_step (Book.step_consume_used stored used) holds
      · next unused =>
          split
          · next differs => exact .of_step (Book.step_consume_mismatch stored unused differs) holds
          · next matching =>
              refine .of_step (Book.step_consume_match stored unused matching) fun k' => ?_
              exact Book.update_used found (holds k')

/-- **The memory repository follows the book**. -/
theorem follows {b : Book} {db : Db} {m : Moment} {call : GrantCall} (scope : InScope b m call)
    (holds : Holds b db) : Follows Holds b call (GrantBackend.memory.call m call db) := by
  cases call with
  | saveAuthCode c => exact saveAuthCode_follows holds m c
  | getAuthCode k => exact getAuthCode_follows holds scope
  | consumeAuthCode k redirectUri => exact consumeAuthCode_follows holds m k redirectUri
  | purgeExpired => exact scope.elim

end MemoryGrantRepository

/-- What is left out of a stored record reads back as it was. -/
structure OAuth2AuthCode.Canonical (c : OAuth2AuthCode) : Prop where
  method : c.codeChallenge = "" → c.codeChallengeMethod = ""
  authTime : 0 ≤ c.authTime

/-- The texts of a record. -/
def OAuth2AuthCode.texts (c : OAuth2AuthCode) : List String :=
  [c.code, c.clientId, c.userId, c.scope, c.redirectUri, c.codeChallenge, c.codeChallengeMethod,
    c.nonce, c.amr]

/-! ## Postgres -/

namespace PostgresGrantRepository

/-- The server answers, texts are free of NULs (`Sql` takes every text to be sent whole, and
the wire ends it at the first NUL), a code is saved once and within the schema, and no call is
made for a code after a redirect URI was refused for it. -/
def InScope (schema : Db) (b : Book) (m : Moment) : GrantCall → Prop
  | .saveAuthCode c =>
    (m.fault = false ∧ ∀ text ∈ c.texts, NulFree text) ∧ c.Canonical ∧
      Sql.codeFits schema c = true ∧ b.codes c.code = none
  | .getAuthCode k => (m.fault = false ∧ NulFree k) ∧ k ∉ b.refused
  | .consumeAuthCode k redirectUri =>
    (m.fault = false ∧ NulFree k ∧ NulFree redirectUri) ∧ k ∉ b.refused
  | .purgeExpired => False

/-- The table is the book, except for the codes a redirect URI was refused for. -/
structure Holds (schema : Db) (b : Book) (db : Db) : Prop where
  clients : db.clientIds = schema.clientIds
  orgs : db.orgIds = schema.orgIds
  refused : ∀ k ∈ b.refused, b.codes k ≠ none
  codes : ∀ k, k ∉ b.refused → db.authCodes.find? k = b.codes k

variable {schema : Db} {b : Book} {db : Db} {m : Moment}

/-- A canonical code is its own row. -/
theorem codeRow_of_canonical {c : OAuth2AuthCode} (canonical : c.Canonical) :
    Sql.codeRow c = c := by
  have method : (if c.codeChallenge = "" then "" else c.codeChallengeMethod) =
      c.codeChallengeMethod := by
    split
    · next empty => exact (canonical.method empty).symm
    · rfl
  have authTime : (if c.authTime > 0 then c.authTime else 0) = c.authTime := by
    have := canonical.authTime
    split <;> omega
  rw [Sql.codeRow, method, authTime]

/-- Postgres saves as the book does, under a new key. -/
theorem saveAuthCode_follows (holds : Holds schema b db) (ok : m.fault = false)
    {c : OAuth2AuthCode} (canonical : c.Canonical) (fits : Sql.codeFits schema c = true)
    (unsaved : b.codes c.code = none) :
    Follows (Holds schema) b (.saveAuthCode c)
      (GrantBackend.postgres.call m (.saveAuthCode c) db) := by
  have spared : c.code ∉ b.refused := fun mem => holds.refused _ mem unsaved
  have absent : db.authCodes.find? c.code = none := (holds.codes _ spared).trans unsaved
  have fits' : Sql.codeFits db c = true := by
    rw [← fits]
    simp only [Sql.codeFits, Sql.orgExists, holds.clients, holds.orgs]
  have inserted : (SqlOp.insertCode c).exec m db =
      (true, { db with authCodes := db.authCodes.assign c }) := by
    rw [SqlOp.exec_of_ok (by simp [ok]), SqlOp.effect, Sql.insertCode,
      codeRow_of_canonical canonical, if_pos fits', Table.insertNew_of_absent absent]
  show Follows (Holds schema) b _ (GrantAnswer.done, ((SqlOp.insertCode c).exec m db).2)
  rw [inserted]
  refine .of_step rfl ⟨holds.clients, holds.orgs, fun k mem => ?_, fun k free => ?_⟩
  · show Function.update b.codes c.code (some c) k ≠ none
    rw [Function.update_apply]
    split
    · simp
    · exact holds.refused k mem
  · show (db.authCodes.assign c).find? k = Function.update b.codes c.code (some c) k
    rw [Table.find?_assign, Function.update_apply, holds.codes k free]

/-- It reads as the book does, unless a consumption was refused. -/
theorem getAuthCode_follows (holds : Holds schema b db) (ok : m.fault = false) {k : String}
    (free : k ∉ b.refused) :
    Follows (Holds schema) b (.getAuthCode k)
      (GrantBackend.postgres.call m (.getAuthCode k) db) := by
  have selected : (SqlOp.selectCode k).exec m db = (b.codes k, db) := by
    rw [SqlOp.exec_of_ok (by simp [ok]), SqlOp.effect, Sql.selectCode, holds.codes k free]
  show Follows (Holds schema) b _ (GrantAnswer.code ((SqlOp.selectCode k).exec m db).1,
    ((SqlOp.selectCode k).exec m db).2)
  rw [selected]
  exact .of_step rfl holds

/-- The `UPDATE`, and the comparison of the redirect URI on the row it returned. -/
theorem call_consumeAuthCode (ok : m.fault = false) (k redirectUri : String) :
    GrantBackend.postgres.call m (.consumeAuthCode k redirectUri) db =
      (.code ((Sql.consumeCode k db).1.filter fun row => ¬ Book.mismatch row redirectUri),
        (Sql.consumeCode k db).2) := by
  have updated : (sql (.consumeCode k) : StoreProg (Option OAuth2AuthCode)).run (execOp m) db =
      Sql.consumeCode k db := by
    show (SqlOp.consumeCode k).exec m db = _
    rw [SqlOp.exec_of_ok (by simp [ok])]
    rfl
  show Prog.run (execOp m) (PostgresGrantRepository.consumeAuthCode k redirectUri >>= fun code =>
    pure (GrantAnswer.code code)) db = _
  rw [Prog.run_bind, PostgresGrantRepository.consumeAuthCode, Prog.run_bind, updated]
  cases (Sql.consumeCode k db).1 with
  | none => rfl
  | some row =>
      dsimp only
      by_cases differs : row.redirectUri ≠ "" ∧ redirectUri ≠ row.redirectUri
      · have mismatch : Book.mismatch row redirectUri := differs
        rw [if_pos differs, Option.filter_some, if_neg (by simp [mismatch])]
        rfl
      · have matching : ¬ Book.mismatch row redirectUri := differs
        rw [if_neg differs, Option.filter_some, if_pos (by simp [matching])]
        rfl

/-- It consumes as the book does, unless one was refused before. -/
theorem consumeAuthCode_follows (holds : Holds schema b db) (ok : m.fault = false) {k : String}
    (free : k ∉ b.refused) (redirectUri : String) :
    Follows (Holds schema) b (.consumeAuthCode k redirectUri)
      (GrantBackend.postgres.call m (.consumeAuthCode k redirectUri) db) := by
  have found := holds.codes k free
  rw [call_consumeAuthCode ok, Sql.consumeCode]
  cases stored : b.codes k with
  | none =>
      rw [stored] at found
      rw [found]
      exact .of_step (Book.step_consume_absent stored) holds
  | some c =>
      rw [stored] at found
      rw [found]
      dsimp only
      by_cases used : c.used = true
      · rw [if_pos used]
        exact .of_step (Book.step_consume_used stored used) holds
      · rw [if_neg used]
        by_cases differs : Book.mismatch c redirectUri
        · -- The row is marked all the same: from here on the table differs in `k`.
          have dropped : (some { c with used := true }).filter
              (fun row => decide ¬ Book.mismatch row redirectUri) = none := by
            rw [Option.filter_some, if_neg]
            simpa using differs
          rw [dropped]
          refine .of_step (Book.step_consume_mismatch stored used differs)
            ⟨holds.clients, holds.orgs, fun k' mem => ?_, fun k' free' => ?_⟩
          · rcases List.mem_cons.mp mem with rfl | before
            · show b.codes k' ≠ none
              simp [stored]
            · exact holds.refused k' before
          · simp only [List.mem_cons, not_or] at free'
            rw [Db.find?_markUsed, if_neg free'.1]
            exact holds.codes k' free'.2
        · have kept : (some { c with used := true }).filter
              (fun row => decide ¬ Book.mismatch row redirectUri) =
              some { c with used := true } := by
            rw [Option.filter_some, if_pos]
            simpa using differs
          rw [kept]
          refine .of_step (Book.step_consume_match stored used differs)
            ⟨holds.clients, holds.orgs, fun k' mem => ?_, fun k' free' => ?_⟩
          · show Function.update b.codes k _ k' ≠ none
            rw [Function.update_apply]
            split
            · simp
            · exact holds.refused k' mem
          · exact Book.update_used found (holds.codes k' free')

/-- **Postgres follows the book**. -/
theorem follows {call : GrantCall} (scope : InScope schema b m call) (holds : Holds schema b db) :
    Follows (Holds schema) b call (GrantBackend.postgres.call m call db) := by
  cases call with
  | saveAuthCode c =>
      rcases scope with ⟨⟨ok, -⟩, canonical, fits, unsaved⟩
      exact saveAuthCode_follows holds ok canonical fits unsaved
  | getAuthCode k => exact getAuthCode_follows holds scope.1.1 scope.2
  | consumeAuthCode k redirectUri => exact consumeAuthCode_follows holds scope.1.1 scope.2 _
  | purgeExpired => exact scope.elim

end PostgresGrantRepository

/-! ## Redis -/

namespace RedisGrantRepository

/-- The numbers of a record survive cjson, and so does its expiry as a key. -/
structure Exact (c : OAuth2AuthCode) : Prop where
  expiresAt : c.expiresAt.natAbs < 10 ^ 14
  authTime : c.authTime.natAbs < 10 ^ 14
  orgId : ∀ id, c.orgId = some id → id.natAbs < 10 ^ 14

/-- The server answers, codes and presented redirect URIs are free of NULs, records read back
as they were written, and no call is made for a code after its lifetime; a consumed code is not
read in its last half second. -/
def InScope (b : Book) (m : Moment) : GrantCall → Prop
  | .saveAuthCode c =>
      m.fault = false ∧ NulFree c.code ∧ m.now < 2 ^ 62 ∧ c.Canonical ∧ Exact c
  | .getAuthCode k => m.fault = false ∧ NulFree k ∧ ∀ c, b.codes k = some c →
      (m.now : Int) + (if c.used then 499 else 0) ≤ c.expiresAt * 1000
  | .consumeAuthCode k redirectUri => m.fault = false ∧ (NulFree k ∧ NulFree redirectUri) ∧
      ∀ c, b.codes k = some c → c.used = false → (m.now : Int) ≤ c.expiresAt * 1000
  | .purgeExpired => False

/-- The entry holds the record `c` of `k`, at least as long as `c` can be asked for. -/
structure Stores (k : String) (c : OAuth2AuthCode) (e : RedisEntry) : Prop where
  value : Redis.deserializeCode k e.value = c
  exact : Redis.cjsonRoundTrip e.value = e.value
  lasts : ∀ t, e.expireAt = some t → c.expiresAt * 1000 ≤ (t : Int) + (if c.used then 499 else 0)

/-- The keys are the book. -/
structure Holds (b : Book) (db : Db) : Prop where
  absent : ∀ k, NulFree k → b.codes k = none → db.redis.find? (Redis.codeKey k) = none
  stored : ∀ k c, b.codes k = some c → NulFree k ∧
    ∃ e, db.redis.find? (Redis.codeKey k) = some e ∧ Stores k c e

variable {b : Book} {db : Db} {m : Moment}

theorem codeKey_of_nulFree {k : String} (clean : NulFree k) :
    Redis.codeKey k = "oauth2:code:" ++ k := by
  refine cString_of_nulFree fun mem => ?_
  rw [String.toList_append] at mem
  rcases List.mem_append.mp mem with key | code
  · revert key
    decide
  · exact clean code

/-- Keys without a NUL belong to one code each. -/
theorem codeKey_inj {k k' : String} (clean : NulFree k) (clean' : NulFree k') :
    Redis.codeKey k = Redis.codeKey k' ↔ k = k' := by
  simp [codeKey_of_nulFree clean, codeKey_of_nulFree clean']

/-- Numbers below `10 ^ 14` keep their digits. -/
theorem cjsonNumber_of_small {n : Int} (small : n.natAbs < 10 ^ 14) : Redis.cjsonNumber n = n :=
  if_pos small

/-- Writing and reading back a canonical record. -/
theorem deserialize_serialize {c : OAuth2AuthCode} (canonical : c.Canonical) :
    Redis.deserializeCode c.code (Redis.serializeCode c) = c := by
  have text (s : String) : (if s = "" then none else some s).getD "" = s := by
    split
    · next empty => exact empty.symm
    · rfl
  have method : (if c.codeChallenge = "" then none else some c.codeChallengeMethod).getD "" =
      c.codeChallengeMethod := by
    split
    · next empty => exact (canonical.method empty).symm
    · rfl
  have authTime : (if c.authTime > 0 then some c.authTime else none).getD 0 = c.authTime := by
    have := canonical.authTime
    split
    · rfl
    · show (0 : Int) = _
      omega
  simp only [Redis.deserializeCode, Redis.serializeCode, text, method, authTime]

/-- An exact code survives the script. -/
theorem roundTrip_serialize {c : OAuth2AuthCode} (exact : Exact c) :
    Redis.cjsonRoundTrip (Redis.serializeCode c) = Redis.serializeCode c := by
  have authTime : (if c.authTime > 0 then some c.authTime else none).map Redis.cjsonNumber =
      if c.authTime > 0 then some c.authTime else none := by
    split
    · rw [Option.map_some, cjsonNumber_of_small exact.authTime]
    · rfl
  have orgId : c.orgId.map Redis.cjsonNumber = c.orgId := by
    cases org : c.orgId with
    | none => rfl
    | some id => rw [Option.map_some, cjsonNumber_of_small (exact.orgId id org)]
  simp only [Redis.cjsonRoundTrip, Redis.serializeCode, cjsonNumber_of_small exact.expiresAt,
    authTime, orgId]

/-- An entry is there as long as its code is good. -/
theorem Stores.alive {k : String} {c : OAuth2AuthCode} {e : RedisEntry} (stores : Stores k c e)
    {now : Nat} (inTime : (now : Int) + (if c.used then 499 else 0) ≤ c.expiresAt * 1000) :
    e.alive now = true := by
  unfold RedisEntry.alive
  split
  · rfl
  · next t expireAt =>
      have := stores.lasts t expireAt
      exact decide_eq_true (by omega)

/-- A save makes the entry of its code, and leaves the others alone. -/
theorem Holds.put (holds : Holds b db) {k : String} (clean : NulFree k) {c : OAuth2AuthCode}
    {e : RedisEntry} (key : e.key = Redis.codeKey k) (stores : Stores k c e) :
    Holds { b with codes := Function.update b.codes k (some c) }
      { db with redis := db.redis.assign e } := by
  have other : ∀ {k'}, NulFree k' → k' ≠ k → (db.redis.assign e).find? (Redis.codeKey k') =
      db.redis.find? (Redis.codeKey k') := by
    intro k' clean' ne
    rw [Table.find?_assign, if_neg]
    rw [key]
    exact fun eq => ne ((codeKey_inj clean' clean).mp eq)
  constructor
  · intro k' clean' absent
    dsimp only at absent
    by_cases eq : k' = k
    · subst eq
      simp at absent
    · rw [Function.update_of_ne eq] at absent
      exact (other clean' eq).trans (holds.absent k' clean' absent)
  · intro k' c' found
    dsimp only at found
    by_cases eq : k' = k
    · subst eq
      rw [Function.update_self] at found
      cases found
      refine ⟨clean, e, ?_, stores⟩
      rw [Table.find?_assign, if_pos key.symm]
    · rw [Function.update_of_ne eq] at found
      obtain ⟨clean', e', found', stores'⟩ := holds.stored k' c' found
      exact ⟨clean', e', (other clean' eq).trans found', stores'⟩

/-- Redis saves as the book does. -/
theorem saveAuthCode_follows (holds : Holds b db) (ok : m.fault = false) {c : OAuth2AuthCode}
    (clean : NulFree c.code) (early : m.now < 2 ^ 62) (canonical : c.Canonical)
    (exact : Exact c) :
    Follows Holds b (.saveAuthCode c) (GrantBackend.redis.call m (.saveAuthCode c) db) := by
  let ttl : Nat := if c.expiresAt > m.seconds then (c.expiresAt - m.seconds).toNat else 1
  have bounds : m.now + ttl * 1000 < 2 ^ 63 ∧
      c.expiresAt * 1000 ≤ ((m.now + ttl * 1000 : Nat) : Int) := by
    have seconds : m.seconds = ((m.now / 1000 : Nat) : Int) := rfl
    have small := exact.expiresAt
    simp only [ttl]
    split <;> omega
  let e : RedisEntry :=
    { key := Redis.codeKey c.code, value := Redis.serializeCode c
      expireAt := some (m.now + ttl * 1000) }
  have set : (RedisOp.setex (Redis.codeKey c.code) ttl (Redis.serializeCode c)).exec m db =
      (true, { db with redis := db.redis.assign e }) := by
    rw [RedisOp.exec_of_ok (by simp [ok]), RedisOp.effect, Redis.setex, if_pos bounds.1]
  show Follows Holds b _ (GrantAnswer.done,
    ((RedisOp.setex (Redis.codeKey c.code) ttl (Redis.serializeCode c)).exec m db).2)
  rw [set]
  refine .of_step rfl (holds.put clean rfl
    ⟨deserialize_serialize canonical, roundTrip_serialize exact, ?_⟩)
  intro t eq
  cases eq
  split
  · omega
  · simpa using bounds.2

/-- It reads as the book does, within the lifetime. -/
theorem getAuthCode_follows (holds : Holds b db) (ok : m.fault = false) {k : String}
    (clean : NulFree k) (inTime : ∀ c, b.codes k = some c →
      (m.now : Int) + (if c.used then 499 else 0) ≤ c.expiresAt * 1000) :
    Follows Holds b (.getAuthCode k) (GrantBackend.redis.call m (.getAuthCode k) db) := by
  have got : (RedisOp.get (Redis.codeKey k)).exec m db =
      ((Redis.lookup m.now (Redis.codeKey k) db).map RedisEntry.value, db) := by
    rw [RedisOp.exec_of_ok (by simp [ok])]
    rfl
  show Follows Holds b _ (GrantAnswer.code (((RedisOp.get (Redis.codeKey k)).exec m db).1.map
    (Redis.deserializeCode k)), ((RedisOp.get (Redis.codeKey k)).exec m db).2)
  rw [got, Redis.lookup]
  cases found : b.codes k with
  | none =>
      rw [holds.absent k clean found]
      exact .of_step (by rw [Book.step, found]; rfl) holds
  | some c =>
      obtain ⟨_, e, stored, stores⟩ := holds.stored k c found
      rw [stored, Option.filter_some, if_pos (stores.alive (inTime c found)), Option.map_some,
        Option.map_some, stores.value]
      exact .of_step (by rw [Book.step, found]) holds

theorem call_consumeAuthCode (ok : m.fault = false) (k : String) {redirectUri : String}
    (clean : NulFree redirectUri) : GrantBackend.redis.call m (.consumeAuthCode k redirectUri) db =
      (.code ((Redis.consumeScript m.now (Redis.codeKey k) redirectUri db).1.map fun j =>
          { Redis.deserializeCode k j with used := true }),
        (Redis.consumeScript m.now (Redis.codeKey k) redirectUri db).2) := by
  have exec : (RedisOp.consumeScript (Redis.codeKey k) redirectUri).exec m db =
      Redis.consumeScript m.now (Redis.codeKey k) redirectUri db := by
    rw [RedisOp.exec_of_ok (by simp [ok])]
    rfl
  rw [← exec]
  have whole := cString_of_nulFree clean
  conv_rhs => rw [← whole]
  rfl

/-- The entry the script writes back holds the used record. -/
theorem Stores.consumed {k : String} {c : OAuth2AuthCode} {e : RedisEntry} (stores : Stores k c e)
    (unused : c.used = false) {now : Nat} (alive : e.alive now = true) (key : String) :
    Stores k { c with used := true } (Redis.consumed now key e) := by
  have value : Redis.cjsonRoundTrip { e.value with used := true } =
      { e.value with used := true } := by
    have expiresAt : Redis.cjsonNumber e.value.expiresAt = e.value.expiresAt :=
      congrArg CodeJson.expiresAt stores.exact
    have authTime : e.value.authTime.map Redis.cjsonNumber = e.value.authTime :=
      congrArg CodeJson.authTime stores.exact
    have orgId : e.value.orgId.map Redis.cjsonNumber = e.value.orgId :=
      congrArg CodeJson.orgId stores.exact
    simp only [Redis.cjsonRoundTrip, expiresAt, authTime, orgId]
  constructor
  · rw [Redis.consumed, value, ← stores.value]
    rfl
  · rw [Redis.consumed, value, value]
  · intro t expireAt
    rcases Option.ite_none_right_eq_some.mp expireAt with ⟨positive, eq⟩
    cases eq
    unfold Redis.ttl at positive ⊢
    cases ending : e.expireAt with
    | none =>
        rw [ending] at positive
        simp at positive
    | some t =>
        have lasts := stores.lasts t ending
        have alive' : now ≤ t := by
          simpa [RedisEntry.alive, ending] using alive
        rw [unused] at lasts
        simp only [Bool.false_eq_true, if_false] at lasts
        simp only [if_true]
        omega

/-- It consumes as the book does, for texts without a NUL. -/
theorem consumeAuthCode_follows (holds : Holds b db) (ok : m.fault = false) {k : String}
    {redirectUri : String} (clean : NulFree k ∧ NulFree redirectUri)
    (inTime : ∀ c, b.codes k = some c → c.used = false → (m.now : Int) ≤ c.expiresAt * 1000) :
    Follows Holds b (.consumeAuthCode k redirectUri)
      (GrantBackend.redis.call m (.consumeAuthCode k redirectUri) db) := by
  rw [call_consumeAuthCode ok k clean.2]
  cases found : b.codes k with
  | none =>
      rw [Redis.consumeScript_absent (by rw [Redis.lookup, holds.absent k clean.1 found]; rfl)]
      exact .of_step (Book.step_consume_absent found) holds
  | some c =>
      obtain ⟨_, e, stored, stores⟩ := holds.stored k c found
      have used : e.value.used = c.used := by
        rw [← stores.value]
        rfl
      have redirect : e.value.redirectUri = c.redirectUri := by
        rw [← stores.value]
        rfl
      have lookup : Redis.lookup m.now (Redis.codeKey k) db =
          if e.alive m.now = true then some e else none := by
        rw [Redis.lookup, stored, Option.filter_some]
      cases flag : c.used with
      | true =>
          have refused :
              Redis.consumeScript m.now (Redis.codeKey k) redirectUri db = (none, db) := by
            by_cases alive : e.alive m.now = true
            · rw [if_pos alive] at lookup
              exact Redis.consumeScript_used lookup (used.trans flag)
            · rw [if_neg alive] at lookup
              exact Redis.consumeScript_absent lookup
          rw [refused]
          exact .of_step (Book.step_consume_used found flag) holds
      | false =>
          have unused : ¬ c.used = true := by simp [flag]
          have alive : e.alive m.now = true := by
            refine stores.alive ?_
            have := inTime c found flag
            simpa [flag] using this
          rw [if_pos alive] at lookup
          by_cases differs : Book.mismatch c redirectUri
          · rw [Redis.consumeScript_mismatch lookup (by rwa [used]) (by rwa [redirect])]
            exact .of_step (Book.step_consume_mismatch found unused differs)
              ⟨holds.absent, holds.stored⟩
          · have consumed := stores.consumed flag alive (Redis.codeKey k)
            rw [Redis.consumeScript_match lookup (by rwa [used]) (by rwa [redirect])]
            refine .of_step ?_ (holds.put clean.1 rfl consumed)
            rw [Book.step_consume_match found unused differs, Option.map_some, consumed.value]

/-- **Redis follows the book**. -/
theorem follows {call : GrantCall} (scope : InScope b m call) (holds : Holds b db) :
    Follows Holds b call (GrantBackend.redis.call m call db) := by
  cases call with
  | saveAuthCode c =>
      obtain ⟨ok, clean, early, canonical, exact⟩ := scope
      exact saveAuthCode_follows holds ok clean early canonical exact
  | getAuthCode k => exact getAuthCode_follows holds scope.1 scope.2.1 scope.2.2
  | consumeAuthCode k redirectUri =>
      exact consumeAuthCode_follows holds scope.1 scope.2.1 scope.2.2
  | purgeExpired => exact scope.elim

end RedisGrantRepository

/-! ## Refused consumptions -/

namespace Book

variable {k : String} {c : OAuth2AuthCode}

theorem answers_append (b : Book) (run run' : List (Moment × GrantCall)) :
    b.answers (run ++ run') = b.answers run ++ (b.after run).answers run' := by
  induction run generalizing b with
  | nil => rfl
  | cons entry rest ih =>
      rcases entry with ⟨m, call⟩
      show (b.step call).1 :: (b.step call).2.answers (rest ++ run') = _
      rw [ih]
      rfl

/-- The call neither saves `k` again nor consumes it with the URI recorded in `c`. -/
def Spares (k : String) (c : OAuth2AuthCode) : GrantCall → Prop
  | .saveAuthCode c' => c'.code ≠ k
  | .getAuthCode _ => True
  | .consumeAuthCode k' redirectUri => k' = k → mismatch c redirectUri
  | .purgeExpired => True

/-- A call that spares a code leaves it in the book. -/
theorem codes_of_spares {b : Book} (found : b.codes k = some c) (unused : ¬ c.used = true)
    {call : GrantCall} (spares : Spares k c call) : (b.step call).2.codes k = some c := by
  cases call with
  | saveAuthCode c' =>
      show Function.update b.codes c'.code (some c') k = some c
      rw [Function.update_of_ne (Ne.symm spares)]
      exact found
  | getAuthCode k' => exact found
  | consumeAuthCode k' redirectUri =>
      by_cases eq : k' = k
      · subst eq
        rw [step_consume_mismatch found unused (spares rfl)]
        exact found
      · show (b.consume k' redirectUri).2.codes k = some c
        unfold consume
        split
        · exact found
        · split
          · exact found
          · split
            · exact found
            · show Function.update b.codes k' _ k = some c
              rw [Function.update_of_ne (Ne.symm eq)]
              exact found
  | purgeExpired => exact found

/-- So does a run that spares it. -/
theorem codes_after {b : Book} (found : b.codes k = some c) (unused : ¬ c.used = true)
    {run : List (Moment × GrantCall)} (spares : ∀ entry ∈ run, Spares k c entry.2) :
    (b.after run).codes k = some c := by
  induction run generalizing b with
  | nil => exact found
  | cons entry rest ih =>
      refine ih (codes_of_spares found unused (spares entry (List.mem_cons_self ..))) ?_
      intro entry' mem
      exact spares entry' (List.mem_cons_of_mem _ mem)

/-- After a refused consumption, and whatever spares the code, the book delivers it. -/
theorem delivers_after_refusal {b : Book} {pre mid : List (Moment × GrantCall)} {m m' : Moment}
    {redirectUri : String} (found : (b.after pre).codes k = some c) (unused : ¬ c.used = true)
    (differs : mismatch c redirectUri) (spares : ∀ entry ∈ mid, Spares k c entry.2) :
    (b.answers (pre ++ (m, GrantCall.consumeAuthCode k redirectUri) ::
      (mid ++ [(m', GrantCall.consumeAuthCode k c.redirectUri)]))).getLast? =
      some (.code (some { c with used := true })) := by
  let before := pre ++ (m, GrantCall.consumeAuthCode k redirectUri) :: mid
  have kept : (b.after before).codes k = some c := by
    rw [after, List.foldl_append]
    refine codes_after found unused fun entry mem => ?_
    rcases List.mem_cons.mp mem with rfl | later
    · exact fun _ => differs
    · exact spares entry later
  have last : ((b.after before).step (.consumeAuthCode k c.redirectUri)).1 =
      .code (some { c with used := true }) := by
    rw [step_consume_match kept unused fun bad => bad.2 rfl]
  have split : pre ++ (m, GrantCall.consumeAuthCode k redirectUri) ::
      (mid ++ [(m', GrantCall.consumeAuthCode k c.redirectUri)]) =
      before ++ [(m', GrantCall.consumeAuthCode k c.redirectUri)] := by
    simp [before]
  rw [split, answers_append, ← last]
  exact List.getLast?_concat

end Book

/-! ## The stores compared -/

/-- Each store gives the answers of the book on every sequential run that meets its
conditions, so the stores agree on the runs that meet all of them; and on memory and
Redis a consumption refused for its redirect URI leaves the code to a later call that
presents the right one. -/
theorem grant_stores_follow_book (db : Db) (run : List (Moment × GrantCall)) :
    (Book.empty.Meets MemoryGrantRepository.InScope run →
        GrantBackend.memory.answers db.withoutCodes run = Book.empty.answers run) ∧
      (Book.empty.Meets RedisGrantRepository.InScope run →
        GrantBackend.redis.answers db.withoutCodes run = Book.empty.answers run) ∧
      (Book.empty.Meets (PostgresGrantRepository.InScope db) run →
        GrantBackend.postgres.answers db.withoutCodes run = Book.empty.answers run) ∧
      ∀ pre mid m m' k redirectUri c,
        run = pre ++ (m, .consumeAuthCode k redirectUri) ::
          (mid ++ [(m', .consumeAuthCode k c.redirectUri)]) →
        (Book.empty.after pre).codes k = some c → c.used = false → Book.mismatch c redirectUri →
        (∀ entry ∈ mid, Book.Spares k c entry.2) →
        (Book.empty.Meets MemoryGrantRepository.InScope run →
            (GrantBackend.memory.answers db.withoutCodes run).getLast? =
              some (.code (some { c with used := true }))) ∧
          (Book.empty.Meets RedisGrantRepository.InScope run →
            (GrantBackend.redis.answers db.withoutCodes run).getLast? =
              some (.code (some { c with used := true }))) := by
  have memory : Book.empty.Meets MemoryGrantRepository.InScope run →
      GrantBackend.memory.answers db.withoutCodes run = Book.empty.answers run :=
    GrantBackend.answers_eq (fun _ _ _ _ scope holds => MemoryGrantRepository.follows scope holds)
      fun _ => rfl
  have redis : Book.empty.Meets RedisGrantRepository.InScope run →
      GrantBackend.redis.answers db.withoutCodes run = Book.empty.answers run :=
    GrantBackend.answers_eq (fun _ _ _ _ scope holds => RedisGrantRepository.follows scope holds)
      ⟨fun _ _ _ => rfl, fun _ _ found => by cases found⟩
  have start : PostgresGrantRepository.Holds db Book.empty db.withoutCodes :=
    ⟨rfl, rfl, fun _ mem => absurd mem List.not_mem_nil, fun _ _ => rfl⟩
  have postgres : Book.empty.Meets (PostgresGrantRepository.InScope db) run →
      GrantBackend.postgres.answers db.withoutCodes run = Book.empty.answers run :=
    GrantBackend.answers_eq (fun _ _ _ _ scope holds => PostgresGrantRepository.follows scope holds)
      start
  refine ⟨memory, redis, postgres, ?_⟩
  intro pre mid m m' k redirectUri c eq found unused differs spares
  have delivered :
      (Book.empty.answers run).getLast? = some (.code (some { c with used := true })) := by
    rw [eq]
    exact Book.delivers_after_refusal found (by simp [unused]) differs spares
  constructor
  · intro meets
    rw [memory meets]
    exact delivered
  · intro meets
    rw [redis meets]
    exact delivered

/-- A code that lives until second 600. -/
def bookCode : OAuth2AuthCode :=
  { code := "c", clientId := "app", userId := "alice", scope := "openid", redirectUri := "u"
    codeChallenge := "", codeChallengeMethod := "", nonce := "", expiresAt := 600 }

/-- A code saved, read and consumed. -/
def bookRun : List (Moment × GrantCall) :=
  [({ now := 1000 }, .saveAuthCode bookCode), ({ now := 2000 }, .getAuthCode "c"),
    ({ now := 3000 }, .consumeAuthCode "c" "u"), ({ now := 4000 }, .getAuthCode "c")]

theorem bookCode_canonical : bookCode.Canonical :=
  ⟨fun _ => rfl, by decide⟩

theorem bookCode_exact : RedisGrantRepository.Exact bookCode :=
  ⟨by decide, by decide, fun _ none => by cases none⟩

/-- A run within the conditions of all three stores. -/
theorem grant_stores_follow_book_sample :
    GrantBackend.memory.answers ({ clientIds := ["app"] } : Db).withoutCodes bookRun =
        Book.empty.answers bookRun ∧
      GrantBackend.redis.answers ({ clientIds := ["app"] } : Db).withoutCodes bookRun =
        Book.empty.answers bookRun ∧
      GrantBackend.postgres.answers ({ clientIds := ["app"] } : Db).withoutCodes bookRun =
        Book.empty.answers bookRun := by
  rcases grant_stores_follow_book { clientIds := ["app"] } bookRun with
    ⟨memory, redis, postgres, -⟩
  refine ⟨memory ?_, redis ?_, postgres ?_⟩
  · simp [bookRun, Book.Meets, MemoryGrantRepository.InScope, Book.step, Book.consume,
      Book.mismatch, Book.empty, bookCode, Moment.seconds]
  · simp [bookRun, Book.Meets, RedisGrantRepository.InScope, Book.step, Book.consume,
      Book.mismatch, Book.empty, bookCode_canonical, bookCode_exact]
    simp [bookCode]
    decide
  · have fits : Sql.codeFits { clientIds := ["app"] } bookCode = true := by decide +kernel
    simp [bookRun, Book.Meets, PostgresGrantRepository.InScope, Book.step, Book.consume,
      Book.mismatch, Book.empty, bookCode_canonical, fits]
    simp [bookCode]
    decide

/-- A code that has expired before it is asked for: memory and Redis have forgotten it,
Postgres has not. -/
theorem grant_stores_differ :
    let run : List (Moment × GrantCall) :=
      [({ now := 1000 }, .saveAuthCode bookCode), ({ now := 1000000 }, .getAuthCode "c")]
    GrantBackend.memory.answers { clientIds := ["app"] } run = [.done, .code none] ∧
      GrantBackend.redis.answers { clientIds := ["app"] } run = [.done, .code none] ∧
      GrantBackend.postgres.answers { clientIds := ["app"] } run =
        [.done, .code (some bookCode)] := by
  decide +kernel

end Fulla
