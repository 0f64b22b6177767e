import Fulla.Storage.Repository

/-!
# Calls of a grant repository

The calls `IGrantRepository` takes on authorization codes, as threads of a pool
over one of the three grant stores.  A code is *fresh* in a store while an unused
record lies under its key.  Whatever the store, one atomic step makes a code fresh
only by saving it, and a step that takes a code finds it fresh and leaves it spent
(`execOp_grant`).
-/

namespace Fulla

open Conc

/-- A call of the grant repository. -/
inductive GrantCall where
  | saveAuthCode (code : OAuth2AuthCode)
  | getAuthCode (code : String)
  | consumeAuthCode (code redirectUri : String)
  | purgeExpired
deriving DecidableEq, Repr

/-- What a call answers. -/
inductive GrantAnswer where
  | done
  | code (code : Option OAuth2AuthCode)
deriving DecidableEq, Repr

/-- The program that a call runs. -/
def GrantCall.prog (grants : GrantRepository) : GrantCall → StoreProg GrantAnswer
  | saveAuthCode code => (fun _ => GrantAnswer.done) <$> grants.saveAuthCode code
  | getAuthCode code => GrantAnswer.code <$> grants.getAuthCode code
  | consumeAuthCode code redirectUri =>
    GrantAnswer.code <$> grants.consumeAuthCode code redirectUri
  | purgeExpired => (fun _ => GrantAnswer.done) <$> grants.purgeExpired

/-- Any number of calls over one store. -/
def startGrants {ι : Type} (grants : GrantBackend) (calls : ι → GrantCall) (db : Db) :
    Pool StoreSig ι GrantAnswer (StoreWorld ι) where
  store := World.start db
  prog i := (calls i).prog grants.repository

/-- Run a schedule of the calls. -/
def runGrants {ι : Type} [DecidableEq ι] (env : Env) (grants : GrantBackend)
    (calls : ι → GrantCall) (db : Db) (sched : List ι) :
    Pool StoreSig ι GrantAnswer (StoreWorld ι) :=
  (startGrants grants calls db).run (World.handler (exec env)) sched

/-! ## Saving and taking -/

/-- The operation has stored a record under `k`. -/
def savesCode (k : String) : (o : StoreOp) → StoreSig.Res o → Bool
  | .mem (.saveAuthCode c), _ => c.code = k
  | .sql (.insertCode c), ok => (ok : Bool) && c.code = k
  | .redis (.setex key _ _), ok => (ok : Bool) && key = Redis.codeKey k
  | _, _ => false

/-- The operation has taken the record under `k`. -/
def takesCode (k : String) : (o : StoreOp) → StoreSig.Res o → Bool
  | .mem (.consumeAuthCode k' _), res => k' = k && (res : Option OAuth2AuthCode).isSome
  | .sql (.consumeCode k'), res => k' = k && (res : Option OAuth2AuthCode).isSome
  | .redis (.consumeScript key _), res =>
    key = Redis.codeKey k && (res : Option CodeJson).isSome
  | _, _ => false

/-- An unused row lies under `k`. -/
def Db.FreshRow (db : Db) (k : String) : Prop :=
  ∃ c, db.authCodes.find? k = some c ∧ c.used = false

/-- An unused Redis entry lies under the key of `k`. -/
def Db.FreshEntry (db : Db) (k : String) : Prop :=
  ∃ e, db.redis.find? (Redis.codeKey k) = some e ∧ e.value.used = false

/-- The code stored under `k` can still be taken. -/
def Db.FreshCode (db : Db) (k : String) : GrantBackend → Prop
  | .memory => db.FreshRow k
  | .redis => db.FreshEntry k
  | .postgres => db.FreshRow k

/-- The locked methods of `MemoryGrantRepository`. -/
def MemOp.isGrant : MemOp → Bool
  | .saveAuthCode _ => true
  | .getAuthCode _ => true
  | .consumeAuthCode _ _ => true
  | .purgeExpiredGrants => true
  | _ => false

/-- The statements of `PostgresGrantRepository`. -/
def SqlOp.isGrant : SqlOp → Bool
  | .insertCode _ => true
  | .selectCode _ => true
  | .consumeCode _ => true
  | .deleteExpiredCodes _ => true
  | _ => false

/-- The operations the grant repository of a store consists of. -/
def grantOp : GrantBackend → StoreOp → Bool
  | .memory, .mem o => o.isGrant
  | .postgres, .sql o => o.isGrant
  | .redis, .redis _ => true
  | _, .env _ => true
  | _, _ => false

/-- A call runs operations of its own backend. -/
theorem GrantCall.prog_only (grants : GrantBackend) (call : GrantCall) :
    (call.prog grants.repository).Only fun o => grantOp grants o = true := by
  cases grants with
  | memory => cases call <;> exact ⟨rfl, fun _ => trivial⟩
  | redis =>
      cases call with
      | saveAuthCode c => exact ⟨rfl, fun _ => ⟨rfl, fun _ => trivial⟩⟩
      | getAuthCode k => exact ⟨rfl, fun _ => trivial⟩
      | consumeAuthCode k redirectUri => exact ⟨rfl, fun _ => trivial⟩
      | purgeExpired => trivial
  | postgres =>
      cases call with
      | saveAuthCode c => exact ⟨rfl, fun _ => trivial⟩
      | getAuthCode k => exact ⟨rfl, fun _ => trivial⟩
      | consumeAuthCode k redirectUri =>
          refine ⟨rfl, fun row => ?_⟩
          cases row with
          | none => trivial
          | some row =>
              show Prog.Only _ (GrantAnswer.code <$> if _ then _ else _)
              split <;> trivial
      | purgeExpired => exact ⟨rfl, fun _ => ⟨rfl, fun _ => trivial⟩⟩

/-- What one operation can do to the record under `k`: become fresh only by a save,
be taken only when fresh, and never stay fresh when taken. -/
structure CodeStep (grants : GrantBackend) (k : String) (o : StoreOp) (res : StoreSig.Res o)
    (db db' : Db) : Prop where
  fresh : db'.FreshCode k grants → db.FreshCode k grants ∨ savesCode k o res = true
  taken : takesCode k o res = true → db.FreshCode k grants ∧ ¬ db'.FreshCode k grants

theorem CodeStep.of_idle {grants : GrantBackend} {k : String} {o : StoreOp}
    {res : StoreSig.Res o} {db db' : Db}
    (fresh : db'.FreshCode k grants → db.FreshCode k grants) (idle : takesCode k o res = false) :
    CodeStep grants k o res db db' where
  fresh isFresh := Or.inl (fresh isFresh)
  taken taken := by
    rw [idle] at taken
    cases taken

/-! ### Rows -/

section Rows

variable {db db' : Db} {k : String}

theorem Db.FreshRow.of_assign {c : OAuth2AuthCode}
    (fresh : Db.FreshRow { db with authCodes := db.authCodes.assign c } k) :
    db.FreshRow k ∨ c.code = k := by
  rcases fresh with ⟨c', found, unused⟩
  rw [Table.find?_assign] at found
  split at found
  · next eq => exact Or.inr eq.symm
  · exact Or.inl ⟨c', found, unused⟩

/-- Rows only went away. -/
theorem Db.FreshRow.of_found (fresh : db'.FreshRow k)
    (found : ∀ c, db'.authCodes.find? k = some c → db.authCodes.find? k = some c) :
    db.FreshRow k := by
  rcases fresh with ⟨c, found', unused⟩
  exact ⟨c, found c found', unused⟩

theorem Db.FreshRow.of_markUsed {k' : String} (fresh : (db.markUsed k').FreshRow k) :
    db.FreshRow k := by
  rcases fresh with ⟨c', found, unused⟩
  rw [Db.markUsed, Table.find?_updateWhere] at found
  rcases Option.map_eq_some_iff.mp found with ⟨c, found', eq⟩
  refine ⟨c, found', ?_⟩
  split at eq
  · rw [← eq] at unused
    cases unused
  · rw [eq]
    exact unused

theorem Db.not_freshRow_markUsed : ¬ (db.markUsed k).FreshRow k := by
  intro fresh
  rcases fresh with ⟨c', found, unused⟩
  rw [Db.markUsed, Table.find?_updateWhere] at found
  rcases Option.map_eq_some_iff.mp found with ⟨c, found', eq⟩
  have key : c.code = k := Table.find?_key found'
  rw [if_pos (decide_eq_true key)] at eq
  rw [← eq] at unused
  cases unused

end Rows

/-! ### Memory -/

section Memory

variable (m : Moment) (db : Db) (k : String)

theorem MemoryGrantRepository.saveAuthCode_step (c : OAuth2AuthCode) :
    CodeStep .memory k (.mem (.saveAuthCode c)) (saveAuthCode c db).1 db (saveAuthCode c db).2 where
  fresh fresh := by
    rcases Db.FreshRow.of_assign fresh with before | eq
    · exact Or.inl before
    · exact Or.inr (decide_eq_true eq)
  taken taken := by cases taken

theorem MemoryGrantRepository.getAuthCode_step (k' : String) :
    CodeStep .memory k (.mem (.getAuthCode k')) (getAuthCode m k' db).1 db
      (getAuthCode m k' db).2 := by
  refine .of_idle ?_ rfl
  unfold getAuthCode
  split
  · exact id
  · split
    · exact id
    · intro fresh
      refine Db.FreshRow.of_found fresh fun c found => ?_
      rw [Table.find?_erase] at found
      split at found
      · cases found
      · exact found

/-- **A consumption in the memory repository is a step of the code**. -/
theorem MemoryGrantRepository.consumeAuthCode_step (k' redirectUri : String) :
    CodeStep .memory k (.mem (.consumeAuthCode k' redirectUri))
      (consumeAuthCode k' redirectUri db).1 db (consumeAuthCode k' redirectUri db).2 := by
  have idle : CodeStep .memory k (.mem (.consumeAuthCode k' redirectUri)) none db db := by
    refine .of_idle id ?_
    simp [takesCode]
  unfold consumeAuthCode
  split
  · exact idle
  · next c found =>
      split
      · exact idle
      · next unused =>
          split
          · exact idle
          · constructor
            · exact fun fresh => Or.inl fresh.of_markUsed
            · intro taken
              simp only [takesCode, Bool.and_eq_true, decide_eq_true_eq] at taken
              rcases taken with ⟨rfl, -⟩
              exact ⟨⟨c, found, by simpa using unused⟩, Db.not_freshRow_markUsed⟩

theorem MemoryGrantRepository.purgeExpired_step :
    CodeStep .memory k (.mem .purgeExpiredGrants) (purgeExpired m db).1 db
      (purgeExpired m db).2 := by
  refine .of_idle (fun fresh => ?_) rfl
  refine Db.FreshRow.of_found fresh fun c found => ?_
  exact (Option.filter_eq_some_iff.mp ((Table.find?_keep ..).symm.trans found)).1

end Memory

/-! ### Postgres -/

section Postgres

variable (m : Moment) (db : Db) (k : String)

/-- An `INSERT` is a step of the code. -/
theorem Sql.insertCode_step (c : OAuth2AuthCode) :
    CodeStep .postgres k (.sql (.insertCode c)) (insertCode c db).1 db (insertCode c db).2 := by
  unfold insertCode
  split
  · split
    · next codes inserted =>
        rcases Table.insertNew_eq_some.mp inserted with ⟨-, rfl⟩
        constructor
        · intro fresh
          rcases Db.FreshRow.of_assign fresh with before | eq
          · exact Or.inl before
          · exact Or.inr (decide_eq_true eq)
        · intro taken
          cases taken
    · exact .of_idle id rfl
  · exact .of_idle id rfl

/-- **The consuming `UPDATE` is a step of the code**. -/
theorem Sql.consumeCode_step (k' : String) :
    CodeStep .postgres k (.sql (.consumeCode k')) (consumeCode k' db).1 db
      (consumeCode k' db).2 := by
  have idle : CodeStep .postgres k (.sql (.consumeCode k')) none db db := by
    refine .of_idle id ?_
    simp [takesCode]
  unfold consumeCode
  split
  · exact idle
  · next c found =>
      split
      · exact idle
      · next unused =>
          constructor
          · exact fun fresh => Or.inl fresh.of_markUsed
          · intro taken
            simp only [takesCode, Bool.and_eq_true, decide_eq_true_eq] at taken
            rcases taken with ⟨rfl, -⟩
            exact ⟨⟨c, found, by simpa using unused⟩, Db.not_freshRow_markUsed⟩

theorem Sql.deleteExpiredCodes_step (now : Int) :
    CodeStep .postgres k (.sql (.deleteExpiredCodes now)) (deleteExpiredCodes now db).1 db
      (deleteExpiredCodes now db).2 := by
  refine .of_idle (fun fresh => ?_) rfl
  refine Db.FreshRow.of_found fresh fun c found => ?_
  exact (Option.filter_eq_some_iff.mp ((Table.find?_keep ..).symm.trans found)).1

end Postgres

/-! ### Redis -/

section Redis

variable (now : Nat) (db : Db) (k : String)

theorem Db.FreshEntry.of_assign {db : Db} {k : String} {e : RedisEntry}
    (fresh : Db.FreshEntry { db with redis := db.redis.assign e } k) :
    db.FreshEntry k ∨ e.key = Redis.codeKey k ∧ e.value.used = false := by
  rcases fresh with ⟨e', found, unused⟩
  rw [Table.find?_assign] at found
  split at found
  · next eq =>
      cases found
      exact Or.inr ⟨eq.symm, unused⟩
  · exact Or.inl ⟨e', found, unused⟩

theorem Db.not_freshEntry_assign {e : RedisEntry} (key : e.key = Redis.codeKey k)
    (used : e.value.used = true) : ¬ Db.FreshEntry { db with redis := db.redis.assign e } k := by
  intro fresh
  rcases fresh with ⟨e', found, unused⟩
  rw [Table.find?_assign, if_pos key.symm] at found
  cases found
  rw [used] at unused
  cases unused

/-- A `SETEX` is a step of the code. -/
theorem Redis.setex_step (key : String) (ttl : Nat) (value : CodeJson) :
    CodeStep .redis k (.redis (.setex key ttl value)) (setex now key ttl value db).1 db
      (setex now key ttl value db).2 := by
  unfold setex
  split
  · constructor
    · intro fresh
      rcases Db.FreshEntry.of_assign fresh with before | ⟨eq, -⟩
      · exact Or.inl before
      · exact Or.inr (decide_eq_true eq)
    · intro taken
      cases taken
  · exact .of_idle id rfl

/-- **The consuming script is a step of the code**. -/
theorem Redis.consumeScript_step (key redirectUri : String) :
    CodeStep .redis k (.redis (.consumeScript key redirectUri))
      (consumeScript now key redirectUri db).1 db (consumeScript now key redirectUri db).2 := by
  have idle : CodeStep .redis k (.redis (.consumeScript key redirectUri)) none db db := by
    refine .of_idle id ?_
    simp [takesCode]
  unfold consumeScript
  split
  · exact idle
  · next e found =>
      dsimp only
      split
      · exact idle
      · next unused =>
          split
          · exact idle
          · have stored : db.redis.find? key = some e := (Option.filter_eq_some_iff.mp found).1
            constructor
            · intro fresh
              rcases Db.FreshEntry.of_assign fresh with before | ⟨-, bad⟩
              · exact Or.inl before
              · cases bad
            · intro taken
              simp only [takesCode, Bool.and_eq_true, decide_eq_true_eq] at taken
              rcases taken with ⟨rfl, -⟩
              exact ⟨⟨e, stored, by simpa using unused⟩, Db.not_freshEntry_assign _ _ rfl rfl⟩

end Redis

/-- One operation of a grant repository, on any of the three stores. -/
theorem execOp_grant {grants : GrantBackend} {o : StoreOp} (m : Moment) (db : Db) (k : String)
    (isGrant : grantOp grants o = true) :
    CodeStep grants k o (execOp m o db).1 db (execOp m o db).2 := by
  cases o with
  | env o => exact .of_idle id rfl
  | mem o =>
      cases grants with
      | memory =>
          cases o with
          | saveAuthCode c => exact MemoryGrantRepository.saveAuthCode_step db k c
          | getAuthCode k' => exact MemoryGrantRepository.getAuthCode_step m db k k'
          | consumeAuthCode k' uri => exact MemoryGrantRepository.consumeAuthCode_step db k k' uri
          | purgeExpiredGrants => exact MemoryGrantRepository.purgeExpired_step m db k
          | _ => cases isGrant
      | redis => cases isGrant
      | postgres => cases isGrant
  | sql o =>
      cases grants with
      | memory => cases isGrant
      | redis => cases isGrant
      | postgres =>
          by_cases fault : m.fault = true
          · rw [execOp, SqlOp.exec_of_fault fault]
            cases o with
            | insertCode c => exact .of_idle id rfl
            | selectCode k' => exact .of_idle id rfl
            | consumeCode k' => exact .of_idle id (by simp [takesCode, SqlOp.refused])
            | deleteExpiredCodes now => exact .of_idle id rfl
            | _ => cases isGrant
          · rw [execOp, SqlOp.exec_of_ok fault]
            cases o with
            | insertCode c => exact Sql.insertCode_step db k c
            | selectCode k' => exact .of_idle id rfl
            | consumeCode k' => exact Sql.consumeCode_step db k k'
            | deleteExpiredCodes now => exact Sql.deleteExpiredCodes_step db k now
            | _ => cases isGrant
  | redis o =>
      cases grants with
      | memory => cases isGrant
      | redis =>
          by_cases fault : m.fault = true
          · rw [execOp, RedisOp.exec_of_fault fault]
            refine .of_idle id ?_
            cases o <;> simp [takesCode, RedisOp.refused]
          · rw [execOp, RedisOp.exec_of_ok fault]
            cases o with
            | setex key ttl value => exact Redis.setex_step m.now db k key ttl value
            | get key => exact .of_idle id rfl
            | consumeScript key uri => exact Redis.consumeScript_step m.now db k key uri
      | postgres => cases isGrant

end Fulla
