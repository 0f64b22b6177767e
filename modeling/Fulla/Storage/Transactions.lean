import Fulla.Storage.Db
import Fulla.Storage.RedisTokens

/-!
# Authorization transactions

A transaction is saved, read and marked as consumed, which should succeed once.  The
memory repository keeps the records in a map.  The Redis repository keeps a JSON object
under `oauth2:transaction:<id>`, but the script of `markTransactionConsumed` is given
the bare id as its key, so it never finds what `saveAuthorizationTransaction` has
written.

Marking and reading are one locked call or one command each, so any interleaving of
calls for one transaction is a list of them with the moments they are executed at.
`consumed_once_on_memory_never_on_redis` is about every such list.
-/

namespace Fulla

open Conc

/-- The record of an authorization request that waits for a login or a consent. -/
structure AuthorizationTransaction where
  transactionId : String
  clientId : String
  subject : String
  redirectUri : String
  state : String
  codeChallenge : String
  codeChallengeMethod : String
  requestedScopes : List String
  validScopes : List String
  consentRequiredScopes : List String
  consumed : Bool := false
  expiresAt : Int
deriving DecidableEq, Repr

/-! ## Memory -/

/-- The map of the memory repository. -/
abbrev Transactions := Table AuthorizationTransaction.transactionId

namespace MemoryGrantRepository

/-- The map entry is overwritten. -/
def saveAuthorizationTransaction (t : AuthorizationTransaction) (ts : Transactions) :
    Bool × Transactions :=
  (true, ts.assign t)

/-- An expired transaction is erased on the way. -/
def getAuthorizationTransaction (m : RedisMoment) (id : String) (ts : Transactions) :
    Option AuthorizationTransaction × Transactions :=
  match ts.find? id with
  | none => (none, ts)
  | some t => if t.expiresAt < m.seconds then (none, ts.erase id) else (some t, ts)

/-- The expiry is not looked at. -/
def markTransactionConsumed (id : String) (ts : Transactions) : Bool × Transactions :=
  match ts.find? id with
  | none => (false, ts)
  | some t =>
    if t.consumed then (false, ts)
    else
      (true, ts.updateWhere (fun t => t.transactionId = id) (fun t => { t with consumed := true })
        fun _ => rfl)

end MemoryGrantRepository

/-! ## Redis -/

/-- An entry of the key space; the value is absent when it is not a JSON text. -/
structure TransactionEntry where
  value : Option Json
  /-- The millisecond it expires at, if it does. -/
  expireAt : Option Nat

/-- The keys of the server that hold transactions. -/
abbrev TransactionKeys := String → Option TransactionEntry

namespace TransactionKeys

/-- The entry under `key`, unless its time is up. -/
def live (keys : TransactionKeys) (now : Nat) (key : String) : Option TransactionEntry :=
  (keys key).filter fun e => match e.expireAt with
    | none => true
    | some t => now ≤ t

/-- `SETEX`: the server refuses an expiry that is not positive or overflows its clock. -/
def setex (keys : TransactionKeys) (now : Nat) (key : String) (ttl : Int) (value : Json) :
    Bool × TransactionKeys :=
  if 0 < ttl ∧ now + ttl.toNat * 1000 < 2 ^ 63 then
    (true, Function.update keys key
      (some { value := some value, expireAt := some (now + ttl.toNat * 1000) }))
  else (false, keys)

/-- `TTL` of a live entry: rounded to seconds, `-1` without expiry. -/
def ttl (now : Nat) (e : TransactionEntry) : Int :=
  match e.expireAt with
  | none => -1
  | some t => ((t - now + 500) / 1000 : Nat)

end TransactionKeys

/-- Everything but `nil` and `false` counts as true in Lua; `null` is no `nil`. -/
def Json.luaTrue : Option Json → Bool
  | none => false
  | some (.bool b) => b
  | some _ => true

/-- The Lua table a decoded value is, and its fields; other values cannot be assigned to. -/
def Json.luaTable : Json → Option (List (String × Json))
  | .obj members => some members
  | .arr items => some (items.mapIdx fun i v => (toString (i + 1), v))
  | _ => none

namespace RedisGrantRepository

/-- The script of `markTransactionConsumed`; `none` is an error reply.  `recode` is what
`cjson.decode` and `cjson.encode` make of a value. -/
def markScript (recode : Json → Json) (now : Nat) (key : String) (keys : TransactionKeys) :
    Option Int × TransactionKeys :=
  match keys.live now key with
  | none => (some 0, keys)
  | some e =>
    match e.value.bind Json.luaTable with
    | none => (none, keys)
    | some fields =>
      if Json.luaTrue (fields.lookup "consumed") then (some 0, keys)
      else
        let newVal := recode ((Json.obj fields).set "consumed" (.bool true))
        match keys.setex now key (TransactionKeys.ttl now e) newVal with
        | (true, keys') => (some 1, keys')
        | (false, keys') => (none, keys')

/-- The key with the prefix that `save` and `get` use. -/
def transactionKey (id : String) : String :=
  "oauth2:transaction:" ++ id

/-- Scopes as a JSON array. -/
def texts (scopes : List String) : Json :=
  .arr (scopes.map Json.str)

/-- The object `saveAuthorizationTransaction` builds. -/
def transactionJson (t : AuthorizationTransaction) : Json :=
  .obj [("transaction_id", .str t.transactionId), ("client_id", .str t.clientId),
    ("subject", .str t.subject), ("redirect_uri", .str t.redirectUri), ("state", .str t.state),
    ("code_challenge", .str t.codeChallenge),
    ("code_challenge_method", .str t.codeChallengeMethod), ("consumed", .bool t.consumed),
    ("expires_at", .int t.expiresAt), ("requested_scopes", texts t.requestedScopes),
    ("valid_scopes", texts t.validScopes),
    ("consent_required_scopes", texts t.consentRequiredScopes)]

/-- The lifetime is computed from the clock of the application at `m` and the command
executed at `m'`; it is a `size_t` printed with `%d`. -/
def saveAuthorizationTransaction (m m' : RedisMoment) (t : AuthorizationTransaction)
    (keys : TransactionKeys) : Bool × TransactionKeys :=
  let ttl : Int := if t.expiresAt > m.seconds then t.expiresAt - m.seconds else 600
  if m'.fault then (false, keys)
  else keys.setex m'.now (transactionKey t.transactionId) (ttl.bmod (2 ^ 32)) (transactionJson t)

/-- `if (json.isMember(k) && json[k].isArray())` and the loop over the elements. -/
def scopesAt (root : Json) (k : String) : Except String (List String) := do
  if ← root.hasMember k then
    match root.get k with
    | .arr items => items.mapM Json.asString
    | _ => return []
  else return []

/-- The members that are read back. -/
def readTransaction (json : Json) : Except String AuthorizationTransaction := do
  return {
    transactionId := ← json.textAt "transaction_id"
    clientId := ← json.textAt "client_id"
    subject := ← json.textAt "subject"
    redirectUri := ← json.textAt "redirect_uri"
    state := ← json.textAt "state"
    codeChallenge := ← json.textAt "code_challenge"
    codeChallengeMethod := ← json.textAt "code_challenge_method"
    consumed := ← json.boolAt "consumed"
    expiresAt := ← json.intAt "expires_at"
    requestedScopes := ← scopesAt json "requested_scopes"
    validScopes := ← scopesAt json "valid_scopes"
    consentRequiredScopes := ← scopesAt json "consent_required_scopes" }

/-- The entry is read under the prefixed key. -/
def getAuthorizationTransaction (m : RedisMoment) (id : String) (keys : TransactionKeys) :
    Except String (Option AuthorizationTransaction) :=
  if m.fault then .ok none
  else
    match keys.live m.now (transactionKey id) with
    | none => .ok none
    | some e =>
      match e.value with
      | none | some .null => .ok none
      | some json => some <$> readTransaction json

/-- The key handed to the script is the id itself. -/
def markTransactionConsumed (recode : Json → Json) (m : RedisMoment) (id : String)
    (keys : TransactionKeys) : Bool × TransactionKeys :=
  if m.fault then (false, keys)
  else
    match markScript recode m.now id keys with
    | (answer, keys') => (answer = some 1, keys')

/-! ### What is saved is read, and is out of reach of the script -/

theorem append_ne {front id : String} (nonempty : front ≠ "") : front ++ id ≠ id := by
  intro eq
  have length := congrArg String.length eq
  rw [String.length_append] at length
  exact nonempty (String.length_eq_zero_iff.mp (by omega))

theorem transactionKey_ne (id : String) : transactionKey id ≠ id :=
  append_ne (by decide)

theorem scopesAt_texts {members : List (String × Json)} {k : String} {scopes : List String}
    (found : members.lookup k = some (texts scopes)) :
    scopesAt (.obj members) k = .ok scopes := by
  have loop : (scopes.map Json.str).mapM Json.asString = .ok scopes := by
    clear found
    induction scopes with
    | nil => rfl
    | cons scope scopes ih =>
        rw [List.map_cons, List.mapM_cons, ih]
        rfl
  simp [scopesAt, Json.get, found, texts, loop, bind, Except.bind]

theorem readTransaction_transactionJson (t : AuthorizationTransaction) :
    readTransaction (transactionJson t) = .ok t := by
  have requested : scopesAt (transactionJson t) "requested_scopes" = .ok t.requestedScopes :=
    scopesAt_texts rfl
  have valid : scopesAt (transactionJson t) "valid_scopes" = .ok t.validScopes :=
    scopesAt_texts rfl
  have consent : scopesAt (transactionJson t) "consent_required_scopes" =
      .ok t.consentRequiredScopes := scopesAt_texts rfl
  simp only [readTransaction, requested, valid, consent]
  rfl

theorem setex_frame {keys : TransactionKeys} {now : Nat} {key other : String} {ttl : Int}
    {value : Json} (ne : other ≠ key) : (keys.setex now key ttl value).2 other = keys other := by
  unfold TransactionKeys.setex
  split
  · exact Function.update_of_ne ne _ _
  · rfl

theorem setex_stored {keys : TransactionKeys} {now : Nat} {key : String} {ttl : Int} {value : Json}
    (ok : (keys.setex now key ttl value).1 = true) :
    ∃ expireAt, (keys.setex now key ttl value).2 key =
      some { value := some value, expireAt := expireAt } := by
  unfold TransactionKeys.setex at ok ⊢
  split at ok
  · next fits =>
      rw [if_pos fits]
      exact ⟨_, Function.update_self ..⟩
  · cases ok

theorem markScript_frame {recode : Json → Json} {now : Nat} {key other : String}
    {keys : TransactionKeys} (ne : other ≠ key) :
    (markScript recode now key keys).2 other = keys other := by
  unfold markScript
  split
  · rfl
  · split
    · rfl
    · split
      · rfl
      · dsimp only
        split <;> next written =>
          exact congrFun (congrArg Prod.snd written).symm other ▸ setex_frame ne

/-- Marking a transaction leaves what is saved for it alone. -/
theorem markTransactionConsumed_frame {recode : Json → Json} {m : RedisMoment} {id : String}
    {keys : TransactionKeys} :
    (markTransactionConsumed recode m id keys).2 (transactionKey id) =
      keys (transactionKey id) := by
  unfold markTransactionConsumed
  split
  · rfl
  · exact markScript_frame (transactionKey_ne id)

end RedisGrantRepository

/-! ## Runs of calls for one transaction -/

/-- The two calls of a claimant. -/
inductive TransactionCall where
  | getAuthorizationTransaction
  | markTransactionConsumed
deriving DecidableEq

inductive TransactionAnswer where
  | transaction (found : Except String (Option AuthorizationTransaction))
  | marked (ok : Bool)

/-- The answers to calls for one transaction, in the order of their execution. -/
def runTransaction {σ : Type} (step : RedisMoment → TransactionCall → σ → TransactionAnswer × σ) :
    List (RedisMoment × TransactionCall) → σ → List TransactionAnswer
  | [], _ => []
  | (m, call) :: calls, s => (step m call s).1 :: runTransaction step calls (step m call s).2

/-- One call on the map. -/
def MemoryGrantRepository.step (id : String) (m : RedisMoment) :
    TransactionCall → Transactions → TransactionAnswer × Transactions
  | .getAuthorizationTransaction, ts =>
    let (found, ts') := getAuthorizationTransaction m id ts
    (.transaction (.ok found), ts')
  | .markTransactionConsumed, ts =>
    let (ok, ts') := markTransactionConsumed id ts
    (.marked ok, ts')

/-- One call on the server. -/
def RedisGrantRepository.step (recode : Json → Json) (id : String) (m : RedisMoment) :
    TransactionCall → TransactionKeys → TransactionAnswer × TransactionKeys
  | .getAuthorizationTransaction, keys =>
    (.transaction (getAuthorizationTransaction m id keys), keys)
  | .markTransactionConsumed, keys =>
    let (ok, keys') := markTransactionConsumed recode m id keys
    (.marked ok, keys')

/-- The first mark succeeds and the others fail; a transaction read after a mark is
consumed.  The flag says whether there was a mark already. -/
def ConsumedOnce : Bool → List TransactionAnswer → Prop
  | _, [] => True
  | before, .marked ok :: answers => ok = !before ∧ ConsumedOnce true answers
  | before, .transaction found :: answers =>
    (before = true → ∃ t, found = .ok (some t) ∧ t.consumed = true) ∧ ConsumedOnce before answers

section Memory

variable {id : String}

/-- While the transaction is in time, its flag says whether it was marked. -/
theorem memory_consumed_once {calls : List (RedisMoment × TransactionCall)} {ts : Transactions}
    {t : AuthorizationTransaction} (found : ts.find? id = some t)
    (inTime : ∀ call ∈ calls, call.1.seconds ≤ t.expiresAt) :
    ConsumedOnce t.consumed (runTransaction (MemoryGrantRepository.step id) calls ts) := by
  induction calls generalizing ts t with
  | nil => trivial
  | cons call calls ih =>
      obtain ⟨m, call⟩ := call
      have later : ∀ call ∈ calls, call.1.seconds ≤ t.expiresAt := fun call mem =>
        inTime call (List.mem_cons_of_mem _ mem)
      cases call with
      | getAuthorizationTransaction =>
          have due : ¬ t.expiresAt < m.seconds := Int.not_lt.mpr (inTime _ List.mem_cons_self)
          have step : MemoryGrantRepository.step id m .getAuthorizationTransaction ts =
              (.transaction (.ok (some t)), ts) := by
            simp [MemoryGrantRepository.step, MemoryGrantRepository.getAuthorizationTransaction,
              found, due]
          rw [runTransaction, step]
          exact ⟨fun consumed => ⟨t, rfl, consumed⟩, ih found later⟩
      | markTransactionConsumed =>
          cases consumed : t.consumed with
          | true =>
              have step : MemoryGrantRepository.step id m .markTransactionConsumed ts =
                  (.marked false, ts) := by
                simp [MemoryGrantRepository.step, MemoryGrantRepository.markTransactionConsumed,
                  found, consumed]
              rw [runTransaction, step]
              exact ⟨rfl, consumed ▸ ih found later⟩
          | false =>
              have same : t.transactionId = id := Table.find?_key found
              have step : MemoryGrantRepository.step id m .markTransactionConsumed ts =
                  (.marked true, ts.updateWhere (fun t => t.transactionId = id)
                    (fun t => { t with consumed := true }) fun _ => rfl) := by
                simp [MemoryGrantRepository.step, MemoryGrantRepository.markTransactionConsumed,
                  found, consumed]
              have found' : (ts.updateWhere (fun t => t.transactionId = id)
                  (fun t => { t with consumed := true }) fun _ => rfl).find? id =
                  some { t with consumed := true } := by
                simp [found, same]
              rw [runTransaction, step]
              exact ⟨rfl, ih found' later⟩

end Memory

section Redis

variable {recode : Json → Json} {t : AuthorizationTransaction}

/-- What is stored for the transaction is its object as it was saved. -/
def Unmarked (t : AuthorizationTransaction) (keys : TransactionKeys) : Prop :=
  ∃ expireAt, keys (RedisGrantRepository.transactionKey t.transactionId) =
    some { value := some (RedisGrantRepository.transactionJson t), expireAt := expireAt }

theorem save_unmarked {m m' : RedisMoment} {keys : TransactionKeys}
    (saved : (RedisGrantRepository.saveAuthorizationTransaction m m' t keys).1 = true) :
    Unmarked t (RedisGrantRepository.saveAuthorizationTransaction m m' t keys).2 := by
  unfold RedisGrantRepository.saveAuthorizationTransaction at saved ⊢
  cases fault : m'.fault with
  | true =>
      rw [fault] at saved
      cases saved
  | false =>
      simp only [fault, Bool.false_eq_true, if_false] at saved ⊢
      exact RedisGrantRepository.setex_stored saved

/-- No call for the transaction changes what is stored for it. -/
theorem step_unmarked {m : RedisMoment} {call : TransactionCall} {keys : TransactionKeys}
    (unmarked : Unmarked t keys) :
    Unmarked t (RedisGrantRepository.step recode t.transactionId m call keys).2 := by
  cases call with
  | getAuthorizationTransaction => exact unmarked
  | markTransactionConsumed =>
      obtain ⟨expireAt, entry⟩ := unmarked
      exact ⟨expireAt, RedisGrantRepository.markTransactionConsumed_frame.trans entry⟩

theorem get_unmarked {m : RedisMoment} {keys : TransactionKeys} (unmarked : Unmarked t keys) :
    RedisGrantRepository.getAuthorizationTransaction m t.transactionId keys = .ok none ∨
      RedisGrantRepository.getAuthorizationTransaction m t.transactionId keys = .ok (some t) := by
  obtain ⟨expireAt, entry⟩ := unmarked
  unfold RedisGrantRepository.getAuthorizationTransaction
  split
  · exact .inl rfl
  · cases live : keys.live m.now (RedisGrantRepository.transactionKey t.transactionId) with
    | none => exact .inl rfl
    | some e =>
        have stored : keys (RedisGrantRepository.transactionKey t.transactionId) = some e :=
          (Option.filter_eq_some_iff.mp live).1
        cases entry.symm.trans stored
        refine .inr ?_
        dsimp only [RedisGrantRepository.transactionJson]
        exact congrArg _ (RedisGrantRepository.readTransaction_transactionJson t)

/-- As long as it was saved unconsumed, no sequence of calls shows it consumed: a run with
a mark in it, and a look at the transaction after it, breaks the law. -/
theorem redis_not_consumed_once {calls : List (RedisMoment × TransactionCall)}
    {keys : TransactionKeys} {before : Bool} (unmarked : Unmarked t keys)
    (fresh : t.consumed = false)
    (marked : before = true ∨ ∃ m, (m, TransactionCall.markTransactionConsumed) ∈ calls)
    (m : RedisMoment) :
    ¬ ConsumedOnce before (runTransaction (RedisGrantRepository.step recode t.transactionId)
      (calls ++ [(m, .getAuthorizationTransaction)]) keys) := by
  induction calls generalizing keys before with
  | nil =>
      intro once
      have already : before = true := by
        rcases marked with already | ⟨m, mem⟩
        · exact already
        · cases mem
      obtain ⟨t', shown, consumed⟩ := once.1 already
      rcases get_unmarked (m := m) unmarked with gone | unchanged
      · cases gone.symm.trans shown
      · cases unchanged.symm.trans shown
        cases fresh.symm.trans consumed
  | cons call calls ih =>
      obtain ⟨m', call⟩ := call
      intro once
      cases call with
      | getAuthorizationTransaction =>
          refine ih unmarked ?_ once.2
          rcases marked with already | ⟨m'', mem⟩
          · exact .inl already
          · rcases List.mem_cons.mp mem with eq | later
            · cases eq
            · exact .inr ⟨m'', later⟩
      | markTransactionConsumed =>
          exact ih (step_unmarked unmarked) (.inl rfl) once.2

end Redis

/-- A transaction saved unconsumed, any order of calls for it with a mark among them, and
a look at it in the end: over memory, while it is in time, the first mark alone succeeds
and the transaction is consumed from then on; over Redis this is never so. -/
theorem consumed_once_on_memory_never_on_redis (t : AuthorizationTransaction)
    (fresh : t.consumed = false) (calls : List (RedisMoment × TransactionCall))
    (marked : ∃ m, (m, TransactionCall.markTransactionConsumed) ∈ calls) (m : RedisMoment) :
    (∀ ts : Transactions,
        (∀ call ∈ calls ++ [(m, .getAuthorizationTransaction)], call.1.seconds ≤ t.expiresAt) →
        ConsumedOnce false (runTransaction (MemoryGrantRepository.step t.transactionId)
          (calls ++ [(m, .getAuthorizationTransaction)])
          (MemoryGrantRepository.saveAuthorizationTransaction t ts).2)) ∧
      ∀ (recode : Json → Json) (m₀ m₁ : RedisMoment) (keys : TransactionKeys),
        (RedisGrantRepository.saveAuthorizationTransaction m₀ m₁ t keys).1 = true →
        ¬ ConsumedOnce false (runTransaction (RedisGrantRepository.step recode t.transactionId)
          (calls ++ [(m, .getAuthorizationTransaction)])
          (RedisGrantRepository.saveAuthorizationTransaction m₀ m₁ t keys).2) := by
  constructor
  · intro ts inTime
    have found : (MemoryGrantRepository.saveAuthorizationTransaction t ts).2.find?
        t.transactionId = some t := by
      simp [MemoryGrantRepository.saveAuthorizationTransaction]
    exact fresh ▸ memory_consumed_once found inTime
  · intro recode m₀ m₁ keys saved
    exact redis_not_consumed_once (save_unmarked saved) fresh (.inr marked) m

/-- A transaction that is good until second 1600. -/
def sampleTransaction : AuthorizationTransaction where
  transactionId := "txn1"
  clientId := "app"
  subject := "alice"
  redirectUri := "https://app.example/cb"
  state := "xyz"
  codeChallenge := ""
  codeChallengeMethod := ""
  requestedScopes := ["openid"]
  validScopes := ["openid"]
  consentRequiredScopes := []
  expiresAt := 1600

theorem consumed_once_on_memory_never_on_redis_txn1 :
    ConsumedOnce false (runTransaction (MemoryGrantRepository.step "txn1")
        [({ now := 1001000 }, .markTransactionConsumed),
          ({ now := 1002000 }, .getAuthorizationTransaction)]
        (MemoryGrantRepository.saveAuthorizationTransaction sampleTransaction .empty).2) ∧
      ¬ ConsumedOnce false (runTransaction (RedisGrantRepository.step id "txn1")
        [({ now := 1001000 }, .markTransactionConsumed),
          ({ now := 1002000 }, .getAuthorizationTransaction)]
        (RedisGrantRepository.saveAuthorizationTransaction { now := 1000000 } { now := 1000000 }
          sampleTransaction fun _ => none).2) := by
  have both := consumed_once_on_memory_never_on_redis sampleTransaction rfl
    [({ now := 1001000 }, .markTransactionConsumed)] ⟨_, List.mem_cons_self⟩ { now := 1002000 }
  exact ⟨both.1 .empty (by decide), both.2 id _ _ _ (by decide)⟩

/-- Saved, marked at once and read: the mark fails and the transaction is unconsumed. -/
theorem saved_transaction_not_marked :
    (RedisGrantRepository.saveAuthorizationTransaction { now := 1000000 } { now := 1000000 }
        sampleTransaction fun _ => none).1 = true ∧
      ¬ ConsumedOnce false (runTransaction (RedisGrantRepository.step id "txn1")
        [({ now := 1001000 }, .markTransactionConsumed)]
        (RedisGrantRepository.saveAuthorizationTransaction { now := 1000000 } { now := 1000000 }
          sampleTransaction fun _ => none).2) := by
  refine ⟨by decide, fun once => ?_⟩
  exact absurd once.1 (by decide)

end Fulla
