import Mathlib.Data.List.Basic

/-!
# The browser session

The keys of the Drogon session that the login, consent, authorize and MFA handlers
read and write.  `Session::insert` keeps an existing key, so a handler that means
to overwrite erases first; a key that was never written reads as its default.

`ConsentCsrfSlots` and `OrgContextSlots` are the two bounded lists of one-shot
slots the authorize endpoint leaves for the consent endpoint.  The source keeps
them as JSON text under one key and rewrites it whole.
-/

namespace Fulla

/-- An entry of `ConsentCsrfSlots`. -/
structure ConsentCsrfSlot where
  nonce : String
  ts : Int
deriving DecidableEq, Repr

/-- An entry of `OrgContextSlots`. -/
structure OrgContextSlot where
  state : String
  orgId : Int
  ts : Int
deriving DecidableEq, Repr

/-- One field for each session key; `none` is an absent key. -/
structure Session where
  userId : Option String := none
  sub : Option String := none
  authTime : Option Int := none
  amr : Option String := none
  mfaPending : Option Bool := none
  mustChangePassword : Option Bool := none
  mfaCodeChallenge : Option String := none
  mfaCodeChallengeMethod : Option String := none
  pendingConsentCsrfSlots : List ConsentCsrfSlot := []
  pendingOrgContextSlots : List OrgContextSlot := []
deriving DecidableEq, Repr

namespace Session

/-- `Session::insert`: an existing value stays. -/
def insert {α : Type} (old : Option α) (value : α) : Option α :=
  old.or (some value)

/-- `find(key) && get<bool>(key)`. -/
def flag (value : Option Bool) : Bool :=
  value.getD false

/-- `find(key) ? get<std::string>(key) : ""`. -/
def text (value : Option String) : String :=
  value.getD ""

end Session

/-! ## One-shot slots -/

/-- Slots of one session. -/
def kMaxSlots : Nat :=
  5

/-- Seconds that a slot is good for. -/
def kTtlSeconds : Int :=
  600

/-- `while (slots.size() >= kMaxSlots) slots.erase(slots.begin())`. -/
def evictOldest {α : Type} (slots : List α) : List α :=
  slots.drop (slots.length + 1 - kMaxSlots)

namespace ConsentCsrfSlots

/-- Expired entries are dropped before the cap applies. -/
def mint (slots : List ConsentCsrfSlot) (nonce : String) (nowSeconds : Int) :
    List ConsentCsrfSlot :=
  evictOldest (slots.filter fun slot => ¬ nowSeconds - slot.ts > kTtlSeconds) ++
    [{ nonce := nonce, ts := nowSeconds }]

/-- The slots without the first live match, or `none` when nothing matches. -/
def consume (slots : List ConsentCsrfSlot) (nonce : String) (nowSeconds : Int) :
    Option (List ConsentCsrfSlot) :=
  if nonce = "" then none
  else
    let live := fun slot : ConsentCsrfSlot =>
      slot.nonce = nonce && nowSeconds - slot.ts ≤ kTtlSeconds
    if slots.any live then some (slots.eraseP live) else none

end ConsentCsrfSlots

namespace OrgContextSlots

/-- A slot of the same state is replaced. -/
def mint (slots : List OrgContextSlot) (state : String) (orgId nowSeconds : Int) :
    List OrgContextSlot :=
  if state = "" then slots
  else
    evictOldest ((slots.filter fun slot => ¬ nowSeconds - slot.ts > kTtlSeconds).filter
        fun slot => slot.state ≠ state) ++
      [{ state := state, orgId := orgId, ts := nowSeconds }]

/-- The organisation stashed for `state`, and the slots without it. -/
def consume (slots : List OrgContextSlot) (state : String) (nowSeconds : Int) :
    Option Int × List OrgContextSlot :=
  if state = "" then (none, slots)
  else
    let live := fun slot : OrgContextSlot =>
      slot.state = state && nowSeconds - slot.ts ≤ kTtlSeconds
    match slots.find? live with
    | none => (none, slots)
    | some slot => (some slot.orgId, slots.eraseP live)

end OrgContextSlots

end Fulla
