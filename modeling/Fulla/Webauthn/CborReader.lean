import Fulla.Conc.Checks
import Fulla.Webauthn.Cbor

/-!
# The structural pre-scan of CBOR input

`validateStructure` of `CborReader.h` walks over client-controlled bytes with a stack of
pending child counts and enforces the limits on items, strings and nesting before any tree
is built.  The grammar it is measured against is in `Fulla.Webauthn.Cbor`.

The 64-bit arithmetic is a parameter: `machine` wraps around, `checked` stops when the
result of an operation does not fit.
-/

namespace Fulla

open Conc

namespace CborReader

namespace limits

/-- Nesting of an input. -/
def kMaxDepth : Nat := 8

/-- Items of an input. -/
def kMaxItems : Nat := 1024

/-- Bytes of one string. -/
def kMaxStringBytes : Nat := 65536

end limits

/-- Why there is no answer.  Only the first is one the source knows of. -/
inductive Stop where
  | fail (why : String)
  /-- The result of an operation does not fit into 64 bits. -/
  | wraps
  | outOfBounds
  /-- The loop has not come to its end. -/
  | unfinished
deriving DecidableEq, Repr

/-- What a `size_t` or `uint64_t` operation with the given result stores. -/
abbrev Arithmetic := Int → Except Stop Nat

/-- Arithmetic modulo `2 ^ 64`. -/
def machine : Arithmetic := fun z =>
  .ok (z % 2 ^ 64).toNat

/-- Arithmetic that stops instead of wrapping. -/
def checked : Arithmetic := fun z =>
  if 0 ≤ z ∧ z < 2 ^ 64 then .ok z.toNat else .error .wraps

/-- The state of the loop; the innermost frame of `pending` comes first. -/
structure Scan where
  pos : Nat := 0
  itemCount : Nat := 0
  pending : List Nat := []
deriving DecidableEq, Repr

section Loop

variable (u64 : Arithmetic) (data : List UInt8)

/-- The byte at an offset, which must be inside. -/
def byteAt (i : Nat) : Except Stop UInt8 :=
  orRefuse data[i]? .outOfBounds

/-- The item satisfies one slot of the innermost open container. -/
def takeSlot : List Nat → Except Stop (List Nat)
  | [] => .ok []
  | back :: pending => do
    refuseIf (back == 0) (.fail "internal error: retired frame pending")
    let back ← u64 (back - 1)
    return back :: pending

/-- `argument = (argument << 8) | data[pos + i]`, for the `left` bytes from `i` on. -/
def readArgument (pos : Nat) : (left i argument : Nat) → Except Stop Nat
  | 0, _, argument => .ok argument
  | left + 1, i, argument => do
    let byte ← byteAt data (← u64 (pos + i))
    let shifted ← u64 ((argument <<< 8 : Nat) : Int)
    readArgument pos left (i + 1) (shifted ||| byte.toNat)

/-- An extended argument replaces the value of `info`; also the position after it. -/
def argumentAt (major info pos : Nat) : Except Stop (Nat × Nat) := do
  let argBytes := Cbor.width info
  if argBytes > 0 && major != 7 then
    let left ← u64 (data.length - pos)
    refuseIf (argBytes > left) (.fail "truncated CBOR: argument bytes missing")
    let argument ← readArgument u64 data pos argBytes 0 0
    return (argument, ← u64 (pos + argBytes))
  else return (info, pos)

/-- `pos += n`, if that many bytes are left. -/
def skip (pos n : Nat) (why : String) : Except Stop Nat := do
  let left ← u64 (data.length - pos)
  refuseIf (n > left) (.fail why)
  u64 (pos + n)

/-- One level deeper is allowed. -/
def checkDepth (pending : List Nat) : Except Stop Unit := do
  let depth ← u64 (pending.length + 1)
  refuseIf (depth > limits.kMaxDepth) (.fail "CBOR nesting deeper than 8 levels")

/-- The `switch` on the major type. -/
def parseBody (major info argument pos : Nat) (pending : List Nat) :
    Except Stop (Nat × List Nat) := do
  if major = 0 ∨ major = 1 then return (pos, pending)
  else if major = 2 ∨ major = 3 then
    refuseIf (argument > limits.kMaxStringBytes) (.fail "string payload exceeds 65536 bytes")
    let pos ← skip u64 data pos argument "truncated CBOR: string payload missing"
    return (pos, pending)
  else if major = 4 then
    checkDepth u64 pending
    return (pos, argument :: pending)
  else if major = 5 then
    refuseIf (argument > (2 ^ 64 - 1) / 2) (.fail "map entry count overflows")
    checkDepth u64 pending
    let children ← u64 (argument * 2)
    return (pos, children :: pending)
  else if major = 6 then return (pos, 1 :: pending)
  else
    let pos ← skip u64 data pos (Cbor.width info) "truncated CBOR: float/simple payload missing"
    return (pos, pending)

/-- One round of the loop. -/
def step (s : Scan) : Except Stop Scan := do
  refuseIf (s.pos ≥ data.length) (.fail "truncated CBOR: expected another item")
  let pending ← takeSlot u64 s.pending
  let initial ← byteAt data s.pos
  let pos ← u64 (s.pos + 1)
  let major := initial.toNat >>> 5
  let info := initial.toNat &&& 0x1F
  refuseIf (info = 31) (.fail "indefinite-length items are not accepted")
  refuseIf (info ≥ 28) (.fail "reserved additional-info value")
  let (argument, pos) ← argumentAt u64 data major info pos
  let itemCount ← u64 (s.itemCount + 1)
  refuseIf (itemCount > limits.kMaxItems) (.fail "too many CBOR items")
  let (pos, pending) ← parseBody u64 data major info argument pos pending
  -- close out containers whose child count has dropped to zero
  return { pos := pos, itemCount := itemCount, pending := pending.dropWhile (· == 0) }

/-- The loop, with a bound on its rounds. -/
def scan : Nat → Scan → Except Stop Nat
  | 0, _ => .error .unfinished
  | rounds + 1, s => do
    let s ← step u64 data s
    if s.pending.isEmpty then return s.pos else scan rounds s

/-- A round reads at least one byte. -/
def validateStructure : Except Stop Nat := do
  refuseIf data.isEmpty (.fail "empty CBOR input")
  scan u64 data (data.length + 1) {}

end Loop

/-! ## Nothing wraps -/

/-- Operations with a result that fits are right. -/
def Exact (u64 : Arithmetic) : Prop :=
  ∀ n : Nat, n < 2 ^ 64 → u64 n = .ok n

/-- Arithmetic modulo `2 ^ 64` is exact within the range. -/
theorem exact_machine : Exact machine := by
  intro n fits
  have same : ((n : Int) % 2 ^ 64).toNat = n := by omega
  rw [machine, same]

/-- So is arithmetic that stops. -/
theorem exact_checked : Exact checked := by
  intro n fits
  rw [checked, if_pos ⟨by omega, by omega⟩, Int.toNat_natCast]

/-- Numbers without a bound. -/
def ideal : Arithmetic := fun z =>
  .ok z.toNat

@[simp]
theorem ideal_natCast (a : Nat) : ideal a = .ok a :=
  rfl

@[simp]
theorem ideal_add (a b : Nat) : ideal ((a : Int) + b) = .ok (a + b) :=
  rfl

@[simp]
theorem ideal_succ (a : Nat) : ideal ((a : Int) + 1) = .ok (a + 1) :=
  rfl

@[simp]
theorem ideal_sub (a b : Nat) : ideal ((a : Int) - b) = .ok (a - b) := by
  rw [ideal, Int.toNat_sub]

@[simp]
theorem ideal_pred (a : Nat) : ideal ((a : Int) - 1) = .ok (a - 1) :=
  ideal_sub a 1

@[simp]
theorem ideal_double (a : Nat) : ideal ((a : Int) * 2) = .ok (a * 2) :=
  rfl

section Exact

variable {u64 : Arithmetic} {data : List UInt8}

theorem Exact.of_int (exact : Exact u64) {z : Int} (nonneg : 0 ≤ z) (fits : z < 2 ^ 64) :
    u64 z = ideal z := by
  have same : ((z.toNat : Nat) : Int) = z := by omega
  rw [← same]
  exact exact z.toNat (by omega)

/-- A frame is taken off alike. -/
theorem takeSlot_exact (exact : Exact u64) {pending : List Nat}
    (fits : ∀ k ∈ pending, k < 2 ^ 64) : takeSlot u64 pending = takeSlot ideal pending := by
  cases pending with
  | nil => rfl
  | cons back pending =>
      have bound := fits back List.mem_cons_self
      refine bind_eq_bind rfl fun _ open_ => bind_eq_bind ?_ fun _ _ => rfl
      have positive : back ≠ 0 := by simpa using open_
      exact exact.of_int (by omega) (by omega)

/-- As many frames as before, with counts that fit. -/
theorem takeSlot_fits {pending pending' : List Nat} (fits : ∀ k ∈ pending, k < 2 ^ 64)
    (slots : takeSlot ideal pending = .ok pending') :
    pending'.length = pending.length ∧ ∀ k ∈ pending', k < 2 ^ 64 := by
  cases pending with
  | nil =>
      cases slots
      exact ⟨rfl, fits⟩
  | cons back pending =>
      simp only [takeSlot, ideal_pred, bind_eq_ok, Except.ok.injEq, exists_eq_left',
        pure_eq_ok] at slots
      obtain ⟨-, -, rfl⟩ := slots
      refine ⟨rfl, fun k mem => ?_⟩
      rcases List.mem_cons.mp mem with rfl | below
      · have bound := fits back List.mem_cons_self
        omega
      · exact fits k (List.mem_cons_of_mem _ below)

/-- A byte more, and the value is still below the next power. -/
theorem shifted_lt {argument byte i : Nat} (small : argument < 2 ^ (8 * i)) (byte_lt : byte < 256) :
    argument <<< 8 ||| byte < 2 ^ (8 * (i + 1)) := by
  have eq : argument <<< 8 ||| byte = argument * 2 ^ 8 + byte := by
    rw [← Nat.shiftLeft_eq]
    exact (Nat.shiftLeft_add_eq_or_of_lt (by omega) argument).symm
  have pow : 2 ^ (8 * (i + 1)) = 2 ^ (8 * i) * 2 ^ 8 := by
    rw [← Nat.pow_add]
    congr 1
  omega

/-- An argument is read alike, byte by byte. -/
theorem readArgument_exact (exact : Exact u64) (bound : data.length < 2 ^ 64) {pos : Nat}
    (left i argument : Nat) (width : i + left ≤ 8) (inside : pos + i + left ≤ data.length)
    (small : argument < 2 ^ (8 * i)) :
    readArgument u64 data pos left i argument = readArgument ideal data pos left i argument ∧
      ∀ value, readArgument ideal data pos left i argument = .ok value →
        value < 2 ^ (8 * (i + left)) := by
  induction left generalizing i argument with
  | zero =>
      refine ⟨rfl, fun value read => ?_⟩
      cases read
      exact small
  | succ left ih =>
      have shifted_fits : argument <<< 8 < 2 ^ 64 := by
        have pow : 2 ^ (8 * i) ≤ 2 ^ 56 := Nat.pow_le_pow_right (by omega) (by omega)
        rw [Nat.shiftLeft_eq]
        omega
      have next (byte : UInt8) := ih (i + 1) (argument <<< 8 ||| byte.toNat) (by omega) (by omega)
        (shifted_lt small byte.toNat_lt)
      constructor
      · refine bind_eq_bind (exact.of_int (by omega) (by omega)) fun k _ => ?_
        refine bind_eq_bind rfl fun byte _ => ?_
        refine bind_eq_bind (exact _ shifted_fits) fun shifted stored => ?_
        cases stored
        exact (next byte).1
      · intro value read
        simp only [readArgument, bind_eq_ok] at read
        obtain ⟨k, -, byte, -, shifted, stored, read⟩ := read
        cases stored
        have small' := (next byte).2 value read
        have same : 8 * (i + (left + 1)) = 8 * (i + 1 + left) := by omega
        rwa [same]

/-- So is the argument of a head. -/
theorem argumentAt_exact (exact : Exact u64) (bound : data.length < 2 ^ 64) {major info pos : Nat}
    (inside : pos ≤ data.length) :
    argumentAt u64 data major info pos = argumentAt ideal data major info pos := by
  have width := Cbor.width_le info
  unfold argumentAt
  dsimp only
  split
  · refine bind_eq_bind (exact.of_int (by omega) (by omega)) fun left stored => ?_
    rw [ideal_sub] at stored
    cases stored
    refine bind_eq_bind rfl fun _ enough => ?_
    rw [refuseIf_eq_ok, decide_eq_false_iff_not] at enough
    refine bind_eq_bind (readArgument_exact exact bound _ 0 0 (by omega) (by omega) (by omega)).1 ?_
    intro argument _
    exact bind_eq_bind (exact.of_int (by omega) (by omega)) fun _ _ => rfl
  · rfl

/-- The argument fits and the position stays inside. -/
theorem argumentAt_fits (bound : data.length < 2 ^ 64) {major info pos argument pos' : Nat}
    (info_lt : info < 32) (inside : pos ≤ data.length)
    (read : argumentAt ideal data major info pos = .ok (argument, pos')) :
    argument < 2 ^ 64 ∧ pos' ≤ data.length := by
  have width := Cbor.width_le info
  unfold argumentAt at read
  dsimp only at read
  split at read
  · simp only [ideal_sub, bind_eq_ok, Except.ok.injEq, exists_eq_left', refuseIf_eq_ok,
      decide_eq_false_iff_not, ideal_add, pure_eq_ok, Prod.mk.injEq] at read
    obtain ⟨-, enough, value, extended, rfl, rfl⟩ := read
    have small := (readArgument_exact exact_machine bound _ 0 0 (by omega) (by omega)
      (by omega)).2 value extended
    have pow : 2 ^ (8 * (0 + Cbor.width info)) ≤ 2 ^ 64 :=
      Nat.pow_le_pow_right (by omega) (by omega)
    exact ⟨by omega, by omega⟩
  · cases read
    exact ⟨by omega, inside⟩

/-- So are the bytes of a string skipped. -/
theorem skip_exact (exact : Exact u64) (bound : data.length < 2 ^ 64) {pos n : Nat} {why : String}
    (inside : pos ≤ data.length) : skip u64 data pos n why = skip ideal data pos n why := by
  refine bind_eq_bind (exact.of_int (by omega) (by omega)) fun left stored => ?_
  rw [ideal_sub] at stored
  cases stored
  refine bind_eq_bind rfl fun _ enough => ?_
  rw [refuseIf_eq_ok, decide_eq_false_iff_not] at enough
  exact exact.of_int (by omega) (by omega)

/-- So is the depth checked. -/
theorem checkDepth_exact (exact : Exact u64) {pending : List Nat} (few : pending.length ≤ 1024) :
    checkDepth u64 pending = checkDepth ideal pending :=
  bind_eq_bind (exact.of_int (by omega) (by omega)) fun _ _ => rfl

/-- So is the body of an item read. -/
theorem parseBody_exact (exact : Exact u64) (bound : data.length < 2 ^ 64)
    {major info argument pos : Nat} {pending : List Nat} (small : argument < 2 ^ 64)
    (inside : pos ≤ data.length) (few : pending.length ≤ 1024) :
    parseBody u64 data major info argument pos pending =
      parseBody ideal data major info argument pos pending := by
  unfold parseBody
  split
  · rfl
  · split
    · refine bind_eq_bind rfl fun _ _ => ?_
      exact bind_eq_bind (skip_exact exact bound inside) fun _ _ => rfl
    · split
      · exact bind_eq_bind (checkDepth_exact exact few) fun _ _ => rfl
      · split
        · refine bind_eq_bind rfl fun _ entries => ?_
          rw [refuseIf_eq_ok, decide_eq_false_iff_not] at entries
          refine bind_eq_bind (checkDepth_exact exact few) fun _ _ => ?_
          exact bind_eq_bind (exact.of_int (by omega) (by omega)) fun _ _ => rfl
        · split
          · rfl
          · exact bind_eq_bind (skip_exact exact bound inside) fun _ _ => rfl

/-- All numbers of the state fit. -/
structure Fits (data : List UInt8) (s : Scan) : Prop where
  pos : s.pos ≤ data.length
  count : s.itemCount ≤ limits.kMaxItems
  depth : s.pending.length ≤ s.itemCount
  counts : ∀ k ∈ s.pending, k < 2 ^ 64

/-- **One round of the loop is the same in either arithmetic**. -/
theorem step_exact (exact : Exact u64) (bound : data.length < 2 ^ 64) {s : Scan}
    (fits : Fits data s) : step u64 data s = step ideal data s := by
  have count : s.itemCount ≤ 1024 := fits.count
  have depth := fits.depth
  refine bind_eq_bind rfl fun _ inside => ?_
  rw [refuseIf_eq_ok, decide_eq_false_iff_not] at inside
  refine bind_eq_bind (takeSlot_exact exact fits.counts) fun pending slots => ?_
  refine bind_eq_bind rfl fun initial _ => ?_
  refine bind_eq_bind (exact.of_int (by omega) (by omega)) fun pos stored => ?_
  rw [ideal_succ] at stored
  cases stored
  refine bind_eq_bind rfl fun _ _ => bind_eq_bind rfl fun _ unreserved => ?_
  rw [refuseIf_eq_ok, decide_eq_false_iff_not] at unreserved
  refine bind_eq_bind (argumentAt_exact exact bound (by omega)) fun read extended => ?_
  obtain ⟨small, inside'⟩ := argumentAt_fits bound (by omega) (by omega) extended
  refine bind_eq_bind (exact.of_int (by omega) (by omega)) fun itemCount _ => ?_
  refine bind_eq_bind rfl fun _ _ => ?_
  have same := (takeSlot_fits fits.counts slots).1
  exact bind_eq_bind (parseBody_exact exact bound small inside' (by omega)) fun _ _ => rfl

end Exact

/-! ## What a round reads -/

section Round

variable {data : List UInt8}

/-- The value of the bytes from `pos + i` on. -/
theorem readArgument_ideal {pos : Nat} (left i argument : Nat)
    (inside : pos + i + left ≤ data.length) :
    readArgument ideal data pos left i argument =
      .ok (((data.drop (pos + i)).take left).foldl (fun value byte => value * 256 + byte.toNat)
        argument) := by
  induction left generalizing i argument with
  | zero => rfl
  | succ left ih =>
      have here : pos + i < data.length := by omega
      have or_eq (byte : UInt8) : argument <<< 8 ||| byte.toNat = argument * 256 + byte.toNat := by
        rw [← Nat.shiftLeft_add_eq_or_of_lt byte.toNat_lt, Nat.shiftLeft_eq]
      have read : byteAt data (pos + i) = .ok data[pos + i] := by
        rw [byteAt, List.getElem?_eq_getElem here]
        rfl
      rw [readArgument, ideal_add]
      change (byteAt data (pos + i) >>= _) = _
      rw [read, List.drop_eq_getElem_cons here, List.take_succ_cons, List.foldl_cons, ← or_eq]
      exact ih (i + 1) _ (by omega)

/-- Where a head stands, the argument is its own, unless it is a float or a simple value. -/
theorem argumentAt_ideal {h : Cbor.Head} {pos : Nat} {rest : List UInt8}
    (here : data.drop pos = h.encode ++ rest) :
    argumentAt ideal data h.major h.info (pos + 1) =
      .ok (if h.major = 7 then h.info else h.argument,
        if h.major = 7 then pos + 1 else pos + h.encode.length) := by
  have length : data.length - pos = 1 + h.ext.length + rest.length := by
    rw [← List.length_drop, here]
    simp [Cbor.Head.encode]
    omega
  have tail : data.drop (pos + 1) = h.ext ++ rest := by
    rw [← List.drop_drop, here]
    rfl
  have ext := h.ext_length
  have encoded : h.encode.length = 1 + Cbor.width h.info := by
    simp [Cbor.Head.encode, ext, Nat.add_comm]
  rw [argumentAt]
  by_cases simple : h.major = 7
  · simp [simple]
  · by_cases wide : Cbor.width h.info = 0
    · simp [wide, simple, encoded, Cbor.Head.argument]
    · have positive : Cbor.width h.info > 0 := by omega
      have enough : ¬ Cbor.width h.info > data.length - (pos + 1) := by omega
      have value : readArgument ideal data (pos + 1) (Cbor.width h.info) 0 0 =
          .ok h.argument := by
        rw [readArgument_ideal _ 0 0 (by omega), Nat.add_zero, tail, ← ext, List.take_left,
          Cbor.Head.argument, if_neg wide]
        rfl
      rw [if_pos (by simp [positive, simple]), ideal_sub, if_neg simple, if_neg simple, encoded]
      change (refuseIf _ _ >>= _) = _
      rw [refuseIf, if_neg (by simpa using enough)]
      change (readArgument ideal data (pos + 1) _ 0 0 >>= _) = _
      rw [value, ideal_add]
      change Except.ok (h.argument, pos + 1 + Cbor.width h.info) = _
      rw [Nat.add_assoc]

theorem skip_ideal {pos n pos' : Nat} {why : String} :
    skip ideal data pos n why = .ok pos' ↔ n ≤ data.length - pos ∧ pos + n = pos' := by
  simp [skip, bind_eq_ok]

theorem checkDepth_ideal {pending : List Nat} {u : Unit} :
    checkDepth ideal pending = .ok u ↔ pending.length < limits.kMaxDepth := by
  rw [checkDepth]
  change refuseIf (decide (pending.length + 1 > limits.kMaxDepth)) _ = _ ↔ _
  rw [refuseIf_eq_ok, decide_eq_false_iff_not, Nat.not_lt]
  exact Nat.succ_le_iff

/-- The frames after an item: what encloses others has one of its own. -/
def pushed (h : Cbor.Head) (pending : List Nat) : List Nat :=
  if h.major = 4 ∨ h.major = 5 ∨ h.major = 6 then h.children :: pending else pending

theorem dropWhile_pushed (h : Cbor.Head) (pending : List Nat) :
    (pushed h pending).dropWhile (· == 0) = (h.children :: pending).dropWhile (· == 0) := by
  unfold pushed
  split
  · rfl
  · next leaf =>
      have none : h.children = 0 := by
        unfold Cbor.Head.children
        repeat' split
        all_goals omega
      rw [none]
      rfl

/-- The limits a head is held to, when so many bytes follow it inside so many frames. -/
structure Allowed (h : Cbor.Head) (follow depth : Nat) : Prop where
  inside : h.payload ≤ follow
  string : h.isString = true → h.payload ≤ limits.kMaxStringBytes
  container : h.isContainer = true → depth < limits.kMaxDepth
  entries : h.major = 5 → h.argument ≤ (2 ^ 64 - 1) / 2

/-- What the limits say about a head. -/
theorem allowed_iff {h : Cbor.Head} {follow depth : Nat} :
    Allowed h follow depth ↔ h.payload ≤ follow ∧
      (h.isString = true → h.payload ≤ limits.kMaxStringBytes) ∧
      (h.isContainer = true → depth < limits.kMaxDepth) ∧
      (h.major = 5 → h.argument ≤ (2 ^ 64 - 1) / 2) :=
  ⟨fun allowed => ⟨allowed.inside, allowed.string, allowed.container, allowed.entries⟩,
    fun ⟨inside, string, container, entries⟩ => ⟨inside, string, container, entries⟩⟩

/-- The body of an item is read if its head is allowed. -/
theorem parseBody_ideal {h : Cbor.Head} {pos : Nat} {rest : List UInt8} {pending : List Nat}
    {out : Nat × List Nat} (here : data.drop pos = h.encode ++ rest) :
    parseBody ideal data h.major h.info (if h.major = 7 then h.info else h.argument)
        (if h.major = 7 then pos + 1 else pos + h.encode.length) pending = .ok out ↔
      Allowed h rest.length pending.length ∧
        (pos + h.encode.length + h.payload, pushed h pending) = out := by
  have length : data.length - pos = h.encode.length + rest.length := by
    rw [← List.length_drop, here, List.length_append]
  have encoded : h.encode.length = 1 + Cbor.width h.info := by
    simp [Cbor.Head.encode, h.ext_length, Nat.add_comm]
  have left : data.length - (pos + h.encode.length) = rest.length := by omega
  have enough : Cbor.width h.info ≤ data.length - (pos + 1) := by omega
  have after : pos + 1 + Cbor.width h.info = pos + h.encode.length := by omega
  have major := h.major_lt
  rw [allowed_iff]
  rcases (by omega : h.major = 0 ∨ h.major = 1 ∨ h.major = 2 ∨ h.major = 3 ∨ h.major = 4 ∨
      h.major = 5 ∨ h.major = 6 ∨ h.major = 7) with is | is | is | is | is | is | is | is <;>
    simp [-bind_pure_comp, parseBody, is, pushed, Cbor.Head.payload, Cbor.Head.isString,
      Cbor.Head.isContainer, Cbor.Head.children, bind_eq_ok, checkDepth_ideal, skip_ideal, left,
      enough, after, and_assoc, and_left_comm]

theorem takeSlot_ideal {slot : Nat} {pending : List Nat} :
    takeSlot ideal ((slot + 1) :: pending) = .ok (slot :: pending) := by
  rw [takeSlot, ideal_pred]
  rfl

theorem shiftRight_byte (n : Nat) : n >>> 5 = n / 32 :=
  Nat.shiftRight_eq_div_pow n 5

theorem and_byte (n : Nat) : n &&& 0x1F = n % 32 :=
  Nat.and_two_pow_sub_one_eq_mod n 5

/-- A round at a head. -/
theorem step_of_head {s s' : Scan} {pending : List Nat} {h : Cbor.Head} {rest : List UInt8}
    (slots : takeSlot ideal s.pending = .ok pending)
    (here : data.drop s.pos = h.encode ++ rest) :
    step ideal data s = .ok s' ↔
      s.itemCount < limits.kMaxItems ∧ Allowed h rest.length pending.length ∧
        { pos := s.pos + h.encode.length + h.payload
          itemCount := s.itemCount + 1
          pending := (h.children :: pending).dropWhile (· == 0) } = s' := by
  have value := h.toNat_initial
  have info_lt := h.info_lt
  have major : h.initial.toNat / 32 = h.major := by omega
  have info : h.initial.toNat % 32 = h.info := by omega
  have inside : ¬ s.pos ≥ data.length := by
    have length := congrArg List.length here
    simp [Cbor.Head.encode] at length
    omega
  have byte : byteAt data s.pos = .ok h.initial := by
    have first := congrArg (·[0]?) here
    simp only [List.getElem?_drop, Nat.add_zero] at first
    rw [byteAt, first]
    rfl
  have definite : ¬ h.info = 31 := by omega
  have unreserved : ¬ h.info ≥ 28 := by omega
  simp only [step, bind_eq_ok, refuseIf_eq_ok, decide_eq_false_iff_not, inside, slots, byte,
    shiftRight_byte, and_byte, Except.ok.injEq, exists_eq_left', major, info, definite, unreserved,
    ideal_succ, argumentAt_ideal here, parseBody_ideal here, not_false_iff, exists_const, true_and,
    pure_eq_ok, Nat.not_lt, gt_iff_lt]
  constructor
  · intro parsed
    obtain ⟨count, out, ⟨allowed, rfl⟩, rfl⟩ := parsed
    exact ⟨count, allowed, by rw [dropWhile_pushed]⟩
  · intro allowed
    obtain ⟨count, allowed, rfl⟩ := allowed
    exact ⟨count, _, ⟨allowed, rfl⟩, by rw [dropWhile_pushed]⟩

/-- The extension bytes are there, whichever branch has looked for them. -/
theorem width_le_of_parsed {major info pos argument pos' : Nat} {pending : List Nat}
    {out : Nat × List Nat}
    (extended : argumentAt ideal data major info pos = .ok (argument, pos'))
    (parsed : parseBody ideal data major info argument pos' pending = .ok out) :
    Cbor.width info ≤ data.length - pos := by
  by_cases simple : major = 7
  · simp only [argumentAt, simple, bne_self_eq_false, Bool.and_false, Bool.false_eq_true, if_false,
      pure_eq_ok, Prod.mk.injEq] at extended
    obtain ⟨-, rfl⟩ := extended
    simp [-bind_pure_comp, parseBody, simple, bind_eq_ok, skip_ideal] at parsed
    exact parsed.1
  · by_cases wide : Cbor.width info = 0
    · omega
    · have positive : Cbor.width info > 0 := by omega
      simp only [argumentAt, positive, bne_iff_ne.mpr simple, decide_true, Bool.and_self, if_true,
        ideal_sub, bind_eq_ok, refuseIf_eq_ok, decide_eq_false_iff_not, Except.ok.injEq,
        exists_eq_left'] at extended
      obtain ⟨-, enough, -⟩ := extended
      omega

/-- A round that goes well has read a head. -/
theorem head_of_step {s s' : Scan} (stepped : step ideal data s = .ok s') :
    ∃ (h : Cbor.Head) (rest : List UInt8), data.drop s.pos = h.encode ++ rest := by
  simp only [step, bind_eq_ok, refuseIf_eq_ok, decide_eq_false_iff_not, shiftRight_byte, and_byte,
    ideal_succ, Except.ok.injEq, exists_eq_left', pure_eq_ok] at stepped
  obtain ⟨-, inside, pending, slots, initial, byte, -, definite, -, unreserved, ⟨argument, pos⟩,
    extended, -, -, ⟨pos', pending'⟩, parsed, -⟩ := stepped
  have found : data[s.pos]? = some initial := by
    rw [byteAt, orRefuse_eq_ok] at byte
    exact byte
  obtain ⟨bound, rfl⟩ := List.getElem?_eq_some_iff.mp found
  have enough : Cbor.width (data[s.pos].toNat % 32) ≤ data.length - (s.pos + 1) :=
    width_le_of_parsed extended parsed
  have fits : data[s.pos].toNat % 32 < 28 ∧
      Cbor.width (data[s.pos].toNat % 32) ≤ (data.drop (s.pos + 1)).length := by
    rw [List.length_drop]
    exact ⟨by omega, enough⟩
  have read : (Cbor.Head.read (data.drop s.pos)).isSome = true := by
    rw [List.drop_eq_getElem_cons bound, Cbor.Head.read, dif_pos fits]
    rfl
  obtain ⟨h, found⟩ := Option.isSome_iff_exists.mp read
  exact ⟨h, Cbor.Head.exists_rest_of_read found⟩

end Round

/-! ## Whole scans -/

/-- The counts a state stands for: the root item before the first round, then the frames and
the root that is owed nothing more.  No frame on top is owed nothing. -/
inductive Stack : List Nat → List Nat → Prop
  | root : Stack [] [1]
  | frames {slot : Nat} {pending : List Nat} :
      Stack ((slot + 1) :: pending) ((slot + 1) :: (pending ++ [0]))

/-- The limits of the grammar that the scan stands for. -/
abbrev Owed := Cbor.Owed limits.kMaxStringBytes 7

section Scans

variable {data : List UInt8} {n : Nat}

/-- A frame that is open has a slot left. -/
theorem Stack.takeSlot {pending frames : List Nat} (stack : Stack pending frames) :
    ∃ slot below pending', frames = (slot + 1) :: below ∧
      CborReader.takeSlot ideal pending = .ok pending' ∧ pending'.length = below.length ∧
      slot :: below = pending' ++ [0] := by
  cases stack with
  | root => exact ⟨0, [], [], rfl, rfl, rfl, rfl⟩
  | @frames slot pending =>
      exact ⟨slot, pending ++ [0], slot :: pending, rfl, takeSlot_ideal, by simp, rfl⟩

/-- What is left on the stack after a round has closed out the finished frames. -/
theorem Stack.of_dropWhile {pending : List Nat} (open_ : pending.dropWhile (· == 0) ≠ []) :
    Stack (pending.dropWhile (· == 0)) ((pending ++ [0]).dropWhile (· == 0)) := by
  have eq : (pending ++ [0]).dropWhile (· == 0) = pending.dropWhile (· == 0) ++ [0] := by
    rw [List.dropWhile_append, if_neg (by simpa using open_)]
  rw [eq]
  cases top : pending.dropWhile (· == 0) with
  | nil => exact absurd top open_
  | cons slot below =>
      have positive : slot ≠ 0 := by
        have first := List.head?_dropWhile_not (· == 0) pending
        rw [top] at first
        simpa using first
      obtain ⟨slot, rfl⟩ := Nat.exists_eq_succ_of_ne_zero positive
      exact .frames

/-- The scan ends at `n` if the bytes from the position on pay off the frames with what the
limit on items leaves. -/
def Pays (data : List UInt8) (pos itemCount : Nat) (frames : List Nat) (n : Nat) : Prop :=
  ∃ items len, itemCount + items ≤ limits.kMaxItems ∧ Owed frames (data.drop pos) items len ∧
    n = pos + len

/-- One round and what follows it, against one item and what is owed after it. -/
theorem pays_succ_iff {pos itemCount slot : Nat} {below : List Nat} :
    Pays data pos itemCount ((slot + 1) :: below) n ↔
      ∃ (h : Cbor.Head) (rest : List UInt8), data.drop pos = h.encode ++ rest ∧
        itemCount < limits.kMaxItems ∧ Allowed h rest.length below.length ∧
        Pays data (pos + h.encode.length + h.payload) (itemCount + 1)
          (h.children :: slot :: below) n := by
  constructor
  · intro pays
    obtain ⟨items, len, count, owed, rfl⟩ := pays
    obtain ⟨h, payload, rest, items', len', here, length, string, container, rfl, rfl, next⟩ :=
      Cbor.owed_succ_iff.mp owed
    have after : data.drop (pos + h.encode.length + h.payload) = rest := by
      rw [← List.drop_drop, ← List.drop_drop, here, ← length, List.append_assoc, List.drop_left,
        List.drop_left]
    have few := Cbor.le_of_owed next
    have room : itemCount + items' + 1 ≤ 1024 := count
    refine ⟨h, payload ++ rest, by rw [here, List.append_assoc], by omega, ?_, items', len', ?_, ?_,
      ?_⟩
    · refine ⟨by simp [length], fun is => length ▸ string is, fun is => ?_, fun is => ?_⟩
      · exact Nat.lt_succ_of_le (container is)
      · rw [Cbor.Head.children, if_neg (by omega), if_pos is] at few
        omega
    · omega
    · rw [after]
      exact next
    · omega
  · intro next
    obtain ⟨h, rest, here, count, allowed, items, len, count', owed, rfl⟩ := next
    have after : data.drop (pos + h.encode.length + h.payload) = rest.drop h.payload := by
      rw [← List.drop_drop, ← List.drop_drop, here, List.drop_left]
    have length : (rest.take h.payload).length = h.payload := by
      rw [List.length_take, Nat.min_eq_left allowed.inside]
    rw [after] at owed
    refine ⟨items + 1, h.encode.length + h.payload + len, by omega, ?_, by omega⟩
    refine Cbor.owed_succ_iff.mpr ⟨h, rest.take h.payload, rest.drop h.payload, items, len, ?_,
      length, ?_, ?_, rfl, by rw [length], owed⟩
    · rw [here, List.append_assoc, List.take_append_drop]
    · intro is
      rw [length]
      exact allowed.string is
    · intro is
      exact Nat.le_of_lt_succ (allowed.container is)

/-- What follows a round, when it has closed out the finished frames. -/
theorem pays_after_iff {pos itemCount : Nat} {pending : List Nat} :
    Pays data pos itemCount (pending ++ [0]) n ↔
      Pays data pos itemCount ((pending ++ [0]).dropWhile (· == 0)) n := by
  simp only [Pays, Owed, Cbor.owed_dropWhile_iff]

/-- The scan from any state on. -/
theorem scan_ideal {rounds : Nat} {s : Scan} {frames : List Nat} (stack : Stack s.pending frames)
    (inside : s.pos ≤ data.length) (enough : data.length < s.pos + rounds) :
    scan ideal data rounds s = .ok n ↔ Pays data s.pos s.itemCount frames n := by
  induction rounds generalizing s frames with
  | zero => omega
  | succ rounds ih =>
      obtain ⟨slot, below, pending, rfl, slots, same, eq⟩ := stack.takeSlot
      -- what one head leads to, on both sides
      have goes_on {h : Cbor.Head} {rest : List UInt8} (here : data.drop s.pos = h.encode ++ rest)
          (count : s.itemCount < limits.kMaxItems)
          (allowed : Allowed h rest.length pending.length) :
          (if ((h.children :: pending).dropWhile (· == 0)).isEmpty then
              (pure (s.pos + h.encode.length + h.payload) : Except Stop Nat)
            else scan ideal data rounds
              { pos := s.pos + h.encode.length + h.payload, itemCount := s.itemCount + 1
                pending := (h.children :: pending).dropWhile (· == 0) }) = .ok n ↔
            Pays data (s.pos + h.encode.length + h.payload) (s.itemCount + 1)
              (h.children :: slot :: below) n := by
        have length := congrArg List.length here
        have encoded : h.encode.length = h.ext.length + 1 := rfl
        have payload := allowed.inside
        rw [List.length_drop, List.length_append] at length
        rw [eq, ← List.cons_append, pays_after_iff]
        by_cases closed : (h.children :: pending).dropWhile (· == 0) = []
        · rw [closed, List.dropWhile_append, closed]
          simp [Pays, Cbor.Owed]
          omega
        · rw [if_neg (by simpa using closed)]
          exact ih (Stack.of_dropWhile closed) (by dsimp only; omega) (by dsimp only; omega)
      rw [scan, bind_eq_ok, pays_succ_iff]
      constructor
      · intro scanned
        obtain ⟨s', stepped, scanned⟩ := scanned
        obtain ⟨h, rest, here⟩ := head_of_step stepped
        obtain ⟨count, allowed, rfl⟩ := (step_of_head slots here).mp stepped
        exact ⟨h, rest, here, count, same ▸ allowed, (goes_on here count allowed).mp scanned⟩
      · intro next
        obtain ⟨h, rest, here, count, allowed, pays⟩ := next
        rw [← same] at allowed
        exact ⟨_, (step_of_head slots here).mpr ⟨count, allowed, rfl⟩,
          (goes_on here count allowed).mpr pays⟩

/-- An allowed head announces fewer items than the arithmetic holds. -/
theorem children_lt {h : Cbor.Head} {follow depth : Nat} (allowed : Allowed h follow depth) :
    h.children < 2 ^ 64 := by
  have argument := h.argument_lt
  have entries := allowed.entries
  unfold Cbor.Head.children
  repeat' split
  all_goals omega

/-- The frames that are left are among those there were. -/
theorem Fits.next {s s' : Scan} (fits : Fits data s) (stepped : step ideal data s = .ok s') :
    Fits data s' := by
  obtain ⟨h, rest, here⟩ := head_of_step stepped
  obtain ⟨pending, slots⟩ : ∃ pending, takeSlot ideal s.pending = .ok pending := by
    obtain ⟨-, -, rest⟩ := bind_eq_ok.mp stepped
    obtain ⟨pending, slots, -⟩ := bind_eq_ok.mp rest
    exact ⟨pending, slots⟩
  obtain ⟨same, counts⟩ := takeSlot_fits fits.counts slots
  obtain ⟨count, allowed, rfl⟩ := (step_of_head slots here).mp stepped
  have length := congrArg List.length here
  have encoded : h.encode.length = h.ext.length + 1 := rfl
  have payload := allowed.inside
  have left := (List.dropWhile_sublist (l := h.children :: pending) (· == 0)).length_le
  have depth := fits.depth
  rw [List.length_drop, List.length_append] at length
  rw [List.length_cons] at left
  refine ⟨by dsimp only; omega, count, by dsimp only; omega, fun k mem => ?_⟩
  rcases List.mem_cons.mp ((List.dropWhile_sublist _).mem mem) with rfl | below
  · exact children_lt allowed
  · exact counts k below

/-- The whole loop is the same in either arithmetic. -/
theorem scan_exact {u64 : Arithmetic} (exact : Exact u64) (bound : data.length < 2 ^ 64)
    {rounds : Nat} {s : Scan} (fits : Fits data s) :
    scan u64 data rounds s = scan ideal data rounds s := by
  induction rounds generalizing s with
  | zero => rfl
  | succ rounds ih =>
      refine bind_eq_bind (step_exact exact bound fits) fun s' stepped => ?_
      rw [ih (fits.next stepped)]

/-- **The check is the same in either arithmetic**. -/
theorem validateStructure_eq_ideal {u64 : Arithmetic} (exact : Exact u64)
    (bound : data.length < 2 ^ 64) :
    validateStructure u64 data = validateStructure ideal data := by
  refine bind_eq_bind rfl fun _ _ => scan_exact exact bound ⟨?_, ?_, ?_, ?_⟩
  · exact Nat.zero_le _
  · exact Nat.zero_le _
  · exact Nat.le_refl 0
  · intro k mem
    cases mem

/-! ## The answer -/

/-- The failures that can be reported. -/
def Reported (stop : Stop) : Prop :=
  ∃ why, stop = .fail why ∧ why ≠ "internal error: retired frame pending"

theorem reported {why : String} (other : why ≠ "internal error: retired frame pending") :
    Reported (.fail why) :=
  ⟨why, rfl, other⟩

theorem skip_reported {pos n : Nat} {why : String}
    (other : why ≠ "internal error: retired frame pending") :
    Answers Reported (skip ideal data pos n why) := by
  refine answers_ok.bind fun left _ => ?_
  exact (answers_refuseIf (reported other)).bind fun _ _ => answers_ok

theorem checkDepth_reported {pending : List Nat} :
    Answers Reported (checkDepth ideal pending) :=
  answers_ok.bind fun _ _ => answers_refuseIf (reported (by decide))

theorem argumentAt_reported {major info pos : Nat} (inside : pos ≤ data.length) :
    Answers Reported (argumentAt ideal data major info pos) := by
  unfold argumentAt
  dsimp only
  split
  · rw [ideal_sub]
    refine answers_ok.bind fun left stored => ?_
    cases stored
    refine (answers_refuseIf (reported (by decide))).bind fun _ enough => ?_
    rw [refuseIf_eq_ok, decide_eq_false_iff_not] at enough
    rw [readArgument_ideal _ 0 0 (by omega)]
    exact answers_ok.bind fun _ _ => answers_ok
  · exact answers_ok

theorem parseBody_reported {major info argument pos : Nat} {pending : List Nat} :
    Answers Reported (parseBody ideal data major info argument pos pending) := by
  unfold parseBody
  split
  · exact answers_ok
  · split
    · refine (answers_refuseIf (reported (by decide))).bind fun _ _ => ?_
      exact (skip_reported (by decide)).bind fun _ _ => answers_ok
    · split
      · exact checkDepth_reported.bind fun _ _ => answers_ok
      · split
        · refine (answers_refuseIf (reported (by decide))).bind fun _ _ => ?_
          exact checkDepth_reported.bind fun _ _ => answers_ok
        · split
          · exact answers_ok
          · exact (skip_reported (by decide)).bind fun _ _ => answers_ok

/-- A round takes its slot from a frame that is owed one, and reads inside the bytes. -/
theorem step_reported {s : Scan} {frames : List Nat} (stack : Stack s.pending frames) :
    Answers Reported (step ideal data s) := by
  obtain ⟨-, -, pending, -, slots, -⟩ := stack.takeSlot
  refine (answers_refuseIf (reported (by decide))).bind fun _ inside => ?_
  rw [refuseIf_eq_ok, decide_eq_false_iff_not, Nat.not_le] at inside
  rw [slots, byteAt, List.getElem?_eq_getElem inside, ideal_succ]
  refine answers_ok.bind fun _ _ => answers_ok.bind fun _ _ => answers_ok.bind fun pos stored => ?_
  cases stored
  refine (answers_refuseIf (reported (by decide))).bind fun _ _ => ?_
  refine (answers_refuseIf (reported (by decide))).bind fun _ _ => ?_
  refine (argumentAt_reported inside).bind fun _ _ => answers_ok.bind fun _ _ => ?_
  refine (answers_refuseIf (reported (by decide))).bind fun _ _ => ?_
  exact parseBody_reported.bind fun _ _ => answers_ok

/-- A loop with enough rounds ends with a reported error or an end. -/
theorem scan_reported {rounds : Nat} {s : Scan} {frames : List Nat}
    (stack : Stack s.pending frames) (inside : s.pos ≤ data.length)
    (enough : data.length < s.pos + rounds) : Answers Reported (scan ideal data rounds s) := by
  induction rounds generalizing s frames with
  | zero => omega
  | succ rounds ih =>
      refine (step_reported stack).bind fun s' stepped => ?_
      obtain ⟨-, -, pending, -, slots, -⟩ := stack.takeSlot
      obtain ⟨h, rest, here⟩ := head_of_step stepped
      obtain ⟨-, allowed, rfl⟩ := (step_of_head slots here).mp stepped
      have length := congrArg List.length here
      have encoded : h.encode.length = h.ext.length + 1 := rfl
      have payload := allowed.inside
      rw [List.length_drop, List.length_append] at length
      by_cases closed : (h.children :: pending).dropWhile (· == 0) = []
      · rw [closed]
        exact answers_ok
      · rw [if_neg (by simpa using closed)]
        exact ih (Stack.of_dropWhile closed) (by dsimp only; omega) (by dsimp only; omega)

/-- Every refusal is one that the source reports. -/
theorem validateStructure_reported : Answers Reported (validateStructure ideal data) := by
  refine (answers_refuseIf (reported (by decide))).bind fun _ _ => ?_
  exact scan_reported .root (Nat.zero_le _) (by dsimp only; omega)

/-- **The check accepts exactly what begins with one item within the limits**. -/
theorem validateStructure_ideal {n : Nat} :
    validateStructure ideal data = .ok n ↔ Cbor.IsItem 1024 65536 7 data n := by
  have scanned : scan ideal data (data.length + 1) {} = .ok n ↔ Pays data 0 0 [1] n :=
    scan_ideal .root (Nat.zero_le _) (by dsimp only; omega)
  have pays : Pays data 0 0 [1] n ↔ Cbor.IsItem 1024 65536 7 data n := by
    rw [Cbor.isItem_iff_owed, Pays]
    refine exists_congr fun items => ?_
    simp [limits.kMaxItems, Owed, limits.kMaxStringBytes]
  cases data with
  | nil =>
      -- the empty input is refused before the loop, which would refuse it too
      refine ⟨fun answered => ?_, fun item => ?_⟩
      · cases answered
      · cases scanned.mpr (pays.mpr item)
  | cons byte data => exact scanned.trans pays

end Scans

/-- The answer is the length of the item at the front, if there is one within the limits, and
the bytes after it do not matter; no operation wraps around; and what is reported otherwise
is never a retired frame. -/
theorem validateStructure_exact (bytes : List UInt8) (start : Nat) (bound : bytes.length < 2 ^ 64) :
    (∀ n, validateStructure machine (bytes.drop start) = .ok n ↔
      Cbor.IsItem 1024 65536 7 (bytes.drop start) n) ∧
    (∀ n more, validateStructure machine (bytes.drop start) = .ok n →
      ((bytes.drop start).take n ++ more).length < 2 ^ 64 →
        validateStructure machine ((bytes.drop start).take n ++ more) = .ok n) ∧
    validateStructure checked (bytes.drop start) = validateStructure machine (bytes.drop start) ∧
    ∀ stop, validateStructure machine (bytes.drop start) = .error stop → Reported stop := by
  have short : (bytes.drop start).length < 2 ^ 64 := by
    rw [List.length_drop]
    omega
  have same := validateStructure_eq_ideal exact_machine short
  refine ⟨fun n => ?_, fun n more answered fits => ?_, ?_, fun stop failed => ?_⟩
  · rw [same, validateStructure_ideal]
  · rw [same, validateStructure_ideal] at answered
    rw [validateStructure_eq_ideal exact_machine fits, validateStructure_ideal]
    exact answered.with_more more
  · rw [same, validateStructure_eq_ideal exact_checked short]
  · rw [same] at failed
    exact validateStructure_reported stop failed

/-- A map of one pair, `{1: "a"}`, with a byte after it. -/
theorem validateStructure_exact_map :
    Cbor.IsItem 1024 65536 7 [0xa1, 0x01, 0x61, 0x61] 4 ∧
      validateStructure machine ([0xa1, 0x01, 0x61, 0x61] ++ [0xff]) = .ok 4 := by
  have short : ([0xa1, 0x01, 0x61, 0x61] : List UInt8).length < 2 ^ 64 := by decide
  obtain ⟨exact, more, -, -⟩ := validateStructure_exact [0xa1, 0x01, 0x61, 0x61] 0 short
  have answered : validateStructure machine [0xa1, 0x01, 0x61, 0x61] = .ok 4 := by decide
  exact ⟨(exact 4).mp answered, more 4 [0xff] answered (by decide)⟩

end CborReader

end Fulla
