import Mathlib.Algebra.Group.Int.Defs
import Mathlib.Algebra.Group.Nat.Defs
import Mathlib.Data.List.Basic

/-!
# The grammar of CBOR

RFC 8949, definite lengths only.  A data item is a head, which is an initial byte and the
bytes of an extended argument, then the payload of a string or the items it encloses.
`Items` is a sequence of such trees, with the enclosed items of the first one as its
content and the items after it as the rest.

A scanner that works through the bytes from left to right has at every moment a stack of
counts: how many items are still to come at each level, innermost first.  `Owed` says what
bytes pay such a stack off, and `owed_succ_iff` that one item is paid at a time.
-/

namespace Cbor

/-- The number of bytes of an extended argument. -/
def width (info : Nat) : Nat :=
  if info = 24 then 1
  else if info = 25 then 2
  else if info = 26 then 4
  else if info = 27 then 8
  else 0

/-- The value of bytes, the highest first. -/
def bigEndian (bytes : List UInt8) : Nat :=
  bytes.foldl (fun value byte => value * 256 + byte.toNat) 0

theorem foldl_bigEndian_lt (bytes : List UInt8) (value : Nat) :
    bytes.foldl (fun value byte => value * 256 + byte.toNat) value <
      (value + 1) * 256 ^ bytes.length := by
  induction bytes generalizing value with
  | nil => simp
  | cons byte bytes ih =>
      have byte_lt := byte.toNat_lt
      have wider : (value * 256 + byte.toNat + 1) * 256 ^ bytes.length ≤
          (value + 1) * 256 * 256 ^ bytes.length :=
        Nat.mul_le_mul_right _ (by omega)
      rw [List.foldl_cons, List.length_cons, Nat.pow_succ', ← Nat.mul_assoc]
      exact Nat.lt_of_lt_of_le (ih _) wider

theorem width_le (info : Nat) : width info ≤ 8 := by
  unfold width
  repeat' split
  all_goals omega

/-- The additional information 28, 29 and 30 is reserved, and 31 stands for an indefinite
length. -/
structure Head where
  major : Nat
  info : Nat
  ext : List UInt8
  major_lt : major < 8
  info_lt : info < 28
  ext_length : ext.length = width info

namespace Head

/-- The first byte of an item. -/
def initial (h : Head) : UInt8 :=
  UInt8.ofNat (32 * h.major + h.info)

/-- The bytes of a head. -/
def encode (h : Head) : List UInt8 :=
  h.initial :: h.ext

/-- The number that a head carries. -/
def argument (h : Head) : Nat :=
  if width h.info = 0 then h.info else bigEndian h.ext

/-- Byte strings are of major type 2, text strings of 3. -/
def isString (h : Head) : Bool :=
  h.major == 2 || h.major == 3

/-- Arrays are of major type 4, maps of 5. -/
def isContainer (h : Head) : Bool :=
  h.major == 4 || h.major == 5

/-- The bytes that follow the head of a string. -/
def payload (h : Head) : Nat :=
  if h.isString then h.argument else 0

/-- How many items the item encloses: a map has two for each entry, a tag one. -/
def children (h : Head) : Nat :=
  if h.major = 4 then h.argument
  else if h.major = 5 then h.argument * 2
  else if h.major = 6 then 1
  else 0

theorem toNat_initial (h : Head) : h.initial.toNat = 32 * h.major + h.info := by
  have major := h.major_lt
  have info := h.info_lt
  rw [initial, UInt8.toNat_ofNat', Nat.mod_eq_of_lt (by omega)]

theorem argument_lt (h : Head) : h.argument < 2 ^ 64 := by
  have info_lt := h.info_lt
  unfold argument
  split
  · omega
  · have value := foldl_bigEndian_lt h.ext 0
    have length : h.ext.length ≤ 8 := h.ext_length ▸ width_le h.info
    have pow : 256 ^ h.ext.length ≤ 256 ^ 8 := Nat.pow_le_pow_right (by omega) length
    simp only [bigEndian]
    omega

theorem ext_eq {h h' : Head} (same : h.major = h'.major) (same' : h.info = h'.info)
    (ext : h.ext = h'.ext) : h = h' := by
  cases h
  cases h'
  cases same
  cases same'
  cases ext
  rfl

/-- A head is determined by the bytes it starts. -/
theorem eq_of_encode_append {h h' : Head} {rest rest' : List UInt8}
    (same : h.encode ++ rest = h'.encode ++ rest') : h = h' ∧ rest = rest' := by
  injection same with initial tail
  have value : 32 * h.major + h.info = 32 * h'.major + h'.info := by
    rw [← toNat_initial, ← toNat_initial, initial]
  have info := h.info_lt
  have info' := h'.info_lt
  have same_info : h.info = h'.info := by omega
  have same_length : h.ext.length = h'.ext.length := by
    rw [h.ext_length, h'.ext_length, same_info]
  obtain ⟨same_ext, same_rest⟩ := List.append_inj tail same_length
  exact ⟨ext_eq (by omega) same_info same_ext, same_rest⟩

/-- The head the bytes begin with. -/
def read : List UInt8 → Option Head
  | [] => none
  | initial :: tail =>
    if fits : initial.toNat % 32 < 28 ∧ width (initial.toNat % 32) ≤ tail.length then
      some
        { major := initial.toNat / 32
          info := initial.toNat % 32
          ext := tail.take (width (initial.toNat % 32))
          major_lt := by
            have byte := initial.toNat_lt
            omega
          info_lt := fits.1
          ext_length := by rw [List.length_take, Nat.min_eq_left fits.2] }
    else none

theorem exists_rest_of_read {h : Head} {bytes : List UInt8} (found : read bytes = some h) :
    ∃ rest, bytes = h.encode ++ rest := by
  cases bytes with
  | nil => cases found
  | cons initial tail =>
      rw [read] at found
      split at found
      · next fits =>
          refine ⟨tail.drop h.ext.length, ?_⟩
          cases found
          have same : UInt8.ofNat (32 * (initial.toNat / 32) + initial.toNat % 32) = initial := by
            rw [Nat.div_add_mod, UInt8.ofNat_toNat]
          simp only [encode, Head.initial, same, List.cons_append, List.length_take,
            Nat.min_eq_left fits.2, List.take_append_drop]
      · cases found

end Head

/-- A sequence of data items. -/
inductive Items where
  | nil
  | item (head : Head) (payload : List UInt8) (content rest : Items)

namespace Items

/-- The items of the sequence itself. -/
def number : Items → Nat
  | nil => 0
  | item _ _ _ rest => rest.number + 1

/-- All items, the enclosed ones included. -/
def count : Items → Nat
  | nil => 0
  | item _ _ content rest => 1 + content.count + rest.count

/-- The bytes of items. -/
def encode : Items → List UInt8
  | nil => []
  | item head payload content rest => head.encode ++ payload ++ content.encode ++ rest.encode

/-- The payloads are as long and the contents as many as the heads say. -/
def WellFormed : Items → Prop
  | nil => True
  | item head payload content rest =>
    payload.length = head.payload ∧ content.number = head.children ∧ content.WellFormed ∧
      rest.WellFormed

/-- No string is longer. -/
def StringsWithin (max : Nat) : Items → Prop
  | nil => True
  | item head payload content rest =>
    (head.isString = true → payload.length ≤ max) ∧ content.StringsWithin max ∧
      rest.StringsWithin max

/-- The items are enclosed in `depth` others; every array and map among them and within
them is enclosed in at most `max`. -/
def EnclosedWithin (max : Nat) : Nat → Items → Prop
  | _, nil => True
  | depth, item head _ content rest =>
    (head.isContainer = true → depth ≤ max) ∧ content.EnclosedWithin max (depth + 1) ∧
      rest.EnclosedWithin max depth

theorem number_le_count (items : Items) : items.number ≤ items.count := by
  induction items with
  | nil => exact Nat.le_refl 0
  | item head payload content rest _ ih =>
      simp only [number, count]
      omega

theorem eq_nil_of_number {items : Items} (none : items.number = 0) : items = nil := by
  cases items with
  | nil => rfl
  | item head payload content rest => exact absurd none (Nat.succ_ne_zero _)

end Items

/-- The first `n` bytes are one well-formed item with at most `maxItems` items, strings of at
most `maxString` bytes and arrays and maps enclosed in at most `maxDepth` items. -/
def IsItem (maxItems maxString maxDepth : Nat) (bytes : List UInt8) (n : Nat) : Prop :=
  ∃ items : Items, items.number = 1 ∧ items.WellFormed ∧ items.count ≤ maxItems ∧
    items.StringsWithin maxString ∧ items.EnclosedWithin maxDepth 0 ∧
    items.encode.length = n ∧ items.encode <+: bytes

/-- Only the bytes of the item matter. -/
theorem IsItem.with_more {maxItems maxString maxDepth n : Nat} {bytes : List UInt8}
    (item : IsItem maxItems maxString maxDepth bytes n) (more : List UInt8) :
    IsItem maxItems maxString maxDepth (bytes.take n ++ more) n := by
  obtain ⟨items, number, formed, count, strings, depth, rfl, rest, rfl⟩ := item
  refine ⟨items, number, formed, count, strings, depth, rfl, ?_⟩
  rw [List.take_left]
  exact List.prefix_append _ _

/-! ## Stacks of counts -/

/-- The bytes begin with `items` items and `len` bytes that pay off the frames, innermost
first: for each of them as many items as it says.  A frame is enclosed in as many items as
there are frames below it. -/
def Owed (maxString maxDepth : Nat) : List Nat → List UInt8 → Nat → Nat → Prop
  | [], _, items, len => items = 0 ∧ len = 0
  | owed :: frames, bytes, items, len =>
    ∃ (paid : Items) (rest : List UInt8) (items' len' : Nat),
      paid.number = owed ∧ paid.WellFormed ∧ paid.StringsWithin maxString ∧
      paid.EnclosedWithin maxDepth frames.length ∧ bytes = paid.encode ++ rest ∧
      items = paid.count + items' ∧ len = paid.encode.length + len' ∧
      Owed maxString maxDepth frames rest items' len'

section Owed

variable {maxString maxDepth : Nat} {frames : List Nat} {bytes : List UInt8} {items len : Nat}

/-- A frame that is owed nothing may be dropped. -/
theorem owed_zero_iff :
    Owed maxString maxDepth (0 :: frames) bytes items len ↔
      Owed maxString maxDepth frames bytes items len := by
  constructor
  · intro owed
    obtain ⟨paid, rest, items', len', none, -, -, -, eq, rfl, rfl, owed⟩ := owed
    cases Items.eq_nil_of_number none
    cases eq
    simpa [Items.count, Items.encode] using owed
  · intro owed
    refine ⟨.nil, bytes, items, len, rfl, trivial, trivial, trivial, rfl, ?_, ?_, owed⟩
    · simp [Items.count]
    · simp [Items.encode]

theorem owed_dropWhile_iff :
    Owed maxString maxDepth (frames.dropWhile (· == 0)) bytes items len ↔
      Owed maxString maxDepth frames bytes items len := by
  induction frames with
  | nil => rfl
  | cons owed frames ih =>
      cases owed with
      | zero => exact ih.trans owed_zero_iff.symm
      | succ owed => rfl

/-- The next item pays one of the innermost frame and opens a frame for what it encloses. -/
theorem owed_succ_iff {owed : Nat} :
    Owed maxString maxDepth ((owed + 1) :: frames) bytes items len ↔
      ∃ (head : Head) (payload rest : List UInt8) (items' len' : Nat),
        bytes = head.encode ++ payload ++ rest ∧ payload.length = head.payload ∧
        (head.isString = true → payload.length ≤ maxString) ∧
        (head.isContainer = true → frames.length ≤ maxDepth) ∧
        items = items' + 1 ∧ len = head.encode.length + payload.length + len' ∧
        Owed maxString maxDepth (head.children :: owed :: frames) rest items' len' := by
  constructor
  · intro pays
    obtain ⟨paid, rest, items', len', number, formed, strings, depth, eq, rfl, rfl, owed⟩ := pays
    cases paid with
    | nil => cases number
    | item head payload content next =>
        obtain ⟨length, children, content_formed, next_formed⟩ := formed
        obtain ⟨string, content_strings, next_strings⟩ := strings
        obtain ⟨container, content_depth, next_depth⟩ := depth
        refine ⟨head, payload, content.encode ++ (next.encode ++ rest), content.count +
          (next.count + items'), content.encode.length + (next.encode.length + len'), ?_, length,
          string, container, ?_, ?_, ?_⟩
        · rw [eq]
          simp [Items.encode]
        · simp only [Items.count]
          omega
        · simp only [Items.encode, List.length_append]
          omega
        · refine ⟨content, _, _, _, children, content_formed, content_strings, content_depth, rfl,
            rfl, rfl, ?_⟩
          exact ⟨next, rest, items', len', Nat.succ.inj number, next_formed, next_strings,
            next_depth, rfl, rfl, rfl, owed⟩
  · intro next
    obtain ⟨head, payload, rest, items', len', rfl, length, string, container, rfl, rfl, owed⟩ :=
      next
    obtain ⟨content, rest', items₁, len₁, children, content_formed, content_strings, content_depth,
      rfl, rfl, rfl, owed⟩ := owed
    obtain ⟨next, rest'', items₂, len₂, number, next_formed, next_strings, next_depth, rfl, rfl,
      rfl, owed⟩ := owed
    refine ⟨.item head payload content next, rest'', items₂, len₂, congrArg (· + 1) number,
      ⟨length, children, content_formed, next_formed⟩, ⟨string, content_strings, next_strings⟩,
      ⟨container, content_depth, next_depth⟩, ?_, ?_, ?_, owed⟩
    · simp [Items.encode]
    · simp only [Items.count]
      omega
    · simp only [Items.encode, List.length_append]
      omega

/-- A frame is owed at least as many items as it counts. -/
theorem le_of_owed {owed : Nat} (pays : Owed maxString maxDepth (owed :: frames) bytes items len) :
    owed ≤ items := by
  obtain ⟨paid, -, items', -, rfl, -, -, -, -, rfl, -, -⟩ := pays
  exact Nat.le_trans paid.number_le_count (Nat.le_add_right _ _)

/-- One item at the root. -/
theorem isItem_iff_owed {maxItems n : Nat} :
    IsItem maxItems maxString maxDepth bytes n ↔
      ∃ items, items ≤ maxItems ∧ Owed maxString maxDepth [1] bytes items n := by
  constructor
  · intro item
    obtain ⟨paid, number, formed, count, strings, depth, rfl, rest, rfl⟩ := item
    exact ⟨paid.count, count, paid, rest, 0, 0, number, formed, strings, depth, rfl, rfl, rfl, rfl,
      rfl⟩
  · intro owed
    obtain ⟨_, count, paid, rest, _, _, number, formed, strings, depth, rfl, rfl, rfl, rfl, rfl⟩ :=
      owed
    exact ⟨paid, number, formed, count, strings, depth, rfl, rest, rfl⟩

end Owed

end Cbor
