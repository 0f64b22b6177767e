import Fulla.Model.QueryStrings
import Mathlib.Data.Fintype.Basic

/-!
# Comparing texts in constant time

The differences of all bytes are collected before anything is decided.  Texts are compared as
bytes, and in lower case byte by byte, which is the lower case of their characters.
-/

namespace Fulla.ConstantTime

/-- `diff |= a[i] ^ b[i]` at every index. -/
def diff (a b : List UInt8) : UInt8 :=
  (List.zipWith (· ^^^ ·) a b).foldl (· ||| ·) 0

/-- The first `n` bytes of both. -/
def constantTimeMemcmp (s1 s2 : List UInt8) (n : Nat) : UInt8 :=
  diff (s1.take n) (s2.take n)

/-- `tolower` of the C locale, which leaves alone what is no byte. -/
def tolower (c : Int) : Int :=
  if 65 ≤ c ∧ c ≤ 90 then c + 32 else c

/-- The `char` as an `unsigned char`. -/
def lowerUnsigned (c : UInt8) : UInt8 :=
  UInt8.ofInt (tolower c.toNat)

/-- The `char` as it is, which is signed. -/
def lowerSigned (c : UInt8) : UInt8 :=
  UInt8.ofInt (tolower c.toInt8.toInt)

theorem foldl_or_eq_zero (bs : List UInt8) (acc : UInt8) :
    bs.foldl (· ||| ·) acc = 0 ↔ acc = 0 ∧ ∀ b ∈ bs, b = 0 := by
  induction bs generalizing acc with
  | nil => simp
  | cons b bs ih =>
      rw [List.foldl_cons, ih, UInt8.or_eq_zero_iff, List.forall_mem_cons, and_assoc]

theorem diff_eq_zero {a b : List UInt8} (len : a.length = b.length) : diff a b = 0 ↔ a = b := by
  rw [diff, foldl_or_eq_zero, and_iff_right rfl]
  induction a generalizing b with
  | nil => simp [List.length_eq_zero_iff.mp len.symm]
  | cons x a ih =>
      cases b with
      | nil => cases len
      | cons y b =>
          rw [List.zipWith_cons_cons, List.forall_mem_cons, ih (Nat.succ.inj len),
            UInt8.xor_eq_zero_iff, List.cons.injEq]

/-- Over the shorter length, and the lengths after it. -/
theorem memcmp_eq_zero_iff {a b : List UInt8} :
    constantTimeMemcmp a b (if a.length < b.length then a.length else b.length) = 0 ∧
      a.length = b.length ↔ a = b := by
  constructor
  · rintro ⟨same, len⟩
    rw [if_neg (len ▸ Nat.lt_irrefl _), constantTimeMemcmp, List.take_of_length_le len.le,
      List.take_length] at same
    exact (diff_eq_zero len).mp same
  · rintro rfl
    exact ⟨(diff_eq_zero rfl).mpr rfl, rfl⟩

theorem lower_eq : ∀ c : UInt8, lowerSigned c = lowerUnsigned c := by
  intro c
  have all : ∀ k : Fin 256,
      lowerSigned (UInt8.ofNat k) = lowerUnsigned (UInt8.ofNat k) := by
    decide +kernel
  have here := all ⟨c.toNat, c.toNat_lt⟩
  rwa [UInt8.ofNat_toNat] at here

/-! ## Lower case of characters -/

/-- A byte of a character outside ASCII stays as it is. -/
theorem lowerUnsigned_of_high {n m k : Nat} (some_ : 0 < m) (high : 128 ≤ k) (byte : m + k ≤ 256) :
    lowerUnsigned (UInt8.ofNat (n % m + k)) = UInt8.ofNat (n % m + k) := by
  have all : ∀ b : Fin 256, 128 ≤ b.val → lowerUnsigned (UInt8.ofNat b) = UInt8.ofNat b := by
    decide +kernel
  have less : n % m < m := Nat.mod_lt n some_
  exact all ⟨n % m + k, by omega⟩ (Nat.le_add_left_of_le high)

theorem utf8EncodeChar_toLower (c : Char) :
    String.utf8EncodeChar c.toLower = (String.utf8EncodeChar c).map lowerUnsigned := by
  by_cases ascii : c.toNat ≤ 127
  · have all : ∀ k : Fin 128, String.utf8EncodeChar (Char.ofNat k).toLower =
        (String.utf8EncodeChar (Char.ofNat k)).map lowerUnsigned := by
      decide
    have here := all ⟨c.toNat, Nat.lt_succ_of_le ascii⟩
    rwa [Char.ofNat_toNat] at here
  · have same : c.toLower = c := dif_neg fun range =>
      ascii (Nat.le_trans (UInt32.le_iff_toNat_le.mp range.2) (by decide))
    have wide : ¬ c.val.toNat ≤ 0x7f := ascii
    rw [same]
    simp only [String.utf8EncodeChar, if_neg wide]
    split
    · simp (disch := decide) only [List.map_cons, List.map_nil, lowerUnsigned_of_high]
    · split
      · simp (disch := decide) only [List.map_cons, List.map_nil, lowerUnsigned_of_high]
      · simp (disch := decide) only [List.map_cons, List.map_nil, lowerUnsigned_of_high]

theorem utf8_map_toLower (s : List Char) :
    utf8 (s.map Char.toLower) = (utf8 s).map lowerUnsigned := by
  induction s with
  | nil => rfl
  | cons c s ih =>
      rw [List.map_cons, utf8_cons, utf8_cons, List.map_append, ih, utf8EncodeChar_toLower]

theorem utf8_injective : Function.Injective utf8 := by
  intro a b same
  have bytes : a.utf8Encode = b.utf8Encode := congrArg List.toByteArray same
  rw [← String.toByteArray_ofList, ← String.toByteArray_ofList] at bytes
  exact String.ofList_inj.mp (String.toByteArray_inj.mp bytes)

/-- In lower case the bytes of two texts are the same if the texts are. -/
theorem map_lower_eq_iff {a b : String} :
    (utf8 a.toList).map lowerUnsigned = (utf8 b.toList).map lowerUnsigned ↔
      toLowerAscii a = toLowerAscii b := by
  rw [← utf8_map_toLower, ← utf8_map_toLower, utf8_injective.eq_iff, toLowerAscii, toLowerAscii,
    String.ofList_inj]

end Fulla.ConstantTime
