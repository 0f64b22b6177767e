import Mathlib.Algebra.Group.Nat.Defs
import Mathlib.Data.List.Basic
import Mathlib.Data.Nat.Bitwise

/-!
# Regrouping bits

A codec for binary text reads digits of `v` bits into a buffer and takes digits of `w` bits out of
it.  `Grouped` says what the buffer and the digits taken out are worth: together they are the bits
that were read.  Whoever groups the same bits has taken out the same digits (`Grouped.digits_eq`).
-/

namespace BitGroups

/-- The `w` low bits of a number, the highest first. -/
def bits : (w n : Nat) → List Bool
  | 0, _ => []
  | w + 1, n => n.testBit w :: bits w n

@[simp]
theorem length_bits (w n : Nat) : (bits w n).length = w := by
  induction w with
  | zero => rfl
  | succ w ih => rw [bits, List.length_cons, ih]

theorem bits_congr {w a b : Nat} (same : ∀ i < w, a.testBit i = b.testBit i) :
    bits w a = bits w b := by
  induction w with
  | zero => rfl
  | succ w ih =>
      rw [bits, bits, same w (Nat.lt_succ_self w), ih fun i i_lt => same i (by omega)]

theorem bits_injective {w a b : Nat} (a_lt : a < 2 ^ w) (b_lt : b < 2 ^ w)
    (same : bits w a = bits w b) : a = b := by
  have low : ∀ i < w, a.testBit i = b.testBit i := by
    clear a_lt b_lt
    induction w with
    | zero => intro i i_lt; omega
    | succ w ih =>
        rw [bits, bits] at same
        obtain ⟨top, rest⟩ := List.cons_eq_cons.mp same
        intro i i_lt
        rcases Nat.lt_succ_iff_lt_or_eq.mp i_lt with below | rfl
        · exact ih rest i below
        · exact top
  refine Nat.eq_of_testBit_eq fun i => ?_
  by_cases i_lt : i < w
  · exact low i i_lt
  · have big : 2 ^ w ≤ 2 ^ i := Nat.pow_le_pow_right (by omega) (by omega)
    rw [Nat.testBit_lt_two_pow (a_lt.trans_le big), Nat.testBit_lt_two_pow (b_lt.trans_le big)]

/-- The high bits, and then the low ones. -/
theorem bits_add (v w n : Nat) : bits (v + w) n = bits v (n >>> w) ++ bits w n := by
  induction v with
  | zero => rw [Nat.zero_add]; rfl
  | succ v ih =>
      rw [Nat.add_right_comm, bits, ih, bits, Nat.testBit_shiftRight, Nat.add_comm w v]
      rfl

theorem bits_mod {w k : Nat} (within : w ≤ k) (n : Nat) : bits w (n % 2 ^ k) = bits w n := by
  refine bits_congr fun i i_lt => ?_
  rw [Nat.testBit_mod_two_pow, decide_eq_true (by omega : i < k), Bool.true_and]

theorem bits_mask (w n : Nat) : bits w (n &&& (2 ^ w - 1)) = bits w n := by
  rw [Nat.and_two_pow_sub_one_eq_mod, bits_mod (Nat.le_refl w)]

/-- A digit pushed in from below. -/
theorem bits_push {v d : Nat} (d_lt : d < 2 ^ v) (w n : Nat) :
    bits (w + v) (n <<< v ||| d) = bits w n ++ bits v d := by
  have high : (n <<< v ||| d) >>> v = n := by
    rw [Nat.shiftRight_or_distrib, Nat.shiftLeft_shiftRight, Nat.shiftRight_eq_div_pow,
      Nat.div_eq_of_lt d_lt, Nat.or_zero]
  rw [bits_add, high]
  refine congrArg _ (bits_congr fun i i_lt => ?_)
  rw [Nat.testBit_or, Nat.testBit_shiftLeft, decide_eq_false (by omega : ¬ i ≥ v),
    Bool.false_and, Bool.false_or]

/-- Zeros pushed in from below. -/
theorem bits_shiftLeft (v w n : Nat) : bits (w + v) (n <<< v) = bits w n ++ bits v 0 := by
  have pushed := bits_push (Nat.two_pow_pos v) w n
  rwa [Nat.or_zero] at pushed

/-- A byte shifted within the 32 bits loses nothing. -/
theorem toNat_shiftLeft (b : UInt8) {i : UInt32} (i_le : i.toNat ≤ 24) :
    (b.toUInt32 <<< i).toNat = b.toNat <<< i.toNat := by
  have b_lt := b.toNat_lt
  have power : 2 ^ i.toNat ≤ 2 ^ 24 := Nat.pow_le_pow_right (by omega) i_le
  have product : b.toNat * 2 ^ i.toNat ≤ 255 * 2 ^ 24 := Nat.mul_le_mul (by omega) power
  rw [UInt32.toNat_shiftLeft, UInt8.toNat_toUInt32, Nat.mod_eq_of_lt (by omega : i.toNat < 32),
    Nat.mod_eq_of_lt]
  rw [Nat.shiftLeft_eq]
  omega

/-- Digits of one width are determined by their bits. -/
theorem flatMap_bits_inj {w : Nat} {xs ys : List Nat} {rest rest' : List Bool}
    (xs_lt : ∀ x ∈ xs, x < 2 ^ w) (ys_lt : ∀ y ∈ ys, y < 2 ^ w) (short : rest.length < w)
    (short' : rest'.length < w)
    (same : xs.flatMap (bits w) ++ rest = ys.flatMap (bits w) ++ rest') : xs = ys := by
  induction xs generalizing ys with
  | nil =>
      cases ys with
      | nil => rfl
      | cons y ys =>
          have lengths := congrArg List.length same
          simp only [List.flatMap_nil, List.flatMap_cons, List.nil_append, List.length_append,
            length_bits] at lengths
          omega
  | cons x xs ih =>
      cases ys with
      | nil =>
          have lengths := congrArg List.length same
          simp only [List.flatMap_nil, List.flatMap_cons, List.nil_append, List.length_append,
            length_bits] at lengths
          omega
      | cons y ys =>
          rw [List.flatMap_cons, List.flatMap_cons, List.append_assoc, List.append_assoc] at same
          obtain ⟨first, others⟩ := List.append_inj same (by rw [length_bits, length_bits])
          rw [bits_injective (xs_lt x List.mem_cons_self) (ys_lt y List.mem_cons_self) first,
            ih (fun d mem => xs_lt d (List.mem_cons_of_mem x mem))
              (fun d mem => ys_lt d (List.mem_cons_of_mem y mem)) others]

/-- The bits that were read are those of the digits taken out and those left in the buffer. -/
structure Grouped (w : Nat) (read : List Bool) (out : List Nat) (buffer bitsLeft : Nat) :
    Prop where
  bits_eq : out.flatMap (bits w) ++ bits bitsLeft buffer = read
  digits : ∀ d ∈ out, d < 2 ^ w

namespace Grouped

variable {v w : Nat} {read : List Bool} {out : List Nat} {buffer bitsLeft : Nat}

theorem empty (w : Nat) : Grouped w [] [] 0 0 :=
  ⟨rfl, by simp⟩

/-- A digit comes in. -/
theorem push {d : Nat} (grouped : Grouped w read out buffer bitsLeft) (d_lt : d < 2 ^ v) :
    Grouped w (read ++ bits v d) out (buffer <<< v ||| d) (bitsLeft + v) := by
  refine ⟨?_, grouped.digits⟩
  rw [bits_push d_lt, ← List.append_assoc, grouped.bits_eq]

/-- A digit goes out. -/
theorem pop (grouped : Grouped w read out buffer (bitsLeft + w)) :
    Grouped w read (out ++ [buffer >>> bitsLeft &&& (2 ^ w - 1)]) buffer bitsLeft := by
  have read_eq := grouped.bits_eq
  rw [Nat.add_comm, bits_add, ← bits_mask w, ← List.append_assoc] at read_eq
  refine ⟨?_, fun d mem => ?_⟩
  · rwa [List.flatMap_append, List.flatMap_singleton]
  · rcases List.mem_append.mp mem with before | last
    · exact grouped.digits d before
    · rw [List.mem_singleton.mp last, Nat.and_two_pow_sub_one_eq_mod]
      exact Nat.mod_lt _ (Nat.two_pow_pos w)

/-- Only the bits that are left matter. -/
theorem of_bits {buffer' : Nat} (grouped : Grouped w read out buffer bitsLeft)
    (same : bits bitsLeft buffer' = bits bitsLeft buffer) :
    Grouped w read out buffer' bitsLeft :=
  ⟨by rw [same]; exact grouped.bits_eq, grouped.digits⟩

/-- Whoever groups the same bits takes out the same digits. -/
theorem digits_eq {out' : List Nat} {buffer' bitsLeft' : Nat}
    (grouped : Grouped w read out buffer bitsLeft)
    (grouped' : Grouped w read out' buffer' bitsLeft') (left_lt : bitsLeft < w)
    (left_lt' : bitsLeft' < w) : out = out' :=
  flatMap_bits_inj grouped.digits grouped'.digits (by rwa [length_bits]) (by rwa [length_bits])
    (grouped.bits_eq.trans grouped'.bits_eq.symm)

end Grouped

end BitGroups
