import Fulla.Jwk.JwkManager
import Fulla.Model.BitGroups

/-!
# The second base64url

`OpenSslCryptoProvider` of `libs/drogon` has a codec of its own: the encoder walks over the bytes
by index, and the decoder collects six bits at a time in a `uint32_t` that it never clears.

`base64Url_canonical`: the strict decoder of `JwkManager` accepts exactly the encodings, the two
encoders write the same text, and the provider reads its own encodings back.
-/

namespace Fulla

open Base64Url BitGroups

namespace OpenSslCryptoProvider

/-- The alphabet of RFC 4648, section 5. -/
def kBase64UrlAlphabet : List Char :=
  "ABCDEFGHIJKLMNOPQRSTUVWXYZabcdefghijklmnopqrstuvwxyz0123456789-_".toList

/-- The symbol of the six bits of `n` from bit `i` on. -/
def symbolOf (n i : UInt32) : Char :=
  kBase64UrlAlphabet.getD (n >>> i &&& 0x3F).toNat 'A'

/-- The loop of `base64UrlEncodeImpl` from index `i` on, and what follows it. -/
def base64UrlEncodeFrom (bytes : List UInt8) (i : Nat) (out : List Char) : List Char :=
  if i + 3 ≤ bytes.length then
    let n := (bytes.getD i 0).toUInt32 <<< 16 ||| (bytes.getD (i + 1) 0).toUInt32 <<< 8 |||
      (bytes.getD (i + 2) 0).toUInt32
    base64UrlEncodeFrom bytes (i + 3)
      (out ++ [symbolOf n 18, symbolOf n 12, symbolOf n 6, symbolOf n 0])
  else
    let remaining := bytes.length - i
    if remaining = 1 then
      let n := (bytes.getD i 0).toUInt32 <<< 16
      out ++ [symbolOf n 18, symbolOf n 12]
    else if remaining = 2 then
      let n := (bytes.getD i 0).toUInt32 <<< 16 ||| (bytes.getD (i + 1) 0).toUInt32 <<< 8
      out ++ [symbolOf n 18, symbolOf n 12, symbolOf n 6]
    else out
termination_by bytes.length - i

/-- `OpenSslCryptoProvider::base64UrlEncode`. -/
def base64UrlEncode (bytes : List UInt8) : String :=
  String.ofList (base64UrlEncodeFrom bytes 0 [])

/-- None stands for -1. -/
def base64UrlCharValue (c : Char) : Option Nat :=
  value? c

/-- The variables of the loop of `base64UrlDecodeImpl`. -/
structure Collected where
  buffer : UInt32 := 0
  bitsCollected : Nat := 0
  out : List UInt8 := []

/-- Six more bits, and a byte as soon as eight are there. -/
def Collected.add (s : Collected) (value : Nat) : Collected :=
  let buffer := s.buffer <<< 6 ||| UInt32.ofNat value
  let bitsCollected := s.bitsCollected + 6
  if bitsCollected ≥ 8 then
    let bitsCollected := bitsCollected - 8
    ⟨buffer, bitsCollected, s.out ++ [(buffer >>> UInt32.ofNat bitsCollected &&& 0xFF).toUInt8]⟩
  else ⟨buffer, bitsCollected, s.out⟩

/-- Empty at the first invalid character. -/
def base64UrlDecodeLoop : List Char → Collected → List UInt8
  | [], s => s.out
  | c :: encoded, s =>
    match base64UrlCharValue c with
    | none => []
    | some value => base64UrlDecodeLoop encoded (s.add value)

/-- `OpenSslCryptoProvider::base64UrlDecode`. -/
def base64UrlDecode (encoded : String) : List UInt8 :=
  base64UrlDecodeLoop encoded.toList {}

/-! ## One text -/

theorem symbolOf_eq {n i : UInt32} (i_lt : i < 32) :
    symbolOf n i = symbolAt n.toNat i.toNat := by
  have small : i.toNat < 32 := i_lt
  rw [symbolOf, symbolAt, UInt32.toNat_and, UInt32.toNat_shiftRight, Nat.mod_eq_of_lt small]
  rfl

theorem toNat_three (a b c : UInt8) :
    (a.toUInt32 <<< 16 ||| b.toUInt32 <<< 8 ||| c.toUInt32).toNat =
      a.toNat <<< 16 ||| b.toNat <<< 8 ||| c.toNat := by
  rw [UInt32.toNat_or, UInt32.toNat_or, toNat_shiftLeft a (by decide),
    toNat_shiftLeft b (by decide), UInt8.toNat_toUInt32]
  rfl

theorem toNat_two (a b : UInt8) :
    (a.toUInt32 <<< 16 ||| b.toUInt32 <<< 8).toNat = a.toNat <<< 16 ||| b.toNat <<< 8 := by
  rw [UInt32.toNat_or, toNat_shiftLeft a (by decide), toNat_shiftLeft b (by decide)]
  rfl

theorem toNat_one (a : UInt8) : (a.toUInt32 <<< 16).toNat = a.toNat <<< 16 :=
  toNat_shiftLeft a (by decide)

theorem getD_append_add (before bytes : List UInt8) (i : Nat) :
    (before ++ bytes).getD (before.length + i) 0 = bytes.getD i 0 := by
  rw [List.getD_eq_getElem?_getD, List.getElem?_append_right (by omega),
    Nat.add_sub_cancel_left, ← List.getD_eq_getElem?_getD]

theorem getD_append_length (before bytes : List UInt8) :
    (before ++ bytes).getD before.length 0 = bytes.getD 0 0 :=
  getD_append_add before bytes 0

/-- What is left from an index on decides how the loop goes on. -/
theorem base64UrlEncodeFrom_eq (before bytes : List UInt8) (out : List Char) :
    base64UrlEncodeFrom (before ++ bytes) before.length out = out ++ encode bytes := by
  induction bytes using encode.induct generalizing before out with
  | case1 a b c rest ih =>
      have more : before.length + 3 ≤ (before ++ a :: b :: c :: rest).length := by
        simp only [List.length_append, List.length_cons]
        omega
      have shift : before ++ a :: b :: c :: rest = (before ++ [a, b, c]) ++ rest := by simp
      have length : before.length + 3 = (before ++ [a, b, c]).length := by simp
      have next := ih (before ++ [a, b, c])
      rw [← shift, ← length] at next
      rw [base64UrlEncodeFrom, if_pos more, getD_append_length, getD_append_add, getD_append_add,
        next, List.append_assoc]
      refine congrArg (out ++ ·) ?_
      change symbolOf (a.toUInt32 <<< 16 ||| b.toUInt32 <<< 8 ||| c.toUInt32) 18 :: _ = _
      rw [encode, ← toNat_three, symbolOf_eq (by decide), symbolOf_eq (by decide),
        symbolOf_eq (by decide), symbolOf_eq (by decide)]
      rfl
  | case2 a b =>
      have last : ¬ before.length + 3 ≤ (before ++ [a, b]).length := by simp
      have remaining : (before ++ [a, b]).length - before.length = 2 := by simp
      rw [base64UrlEncodeFrom, if_neg last, getD_append_length, getD_append_add]
      simp only [remaining]
      change out ++ [symbolOf (a.toUInt32 <<< 16 ||| b.toUInt32 <<< 8) 18, _, _] = _
      rw [encode, ← toNat_two, symbolOf_eq (by decide), symbolOf_eq (by decide),
        symbolOf_eq (by decide)]
      rfl
  | case3 a =>
      have last : ¬ before.length + 3 ≤ (before ++ [a]).length := by simp
      have remaining : (before ++ [a]).length - before.length = 1 := by simp
      rw [base64UrlEncodeFrom, if_neg last, getD_append_length]
      simp only [remaining]
      change out ++ [symbolOf (a.toUInt32 <<< 16) 18, _] = _
      rw [encode, ← toNat_one, symbolOf_eq (by decide), symbolOf_eq (by decide)]
      rfl
  | case4 =>
      have last : ¬ before.length + 3 ≤ (before ++ []).length := by simp
      have remaining : (before ++ []).length - before.length = 0 := by simp
      rw [base64UrlEncodeFrom, if_neg last]
      simp only [remaining]
      rw [encode]
      exact (List.append_nil out).symm

/-- The comment over the encoder of `JwkManager` calls the two identical. -/
theorem base64UrlEncode_eq (bytes : List UInt8) :
    base64UrlEncode bytes = Jwk.base64UrlEncode bytes := by
  rw [base64UrlEncode, Jwk.base64UrlEncode]
  exact congrArg String.ofList (base64UrlEncodeFrom_eq [] bytes [])

/-! ## One meaning -/

/-- The symbols carry the bits of the bytes, and then fewer than a byte's zeros. -/
theorem exists_values (bytes : List UInt8) :
    ∃ values : List Nat, encode bytes = values.map symbol ∧ (∀ v ∈ values, v < 2 ^ 6) ∧
      ∃ k < 8, values.flatMap (bits 6) = (bytes.map UInt8.toNat).flatMap (bits 8) ++ bits k 0 := by
  have sextet (n i : Nat) : n >>> i &&& 0x3F < 2 ^ 6 := Nat.and_lt_two_pow _ (by decide)
  have masked (n : Nat) : bits 6 (n &&& 0x3F) = bits 6 n := bits_mask 6 n
  induction bytes using encode.induct with
  | case1 a b c rest ih =>
      obtain ⟨values, text, small, k, k_lt, read⟩ := ih
      let n := a.toNat <<< 16 ||| b.toNat <<< 8 ||| c.toNat
      have whole : bits 24 n = bits 8 a.toNat ++ bits 8 b.toNat ++ bits 8 c.toNat := by
        rw [← bits_push b.toNat_lt, ← bits_push c.toNat_lt, Nat.shiftLeft_or_distrib,
          ← Nat.shiftLeft_add]
      refine ⟨(n >>> 18 &&& 0x3F) :: (n >>> 12 &&& 0x3F) :: (n >>> 6 &&& 0x3F) ::
        (n >>> 0 &&& 0x3F) :: values, ?_, ?_, k, k_lt, ?_⟩
      · rw [encode, text]
        rfl
      · simp only [List.forall_mem_cons]
        exact ⟨sextet n 18, sextet n 12, sextet n 6, sextet n 0, small⟩
      · rw [bits_add 6 18, bits_add 6 12, bits_add 6 6] at whole
        simp only [List.flatMap_cons, List.map_cons, masked, read]
        simp only [← List.append_assoc] at whole ⊢
        rw [← whole]
        rfl
  | case2 a b =>
      let n := a.toNat <<< 16 ||| b.toNat <<< 8
      have cut : n >>> 6 = (a.toNat <<< 8 ||| b.toNat) <<< 2 := by
        have n_eq : n = (a.toNat <<< 8 ||| b.toNat) <<< 2 <<< 6 := by
          rw [← Nat.shiftLeft_add, Nat.shiftLeft_or_distrib, ← Nat.shiftLeft_add]
        rw [n_eq, Nat.shiftLeft_shiftRight]
      have whole : bits 18 (n >>> 6) = bits 8 a.toNat ++ bits 8 b.toNat ++ bits 2 0 := by
        rw [← bits_push b.toNat_lt, cut, ← bits_shiftLeft]
      refine ⟨[n >>> 18 &&& 0x3F, n >>> 12 &&& 0x3F, n >>> 6 &&& 0x3F], rfl, ?_, 2, by decide, ?_⟩
      · simp only [List.forall_mem_cons]
        exact ⟨sextet n 18, sextet n 12, sextet n 6, by simp⟩
      · rw [bits_add 6 12, bits_add 6 6, ← Nat.shiftRight_add, ← Nat.shiftRight_add] at whole
        simp only [List.flatMap_cons, List.map_cons, masked]
        simp only [← List.append_assoc] at whole ⊢
        simpa using whole
  | case3 a =>
      let n := a.toNat <<< 16
      have cut : n >>> 12 = a.toNat <<< 4 := by
        have n_eq : n = a.toNat <<< 4 <<< 12 := Nat.shiftLeft_add a.toNat 4 12
        rw [n_eq, Nat.shiftLeft_shiftRight]
      have whole : bits 12 (n >>> 12) = bits 8 a.toNat ++ bits 4 0 := by
        rw [cut, ← bits_shiftLeft]
      refine ⟨[n >>> 18 &&& 0x3F, n >>> 12 &&& 0x3F], rfl, ?_, 4, by decide, ?_⟩
      · simp only [List.forall_mem_cons]
        exact ⟨sextet n 18, sextet n 12, by simp⟩
      · rw [bits_add 6 6, ← Nat.shiftRight_add] at whole
        simp only [List.flatMap_cons, List.map_cons, masked]
        simp only [← List.append_assoc] at whole ⊢
        simpa using whole
  | case4 => exact ⟨[], rfl, by simp, 0, by decide, rfl⟩

/-- The loop has read these bits. -/
structure Collected.Holds (s : Collected) (read : List Bool) : Prop where
  grouped : Grouped 8 read (s.out.map UInt8.toNat) s.buffer.toNat s.bitsCollected
  few : s.bitsCollected < 8

theorem Collected.Holds.add {s : Collected} {read : List Bool} (holds : s.Holds read) {value : Nat}
    (small : value < 2 ^ 6) : (s.add value).Holds (read ++ bits 6 value) := by
  have few := holds.few
  let buffer := s.buffer <<< 6 ||| UInt32.ofNat value
  -- only bits that have been taken out leave the 32
  have buffer_eq : buffer.toNat = (s.buffer.toNat <<< 6 ||| value) % 2 ^ 32 := by
    rw [Nat.or_mod_two_pow]
    exact UInt32.toNat_or _ _
  have pushed : Grouped 8 (read ++ bits 6 value) (s.out.map UInt8.toNat) buffer.toNat
      (s.bitsCollected + 6) := by
    refine (holds.grouped.push small).of_bits ?_
    rw [buffer_eq, bits_mod (by omega)]
  unfold Collected.add
  dsimp only
  split
  · next enough =>
      obtain ⟨left, left_eq⟩ := Nat.exists_eq_add_of_le' enough
      rw [left_eq] at pushed ⊢
      refine ⟨?_, (by omega : left + 8 - 8 < 8)⟩
      have last : (buffer >>> UInt32.ofNat left &&& 0xFF).toUInt8.toNat =
          buffer.toNat >>> left &&& (2 ^ 8 - 1) := by
        have amount : (UInt32.ofNat left).toNat % 32 = left := by
          rw [UInt32.toNat_ofNat']
          omega
        rw [UInt32.toNat_toUInt8, UInt32.toNat_and, UInt32.toNat_shiftRight, amount]
        exact Nat.mod_eq_of_lt (Nat.and_lt_two_pow _ (by decide))
      rw [List.map_append, List.map_singleton, Nat.add_sub_cancel, last]
      exact pushed.pop
  · next short => exact ⟨pushed, Nat.lt_of_not_le short⟩

theorem base64UrlDecodeLoop_symbols {values : List Nat} (small : ∀ v ∈ values, v < 2 ^ 6)
    {s : Collected} {read : List Bool} (holds : s.Holds read) :
    ∃ s' : Collected, base64UrlDecodeLoop (values.map symbol) s = s'.out ∧
      s'.Holds (read ++ values.flatMap (bits 6)) := by
  induction values generalizing s read with
  | nil => exact ⟨s, rfl, by rwa [List.flatMap_nil, List.append_nil]⟩
  | cons v values ih =>
      have first := small v List.mem_cons_self
      obtain ⟨s', ends, holds'⟩ :=
        ih (fun d mem => small d (List.mem_cons_of_mem v mem)) (holds.add first)
      refine ⟨s', ?_, ?_⟩
      · rw [List.map_cons, base64UrlDecodeLoop, base64UrlCharValue, value?_symbol first]
        exact ends
      · rwa [List.flatMap_cons, ← List.append_assoc]

theorem base64UrlDecode_encode (bytes : List UInt8) :
    base64UrlDecode (base64UrlEncode bytes) = bytes := by
  obtain ⟨values, text, small, k, k_lt, read⟩ := exists_values bytes
  have start : ({} : Collected).Holds [] := ⟨Grouped.empty 8, by decide⟩
  obtain ⟨s', ends, holds⟩ := base64UrlDecodeLoop_symbols small start
  rw [base64UrlEncode_eq, base64UrlDecode, Jwk.base64UrlEncode, String.toList_ofList, text, ends]
  have written : Grouped 8 ([] ++ values.flatMap (bits 6)) (bytes.map UInt8.toNat) 0 k := by
    refine ⟨read.symm, fun d mem => ?_⟩
    obtain ⟨b, -, rfl⟩ := List.mem_map.mp mem
    exact b.toNat_lt
  exact List.map_injective_iff.mpr (fun a b => UInt8.toNat_inj.mp)
    (holds.grouped.digits_eq written holds.few k_lt)

/-- A text is accepted by the strict decoder if and only if it is an encoding, of the bytes it is
then decoded to; the two encoders agree, and the provider's decoder undoes them. -/
theorem base64Url_canonical :
    (∀ s b, Jwk.base64UrlDecode s = some b ↔ s = Jwk.base64UrlEncode b) ∧
      ∀ b, base64UrlDecode (base64UrlEncode b) = b ∧
        base64UrlEncode b = Jwk.base64UrlEncode b := by
  refine ⟨fun s b => ⟨?_, ?_⟩, fun b => ⟨base64UrlDecode_encode b, base64UrlEncode_eq b⟩⟩
  · intro decoded
    rw [Jwk.base64UrlEncode, ← eq_encode_of_decode decoded, String.ofList_toList]
  · rintro rfl
    rw [Jwk.base64UrlDecode, Jwk.base64UrlEncode, String.toList_ofList, decode_encode]

end OpenSslCryptoProvider

end Fulla
