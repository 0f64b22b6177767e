import Mathlib.Algebra.Group.Int.Defs
import Mathlib.Algebra.Group.Nat.Defs
import Mathlib.Data.List.Basic

/-!
# Unpadded base64url

Encoder and strict decoder: no padding, no character outside the alphabet, no length that
leaves six bits over, and no bits set in the last symbol beyond the last byte.

`decode_encode` and `eq_encode_of_decode` together say that what decodes is exactly the
encodings, so every byte string has one spelling.
-/

namespace Base64Url

/-- The alphabet of RFC 4648, section 5. -/
def alphabet : List Char :=
  "ABCDEFGHIJKLMNOPQRSTUVWXYZabcdefghijklmnopqrstuvwxyz0123456789-_".toList

/-- The symbol of six bits. -/
def symbol (n : Nat) : Char :=
  alphabet.getD n 'A'

/-- The value of a symbol. -/
def value? (c : Char) : Option Nat :=
  if 'A' ≤ c ∧ c ≤ 'Z' then some (c.toNat - 'A'.toNat)
  else if 'a' ≤ c ∧ c ≤ 'z' then some (c.toNat - 'a'.toNat + 26)
  else if '0' ≤ c ∧ c ≤ '9' then some (c.toNat - '0'.toNat + 52)
  else if c = '-' then some 62
  else if c = '_' then some 63
  else none

/-- The symbol of the six bits of `n` from bit `i` on. -/
def symbolAt (n i : Nat) : Char :=
  symbol (n >>> i &&& 0x3F)

/-- Three bytes to four symbols, without padding at the end. -/
def encode : List UInt8 → List Char
  | a :: b :: c :: rest =>
    let n := a.toNat <<< 16 ||| b.toNat <<< 8 ||| c.toNat
    symbolAt n 18 :: symbolAt n 12 :: symbolAt n 6 :: symbolAt n 0 :: encode rest
  | [a, b] =>
    let n := a.toNat <<< 16 ||| b.toNat <<< 8
    [symbolAt n 18, symbolAt n 12, symbolAt n 6]
  | [a] =>
    let n := a.toNat <<< 16
    [symbolAt n 18, symbolAt n 12]
  | [] => []

/-- A group of two to four symbols makes one byte less than it has symbols. -/
def decodeGroup (group : List Char) : Option (List UInt8) := do
  let v ← group.mapM value?
  let count := group.length
  if count == 2 && v.getD 1 0 &&& 0x0F != 0 then none
  else if count == 3 && v.getD 2 0 &&& 0x03 != 0 then none
  else
    let triple := v.getD 0 0 <<< 18 ||| v.getD 1 0 <<< 12 ||| v.getD 2 0 <<< 6 ||| v.getD 3 0
    return UInt8.ofNat (triple >>> 16 &&& 0xFF) ::
      (if count > 2 then [UInt8.ofNat (triple >>> 8 &&& 0xFF)] else []) ++
      (if count > 3 then [UInt8.ofNat (triple &&& 0xFF)] else [])

/-- Four symbols at a time. -/
def decodeGroups : List Char → Option (List UInt8)
  | [] => some []
  | a :: b :: c :: d :: rest => do
    let bytes ← decodeGroup [a, b, c, d]
    return bytes ++ (← decodeGroups rest)
  | group => decodeGroup group

/-- A length that no encoding has is refused. -/
def decode (input : List Char) : Option (List UInt8) :=
  if input.length % 4 = 1 then none else decodeGroups input

/-! ## Symbols -/

/-- A symbol is read back. -/
theorem value?_symbol {n : Nat} (small : n < 64) : value? (symbol n) = some n := by
  have all : ∀ k : Fin 64, value? (symbol k) = some k.val := by decide +kernel
  exact all ⟨n, small⟩

theorem toNat_le_of_le {c d : Char} (le : c ≤ d) : c.toNat ≤ d.toNat :=
  UInt32.le_iff_toNat_le.mp le

/-- Symbols are ASCII. -/
theorem ascii_of_value? {c : Char} {n : Nat} (found : value? c = some n) : c.toNat < 128 := by
  have upper : ('Z' : Char).toNat < 128 := by decide
  have lower : ('z' : Char).toNat < 128 := by decide
  have digit : ('9' : Char).toNat < 128 := by decide
  unfold value? at found
  split at found
  · next range => exact Nat.lt_of_le_of_lt (toNat_le_of_le range.2) upper
  · split at found
    · next range => exact Nat.lt_of_le_of_lt (toNat_le_of_le range.2) lower
    · split at found
      · next range => exact Nat.lt_of_le_of_lt (toNat_le_of_le range.2) digit
      · split at found
        · next dash =>
            rw [dash]
            decide
        · split at found
          · next under =>
              rw [under]
              decide
          · cases found

/-- A symbol is below 128, where all of them can be looked at. -/
theorem eq_symbol_of_value? {c : Char} {n : Nat} (found : value? c = some n) :
    c = symbol n ∧ n < 64 := by
  have all : ∀ k : Fin 128, ∀ n ∈ value? (Char.ofNat k), Char.ofNat k = symbol n ∧ n < 64 := by
    decide +kernel
  have same := all ⟨c.toNat, ascii_of_value? found⟩ n
  rw [Char.ofNat_toNat] at same
  exact same found

/-! ## Bits -/

theorem sextet_eq (n i : Nat) : n >>> i &&& 0x3F = n / 2 ^ i % 64 := by
  rw [Nat.shiftRight_eq_div_pow]
  exact Nat.and_two_pow_sub_one_eq_mod _ 6

theorem octet_eq (n i : Nat) : n >>> i &&& 0xFF = n / 2 ^ i % 256 := by
  rw [Nat.shiftRight_eq_div_pow]
  exact Nat.and_two_pow_sub_one_eq_mod _ 8

/-- Three bytes side by side. -/
theorem bytes_eq {a b c : Nat} (b_lt : b < 256) (c_lt : c < 256) :
    a <<< 16 ||| b <<< 8 ||| c = a * 65536 + b * 256 + c := by
  have first : a <<< 16 ||| b <<< 8 = (a * 256 + b) <<< 8 := by
    rw [← Nat.shiftLeft_add_eq_or_of_lt (by rw [Nat.shiftLeft_eq]; omega), Nat.shiftLeft_eq,
      Nat.shiftLeft_eq, Nat.shiftLeft_eq]
    omega
  rw [first, ← Nat.shiftLeft_add_eq_or_of_lt (by omega), Nat.shiftLeft_eq]
  omega

/-- Four symbols side by side. -/
theorem symbols_eq {a b c d : Nat} (b_lt : b < 64) (c_lt : c < 64) (d_lt : d < 64) :
    a <<< 18 ||| b <<< 12 ||| c <<< 6 ||| d = a * 262144 + b * 4096 + c * 64 + d := by
  have first : a <<< 18 ||| b <<< 12 = (a * 64 + b) <<< 12 := by
    rw [← Nat.shiftLeft_add_eq_or_of_lt (by rw [Nat.shiftLeft_eq]; omega), Nat.shiftLeft_eq,
      Nat.shiftLeft_eq, Nat.shiftLeft_eq]
    omega
  have second : (a * 64 + b) <<< 12 ||| c <<< 6 = (a * 4096 + b * 64 + c) <<< 6 := by
    rw [← Nat.shiftLeft_add_eq_or_of_lt (by rw [Nat.shiftLeft_eq]; omega), Nat.shiftLeft_eq,
      Nat.shiftLeft_eq, Nat.shiftLeft_eq]
    omega
  rw [first, second, ← Nat.shiftLeft_add_eq_or_of_lt (by omega), Nat.shiftLeft_eq]
  omega

/-! ## Groups -/

/-- The bytes of a full group. -/
theorem decodeGroup_four {a b c d : Nat} (a_lt : a < 64) (b_lt : b < 64) (c_lt : c < 64)
    (d_lt : d < 64) :
    decodeGroup [symbol a, symbol b, symbol c, symbol d] =
      some [UInt8.ofNat (a * 4 + b / 16), UInt8.ofNat (b % 16 * 16 + c / 4),
        UInt8.ofNat (c % 4 * 64 + d)] := by
  have values : [symbol a, symbol b, symbol c, symbol d].mapM value? = some [a, b, c, d] := by
    simp [value?_symbol, a_lt, b_lt, c_lt, d_lt]
  have first : (a * 262144 + b * 4096 + c * 64 + d) / 2 ^ 16 % 256 = a * 4 + b / 16 := by omega
  have second : (a * 262144 + b * 4096 + c * 64 + d) / 2 ^ 8 % 256 = b % 16 * 16 + c / 4 := by
    omega
  have third : (a * 262144 + b * 4096 + c * 64 + d) / 2 ^ 0 % 256 = c % 4 * 64 + d := by omega
  rw [decodeGroup, values]
  change some [UInt8.ofNat ((a <<< 18 ||| b <<< 12 ||| c <<< 6 ||| d) >>> 16 &&& 0xFF),
    UInt8.ofNat ((a <<< 18 ||| b <<< 12 ||| c <<< 6 ||| d) >>> 8 &&& 0xFF),
    UInt8.ofNat ((a <<< 18 ||| b <<< 12 ||| c <<< 6 ||| d) >>> 0 &&& 0xFF)] = _
  rw [symbols_eq b_lt c_lt d_lt, octet_eq, octet_eq, octet_eq, first, second, third]

/-- Three symbols make two bytes, if no bit is left over. -/
theorem decodeGroup_three {a b c : Nat} (a_lt : a < 64) (b_lt : b < 64) (c_lt : c < 64) :
    decodeGroup [symbol a, symbol b, symbol c] =
      if c % 4 = 0 then
        some [UInt8.ofNat (a * 4 + b / 16), UInt8.ofNat (b % 16 * 16 + c / 4)]
      else none := by
  have values : [symbol a, symbol b, symbol c].mapM value? = some [a, b, c] := by
    simp [value?_symbol, a_lt, b_lt, c_lt]
  have first : (a * 262144 + b * 4096 + c * 64 + 0) / 2 ^ 16 % 256 = a * 4 + b / 16 := by omega
  have second : (a * 262144 + b * 4096 + c * 64 + 0) / 2 ^ 8 % 256 = b % 16 * 16 + c / 4 := by
    omega
  have low : c &&& 0x03 = c % 4 := Nat.and_two_pow_sub_one_eq_mod c 2
  rw [decodeGroup, values]
  change (if (c &&& 0x03 != 0) = true then none else
    some [UInt8.ofNat ((a <<< 18 ||| b <<< 12 ||| c <<< 6 ||| 0) >>> 16 &&& 0xFF),
      UInt8.ofNat ((a <<< 18 ||| b <<< 12 ||| c <<< 6 ||| 0) >>> 8 &&& 0xFF)]) = _
  rw [symbols_eq b_lt c_lt (by omega), octet_eq, octet_eq, first, second, low]
  simp only [bne_iff_ne, ne_eq, ite_not]

/-- Two symbols make one byte, if no bit is left over. -/
theorem decodeGroup_two {a b : Nat} (a_lt : a < 64) (b_lt : b < 64) :
    decodeGroup [symbol a, symbol b] =
      if b % 16 = 0 then some [UInt8.ofNat (a * 4 + b / 16)] else none := by
  have values : [symbol a, symbol b].mapM value? = some [a, b] := by
    simp [value?_symbol, a_lt, b_lt]
  have first : (a * 262144 + b * 4096 + 0 * 64 + 0) / 2 ^ 16 % 256 = a * 4 + b / 16 := by omega
  have low : b &&& 0x0F = b % 16 := Nat.and_two_pow_sub_one_eq_mod b 4
  rw [decodeGroup, values]
  change (if (b &&& 0x0F != 0) = true then none else
    some [UInt8.ofNat ((a <<< 18 ||| b <<< 12 ||| 0 <<< 6 ||| 0) >>> 16 &&& 0xFF)]) = _
  rw [symbols_eq b_lt (by omega) (by omega), octet_eq, first, low]
  simp only [bne_iff_ne, ne_eq, ite_not]

/-- The symbols of three bytes. -/
theorem encode_three (a b c : UInt8) (rest : List UInt8) :
    encode (a :: b :: c :: rest) =
      symbol (a.toNat / 4) :: symbol (a.toNat % 4 * 16 + b.toNat / 16) ::
        symbol (b.toNat % 16 * 4 + c.toNat / 64) :: symbol (c.toNat % 64) :: encode rest := by
  have a_lt := a.toNat_lt
  have b_lt := b.toNat_lt
  have c_lt := c.toNat_lt
  have first : (a.toNat * 65536 + b.toNat * 256 + c.toNat) / 2 ^ 18 % 64 = a.toNat / 4 := by omega
  have second : (a.toNat * 65536 + b.toNat * 256 + c.toNat) / 2 ^ 12 % 64 =
      a.toNat % 4 * 16 + b.toNat / 16 := by omega
  have third : (a.toNat * 65536 + b.toNat * 256 + c.toNat) / 2 ^ 6 % 64 =
      b.toNat % 16 * 4 + c.toNat / 64 := by omega
  have fourth : (a.toNat * 65536 + b.toNat * 256 + c.toNat) / 2 ^ 0 % 64 = c.toNat % 64 := by omega
  simp only [encode, symbolAt, sextet_eq, bytes_eq b_lt c_lt, first, second, third, fourth]

theorem encode_two (a b : UInt8) :
    encode [a, b] =
      [symbol (a.toNat / 4), symbol (a.toNat % 4 * 16 + b.toNat / 16),
        symbol (b.toNat % 16 * 4)] := by
  have a_lt := a.toNat_lt
  have b_lt := b.toNat_lt
  have bytes : a.toNat <<< 16 ||| b.toNat <<< 8 = a.toNat * 65536 + b.toNat * 256 := by
    have padded := bytes_eq (a := a.toNat) b_lt (by omega : 0 < 256)
    rwa [Nat.or_zero, Nat.add_zero] at padded
  have first : (a.toNat * 65536 + b.toNat * 256) / 2 ^ 18 % 64 = a.toNat / 4 := by omega
  have second : (a.toNat * 65536 + b.toNat * 256) / 2 ^ 12 % 64 =
      a.toNat % 4 * 16 + b.toNat / 16 := by omega
  have third : (a.toNat * 65536 + b.toNat * 256) / 2 ^ 6 % 64 = b.toNat % 16 * 4 := by omega
  simp only [encode, symbolAt, sextet_eq, bytes, first, second, third]

theorem encode_one (a : UInt8) :
    encode [a] = [symbol (a.toNat / 4), symbol (a.toNat % 4 * 16)] := by
  have a_lt := a.toNat_lt
  have bytes : a.toNat <<< 16 = a.toNat * 65536 := Nat.shiftLeft_eq _ _
  have first : a.toNat * 65536 / 2 ^ 18 % 64 = a.toNat / 4 := by omega
  have second : a.toNat * 65536 / 2 ^ 12 % 64 = a.toNat % 4 * 16 := by omega
  simp only [encode, symbolAt, sextet_eq, bytes, first, second]

/-- Only symbols are written. -/
theorem exists_symbol_of_mem_encode {bytes : List UInt8} :
    ∀ c ∈ encode bytes, ∃ n < 64, c = symbol n := by
  induction bytes using encode.induct with
  | case1 a b d rest ih =>
      have a_lt := a.toNat_lt
      have b_lt := b.toNat_lt
      have d_lt := d.toNat_lt
      rw [encode_three]
      simp only [List.forall_mem_cons]
      exact ⟨⟨_, by omega, rfl⟩, ⟨_, by omega, rfl⟩, ⟨_, by omega, rfl⟩, ⟨_, by omega, rfl⟩, ih⟩
  | case2 a b =>
      have a_lt := a.toNat_lt
      have b_lt := b.toNat_lt
      rw [encode_two]
      simp only [List.forall_mem_cons]
      exact ⟨⟨_, by omega, rfl⟩, ⟨_, by omega, rfl⟩, ⟨_, by omega, rfl⟩, by simp⟩
  | case3 a =>
      have a_lt := a.toNat_lt
      rw [encode_one]
      simp only [List.forall_mem_cons]
      exact ⟨⟨_, by omega, rfl⟩, ⟨_, by omega, rfl⟩, by simp⟩
  | case4 => simp [encode]

theorem notMem_encode {c : Char} {bytes : List UInt8} (other : value? c = none) :
    c ∉ encode bytes := by
  intro mem
  obtain ⟨n, small, rfl⟩ := exists_symbol_of_mem_encode c mem
  rw [value?_symbol small] at other
  cases other

/-! ## The two directions -/

theorem ofNat_eq {n : Nat} {a : UInt8} (eq : n = a.toNat) : UInt8.ofNat n = a := by
  rw [eq, UInt8.ofNat_toNat]

/-- Groups are decoded one by one. -/
theorem decodeGroups_encode (bytes : List UInt8) : decodeGroups (encode bytes) = some bytes := by
  induction bytes using encode.induct with
  | case1 a b c rest ih =>
      have a_lt := a.toNat_lt
      have b_lt := b.toNat_lt
      have c_lt := c.toNat_lt
      rw [encode_three, decodeGroups, decodeGroup_four (by omega) (by omega) (by omega) (by omega),
        ih, ofNat_eq (a := a) (by omega), ofNat_eq (a := b) (by omega),
        ofNat_eq (a := c) (by omega)]
      rfl
  | case2 a b =>
      have a_lt := a.toNat_lt
      have b_lt := b.toNat_lt
      rw [encode_two]
      change decodeGroup _ = _
      rw [decodeGroup_three (by omega) (by omega) (by omega), if_pos (by omega),
        ofNat_eq (a := a) (by omega), ofNat_eq (a := b) (by omega)]
  | case3 a =>
      have a_lt := a.toNat_lt
      rw [encode_one]
      change decodeGroup _ = _
      rw [decodeGroup_two (by omega) (by omega), if_pos (by omega), ofNat_eq (a := a) (by omega)]
  | case4 => rfl

/-- No encoding has one symbol more than groups of four. -/
theorem length_encode (bytes : List UInt8) : (encode bytes).length % 4 ≠ 1 := by
  induction bytes using encode.induct with
  | case1 a b c rest ih =>
      rw [encode_three]
      simp only [List.length_cons]
      omega
  | case2 a b => simp [encode_two]
  | case3 a => simp [encode_one]
  | case4 => decide

/-- **What was encoded is decoded**. -/
theorem decode_encode (bytes : List UInt8) : decode (encode bytes) = some bytes := by
  rw [decode, if_neg (length_encode bytes), decodeGroups_encode]

/-- A group that decodes is made of symbols. -/
theorem symbols_of_decodeGroup {group : List Char} {bytes : List UInt8}
    (decoded : decodeGroup group = some bytes) : ∀ c ∈ group, ∃ n < 64, c = symbol n := by
  obtain ⟨v, values, -⟩ := Option.bind_eq_some_iff.mp decoded
  clear decoded
  induction group generalizing v with
  | nil =>
      intro c mem
      cases mem
  | cons d group ih =>
      rw [List.mapM_cons] at values
      obtain ⟨n, found, values⟩ := Option.bind_eq_some_iff.mp values
      obtain ⟨v', values, -⟩ := Option.bind_eq_some_iff.mp values
      obtain ⟨eq, n_lt⟩ := eq_symbol_of_value? found
      intro c mem
      rcases List.mem_cons.mp mem with rfl | later
      · exact ⟨n, n_lt, eq⟩
      · exact ih v' values c later

theorem toNat_ofNat_of_lt {n : Nat} (small : n < 256) : (UInt8.ofNat n).toNat = n := by
  rw [UInt8.toNat_ofNat', Nat.mod_eq_of_lt small]

/-- A group of four is the encoding of its bytes. -/
theorem encode_decodeGroup_four {a b c d : Char} {bytes rest : List UInt8}
    (decoded : decodeGroup [a, b, c, d] = some bytes) :
    encode (bytes ++ rest) = a :: b :: c :: d :: encode rest := by
  have symbols := symbols_of_decodeGroup decoded
  obtain ⟨a, a_lt, rfl⟩ := symbols a (by simp)
  obtain ⟨b, b_lt, rfl⟩ := symbols b (by simp)
  obtain ⟨c, c_lt, rfl⟩ := symbols c (by simp)
  obtain ⟨d, d_lt, rfl⟩ := symbols d (by simp)
  rw [decodeGroup_four a_lt b_lt c_lt d_lt] at decoded
  cases decoded
  have first : (a * 4 + b / 16) / 4 = a := by omega
  have second : (a * 4 + b / 16) % 4 * 16 + (b % 16 * 16 + c / 4) / 16 = b := by omega
  have third : (b % 16 * 16 + c / 4) % 16 * 4 + (c % 4 * 64 + d) / 64 = c := by omega
  have fourth : (c % 4 * 64 + d) % 64 = d := by omega
  change encode (_ :: _ :: _ :: rest) = _
  rw [encode_three, toNat_ofNat_of_lt (by omega), toNat_ofNat_of_lt (by omega),
    toNat_ofNat_of_lt (by omega), first, second, third, fourth]

theorem encode_decodeGroup_three {a b c : Char} {bytes : List UInt8}
    (decoded : decodeGroup [a, b, c] = some bytes) : encode bytes = [a, b, c] := by
  have symbols := symbols_of_decodeGroup decoded
  obtain ⟨a, a_lt, rfl⟩ := symbols a (by simp)
  obtain ⟨b, b_lt, rfl⟩ := symbols b (by simp)
  obtain ⟨c, c_lt, rfl⟩ := symbols c (by simp)
  rw [decodeGroup_three a_lt b_lt c_lt] at decoded
  split at decoded
  · next canonical =>
      cases decoded
      have first : (a * 4 + b / 16) / 4 = a := by omega
      have second : (a * 4 + b / 16) % 4 * 16 + (b % 16 * 16 + c / 4) / 16 = b := by omega
      have third : (b % 16 * 16 + c / 4) % 16 * 4 = c := by omega
      rw [encode_two, toNat_ofNat_of_lt (by omega), toNat_ofNat_of_lt (by omega), first, second,
        third]
  · cases decoded

theorem encode_decodeGroup_two {a b : Char} {bytes : List UInt8}
    (decoded : decodeGroup [a, b] = some bytes) : encode bytes = [a, b] := by
  have symbols := symbols_of_decodeGroup decoded
  obtain ⟨a, a_lt, rfl⟩ := symbols a (by simp)
  obtain ⟨b, b_lt, rfl⟩ := symbols b (by simp)
  rw [decodeGroup_two a_lt b_lt] at decoded
  split at decoded
  · next canonical =>
      cases decoded
      have first : (a * 4 + b / 16) / 4 = a := by omega
      have second : (a * 4 + b / 16) % 4 * 16 = b := by omega
      rw [encode_one, toNat_ofNat_of_lt (by omega), first, second]
  · cases decoded

/-- **What is decoded was encoded so**. -/
theorem encode_decodeGroups {input : List Char} {bytes : List UInt8}
    (aligned : input.length % 4 ≠ 1) (decoded : decodeGroups input = some bytes) :
    encode bytes = input := by
  induction input using decodeGroups.induct generalizing bytes with
  | case1 =>
      cases decoded
      rfl
  | case2 a b c d rest ih =>
      obtain ⟨group, first, next⟩ := Option.bind_eq_some_iff.mp decoded
      obtain ⟨bytes', others, eq⟩ := Option.bind_eq_some_iff.mp next
      cases eq
      have shorter : rest.length % 4 ≠ 1 := by
        simp only [List.length_cons] at aligned
        omega
      rw [encode_decodeGroup_four first, ih shorter others]
  | case3 group some_left short =>
      -- two or three characters are left
      cases group with
      | nil => exact absurd rfl some_left
      | cons a group =>
          cases group with
          | nil => exact absurd rfl aligned
          | cons b group =>
              cases group with
              | nil => exact encode_decodeGroup_two decoded
              | cons c group =>
                  cases group with
                  | nil => exact encode_decodeGroup_three decoded
                  | cons d rest => exact absurd rfl (short a b c d rest)

/-- What decodes is canonical: the encoding of the bytes it decodes to. -/
theorem eq_encode_of_decode {input : List Char} {bytes : List UInt8}
    (decoded : decode input = some bytes) : input = encode bytes := by
  unfold decode at decoded
  split at decoded
  · cases decoded
  · next aligned => exact (encode_decodeGroups aligned decoded).symm

end Base64Url
