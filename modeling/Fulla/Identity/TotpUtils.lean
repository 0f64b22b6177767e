import Fulla.Identity.Minting
import Fulla.Model.BitGroups

/-!
# Secrets in base32

`TotpUtils.cc`: the two loops over the secret, each with a `uint32_t` that is cut down to its live
bits, and the codes made of the decoded key.  HMAC-SHA1 is a parameter.

`base32_round_trip`: what is encoded is decoded again, no shift loses a live bit on the way, and
neither the case of a letter nor what is not in the alphabet makes a difference to the key, so none
to the codes.
-/

namespace Fulla

open BitGroups

namespace totp

/-! ## The loops -/

/-- `buffer &= (bitsLeft == 0) ? 0u : ((1u << bitsLeft) - 1)`. -/
def live (buffer : UInt32) (bitsLeft : Nat) : UInt32 :=
  buffer &&& (if bitsLeft = 0 then 0 else ((1 : UInt32) <<< UInt32.ofNat bitsLeft) - 1)

/-- The variables of the loop of `base32Encode`. -/
structure Encoder where
  buffer : UInt32 := 0
  bitsLeft : Nat := 0
  result : List Char := []

/-- The inner loop. -/
def Encoder.emit (buffer : UInt32) : (bitsLeft : Nat) → List Char → List Char × Nat
  | bitsLeft + 5, result =>
    emit buffer bitsLeft
      (result ++ [kBase32Alphabet.getD (buffer >>> UInt32.ofNat bitsLeft &&& 0x1F).toNat 'A'])
  | bitsLeft, result => (result, bitsLeft)

/-- Eight more bits, and a symbol for every five. -/
def Encoder.step (s : Encoder) (b : UInt8) : Encoder :=
  let buffer := s.buffer <<< 8 ||| b.toUInt32
  let (result, bitsLeft) := emit buffer (s.bitsLeft + 8) s.result
  ⟨live buffer bitsLeft, bitsLeft, result⟩

/-- The bits that are left make one more symbol. -/
def Encoder.finish (s : Encoder) : List Char :=
  if s.bitsLeft > 0 then
    s.result ++
      [kBase32Alphabet.getD (s.buffer <<< UInt32.ofNat (5 - s.bitsLeft) &&& 0x1F).toNat 'A']
  else s.result

/-- None for what is skipped. -/
def base32Value (c : Char) : Option Nat :=
  if 'A' ≤ c ∧ c ≤ 'Z' then some (c.toNat - 'A'.toNat)
  else if 'a' ≤ c ∧ c ≤ 'z' then some (c.toNat - 'a'.toNat)
  else if '2' ≤ c ∧ c ≤ '7' then some (c.toNat - '2'.toNat + 26)
  else none

/-- The variables of the loop of `base32Decode`. -/
structure Decoder where
  buffer : UInt32 := 0
  bitsLeft : Nat := 0
  result : List UInt8 := []

/-- Five more bits, and a byte as soon as eight are there. -/
def Decoder.push (s : Decoder) (val : Nat) : Decoder :=
  let buffer := s.buffer <<< 5 ||| UInt32.ofNat val
  let bitsLeft := s.bitsLeft + 5
  if bitsLeft ≥ 8 then
    let result := s.result ++ [(buffer >>> UInt32.ofNat (bitsLeft - 8) &&& 0xFF).toUInt8]
    ⟨live buffer (bitsLeft - 8), bitsLeft - 8, result⟩
  else ⟨buffer, bitsLeft, s.result⟩

/-- A character outside the alphabet is skipped. -/
def Decoder.step (s : Decoder) (c : Char) : Decoder :=
  match base32Value c with
  | none => s
  | some val => s.push val

/-- `totp::base32Decode`. -/
def base32Decode (encoded : String) : List UInt8 :=
  (encoded.toList.foldl Decoder.step {}).result

/-! ## Codes -/

/-- `HMAC` with `EVP_sha1`, of a key and a text. -/
abbrev HmacSha1 : Type :=
  List UInt8 → List UInt8 → Vector UInt8 20

/-- The counter, high byte first. -/
def counterBytes (counter : UInt64) : List UInt8 :=
  (List.range 8).reverse.map fun i => (counter >>> UInt64.ofNat (8 * i) &&& 0xFF).toUInt8

variable (hmac : HmacSha1)

/-- RFC 4226: four bytes of the HMAC, cut to six digits. -/
def generateOtp (key : List UInt8) (counter : UInt64) : UInt32 :=
  let hmacResult := (hmac key (counterBytes counter)).toList
  let offset := (hmacResult.getD 19 0 &&& 0x0F).toNat
  let code := (hmacResult.getD offset 0 &&& 0x7F).toUInt32 <<< 24 |||
    (hmacResult.getD (offset + 1) 0).toUInt32 <<< 16 |||
    (hmacResult.getD (offset + 2) 0).toUInt32 <<< 8 |||
    (hmacResult.getD (offset + 3) 0).toUInt32
  code % 1000000

/-- `setfill('0') << setw(6)`. -/
def formatSixDigits (otp : UInt32) : String :=
  let digits := Nat.toDigits 10 otp.toNat
  String.ofList (List.replicate (6 - digits.length) '0' ++ digits)

/-- `totp::generateCode`. -/
def generateCode (secret : String) (nowSeconds : Int64) : String :=
  let key := base32Decode secret
  if key.isEmpty then ""
  else
    let timeStep := nowSeconds.toUInt64 / 30
    formatSixDigits (generateOtp hmac key timeStep)

/-- `totp::verifyCode`, over the steps around the present one. -/
def verifyCode (secret code : String) (nowSeconds : Int64) : Bool :=
  if code.utf8ByteSize ≠ 6 then false
  else
    let key := base32Decode secret
    if key.isEmpty then false
    else
      let timeStep := nowSeconds.toUInt64 / 30
      [-1, 0, 1].any fun (i : Int64) =>
        formatSixDigits (generateOtp hmac key (timeStep + i.toUInt64)) == code

/-! ## What the buffers hold -/

theorem toNat_ofNat_mod {n : Nat} (n_lt : n < 32) : (UInt32.ofNat n).toNat % 32 = n := by
  rw [UInt32.toNat_ofNat']
  omega

/-- The live bits of the buffer. -/
theorem toNat_live (buffer : UInt32) {bitsLeft : Nat} (few : bitsLeft < 32) :
    (live buffer bitsLeft).toNat = buffer.toNat % 2 ^ bitsLeft := by
  have power : 2 ^ bitsLeft < 2 ^ 32 := Nat.pow_lt_pow_right (by decide) few
  have one_le : 1 ≤ 2 ^ bitsLeft := Nat.one_le_two_pow
  have shifted : ((1 : UInt32) <<< UInt32.ofNat bitsLeft).toNat = 2 ^ bitsLeft := by
    rw [UInt32.toNat_shiftLeft, toNat_ofNat_mod few, Nat.shiftLeft_eq]
    change 1 * 2 ^ bitsLeft % 2 ^ 32 = _
    rw [Nat.one_mul, Nat.mod_eq_of_lt power]
  unfold live
  split
  · next none_ =>
      rw [none_, UInt32.toNat_and, Nat.pow_zero, Nat.mod_one]
      exact Nat.and_zero _
  · rw [UInt32.toNat_and, UInt32.toNat_sub_of_le, shifted]
    · exact Nat.and_two_pow_sub_one_eq_mod _ _
    · rw [UInt32.le_iff_toNat_le, shifted]
      exact one_le

/-- The bits are there and only they, and a shift by `v` keeps them. -/
structure Alive (buffer : UInt32) (bitsLeft v : Nat) : Prop where
  below : buffer.toNat < 2 ^ bitsLeft
  kept : (buffer <<< UInt32.ofNat v).toNat = buffer.toNat <<< v

/-- No live bit is shifted out. -/
theorem alive_of_lt {buffer : UInt32} {bitsLeft v : Nat} (below : buffer.toNat < 2 ^ bitsLeft)
    (fits : bitsLeft + v < 32) : Alive buffer bitsLeft v := by
  have shift_lt : buffer.toNat <<< v < 2 ^ 32 := by
    rw [Nat.shiftLeft_eq]
    calc buffer.toNat * 2 ^ v < 2 ^ bitsLeft * 2 ^ v :=
          Nat.mul_lt_mul_of_pos_right below (Nat.two_pow_pos v)
      _ = 2 ^ (bitsLeft + v) := (Nat.pow_add 2 bitsLeft v).symm
      _ < 2 ^ 32 := Nat.pow_lt_pow_right (by decide) fits
  refine ⟨below, ?_⟩
  rw [UInt32.toNat_shiftLeft, toNat_ofNat_mod (by omega), Nat.mod_eq_of_lt shift_lt]

/-- The state of the encoder after these bits. -/
structure Encoder.Holds (s : Encoder) (read : List Bool) : Prop where
  below : s.buffer.toNat < 2 ^ s.bitsLeft
  few : s.bitsLeft < 5
  grouped : ∃ digits, s.result = digits.map (kBase32Alphabet.getD · 'A') ∧
    Grouped 5 read digits s.buffer.toNat s.bitsLeft

/-- The inner loop takes out all complete groups. -/
theorem Encoder.emit_spec (buffer : UInt32) {bitsLeft : Nat} (fits : bitsLeft < 32)
    {read : List Bool} {digits : List Nat} (grouped : Grouped 5 read digits buffer.toNat bitsLeft) :
    ∃ digits' left, emit buffer bitsLeft (digits.map (kBase32Alphabet.getD · 'A')) =
        (digits'.map (kBase32Alphabet.getD · 'A'), left) ∧ left < 5 ∧
      Grouped 5 read digits' buffer.toNat left := by
  induction bitsLeft using Nat.strongRecOn generalizing digits with
  | _ bitsLeft ih =>
      by_cases enough : 5 ≤ bitsLeft
      · obtain ⟨left, rfl⟩ := Nat.exists_eq_add_of_le' enough
        have digit : (buffer >>> UInt32.ofNat left &&& 0x1F).toNat =
            buffer.toNat >>> left &&& (2 ^ 5 - 1) := by
          rw [UInt32.toNat_and, UInt32.toNat_shiftRight, toNat_ofNat_mod (by omega)]
          rfl
        have next := ih left (by omega) (by omega) grouped.pop
        rw [List.map_append, List.map_singleton, ← digit] at next
        rw [emit]
        exact next
      · refine ⟨digits, bitsLeft, ?_, by omega, grouped⟩
        rw [emit]
        omega

/-- The buffer of a step before the inner loop. -/
def Encoder.pushed (s : Encoder) (b : UInt8) : UInt32 :=
  s.buffer <<< 8 ||| b.toUInt32

theorem Encoder.step_eq (s : Encoder) (b : UInt8) :
    s.step b =
      ⟨live (s.pushed b) (Encoder.emit (s.pushed b) (s.bitsLeft + 8) s.result).2,
        (Encoder.emit (s.pushed b) (s.bitsLeft + 8) s.result).2,
        (Encoder.emit (s.pushed b) (s.bitsLeft + 8) s.result).1⟩ :=
  rfl

/-- The buffer with one more byte. -/
theorem Encoder.Holds.toNat_pushed {s : Encoder} {read : List Bool} (holds : s.Holds read)
    (b : UInt8) : (s.pushed b).toNat = s.buffer.toNat <<< 8 ||| b.toNat := by
  have few := holds.few
  rw [Encoder.pushed, UInt32.toNat_or, UInt8.toNat_toUInt32]
  exact congrArg (· ||| b.toNat) (alive_of_lt holds.below (by omega : s.bitsLeft + 8 < 32)).kept

/-- **The encoder holds what it has read**, byte by byte. -/
theorem Encoder.Holds.step {s : Encoder} {read : List Bool} (holds : s.Holds read) (b : UInt8) :
    (s.step b).Holds (read ++ bits 8 b.toNat) := by
  obtain ⟨digits, text, grouped⟩ := holds.grouped
  have few := holds.few
  have pushed := grouped.push b.toNat_lt
  rw [← holds.toNat_pushed b] at pushed
  obtain ⟨digits', left, emitted, left_lt, grouped'⟩ := emit_spec (s.pushed b) (by omega) pushed
  have step_eq : s.step b =
      ⟨live (s.pushed b) left, left, digits'.map (kBase32Alphabet.getD · 'A')⟩ := by
    rw [Encoder.step_eq, text, emitted]
  have live_eq := toNat_live (s.pushed b) (by omega : left < 32)
  rw [step_eq]
  refine ⟨?_, left_lt, digits', rfl, grouped'.of_bits ?_⟩
  · rw [live_eq]
    exact Nat.mod_lt _ (Nat.two_pow_pos left)
  · rw [live_eq, bits_mod (Nat.le_refl left)]

/-- So it does over all bytes. -/
theorem Encoder.Holds.foldl {s : Encoder} {read : List Bool} (holds : s.Holds read)
    (data : List UInt8) :
    (data.foldl Encoder.step s).Holds (read ++ (data.map UInt8.toNat).flatMap (bits 8)) := by
  induction data generalizing s read with
  | nil => rwa [List.map_nil, List.flatMap_nil, List.append_nil]
  | cons b data ih =>
      have next := ih (holds.step b)
      rwa [List.append_assoc] at next

theorem encoder_holds (data : List UInt8) :
    (data.foldl Encoder.step {}).Holds ((data.map UInt8.toNat).flatMap (bits 8)) := by
  have start : ({} : Encoder).Holds [] := ⟨by decide, by decide, [], rfl, Grouped.empty 5⟩
  exact start.foldl data

/-- The characters carry the bits that were read, and then fewer than a digit's zeros. -/
theorem Encoder.Holds.finish {s : Encoder} {read : List Bool} (holds : s.Holds read) :
    ∃ digits : List Nat, s.finish = digits.map (kBase32Alphabet.getD · 'A') ∧
      (∀ d ∈ digits, d < 2 ^ 5) ∧ ∃ k < 5, digits.flatMap (bits 5) = read ++ bits k 0 := by
  obtain ⟨digits, text, grouped⟩ := holds.grouped
  have few := holds.few
  unfold Encoder.finish
  split
  · next some_ =>
      let last := s.buffer.toNat <<< (5 - s.bitsLeft)
      have digit : (s.buffer <<< UInt32.ofNat (5 - s.bitsLeft) &&& 0x1F).toNat =
          last &&& (2 ^ 5 - 1) := by
        rw [UInt32.toNat_and, (alive_of_lt holds.below (by omega)).kept]
        rfl
      have last_bits : bits 5 last = bits s.bitsLeft s.buffer.toNat ++ bits (5 - s.bitsLeft) 0 := by
        rw [← bits_shiftLeft, Nat.add_sub_cancel' (by omega)]
      refine ⟨digits ++ [last &&& (2 ^ 5 - 1)], ?_, ?_, 5 - s.bitsLeft, by omega, ?_⟩
      · rw [text, digit, List.map_append, List.map_singleton]
      · intro d mem
        rcases List.mem_append.mp mem with before | here
        · exact grouped.digits d before
        · rw [List.mem_singleton.mp here]
          exact Nat.and_lt_two_pow _ (by decide)
      · rw [List.flatMap_append, List.flatMap_singleton, bits_mask, last_bits, ← grouped.bits_eq,
          List.append_assoc]
  · next none_ =>
      have empty : s.bitsLeft = 0 := by omega
      refine ⟨digits, text, grouped.digits, 0, by decide, ?_⟩
      have read_eq := grouped.bits_eq
      rw [empty] at read_eq
      rw [← read_eq]
      simp [bits]

/-! The encoder that mints the secrets is the same, with its buffer as a number. -/

theorem Encoder.emit_eq (buffer : UInt32) {bitsLeft : Nat} (fits : bitsLeft < 32)
    (result : List Char) :
    Encoder.emit buffer bitsLeft result =
      (result ++ (totp.emit buffer.toNat bitsLeft).1, (totp.emit buffer.toNat bitsLeft).2) := by
  induction bitsLeft using Nat.strongRecOn generalizing result with
  | _ bitsLeft ih =>
      by_cases enough : 5 ≤ bitsLeft
      · obtain ⟨left, rfl⟩ := Nat.exists_eq_add_of_le' enough
        have digit : (buffer >>> UInt32.ofNat left &&& 0x1F).toNat =
            buffer.toNat >>> left &&& 0x1F := by
          rw [UInt32.toNat_and, UInt32.toNat_shiftRight, toNat_ofNat_mod (by omega)]
          rfl
        rw [Encoder.emit, totp.emit, ih left (by omega) (by omega), digit, List.append_assoc]
        rfl
      · have last : totp.emit buffer.toNat bitsLeft = ([], bitsLeft) := by
          rw [totp.emit]
          omega
        rw [Encoder.emit, last, List.append_nil]
        omega

/-- The loop on numbers is the one on machine words. -/
theorem base32Loop_eq {s : Encoder} {read : List Bool} (holds : s.Holds read)
    (data : List UInt8) :
    s.result ++ base32Loop data s.buffer.toNat s.bitsLeft = (data.foldl Encoder.step s).finish := by
  induction data generalizing s read with
  | nil =>
      have few := holds.few
      rw [base32Loop, List.foldl_nil, Encoder.finish]
      split
      · rw [UInt32.toNat_and, (alive_of_lt holds.below (by omega)).kept]
        rfl
      · rw [List.append_nil]
  | cons b data ih =>
      have few := holds.few
      have next := holds.step b
      have step_eq : s.step b =
          ⟨live (s.pushed b) (totp.emit (s.pushed b).toNat (s.bitsLeft + 8)).2,
            (totp.emit (s.pushed b).toNat (s.bitsLeft + 8)).2,
            s.result ++ (totp.emit (s.pushed b).toNat (s.bitsLeft + 8)).1⟩ := by
        rw [Encoder.step_eq, Encoder.emit_eq (s.pushed b) (by omega)]
      have left_lt := next.few
      rw [List.foldl_cons, ← ih next, base32Loop, ← holds.toNat_pushed b]
      rw [step_eq] at left_lt ⊢
      dsimp only at left_lt ⊢
      rw [toNat_live _ (by omega), List.append_assoc]

/-- The state of the decoder after these bits. -/
structure Decoder.Holds (s : Decoder) (read : List Bool) : Prop where
  below : s.buffer.toNat < 2 ^ s.bitsLeft
  few : s.bitsLeft < 8
  grouped : Grouped 8 read (s.result.map UInt8.toNat) s.buffer.toNat s.bitsLeft

/-- **The decoder holds what it has read**, digit by digit. -/
theorem Decoder.Holds.push {s : Decoder} {read : List Bool} (holds : s.Holds read) {val : Nat}
    (val_lt : val < 2 ^ 5) : (s.push val).Holds (read ++ bits 5 val) := by
  have few := holds.few
  let buffer := s.buffer <<< 5 ||| UInt32.ofNat val
  have buffer_eq : buffer.toNat = s.buffer.toNat <<< 5 ||| val := by
    rw [UInt32.toNat_or, UInt32.toNat_ofNat', Nat.mod_eq_of_lt (by omega : val < 2 ^ 32)]
    exact congrArg (· ||| val) (alive_of_lt holds.below (by omega : s.bitsLeft + 5 < 32)).kept
  have pushed := holds.grouped.push val_lt
  rw [← buffer_eq] at pushed
  unfold Decoder.push
  dsimp only
  split
  · next enough =>
      obtain ⟨left, left_eq⟩ := Nat.exists_eq_add_of_le' enough
      have live_eq := toNat_live buffer (by omega : left < 32)
      have last : (buffer >>> UInt32.ofNat left &&& 0xFF).toUInt8.toNat =
          buffer.toNat >>> left &&& (2 ^ 8 - 1) := by
        rw [UInt32.toNat_toUInt8, UInt32.toNat_and, UInt32.toNat_shiftRight,
          toNat_ofNat_mod (by omega)]
        exact Nat.mod_eq_of_lt (Nat.and_lt_two_pow _ (by decide))
      rw [left_eq] at pushed ⊢
      rw [Nat.add_sub_cancel]
      refine ⟨?_, (by omega : left < 8), ?_⟩
      · rw [live_eq]
        exact Nat.mod_lt _ (Nat.two_pow_pos left)
      · rw [List.map_append, List.map_singleton, last]
        refine pushed.pop.of_bits ?_
        rw [live_eq, bits_mod (Nat.le_refl left)]
  · next short =>
      refine ⟨?_, Nat.lt_of_not_le short, pushed⟩
      rw [buffer_eq]
      have shift_lt : s.buffer.toNat <<< 5 < 2 ^ (s.bitsLeft + 5) := by
        rw [Nat.shiftLeft_eq, Nat.pow_add]
        exact Nat.mul_lt_mul_of_pos_right holds.below (by decide)
      refine Nat.or_lt_two_pow shift_lt (val_lt.trans_le ?_)
      exact Nat.pow_le_pow_right (by decide) (Nat.le_add_left 5 _)

/-! ## The round trip -/

/-- A digit is found in the alphabet. -/
theorem base32Value_getD {v : Nat} (v_lt : v < 2 ^ 5) :
    base32Value (kBase32Alphabet.getD v 'A') = some v := by
  have all : ∀ k : Fin 32, base32Value (kBase32Alphabet.getD k 'A') = some k.val := by
    decide +kernel
  exact all ⟨v, v_lt⟩

/-- So it does over all digits. -/
theorem Decoder.Holds.foldl {s : Decoder} {read : List Bool} (holds : s.Holds read)
    {digits : List Nat} (digits_lt : ∀ d ∈ digits, d < 2 ^ 5) :
    ((digits.map (kBase32Alphabet.getD · 'A')).foldl Decoder.step s).Holds
      (read ++ digits.flatMap (bits 5)) := by
  induction digits generalizing s read with
  | nil => rwa [List.flatMap_nil, List.append_nil]
  | cons d digits ih =>
      have d_lt := digits_lt d List.mem_cons_self
      have next := ih (holds.push d_lt) fun d' mem => digits_lt d' (List.mem_cons_of_mem d mem)
      have step_eq : s.step (kBase32Alphabet.getD d 'A') = s.push d := by
        rw [Decoder.step, base32Value_getD d_lt]
      rwa [List.map_cons, List.foldl_cons, step_eq, List.flatMap_cons, ← List.append_assoc]

theorem decoder_start : ({} : Decoder).Holds [] :=
  ⟨by decide, by decide, Grouped.empty 8⟩

/-- The encoder of the setup is the one on machine words. -/
theorem base32Encode_eq (data : List UInt8) :
    base32Encode data = String.ofList (data.foldl Encoder.step {}).finish := by
  have start : ({} : Encoder).Holds [] := encoder_holds []
  exact congrArg String.ofList (base32Loop_eq start data)

/-- **A secret is read back from its text**. -/
theorem base32Decode_encode (data : List UInt8) : base32Decode (base32Encode data) = data := by
  obtain ⟨digits, text, digits_lt, k, k_lt, read⟩ := (encoder_holds data).finish
  have decoded := decoder_start.foldl digits_lt
  rw [base32Decode, base32Encode_eq, String.toList_ofList, text]
  have written : Grouped 8 ([] ++ digits.flatMap (bits 5)) (data.map UInt8.toNat) 0 k := by
    refine ⟨read.symm, fun d mem => ?_⟩
    obtain ⟨b, -, rfl⟩ := List.mem_map.mp mem
    exact b.toNat_lt
  exact List.map_injective_iff.mpr (fun a b => UInt8.toNat_inj.mp)
    (decoded.grouped.digits_eq written decoded.few (by omega))

/-- The value is that of the capital letter, its place in the alphabet. -/
theorem base32Value_eq (c : Char) :
    base32Value c =
      if c.toUpper ∈ kBase32Alphabet then some (kBase32Alphabet.idxOf c.toUpper) else none := by
  by_cases ascii : c.toNat < 128
  · have all : ∀ k : Fin 128, base32Value (Char.ofNat k) =
        if (Char.ofNat k).toUpper ∈ kBase32Alphabet then
          some (kBase32Alphabet.idxOf (Char.ofNat k).toUpper)
        else none := by
      decide +kernel
    have here := all ⟨c.toNat, ascii⟩
    rwa [Char.ofNat_toNat] at here
  · have above {d : Char} (d_lt : d.toNat < 128) : ¬ c ≤ d := fun c_le =>
      ascii (Nat.lt_of_le_of_lt (UInt32.le_iff_toNat_le.mp c_le) d_lt)
    have same : c.toUpper = c :=
      dif_neg fun range => above (by decide : 'z'.toNat < 128) range.2
    have letters : ∀ d ∈ kBase32Alphabet, d.toNat < 128 := by
      simpa using (by decide : kBase32Alphabet.all (fun d => decide (d.toNat < 128)) = true)
    rw [base32Value, if_neg (fun range => above (by decide) range.2),
      if_neg (fun range => above (by decide) range.2),
      if_neg (fun range => above (by decide) range.2), same, if_neg]
    exact fun mem => ascii (letters c mem)

theorem base32Value_lt {c : Char} {v : Nat} (found : base32Value c = some v) : v < 2 ^ 5 := by
  rw [base32Value_eq] at found
  split at found
  · next mem =>
      cases found
      exact List.idxOf_lt_length_of_mem mem
  · cases found

/-- Every text leaves the decoder with live bits only. -/
theorem decoder_holds (encoded : List Char) :
    ∃ read, (encoded.foldl Decoder.step {}).Holds read := by
  have run (s : Decoder) (read : List Bool) (holds : s.Holds read) :
      ∃ read', (encoded.foldl Decoder.step s).Holds read' := by
    induction encoded generalizing s read with
    | nil => exact ⟨read, holds⟩
    | cons c encoded ih =>
        rw [List.foldl_cons, Decoder.step]
        cases found : base32Value c with
        | none => exact ih s read holds
        | some v => exact ih (s.push v) _ (holds.push (base32Value_lt found))
  exact run {} [] decoder_start

/-! ## Spellings -/

/-- The second text is the first with letters in another case and with characters between that are
not in the alphabet. -/
inductive Respelled : List Char → List Char → Prop
  | nil : Respelled [] []
  | cons {c c' : Char} {s s' : List Char} (same : c.toUpper = c'.toUpper)
      (rest : Respelled s s') : Respelled (c :: s) (c' :: s')
  | insert {c : Char} {s s' : List Char} (other : c.toUpper ∉ kBase32Alphabet)
      (rest : Respelled s s') : Respelled s (c :: s')

/-- Letters in either case and signs between them do not matter. -/
theorem foldl_of_respelled {s s' : List Char} (respelled : Respelled s s') (d : Decoder) :
    s'.foldl Decoder.step d = s.foldl Decoder.step d := by
  induction respelled generalizing d with
  | nil => rfl
  | @cons c c' s s' same rest ih =>
      have value : base32Value c = base32Value c' := by
        rw [base32Value_eq, same, ← base32Value_eq]
      rw [List.foldl_cons, List.foldl_cons, ih, Decoder.step, Decoder.step, value]
  | insert other rest ih =>
      rw [List.foldl_cons, ih, Decoder.step, base32Value_eq, if_neg other]

/-- So a respelled secret is the same secret. -/
theorem base32Decode_of_respelled {s s' : String} (respelled : Respelled s.toList s'.toList) :
    base32Decode s' = base32Decode s := by
  rw [base32Decode, base32Decode, foldl_of_respelled respelled]

/-- The code of a key, whatever text it was read from. -/
def codeAt (key : List UInt8) (timeStep : UInt64) : String :=
  formatSixDigits (generateOtp hmac key timeStep)

/-- When a code is accepted. -/
theorem verifyCode_iff (secret code : String) (nowSeconds : Int64) :
    verifyCode hmac secret code nowSeconds = true ↔
      base32Decode secret ≠ [] ∧ code.utf8ByteSize = 6 ∧
        (code = codeAt hmac (base32Decode secret) (nowSeconds.toUInt64 / 30 - 1) ∨
          code = codeAt hmac (base32Decode secret) (nowSeconds.toUInt64 / 30) ∨
          code = codeAt hmac (base32Decode secret) (nowSeconds.toUInt64 / 30 + 1)) := by
  have before (t : UInt64) : t + (-1 : Int64).toUInt64 = t - 1 := (UInt64.sub_eq_add_neg t 1).symm
  have at_ (t : UInt64) : t + (0 : Int64).toUInt64 = t := UInt64.add_zero t
  unfold verifyCode
  split
  · next size => simp [size]
  · next size =>
      dsimp only
      split
      · next empty => simp [List.isEmpty_iff.mp empty]
      · next some_ =>
          have size_eq : code.utf8ByteSize = 6 := not_not.mp size
          have key_ne : base32Decode secret ≠ [] := fun none_ => some_ (by rw [none_]; rfl)
          simp only [List.any_cons, List.any_nil, before, at_, Bool.or_false, Bool.or_eq_true,
            beq_iff_eq, size_eq, ne_eq, key_ne, not_false_eq_true, true_and]
          exact or_congr eq_comm (or_congr eq_comm eq_comm)

/-- What is encoded is decoded again; in neither loop does the buffer hold more than the bits that
are left, so that the shifts to come lose nothing; and a text that differs in the case of letters
and in characters outside the alphabet has the same key, so that the codes of every spelling of an
encoded key are those of the key. -/
theorem base32_round_trip :
    (∀ data, base32Decode (base32Encode data) = data) ∧
      (∀ data : List UInt8,
        let s := data.foldl Encoder.step {}
        Alive s.buffer s.bitsLeft 8 ∧ Alive s.buffer s.bitsLeft (5 - s.bitsLeft)) ∧
      (∀ encoded : String,
        let s := encoded.toList.foldl Decoder.step {}
        Alive s.buffer s.bitsLeft 5) ∧
      (∀ s s' : String, Respelled s.toList s'.toList → base32Decode s' = base32Decode s) ∧
      ∀ (key : List UInt8) (secret : String),
        Respelled (base32Encode key).toList secret.toList → ∀ nowSeconds,
          let timeStep := nowSeconds.toUInt64 / 30
          generateCode hmac secret nowSeconds =
              (if key = [] then "" else codeAt hmac key timeStep) ∧
            ∀ code, verifyCode hmac secret code nowSeconds = true ↔
              key ≠ [] ∧ code.utf8ByteSize = 6 ∧
                (code = codeAt hmac key (timeStep - 1) ∨ code = codeAt hmac key timeStep ∨
                  code = codeAt hmac key (timeStep + 1)) := by
  refine ⟨base32Decode_encode, ?_, ?_, fun s s' => base32Decode_of_respelled, ?_⟩
  · intro data
    have holds := encoder_holds data
    have few := holds.few
    exact ⟨alive_of_lt holds.below (by omega), alive_of_lt holds.below (by omega)⟩
  · intro encoded
    obtain ⟨read, holds⟩ := decoder_holds encoded.toList
    have few := holds.few
    exact alive_of_lt holds.below (by omega)
  · intro key secret respelled nowSeconds
    have decoded : base32Decode secret = key := by
      rw [base32Decode_of_respelled respelled, base32Decode_encode]
    refine ⟨?_, fun code => ?_⟩
    · rw [generateCode, decoded]
      simp only [List.isEmpty_iff]
      rfl
    · rw [verifyCode_iff, decoded]

end totp

end Fulla
