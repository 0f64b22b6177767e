import Fulla.Model.BitGroups
import Fulla.Webauthn.CborTags
import Fulla.Webauthn.ClientBytes

/-!
# The layout of authenticator data

`parseAuthData` cuts the bytes at offsets that depend on lengths which the client chose, and finds
the ends of the two embedded CBOR items by decoding them.

A `Split` is a list of parts, and `parseAuthData_exact` says that the parse succeeds exactly for
the bytes that have one, that they have no other, and that nothing is read past the end.  The items
are measured with all that follows them, so the limit on the input applies from the first byte of
an item to the end of the data.
-/

namespace Fulla

open Conc

namespace CborReader

/-- One item, and nothing else. -/
def Measured (item : List UInt8) : Prop :=
  measure item = .ok item.length

/-- A length is measured of an item that is within the limits. -/
theorem measure_eq_ok {data : List UInt8} {n : Nat} :
    measure data = .ok n ↔
      data.length ≤ limits.kMaxInputBytes ∧ Cbor.IsItem 1024 65536 7 data n := by
  have exact_ (small : data.length ≤ limits.kMaxInputBytes) :
      validateStructure machine data = .ok n ↔ Cbor.IsItem 1024 65536 7 data n :=
    (validateStructure_exact data 0 (Nat.lt_of_le_of_lt small (by decide))).1 n
  unfold measure
  rw [bind_eq_ok]
  constructor
  · rintro ⟨_, passed, answered⟩
    have small : data.length ≤ limits.kMaxInputBytes := by simpa using passed
    refine ⟨small, (exact_ small).mp ?_⟩
    cases found : validateStructure machine data with
    | ok m =>
        rw [found] at answered
        cases answered
        rfl
    | error stop =>
        rw [found] at answered
        cases stop <;> cases answered
  · rintro ⟨small, isItem⟩
    refine ⟨(), by simpa using small, ?_⟩
    rw [(exact_ small).mpr isItem]
    rfl

theorem measured_iff {item : List UInt8} :
    Measured item ↔
      item.length ≤ limits.kMaxInputBytes ∧ Cbor.IsItem 1024 65536 7 item item.length :=
  measure_eq_ok

/-- An item is measured the same with more after it, if there is not too much. -/
theorem measure_append {item more : List UInt8} :
    measure (item ++ more) = .ok item.length ↔
      Measured item ∧ (item ++ more).length ≤ limits.kMaxInputBytes := by
  rw [measure_eq_ok, measured_iff]
  constructor
  · rintro ⟨small, isItem⟩
    have alone := isItem.with_more []
    rw [List.take_left, List.append_nil] at alone
    rw [List.length_append] at small
    exact ⟨⟨by omega, alone⟩, by rwa [List.length_append]⟩
  · rintro ⟨⟨-, isItem⟩, small⟩
    have longer := isItem.with_more more
    rw [List.take_length] at longer
    exact ⟨small, longer⟩

/-- What is measured is one item at the front. -/
theorem exists_of_measure {data : List UInt8} {n : Nat} (measured : measure data = .ok n) :
    ∃ item more, data = item ++ more ∧ n = item.length ∧ Measured item ∧
      (item ++ more).length ≤ limits.kMaxInputBytes := by
  obtain ⟨-, items, -, -, -, -, -, rfl, more, rfl⟩ := measure_eq_ok.mp measured
  exact ⟨items.encode, more, rfl, rfl, measure_append.mp measured⟩

/-- The item at the front is the only one. -/
theorem Measured.unique {item item' more more' : List UInt8} (measured : Measured item)
    (measured' : Measured item') (same : item ++ more = item' ++ more') :
    item = item' ∧ more = more' := by
  obtain ⟨-, items, number, formed, -, -, -, length, pre⟩ := measured_iff.mp measured
  obtain ⟨-, items', number', formed', -, -, -, length', pre'⟩ := measured_iff.mp measured'
  rw [← pre.eq_of_length length, ← pre'.eq_of_length length'] at same ⊢
  obtain ⟨rfl, after⟩ :=
    Cbor.Items.eq_of_encode_append (number.trans number'.symm) formed formed' same
  exact ⟨rfl, after⟩

end CborReader

namespace Webauthn

open BitGroups CborReader

/-! ## Splits -/

/-- The parts of the attested credential data. -/
structure Attested where
  aaguid : List UInt8
  high : UInt8
  low : UInt8
  credentialId : List UInt8
  coseKey : List UInt8

namespace Attested

/-- The attested credential data as bytes. -/
def bytes (a : Attested) : List UInt8 :=
  a.aaguid ++ a.high :: a.low :: (a.credentialId ++ a.coseKey)

/-- The lengths are those that the bytes announce. -/
structure Formed (a : Attested) : Prop where
  aaguid : a.aaguid.length = kAaguidBytes
  length : a.credentialId.length = 256 * a.high.toNat + a.low.toNat
  short : a.credentialId.length ≤ kMaxCredentialIdBytes
  coseKey : Measured a.coseKey

/-- What of it is returned. -/
def fill (a : Attested) (parsed : ParsedAuthData) : ParsedAuthData :=
  { parsed with
    aaguid := a.aaguid
    credentialId := a.credentialId
    coseKey := a.coseKey }

end Attested

/-- The parts of authenticator data. -/
structure Split where
  rpIdHash : List UInt8
  flags : UInt8
  signCount : List UInt8
  attested : Option Attested
  extension : Option (List UInt8)

namespace Split

/-- The credential data, if there are any. -/
def attestedBytes (s : Split) : List UInt8 :=
  s.attested.elim [] Attested.bytes

/-- The extensions, if there are any. -/
def extensionBytes (s : Split) : List UInt8 :=
  s.extension.getD []

/-- The authenticator data as bytes. -/
def bytes (s : Split) : List UInt8 :=
  s.rpIdHash ++ s.flags :: (s.signCount ++ (s.attestedBytes ++ s.extensionBytes))

/-- The parts are there if and only if their flag is set, and each has its form. -/
structure Formed (s : Split) (requireAttestedCredentialData : Bool) : Prop where
  rpIdHash : s.rpIdHash.length = 32
  signCount : s.signCount.length = 4
  attested_iff : s.attested.isSome = true ↔ s.flags &&& 0x40 ≠ 0
  attested : ∀ a ∈ s.attested, a.Formed
  extension_iff : s.extension.isSome = true ↔ s.flags &&& 0x80 ≠ 0
  extension : ∀ e ∈ s.extension, Measured e
  required : requireAttestedCredentialData = true → s.attested.isSome = true

/-- The CBOR items together are within the limit on the input of one. -/
def Within (s : Split) : Prop :=
  ∀ a ∈ s.attested, (a.coseKey ++ s.extensionBytes).length ≤ limits.kMaxInputBytes

/-- What the fixed part says. -/
def fixed (s : Split) : ParsedAuthData :=
  { rpIdHash := s.rpIdHash
    up := s.flags &&& 0x01 ≠ 0
    uv := s.flags &&& 0x04 ≠ 0
    at_ := s.flags &&& 0x40 ≠ 0
    ed := s.flags &&& 0x80 ≠ 0
    signCount :=
      (byte s.signCount 0).toUInt32 <<< 24 ||| (byte s.signCount 1).toUInt32 <<< 16 |||
        (byte s.signCount 2).toUInt32 <<< 8 ||| (byte s.signCount 3).toUInt32 }

/-- What is returned. -/
def parsed (s : Split) : ParsedAuthData :=
  s.attested.elim s.fixed (Attested.fill · s.fixed)

end Split

/-! ## Cutting -/

/-- A part is found behind what stands before it. -/
theorem substr_append (before part rest : List UInt8) :
    substr (before ++ (part ++ rest)) before.length part.length = part := by
  rw [substr, List.drop_left, List.take_left]

theorem byte_append (before rest : List UInt8) (i : Nat) :
    byte (before ++ rest) (before.length + i) = byte rest i := by
  rw [byte, List.getD_eq_getElem?_getD, List.getElem?_append_right (by omega),
    Nat.add_sub_cancel_left, ← List.getD_eq_getElem?_getD]
  rfl

/-- The rest begins with the part that is read next. -/
theorem drop_eq_substr_append (data : List UInt8) (pos n : Nat) :
    data.drop pos = substr data pos n ++ data.drop (pos + n) := by
  rw [substr, ← List.drop_drop, List.take_append_drop]

theorem length_substr {data : List UInt8} {pos n : Nat} (inside : pos + n ≤ data.length) :
    (substr data pos n).length = n := by
  rw [substr, List.length_take, List.length_drop]
  omega

theorem drop_eq_byte_cons {data : List UInt8} {pos : Nat} (inside : pos < data.length) :
    data.drop pos = byte data pos :: data.drop (pos + 1) := by
  rw [List.drop_eq_getElem_cons inside, byte, List.getD_eq_getElem?_getD,
    List.getElem?_eq_getElem inside]
  rfl

/-- The length of a credential id, from its two bytes. -/
theorem sixteen_eq (high low : UInt8) :
    high.toNat <<< 8 ||| low.toNat = 256 * high.toNat + low.toNat := by
  rw [← Nat.shiftLeft_add_eq_or_of_lt low.toNat_lt, Nat.shiftLeft_eq]
  omega

theorem measureAt_eq_ok {authData : List UInt8} {offset n : Nat} {what : String} :
    measureAt authData offset what = .ok n ↔ measure (authData.drop offset) = .ok n :=
  orAnswer_eq_ok

/-- The attested part is one of the form at the position, with what follows it. -/
theorem attestedPart_eq_ok {before rest : List UInt8} {parsed p : ParsedAuthData} {pos' : Nat} :
    attestedPart (before ++ rest) parsed before.length = .ok (p, pos') ↔
      ∃ (a : Attested) (more : List UInt8), rest = a.bytes ++ more ∧ a.Formed ∧
        (a.coseKey ++ more).length ≤ limits.kMaxInputBytes ∧ p = a.fill parsed ∧
        pos' = before.length + a.bytes.length := by
  constructor
  · intro answered
    simp only [attestedPart, bind_eq_ok, refuseIf_eq_ok, pure_eq_ok, measureAt_eq_ok,
      decide_eq_false_iff_not, Nat.not_lt] at answered
    obtain ⟨-, -, -, length_in, -, short, -, id_in, n, measured, same⟩ := answered
    have rest_eq : rest = (before ++ rest).drop before.length := List.drop_left.symm
    generalize before ++ rest = data at *
    rw [sixteen_eq] at short id_in measured same
    obtain ⟨key, more, cut, rfl, key_measured, small⟩ := exists_of_measure measured
    have key_eq : substr data (before.length + kAaguidBytes + 2 + (256 *
        (byte data (before.length + kAaguidBytes)).toNat +
          (byte data (before.length + kAaguidBytes + 1)).toNat)) key.length = key := by
      rw [substr, cut, List.take_left]
    rw [key_eq] at same
    injection same with p_eq pos_eq
    refine ⟨⟨substr data before.length kAaguidBytes, byte data (before.length + kAaguidBytes),
      byte data (before.length + kAaguidBytes + 1), substr data (before.length + kAaguidBytes + 2)
        (256 * (byte data (before.length + kAaguidBytes)).toNat +
          (byte data (before.length + kAaguidBytes + 1)).toNat), key⟩, more, ?_, ?_, small,
      p_eq.symm, ?_⟩
    · rw [rest_eq, drop_eq_substr_append data before.length kAaguidBytes,
        drop_eq_byte_cons (by omega), drop_eq_byte_cons (by omega),
        drop_eq_substr_append data _ (256 * (byte data (before.length + kAaguidBytes)).toNat +
          (byte data (before.length + kAaguidBytes + 1)).toNat), cut]
      simp [Attested.bytes]
    · exact ⟨length_substr (by omega), length_substr id_in, by rwa [length_substr id_in],
        key_measured⟩
    · rw [← pos_eq]
      simp only [Attested.bytes, List.length_append, List.length_cons]
      rw [length_substr (by omega), length_substr id_in]
      omega
  · rintro ⟨a, more, rfl, formed, small, rfl, rfl⟩
    have bytes_length : a.bytes.length =
        kAaguidBytes + 2 + a.credentialId.length + a.coseKey.length := by
      simp only [Attested.bytes, List.length_append, List.length_cons, formed.aaguid]
      omega
    have length_eq : (before ++ (a.bytes ++ more)).length =
        before.length + kAaguidBytes + 2 + a.credentialId.length + (a.coseKey ++ more).length := by
      simp only [List.length_append, bytes_length]
      omega
    have aaguid_eq : substr (before ++ (a.bytes ++ more)) before.length kAaguidBytes =
        a.aaguid := by
      rw [← formed.aaguid, Attested.bytes, List.append_assoc]
      exact substr_append before a.aaguid _
    have tail : before ++ (a.bytes ++ more) = (before ++ a.aaguid) ++
        a.high :: a.low :: (a.credentialId ++ (a.coseKey ++ more)) := by simp [Attested.bytes]
    have high_eq : byte (before ++ (a.bytes ++ more)) (before.length + kAaguidBytes) = a.high := by
      rw [tail, ← formed.aaguid, ← List.length_append]
      exact byte_append (before ++ a.aaguid) _ 0
    have low_eq : byte (before ++ (a.bytes ++ more)) (before.length + kAaguidBytes + 1) =
        a.low := by
      rw [tail, ← formed.aaguid, ← List.length_append]
      exact byte_append (before ++ a.aaguid) _ 1
    have at_id : before ++ (a.bytes ++ more) = (before ++ a.aaguid ++ [a.high, a.low]) ++
        (a.credentialId ++ (a.coseKey ++ more)) := by simp [Attested.bytes]
    have id_at : before.length + kAaguidBytes + 2 =
        (before ++ a.aaguid ++ [a.high, a.low]).length := by
      simp [formed.aaguid, Nat.add_assoc]
    have id_eq : substr (before ++ (a.bytes ++ more)) (before.length + kAaguidBytes + 2)
        a.credentialId.length = a.credentialId := by
      rw [at_id, id_at]
      exact substr_append _ a.credentialId _
    have drop_eq : (before ++ (a.bytes ++ more)).drop
        (before.length + kAaguidBytes + 2 + a.credentialId.length) = a.coseKey ++ more := by
      rw [at_id, id_at, ← List.drop_drop, List.drop_left, List.drop_left]
    have key_eq : substr (before ++ (a.bytes ++ more))
        (before.length + kAaguidBytes + 2 + a.credentialId.length) a.coseKey.length =
          a.coseKey := by
      rw [substr, drop_eq, List.take_left]
    simp only [attestedPart, bind_eq_ok, refuseIf_eq_ok, pure_eq_ok, measureAt_eq_ok,
      decide_eq_false_iff_not, Nat.not_lt, sixteen_eq, high_eq, low_eq, ← formed.length, id_eq,
      aaguid_eq, length_eq]
    refine ⟨(), by omega, (), by omega, (), formed.short, (), by omega, a.coseKey.length, ?_, ?_⟩
    · rw [drop_eq]
      exact measure_append.mpr ⟨formed.coseKey, small⟩
    · rw [key_eq, bytes_length]
      simp only [Attested.fill, Nat.add_assoc]

/-- What `parseAuthData` does after the attested part. -/
def ending (authData : List UInt8) (parsed : ParsedAuthData) (pos : Nat) :
    Except String ParsedAuthData := do
  let extensionLength ←
    if parsed.ed then measureAt authData pos "authData: extension data" else pure 0
  let pos := pos + extensionLength
  refuseIf (pos ≠ authData.length) "authData: trailing bytes after the declared structure"
  return parsed

/-- The parser accepts in three steps: the fixed part, the credential data, the end. -/
theorem parseAuthData_eq_ok_ending {authData : List UInt8} {require : Bool} {p : ParsedAuthData} :
    parseAuthData authData require = .ok p ↔
      kFixedPartBytes ≤ authData.length ∧ (require = true → (fixedPart authData).at_ = true) ∧
        ∃ parsed pos,
          (if (fixedPart authData).at_ then
              attestedPart authData (fixedPart authData) kFixedPartBytes
            else pure (fixedPart authData, kFixedPartBytes)) = .ok (parsed, pos) ∧
            ending authData parsed pos = .ok p := by
  unfold parseAuthData
  rw [bind_eq_ok]
  simp only [bind_eq_ok (x := refuseIf _ _), refuseIf_eq_ok, decide_eq_false_iff_not, Nat.not_lt,
    exists_and_left, exists_const]
  refine and_congr_right fun _ => and_congr ?_ ?_
  · cases (fixedPart authData).at_ <;> cases require <;> simp
  · cases (fixedPart authData).at_ with
    | true =>
        constructor
        · intro answered
          obtain ⟨⟨parsed, pos⟩, attested, rest⟩ := bind_eq_ok.mp answered
          exact ⟨parsed, pos, attested, rest⟩
        · rintro ⟨parsed, pos, attested, rest⟩
          exact bind_eq_ok.mpr ⟨(parsed, pos), attested, rest⟩
    | false =>
        constructor
        · intro rest
          exact ⟨fixedPart authData, kFixedPartBytes, rfl, rest⟩
        · rintro ⟨parsed, pos, attested, rest⟩
          cases attested
          exact rest

/-- The extension, if there must be one, is all that follows. -/
theorem ending_eq_ok {before more : List UInt8} {parsed p : ParsedAuthData} :
    ending (before ++ more) parsed before.length = .ok p ↔
      parsed = p ∧ ∃ e : Option (List UInt8), (e.isSome = true ↔ parsed.ed = true) ∧
        (∀ x ∈ e, Measured x) ∧ e.getD [] = more := by
  have read : ending (before ++ more) parsed before.length = .ok p ↔
      ∃ n, (if parsed.ed then measureAt (before ++ more) before.length "authData: extension data"
        else pure 0) = .ok n ∧ before.length + n = (before ++ more).length ∧ parsed = p := by
    have last (n : Nat) : (do
        refuseIf (before.length + n ≠ (before ++ more).length)
          "authData: trailing bytes after the declared structure"
        return parsed : Except String ParsedAuthData) = .ok p ↔
          before.length + n = (before ++ more).length ∧ parsed = p := by
      rw [bind_eq_ok]
      simp
    unfold ending
    cases parsed.ed with
    | true => exact bind_eq_ok.trans (exists_congr fun n => and_congr_right fun _ => last n)
    | false => exact bind_eq_ok.trans (exists_congr fun n => and_congr_right fun _ => last n)
  rw [read, List.length_append]
  cases parsed.ed with
  | true =>
      constructor
      · rintro ⟨n, measured, all, rfl⟩
        rw [if_pos rfl, measureAt_eq_ok, List.drop_left] at measured
        refine ⟨rfl, some more, iff_of_true rfl rfl, ?_, rfl⟩
        rintro x ⟨⟩
        rw [Measured, ← Nat.add_left_cancel all]
        exact measured
      · rintro ⟨rfl, e, some_, measured, rfl⟩
        obtain ⟨x, rfl⟩ := Option.isSome_iff_exists.mp (some_.mpr rfl)
        refine ⟨x.length, ?_, rfl, rfl⟩
        rw [if_pos rfl, measureAt_eq_ok, List.drop_left]
        exact measured x rfl
  | false =>
      constructor
      · rintro ⟨n, none_, all, rfl⟩
        cases none_
        have empty : more = [] := List.eq_nil_of_length_eq_zero (by omega)
        exact ⟨rfl, none, by simp, by simp, empty.symm⟩
      · rintro ⟨rfl, e, some_, -, rfl⟩
        cases e with
        | none => exact ⟨0, rfl, rfl, rfl⟩
        | some x => exact absurd (some_.mp rfl) Bool.false_ne_true

/-- The fixed part is read from its own bytes. -/
theorem fixedPart_eq {s : Split} (hash : s.rpIdHash.length = 32) (count : s.signCount.length = 4)
    (rest : List UInt8) :
    fixedPart (s.rpIdHash ++ s.flags :: (s.signCount ++ rest)) = s.fixed := by
  have hash_eq : substr (s.rpIdHash ++ s.flags :: (s.signCount ++ rest)) 0 32 = s.rpIdHash := by
    rw [← hash]
    exact List.take_left
  have at_ (i : Nat) : byte (s.rpIdHash ++ s.flags :: (s.signCount ++ rest)) (32 + i) =
      byte (s.flags :: (s.signCount ++ rest)) i := by
    rw [← hash, byte_append]
  have in_count {i : Nat} (i_lt : i < 4) :
      byte (s.flags :: (s.signCount ++ rest)) (i + 1) = byte s.signCount i := by
    rw [byte, byte, List.getD_cons_succ, List.getD_eq_getElem?_getD,
      List.getElem?_append_left (by omega), ← List.getD_eq_getElem?_getD]
  rw [fixedPart, Split.fixed, hash_eq, at_ 0, at_ 1, at_ 2, at_ 3, at_ 4, in_count (by decide),
    in_count (by decide), in_count (by decide), in_count (by decide)]
  rfl

/-- The fixed part, by its fields. -/
def fixedBytes (rpIdHash : List UInt8) (flags : UInt8) (signCount : List UInt8) : List UInt8 :=
  rpIdHash ++ flags :: signCount

/-- Long enough bytes begin with a fixed part. -/
theorem exists_fixedBytes {authData : List UInt8} (long : kFixedPartBytes ≤ authData.length) :
    ∃ rpIdHash flags signCount rest, rpIdHash.length = 32 ∧ signCount.length = 4 ∧
      authData = fixedBytes rpIdHash flags signCount ++ rest := by
  have inside : 37 ≤ authData.length := long
  refine ⟨substr authData 0 32, byte authData 32, substr authData 33 4, authData.drop 37,
    length_substr (by omega), length_substr (by omega), ?_⟩
  rw [fixedBytes, List.append_assoc, List.cons_append, ← drop_eq_substr_append authData 33 4,
    ← drop_eq_byte_cons (by omega), ← drop_eq_substr_append authData 0 32, List.drop_zero]

/-- The checks after the fixed part. -/
theorem parseAuthData_fixed {rpIdHash : List UInt8} {flags : UInt8} {signCount rest : List UInt8}
    {require : Bool} {p : ParsedAuthData} (hash : rpIdHash.length = 32)
    (count : signCount.length = 4) :
    parseAuthData (fixedBytes rpIdHash flags signCount ++ rest) require = .ok p ↔
      ∃ attested extension,
        let s : Split := ⟨rpIdHash, flags, signCount, attested, extension⟩
        s.Formed require ∧ s.Within ∧ s.attestedBytes ++ s.extensionBytes = rest ∧
          s.parsed = p := by
  let s : Split := ⟨rpIdHash, flags, signCount, none, none⟩
  have fixed : fixedPart (fixedBytes rpIdHash flags signCount ++ rest) = s.fixed := by
    rw [fixedBytes, List.append_assoc]
    exact fixedPart_eq (s := s) hash count rest
  have length : (fixedBytes rpIdHash flags signCount).length = kFixedPartBytes := by
    simp [fixedBytes, hash, count, kFixedPartBytes]
  have long : kFixedPartBytes ≤ (fixedBytes rpIdHash flags signCount ++ rest).length := by
    rw [List.length_append, length]
    omega
  have required : (require = true → s.fixed.at_ = true) ↔
      (require = true → flags &&& 0x40 ≠ 0) := by
    simp [s, Split.fixed]
  rw [parseAuthData_eq_ok_ending, fixed, required, ← length]
  constructor
  · rintro ⟨-, need, parsed, pos, attested, rest_ok⟩
    by_cases at_ : flags &&& 0x40 ≠ 0
    · have set_ : s.fixed.at_ = true := decide_eq_true at_
      rw [if_pos set_] at attested
      obtain ⟨a, more, rfl, formed, small, rfl, rfl⟩ := attestedPart_eq_ok.mp attested
      rw [← List.append_assoc, ← List.length_append] at rest_ok
      obtain ⟨rfl, e, some_, measured, rfl⟩ := ending_eq_ok.mp rest_ok
      refine ⟨some a, e, ⟨hash, count, iff_of_true rfl at_, ?_, ?_, measured, fun _ => rfl⟩, ?_,
        rfl, rfl⟩
      · rintro a ⟨⟩
        exact formed
      · rw [some_]
        exact decide_eq_true_iff
      · rintro a ⟨⟩
        exact small
    · have unset : s.fixed.at_ = false := decide_eq_false at_
      rw [if_neg (by rw [unset]; exact Bool.false_ne_true)] at attested
      cases attested
      obtain ⟨rfl, e, some_, measured, rfl⟩ := ending_eq_ok.mp rest_ok
      refine ⟨none, e, ⟨hash, count, iff_of_false Bool.false_ne_true at_, by simp, ?_,
        measured,
        fun yes => absurd (need yes) at_⟩, by rintro a ⟨⟩, rfl, rfl⟩
      rw [some_]
      exact decide_eq_true_iff
  · rintro ⟨attested, e, formed, within, rfl, rfl⟩
    have ext_iff : e.isSome = true ↔ s.fixed.ed = true :=
      formed.extension_iff.trans decide_eq_true_iff.symm
    refine ⟨length ▸ long, fun yes => formed.attested_iff.mp (formed.required yes), ?_⟩
    cases attested with
    | some a =>
        have set_ : s.fixed.at_ = true := decide_eq_true (formed.attested_iff.mp rfl)
        refine ⟨a.fill s.fixed, (fixedBytes rpIdHash flags signCount).length + a.bytes.length,
          ?_, ?_⟩
        · rw [if_pos set_]
          exact attestedPart_eq_ok.mpr ⟨a, e.getD [], rfl, formed.attested a rfl, within a rfl,
            rfl, rfl⟩
        · have ends := (@ending_eq_ok (fixedBytes rpIdHash flags signCount ++ a.bytes) (e.getD [])
            (a.fill s.fixed) (a.fill s.fixed)).mpr ⟨rfl, e, ext_iff, formed.extension, rfl⟩
          rw [List.append_assoc, List.length_append] at ends
          exact ends
    | none =>
        have unset : s.fixed.at_ = false := decide_eq_false fun yes =>
          Bool.false_ne_true (formed.attested_iff.mpr yes)
        refine ⟨s.fixed, (fixedBytes rpIdHash flags signCount).length, ?_, ?_⟩
        · rw [unset, length]
          rfl
        · exact ending_eq_ok.mpr ⟨rfl, e, ext_iff, formed.extension, rfl⟩

/-- **The parser accepts the bytes of a split that is formed and within the limits**, and says
what the split says. -/
theorem parseAuthData_eq_ok {authData : List UInt8} {require : Bool} {p : ParsedAuthData} :
    parseAuthData authData require = .ok p ↔
      ∃ s : Split, s.Formed require ∧ s.Within ∧ s.bytes = authData ∧ s.parsed = p := by
  constructor
  · intro answered
    have long : kFixedPartBytes ≤ authData.length := by
      unfold parseAuthData at answered
      obtain ⟨_, long, -⟩ := bind_eq_ok.mp answered
      simpa using long
    obtain ⟨rpIdHash, flags, signCount, rest, hash, count, rfl⟩ := exists_fixedBytes long
    obtain ⟨attested, extension, formed, within, rfl, same⟩ :=
      (parseAuthData_fixed hash count).mp answered
    refine ⟨_, formed, within, ?_, same⟩
    simp [Split.bytes, fixedBytes]
  · rintro ⟨⟨rpIdHash, flags, signCount, attested, extension⟩, formed, within, rfl, same⟩
    have answered := (parseAuthData_fixed formed.rpIdHash formed.signCount).mpr
      ⟨attested, extension, formed, within, rfl, same⟩
    rw [fixedBytes, List.append_assoc] at answered
    exact answered

/-! ## One split -/

/-- The credential data can be split off in one way only. -/
theorem Attested.unique {a a' : Attested} {more more' : List UInt8} (formed : a.Formed)
    (formed' : a'.Formed) (same : a.bytes ++ more = a'.bytes ++ more') :
    a = a' ∧ more = more' := by
  obtain ⟨aaguid, high, low, credentialId, coseKey⟩ := a
  obtain ⟨aaguid', high', low', credentialId', coseKey'⟩ := a'
  simp only [bytes, List.append_assoc, List.cons_append] at same
  obtain ⟨rfl, after_aaguid⟩ := List.append_inj same (formed.aaguid.trans formed'.aaguid.symm)
  injection after_aaguid with high_eq after_high
  injection after_high with low_eq after_low
  cases high_eq
  cases low_eq
  obtain ⟨rfl, after_id⟩ := List.append_inj after_low (formed.length.trans formed'.length.symm)
  obtain ⟨rfl, after⟩ := formed.coseKey.unique formed'.coseKey after_id
  exact ⟨rfl, after⟩

/-- A part is there in both splits or in none. -/
theorem cases_of_isSome_iff {α : Type} {o o' : Option α} {set_ : Prop}
    (some_ : o.isSome = true ↔ set_) (some_' : o'.isSome = true ↔ set_) :
    (o = none ∧ o' = none) ∨ ∃ a a', o = some a ∧ o' = some a' := by
  cases o with
  | none =>
      cases o' with
      | none => exact .inl ⟨rfl, rfl⟩
      | some a' => exact absurd (some_.mpr (some_'.mp rfl)) Bool.false_ne_true
  | some a =>
      obtain ⟨a', rfl⟩ := Option.isSome_iff_exists.mp (some_'.mpr (some_.mp rfl))
      exact .inr ⟨a, a', rfl, rfl⟩

/-- Authenticator data can be split in one way only. -/
theorem Split.unique {s s' : Split} {require : Bool} (formed : s.Formed require)
    (formed' : s'.Formed require) (same : s.bytes = s'.bytes) : s = s' := by
  obtain ⟨rpIdHash, flags, signCount, attested, extension⟩ := s
  obtain ⟨rpIdHash', flags', signCount', attested', extension'⟩ := s'
  simp only [bytes] at same
  obtain ⟨rfl, after_hash⟩ :=
    List.append_inj same (formed.rpIdHash.trans formed'.rpIdHash.symm)
  injection after_hash with flags_eq after_flags
  cases flags_eq
  obtain ⟨rfl, after_count⟩ :=
    List.append_inj after_flags (formed.signCount.trans formed'.signCount.symm)
  have attested_eq : attested = attested' ∧ extension.getD [] = extension'.getD [] := by
    rcases cases_of_isSome_iff formed.attested_iff formed'.attested_iff with
      ⟨rfl, rfl⟩ | ⟨a, a', rfl, rfl⟩
    · exact ⟨rfl, after_count⟩
    · obtain ⟨rfl, after⟩ :=
        Attested.unique (formed.attested a rfl) (formed'.attested a' rfl) after_count
      exact ⟨rfl, after⟩
  obtain ⟨rfl, extension_eq⟩ := attested_eq
  rcases cases_of_isSome_iff formed.extension_iff formed'.extension_iff with
    ⟨rfl, rfl⟩ | ⟨e, e', rfl, rfl⟩
  · rfl
  · cases extension_eq
    rfl

/-! ## Nothing is read past the end -/

namespace Checked

/-- `data[i]`. -/
def byte (data : List UInt8) (i : Nat) : Except Stop UInt8 :=
  orRefuse data[i]? .outOfBounds

/-- `data.substr(pos, n)`, all of whose bytes must be there. -/
def substr (data : List UInt8) (pos n : Nat) : Except Stop (List UInt8) :=
  if pos + n ≤ data.length then .ok (Webauthn.substr data pos n) else .error .outOfBounds

/-- The reason that is reported, or the read that went wrong. -/
def prefixed (what : String) : Stop → Stop
  | .fail why => .fail (what ++ ": " ++ why)
  | stop => stop

/-- `CborReader::measure` of the bytes from `data.data() + offset` on. -/
def measureAt (authData : List UInt8) (offset : Nat) (what : String) : Except Stop Nat :=
  if offset ≤ authData.length then do
    refuseIf (limits.kMaxInputBytes < (authData.drop offset).length)
      (.fail (what ++ ": " ++ "input exceeds 131072 bytes"))
    orAnswer (validateStructure checked (authData.drop offset)) (prefixed what)
  else .error .outOfBounds

/-- The reader of the fixed part. -/
def fixedPart (authData : List UInt8) : Except Stop ParsedAuthData := do
  let rpIdHash ← substr authData 0 32
  let flags ← byte authData 32
  let first ← byte authData 33
  let second ← byte authData 34
  let third ← byte authData 35
  let fourth ← byte authData 36
  return {
    rpIdHash := rpIdHash
    up := flags &&& 0x01 ≠ 0
    uv := flags &&& 0x04 ≠ 0
    at_ := flags &&& 0x40 ≠ 0
    ed := flags &&& 0x80 ≠ 0
    signCount :=
      first.toUInt32 <<< 24 ||| second.toUInt32 <<< 16 ||| third.toUInt32 <<< 8 |||
        fourth.toUInt32 }

/-- The reader of the credential data. -/
def attestedPart (authData : List UInt8) (parsed : ParsedAuthData) (pos : Nat) :
    Except Stop (ParsedAuthData × Nat) := do
  refuseIf (authData.length < pos + kAaguidBytes) (.fail "authData: aaguid truncated")
  let aaguid ← substr authData pos kAaguidBytes
  let pos := pos + kAaguidBytes
  refuseIf (authData.length < pos + 2) (.fail "authData: credentialIdLength truncated")
  let high ← byte authData pos
  let low ← byte authData (pos + 1)
  let credentialIdLength := high.toNat <<< 8 ||| low.toNat
  let pos := pos + 2
  refuseIf (kMaxCredentialIdBytes < credentialIdLength)
    (.fail "authData: credentialIdLength exceeds 1023 bytes")
  refuseIf (authData.length < pos + credentialIdLength) (.fail "authData: credentialId truncated")
  let credentialId ← substr authData pos credentialIdLength
  let pos := pos + credentialIdLength
  let coseKeyLength ← measureAt authData pos "authData: COSE key"
  let coseKey ← substr authData pos coseKeyLength
  return ({ parsed with
      aaguid := aaguid
      credentialId := credentialId
      coseKey := coseKey },
    pos + coseKeyLength)

/-- The reader of the extensions and of the end. -/
def ending (authData : List UInt8) (parsed : ParsedAuthData) (pos : Nat) :
    Except Stop ParsedAuthData := do
  let extensionLength ←
    if parsed.ed then measureAt authData pos "authData: extension data" else pure 0
  let pos := pos + extensionLength
  refuseIf (pos ≠ authData.length) (.fail "authData: trailing bytes after the declared structure")
  return parsed

/-- `parseAuthData`, with every access checked. -/
def parseAuthData (authData : List UInt8) (requireAttestedCredentialData : Bool) :
    Except Stop ParsedAuthData := do
  refuseIf (authData.length < kFixedPartBytes)
    (.fail "authData shorter than the 37-byte fixed part")
  let fixed ← fixedPart authData
  refuseIf (!fixed.at_ && requireAttestedCredentialData)
    (.fail "authData: AT flag not set but attested credential data is required")
  let (parsed, pos) ←
    if fixed.at_ then attestedPart authData fixed kFixedPartBytes
    else pure (fixed, kFixedPartBytes)
  ending authData parsed pos

variable {authData : List UInt8}

/-- An offset inside the data is read. -/
theorem byte_eq {i : Nat} (inside : i < authData.length) :
    byte authData i = .ok (Webauthn.byte authData i) := by
  rw [byte, Webauthn.byte, List.getD_eq_getElem?_getD, List.getElem?_eq_getElem inside]
  rfl

/-- A part inside the data is read. -/
theorem substr_eq {pos n : Nat} (inside : pos + n ≤ authData.length) :
    substr authData pos n = .ok (Webauthn.substr authData pos n) :=
  if_pos inside

theorem mapError_refuseIf {bad : Bool} {why : String} :
    (refuseIf bad why).mapError Stop.fail = refuseIf bad (.fail why) := by
  cases bad <;> rfl

theorem mapError_bind {α β : Type} (x : Except String α) (f : α → Except String β) :
    (x >>= f).mapError Stop.fail = x.mapError Stop.fail >>= fun a => (f a).mapError Stop.fail := by
  cases x <;> rfl

/-- A step that is the same up to the reads, and then the rest. -/
theorem bind_eq {α β : Type} {x : Except String α} {x' : Except Stop α} {f : α → Except String β}
    {f' : α → Except Stop β} (same : x' = x.mapError Stop.fail)
    (rest : ∀ a, x = .ok a → f' a = (f a).mapError Stop.fail) :
    (x' >>= f') = (x >>= f).mapError Stop.fail := by
  rw [same, mapError_bind]
  cases x with
  | error e => rfl
  | ok a => exact rest a rfl

/-- The measurement inside the data is the unchecked one. -/
theorem measureAt_eq {offset : Nat} {what : String} (inside : offset ≤ authData.length) :
    measureAt authData offset what = (Webauthn.measureAt authData offset what).mapError .fail := by
  rw [measureAt, if_pos inside]
  unfold Webauthn.measureAt CborReader.measure
  by_cases large : limits.kMaxInputBytes < (authData.drop offset).length
  · rw [decide_eq_true large]
    rfl
  · have short : (authData.drop offset).length < 2 ^ 64 :=
      Nat.lt_of_le_of_lt (Nat.not_lt.mp large) (by decide)
    obtain ⟨-, -, same, reported⟩ := validateStructure_exact (authData.drop offset) 0 short
    rw [List.drop_zero] at same reported
    rw [decide_eq_false large, same]
    cases found : validateStructure machine (authData.drop offset) with
    | ok n => rfl
    | error stop =>
        obtain ⟨why, rfl, -⟩ := reported stop found
        rfl

/-- A measured item ends inside the data. -/
theorem add_le_of_measureAt {offset n : Nat} {what : String} (inside : offset ≤ authData.length)
    (measured : Webauthn.measureAt authData offset what = .ok n) :
    offset + n ≤ authData.length := by
  obtain ⟨item, more, cut, rfl, -⟩ := exists_of_measure (measureAt_eq_ok.mp measured)
  have lengths := congrArg List.length cut
  rw [List.length_drop, List.length_append] at lengths
  omega

/-- The checked reader of the fixed part agrees with the plain one. -/
theorem fixedPart_eq (long : kFixedPartBytes ≤ authData.length) :
    fixedPart authData = .ok (Webauthn.fixedPart authData) := by
  have inside : 37 ≤ authData.length := long
  rw [fixedPart, substr_eq (by omega), byte_eq (by omega), byte_eq (by omega), byte_eq (by omega),
    byte_eq (by omega), byte_eq (by omega)]
  rfl

/-- So does that of the credential data. -/
theorem attestedPart_eq {parsed : ParsedAuthData} {pos : Nat} :
    attestedPart authData parsed pos =
      (Webauthn.attestedPart authData parsed pos).mapError .fail := by
  unfold attestedPart Webauthn.attestedPart
  refine bind_eq mapError_refuseIf.symm fun _ aaguid_in => ?_
  simp only [refuseIf_eq_ok, decide_eq_false_iff_not, Nat.not_lt] at aaguid_in
  rw [substr_eq aaguid_in]
  refine bind_eq mapError_refuseIf.symm fun _ length_in => ?_
  simp only [refuseIf_eq_ok, decide_eq_false_iff_not, Nat.not_lt] at length_in
  rw [byte_eq (by omega), byte_eq (by omega)]
  refine bind_eq mapError_refuseIf.symm fun _ _ => ?_
  refine bind_eq mapError_refuseIf.symm fun _ id_in => ?_
  simp only [refuseIf_eq_ok, decide_eq_false_iff_not, Nat.not_lt] at id_in
  rw [substr_eq id_in]
  refine bind_eq (measureAt_eq id_in) fun n measured => ?_
  rw [substr_eq (add_le_of_measureAt id_in measured)]
  rfl

/-- The credential data end inside the data. -/
theorem le_of_attestedPart {parsed : ParsedAuthData} {pos : Nat} {cut : ParsedAuthData × Nat}
    (inside : pos ≤ authData.length)
    (attested : Webauthn.attestedPart authData parsed pos = .ok cut) : cut.2 ≤ authData.length := by
  obtain ⟨before, rest, rfl, rfl⟩ :
      ∃ before rest, authData = before ++ rest ∧ pos = before.length :=
    ⟨authData.take pos, authData.drop pos, (List.take_append_drop pos authData).symm,
      (List.length_take_of_le inside).symm⟩
  obtain ⟨p, pos'⟩ := cut
  obtain ⟨a, more, rfl, -, -, -, rfl⟩ := attestedPart_eq_ok.mp attested
  simp only [List.length_append]
  omega

/-- So does that of the end. -/
theorem ending_eq {parsed : ParsedAuthData} {pos : Nat} (inside : pos ≤ authData.length) :
    ending authData parsed pos = (Webauthn.ending authData parsed pos).mapError .fail := by
  have last (n : Nat) : (do
      refuseIf (pos + n ≠ authData.length)
        (.fail "authData: trailing bytes after the declared structure")
      return parsed : Except Stop ParsedAuthData) = (do
        refuseIf (pos + n ≠ authData.length) "authData: trailing bytes after the declared structure"
        return parsed : Except String ParsedAuthData).mapError .fail :=
    bind_eq mapError_refuseIf.symm fun _ _ => rfl
  unfold ending Webauthn.ending
  cases parsed.ed with
  | true => exact bind_eq (measureAt_eq inside) fun n _ => last n
  | false => exact last 0

/-- No read is past the end. -/
theorem parseAuthData_eq (authData : List UInt8) (requireAttestedCredentialData : Bool) :
    parseAuthData authData requireAttestedCredentialData =
      (Webauthn.parseAuthData authData requireAttestedCredentialData).mapError .fail := by
  unfold parseAuthData Webauthn.parseAuthData
  refine bind_eq mapError_refuseIf.symm fun _ long => ?_
  simp only [refuseIf_eq_ok, decide_eq_false_iff_not, Nat.not_lt] at long
  rw [fixedPart_eq long]
  refine bind_eq mapError_refuseIf.symm fun _ _ => ?_
  cases (Webauthn.fixedPart authData).at_ with
  | true =>
      refine bind_eq attestedPart_eq fun cut attested => ?_
      exact ending_eq (le_of_attestedPart long attested)
  | false => exact ending_eq long

end Checked

/-! ## What is returned -/

/-- The flags as a byte, with the bits that are ignored. -/
def flagsByte (up uv at_ ed : Bool) (reserved : UInt8) : UInt8 :=
  reserved ||| (if up then 0x01 else 0) ||| (if uv then 0x04 else 0) |||
    (if at_ then 0x40 else 0) ||| (if ed then 0x80 else 0)

/-- Four bytes, the highest first. -/
def bigEndian32 (n : UInt32) : List UInt8 :=
  [(n >>> 24).toUInt8, (n >>> 16).toUInt8, (n >>> 8).toUInt8, n.toUInt8]

/-- Two bytes, the higher first. -/
def bigEndian16 (n : Nat) : List UInt8 :=
  [UInt8.ofNat (n / 256), UInt8.ofNat (n % 256)]

/-- The returned parts one after the other, as they are transmitted. -/
def ParsedAuthData.bytes (p : ParsedAuthData) (reserved : UInt8) : List UInt8 :=
  p.rpIdHash ++ flagsByte p.up p.uv p.at_ p.ed reserved :: (bigEndian32 p.signCount ++
    if p.at_ then
      p.aaguid ++ (bigEndian16 p.credentialId.length ++ (p.credentialId ++ p.coseKey))
    else [])

/-- The flags are put together again. -/
theorem flagsByte_eq (flags : UInt8) :
    flagsByte (flags &&& 0x01 ≠ 0) (flags &&& 0x04 ≠ 0) (flags &&& 0x40 ≠ 0) (flags &&& 0x80 ≠ 0)
      (flags &&& 0x3A) = flags := by
  have all : ∀ k : Fin 256, flagsByte (UInt8.ofNat k &&& 0x01 ≠ 0) (UInt8.ofNat k &&& 0x04 ≠ 0)
      (UInt8.ofNat k &&& 0x40 ≠ 0) (UInt8.ofNat k &&& 0x80 ≠ 0) (UInt8.ofNat k &&& 0x3A) =
        UInt8.ofNat k := by
    decide +kernel
  have here := all ⟨flags.toNat, flags.toNat_lt⟩
  rwa [UInt8.ofNat_toNat] at here

theorem bigEndian16_eq {n : Nat} {high low : UInt8} (same : n = 256 * high.toNat + low.toNat) :
    bigEndian16 n = [high, low] := by
  have low_lt := low.toNat_lt
  have quotient : n / 256 = high.toNat := by omega
  have remainder : n % 256 = low.toNat := by omega
  rw [bigEndian16, quotient, remainder, UInt8.ofNat_toNat, UInt8.ofNat_toNat]

theorem bigEndian32_eq (a b c d : UInt8) :
    bigEndian32 (a.toUInt32 <<< 24 ||| b.toUInt32 <<< 16 ||| c.toUInt32 <<< 8 ||| d.toUInt32) =
      [a, b, c, d] := by
  have b_lt := b.toNat_lt
  have c_lt := c.toNat_lt
  have d_lt := d.toNat_lt
  let n := a.toUInt32 <<< 24 ||| b.toUInt32 <<< 16 ||| c.toUInt32 <<< 8 ||| d.toUInt32
  have n_eq : n.toNat =
      a.toNat * 2 ^ 24 + b.toNat * 2 ^ 16 + c.toNat * 2 ^ 8 + d.toNat := by
    have nested : n.toNat =
        ((a.toNat <<< 8 ||| b.toNat) <<< 8 ||| c.toNat) <<< 8 ||| d.toNat := by
      rw [Nat.shiftLeft_or_distrib, Nat.shiftLeft_or_distrib, Nat.shiftLeft_or_distrib,
        ← Nat.shiftLeft_add, ← Nat.shiftLeft_add, ← Nat.shiftLeft_add, UInt32.toNat_or,
        UInt32.toNat_or, UInt32.toNat_or, toNat_shiftLeft a (by decide),
        toNat_shiftLeft b (by decide), toNat_shiftLeft c (by decide), UInt8.toNat_toUInt32]
      rfl
    rw [nested, ← Nat.shiftLeft_add_eq_or_of_lt d_lt, ← Nat.shiftLeft_add_eq_or_of_lt c_lt,
      ← Nat.shiftLeft_add_eq_or_of_lt b_lt, Nat.shiftLeft_eq, Nat.shiftLeft_eq, Nat.shiftLeft_eq]
    omega
  have at_ {i : UInt32} {k : Nat} {x : UInt8} (amount : i.toNat % 32 = k)
      (same : n.toNat / 2 ^ k % 256 = x.toNat) : (n >>> i).toUInt8 = x := by
    rw [← UInt8.toNat_inj, UInt32.toNat_toUInt8, UInt32.toNat_shiftRight, amount,
      Nat.shiftRight_eq_div_pow]
    exact same
  have a_lt := a.toNat_lt
  have first : (n >>> 24).toUInt8 = a := at_ (k := 24) rfl (by omega)
  have second : (n >>> 16).toUInt8 = b := at_ (k := 16) rfl (by omega)
  have third : (n >>> 8).toUInt8 = c := at_ (k := 8) rfl (by omega)
  have fourth : (n >>> 0).toUInt8 = d := at_ (k := 0) rfl (by omega)
  rw [UInt32.shiftRight_zero] at fourth
  change [(n >>> 24).toUInt8, (n >>> 16).toUInt8, (n >>> 8).toUInt8, n.toUInt8] = _
  rw [first, second, third, fourth]

theorem ParsedAuthData.bytes_eq {p : ParsedAuthData} {reserved flags : UInt8}
    {signCount attested : List UInt8}
    (flags_eq : flagsByte p.up p.uv p.at_ p.ed reserved = flags)
    (count_eq : bigEndian32 p.signCount = signCount)
    (attested_eq : (if p.at_ then
        p.aaguid ++ (bigEndian16 p.credentialId.length ++ (p.credentialId ++ p.coseKey))
      else []) = attested) :
    p.bytes reserved = p.rpIdHash ++ flags :: (signCount ++ attested) := by
  rw [bytes, flags_eq, count_eq, attested_eq]

theorem Split.bigEndian32_fixed {s : Split} (count : s.signCount.length = 4) :
    bigEndian32 s.fixed.signCount = s.signCount := by
  obtain ⟨a, b, c, d, count_eq⟩ := List.length_eq_four.mp count
  rw [Split.fixed, count_eq]
  simp only [byte, List.getD_cons_zero, List.getD_cons_succ]
  exact bigEndian32_eq a b c d

/-- The parsed data have the bytes of the split. -/
theorem Split.parsed_bytes {s : Split} {require : Bool} (formed : s.Formed require) :
    s.parsed.bytes (s.flags &&& 0x3A) ++ s.extensionBytes = s.bytes := by
  have count_eq := bigEndian32_fixed formed.signCount
  have flags_eq : flagsByte s.fixed.up s.fixed.uv s.fixed.at_ s.fixed.ed (s.flags &&& 0x3A) =
      s.flags := flagsByte_eq s.flags
  cases attested_eq : s.attested with
  | some att =>
      have set_ : s.fixed.at_ = true :=
        decide_eq_true (formed.attested_iff.mp (by rw [attested_eq]; rfl))
      have parsed_eq : s.parsed = att.fill s.fixed := by rw [Split.parsed, attested_eq]; rfl
      rw [parsed_eq,
        ParsedAuthData.bytes_eq (p := att.fill s.fixed) flags_eq count_eq (if_pos set_)]
      simp only [Attested.fill, bigEndian16_eq (formed.attested att attested_eq).length]
      simp [Split.bytes, Split.attestedBytes, Split.fixed, Attested.bytes, attested_eq]
  | none =>
      have unset : ¬ s.fixed.at_ = true := fun yes => by
        have some_ := formed.attested_iff.mpr (of_decide_eq_true yes)
        rw [attested_eq] at some_
        cases some_
      have parsed_eq : s.parsed = s.fixed := by rw [Split.parsed, attested_eq]; rfl
      rw [parsed_eq, ParsedAuthData.bytes_eq (p := s.fixed) flags_eq count_eq (if_neg unset)]
      simp [Split.bytes, Split.attestedBytes, Split.fixed, attested_eq]

/-- The parse succeeds exactly for the bytes of a split in which the CBOR items are within the
limit together, and returns its parts; no other split has these bytes; the returned parts, the
four reserved flags and the extension make up the input; and no read is past its end. -/
theorem parseAuthData_exact (authData : List UInt8) (requireAttestedCredentialData : Bool) :
    (∀ p, parseAuthData authData requireAttestedCredentialData = .ok p ↔
      ∃ s : Split, s.Formed requireAttestedCredentialData ∧ s.Within ∧ s.bytes = authData ∧
        s.parsed = p) ∧
      (∀ s s' : Split, s.Formed requireAttestedCredentialData →
        s'.Formed requireAttestedCredentialData → s.bytes = authData → s'.bytes = authData →
          s = s') ∧
      (∀ s : Split, s.Formed requireAttestedCredentialData → s.bytes = authData →
        s.parsed.bytes (s.flags &&& 0x3A) ++ s.extensionBytes = authData) ∧
      Checked.parseAuthData authData requireAttestedCredentialData =
        (parseAuthData authData requireAttestedCredentialData).mapError .fail :=
  ⟨fun _ => parseAuthData_eq_ok,
    fun _ _ formed formed' same same' => Split.unique formed formed' (same.trans same'.symm),
    fun _ formed same => (Split.parsed_bytes formed).trans same,
    Checked.parseAuthData_eq authData requireAttestedCredentialData⟩

/-! ## Two limits of the layout -/

theorem stringMajor_lt : 2 < 8 := by decide

theorem arrayMajor_lt : 4 < 8 := by decide

theorem twoBytes_lt : 25 < 28 := by decide

theorem twoItems_lt : 2 < 28 := by decide

theorem twoBytes_length : [(0x9c : UInt8), 0x40].length = Cbor.width 25 :=
  rfl

theorem noBytes_length : ([] : List UInt8).length = Cbor.width 2 :=
  rfl

/-- An array of one byte string twice, of 40000 bytes. -/
def twice (string : List UInt8) : Cbor.Items :=
  let head : Cbor.Head := ⟨2, 25, [0x9c, 0x40], stringMajor_lt, twoBytes_lt, twoBytes_length⟩
  .item ⟨4, 2, [], arrayMajor_lt, twoItems_lt, noBytes_length⟩ []
    (.item head string .nil (.item head string .nil .nil)) .nil

theorem length_twice {string : List UInt8} (length : string.length = 40000) :
    (twice string).encode.length = 80007 := by
  simp only [twice, Cbor.Items.encode, Cbor.Head.encode, List.length_append, length,
    List.length_cons, List.length_nil]

/-- An array of two strings of that length is an item. -/
theorem measured_twice {string : List UInt8} (length : string.length = 40000) :
    Measured (twice string).encode := by
  rw [measured_iff, length_twice length]
  have small : 80007 ≤ limits.kMaxInputBytes := by decide
  refine ⟨small, twice string, rfl, ?_, Nat.le_of_ble_eq_true rfl, ?_, ?_,
    length_twice length, List.prefix_rfl⟩
  · exact ⟨rfl, rfl, ⟨length, rfl, trivial, length, rfl, trivial, trivial⟩, trivial⟩
  · have within : string.length ≤ 65536 := by
      rw [length]
      decide
    exact ⟨fun _ => Nat.zero_le _, ⟨fun _ => within, trivial, fun _ => within, trivial, trivial⟩,
      trivial⟩
  · have inner : 1 ≤ 7 := by decide
    exact ⟨fun _ => Nat.zero_le 7, ⟨fun _ => inner, trivial, fun _ => inner, trivial, trivial⟩,
      trivial⟩

/-- The array as key and as extension. -/
def twoArrays (string : List UInt8) : Split :=
  { rpIdHash := List.replicate 32 0
    flags := 0xc0
    signCount := List.replicate 4 0
    attested := some ⟨List.replicate 16 0, 0, 0, [], (twice string).encode⟩
    extension := some (twice string).encode }

theorem formed_twoArrays {string : List UInt8} (length : string.length = 40000) :
    (twoArrays string).Formed true := by
  have at_ : (0xc0 : UInt8) &&& 0x40 ≠ 0 := by decide
  have ed : (0xc0 : UInt8) &&& 0x80 ≠ 0 := by decide
  refine ⟨rfl, rfl, iff_of_true rfl at_, ?_, iff_of_true rfl ed, ?_, fun _ => rfl⟩
  · rintro a ⟨⟩
    exact ⟨rfl, rfl, Nat.zero_le _, measured_twice length⟩
  · rintro e ⟨⟩
    exact measured_twice length

/-- Two such arrays, one after the other, are refused: the input limit is for both. -/
theorem refused_twoArrays {string : List UInt8} (length : string.length = 40000)
    (p : ParsedAuthData) : parseAuthData (twoArrays string).bytes true ≠ .ok p := by
  intro answered
  obtain ⟨s, formed, within, same, -⟩ := parseAuthData_eq_ok.mp answered
  cases Split.unique formed (formed_twoArrays length) same
  have small : ((twice string).encode ++ (twice string).encode).length ≤ limits.kMaxInputBytes :=
    within _ rfl
  rw [List.length_append, length_twice length] at small
  exact absurd small (by decide)

/-- The key is refused for what follows it, and a reserved flag is not returned. -/
theorem layout_is_not_enough :
    ((twoArrays (List.replicate 40000 0)).Formed true ∧
        ∀ p, parseAuthData (twoArrays (List.replicate 40000 0)).bytes true ≠ .ok p) ∧
      ∃ p, parseAuthData (List.replicate 32 0 ++ 0x02 :: List.replicate 4 0) false = .ok p ∧
        parseAuthData (List.replicate 32 0 ++ 0x00 :: List.replicate 4 0) false = .ok p :=
  ⟨⟨formed_twoArrays List.length_replicate, refused_twoArrays List.length_replicate⟩,
    ⟨_, rfl, by decide⟩⟩

end Webauthn

end Fulla
