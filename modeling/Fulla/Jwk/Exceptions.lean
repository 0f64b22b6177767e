import Fulla.Jwk.Verification

/-!
# Exceptions of a verification

jsoncpp throws in three places of a verification: the parser on a text that nests too deep,
`isMember` on a value that is neither an object nor null, and `asInt64` on a number that does
not fit.  Nothing catches these exceptions.  A header is read before the signature is checked,
so for a header anyone can bring the exception about.
-/

namespace Fulla.Jwk

open Conc

/-! ## What throws -/

/-- The number does not convert to `int64_t`. -/
def OutOfRange : JsonValue → Prop
  | .uint n => 2 ^ 63 ≤ n.toNat
  | .real q => ¬ (-2 ^ 63 ≤ q ∧ q ≤ 2 ^ 63)
  | _ => False

/-- The parser gives up on the bytes of the segment. -/
def ParseThrows (json : JsonCpp) (segment : String) : Prop :=
  ∃ bytes what, base64UrlDecode segment = some bytes ∧ json.parse bytes = .error what

/-- The checks of the claims throw: the payload has no members to ask for, or, for the right
issuer, `exp` does not convert or, if it does and is above `now`, `nbf` does not. -/
def ClaimsThrow (json : JsonCpp) (payload : JsonValue) (issuer : String) (now : Int64) : Prop :=
  payload.isKeyed = false ∨
    payload.text? "iss" = some issuer ∧
      ((∃ n, payload.member? "exp" = some n ∧ OutOfRange n) ∨
        (∃ n z, payload.member? "exp" = some n ∧ n.isNumeric = true ∧ n.asInt64 json = .ok z ∧
          now.toInt < z) ∧
        ∃ n, payload.member? "nbf" = some n ∧ OutOfRange n)

/-- The header throws, or it leads to a valid signature and the payload throws. -/
def Throws {Pkey : Type} (json : JsonCpp) (rs256 : Rs256 Pkey) (m : JwkManager Pkey)
    (jwt issuer : String) (now : Int64) : Prop :=
  (m.initialized = true ∧ m.keys ≠ []) ∧
    ∃ headerB64 payloadB64 signatureB64,
      JwkManager.segments jwt = some (headerB64, payloadB64, signatureB64) ∧
        (ParseThrows json headerB64 ∨
          ∃ header, Reads json headerB64 header ∧
            (header.isKeyed = false ∨
              ∃ entry signature, header.text? "alg" = some "RS256" ∧ Routes m header entry ∧
                base64UrlDecode signatureB64 = some signature ∧
                m.signatureOk rs256 entry (headerB64 ++ "." ++ payloadB64) signature = true ∧
                (ParseThrows json payloadB64 ∨
                  ∃ payload, Reads json payloadB64 payload ∧
                    ClaimsThrow json payload issuer now)))

/-! ## Accessors -/

/-- The verification ended with an exception. -/
def Exit.IsThrow (exit : Exit) : Prop :=
  ∃ what, exit = .threw what

@[simp]
theorem Exit.isThrow_threw {what : String} : Exit.IsThrow (.threw what) :=
  ⟨what, rfl⟩

@[simp]
theorem Exit.not_isThrow_rejected {result : JwtVerificationResult} :
    ¬ Exit.IsThrow (.rejected result) := by
  intro threw
  obtain ⟨what, eq⟩ := threw
  cases eq

namespace JsonValue

variable {json : JsonCpp} {v : JsonValue} {k : String}

theorem fails_isMember : Fails (fun _ => True) (v.isMember k) ↔ v.isKeyed = false := by
  unfold isMember
  cases v.isKeyed <;> simp

theorem fails_textAt : Fails (fun _ => True) (v.textAt k) ↔ v.isKeyed = false := by
  simp [-bind_pure_comp, textAt, fails_bind, fails_isMember]

/-- A number that does not convert is out of range. -/
theorem fails_asInt64 {n : JsonValue} :
    n.isNumeric = true ∧ Fails (fun _ => True) (n.asInt64 json) ↔ OutOfRange n := by
  cases n with
  | uint n =>
      rw [asInt64, OutOfRange, ← Nat.not_lt]
      split <;> simp_all [isNumeric]
  | real q =>
      rw [asInt64, OutOfRange]
      split <;> simp_all [isNumeric]
  | int n => simp [asInt64, OutOfRange]
  | null => simp [isNumeric, OutOfRange]
  | bool b => simp [isNumeric, OutOfRange]
  | str s => simp [isNumeric, OutOfRange]
  | arr elements => simp [isNumeric, OutOfRange]
  | obj members => simp [isNumeric, OutOfRange]

theorem fails_int64At :
    Fails (fun _ => True) (v.int64At json k) ↔
      v.isKeyed = false ∨ ∃ n, v.member? k = some n ∧ OutOfRange n := by
  simp only [int64At, fails_bind, fails_isMember, isMember_eq_ok]
  refine or_congr_right ?_
  constructor
  · intro fails
    obtain ⟨-, -, fails⟩ := fails
    split at fails
    · next n found =>
        obtain ⟨member, numeric⟩ := Option.filter_eq_some_iff.mp found
        rcases fails_bind.mp fails with failed | ⟨z, -, failed⟩
        · exact ⟨n, member, fails_asInt64.mp ⟨numeric, failed⟩⟩
        · exact absurd failed not_fails_pure
    · exact absurd fails not_fails_pure
  · intro found
    obtain ⟨n, member, range⟩ := found
    obtain ⟨numeric, failed⟩ := (@fails_asInt64 json n).mpr range
    have kept : (v.member? k).filter isNumeric = some n :=
      Option.filter_eq_some_iff.mpr ⟨member, numeric⟩
    refine ⟨_, ⟨isKeyed_of_member? member, rfl⟩, ?_⟩
    rw [kept]
    exact fails_bind.mpr (.inl failed)

end JsonValue

/-! ## The checks -/

section Checks

variable {Pkey : Type} {json : JsonCpp} {rs256 : Rs256 Pkey} {m : JwkManager Pkey}

theorem fails_readJson {segment : String} :
    Fails Exit.IsThrow (JwkManager.readJson json segment) ↔ ParseThrows json segment := by
  simp only [JwkManager.readJson, fails_bind, fails_orRefuse, fails_orAnswer, orRefuse_eq_ok,
    orAnswer_eq_ok, Exit.not_isThrow_rejected, Exit.isThrow_threw, and_false, false_or,
    exists_false, or_false]
  simp only [ParseThrows, Fails, and_true, exists_and_left]

theorem fails_checkHeader {header : JsonValue} :
    Fails Exit.IsThrow (m.checkHeader header) ↔ header.isKeyed = false := by
  simp only [JwkManager.checkHeader, fails_bind, fails_orAnswer, fails_refuseIf,
    Exit.isThrow_threw, Exit.not_isThrow_rejected, JsonValue.fails_textAt, orAnswer_eq_ok,
    JsonValue.textAt_eq_ok, and_false, false_or]
  constructor
  · intro fails
    rcases fails with unkeyed | ⟨_, ⟨keyed, -⟩, -, -, unkeyed | ⟨kid, -, failed⟩⟩
    · exact unkeyed
    · exact unkeyed
    · split at failed
      · exact absurd failed not_fails_pure
      · rcases fails_bind.mp failed with refused | ⟨e, -, failed⟩
        · exact absurd (fails_orRefuse.mp refused).2 Exit.not_isThrow_rejected
        · exact absurd failed not_fails_pure
  · exact Or.inl

theorem fails_checkNbf {payload : JsonValue} {now : Int64} :
    Fails Exit.IsThrow (JwkManager.checkNbf json payload now) ↔
      payload.isKeyed = false ∨ ∃ n, payload.member? "nbf" = some n ∧ OutOfRange n := by
  simp only [JwkManager.checkNbf, fails_bind, fails_orAnswer, Exit.isThrow_threw,
    JsonValue.fails_isMember, orAnswer_eq_ok, JsonValue.isMember_eq_ok]
  refine or_congr_right ?_
  constructor
  · intro fails
    obtain ⟨_, ⟨keyed, rfl⟩, failed⟩ := fails
    split at failed
    · simp only [fails_bind, fails_orAnswer, fails_orRefuse, fails_refuseIf, Exit.isThrow_threw,
        Exit.not_isThrow_rejected, JsonValue.fails_int64At, and_false, exists_false, or_false,
        keyed, Bool.true_eq_false, false_or] at failed
      exact failed
    · exact absurd failed not_fails_pure
  · intro found
    obtain ⟨n, member, range⟩ := found
    refine ⟨_, ⟨JsonValue.isKeyed_of_member? member, rfl⟩, ?_⟩
    rw [member, Option.isSome_some, if_pos rfl]
    refine fails_bind.mpr (.inl ?_)
    simp only [fails_orAnswer, Exit.isThrow_threw]
    exact JsonValue.fails_int64At.mpr (.inr ⟨n, member, range⟩)

theorem fails_checkClaims {payload : JsonValue} {issuer audience : String} {now : Int64} :
    Fails Exit.IsThrow (JwkManager.checkClaims json payload issuer now audience) ↔
      ClaimsThrow json payload issuer now := by
  simp only [JwkManager.checkClaims, fails_bind, fails_orAnswer, fails_refuseIf,
    Exit.isThrow_threw, Exit.not_isThrow_rejected, JsonValue.fails_textAt,
    JsonValue.fails_int64At, fails_checkNbf, orAnswer_eq_ok, JsonValue.textAt_eq_ok,
    refuseIf_eq_ok, bne_eq_false_iff_eq, Bool.not_eq_false', Option.any_eq_true,
    decide_eq_true_eq, and_false, exists_false, false_or, or_false]
  refine or_congr_right ?_
  constructor
  · intro fails
    obtain ⟨_, ⟨keyed, rfl⟩, -, iss, fails⟩ := fails
    refine ⟨iss, ?_⟩
    rcases fails with (unkeyed | exp) | ⟨_, read, -, ⟨z, rfl, late⟩, fails⟩
    · rw [keyed] at unkeyed
      cases unkeyed
    · exact .inl exp
    · refine .inr ⟨?_, ?_⟩
      · obtain ⟨n, found, numeric, converted⟩ := JsonValue.int64At_eq_some.mp read
        exact ⟨n, z, found, numeric, converted, late⟩
      · rcases fails with (unkeyed | nbf) | ⟨-, -, unkeyed⟩
        · rw [keyed] at unkeyed
          cases unkeyed
        · exact nbf
        · rw [keyed] at unkeyed
          cases unkeyed
  · intro throws
    obtain ⟨iss, throws⟩ := throws
    have keyed := JsonValue.isKeyed_of_member? (JsonValue.member?_of_text? iss)
    refine ⟨_, ⟨keyed, rfl⟩, (), iss, ?_⟩
    rcases throws with exp | ⟨⟨n, z, found, numeric, converted, late⟩, nbf⟩
    · exact .inl (.inr exp)
    · have read := JsonValue.int64At_eq_some.mpr ⟨n, found, numeric, converted⟩
      exact .inr ⟨some z, read, (), ⟨z, rfl, late⟩, .inl (.inr nbf)⟩

theorem fails_verifyCore {jwt issuer audience : String} {now : Int64} :
    Fails Exit.IsThrow (m.verifyCore json rs256 jwt issuer now audience) ↔
      Throws json rs256 m jwt issuer now := by
  simp only [JwkManager.verifyCore, fails_bind, fails_refuseIf, fails_orRefuse, not_fails_pure,
    fails_readJson, fails_checkHeader, fails_checkClaims, Exit.not_isThrow_rejected,
    refuseIf_eq_ok, orRefuse_eq_ok, readJson_eq_ok, checkHeader_eq_ok, Bool.or_eq_false_iff,
    Bool.not_eq_false', List.isEmpty_eq_false_iff, and_false, exists_false, false_or, or_false]
  constructor
  · intro fails
    obtain ⟨-, ready, ⟨h, p, s⟩, cut, fails⟩ := fails
    refine ⟨ready, h, p, s, cut, ?_⟩
    rcases fails with throws | ⟨header, read, fails⟩
    · exact .inl throws
    · refine .inr ⟨header, read, ?_⟩
      rcases fails with unkeyed | ⟨entry, ⟨alg, routes⟩, signature, decoded, -, signed, fails⟩
      · exact .inl unkeyed
      · exact .inr ⟨entry, signature, alg, routes, decoded, signed, fails⟩
  · intro throws
    obtain ⟨ready, h, p, s, cut, throws⟩ := throws
    refine ⟨(), ready, (h, p, s), cut, ?_⟩
    rcases throws with throws | ⟨header, read, throws⟩
    · exact .inl throws
    · refine .inr ⟨header, read, ?_⟩
      rcases throws with unkeyed | ⟨entry, signature, alg, routes, decoded, signed, throws⟩
      · exact .inl unkeyed
      · exact .inr ⟨entry, ⟨alg, routes⟩, signature, decoded, (), signed, throws⟩

end Checks

/-! ## Results -/

section Results

variable {Pkey : Type} (json : JsonCpp) (rs256 : Rs256 Pkey) (m : JwkManager Pkey)
  (jwt issuer : String) (now : Int64) (audience : String)

theorem verifyJwt_returns :
    (∃ result, m.verifyJwt json rs256 jwt issuer now audience = .ok result) ↔
      ¬ Throws json rs256 m jwt issuer now := by
  rw [← @fails_verifyCore _ json rs256 m jwt issuer audience]
  unfold JwkManager.verifyJwt
  cases m.verifyCore json rs256 jwt issuer now audience with
  | ok payload => simp
  | error exit => cases exit <;> simp

theorem verifyAndDecode_returns :
    (∃ result, m.verifyAndDecode json rs256 jwt issuer now audience = .ok result) ↔
      ¬ Throws json rs256 m jwt issuer now := by
  rw [← @fails_verifyCore _ json rs256 m jwt issuer audience]
  unfold JwkManager.verifyAndDecode
  cases m.verifyCore json rs256 jwt issuer now audience with
  | ok payload => simp
  | error exit => cases exit <;> simp

/-- A verification returns a result exactly if neither the header throws nor, under a valid
signature, the payload. -/
theorem verification_returns_iff :
    ((∃ result, m.verifyJwt json rs256 jwt issuer now audience = .ok result) ∧
        ∃ result, m.verifyAndDecode json rs256 jwt issuer now audience = .ok result) ↔
      ¬ Throws json rs256 m jwt issuer now := by
  rw [verifyJwt_returns, verifyAndDecode_returns, and_self]

end Results

/-- jsoncpp on the texts `[]` and `{}`. -/
def Sample.brackets : JsonCpp where
  parse bytes :=
    if bytes = [91, 93] then .ok (some (.arr []))
    else if bytes = [123, 125] then .ok (some (.obj []))
    else .ok none
  write _ := []
  edge := Int64.minValue

/-- A header that is an empty array, with no valid signature. -/
theorem unsigned_token_throws :
    ¬ ((∃ result, Sample.manager.verifyJwt Sample.brackets Sample.rs256 "W10.e30.AA"
          "https://id.example" 100 = .ok result) ∧
        ∃ result, Sample.manager.verifyAndDecode Sample.brackets Sample.rs256 "W10.e30.AA"
          "https://id.example" 100 = .ok result) := by
  have threw : Sample.manager.verifyJwt Sample.brackets Sample.rs256 "W10.e30.AA"
      "https://id.example" 100 =
        .error "in Json::Value::find(begin, end): requires objectValue or nullValue" := by
    rfl
  intro returns
  obtain ⟨⟨result, returned⟩, -⟩ := returns
  rw [threw] at returned
  cases returned

end Fulla.Jwk
