import Mathlib.Data.List.Nodup
import Mathlib.Data.List.TakeWhile
import Fulla.Jwk.JwkManager

/-!
# What verification accepts

`Acceptable` says which texts should be accepted, without the order of the checks and with
`exp` and `nbf` as the numbers they are.  `verifyCore_eq_ok` says what the checks make sure
of.  The two differ where the code passes over a `kid` that it cannot use and where a fraction
is cut to a second:

* `acceptable_iff`: an accepted text is acceptable exactly if neither has happened;
* `signed_accepted_iff_passes`: a token that was signed with a key is accepted by every
  manager that holds the key, exactly if its claims pass the checks.
-/

namespace Fulla.Jwk

open Conc

/-! ## Segments -/

section Segments

variable {text before after : List Char}

/-- The cut is at the first dot. -/
theorem cutAtDot_append (none : '.' ∉ before) :
    JwkManager.cutAtDot (before ++ '.' :: after) = some (before, after) := by
  have other : ∀ c ∈ before, (c != '.') = true := by
    intro c mem
    rw [bne_iff_ne]
    intro dot
    exact none (dot ▸ mem)
  rw [JwkManager.cutAtDot, if_pos (by simp), List.takeWhile_append_of_pos other,
    List.dropWhile_append_of_pos other]
  simp

/-- What a cut says about the text. -/
theorem eq_of_cutAtDot (cut : JwkManager.cutAtDot text = some (before, after)) :
    text = before ++ '.' :: after ∧ '.' ∉ before := by
  unfold JwkManager.cutAtDot at cut
  split at cut
  · next found =>
      cases cut
      have here : '.' ∈ text := List.contains_iff_mem.mp found
      have none : '.' ∉ text.takeWhile (· != '.') := by
        intro mem
        have other := List.mem_takeWhile_imp mem
        simp at other
      have rest : text.dropWhile (· != '.') = '.' :: (text.dropWhile (· != '.')).drop 1 := by
        rw [← List.takeWhile_append_dropWhile (p := (· != '.')) (l := text)] at here
        cases left : text.dropWhile (· != '.') with
        | nil =>
            rw [left, List.append_nil] at here
            exact absurd here none
        | cons c rest =>
            have first := List.head?_dropWhile_not (· != '.') text
            rw [left] at first
            simp only [List.head?_cons, bne_eq_false_iff_eq] at first
            rw [first]
            rfl
      refine ⟨?_, none⟩
      rw [← rest, List.takeWhile_append_dropWhile]
  · cases cut

end Segments

/-- Three segments that are not empty and hold no dot. -/
def Plain (segment : String) : Prop :=
  segment ≠ "" ∧ '.' ∉ segment.toList

theorem toList_isEmpty_eq_false {text : String} : text.toList.isEmpty = false ↔ text ≠ "" := by
  rw [List.isEmpty_eq_false_iff, ne_eq, ne_eq, String.toList_eq_nil_iff]

/-- Three plain segments between dots are cut as they were joined. -/
theorem segments_append {header payload signature : String} (h : Plain header) (p : Plain payload)
    (s : Plain signature) :
    JwkManager.segments (header ++ "." ++ payload ++ "." ++ signature) =
      some (header, payload, signature) := by
  have text : (header ++ "." ++ payload ++ "." ++ signature).toList =
      header.toList ++ '.' :: (payload.toList ++ '.' :: signature.toList) := by
    simp [String.toList_append]
  have kept : (header.toList.isEmpty || payload.toList.isEmpty || signature.toList.isEmpty ||
      signature.toList.contains '.') = false := by
    rw [toList_isEmpty_eq_false.mpr h.1, toList_isEmpty_eq_false.mpr p.1,
      toList_isEmpty_eq_false.mpr s.1]
    simpa using s.2
  rw [JwkManager.segments, text, cutAtDot_append h.2]
  change (JwkManager.cutAtDot (payload.toList ++ '.' :: signature.toList) >>= _) = _
  rw [cutAtDot_append p.2]
  change (if _ then _ else _) = _
  rw [kept]
  simp

/-- A text that is cut consists of three plain segments. -/
theorem eq_of_segments {jwt header payload signature : String}
    (cut : JwkManager.segments jwt = some (header, payload, signature)) :
    jwt = header ++ "." ++ payload ++ "." ++ signature ∧ Plain header ∧ Plain payload ∧
      Plain signature := by
  obtain ⟨⟨header', rest⟩, first, next⟩ := Option.bind_eq_some_iff.mp cut
  obtain ⟨⟨payload', signature'⟩, second, last⟩ := Option.bind_eq_some_iff.mp next
  obtain ⟨text, no_dot⟩ := eq_of_cutAtDot first
  obtain ⟨rfl, no_dot'⟩ := eq_of_cutAtDot second
  dsimp only at last
  split at last
  · cases last
  · next kept =>
      cases last
      simp only [Bool.or_eq_true, not_or, Bool.not_eq_true, List.isEmpty_eq_false_iff] at kept
      obtain ⟨⟨⟨h, p⟩, s⟩, no_dot''⟩ := kept
      refine ⟨?_, ⟨by simpa using h, by simpa using no_dot⟩,
        ⟨by simpa using p, by simpa using no_dot'⟩, ⟨by simpa using s, ?_⟩⟩
      · rw [← String.toList_inj, text]
        simp [String.toList_append]
      · simpa using no_dot''

/-- What was encoded is decoded again. -/
theorem base64UrlDecode_encode (bytes : List UInt8) :
    base64UrlDecode (base64UrlEncode bytes) = some bytes := by
  rw [base64UrlDecode, base64UrlEncode, String.toList_ofList, Base64Url.decode_encode]

/-- A segment that can be decoded is the encoding of its bytes. -/
theorem eq_encode_of_base64UrlDecode {segment : String} {bytes : List UInt8}
    (decoded : base64UrlDecode segment = some bytes) : segment = base64UrlEncode bytes := by
  rw [base64UrlEncode, ← Base64Url.eq_encode_of_decode decoded, String.ofList_toList]

theorem plain_base64UrlEncode {bytes : List UInt8} (some_bytes : bytes ≠ []) :
    Plain (base64UrlEncode bytes) := by
  constructor
  · intro empty
    have decoded := base64UrlDecode_encode bytes
    rw [empty] at decoded
    exact some_bytes (Option.some.inj decoded).symm
  · rw [base64UrlEncode, String.toList_ofList]
    exact Base64Url.notMem_encode (by decide)

/-! ## Accessors -/

namespace JsonValue

variable {json : JsonCpp} {v : JsonValue} {k : String}

/-- The answer of `isMember`, and that it does not throw. -/
theorem isMember_eq_ok {b : Bool} :
    v.isMember k = .ok b ↔ v.isKeyed = true ∧ (v.member? k).isSome = b := by
  unfold isMember
  cases v.isKeyed <;> simp

/-- A text member is read from an object. -/
theorem textAt_eq_ok {text : Option String} :
    v.textAt k = .ok text ↔ v.isKeyed = true ∧ v.text? k = text := by
  simp [-bind_pure_comp, textAt, bind_eq_ok, isMember_eq_ok]

theorem isKeyed_of_member? {w : JsonValue} (found : v.member? k = some w) : v.isKeyed = true := by
  cases v <;> first | rfl | cases found

theorem member?_of_text? {s : String} (found : v.text? k = some s) :
    v.member? k = some (.str s) := by
  unfold text? at found
  split at found
  · next eq =>
      cases found
      exact eq
  · cases found

theorem text?_of_member? {s : String} (found : v.member? k = some (.str s)) :
    v.text? k = some s := by
  rw [text?, found]

/-- A numeric member is converted. -/
theorem int64At_eq_some {z : Int} :
    v.int64At json k = .ok (some z) ↔
      ∃ n, v.member? k = some n ∧ n.isNumeric = true ∧ n.asInt64 json = .ok z := by
  simp only [int64At, bind_eq_ok, isMember_eq_ok]
  constructor
  · intro read
    obtain ⟨-, ⟨-, -⟩, read⟩ := read
    split at read
    · next n found =>
        obtain ⟨z', converted, eq⟩ := bind_eq_ok.mp read
        cases eq
        obtain ⟨member, numeric⟩ := Option.filter_eq_some_iff.mp found
        exact ⟨n, member, numeric, converted⟩
    · cases read
  · intro found
    obtain ⟨n, member, numeric, converted⟩ := found
    refine ⟨_, ⟨isKeyed_of_member? member, rfl⟩, ?_⟩
    have kept : (v.member? k).filter isNumeric = some n :=
      Option.filter_eq_some_iff.mpr ⟨member, numeric⟩
    rw [kept]
    exact bind_eq_ok.mpr ⟨z, converted, rfl⟩

end JsonValue

/-! ## The checks -/

section Checks

variable {Pkey : Type} {json : JsonCpp} {rs256 : Rs256 Pkey} {m : JwkManager Pkey}

/-- A segment that decodes and parses. -/
def Reads (json : JsonCpp) (segment : String) (v : JsonValue) : Prop :=
  ∃ bytes, base64UrlDecode segment = some bytes ∧ json.parse bytes = .ok (some v)

/-- A segment is read if it decodes to a text that parses. -/
theorem readJson_eq_ok {segment : String} {v : JsonValue} :
    JwkManager.readJson json segment = .ok v ↔ Reads json segment v := by
  simp only [JwkManager.readJson, bind_eq_ok, orRefuse_eq_ok, orAnswer_eq_ok, Reads,
    exists_eq_right]

/-- The key the header leads to, none if it names no usable one. -/
def Routes (m : JwkManager Pkey) (header : JsonValue) (entry : Option (KeyEntry Pkey)) : Prop :=
  (∃ kid e, header.text? "kid" = some kid ∧ kid ≠ "" ∧ m.findEntry kid = some e ∧
      entry = some e) ∨
    (header.text? "kid").filter (· != "") = none ∧ entry = none

/-- The header is accepted with RS256, and routes to a key or to all of them. -/
theorem checkHeader_eq_ok {header : JsonValue} {entry : Option (KeyEntry Pkey)} :
    m.checkHeader header = .ok entry ↔
      header.text? "alg" = some "RS256" ∧ Routes m header entry := by
  simp only [JwkManager.checkHeader, bind_eq_ok, orAnswer_eq_ok, JsonValue.textAt_eq_ok,
    refuseIf_eq_ok, bne_eq_false_iff_eq]
  constructor
  · intro checked
    obtain ⟨_, ⟨-, rfl⟩, -, alg, _, ⟨-, rfl⟩, found⟩ := checked
    refine ⟨alg, ?_⟩
    split at found
    · next none =>
        cases found
        exact .inr ⟨none, rfl⟩
    · next kid named =>
        obtain ⟨e, entry, eq⟩ := bind_eq_ok.mp found
        cases eq
        obtain ⟨text, used⟩ := Option.filter_eq_some_iff.mp named
        exact .inl ⟨kid, e, text, bne_iff_ne.mp used, orRefuse_eq_ok.mp entry, rfl⟩
  · intro routed
    obtain ⟨alg, routes⟩ := routed
    have keyed := JsonValue.isKeyed_of_member? (JsonValue.member?_of_text? alg)
    refine ⟨_, ⟨keyed, rfl⟩, (), alg, _, ⟨keyed, rfl⟩, ?_⟩
    rcases routes with ⟨kid, e, text, used, entry, rfl⟩ | ⟨none, rfl⟩
    · have named : (header.text? "kid").filter (· != "") = some kid :=
        Option.filter_eq_some_iff.mpr ⟨text, bne_iff_ne.mpr used⟩
      rw [named]
      exact bind_eq_ok.mpr ⟨e, orRefuse_eq_ok.mpr entry, rfl⟩
    · rw [none]
      rfl

/-- What is checked of the claims. -/
structure ClaimsPass (json : JsonCpp) (payload : JsonValue) (issuer : String) (now : Int64)
    (audience : String) : Prop where
  iss : payload.text? "iss" = some issuer
  exp : ∃ n z, payload.member? "exp" = some n ∧ n.isNumeric = true ∧ n.asInt64 json = .ok z ∧
    now.toInt < z
  nbf : ∀ n, payload.member? "nbf" = some n →
    n.isNumeric = true ∧ ∃ z, n.asInt64 json = .ok z ∧ z ≤ now.toInt
  sub : ∃ s, payload.text? "sub" = some s ∧ s ≠ ""
  aud : audience = "" ∨ JwkManager.audienceOk payload audience = true

/-- `nbf` is accepted if it is missing, or a number that is not later than now. -/
theorem checkNbf_eq_ok {payload : JsonValue} {now : Int64} {u : Unit} :
    JwkManager.checkNbf json payload now = .ok u ↔
      payload.isKeyed = true ∧ ∀ n, payload.member? "nbf" = some n →
        n.isNumeric = true ∧ ∃ z, n.asInt64 json = .ok z ∧ z ≤ now.toInt := by
  simp only [JwkManager.checkNbf, bind_eq_ok, orAnswer_eq_ok, JsonValue.isMember_eq_ok]
  constructor
  · intro checked
    obtain ⟨_, ⟨keyed, rfl⟩, checked⟩ := checked
    refine ⟨keyed, fun n found => ?_⟩
    rw [found, Option.isSome_some, if_pos rfl] at checked
    obtain ⟨_, read, checked⟩ := bind_eq_ok.mp checked
    obtain ⟨z, present, checked⟩ := bind_eq_ok.mp checked
    rw [orRefuse_eq_ok] at present
    rw [present, orAnswer_eq_ok, JsonValue.int64At_eq_some] at read
    obtain ⟨n', found', numeric, converted⟩ := read
    cases found.symm.trans found'
    rw [refuseIf_eq_ok, decide_eq_false_iff_not, Int.not_lt] at checked
    exact ⟨numeric, z, converted, checked⟩
  · intro passes
    obtain ⟨keyed, passes⟩ := passes
    refine ⟨_, ⟨keyed, rfl⟩, ?_⟩
    cases found : payload.member? "nbf" with
    | none => rfl
    | some n =>
        obtain ⟨numeric, z, converted, early⟩ := passes n found
        rw [Option.isSome_some, if_pos rfl]
        refine bind_eq_ok.mpr ⟨some z, ?_, bind_eq_ok.mpr ⟨z, orRefuse_eq_ok.mpr rfl, ?_⟩⟩
        · exact orAnswer_eq_ok.mpr (JsonValue.int64At_eq_some.mpr ⟨n, found, numeric, converted⟩)
        · rw [refuseIf_eq_ok, decide_eq_false_iff_not, Int.not_lt]
          exact early

/-- The payload is accepted with the claims that pass. -/
theorem checkClaims_eq_ok {payload : JsonValue} {issuer : String} {now : Int64}
    {audience : String} {u : Unit} :
    JwkManager.checkClaims json payload issuer now audience = .ok u ↔
      ClaimsPass json payload issuer now audience := by
  simp only [JwkManager.checkClaims, bind_eq_ok, orAnswer_eq_ok, JsonValue.textAt_eq_ok,
    refuseIf_eq_ok, bne_eq_false_iff_eq, Bool.not_eq_false', Option.any_eq_true, checkNbf_eq_ok,
    decide_eq_true_eq, bne_iff_ne, Bool.and_eq_false_iff]
  constructor
  · intro checked
    obtain ⟨_, ⟨-, rfl⟩, -, iss, exp, read, -, ⟨z, rfl, late⟩, -, ⟨-, nbf⟩, _, ⟨-, rfl⟩, -, sub,
      aud⟩ := checked
    obtain ⟨n, found, numeric, converted⟩ := JsonValue.int64At_eq_some.mp read
    exact ⟨iss, ⟨n, z, found, numeric, converted, late⟩, nbf, sub, aud⟩
  · intro passes
    have keyed := JsonValue.isKeyed_of_member? (JsonValue.member?_of_text? passes.iss)
    obtain ⟨n, z, found, numeric, converted, late⟩ := passes.exp
    have read := JsonValue.int64At_eq_some.mpr ⟨n, found, numeric, converted⟩
    exact ⟨_, ⟨keyed, rfl⟩, (), passes.iss, some z, read, (), ⟨z, rfl, late⟩, (),
      ⟨keyed, passes.nbf⟩, _, ⟨keyed, rfl⟩, (), passes.sub, passes.aud⟩

/-- Everything that is checked of a token. -/
theorem verifyCore_eq_ok {jwt issuer audience : String} {now : Int64} {payload : JsonValue} :
    m.verifyCore json rs256 jwt issuer now audience = .ok payload ↔
      (m.initialized = true ∧ m.keys ≠ []) ∧
        ∃ headerB64 payloadB64 signatureB64 header entry signature,
          JwkManager.segments jwt = some (headerB64, payloadB64, signatureB64) ∧
          Reads json headerB64 header ∧ header.text? "alg" = some "RS256" ∧
          Routes m header entry ∧ base64UrlDecode signatureB64 = some signature ∧
          m.signatureOk rs256 entry (headerB64 ++ "." ++ payloadB64) signature = true ∧
          Reads json payloadB64 payload ∧ ClaimsPass json payload issuer now audience := by
  simp only [JwkManager.verifyCore, bind_eq_ok, refuseIf_eq_ok, orRefuse_eq_ok, readJson_eq_ok,
    checkHeader_eq_ok, checkClaims_eq_ok, pure_eq_ok, Bool.or_eq_false_iff, Bool.not_eq_false',
    List.isEmpty_eq_false_iff]
  constructor
  · intro checked
    obtain ⟨-, ready, ⟨h, p, s⟩, cut, header, read, entry, ⟨alg, routes⟩, signature, decoded, -,
      signed, payload, read', -, claims, rfl⟩ := checked
    exact ⟨ready, h, p, s, header, entry, signature, cut, read, alg, routes, decoded, signed, read',
      claims⟩
  · intro passes
    obtain ⟨ready, h, p, s, header, entry, signature, cut, read, alg, routes, decoded, signed,
      read', claims⟩ := passes
    exact ⟨(), ready, (h, p, s), cut, header, read, entry, ⟨alg, routes⟩, signature, decoded, (),
      signed, payload, read', (), claims, rfl⟩

/-- An exit that is not a success. -/
def Refuses (exit : Exit) : Prop :=
  exit ≠ .rejected .ok

instance (exit : Exit) : Decidable (Refuses exit) :=
  inferInstanceAs (Decidable (_ ≠ _))

theorem refuses_threw (what : String) : Refuses (.threw what) := by
  intro eq
  cases eq

/-- A segment that is not read refuses the token. -/
theorem readJson_refuses {segment : String} :
    Answers Refuses (JwkManager.readJson json segment) := by
  refine (answers_orRefuse (by decide)).bind fun _ _ => ?_
  exact (answers_orAnswer refuses_threw).bind fun _ _ => answers_orRefuse (by decide)

/-- So does a header that is not accepted. -/
theorem checkHeader_refuses {header : JsonValue} : Answers Refuses (m.checkHeader header) := by
  refine (answers_orAnswer refuses_threw).bind fun _ _ => ?_
  refine (answers_refuseIf (by decide)).bind fun _ _ => ?_
  refine (answers_orAnswer refuses_threw).bind fun kid _ => ?_
  split
  · exact answers_ok
  · exact (answers_orRefuse (by decide)).bind fun _ _ => answers_ok

/-- So does an `nbf`. -/
theorem checkNbf_refuses {payload : JsonValue} {now : Int64} :
    Answers Refuses (JwkManager.checkNbf json payload now) := by
  refine (answers_orAnswer refuses_threw).bind fun _ _ => ?_
  split
  · refine (answers_orAnswer refuses_threw).bind fun _ _ => ?_
    exact (answers_orRefuse (by decide)).bind fun _ _ => answers_refuseIf (by decide)
  · exact answers_ok

/-- So do the claims. -/
theorem checkClaims_refuses {payload : JsonValue} {issuer audience : String} {now : Int64} :
    Answers Refuses (JwkManager.checkClaims json payload issuer now audience) := by
  refine (answers_orAnswer refuses_threw).bind fun _ _ => ?_
  refine (answers_refuseIf (by decide)).bind fun _ _ => ?_
  refine (answers_orAnswer refuses_threw).bind fun _ _ => ?_
  refine (answers_refuseIf (by decide)).bind fun _ _ => checkNbf_refuses.bind fun _ _ => ?_
  refine (answers_orAnswer refuses_threw).bind fun _ _ => ?_
  exact (answers_refuseIf (by decide)).bind fun _ _ => answers_refuseIf (by decide)

/-- **Whatever stops a verification refuses the token**. -/
theorem verifyCore_refuses {jwt issuer audience : String} {now : Int64} :
    Answers Refuses (m.verifyCore json rs256 jwt issuer now audience) := by
  refine (answers_refuseIf (by decide)).bind fun _ _ => ?_
  refine (answers_orRefuse (by decide)).bind fun _ _ => readJson_refuses.bind fun _ _ => ?_
  refine checkHeader_refuses.bind fun _ _ => (answers_orRefuse (by decide)).bind fun _ _ => ?_
  refine (answers_refuseIf (by decide)).bind fun _ _ => readJson_refuses.bind fun _ _ => ?_
  exact checkClaims_refuses.bind fun _ _ => answers_ok

/-- `verifyJwt` accepts what `verifyCore` delivers. -/
theorem verifyJwt_eq_ok {jwt issuer audience : String} {now : Int64} :
    m.verifyJwt json rs256 jwt issuer now audience = .ok .ok ↔
      ∃ payload, m.verifyCore json rs256 jwt issuer now audience = .ok payload := by
  have refuses := @verifyCore_refuses _ json rs256 m jwt issuer audience now
  unfold JwkManager.verifyJwt
  cases verified : m.verifyCore json rs256 jwt issuer now audience with
  | ok payload => simp
  | error exit =>
      cases exit with
      | rejected result =>
          have refused := refuses _ verified
          refine ⟨fun accepted => ?_, fun ⟨_, accepted⟩ => by cases accepted⟩
          cases accepted
          exact absurd rfl refused
      | threw what => simp

end Checks

/-! ## What should be accepted -/

/-- Three non-empty segments in canonical base64url, the first two of them JSON texts. -/
structure Token (json : JsonCpp) (jwt : String) where
  headerBytes : List UInt8
  payloadBytes : List UInt8
  signature : List UInt8
  header : JsonValue
  payload : JsonValue
  text : jwt = base64UrlEncode headerBytes ++ "." ++ base64UrlEncode payloadBytes ++ "." ++
    base64UrlEncode signature
  headerBytes_ne : headerBytes ≠ []
  payloadBytes_ne : payloadBytes ≠ []
  signature_ne : signature ≠ []
  header_eq : json.parse headerBytes = .ok (some header)
  payload_eq : json.parse payloadBytes = .ok (some payload)

namespace Token

variable {json : JsonCpp} {jwt : String}

/-- The text that is signed. -/
def signingInput (t : Token json jwt) : String :=
  base64UrlEncode t.headerBytes ++ "." ++ base64UrlEncode t.payloadBytes

/-- The segments of a token. -/
theorem segments (t : Token json jwt) :
    JwkManager.segments jwt = some (base64UrlEncode t.headerBytes, base64UrlEncode t.payloadBytes,
      base64UrlEncode t.signature) := by
  have cut := segments_append (plain_base64UrlEncode t.headerBytes_ne)
    (plain_base64UrlEncode t.payloadBytes_ne) (plain_base64UrlEncode t.signature_ne)
  rwa [← t.text] at cut

theorem encode_inj {bytes bytes' : List UInt8}
    (same : base64UrlEncode bytes = base64UrlEncode bytes') : bytes = bytes' := by
  have decoded := base64UrlDecode_encode bytes
  rw [same, base64UrlDecode_encode] at decoded
  exact (Option.some.inj decoded).symm

/-- A text is a token in one way only. -/
theorem eq (t t' : Token json jwt) : t = t' := by
  have same := t.segments.symm.trans t'.segments
  simp only [Option.some.injEq, Prod.mk.injEq] at same
  obtain ⟨headers, payloads, signatures⟩ := same
  have header := t.header_eq
  have payload := t.payload_eq
  rw [encode_inj headers, t'.header_eq] at header
  rw [encode_inj payloads, t'.payload_eq] at payload
  have headerBytes := encode_inj headers
  have payloadBytes := encode_inj payloads
  have signature := encode_inj signatures
  cases t
  cases t'
  cases header
  cases payload
  cases headerBytes
  cases payloadBytes
  cases signature
  rfl

/-- The signature is valid under the key that the header names, or under some loaded key when
it names none. -/
def Signed {Pkey : Type} (rs256 : Rs256 Pkey) (m : JwkManager Pkey) (t : Token json jwt) : Prop :=
  (t.header.member? "kid" = none ∧
      ∃ e ∈ m.keys, rs256.verify e.pkey t.signingInput t.signature = true) ∨
    ∃ kid, t.header.member? "kid" = some (.str kid) ∧
      ∃ e ∈ m.keys, e.kid = kid ∧ rs256.verify e.pkey t.signingInput t.signature = true

end Token

/-- The number a value stands for. -/
def JsonValue.number? : JsonValue → Option Rat
  | int n => some n.toInt
  | uint n => some n.toNat
  | real q => some q
  | _ => none

/-- The audience stands alone or in an array. -/
def Addressed (payload : JsonValue) (audience : String) : Prop :=
  payload.member? "aud" = some (.str audience) ∨
    ∃ elements, payload.member? "aud" = some (.arr elements) ∧ .str audience ∈ elements

/-- The claims are as expected at the time `now`. -/
structure Claims (payload : JsonValue) (issuer : String) (now : Int64) (audience : String) :
    Prop where
  iss : payload.member? "iss" = some (.str issuer)
  aud : audience = "" ∨ Addressed payload audience
  exp : ∃ v x, payload.member? "exp" = some v ∧ v.number? = some x ∧ (now.toInt : Rat) < x
  nbf : ∀ v, payload.member? "nbf" = some v → ∃ x, v.number? = some x ∧ x ≤ now.toInt
  sub : ∃ s, payload.member? "sub" = some (.str s) ∧ s ≠ ""

/-- The token is one that should be accepted. -/
def Acceptable {Pkey : Type} (json : JsonCpp) (rs256 : Rs256 Pkey) (m : JwkManager Pkey)
    (jwt issuer : String) (now : Int64) (audience : String) : Prop :=
  ∃ t : Token json jwt, t.header.member? "alg" = some (.str "RS256") ∧ t.Signed rs256 m ∧
    Claims t.payload issuer now audience

/-- The header has no `kid`, or one that is not empty, or the empty one of a loaded key under
which the signature is valid. -/
def KidRegular {Pkey : Type} {json : JsonCpp} {jwt : String} (rs256 : Rs256 Pkey)
    (m : JwkManager Pkey) (t : Token json jwt) : Prop :=
  t.header.member? "kid" = none ∨
    ∃ kid, t.header.member? "kid" = some (.str kid) ∧
      (kid ≠ "" ∨ ∃ e ∈ m.keys, e.kid = "" ∧
        rs256.verify e.pkey t.signingInput t.signature = true)

/-- `nbf` is no fraction of the second that follows `now`, and not the double `2^63`. -/
def NbfRegular (payload : JsonValue) (now : Int64) : Prop :=
  ∀ q, payload.member? "nbf" = some (.real q) →
    ¬ ((now.toInt : Rat) < q ∧ q < ((now.toInt + 1 : Int) : Rat)) ∧ q ≠ 2 ^ 63

/-! ## Numbers -/

section Numbers

variable {json : JsonCpp} {v : JsonValue} {q : Rat} {z : Int}

theorem lt_of_lt_truncate (lt : z < JsonValue.truncate q) : (z : Rat) < q := by
  unfold JsonValue.truncate at lt
  split at lt
  · have above : ((z + 1 : Int) : Rat) ≤ q := Rat.le_floor_iff.mp (Int.add_one_le_of_lt lt)
    have step : (z : Rat) < ((z + 1 : Int) : Rat) := by exact_mod_cast Int.lt_succ z
    exact lt_of_lt_of_le step above
  · exact Rat.lt_ceil_iff.mp lt

/-- Comparing a number that was cut off. -/
theorem truncate_le_iff :
    JsonValue.truncate q ≤ z ↔
      if 0 ≤ q then q < ((z + 1 : Int) : Rat) else q ≤ z := by
  unfold JsonValue.truncate
  split
  · rw [← Rat.floor_lt_iff, Int.lt_add_one_iff]
  · exact Rat.ceil_le_iff

/-- What a real converts to. -/
theorem asInt64_real (converted : (JsonValue.real q).asInt64 json = .ok z) :
    q = 2 ^ 63 ∧ z = json.edge.toInt ∨ q ≠ 2 ^ 63 ∧ z = JsonValue.truncate q := by
  rw [JsonValue.asInt64] at converted
  split at converted
  · split at converted
    · next edge =>
        cases converted
        exact .inl ⟨edge, rfl⟩
    · next inside =>
        cases converted
        exact .inr ⟨inside, rfl⟩
  · cases converted

theorem asInt64_uint {n : UInt64} (converted : (JsonValue.uint n).asInt64 json = .ok z) :
    z = n.toNat := by
  rw [JsonValue.asInt64] at converted
  split at converted
  · cases converted
    rfl
  · cases converted

theorem toInt_lt_edge (now : Int64) : (now.toInt : Rat) < 2 ^ 63 := by
  exact_mod_cast now.toInt_lt

/-- A conversion above `now` comes from a number above `now`. -/
theorem exists_number_of_lt {now : Int64} (numeric : v.isNumeric = true)
    (converted : v.asInt64 json = .ok z) (late : now.toInt < z) :
    ∃ x, v.number? = some x ∧ (now.toInt : Rat) < x := by
  cases v with
  | int n =>
      cases converted
      exact ⟨_, rfl, by exact_mod_cast late⟩
  | uint n =>
      rw [asInt64_uint converted] at late
      exact ⟨_, rfl, by exact_mod_cast late⟩
  | real q =>
      refine ⟨q, rfl, ?_⟩
      rcases asInt64_real converted with ⟨rfl, -⟩ | ⟨-, rfl⟩
      · exact toInt_lt_edge now
      · exact lt_of_lt_truncate late
  | null => cases numeric
  | bool b => cases numeric
  | str s => cases numeric
  | arr elements => cases numeric
  | obj members => cases numeric

/-- A conversion that is not above `now` comes from a number that is not, but for fractions. -/
theorem exists_number_le_iff {now : Int64} (numeric : v.isNumeric = true)
    (converted : v.asInt64 json = .ok z) (early : z ≤ now.toInt) :
    (∃ x, v.number? = some x ∧ x ≤ now.toInt) ↔
      ∀ q, v = .real q →
        ¬ ((now.toInt : Rat) < q ∧ q < ((now.toInt + 1 : Int) : Rat)) ∧ q ≠ 2 ^ 63 := by
  cases v with
  | int n =>
      cases converted
      refine ⟨fun _ q eq => (by cases eq), fun _ => ⟨_, rfl, by exact_mod_cast early⟩⟩
  | uint n =>
      rw [asInt64_uint converted] at early
      refine ⟨fun _ q eq => (by cases eq), fun _ => ⟨_, rfl, by exact_mod_cast early⟩⟩
  | real q =>
      have bound := toInt_lt_edge now
      constructor
      · intro below q' eq
        obtain ⟨x, value, le⟩ := below
        cases value
        cases eq
        refine ⟨fun above => absurd le (not_le.mpr above.1), fun edge => ?_⟩
        rw [edge] at le
        exact absurd le (not_le.mpr bound)
      · intro regular
        obtain ⟨outside, not_edge⟩ := regular q rfl
        refine ⟨q, rfl, ?_⟩
        rcases asInt64_real converted with ⟨edge, -⟩ | ⟨-, rfl⟩
        · exact absurd edge not_edge
        · rw [truncate_le_iff] at early
          split at early
          · exact not_lt.mp fun above => outside ⟨above, early⟩
          · exact early
  | null => cases numeric
  | bool b => cases numeric
  | str s => cases numeric
  | arr elements => cases numeric
  | obj members => cases numeric

end Numbers

/-! ## Accepted tokens -/

section Accepted

variable {Pkey : Type} {json : JsonCpp} {rs256 : Rs256 Pkey} {m : JwkManager Pkey}
  {jwt issuer audience : String} {now : Int64}

theorem ne_nil_of_plain {segment : String} {bytes : List UInt8} (plain : Plain segment)
    (decoded : base64UrlDecode segment = some bytes) : bytes ≠ [] := by
  intro none
  rw [none] at decoded
  exact plain.1 (eq_encode_of_base64UrlDecode decoded)

/-- An accepted text is a token whose checks have passed. -/
theorem exists_token_of_accepted
    (accepted : m.verifyJwt json rs256 jwt issuer now audience = .ok .ok) :
    ∃ (t : Token json jwt) (entry : Option (KeyEntry Pkey)),
      t.header.text? "alg" = some "RS256" ∧ Routes m t.header entry ∧
      m.signatureOk rs256 entry t.signingInput t.signature = true ∧
      ClaimsPass json t.payload issuer now audience := by
  obtain ⟨payload, verified⟩ := verifyJwt_eq_ok.mp accepted
  obtain ⟨-, h, p, s, header, entry, signature, cut, ⟨headerBytes, header_dec, header_eq⟩, alg,
    routes, sig_dec, signed, ⟨payloadBytes, payload_dec, payload_eq⟩, claims⟩ :=
    verifyCore_eq_ok.mp verified
  obtain ⟨text, h_plain, p_plain, s_plain⟩ := eq_of_segments cut
  have headerBytes_ne := ne_nil_of_plain h_plain header_dec
  have payloadBytes_ne := ne_nil_of_plain p_plain payload_dec
  have signature_ne := ne_nil_of_plain s_plain sig_dec
  cases eq_encode_of_base64UrlDecode header_dec
  cases eq_encode_of_base64UrlDecode payload_dec
  cases eq_encode_of_base64UrlDecode sig_dec
  exact ⟨⟨headerBytes, payloadBytes, signature, header, payload, text, headerBytes_ne,
    payloadBytes_ne, signature_ne, header_eq, payload_eq⟩, entry, alg, routes, signed, claims⟩

/-- A key that is found is one of the loaded keys, under its id. -/
theorem findEntry_eq_some {kid : String} {e : KeyEntry Pkey} (found : m.findEntry kid = some e) :
    e ∈ m.keys ∧ e.kid = kid := by
  refine ⟨List.mem_of_find?_eq_some found, ?_⟩
  have named := List.find?_some found
  exact beq_iff_eq.mp named

/-- Where a signature has been accepted, what is left to ask is whether the `kid` could be
used. -/
theorem signed_iff {t : Token json jwt} {entry : Option (KeyEntry Pkey)}
    (routes : Routes m t.header entry)
    (ok : m.signatureOk rs256 entry t.signingInput t.signature = true) :
    t.Signed rs256 m ↔ KidRegular rs256 m t := by
  constructor
  · intro signed
    rcases signed with ⟨none, -⟩ | ⟨kid, named, e, mem, same, valid⟩
    · exact .inl none
    · refine .inr ⟨kid, named, ?_⟩
      by_cases empty : kid = ""
      · exact .inr ⟨e, mem, same.trans empty, valid⟩
      · exact .inl empty
  · intro regular
    rcases regular with none | ⟨kid, named, used⟩
    · refine .inl ⟨none, ?_⟩
      rcases routes with ⟨kid, e, text, -⟩ | ⟨-, rfl⟩
      · rw [JsonValue.member?_of_text? text] at none
        cases none
      · exact List.any_eq_true.mp ok
    · refine .inr ⟨kid, named, ?_⟩
      rcases routes with ⟨kid', e, text, -, found, rfl⟩ | ⟨unnamed, rfl⟩
      · cases named.symm.trans (JsonValue.member?_of_text? text)
        exact ⟨e, (findEntry_eq_some found).1, (findEntry_eq_some found).2, ok⟩
      · rcases used with some_kid | ⟨e, mem, empty, valid⟩
        · rw [JsonValue.text?_of_member? named, Option.filter_eq_none_iff] at unnamed
          exact absurd (bne_iff_ne.mpr some_kid) (unnamed kid rfl)
        · refine ⟨e, mem, empty.trans ?_, valid⟩
          rw [JsonValue.text?_of_member? named, Option.filter_eq_none_iff] at unnamed
          by_cases some_kid : kid = ""
          · exact some_kid.symm
          · exact absurd (bne_iff_ne.mpr some_kid) (unnamed kid rfl)

/-- The audience check asks whether the payload is addressed to the audience. -/
theorem addressed_iff {payload : JsonValue} :
    JwkManager.audienceOk payload audience = true ↔ Addressed payload audience := by
  unfold JwkManager.audienceOk Addressed
  split
  · next aud found => simp [found]
  · next elements found =>
      simp only [found, Option.some.injEq, reduceCtorEq, false_or, JsonValue.arr.injEq,
        exists_eq_left', List.any_eq_true]
      constructor
      · intro listed
        obtain ⟨element, mem, same⟩ := listed
        split at same
        · rw [← beq_iff_eq.mp same]
          exact mem
        · cases same
      · intro mem
        exact ⟨_, mem, beq_self_eq_true audience⟩
  · next other other' =>
      refine ⟨fun accepted => (by cases accepted), fun addressed => ?_⟩
      rcases addressed with found | ⟨elements, found, -⟩
      · exact absurd found (other audience)
      · exact absurd found (other' elements)

/-- Claims that have passed the checks are as expected, but for a fraction in `nbf`. -/
theorem claims_iff {payload : JsonValue} (passes : ClaimsPass json payload issuer now audience) :
    Claims payload issuer now audience ↔ NbfRegular payload now := by
  constructor
  · intro claims q found
    obtain ⟨numeric, z, converted, early⟩ := passes.nbf _ found
    exact (exists_number_le_iff numeric converted early).mp (claims.nbf _ found) q rfl
  · intro regular
    obtain ⟨n, z, found, numeric, converted, late⟩ := passes.exp
    obtain ⟨x, value, above⟩ := exists_number_of_lt numeric converted late
    obtain ⟨s, text, some_text⟩ := passes.sub
    refine ⟨JsonValue.member?_of_text? passes.iss, passes.aud.imp_right addressed_iff.mp,
      ⟨n, x, found, value, above⟩, fun v nbf => ?_,
      ⟨s, JsonValue.member?_of_text? text, some_text⟩⟩
    obtain ⟨numeric, z, converted, early⟩ := passes.nbf v nbf
    exact (exists_number_le_iff numeric converted early).mpr fun q eq => regular q (eq ▸ nbf)

/-- An accepted text is one that should be, if its `kid` could be used and its `nbf` is no
fraction that the conversion has cut. -/
theorem acceptable_iff (accepted : m.verifyJwt json rs256 jwt issuer now audience = .ok .ok) :
    Acceptable json rs256 m jwt issuer now audience ↔
      ∀ t : Token json jwt, KidRegular rs256 m t ∧ NbfRegular t.payload now := by
  obtain ⟨t, entry, alg, routes, ok, passes⟩ := exists_token_of_accepted accepted
  constructor
  · intro acceptable t'
    obtain ⟨t'', -, signed, claims⟩ := acceptable
    rw [t''.eq t] at signed claims
    rw [t'.eq t]
    exact ⟨(signed_iff routes ok).mp signed, (claims_iff passes).mp claims⟩
  · intro regular
    obtain ⟨kid, nbf⟩ := regular t
    exact ⟨t, JsonValue.member?_of_text? alg, (signed_iff routes ok).mpr kid,
      (claims_iff passes).mpr nbf⟩

end Accepted

/-! ## Signed tokens -/

/-- A signature is not empty and is valid under its key. -/
def Rs256.Correct {Pkey : Type} (rs256 : Rs256 Pkey) : Prop :=
  ∀ pkey input signature, rs256.sign pkey input = some signature →
    signature ≠ [] ∧ rs256.verify pkey input signature = true

/-- The text of the value is not empty and reads back as the value. -/
def JsonCpp.ReadsBack (json : JsonCpp) (v : JsonValue) : Prop :=
  json.write v ≠ [] ∧ json.parse (json.write v) = .ok (some v)

/-- `exp` and `nbf` convert to `int64_t`, and what `exp` converts to is above `now`. -/
def Converts (json : JsonCpp) (payload : JsonValue) (now : Int64) : Prop :=
  (∀ v, payload.member? "exp" = some v → ∃ z, v.asInt64 json = .ok z ∧ now.toInt < z) ∧
    ∀ v, payload.member? "nbf" = some v → ∃ z, v.asInt64 json = .ok z

section Signed

variable {Pkey : Type} {json : JsonCpp} {rs256 : Rs256 Pkey} {m m' : JwkManager Pkey}
  {issuer audience : String} {now : Int64} {payload : JsonValue} {e : KeyEntry Pkey}

theorem isNumeric_of_number? {v : JsonValue} {x : Rat} (value : v.number? = some x) :
    v.isNumeric = true := by
  cases v <;> first | rfl | cases value

/-- A number that is not above `now` converts to one that is not. -/
theorem asInt64_le {v : JsonValue} {x : Rat} {z : Int} (value : v.number? = some x)
    (le : x ≤ now.toInt) (converted : v.asInt64 json = .ok z) : z ≤ now.toInt := by
  cases v with
  | int n =>
      cases converted
      cases value
      exact_mod_cast le
  | uint n =>
      cases value
      rw [asInt64_uint converted]
      exact_mod_cast le
  | real q =>
      cases value
      rcases asInt64_real converted with ⟨edge, -⟩ | ⟨-, rfl⟩
      · rw [edge] at le
        exact absurd le (not_le.mpr (toInt_lt_edge now))
      · rw [truncate_le_iff]
        split
        · refine lt_of_le_of_lt le ?_
          exact_mod_cast Int.lt_succ now.toInt
        · exact le
  | null => cases value
  | bool b => cases value
  | str s => cases value
  | arr elements => cases value
  | obj members => cases value

/-- Claims that should pass do pass, if their numbers can be converted. -/
theorem claimsPass_iff (claims : Claims payload issuer now audience) :
    ClaimsPass json payload issuer now audience ↔ Converts json payload now := by
  constructor
  · intro passes
    refine ⟨fun v found => ?_, fun v found => ?_⟩
    · obtain ⟨n, z, found', -, converted, late⟩ := passes.exp
      cases found.symm.trans found'
      exact ⟨z, converted, late⟩
    · obtain ⟨-, z, converted, -⟩ := passes.nbf v found
      exact ⟨z, converted⟩
  · intro converts
    obtain ⟨v, x, found, value, -⟩ := claims.exp
    obtain ⟨z, converted, late⟩ := converts.1 v found
    obtain ⟨s, text, some_text⟩ := claims.sub
    refine ⟨JsonValue.text?_of_member? claims.iss,
      ⟨v, z, found, isNumeric_of_number? value, converted, late⟩, fun w nbf => ?_,
      ⟨s, JsonValue.text?_of_member? text, some_text⟩, claims.aud.imp_right addressed_iff.mpr⟩
    obtain ⟨y, value', le⟩ := claims.nbf w nbf
    obtain ⟨z', converted'⟩ := converts.2 w nbf
    exact ⟨isNumeric_of_number? value', z', converted', asInt64_le value' le converted'⟩

/-- With ids apart, every key is found under its own. -/
theorem findEntry_of_mem (held : e ∈ m.keys) (distinct : (m.keys.map KeyEntry.kid).Nodup) :
    m.findEntry e.kid = some e := by
  obtain ⟨e', found⟩ : ∃ e', m.findEntry e.kid = some e' :=
    Option.isSome_iff_exists.mp (List.find?_isSome.mpr ⟨e, held, beq_self_eq_true _⟩)
  obtain ⟨mem, same⟩ := findEntry_eq_some found
  rw [found, List.inj_on_of_nodup_map distinct mem held same]

/-- The token that has been signed. -/
theorem exists_signature (active : m.activeEntry = some e)
    (signed : m.signJwt json rs256 payload ≠ "") :
    ∃ signature, rs256.sign e.pkey (base64UrlEncode (json.write (JwkManager.jwtHeader e.kid)) ++
        "." ++ base64UrlEncode (json.write payload)) = some signature ∧
      m.signJwt json rs256 payload =
        base64UrlEncode (json.write (JwkManager.jwtHeader e.kid)) ++ "." ++
          base64UrlEncode (json.write payload) ++ "." ++ base64UrlEncode signature := by
  unfold JwkManager.signJwt at signed ⊢
  split at signed
  · exact absurd rfl signed
  · next ready =>
      rw [if_neg ready]
      rw [active] at signed ⊢
      dsimp only at signed ⊢
      split at signed
      · exact absurd rfl signed
      · next signature made =>
          rw [made]
          exact ⟨signature, rfl, rfl⟩

/-- The header of a signed token leads to its key, or to all keys if the `kid` is empty. -/
theorem routes_jwtHeader (found : m.findEntry e.kid = some e) :
    Routes m (JwkManager.jwtHeader e.kid) (if e.kid = "" then none else some e) := by
  split
  · next empty =>
      refine .inr ⟨?_, rfl⟩
      rw [empty]
      rfl
  · next used => exact .inl ⟨e.kid, e, rfl, used, found, rfl⟩

/-- The token that has been signed, as one that parses. -/
theorem exists_token_of_signed (correct : rs256.Correct) (active : m.activeEntry = some e)
    (signed : m.signJwt json rs256 payload ≠ "")
    (header_back : json.ReadsBack (JwkManager.jwtHeader e.kid))
    (payload_back : json.ReadsBack payload) :
    ∃ t : Token json (m.signJwt json rs256 payload),
      t.header = JwkManager.jwtHeader e.kid ∧ t.payload = payload ∧
        rs256.verify e.pkey t.signingInput t.signature = true := by
  obtain ⟨signature, made, text⟩ := exists_signature active signed
  obtain ⟨signature_ne, valid⟩ := correct _ _ _ made
  exact ⟨⟨_, _, signature, _, payload, text, header_back.1, payload_back.1, signature_ne,
    header_back.2, payload_back.2⟩, rfl, rfl, valid⟩

/-- A token that was signed with a key passes wherever the key is held, if its claims do. -/
theorem signed_accepted_iff_passes (correct : rs256.Correct) (active : m.activeEntry = some e)
    (signed : m.signJwt json rs256 payload ≠ "") (ready : m'.initialized = true)
    (held : e ∈ m'.keys) (distinct : (m'.keys.map KeyEntry.kid).Nodup)
    (header_back : json.ReadsBack (JwkManager.jwtHeader e.kid))
    (payload_back : json.ReadsBack payload) :
    m'.verifyJwt json rs256 (m.signJwt json rs256 payload) issuer now audience = .ok .ok ↔
      ClaimsPass json payload issuer now audience := by
  obtain ⟨t, header, same, valid⟩ :=
    exists_token_of_signed correct active signed header_back payload_back
  constructor
  · intro accepted
    obtain ⟨t', -, -, -, -, passes⟩ := exists_token_of_accepted accepted
    rw [t'.eq t, same] at passes
    exact passes
  · intro passes
    refine verifyJwt_eq_ok.mpr ⟨t.payload, verifyCore_eq_ok.mpr
      ⟨⟨ready, List.ne_nil_of_mem held⟩, _, _, _, t.header, if e.kid = "" then none else some e,
        t.signature, t.segments, ⟨_, base64UrlDecode_encode _, t.header_eq⟩, ?_, ?_,
        base64UrlDecode_encode _, ?_, ⟨_, base64UrlDecode_encode _, t.payload_eq⟩, ?_⟩⟩
    · rw [header]
      rfl
    · rw [header]
      exact routes_jwtHeader (findEntry_of_mem held distinct)
    · split
      · exact List.any_eq_true.mpr ⟨e, held, valid⟩
      · exact valid
    · rw [same]
      exact passes

end Signed

/-- A text that is accepted is one that should be, exactly if its `kid` could be used and its
`nbf` is no fraction that was cut; a signed token with the right claims is accepted by
every manager that still holds its key, exactly if its times convert. -/
theorem verifyJwt_exact {Pkey : Type} (json : JsonCpp) (rs256 : Rs256 Pkey) :
    (∀ (m : JwkManager Pkey) (jwt issuer : String) (now : Int64) (audience : String),
      m.verifyJwt json rs256 jwt issuer now audience = .ok .ok →
        (Acceptable json rs256 m jwt issuer now audience ↔
          ∀ t : Token json jwt, KidRegular rs256 m t ∧ NbfRegular t.payload now)) ∧
    ∀ (m m' : JwkManager Pkey) (e : KeyEntry Pkey) (payload : JsonValue) (issuer : String)
      (now : Int64) (audience : String), rs256.Correct → m.activeEntry = some e →
        m.signJwt json rs256 payload ≠ "" → m'.initialized = true → e ∈ m'.keys →
        (m'.keys.map KeyEntry.kid).Nodup → json.ReadsBack (JwkManager.jwtHeader e.kid) →
        json.ReadsBack payload → Claims payload issuer now audience →
          (m'.verifyJwt json rs256 (m.signJwt json rs256 payload) issuer now audience = .ok .ok ↔
            Converts json payload now) := by
  refine ⟨fun m jwt issuer now audience accepted => acceptable_iff accepted, ?_⟩
  intro m m' e payload issuer now audience correct active signed ready held distinct header_back
    payload_back claims
  rw [← claimsPass_iff claims]
  exact signed_accepted_iff_passes correct active signed ready held distinct
    header_back payload_back

/-! ## A sample -/

namespace Sample

def ascii (text : String) : List UInt8 :=
  text.toList.map fun c => UInt8.ofNat c.toNat

/-- The header of the sample tokens. -/
def headerText : List UInt8 :=
  ascii r#"{"alg":"RS256","kid":"k1","typ":"JWT"}"#

/-- The claims of a token that is valid from second `nbf` to second 200. -/
def claims (nbf : JsonValue) : JsonValue :=
  .obj [("exp", .int 200), ("iss", .str "https://id.example"), ("nbf", nbf), ("sub", .str "u1")]

/-- Their payload, with an `nbf` written as it comes. -/
def payloadText (nbf : String) : List UInt8 :=
  ascii (r#"{"exp":200,"iss":"https://id.example","nbf":"# ++ nbf ++
    r#","sub":"u1"}"#)

/-- jsoncpp on the header and on the claims with the given `nbf`. -/
def json (nbf : JsonValue) (text : String) : JsonCpp where
  parse bytes :=
    if bytes = headerText then .ok (some (JwkManager.jwtHeader "k1"))
    else if bytes = payloadText text then .ok (some (claims nbf))
    else .ok none
  write v := if (v.text? "alg").isSome then headerText else payloadText text
  edge := Int64.minValue

/-- A signature that is one byte. -/
def rs256 : Rs256 Unit where
  sign _ _ := some [7]
  verify _ _ signature := signature == [7]

/-- A manager with one key. -/
def manager : JwkManager Unit where
  keys := [{ kid := "k1", pkey := () }]
  activeKid := "k1"
  initialized := true

/-- The one byte is a correct signature scheme. -/
theorem rs256_correct : rs256.Correct := by
  intro pkey input signature made
  cases made
  exact ⟨by decide, rfl⟩

section Texts

variable {nbf : JsonValue} {text : String}

theorem header_back : (json nbf text).ReadsBack (JwkManager.jwtHeader "k1") := by
  constructor
  · change headerText ≠ []
    decide
  · change (json nbf text).parse headerText = _
    simp only [json, if_true]

theorem claims_back (differs : payloadText text ≠ headerText) :
    (json nbf text).ReadsBack (claims nbf) := by
  constructor
  · change ascii _ ≠ []
    simp [ascii]
  · exact (if_neg differs).trans (if_pos rfl)

/-- The sample manager signs. -/
theorem signed : manager.signJwt (json nbf text) rs256 (claims nbf) ≠ "" := by
  intro empty
  have length := congrArg (fun s : String => s.toList.length) empty
  simp [JwkManager.signJwt, JwkManager.activeEntry, JwkManager.findEntry, manager, rs256,
    String.toList_append] at length

end Texts

end Sample

/-- A token with `nbf` 90 is accepted in second 100. -/
theorem verifyJwt_exact_signed :
    let json := Sample.json (.int 90) "90"
    let token := Sample.manager.signJwt json Sample.rs256 (Sample.claims (.int 90))
    Sample.manager.verifyJwt json Sample.rs256 token "https://id.example" 100 = .ok .ok ∧
      Acceptable json Sample.rs256 Sample.manager token "https://id.example" 100 "" := by
  intro json token
  obtain ⟨sound, complete⟩ := verifyJwt_exact json Sample.rs256
  have back : json.ReadsBack (Sample.claims (.int 90)) := Sample.claims_back (by decide)
  have claims : Claims (Sample.claims (.int 90)) "https://id.example" 100 "" := by
    refine ⟨rfl, .inl rfl, ⟨.int 200, _, rfl, rfl, by decide⟩, fun v found => ?_,
      ⟨"u1", rfl, by decide⟩⟩
    cases found
    exact ⟨_, rfl, by decide⟩
  have converts : Converts json (Sample.claims (.int 90)) 100 := by
    refine ⟨fun v found => ?_, fun v found => ?_⟩
    · cases found
      exact ⟨_, rfl, by decide⟩
    · cases found
      exact ⟨_, rfl⟩
  have accepted := (complete Sample.manager Sample.manager _ _ _ 100 "" Sample.rs256_correct rfl
    Sample.signed rfl List.mem_cons_self (by decide) Sample.header_back back claims).mpr converts
  refine ⟨accepted, (sound _ _ _ _ _ accepted).mpr fun t => ?_⟩
  obtain ⟨t', header, payload, -⟩ := exists_token_of_signed (m := Sample.manager)
    Sample.rs256_correct rfl Sample.signed Sample.header_back back
  rw [t.eq t']
  refine ⟨.inr ⟨"k1", ?_, .inl (by decide)⟩, fun q found => ?_⟩
  · rw [header]
    rfl
  · rw [payload] at found
    cases found

/-- In second 100 a token is accepted that is valid from the middle of that second on. -/
theorem accepted_before_nbf :
    let json := Sample.json (.real (201 / 2)) "100.5"
    let token := Sample.manager.signJwt json Sample.rs256 (Sample.claims (.real (201 / 2)))
    Sample.manager.verifyJwt json Sample.rs256 token "https://id.example" 100 = .ok .ok ∧
      ¬ Acceptable json Sample.rs256 Sample.manager token "https://id.example" 100 "" := by
  intro json token
  have back : json.ReadsBack (Sample.claims (.real (201 / 2))) :=
    Sample.claims_back (by decide)
  have passes : ClaimsPass json (Sample.claims (.real (201 / 2))) "https://id.example" 100 "" := by
    refine ⟨rfl, ⟨.int 200, 200, rfl, rfl, rfl, by decide⟩, fun v found => ?_,
      ⟨"u1", rfl, by decide⟩, .inl rfl⟩
    cases found
    exact ⟨rfl, 100, by decide +kernel, by decide⟩
  have accepted :
      Sample.manager.verifyJwt json Sample.rs256 token "https://id.example" 100 = .ok .ok :=
    (signed_accepted_iff_passes Sample.rs256_correct rfl Sample.signed rfl List.mem_cons_self
      (by decide) Sample.header_back back).mpr passes
  obtain ⟨t, -, payload, -⟩ := exists_token_of_signed (m := Sample.manager)
    Sample.rs256_correct rfl Sample.signed Sample.header_back back
  refine ⟨accepted, fun acceptable => ?_⟩
  obtain ⟨-, regular⟩ := (acceptable_iff accepted).mp acceptable t
  rw [payload] at regular
  exact (regular (201 / 2) rfl).1 (by decide +kernel)

end Fulla.Jwk
