import Fulla.Protocol.CustomAttributes
import Std.Data.String.ToInt

/-!
# Where a mapped claim gets its value

`resolveClaimSourceValue` of `ClaimMappingValidator.cc` and its copy in `TokenService.cc`
read the attribute a source path addresses and write a scalar as text.  A number counts as
integral up to `2^64`, and every integral number is converted to `int64_t`: from `2^63` on
the conversion throws.
-/

namespace Fulla

open Conc Jwk

/-! ## Numbers as text -/

theorem roundHalfEven_intCast (n : Int) : roundHalfEven n = n := by
  simp [roundHalfEven, Rat.floor_intCast]

theorem toString_natAbs (n : Int) :
    (if n < 0 then "-" else "") ++ toString n.natAbs = toString n := by
  cases n with
  | ofNat k => simp [toString, Int.repr]
  | negSucc k => simp [toString, Int.repr, Int.negSucc_lt_zero]

/-- An integer is printed with its digits and six zeros. -/
theorem toFixed_intCast (n : Int) : toFixed n = toString n ++ ".000000" := by
  have sign : (n : Rat) < 0 ↔ n < 0 := by
    exact_mod_cast Iff.rfl
  have magnitude : (if (n : Rat) < 0 then -(n : Rat) else n) * 1000000 =
      ((n.natAbs * 1000000 : Nat) : Int) := by
    rw [if_congr sign rfl rfl]
    split
    · next negative =>
        have abs : ((n.natAbs : Int) : Rat) = -n := by
          rw [Int.ofNat_natAbs_of_nonpos (Int.le_of_lt negative), Int.cast_neg]
        rw [← abs]
        push_cast
        rfl
    · next positive =>
        have abs : ((n.natAbs : Int) : Rat) = n := by
          rw [Int.natAbs_of_nonneg (Int.not_lt.mp positive)]
        rw [← abs]
        push_cast
        rfl
  have zeros : String.ofList ((Nat.toDigits 10 0).leftpad 6 '0') = "000000" := by
    decide
  unfold toFixed
  rw [magnitude, roundHalfEven_intCast, Int.toNat_natCast]
  simp only [Nat.mul_div_cancel _ (show 0 < 1000000 by decide), Nat.mul_mod_left, zeros, sign]
  rw [toString_natAbs, String.append_assoc]
  rfl

/-- The two ways an integer is printed are never mixed up. -/
theorem toString_ne_fixed (m n : Int) : toString m ≠ toString n ++ ".000000" := by
  intro same
  have point : '.' ∈ (toString m).toList := by
    simp [same]
  exact notMem_toString (by decide) (by decide) m point

/-! ## The two resolvers -/

namespace ClaimMappingValidator

/-- The value to publish, if there is one; an exception leaves the function. -/
def resolveClaimSourceValue (json : JsonCpp) (sourcePath : String) (userJson : List UInt8) :
    Except String (Option String) := do
  match ← json.parse userJson with
  | some (.obj root) =>
    let node : Option JsonValue :=
      if sourcePath = "user.display_name" then some ((root.lookup "display_name").getD .null)
      else
        match afterText "custom_attributes." sourcePath with
        | none => none
        | some key =>
          match root.lookup "custom_attributes" with
          | some (.obj attrs) => attrs.lookup key
          | _ => none
    match node with
    | none => return none
    | some (.str s) => return if s = "" then none else some s
    | some node =>
      if node.isIntegral then return some (toString (← node.asInt64 json))
      else
        match node with
        | .real q => return some (toFixed q)
        | .bool b => return some (if b then "true" else "false")
        | _ => return none
  | _ => return none

end ClaimMappingValidator


/-! ## What is published -/

namespace Jwk.JsonValue

/-- The number, if it is an integer. -/
def integer? : JsonValue → Option Int
  | int n => some n.toInt
  | uint n => some n.toNat
  | real q => if q.isInt then some q.num else none
  | _ => none

/-- A non-empty string, a number or a boolean. -/
def Publishable : JsonValue → Prop
  | str s => s ≠ ""
  | int _ => True
  | uint _ => True
  | real _ => True
  | bool _ => True
  | _ => False

end Jwk.JsonValue

namespace ClaimSources

/-- What both resolvers make of the value they have found. -/
def published (json : JsonCpp) : JsonValue → Except String (Option String)
  | .str s => .ok (if s = "" then none else some s)
  | node =>
    if node.isIntegral then (fun n => some (toString n)) <$> node.asInt64 json
    else
      match node with
      | .real q => .ok (some (toFixed q))
      | .bool b => .ok (some (if b then "true" else "false"))
      | _ => .ok none

section Published

variable {json : JsonCpp} {v : JsonValue} {n : Int}

/-- What is no integer is published, or not, without an exception. -/
theorem published_of_none (other : v.integer? = none) :
    ∃ out, published json v = .ok out ∧ (out.isSome = true ↔ v.Publishable) := by
  cases v with
  | int n => cases other
  | uint n => cases other
  | str s =>
      refine ⟨_, rfl, ?_⟩
      by_cases empty : s = "" <;> simp [empty, JsonValue.Publishable]
  | real q =>
      have broken : q.isInt = false := by
        by_contra whole
        simp [JsonValue.integer?, whole] at other
      refine ⟨some (toFixed q), ?_, by simp [JsonValue.Publishable]⟩
      simp [published, JsonValue.isIntegral, broken]
  | bool b => exact ⟨_, rfl, by simp [JsonValue.Publishable]⟩
  | null => exact ⟨none, rfl, by simp [JsonValue.Publishable]⟩
  | arr elements => exact ⟨none, rfl, by simp [JsonValue.Publishable]⟩
  | obj members => exact ⟨none, rfl, by simp [JsonValue.Publishable]⟩

theorem published_integral (integral : v.isIntegral = true) :
    published json v = (fun n => some (toString n)) <$> v.asInt64 json := by
  cases v with
  | str s => cases integral
  | _ => simp only [published, integral, if_true]

theorem publishable_of_integer (whole : v.integer? = some n) : v.Publishable := by
  cases v with
  | int _ => trivial
  | uint _ => trivial
  | real _ => trivial
  | _ => cases whole

theorem eq_of_real {q : Rat} (whole : (JsonValue.real q).integer? = some n) :
    q.isInt = true ∧ q = n := by
  rw [JsonValue.integer?] at whole
  split at whole
  · next isInt =>
      cases whole
      exact ⟨isInt, Rat.eq_num_of_isInt isInt⟩
  · cases whole

theorem truncate_intCast (n : Int) : JsonValue.truncate n = n := by
  simp [JsonValue.truncate, Rat.floor_intCast, Rat.ceil_intCast]

theorem isIntegral_real {q : Rat} (isInt : q.isInt = true) (low : -2 ^ 63 ≤ q) (high : q < 2 ^ 64) :
    (JsonValue.real q).isIntegral = true := by
  simp [JsonValue.isIntegral, isInt, low, high]

/-- An integer that fits is published with its digits. -/
theorem published_of_fits (whole : v.integer? = some n) (low : -2 ^ 63 ≤ n) (high : n < 2 ^ 63) :
    published json v = .ok (some (toString n)) := by
  cases v with
  | int m =>
      cases whole
      rfl
  | uint m =>
      cases whole
      have small : m.toNat < 2 ^ 63 := by exact_mod_cast high
      have converted : (JsonValue.uint m).asInt64 json = .ok m.toNat := if_pos small
      rw [published_integral rfl, converted]
      rfl
  | real q =>
      obtain ⟨isInt, rfl⟩ := eq_of_real whole
      have low' : (-2 ^ 63 : Rat) ≤ n := by exact_mod_cast low
      have high' : (n : Rat) < 2 ^ 63 := by exact_mod_cast high
      have integral := isIntegral_real isInt low' (high'.trans (by norm_num))
      rw [published_integral integral, JsonValue.asInt64, if_pos ⟨low', le_of_lt high'⟩,
        if_neg (ne_of_lt high'), truncate_intCast]
      rfl
  | _ => cases whole

/-- An integer that does not fit and counts as integral is not published, or as what the
conversion of `2^63` stores. -/
theorem published_of_large (whole : v.integer? = some n) (low : 2 ^ 63 ≤ n) (high : n < 2 ^ 64)
    {text : String} (answered : published json v = .ok (some text)) :
    ∃ z : Int64, text = toString z.toInt := by
  cases v with
  | int m =>
      cases whole
      exact absurd m.toInt_lt (by omega)
  | uint m =>
      cases whole
      have large : ¬ m.toNat < 2 ^ 63 := by
        have bound : 2 ^ 63 ≤ m.toNat := by exact_mod_cast low
        omega
      have raised : (JsonValue.uint m).asInt64 json = .error "LargestUInt out of Int64 range" :=
        if_neg large
      rw [published_integral rfl, raised] at answered
      cases answered
  | real q =>
      obtain ⟨isInt, rfl⟩ := eq_of_real whole
      have low' : (2 ^ 63 : Rat) ≤ n := by exact_mod_cast low
      have high' : (n : Rat) < 2 ^ 64 := by exact_mod_cast high
      have integral := isIntegral_real isInt (le_trans (by norm_num) low') high'
      rw [published_integral integral, JsonValue.asInt64] at answered
      split at answered
      · next fits =>
          rw [if_pos (le_antisymm fits.2 low')] at answered
          cases answered
          exact ⟨_, rfl⟩
      · cases answered
  | _ => cases whole

/-- Beyond the range in which it counts as integral an integer is printed as a `double`. -/
theorem published_of_beyond (whole : v.integer? = some n) (beyond : n < -2 ^ 63 ∨ 2 ^ 64 ≤ n) :
    published json v = .ok (some (toString n ++ ".000000")) := by
  cases v with
  | int m =>
      cases whole
      have bounds := And.intro m.le_toInt m.toInt_lt
      omega
  | uint m =>
      cases whole
      have bound := m.toNat_lt
      omega
  | real q =>
      obtain ⟨isInt, rfl⟩ := eq_of_real whole
      have outside : (JsonValue.real n).isIntegral = false := by
        have apart : ¬ ((-2 ^ 63 : Rat) ≤ n ∧ (n : Rat) < 2 ^ 64) := by
          intro inside
          have low : -2 ^ 63 ≤ n := by exact_mod_cast inside.1
          have high : n < 2 ^ 64 := by exact_mod_cast inside.2
          omega
        rw [JsonValue.isIntegral, Bool.and_eq_false_iff]
        refine .inl ?_
        simpa using apart
      have fixed : published json (.real n) = .ok (some (toFixed n)) :=
        if_neg (by simp [outside])
      rw [fixed, toFixed_intCast]
  | _ => cases whole

end Published

/-! ## Addresses -/

section Addresses

variable (json : JsonCpp) (sourcePath : String) (userJson : List UInt8)

/-- The source path addresses the value in the user document. -/
def Addressed (v : JsonValue) : Prop :=
  ∃ root, json.parse userJson = .ok (some (.obj root)) ∧
    ((sourcePath = "user.display_name" ∧ root.lookup "display_name" = some v) ∨
      ∃ key attrs, sourcePath = "custom_attributes." ++ key ∧
        root.lookup "custom_attributes" = some (.obj attrs) ∧ attrs.lookup key = some v)

/-- The two copies are the same function. -/
theorem resolvers_agree :
    TokenService.resolveClaimSourceValueImpl json sourcePath userJson =
      ClaimMappingValidator.resolveClaimSourceValue json sourcePath userJson :=
  rfl

variable {json sourcePath userJson}

theorem display_name_ne (key : String) : "user.display_name" ≠ "custom_attributes." ++ key := by
  intro same
  have first := congrArg (fun s => s.toList.head?) same
  simp [String.toList_append] at first

theorem resolve_raises {what : String} (raised : json.parse userJson = .error what) :
    ClaimMappingValidator.resolveClaimSourceValue json sourcePath userJson = .error what := by
  rw [ClaimMappingValidator.resolveClaimSourceValue, raised]
  rfl

theorem resolve_addressed {v : JsonValue} (found : Addressed json sourcePath userJson v) :
    ClaimMappingValidator.resolveClaimSourceValue json sourcePath userJson = published json v := by
  obtain ⟨root, parsed, ⟨rfl, named⟩ | ⟨key, attrs, rfl, object, named⟩⟩ := found
  · rw [ClaimMappingValidator.resolveClaimSourceValue, parsed]
    simp only [bind, Except.bind, if_true, named, Option.getD_some]
    cases v <;> rfl
  · rw [ClaimMappingValidator.resolveClaimSourceValue, parsed]
    simp only [bind, Except.bind, if_neg (display_name_ne key).symm, afterText_append, object,
      named]
    cases v <;> rfl

theorem resolve_unaddressed {root : Option JsonValue} (parsed : json.parse userJson = .ok root)
    (unaddressed : ∀ v, ¬ Addressed json sourcePath userJson v) :
    ClaimMappingValidator.resolveClaimSourceValue json sourcePath userJson = .ok none := by
  rw [ClaimMappingValidator.resolveClaimSourceValue, parsed]
  rcases root with _ | root
  · rfl
  cases root with
  | obj root =>
      simp only [bind, Except.bind]
      by_cases display : sourcePath = "user.display_name"
      · cases named : root.lookup "display_name" with
        | none =>
            rw [if_pos display]
            rfl
        | some v => exact absurd ⟨root, parsed, .inl ⟨display, named⟩⟩ (unaddressed v)
      · rw [if_neg display]
        cases after : afterText "custom_attributes." sourcePath with
        | none => rfl
        | some key =>
            obtain rfl := eq_of_afterText after
            dsimp only
            rcases object : root.lookup "custom_attributes" with _ | attrs
            · rfl
            cases attrs with
            | obj attrs =>
                cases named : attrs.lookup key with
                | none =>
                    dsimp only
                    rw [named]
                    rfl
                | some v =>
                    exact absurd ⟨root, parsed, .inr ⟨key, attrs, rfl, object, named⟩⟩
                      (unaddressed v)
            | _ => rfl
  | _ => rfl

theorem addressed_unique {v v' : JsonValue} (found : Addressed json sourcePath userJson v)
    (found' : Addressed json sourcePath userJson v') : v = v' := by
  obtain ⟨root, parsed, ⟨rfl, named⟩ | ⟨key, attrs, rfl, object, named⟩⟩ := found
  · obtain ⟨root', parsed', ⟨-, named'⟩ | ⟨key', _, same, -⟩⟩ := found'
    · cases parsed.symm.trans parsed'
      exact Option.some.inj (named.symm.trans named')
    · exact absurd same (display_name_ne key')
  · obtain ⟨root', parsed', ⟨same, -⟩ | ⟨key', attrs', same, object', named'⟩⟩ := found'
    · exact absurd same.symm (display_name_ne key)
    · cases parsed.symm.trans parsed'
      cases object.symm.trans object'
      have keys : some key' = some key := by
        rw [← afterText_append "custom_attributes." key', ← same, afterText_append]
      cases keys
      exact Option.some.inj (named.symm.trans named')

end Addresses

/-! ## Resolving without failing -/

section Resolves

variable (json : JsonCpp) (sourcePath : String) (userJson : List UInt8)

/-- Both copies return, with the same answer: a value just for a non-empty string, a number
or a boolean, and for an integer a text that `Shows` it. -/
def Resolves (Shows : Int → String → Prop) : Prop :=
  ∃ out, ClaimMappingValidator.resolveClaimSourceValue json sourcePath userJson = .ok out ∧
    TokenService.resolveClaimSourceValueImpl json sourcePath userJson = .ok out ∧
    (out.isSome = true ↔ ∃ v, Addressed json sourcePath userJson v ∧ v.Publishable) ∧
    ∀ v n, Addressed json sourcePath userJson v → v.integer? = some n →
      ∃ text, out = some text ∧ Shows n text

/-- The decimal digits of the integer. -/
def Digits (n : Int) (text : String) : Prop :=
  text = toString n

/-- A decimal numeral of the integer: its digits, or these with a fraction of zeros. -/
def Numeral (n : Int) (text : String) : Prop :=
  text = toString n ∨ text = toString n ++ ".000000"

/-- The parser gives up on the user document, which nests too deep. -/
def ParserRaises : Prop :=
  ∃ what, json.parse userJson = .error what

/-- The attribute is an integer with the property. -/
def AddressesInteger (P : Int → Prop) : Prop :=
  ∃ v n, Addressed json sourcePath userJson v ∧ v.integer? = some n ∧ P n

variable {json sourcePath userJson}

/-- All that can go wrong is the parser and how an integer is published. -/
theorem resolves_iff {Shows : Int → String → Prop} :
    Resolves json sourcePath userJson Shows ↔
      ¬ ParserRaises json userJson ∧
        ∀ v n, Addressed json sourcePath userJson v → v.integer? = some n →
          ∃ text, published json v = .ok (some text) ∧ Shows n text := by
  constructor
  · rintro ⟨out, answered, -, -, shown⟩
    constructor
    · rintro ⟨what, raised⟩
      cases (resolve_raises raised).symm.trans answered
    · intro v n found whole
      obtain ⟨text, rfl, shows_⟩ := shown v n found whole
      exact ⟨text, (resolve_addressed found).symm.trans answered, shows_⟩
  · rintro ⟨parses, shown⟩
    cases parsed : json.parse userJson with
    | error what => exact absurd ⟨what, parsed⟩ parses
    | ok root =>
        by_cases addressed : ∃ v, Addressed json sourcePath userJson v
        · obtain ⟨v, found⟩ := addressed
          have unique : ∀ v', Addressed json sourcePath userJson v' → v' = v :=
            fun v' found' => addressed_unique found' found
          cases whole : v.integer? with
          | none =>
              obtain ⟨out, answered, publishable⟩ := @published_of_none json v whole
              have resolved := (resolve_addressed found).trans answered
              refine ⟨out, resolved, resolved, publishable.trans ⟨?_, ?_⟩, ?_⟩
              · exact fun fits => ⟨v, found, fits⟩
              · rintro ⟨v', found', fits⟩
                exact unique v' found' ▸ fits
              · intro v' n found' whole'
                cases unique v' found'
                cases whole.symm.trans whole'
          | some n =>
              obtain ⟨text, answered, shows_⟩ := shown v n found whole
              have resolved := (resolve_addressed found).trans answered
              refine ⟨some text, resolved, resolved,
                iff_of_true rfl ⟨v, found, publishable_of_integer whole⟩, ?_⟩
              intro v' n' found' whole'
              cases unique v' found'
              cases whole.symm.trans whole'
              exact ⟨text, rfl, shows_⟩
        · have unaddressed : ∀ v, ¬ Addressed json sourcePath userJson v :=
            fun v found => addressed ⟨v, found⟩
          have resolved := resolve_unaddressed parsed unaddressed
          refine ⟨none, resolved, resolved, iff_of_false (by simp) ?_, ?_⟩
          · rintro ⟨v, found, -⟩
            exact unaddressed v found
          · intro v n found
            exact absurd found (unaddressed v)

section Shown

variable {v : JsonValue} {n : Int}

theorem digits_iff (whole : v.integer? = some n) :
    (∃ text, published json v = .ok (some text) ∧ Digits n text) ↔ -2 ^ 63 ≤ n ∧ n < 2 ^ 63 := by
  constructor
  · rintro ⟨text, answered, rfl⟩
    by_contra outside
    by_cases large : 2 ^ 63 ≤ n ∧ n < 2 ^ 64
    · obtain ⟨z, same⟩ := published_of_large whole large.1 large.2 answered
      have small := z.toInt_lt
      cases Int.repr_injective same
      omega
    · have fixed := answered.symm.trans (published_of_beyond whole (by omega))
      exact toString_ne_fixed _ _ (Option.some.inj (Except.ok.inj fixed))
  · rintro ⟨low, high⟩
    exact ⟨_, published_of_fits whole low high, rfl⟩

theorem numeral_iff (whole : v.integer? = some n) :
    (∃ text, published json v = .ok (some text) ∧ Numeral n text) ↔
      ¬ (2 ^ 63 ≤ n ∧ n < 2 ^ 64) := by
  constructor
  · rintro ⟨text, answered, shown⟩ ⟨low, high⟩
    obtain ⟨z, rfl⟩ := published_of_large whole low high answered
    have small := z.toInt_lt
    rcases shown with digits | fixed
    · cases Int.repr_injective digits
      omega
    · exact toString_ne_fixed _ _ fixed
  · intro apart
    by_cases fits : -2 ^ 63 ≤ n ∧ n < 2 ^ 63
    · exact ⟨_, published_of_fits whole fits.1 fits.2, .inl rfl⟩
    · exact ⟨_, published_of_beyond whole (by omega), .inr rfl⟩

end Shown

end Resolves

/-- Every user document resolves that the parser can take, unless the attribute is an integer
outside the range of `int64_t`; of these the ones from `2^64` on or below `-2^63` are still
published, with a fraction of zeros. -/
theorem claim_values_resolve_iff (json : JsonCpp) (sourcePath : String) (userJson : List UInt8) :
    (Resolves json sourcePath userJson Digits ↔
      ¬ ParserRaises json userJson ∧
        ¬ AddressesInteger json sourcePath userJson fun n => ¬ (-2 ^ 63 ≤ n ∧ n < 2 ^ 63)) ∧
    (Resolves json sourcePath userJson Numeral ↔
      ¬ ParserRaises json userJson ∧
        ¬ AddressesInteger json sourcePath userJson fun n => 2 ^ 63 ≤ n ∧ n < 2 ^ 64) := by
  rw [resolves_iff, resolves_iff]
  constructor
  · refine and_congr Iff.rfl ⟨?_, ?_⟩
    · rintro shown ⟨v, n, found, whole, outside⟩
      exact outside ((digits_iff whole).mp (shown v n found whole))
    · intro none v n found whole
      refine (digits_iff whole).mpr ?_
      by_contra outside
      exact none ⟨v, n, found, whole, outside⟩
  · refine and_congr Iff.rfl ⟨?_, ?_⟩
    · rintro shown ⟨v, n, found, whole, large⟩
      exact (numeral_iff whole).mp (shown v n found whole) large
    · intro none v n found whole
      exact (numeral_iff whole).mpr fun large => none ⟨v, n, found, whole, large⟩

/-- The text of an attribute document whose member `n` is `2^64 - 1`. -/
def attributesText : List UInt8 :=
  [123, 34, 110, 34, 58] ++ "18446744073709551615".toUTF8.toList ++ [125]

/-- The user document around it. -/
def userText : List UInt8 :=
  [123] ++ "\"custom_attributes\":".toUTF8.toList ++ attributesText ++ [125]

/-- The greatest `UInt64` as an attribute. -/
def maximum : JsonCpp where
  parse text :=
    .ok (if text = attributesText then some (.obj [("n", .uint 18446744073709551615)])
      else if text = userText then
        some (.obj [("custom_attributes", .obj [("n", .uint 18446744073709551615)])])
      else none)
  write _ := userText
  edge := Int64.minValue

/-- Path and attributes are accepted, and the resolvers throw. -/
theorem large_attribute_throws :
    ClaimMappingValidator.validateClaimMapping "profile" "number" "custom_attributes.n" "both" =
        "" ∧
      ClaimMappingValidator.validateCustomAttributes maximum attributesText = .ok "" ∧
      ClaimMappingValidator.resolveClaimSourceValue maximum "custom_attributes.n" userText =
        .error "LargestUInt out of Int64 range" ∧
      ¬ Resolves maximum "custom_attributes.n" userText Digits ∧
      ¬ Resolves maximum "custom_attributes.n" userText Numeral := by
  have raised : ClaimMappingValidator.resolveClaimSourceValue maximum "custom_attributes.n"
      userText = .error "LargestUInt out of Int64 range" := by
    decide +kernel
  refine ⟨by decide +kernel, by decide +kernel, raised, ?_, ?_⟩
  · rintro ⟨out, answered, -⟩
    cases raised.symm.trans answered
  · rintro ⟨out, answered, -⟩
    cases raised.symm.trans answered

end ClaimSources

end Fulla
