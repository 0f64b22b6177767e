import Fulla.Protocol.ClaimMappings

/-!
# Custom attribute documents

`validateCustomAttributes` of `ClaimMappingValidator.cc`: a JSON object of at most 8 KiB,
no value deeper than two, and no key outside the grammar or with a meaning to prototypes.
Depth and keys are checked by two recursions.  The one over the keys goes into arrays, the
one over the depth stops at them: what arrays hold may lie at any depth.
-/

namespace Fulla

open Conc Jwk

/-! ## The values of a document -/

namespace Jwk.JsonValue

/-- `Lies arrays v d x`: the value `x` is `d` containers below `v`.  Objects count as
containers, arrays if `arrays` says so. -/
inductive Lies (arrays : Bool) : JsonValue → Nat → JsonValue → Prop where
  | here (v : JsonValue) : Lies arrays v 0 v
  | member {members : List (String × JsonValue)} {k : String} {v x : JsonValue} {d : Nat} :
    (k, v) ∈ members → Lies arrays v d x → Lies arrays (.obj members) (d + 1) x
  | element {elements : List JsonValue} {v x : JsonValue} {d : Nat} :
    arrays = true → v ∈ elements → Lies arrays v d x → Lies arrays (.arr elements) (d + 1) x

/-- What lies below an object without counting arrays lies there when they count. -/
theorem Lies.counted {v x : JsonValue} {d : Nat} (lies : Lies false v d x) : Lies true v d x := by
  induction lies with
  | here v => exact .here v
  | member named _ ih => exact .member named ih
  | element counted => cases counted

theorem forall_members_cons {P : String → JsonValue → Prop} {k : String} {v : JsonValue}
    {members : List (String × JsonValue)} :
    (∀ k' v', (k', v') ∈ (k, v) :: members → P k' v') ↔
      P k v ∧ ∀ k' v', (k', v') ∈ members → P k' v' := by
  constructor
  · exact fun all =>
      ⟨all k v List.mem_cons_self, fun k' v' later => all k' v' (List.mem_cons_of_mem _ later)⟩
  · intro all k' v' named
    rcases List.mem_cons.mp named with same | later
    · cases same
      exact all.1
    · exact all.2 k' v' later

/-- Nothing below a value lies deeper than `n`, where the value itself lies at `depth`. -/
def Within (arrays : Bool) (n depth : Nat) (v : JsonValue) : Prop :=
  ∀ d x, Lies arrays v d x → depth + d ≤ n

section Within

variable {arrays : Bool} {n depth : Nat} {v : JsonValue}

theorem Within.self (within : Within arrays n depth v) : depth ≤ n :=
  within 0 v (.here v)

theorem within_obj {members : List (String × JsonValue)} :
    Within arrays n depth (.obj members) ↔
      depth ≤ n ∧ ∀ k v, (k, v) ∈ members → Within arrays n (depth + 1) v := by
  constructor
  · intro within
    refine ⟨within.self, fun k v named d x lies => ?_⟩
    have deeper := within _ x (.member named lies)
    omega
  · rintro ⟨self, members⟩ d x lies
    cases lies with
    | here => exact self
    | member named lies =>
        have deeper := members _ _ named _ x lies
        omega

/-- Where arrays do not count, only an object has anything below it. -/
theorem within_leaf (leaf : ∀ members, v ≠ .obj members) :
    Within false n depth v ↔ depth ≤ n := by
  refine ⟨Within.self, fun self d x lies => ?_⟩
  cases lies with
  | here => exact self
  | member named => exact absurd rfl (leaf _)
  | element counted => cases counted

end Within

end Jwk.JsonValue

namespace ClaimMappingValidator

/-! ## The checks -/

mutual

/-- Answers whether to go on, and the greatest depth seen so far. -/
def nodeDepthOk : JsonValue → Nat → Nat → Bool × Nat
  | .obj members, depth, maxSeen =>
    let seen := membersDepthOk members (depth + 1) (max maxSeen depth)
    (seen.1 && seen.2 ≤ 2, seen.2)
  | _, depth, maxSeen => (max maxSeen depth ≤ 2, max maxSeen depth)

/-- The depth check over the members of an object. -/
def membersDepthOk : List (String × JsonValue) → Nat → Nat → Bool × Nat
  | [], _, maxSeen => (true, maxSeen)
  | (_, v) :: members, depth, maxSeen =>
    let seen := nodeDepthOk v depth maxSeen
    if seen.1 then membersDepthOk members depth seen.2 else (false, seen.2)

end

/-- The key is one of those that change a JavaScript prototype. -/
def pollutes (k : String) : Bool :=
  k = "__proto__" || k = "constructor" || k = "prototype"

mutual

/-- The key check over a value. -/
def keysOk : JsonValue → Bool
  | .obj members => membersKeysOk members
  | .arr elements => elementsKeysOk elements
  | _ => true

/-- The key check over the members of an object. -/
def membersKeysOk : List (String × JsonValue) → Bool
  | [] => true
  | (k, v) :: members =>
    if pollutes k then false
    else if matchesKey k = false then false
    else if keysOk v = false then false
    else membersKeysOk members

/-- The key check over the elements of an array. -/
def elementsKeysOk : List JsonValue → Bool
  | [] => true
  | e :: elements => if keysOk e = false then false else elementsKeysOk elements

end

/-- The checks of what the parser has answered. -/
def checkRoot : Option JsonValue → String
  | some (.obj members) =>
    if (nodeDepthOk (.obj members) 0 0).1 = false then "custom attributes depth must be <= 2"
    else if keysOk (.obj members) = false then
      "custom attribute keys must match ^[a-z][a-z0-9_]{0,63}$ and must " ++
        "not be __proto__/constructor/prototype"
    else ""
  | _ => "custom attributes must be a JSON object"

/-- The empty answer accepts; an exception of the parser leaves the function. -/
def validateCustomAttributes (json : JsonCpp) (jsonDocument : List UInt8) : Except String String :=
  if jsonDocument.length > 8192 then .ok "custom attributes exceed the 8 KiB limit"
  else checkRoot <$> json.parse jsonDocument

/-! ## The depth -/

section Depth

variable {depth maxSeen : Nat}

theorem nodeDepthOk_leaf {v : JsonValue} (leaf : ∀ members, v ≠ .obj members) :
    nodeDepthOk v depth maxSeen = (decide (max maxSeen depth ≤ 2), max maxSeen depth) := by
  cases v with
  | obj members => exact absurd rfl (leaf members)
  | _ => rfl

theorem leaf_correct {v : JsonValue} (leaf : ∀ members, v ≠ .obj members) :
    ((nodeDepthOk v depth maxSeen).1 = true ↔ maxSeen ≤ 2 ∧ v.Within false 2 depth) ∧
      ((nodeDepthOk v depth maxSeen).1 = true → (nodeDepthOk v depth maxSeen).2 ≤ 2) := by
  rw [nodeDepthOk_leaf leaf, JsonValue.within_leaf leaf, decide_eq_true_iff]
  exact ⟨Nat.max_le, id⟩

mutual

/-- The check of a value goes on exactly while nothing seen so far is too deep. -/
theorem nodeDepthOk_correct (v : JsonValue) (depth maxSeen : Nat) :
    ((nodeDepthOk v depth maxSeen).1 = true ↔ maxSeen ≤ 2 ∧ v.Within false 2 depth) ∧
      ((nodeDepthOk v depth maxSeen).1 = true → (nodeDepthOk v depth maxSeen).2 ≤ 2) := by
  cases v with
  | obj members =>
      have loop := membersDepthOk_correct members (depth + 1) (max maxSeen depth)
      have step : (nodeDepthOk (.obj members) depth maxSeen).1 = true ↔
          (membersDepthOk members (depth + 1) (max maxSeen depth)).1 = true ∧
            (membersDepthOk members (depth + 1) (max maxSeen depth)).2 ≤ 2 := by
        simp [nodeDepthOk]
      constructor
      · rw [step, loop, JsonValue.within_obj, Nat.max_le, and_assoc]
      · exact fun ok => (step.mp ok).2
  | null => exact leaf_correct (by simp)
  | bool b => exact leaf_correct (by simp)
  | int n => exact leaf_correct (by simp)
  | uint n => exact leaf_correct (by simp)
  | real q => exact leaf_correct (by simp)
  | str s => exact leaf_correct (by simp)
  | arr elements => exact leaf_correct (by simp)

theorem membersDepthOk_correct (members : List (String × JsonValue)) (depth maxSeen : Nat) :
    ((membersDepthOk members depth maxSeen).1 = true ∧
        (membersDepthOk members depth maxSeen).2 ≤ 2) ↔
      maxSeen ≤ 2 ∧ ∀ k v, (k, v) ∈ members → JsonValue.Within false 2 depth v := by
  cases members with
  | nil => simp [membersDepthOk]
  | cons m members =>
      obtain ⟨k, v⟩ := m
      obtain ⟨first, seen⟩ := nodeDepthOk_correct v depth maxSeen
      have rest := membersDepthOk_correct members depth (nodeDepthOk v depth maxSeen).2
      by_cases ok : (nodeDepthOk v depth maxSeen).1 = true
      · have next : membersDepthOk ((k, v) :: members) depth maxSeen =
            membersDepthOk members depth (nodeDepthOk v depth maxSeen).2 := by
          simp only [membersDepthOk, if_pos ok]
        obtain ⟨low, within⟩ := first.mp ok
        rw [next, rest, JsonValue.forall_members_cons]
        exact ⟨fun others => ⟨low, within, others.2⟩, fun all => ⟨seen ok, all.2.2⟩⟩
      · have stopped : (membersDepthOk ((k, v) :: members) depth maxSeen).1 = false := by
          simp only [membersDepthOk, if_neg ok]
        refine iff_of_false ?_ ?_
        · rintro ⟨went, -⟩
          cases stopped.symm.trans went
        · rintro ⟨low, all⟩
          exact ok (first.mpr ⟨low, all k v List.mem_cons_self⟩)

end

end Depth

/-! ## The keys -/

/-- The key is of the grammar and no name with a meaning to prototypes. -/
def SafeKey (k : String) : Prop :=
  matchesKey k = true ∧ pollutes k = false

/-- Every key of every object below the value is safe. -/
def SafeKeys (v : JsonValue) : Prop :=
  ∀ d members, JsonValue.Lies true v d (.obj members) → ∀ k x, (k, x) ∈ members → SafeKey k

theorem safeKeys_obj {members : List (String × JsonValue)} :
    SafeKeys (.obj members) ↔ ∀ k v, (k, v) ∈ members → SafeKey k ∧ SafeKeys v := by
  constructor
  · intro safe k v named
    exact ⟨safe 0 members (.here _) k v named,
      fun d below lies => safe (d + 1) below (.member named lies)⟩
  · intro safe d below lies k x named
    cases lies with
    | here => exact (safe k x named).1
    | member above lies => exact (safe _ _ above).2 _ below lies k x named

theorem safeKeys_arr {elements : List JsonValue} :
    SafeKeys (.arr elements) ↔ ∀ v ∈ elements, SafeKeys v := by
  constructor
  · intro safe v listed d below lies
    exact safe (d + 1) below (.element rfl listed lies)
  · intro safe d below lies k x named
    cases lies with
    | element _ listed lies => exact safe _ listed _ below lies k x named

mutual

theorem keysOk_iff (v : JsonValue) : keysOk v = true ↔ SafeKeys v := by
  cases v with
  | obj members =>
      rw [safeKeys_obj, keysOk]
      exact membersKeysOk_iff members
  | arr elements =>
      rw [safeKeys_arr, keysOk]
      exact elementsKeysOk_iff elements
  | _ =>
      refine iff_of_true rfl fun d members lies => ?_
      cases lies

theorem membersKeysOk_iff (members : List (String × JsonValue)) :
    membersKeysOk members = true ↔ ∀ k v, (k, v) ∈ members → SafeKey k ∧ SafeKeys v := by
  cases members with
  | nil => simp [membersKeysOk]
  | cons m members =>
      obtain ⟨k, v⟩ := m
      rw [membersKeysOk, JsonValue.forall_members_cons, ← keysOk_iff v,
        ← membersKeysOk_iff members, SafeKey]
      cases pollutes k <;> cases matchesKey k <;> cases keysOk v <;> simp

theorem elementsKeysOk_iff (elements : List JsonValue) :
    elementsKeysOk elements = true ↔ ∀ v ∈ elements, SafeKeys v := by
  cases elements with
  | nil => simp [elementsKeysOk]
  | cons e elements =>
      rw [elementsKeysOk, List.forall_mem_cons, ← keysOk_iff e, ← elementsKeysOk_iff elements]
      cases keysOk e <;> simp

end

/-! ## Accepted documents -/

section Accepted

variable (json : JsonCpp) (jsonDocument : List UInt8)

/-- The document is an object with safe keys and no value deeper than two. -/
def Proper : Prop :=
  ∃ members, json.parse jsonDocument = .ok (some (.obj members)) ∧
    JsonValue.Within true 2 0 (.obj members) ∧ SafeKeys (.obj members)

/-- A document that passes the other checks, and no value of it lies deeper than two, but one
does as soon as arrays count as containers. -/
def DeepInArrays : Prop :=
  jsonDocument.length ≤ 8192 ∧ ∃ members, json.parse jsonDocument = .ok (some (.obj members)) ∧
    JsonValue.Within false 2 0 (.obj members) ∧ SafeKeys (.obj members) ∧
    ∃ d x, 2 < d ∧ JsonValue.Lies true (.obj members) d x

variable {json jsonDocument}

theorem checkRoot_iff {root : Option JsonValue} :
    checkRoot root = "" ↔
      ∃ members, root = some (.obj members) ∧ JsonValue.Within false 2 0 (.obj members) ∧
        SafeKeys (.obj members) := by
  by_cases object : ∃ members, root = some (.obj members)
  · obtain ⟨members, rfl⟩ := object
    have depth := (nodeDepthOk_correct (.obj members) 0 0).1
    simp only [Nat.zero_le, true_and] at depth
    simp only [Option.some.injEq, JsonValue.obj.injEq, exists_eq_left', ← depth, ← keysOk_iff]
    rw [checkRoot]
    cases (nodeDepthOk (.obj members) 0 0).1 with
    | false => simp
    | true => cases keysOk (.obj members) <;> simp
  · have refused : checkRoot root = "custom attributes must be a JSON object" := by
      rcases root with _ | root
      · rfl
      · cases root with
        | obj members => exact absurd ⟨members, rfl⟩ object
        | _ => rfl
    rw [refused]
    refine iff_of_false (by simp) ?_
    rintro ⟨members, rfl, -⟩
    exact object ⟨members, rfl⟩

theorem accepts_iff :
    validateCustomAttributes json jsonDocument = .ok "" ↔
      jsonDocument.length ≤ 8192 ∧
        ∃ members, json.parse jsonDocument = .ok (some (.obj members)) ∧
          JsonValue.Within false 2 0 (.obj members) ∧ SafeKeys (.obj members) := by
  unfold validateCustomAttributes
  by_cases long : jsonDocument.length > 8192
  · rw [if_pos long]
    exact iff_of_false (by simp) fun fits => by omega
  · rw [if_neg long]
    cases json.parse jsonDocument with
    | error what => simp
    | ok root =>
        simp only [Except.map_ok, Except.ok.injEq, checkRoot_iff, Nat.not_lt.mp long, true_and]

/-- Acceptance means what is documented except for documents that are too deep by their arrays
alone. -/
theorem custom_attributes_bounded_iff (json : JsonCpp) (jsonDocument : List UInt8) :
    ((validateCustomAttributes json jsonDocument = .ok "" → Proper json jsonDocument) ∧
        (Proper json jsonDocument → jsonDocument.length ≤ 8192 →
          validateCustomAttributes json jsonDocument = .ok "")) ↔
      ¬ DeepInArrays json jsonDocument := by
  rw [accepts_iff]
  constructor
  · rintro ⟨accepted, -⟩ ⟨fits, members, parsed, shallow, safe, d, x, deep, lies⟩
    obtain ⟨members', parsed', within, -⟩ := accepted ⟨fits, members, parsed, shallow, safe⟩
    cases parsed.symm.trans parsed'
    have bound := within d x lies
    omega
  · intro shallow
    constructor
    · rintro ⟨fits, members, parsed, objects, safe⟩
      refine ⟨members, parsed, fun d x lies => ?_, safe⟩
      by_contra deep
      exact shallow ⟨fits, members, parsed, objects, safe, d, x, by omega, lies⟩
    · rintro ⟨members, parsed, within, safe⟩ fits
      exact ⟨fits, members, parsed, fun d x lies => within d x lies.counted, safe⟩

end Accepted

/-- The text of an object whose member `a` is the number 1 in three arrays. -/
def nestedText : List UInt8 :=
  [123, 34, 97, 34, 58, 91, 91, 91, 49, 93, 93, 93, 125]

/-- A parser that knows one text, with arrays in arrays. -/
def nestedJson : JsonCpp where
  parse text :=
    .ok (if text = nestedText then some (.obj [("a", .arr [.arr [.arr [.int 1]]])]) else none)
  write _ := nestedText
  edge := Int64.minValue

/-- The document is accepted, and the number lies four containers deep. -/
theorem nested_arrays_accepted :
    validateCustomAttributes nestedJson nestedText = .ok "" ∧ ¬ Proper nestedJson nestedText := by
  constructor
  · decide +kernel
  · rintro ⟨members, parsed, within, -⟩
    cases parsed
    have deep := within 4 (.int 1) (.member (List.mem_singleton_self _)
      (.element rfl (List.mem_singleton_self _) (.element rfl (List.mem_singleton_self _)
        (.element rfl (List.mem_singleton_self _) (.here _)))))
    omega

end ClaimMappingValidator

end Fulla
