import Fulla.Model.Dto

/-!
# Reading JSON texts

jsoncpp's writer and parser are parameters; what the code relies on is that the text
of an object reads back as an object with the same members (`JsonText.ReadsBack`).
jsoncpp keeps the members of an object as a map, so their order is not part of it.

The accessors throw `Json::LogicError` on a value of the wrong kind.  The ranges of
`int` and `int64_t` are not checked here: the entries are written from members of
these types.
-/

namespace Fulla

/-- jsoncpp's writer and parser. -/
structure JsonText where
  /-- `writeString` without indentation. -/
  write : Json → String
  /-- `parseFromStream`. -/
  parse : String → Option Json

/-- The text of the object reads back as the same object. -/
def JsonText.ReadsBack (json : JsonText) (members : List (String × Json)) : Prop :=
  ∃ members', json.parse (json.write (.obj members)) = some (.obj members') ∧
    ∀ k, members'.lookup k = members.lookup k

namespace Json

/-- `isMember` of a value that must be an object or null. -/
def hasMember : Json → String → Except String Bool
  | obj members, k => .ok (members.lookup k).isSome
  | null, _ => .ok false
  | _, _ => .error "requires objectValue or nullValue"

/-- `get(k, default)`. -/
def getOr : Json → String → Json → Except String Json
  | obj members, k, default => .ok ((members.lookup k).getD default)
  | null, _, default => .ok default
  | _, _, _ => .error "requires objectValue or nullValue"

/-- `Json::Value::asString`, which throws on arrays and objects. -/
def asString : Json → Except String String
  | null => .ok ""
  | bool b => .ok (if b then "true" else "false")
  | int n => .ok (toString n)
  | real text => .ok text
  | str s => .ok s
  | _ => .error "Type is not convertible to string"

/-- A number that is not integral is cut at its point. -/
def asInt64 : Json → Except String Int
  | null => .ok 0
  | bool b => .ok (if b then 1 else 0)
  | int n => .ok n
  | real text => .ok ((String.ofList (text.toList.takeWhile (· ≠ '.'))).toInt?.getD 0)
  | _ => .error "Value is not convertible to Int64."

/-- `Json::Value::asBool`, which throws on texts, arrays and objects. -/
def asBool : Json → Except String Bool
  | null => .ok false
  | bool b => .ok b
  | int n => .ok (n ≠ 0)
  | real text => .ok (text.toList.any fun c => c.isDigit && c ≠ '0')
  | _ => .error "Value is not convertible to bool."

/-- `get(k, default).asString()`, and the same for the other two kinds. -/
def textAt (root : Json) (k : String) (default : String := "") : Except String String := do
  (← root.getOr k (.str default)).asString

/-- A member read as a number, 0 if there is none. -/
def intAt (root : Json) (k : String) : Except String Int := do
  (← root.getOr k (.int 0)).asInt64

/-- A member read as a flag, `false` if there is none. -/
def boolAt (root : Json) (k : String) : Except String Bool := do
  (← root.getOr k (.bool false)).asBool

section Members

variable {members : List (String × Json)} {k : String}

@[simp]
theorem hasMember_obj : (obj members).hasMember k = .ok (members.lookup k).isSome :=
  rfl

theorem textAt_obj {default s : String} (found : members.lookup k = some (str s)) :
    (obj members).textAt k default = .ok s := by
  simp [textAt, getOr, found, asString, bind, Except.bind]

theorem intAt_obj {n : Int} (found : members.lookup k = some (int n)) :
    (obj members).intAt k = .ok n := by
  simp [intAt, getOr, found, asInt64, bind, Except.bind]

theorem boolAt_obj {b : Bool} (found : members.lookup k = some (bool b)) :
    (obj members).boolAt k = .ok b := by
  simp [boolAt, getOr, found, asBool, bind, Except.bind]

end Members

/-! ## Writing a member -/

theorem lookup_replace (members : List (String × Json)) (k k' : String) (v : Json) :
    (members.map fun m => if m.1 = k then (k, v) else m).lookup k' =
      if k' = k then (members.lookup k).map fun _ => v else members.lookup k' := by
  induction members with
  | nil => simp
  | cons m members ih =>
      obtain ⟨a, w⟩ := m
      by_cases own : a = k
      · subst own
        by_cases eq : k' = a
        · simp [eq]
        · have other : (k' == a) = false := beq_eq_false_iff_ne.mpr eq
          simp only [List.map_cons, if_true, List.lookup_cons, other, ih, if_neg eq]
      · by_cases eq : k' = a
        · subst eq
          simp [own]
        · have other : (k' == a) = false := beq_eq_false_iff_ne.mpr eq
          have apart : (k == a) = false := beq_eq_false_iff_ne.mpr (Ne.symm own)
          simp only [List.map_cons, if_neg own, List.lookup_cons, other, apart, ih]

theorem isSome_lookup (members : List (String × Json)) (k : String) :
    (members.lookup k).isSome = members.any fun m => m.1 = k := by
  induction members with
  | nil => rfl
  | cons m members ih =>
      obtain ⟨a, w⟩ := m
      by_cases eq : k = a
      · simp [eq]
      · have other : (k == a) = false := beq_eq_false_iff_ne.mpr eq
        simp only [List.lookup_cons, other, List.any_cons, ih, Ne.symm eq, decide_false,
          Bool.false_or]

/-- The other members stay as they are. -/
theorem set_lookup (members : List (String × Json)) (k : String) (v : Json) :
    ∃ members', (obj members).set k v = .obj members' ∧
      ∀ k', members'.lookup k' = if k' = k then some v else members.lookup k' := by
  simp only [set, ← isSome_lookup]
  cases found : members.lookup k with
  | some w =>
      refine ⟨_, if_pos rfl, fun k' => ?_⟩
      rw [lookup_replace, found]
      rfl
  | none =>
      refine ⟨_, if_neg (by simp), fun k' => ?_⟩
      rw [List.lookup_append]
      by_cases eq : k' = k
      · subst eq
        simp [found]
      · have other : (k' == k) = false := beq_eq_false_iff_ne.mpr eq
        simp [List.lookup_cons, other, eq]

theorem get_set (json : Json) (k k' : String) (v : Json) :
    (json.set k v).get k' = if k' = k then v else json.get k' := by
  cases json with
  | obj members =>
      obtain ⟨members', eq, lookups⟩ := set_lookup members k v
      rw [eq, get, lookups, apply_ite (Option.getD · null)]
      rfl
  | _ =>
      change (List.lookup k' [(k, v)]).getD null = if k' = k then v else null
      rw [List.lookup_cons]
      by_cases same : k' = k
      · simp [same]
      · simp [same, beq_eq_false_iff_ne.mpr same]

theorem isMember_set (json : Json) (k k' : String) (v : Json) :
    (json.set k v).isMember k' = true ↔ k' = k ∨ json.isMember k' = true := by
  cases json with
  | obj members =>
      obtain ⟨members', eq, lookups⟩ := set_lookup members k v
      rw [eq, isMember, isMember, ← isSome_lookup, ← isSome_lookup, lookups]
      by_cases same : k' = k
      · simp [same]
      · simp [same]
  | _ => simp [set, isMember, eq_comm]

end Json

end Fulla
