import Fulla.Webauthn.CborReader

/-!
# Tags around items

`CborReader.h` says of a tag that it wraps exactly one item and has no depth of its own.  But the
frame it pushes stands on the same stack as those of the arrays and maps, and the limit is tested
against the size of the stack.

`wrapped_accepted_iff`: when tags are put around items of accepted input, it stays accepted (within
the limit on items) exactly if no array and no map is then enclosed in more than seven items, the
tags counted.
-/

namespace Cbor

namespace Items

/-- An item in the innermost of the tags. -/
def enclose : List Head → Head → List UInt8 → Items → Items → Items
  | [], head, payload, content, rest => item head payload content rest
  | tag :: tags, head, payload, content, rest =>
    item tag [] (enclose tags head payload content nil) rest

/-- Some tags around some of the items, at any depth. -/
inductive Wrapped : Items → Items → Prop
  | nil : Wrapped nil nil
  | item {tags : List Head} (are_tags : ∀ tag ∈ tags, tag.major = 6) {head : Head}
      {payload : List UInt8} {content content' rest rest' : Items}
      (inner : Wrapped content content')
      (next : Wrapped rest rest') :
      Wrapped (item head payload content rest) (enclose tags head payload content' rest')

theorem number_enclose (tags : List Head) (head : Head) (payload : List UInt8)
    (content rest : Items) : (enclose tags head payload content rest).number = rest.number + 1 := by
  cases tags <;> rfl

theorem wellFormed_enclose {tags : List Head} (are_tags : ∀ tag ∈ tags, tag.major = 6)
    {head : Head} {payload : List UInt8} {content rest : Items}
    (formed : (item head payload content rest).WellFormed) :
    (enclose tags head payload content rest).WellFormed := by
  induction tags generalizing rest with
  | nil => exact formed
  | cons tag tags ih =>
      have six := are_tags tag List.mem_cons_self
      obtain ⟨length, number, content_formed, rest_formed⟩ := formed
      refine ⟨?_, ?_, ?_, rest_formed⟩
      · rw [Head.payload, Head.isString, six]
        rfl
      · rw [number_enclose, Head.children, six]
        rfl
      · exact ih (fun tag' mem => are_tags tag' (List.mem_cons_of_mem tag mem))
          ⟨length, number, content_formed, trivial⟩

theorem stringsWithin_enclose {max : Nat} {tags : List Head}
    (are_tags : ∀ tag ∈ tags, tag.major = 6) {head : Head} {payload : List UInt8}
    {content rest : Items} (within : (item head payload content rest).StringsWithin max) :
    (enclose tags head payload content rest).StringsWithin max := by
  induction tags generalizing rest with
  | nil => exact within
  | cons tag tags ih =>
      obtain ⟨string, content_within, rest_within⟩ := within
      refine ⟨fun _ => Nat.zero_le max, ?_, rest_within⟩
      exact ih (fun tag' mem => are_tags tag' (List.mem_cons_of_mem tag mem))
        ⟨string, content_within, trivial⟩

theorem length_encode_enclose (tags : List Head) (head : Head) (payload : List UInt8)
    (content rest : Items) :
    (item head payload content rest).encode.length ≤
      (enclose tags head payload content rest).encode.length := by
  induction tags generalizing rest with
  | nil => exact Nat.le_refl _
  | cons tag tags ih =>
      have inner := ih nil
      simp only [encode, enclose, List.length_append, List.length_nil] at inner ⊢
      omega

/-- Each tag is one more item that encloses what it is put around. -/
theorem enclosedWithin_enclose {max depth : Nat} {tags : List Head}
    (are_tags : ∀ tag ∈ tags, tag.major = 6) {head : Head} {payload : List UInt8}
    {content rest : Items} :
    (enclose tags head payload content rest).EnclosedWithin max depth ↔
      (head.isContainer = true → depth + tags.length ≤ max) ∧
        content.EnclosedWithin max (depth + tags.length + 1) ∧ rest.EnclosedWithin max depth := by
  induction tags generalizing depth rest with
  | nil => rfl
  | cons tag tags ih =>
      have six := are_tags tag List.mem_cons_self
      have other : tag.isContainer = false := by
        rw [Head.isContainer, six]
        rfl
      have inner := @ih (depth + 1)
        (fun tag' mem => are_tags tag' (List.mem_cons_of_mem tag mem)) nil
      simp only [enclose, EnclosedWithin, other, inner, List.length_cons, Bool.false_eq_true,
        false_imp_iff, true_and, and_true, and_assoc, Nat.add_assoc, Nat.add_comm 1]

namespace Wrapped

variable {items items' : Items}

theorem number_eq (wrapped : Wrapped items items') : items'.number = items.number := by
  induction wrapped with
  | nil => rfl
  | item are_tags inner next _ ih =>
      rw [number_enclose]
      exact congrArg (· + 1) ih

theorem wellFormed (wrapped : Wrapped items items') (formed : items.WellFormed) :
    items'.WellFormed := by
  induction wrapped with
  | nil => trivial
  | item are_tags inner next ih_inner ih_next =>
      obtain ⟨length, number, content_formed, rest_formed⟩ := formed
      exact wellFormed_enclose are_tags
        ⟨length, inner.number_eq.trans number, ih_inner content_formed, ih_next rest_formed⟩

theorem length_encode_le (wrapped : Wrapped items items') :
    items.encode.length ≤ items'.encode.length := by
  induction wrapped with
  | nil => exact Nat.le_refl _
  | @item tags are_tags head payload content content' rest rest' inner next ih_inner ih_next =>
      refine Nat.le_trans ?_ (length_encode_enclose tags head payload content' rest')
      simp only [encode, List.length_append]
      omega

theorem stringsWithin {max : Nat} (wrapped : Wrapped items items')
    (within : items.StringsWithin max) : items'.StringsWithin max := by
  induction wrapped with
  | nil => trivial
  | item are_tags inner next ih_inner ih_next =>
      obtain ⟨string, content_within, rest_within⟩ := within
      exact stringsWithin_enclose are_tags
        ⟨string, ih_inner content_within, ih_next rest_within⟩

end Wrapped

/-- Well-formed items are determined by the bytes they start, if one knows how many they are. -/
theorem eq_of_encode_append {items items' : Items} {rest rest' : List UInt8}
    (number : items.number = items'.number) (formed : items.WellFormed)
    (formed' : items'.WellFormed) (same : items.encode ++ rest = items'.encode ++ rest') :
    items = items' ∧ rest = rest' := by
  induction items generalizing items' rest rest' with
  | nil =>
      cases eq_nil_of_number number.symm
      exact ⟨rfl, same⟩
  | item head payload content next ih_content ih_next =>
      cases items' with
      | nil => cases number
      | item head' payload' content' next' =>
          obtain ⟨length, children, content_formed, next_formed⟩ := formed
          obtain ⟨length', children', content_formed', next_formed'⟩ := formed'
          simp only [encode, List.append_assoc] at same
          obtain ⟨rfl, after_head⟩ := Head.eq_of_encode_append same
          obtain ⟨rfl, after_payload⟩ := List.append_inj after_head (length.trans length'.symm)
          obtain ⟨rfl, after_content⟩ := ih_content (children.trans children'.symm) content_formed
            content_formed' after_payload
          obtain ⟨rfl, after⟩ := ih_next (Nat.succ.inj number) next_formed next_formed'
            after_content
          exact ⟨rfl, after⟩

end Items

end Cbor

namespace Fulla

namespace CborReader

open Cbor

/-- Wrapped input is accepted if and only if, with the tags, no array and no map is enclosed in
more than seven items. -/
theorem wrapped_accepted_iff (items items' : Items) (more : List UInt8) (n : Nat)
    (accepted : validateStructure machine (items.encode ++ more) = .ok n)
    (root : items.number = 1 ∧ items.WellFormed) (wrapped : items.Wrapped items')
    (few : items'.count ≤ limits.kMaxItems) (bound : (items'.encode ++ more).length < 2 ^ 64) :
    (∃ n', validateStructure machine (items'.encode ++ more) = .ok n') ↔
      items'.EnclosedWithin 7 0 := by
  have short : (items.encode ++ more).length < 2 ^ 64 := by
    have longer := wrapped.length_encode_le
    rw [List.length_append] at bound ⊢
    omega
  have exact_ := (validateStructure_exact (items.encode ++ more) 0 short).1
  have exact' := (validateStructure_exact (items'.encode ++ more) 0 bound).1
  rw [List.drop_zero] at exact_ exact'
  obtain ⟨one, formed⟩ := root
  have formed' := wrapped.wellFormed formed
  have one' := wrapped.number_eq.trans one
  constructor
  · rintro ⟨n', accepted'⟩
    obtain ⟨found, number, found_formed, -, -, within, -, rest, same⟩ := (exact' n').mp accepted'
    obtain ⟨rfl, -⟩ :=
      Items.eq_of_encode_append (number.trans one'.symm) found_formed formed' same
    exact within
  · intro within
    obtain ⟨found, number, found_formed, -, strings, -, -, rest, same⟩ := (exact_ n).mp accepted
    obtain ⟨rfl, -⟩ := Items.eq_of_encode_append (number.trans one.symm) found_formed formed same
    exact ⟨items'.encode.length, (exact' _).mpr ⟨items', one', formed', few,
      wrapped.stringsWithin strings, within, rfl, List.prefix_append _ _⟩⟩

/-- An empty array, and the array in eight tags. -/
def emptyArray : Items :=
  .item ⟨4, 0, [], by decide, by decide, rfl⟩ [] .nil .nil

/-- A tag. -/
def tag : Head :=
  ⟨6, 0, [], by decide, by decide, rfl⟩

/-- An empty array inside so many tags. -/
def taggedArray (n : Nat) : Items :=
  Items.enclose (List.replicate n tag) ⟨4, 0, [], by decide, by decide, rfl⟩ [] .nil .nil

theorem major_of_mem_replicate {n : Nat} : ∀ t ∈ List.replicate n tag, t.major = 6 :=
  fun _ mem => congrArg Head.major (List.eq_of_mem_replicate mem)

theorem wrapped_emptyArray (n : Nat) : emptyArray.Wrapped (taggedArray n) :=
  .item major_of_mem_replicate .nil .nil

/-- Seven tags are accepted. -/
theorem wrapped_accepted_seven :
    emptyArray.Wrapped (taggedArray 7) ∧
      ∃ n, validateStructure machine ((taggedArray 7).encode ++ []) = .ok n := by
  refine ⟨wrapped_emptyArray 7, ?_⟩
  refine (wrapped_accepted_iff emptyArray (taggedArray 7) [] 1 (by decide) ⟨rfl, ?_⟩
    (wrapped_emptyArray 7) (by decide) (by decide)).mpr ?_
  · exact ⟨rfl, rfl, trivial, trivial⟩
  · exact (Items.enclosedWithin_enclose major_of_mem_replicate).mpr
      ⟨fun _ => Nat.le_refl 7, trivial, trivial⟩

/-- Eight are not, although there is but one array. -/
theorem eight_tags_refused :
    emptyArray.Wrapped (taggedArray 8) ∧ (taggedArray 8).count = 9 ∧
      validateStructure machine emptyArray.encode = .ok 1 ∧
      validateStructure machine (taggedArray 8).encode =
        .error (.fail "CBOR nesting deeper than 8 levels") :=
  ⟨wrapped_emptyArray 8, by decide, by decide, by decide⟩

end CborReader

end Fulla
