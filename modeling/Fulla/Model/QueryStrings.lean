import Mathlib.Data.List.TakeWhile
import Mathlib.Data.Nat.Basic
import Fulla.Model.Text

/-!
# Query strings

A URL cut at its delimiters, and the fields of a query in the form encoding: pieces between `&`,
each a name and what follows its first `=`, with `%xy` for a byte and `+` for a space.

Fields that are written behind `?` are read back behind those of the URL itself exactly when the
URL has no query and no fragment and the texts written hold no delimiter (`appended_iff`).
-/

namespace Fulla

/-- What comes before the first `sep`, and after it. -/
def cutAt (sep : Char) : List Char → List Char × Option (List Char)
  | [] => ([], none)
  | c :: cs => if c = sep then ([], some cs) else (c :: (cutAt sep cs).1, (cutAt sep cs).2)

section cutAt

variable {sep : Char} {s t : List Char}

/-- Without a separator the text is not cut. -/
theorem cutAt_of_notMem (clean : sep ∉ s) : cutAt sep s = (s, none) := by
  induction s with
  | nil => rfl
  | cons c s ih =>
      rw [List.mem_cons, not_or] at clean
      rw [cutAt, if_neg (Ne.symm clean.1), ih clean.2]

/-- The cut is at the first separator. -/
theorem cutAt_append (clean : sep ∉ s) (t : List Char) :
    cutAt sep (s ++ t) = (s ++ (cutAt sep t).1, (cutAt sep t).2) := by
  induction s with
  | nil => rfl
  | cons c s ih =>
      rw [List.mem_cons, not_or] at clean
      rw [List.cons_append, cutAt, if_neg (Ne.symm clean.1), ih clean.2]
      rfl

@[simp]
theorem cutAt_cons_self (t : List Char) : cutAt sep (sep :: t) = ([], some t) := by
  simp [cutAt]

/-- A delimiter that is there stays the first whatever is appended. -/
theorem cutAt_append_of_mem (mem : sep ∈ s) (t : List Char) :
    cutAt sep (s ++ t) = ((cutAt sep s).1, (cutAt sep s).2.map (· ++ t)) := by
  obtain ⟨before, after, rfl, clean⟩ := List.eq_append_cons_of_mem mem
  rw [List.append_assoc, cutAt_append clean, cutAt_append clean, List.cons_append,
    cutAt_cons_self, cutAt_cons_self]
  rfl

/-- What stands before the cut holds no separator. -/
theorem notMem_cutAt (sep : Char) (s : List Char) : sep ∉ (cutAt sep s).1 := by
  induction s with
  | nil => exact List.not_mem_nil
  | cons c s ih =>
      rw [cutAt]
      split
      · exact List.not_mem_nil
      next ne =>
        rw [List.mem_cons, not_or]
        exact ⟨Ne.symm ne, ih⟩

end cutAt

/-! ## The form encoding -/

/-- The bytes of a text. -/
def utf8 (s : List Char) : List UInt8 :=
  s.flatMap String.utf8EncodeChar

/-- The value of a hexadecimal digit. -/
def hexValue (c : Char) : Option Nat :=
  if '0' ≤ c ∧ c ≤ '9' then some (c.toNat - 48)
  else if 'A' ≤ c ∧ c ≤ 'F' then some (c.toNat - 55)
  else if 'a' ≤ c ∧ c ≤ 'f' then some (c.toNat - 87)
  else none

/-- The bytes that a text of a form stands for; a `%` without two digits is itself. -/
def formDecode : List Char → List UInt8
  | '%' :: x :: y :: rest =>
    match hexValue x, hexValue y with
    | some high, some low => UInt8.ofNat (16 * high + low) :: formDecode rest
    | _, _ => 37 :: formDecode (x :: y :: rest)
  | '+' :: rest => 32 :: formDecode rest
  | c :: rest => String.utf8EncodeChar c ++ formDecode rest
  | [] => []

/-- A character that stands for itself and cannot be a part of an escape. -/
def isDelimiter (c : Char) : Bool :=
  c = '?' || c = '#' || c = '&' || c = '='

section formDecode

variable {c : Char} {s t : List Char}

theorem utf8_cons (c : Char) (s : List Char) : utf8 (c :: s) = String.utf8EncodeChar c ++ utf8 s :=
  List.flatMap_cons

theorem utf8_append (s t : List Char) : utf8 (s ++ t) = utf8 s ++ utf8 t :=
  List.flatMap_append

theorem length_utf8EncodeChar_pos (c : Char) : 0 < (String.utf8EncodeChar c).length :=
  List.length_pos_iff.mpr String.utf8EncodeChar_ne_nil

/-- Any other character stands for its own bytes. -/
theorem formDecode_cons (escape : c ≠ '%') (space : c ≠ '+') (s : List Char) :
    formDecode (c :: s) = String.utf8EncodeChar c ++ formDecode s := by
  rw [formDecode]
  · exact fun _ _ _ eq => absurd eq escape
  · exact space

/-- An escape stands for one byte. -/
theorem formDecode_escape {x y : Char} {high low : Nat} (one : hexValue x = some high)
    (two : hexValue y = some low) (s : List Char) :
    formDecode ('%' :: x :: y :: s) = UInt8.ofNat (16 * high + low) :: formDecode s := by
  rw [formDecode, one, two]

/-- A `%` that begins no escape. -/
theorem formDecode_percent {x y : Char} (none : hexValue x = none ∨ hexValue y = none)
    (s : List Char) : formDecode ('%' :: x :: y :: s) = 37 :: formDecode (x :: y :: s) := by
  rw [formDecode]
  rcases none with none | none
  · rw [none]
  · rw [none]
    cases hexValue x <;> rfl

theorem formDecode_percent_last (x : Char) : formDecode ['%', x] = 37 :: formDecode [x] := by
  rw [formDecode]
  · rfl
  · intro _ _ _ _ eq
    cases eq
  · decide

/-- A delimiter is no digit. -/
theorem hexValue_delimiter (delimiter : isDelimiter c = true) : hexValue c = none := by
  simp only [isDelimiter, Bool.or_eq_true, decide_eq_true_eq] at delimiter
  rcases delimiter with ((rfl | rfl) | rfl) | rfl <;> decide

theorem formDecode_delimiter (delimiter : isDelimiter c = true) (s : List Char) :
    formDecode (c :: s) = String.utf8EncodeChar c ++ formDecode s := by
  refine formDecode_cons ?_ ?_ s <;> rintro rfl <;> cases delimiter

/-- What is decoded before a delimiter does not hang on what comes after it. -/
theorem formDecode_append_delimiter (delimiter : isDelimiter c = true) (s t : List Char) :
    formDecode (s ++ c :: t) = formDecode s ++ String.utf8EncodeChar c ++ formDecode t := by
  have unhex := hexValue_delimiter delimiter
  fun_induction formDecode s with
  | case1 x y rest high low two one ih =>
      rw [List.cons_append, List.cons_append, List.cons_append, formDecode_escape one two, ih]
      rfl
  | case2 x y rest no ih =>
      have none : hexValue x = none ∨ hexValue y = none := by
        cases one : hexValue x with
        | none => exact .inl rfl
        | some high =>
            cases two : hexValue y with
            | none => exact .inr rfl
            | some low => exact absurd two (no high low one)
      rw [List.cons_append, List.cons_append, List.cons_append, formDecode_percent none]
      rw [List.cons_append, List.cons_append] at ih
      rw [ih]
      rfl
  | case3 rest ih => rw [List.cons_append, formDecode, ih]; rfl
  | case4 d rest escape space ih =>
      by_cases percent : d = '%'
      · subst percent
        -- an escape that is cut off is none with a delimiter either
        rcases rest with _ | ⟨x, _ | ⟨y, rest⟩⟩
        · rw [List.singleton_append]
          cases t with
          | nil => rw [formDecode_percent_last, formDecode_delimiter delimiter]; rfl
          | cons y t =>
              rw [formDecode_percent (.inl unhex), formDecode_delimiter delimiter]
              rfl
        · rw [List.cons_append, List.cons_append, List.nil_append, formDecode_percent (.inr unhex)]
          rw [List.cons_append, List.nil_append] at ih
          rw [ih]
          rfl
        · exact absurd rfl (escape x y rest rfl)
      · rw [List.cons_append, formDecode_cons percent space, ih]
        simp only [List.append_assoc]
  | case5 => rw [List.nil_append, formDecode_delimiter delimiter]; rfl

/-- Decoding makes no text longer. -/
theorem length_formDecode_le (s : List Char) : (formDecode s).length ≤ (utf8 s).length := by
  fun_induction formDecode s with
  | case1 x y rest high low two one ih =>
      rw [utf8_cons, utf8_cons, utf8_cons, List.length_append, List.length_append,
        List.length_append, List.length_cons]
      have := length_utf8EncodeChar_pos '%'
      omega
  | case2 x y rest no ih =>
      rw [utf8_cons, List.length_append, List.length_cons]
      have := length_utf8EncodeChar_pos '%'
      omega
  | case3 rest ih =>
      rw [utf8_cons, List.length_append, List.length_cons]
      have := length_utf8EncodeChar_pos '+'
      omega
  | case4 d rest escape space ih =>
      rw [utf8_cons, List.length_append, List.length_append]
      omega
  | case5 => exact le_rfl

end formDecode

/-! ## Queries -/

/-- A piece of a query: up to its first `=`, and from there. -/
def pairOf (piece : List Char) : List UInt8 × List UInt8 :=
  (formDecode (cutAt '=' piece).1, formDecode ((cutAt '=' piece).2.getD []))

/-- The fields of a query; empty pieces are none. -/
def fieldsOf (query : List Char) : List (List UInt8 × List UInt8) :=
  ((splitChars '&' query).filter (· ≠ [])).map pairOf

/-- The decoded query of a URL, which ends at a fragment. -/
def params (url : List Char) : List (List UInt8 × List UInt8) :=
  ((cutAt '?' (cutAt '#' url).1).2.map fieldsOf).getD []

section fieldsOf

variable {piece last query s t : List Char}

/-- Fields on both sides of an `&` are read on their own. -/
theorem fieldsOf_append (s t : List Char) :
    fieldsOf (s ++ '&' :: t) = fieldsOf s ++ fieldsOf t := by
  rw [fieldsOf, splitChars_append_sep, List.filter_append, List.map_append]
  rfl

theorem fieldsOf_piece (clean : '&' ∉ piece) (some_ : piece ≠ []) :
    fieldsOf piece = [pairOf piece] := by
  rw [fieldsOf, splitChars_of_notMem clean]
  simp [some_]

/-- The first field, whatever follows the piece. -/
theorem fieldsOf_cons (clean : '&' ∉ piece) (some_ : piece ≠ [])
    (ends : t = [] ∨ ∃ rest, t = '&' :: rest) :
    ∃ more, fieldsOf (piece ++ t) = pairOf piece :: more := by
  rcases ends with rfl | ⟨rest, rfl⟩
  · exact ⟨[], by rw [List.append_nil, fieldsOf_piece clean some_]⟩
  · exact ⟨fieldsOf rest, by rw [fieldsOf_append, fieldsOf_piece clean some_]; rfl⟩

/-- What is appended to a query continues its last piece. -/
theorem fieldsOf_last (query : List Char) : ∃ before last, '&' ∉ last ∧
    ∀ t, fieldsOf (query ++ t) = before ++ fieldsOf (last ++ t) := by
  by_cases mem : '&' ∈ query
  · obtain ⟨s, rest, rfl, _⟩ := List.eq_append_cons_of_mem mem
    obtain ⟨before, last, clean, eq⟩ := fieldsOf_last rest
    refine ⟨fieldsOf s ++ before, last, clean, fun t => ?_⟩
    rw [List.append_assoc, List.cons_append, fieldsOf_append, eq, List.append_assoc]
  · exact ⟨[], query, mem, fun t => rfl⟩
termination_by query.length
decreasing_by
  subst_vars
  rw [List.length_append, List.length_cons]
  omega

/-- A text that goes on with a `?` is read as another pair. -/
theorem pairOf_append_ne (piece t : List Char) : pairOf (piece ++ '?' :: t) ≠ pairOf piece := by
  intro same
  have longer (s : List Char) (t : List Char) : formDecode (s ++ '?' :: t) ≠ formDecode s := by
    intro eq
    have := congrArg List.length eq
    rw [formDecode_append_delimiter rfl, List.length_append, List.length_append] at this
    have := length_utf8EncodeChar_pos '?'
    omega
  by_cases mem : '=' ∈ piece
  · obtain ⟨name, value, rfl, clean⟩ := List.eq_append_cons_of_mem mem
    have values := congrArg Prod.snd same
    simp only [pairOf, List.append_assoc, List.cons_append, cutAt_append clean, cutAt_cons_self,
      Option.getD_some] at values
    exact longer value t values
  · have names := congrArg Prod.fst same
    simp only [pairOf, cutAt_append mem, cutAt_of_notMem mem] at names
    exact longer piece (cutAt '=' t).1 names

end fieldsOf

/-! ## Fields that are written -/

/-- Letters, digits and `_`. -/
def isNameChar (c : Char) : Bool :=
  c.isAlphanum || c = '_'

theorem toNat_of_isNameChar {c : Char} (name : isNameChar c = true) : c.toNat ≤ 127 := by
  change ((decide (c.val ≥ 65 ∧ c.val ≤ 90) ||
    (decide (c.val ≥ 97) && decide (c.val ≤ 122)) ||
      (decide (c.val ≥ 48) && decide (c.val ≤ 57))) || decide (c = '_')) = true at name
  simp only [Bool.or_eq_true, Bool.and_eq_true, decide_eq_true_eq, ge_iff_le,
    UInt32.le_iff_toNat_le] at name
  change c.val.toNat ≤ 127
  rcases name with ((⟨_, le⟩ | ⟨_, le⟩) | ⟨_, le⟩) | rfl
  · exact le_trans le (by decide)
  · exact le_trans le (by decide)
  · exact le_trans le (by decide)
  · decide

theorem utf8EncodeChar_of_le {c : Char} (ascii : c.toNat ≤ 127) :
    String.utf8EncodeChar c = [UInt8.ofNat c.toNat] :=
  if_pos ascii

/-- A name is decoded to itself. -/
theorem formDecode_name {name : List Char} (named : name.all isNameChar = true) :
    formDecode name = utf8 name := by
  induction name with
  | nil => rfl
  | cons c name ih =>
      rw [List.all_cons, Bool.and_eq_true] at named
      have escape : c ≠ '%' := by rintro rfl; exact absurd named.1 (by decide)
      have space : c ≠ '+' := by rintro rfl; exact absurd named.1 (by decide)
      rw [formDecode_cons escape space, utf8_cons, ih named.2]

/-- A value under a name, and the text that is written for it. -/
structure Field where
  name : List Char
  value : List Char
  text : List Char
  named : name ≠ [] ∧ name.all isNameChar = true

namespace Field

/-- A field as it stands in a query. -/
def written (f : Field) : List Char :=
  f.name ++ '=' :: f.text

/-- What a reader is to find. -/
def delivered (f : Field) : List UInt8 × List UInt8 :=
  (utf8 f.name, utf8 f.value)

/-- The text decodes to the value, and nothing in it ends the field. -/
structure Intact (f : Field) : Prop where
  noPair : '&' ∉ f.text
  noFragment : '#' ∉ f.text
  decodes : formDecode f.text = utf8 f.value

/-- The text is an encoding of the value, or the value as it is. -/
def Honest (f : Field) : Prop :=
  formDecode f.text = utf8 f.value ∨ f.text = f.value

variable {f g : Field} {fs : List Field}

theorem notMem_name {d : Char} (other : isNameChar d = false) : d ∉ f.name := by
  intro mem
  have := List.all_eq_true.mp f.named.2 d mem
  rw [other] at this
  cases this

/-- No name begins with `?`. -/
theorem utf8_name_ne (f : Field) (s : List Char) : utf8 f.name ≠ formDecode ('?' :: s) := by
  obtain ⟨c, name, eq⟩ := List.exists_cons_of_ne_nil f.named.1
  have first : isNameChar c = true :=
    List.all_eq_true.mp f.named.2 c (eq ▸ List.mem_cons_self)
  have ascii := toNat_of_isNameChar first
  rw [eq, utf8_cons, formDecode_delimiter rfl, utf8EncodeChar_of_le ascii]
  intro same
  have byte : UInt8.ofNat c.toNat = 63 := (List.cons.inj same).1
  have code : c.toNat = 63 := by
    have := congrArg UInt8.toNat byte
    rw [UInt8.toNat_ofNat_of_lt' (lt_of_le_of_lt ascii (by decide))] at this
    exact this
  have : c = '?' := Char.toNat_inj.mp code
  rw [this] at first
  exact absurd first (by decide)

/-- A written field is read as its name and its decoded text. -/
theorem pairOf_written (f : Field) (s : List Char) :
    pairOf (f.name ++ '=' :: s) = (utf8 f.name, formDecode s) := by
  rw [pairOf, cutAt_append (notMem_name (by decide)), cutAt_cons_self, List.append_nil,
    formDecode_name f.named.2]
  rfl

end Field

/-- `name=text` with `&` between. -/
def joinFields (f : Field) : List Field → List Char
  | [] => f.written
  | g :: fs => f.written ++ '&' :: joinFields g fs

section joinFields

variable {f g : Field} {fs : List Field} {c : Char} {s t : List Char}

theorem Field.notMem_written {d : Char} (other : isNameChar d = false) (ne : d ≠ '=')
    (clean : d ∉ s) : d ∉ f.name ++ '=' :: s := by
  rw [List.mem_append, List.mem_cons, not_or, not_or]
  exact ⟨notMem_name other, ne, clean⟩

theorem Field.written_ne_nil (f : Field) (s : List Char) : f.name ++ '=' :: s ≠ [] := by
  simp

/-- An intact field is read back. -/
theorem Field.Intact.fieldsOf_written (intact : f.Intact) : fieldsOf f.written = [f.delivered] := by
  have clean : '&' ∉ f.written := notMem_written (by decide) (by decide) intact.noPair
  rw [fieldsOf_piece clean (written_ne_nil f _), written, pairOf_written, intact.decodes]
  rfl

theorem Field.Intact.notMem_written (intact : f.Intact) : '#' ∉ f.written :=
  Field.notMem_written (by decide) (by decide) intact.noFragment

theorem notMem_joinFields (intact : ∀ g ∈ f :: fs, g.Intact) : '#' ∉ joinFields f fs := by
  induction fs generalizing f with
  | nil => exact (intact f List.mem_cons_self).notMem_written
  | cons g fs ih =>
      rw [joinFields, List.mem_append, List.mem_cons, not_or, not_or]
      exact ⟨(intact f List.mem_cons_self).notMem_written, by decide,
        ih fun g mem => intact g (List.mem_cons_of_mem _ mem)⟩

/-- Intact fields in a row are read back, one by one. -/
theorem fieldsOf_joinFields (intact : ∀ g ∈ f :: fs, g.Intact) :
    fieldsOf (joinFields f fs) = (f :: fs).map Field.delivered := by
  induction fs generalizing f with
  | nil => exact (intact f List.mem_cons_self).fieldsOf_written
  | cons g fs ih =>
      rw [joinFields, fieldsOf_append, (intact f List.mem_cons_self).fieldsOf_written,
        ih fun g mem => intact g (List.mem_cons_of_mem _ mem)]
      rfl

/-- A text cut off at a delimiter decodes to less than the value. -/
theorem Field.Honest.ne_of_cut (honest : f.Honest) (delimiter : isDelimiter c = true)
    (eq : f.text = s ++ c :: t) : formDecode s ≠ utf8 f.value := by
  intro same
  have short := length_utf8EncodeChar_pos c
  rcases honest with decodes | asIs
  · rw [eq, formDecode_append_delimiter delimiter, ← same] at decodes
    have := congrArg List.length decodes
    rw [List.length_append, List.length_append] at this
    omega
  · have le := length_formDecode_le s
    rw [same, ← asIs, eq, utf8_append, utf8_cons, List.length_append, List.length_append] at le
    omega

/-- The delimiters that end a field. -/
theorem clean_or_cut (text : List Char) : ('&' ∉ text ∧ '#' ∉ text) ∨
    ∃ s c t, text = s ++ c :: t ∧ (c = '&' ∨ c = '#') ∧ '&' ∉ s ∧ '#' ∉ s := by
  induction text with
  | nil => exact .inl ⟨List.not_mem_nil, List.not_mem_nil⟩
  | cons c text ih =>
      by_cases ends : c = '&' ∨ c = '#'
      · exact .inr ⟨[], c, text, rfl, ends, List.not_mem_nil, List.not_mem_nil⟩
      rw [not_or] at ends
      rcases ih with ⟨pair, fragment⟩ | ⟨s, d, t, rfl, is, pair, fragment⟩
      · exact .inl ⟨by simp [Ne.symm ends.1, pair], by simp [Ne.symm ends.2, fragment]⟩
      · exact .inr ⟨c :: s, d, t, rfl, is, by simp [Ne.symm ends.1, pair],
          by simp [Ne.symm ends.2, fragment]⟩

/-- What is read of a field is the text up to the delimiter that ends it. -/
theorem Field.decode_of_read (pair : '&' ∉ s) (fragment : '#' ∉ s)
    (ends : t = [] ∨ ∃ rest, t = '&' :: rest ∨ t = '#' :: rest)
    {more : List (List UInt8 × List UInt8)}
    (read : fieldsOf (cutAt '#' (f.name ++ '=' :: s ++ t)).1 = f.delivered :: more) :
    formDecode s = utf8 f.value := by
  rw [cutAt_append (notMem_written (by decide) (by decide) fragment)] at read
  have stops : (cutAt '#' t).1 = [] ∨ ∃ rest, (cutAt '#' t).1 = '&' :: rest := by
    rcases ends with rfl | ⟨rest, rfl | rfl⟩
    · exact .inl rfl
    · exact .inr ⟨(cutAt '#' rest).1, rfl⟩
    · exact .inl (by rw [cutAt_cons_self])
  obtain ⟨more', eq⟩ := fieldsOf_cons (notMem_written (by decide) (by decide) pair)
    (f.written_ne_nil s) stops
  rw [eq, pairOf_written] at read
  exact congrArg Prod.snd (List.cons.inj read).1

/-- What is read back first was intact. -/
theorem Field.Honest.intact (honest : f.Honest) (ends : t = [] ∨ ∃ rest, t = '&' :: rest)
    {more : List (List UInt8 × List UInt8)}
    (read : fieldsOf (cutAt '#' (f.written ++ t)).1 = f.delivered :: more) : f.Intact := by
  rcases clean_or_cut f.text with ⟨pair, fragment⟩ | ⟨s, c, rest, eq, is, pair, fragment⟩
  · have ends' : t = [] ∨ ∃ rest, t = '&' :: rest ∨ t = '#' :: rest :=
      ends.imp_right (Exists.imp fun _ => .inl)
    exact ⟨pair, fragment, decode_of_read pair fragment ends' read⟩
  · have delimiter : isDelimiter c = true := by rcases is with rfl | rfl <;> rfl
    have stops : c :: (rest ++ t) = [] ∨
        ∃ rest', c :: (rest ++ t) = '&' :: rest' ∨ c :: (rest ++ t) = '#' :: rest' := by
      refine .inr ⟨rest ++ t, ?_⟩
      rcases is with rfl | rfl
      · exact .inl rfl
      · exact .inr rfl
    have shape : f.written ++ t = f.name ++ '=' :: s ++ c :: (rest ++ t) := by
      rw [written, eq]
      simp
    rw [shape] at read
    exact absurd (decode_of_read pair fragment stops read) (honest.ne_of_cut delimiter eq)

/-- Fields that are all read back were intact. -/
theorem intact_of_read (honest : ∀ g ∈ f :: fs, g.Honest)
    (read : fieldsOf (cutAt '#' (joinFields f fs)).1 = (f :: fs).map Field.delivered) :
    ∀ g ∈ f :: fs, g.Intact := by
  induction fs generalizing f with
  | nil =>
      have whole : f.Intact := by
        have alone : fieldsOf (cutAt '#' (f.written ++ [])).1 = [f.delivered] := by
          rw [List.append_nil]
          exact read
        exact (honest f List.mem_cons_self).intact (.inl rfl) alone
      intro g mem
      rw [List.mem_singleton.mp mem]
      exact whole
  | cons g fs ih =>
      have whole := (honest f List.mem_cons_self).intact (.inr ⟨joinFields g fs, rfl⟩) read
      rw [joinFields, cutAt_append whole.notMem_written] at read
      have step : (cutAt '#' ('&' :: joinFields g fs)).1 =
          '&' :: (cutAt '#' (joinFields g fs)).1 := rfl
      rw [step, fieldsOf_append, whole.fieldsOf_written] at read
      have rest := ih (fun g mem => honest g (List.mem_cons_of_mem _ mem)) (List.cons.inj read).2
      intro h mem
      rcases List.mem_cons.mp mem with rfl | mem
      · exact whole
      · exact rest h mem

end joinFields

/-! ## An encoder -/

/-- The digit of a value below 16. -/
def hexDigit (n : Nat) : Char :=
  Char.ofNat (if n < 10 then 48 + n else 55 + n)

/-- Letters, digits and `_` as they are, any other byte as `%XY`. -/
def encodeByte (b : UInt8) : List Char :=
  if isNameChar (Char.ofNat b.toNat) then [Char.ofNat b.toNat]
  else ['%', hexDigit (b.toNat / 16), hexDigit (b.toNat % 16)]

/-- A text as a form writes it, byte for byte. -/
def formEncode (s : List Char) : List Char :=
  (utf8 s).flatMap encodeByte

section formEncode

variable {c : Char}

theorem hexValue_hexDigit {n : Nat} (small : n < 16) : hexValue (hexDigit n) = some n := by
  have all : ∀ m : Fin 16, hexValue (hexDigit m) = some m.val := by decide
  exact all ⟨n, small⟩

theorem toNat_ofNat_byte (b : UInt8) : (Char.ofNat b.toNat).toNat = b.toNat := by
  have valid : b.toNat.isValidChar := .inl (lt_trans b.toNat_lt (by decide))
  rw [Char.ofNat, dif_pos valid]
  rfl

/-- A byte is read back from its encoding. -/
theorem formDecode_encodeByte (b : UInt8) (s : List Char) :
    formDecode (encodeByte b ++ s) = b :: formDecode s := by
  unfold encodeByte
  split
  next name =>
    have ascii := toNat_of_isNameChar name
    have escape : Char.ofNat b.toNat ≠ '%' := by
      intro eq
      rw [eq] at name
      exact absurd name (by decide)
    have space : Char.ofNat b.toNat ≠ '+' := by
      intro eq
      rw [eq] at name
      exact absurd name (by decide)
    rw [List.singleton_append, formDecode_cons escape space, utf8EncodeChar_of_le ascii,
      toNat_ofNat_byte, UInt8.ofNat_toNat]
    rfl
  next =>
    have high : b.toNat / 16 < 16 := Nat.div_lt_of_lt_mul b.toNat_lt
    have low : b.toNat % 16 < 16 := Nat.mod_lt _ (by decide)
    rw [List.cons_append, List.cons_append, List.cons_append, List.nil_append,
      formDecode_escape (hexValue_hexDigit high) (hexValue_hexDigit low), Nat.div_add_mod,
      UInt8.ofNat_toNat]

/-- **The encoding of a form is read back**. -/
theorem formDecode_formEncode (s : List Char) : formDecode (formEncode s) = utf8 s := by
  unfold formEncode
  induction utf8 s with
  | nil => rfl
  | cons b bytes ih => rw [List.flatMap_cons, formDecode_encodeByte, ih]

/-- An encoded byte holds no delimiter. -/
theorem notMem_encodeByte (delimiter : isDelimiter c = true) (b : UInt8) : c ∉ encodeByte b := by
  have other : isNameChar c = false := by
    simp only [isDelimiter, Bool.or_eq_true, decide_eq_true_eq] at delimiter
    rcases delimiter with ((rfl | rfl) | rfl) | rfl <;> decide
  have digit {n : Nat} (small : n < 16) : c ≠ hexDigit n := by
    have all : ∀ m : Fin 16, isNameChar (hexDigit m) = true := by decide
    rintro rfl
    exact absurd (all ⟨n, small⟩) (by simp [other])
  unfold encodeByte
  split
  next name =>
    rw [List.mem_singleton]
    rintro rfl
    rw [other] at name
    cases name
  next =>
    simp only [List.mem_cons, List.not_mem_nil, or_false, not_or]
    refine ⟨?_, digit ?_, digit ?_⟩
    · rintro rfl
      cases delimiter
    · exact Nat.div_lt_of_lt_mul b.toNat_lt
    · exact Nat.mod_lt _ (by decide)

/-- What is encoded ends no field. -/
theorem notMem_formEncode (delimiter : isDelimiter c = true) (s : List Char) :
    c ∉ formEncode s := by
  intro mem
  obtain ⟨b, _, mem⟩ := List.mem_flatMap.mp mem
  exact notMem_encodeByte delimiter b mem

end formEncode

/-! ## URLs -/

/-- A text that begins with another one. -/
theorem exists_of_afterText {p s : String} (begins : (afterText p s).isSome = true) :
    ∃ rest, s.toList = p.toList ++ rest := by
  obtain ⟨rest, after⟩ := Option.isSome_iff_exists.mp begins
  exact ⟨rest.toList, by rw [eq_of_afterText after, String.toList_append]⟩

/-- Scheme, authority and path: what comes before the query and the fragment. -/
def addressOf (url : List Char) : List Char :=
  (cutAt '?' (cutAt '#' url).1).1

/-- A location up to its path. -/
structure Address where
  scheme : List Char
  authority : List Char
  path : List Char
deriving DecidableEq, Repr

/-- `scheme://authority/path`. -/
def Address.parse (url : List Char) : Option Address :=
  match (cutAt ':' (addressOf url)).2 with
  | some ('/' :: '/' :: rest) => some {
      scheme := (cutAt ':' (addressOf url)).1
      authority := rest.takeWhile (· ≠ '/')
      path := rest.dropWhile (· ≠ '/') }
  | _ => none

section params

variable {f : Field} {fs : List Field} {query url : List Char}

theorem cutAt_fragment_query (t : List Char) :
    (cutAt '#' ('?' :: t)).1 = '?' :: (cutAt '#' t).1 :=
  rfl

/-- A query does not belong to the address. -/
theorem addressOf_append_query (url t : List Char) :
    addressOf (url ++ '?' :: t) = addressOf url := by
  by_cases fragment : '#' ∈ url
  · rw [addressOf, cutAt_append_of_mem fragment]
    rfl
  rw [addressOf, addressOf, cutAt_append fragment, cutAt_fragment_query, cutAt_of_notMem fragment]
  by_cases query : '?' ∈ url
  · rw [cutAt_append_of_mem query]
  · rw [cutAt_append query, cutAt_cons_self, cutAt_of_notMem query, List.append_nil]

theorem Address.parse_append_query (url t : List Char) :
    Address.parse (url ++ '?' :: t) = Address.parse url := by
  rw [parse, parse, addressOf_append_query]

theorem addressOf_append {s : List Char} (noQuery : '?' ∉ s) (noFragment : '#' ∉ s)
    (t : List Char) : addressOf (s ++ t) = s ++ addressOf t := by
  rw [addressOf, cutAt_append noFragment, cutAt_append noQuery]
  rfl

/-- How a text with a scheme is taken apart. -/
theorem Address.parse_eq {scheme : List Char} (clean : ':' ∉ scheme) (noQuery : '?' ∉ scheme)
    (noFragment : '#' ∉ scheme) (rest : List Char) :
    Address.parse (scheme ++ ':' :: '/' :: '/' :: rest) = some {
      scheme := scheme
      authority := (addressOf rest).takeWhile (· ≠ '/')
      path := (addressOf rest).dropWhile (· ≠ '/') } := by
  have eq : addressOf (scheme ++ ':' :: '/' :: '/' :: rest) =
      scheme ++ ':' :: '/' :: '/' :: addressOf rest := by
    rw [addressOf_append noQuery noFragment]
    rfl
  have cut : cutAt ':' (scheme ++ ':' :: '/' :: '/' :: addressOf rest) =
      (scheme, some ('/' :: '/' :: addressOf rest)) := by
    rw [cutAt_append clean, cutAt_cons_self, List.append_nil]
  rw [parse, eq, cut]
  rfl

/-- A location without a query has no parameters. -/
theorem params_of_clean (noQuery : '?' ∉ url) (noFragment : '#' ∉ url) : params url = [] := by
  rw [params, cutAt_of_notMem noFragment, cutAt_of_notMem noQuery]
  rfl

/-- The parameters of a location that gets its query. -/
theorem params_append_of_clean (noQuery : '?' ∉ url) (noFragment : '#' ∉ url) (t : List Char) :
    params (url ++ '?' :: t) = fieldsOf (cutAt '#' t).1 := by
  rw [params, cutAt_append noFragment, cutAt_fragment_query, cutAt_append noQuery, cutAt_cons_self]
  rfl

/-- A second `?` is part of the last field, or of the next name. -/
theorem fieldsOf_append_query_ne (query t : List Char) :
    fieldsOf (query ++ '?' :: t) ≠ fieldsOf query ++ (f :: fs).map Field.delivered := by
  intro same
  obtain ⟨before, last, clean, eq⟩ := fieldsOf_last query
  have piece : ∃ e r, t = e ++ r ∧ '&' ∉ e ∧ (r = [] ∨ ∃ rest, r = '&' :: rest) := by
    by_cases mem : '&' ∈ t
    · obtain ⟨e, rest, eq, clean⟩ := List.eq_append_cons_of_mem mem
      exact ⟨e, '&' :: rest, eq, clean, .inr ⟨rest, rfl⟩⟩
    · exact ⟨t, [], (List.append_nil t).symm, mem, .inl rfl⟩
  obtain ⟨e, r, rfl, clean', ends⟩ := piece
  have mixed : '&' ∉ last ++ '?' :: e := by simp [clean, clean']
  obtain ⟨more, first⟩ := fieldsOf_cons mixed (by simp) ends
  have own := eq []
  rw [List.append_nil, List.append_nil] at own
  rw [eq, own, List.append_assoc, List.append_cancel_left_eq] at same
  rw [List.append_assoc, List.cons_append] at first
  rw [first] at same
  by_cases empty : last = []
  · subst empty
    have names := congrArg Prod.fst (List.cons.inj same).1
    exact f.utf8_name_ne _ names.symm
  · rw [fieldsOf_piece clean empty] at same
    exact pairOf_append_ne last e (List.cons.inj same).1

/-- What is written behind a URL is read back behind its own fields exactly when it has no query
and no fragment, and the texts are intact. -/
theorem appended_iff (honest : ∀ g ∈ f :: fs, g.Honest) :
    params (url ++ '?' :: joinFields f fs) = params url ++ (f :: fs).map Field.delivered ↔
      '?' ∉ url ∧ '#' ∉ url ∧ ∀ g ∈ f :: fs, g.Intact := by
  refine ⟨fun read => ?_, ?_⟩
  · have noFragment : '#' ∉ url := by
      intro mem
      have same : params (url ++ '?' :: joinFields f fs) = params url := by
        rw [params, cutAt_append_of_mem mem]
        rfl
      rw [same] at read
      have := congrArg List.length read
      rw [List.length_append, List.length_map, List.length_cons] at this
      omega
    have noQuery : '?' ∉ url := by
      intro mem
      obtain ⟨address, query, rfl, clean⟩ := List.eq_append_cons_of_mem mem
      have own : params (address ++ '?' :: query) = fieldsOf query := by
        rw [params, cutAt_of_notMem noFragment, cutAt_append clean, cutAt_cons_self]
        rfl
      have all : params (address ++ '?' :: query ++ '?' :: joinFields f fs) =
          fieldsOf (query ++ '?' :: (cutAt '#' (joinFields f fs)).1) := by
        rw [params, cutAt_append noFragment, cutAt_fragment_query, List.append_assoc,
          cutAt_append clean, List.cons_append, cutAt_cons_self]
        rfl
      rw [own, all] at read
      exact fieldsOf_append_query_ne query _ read
    rw [params_append_of_clean noQuery noFragment, params_of_clean noQuery noFragment] at read
    exact ⟨noQuery, noFragment, intact_of_read honest read⟩
  · rintro ⟨noQuery, noFragment, intact⟩
    rw [params_append_of_clean noQuery noFragment, params_of_clean noQuery noFragment,
      cutAt_of_notMem (notMem_joinFields intact), fieldsOf_joinFields intact]
    rfl

end params

end Fulla
