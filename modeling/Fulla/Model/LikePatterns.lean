import Mathlib.Data.List.Infix

/-!
# LIKE patterns

A pattern of SQL's `LIKE` is a text in which `%` stands for any text, `_` for any one character
and a backslash for the character after it.  A text that is followed by `%` is the pattern of a
prefix if and only if it has none of the three: for any other text there is one that the pattern
matches and that does not begin with it.
-/

namespace Fulla

/-- One item of a `LIKE` pattern. -/
inductive LikeItem where
  /-- `%` -/
  | text
  /-- `_` -/
  | one
  | literal (c : Char)
deriving DecidableEq, Repr

/-- The items of a pattern; one that ends with the escape is none. -/
def likeItems : List Char → Option (List LikeItem)
  | [] => some []
  | c :: cs =>
    if c = '\\' then
      match cs with
      | [] => none
      | e :: cs => (likeItems cs).map (.literal e :: ·)
    else
      (likeItems cs).map
        ((if c = '%' then .text else if c = '_' then .one else .literal c) :: ·)

/-- The text matches the items, one after the other. -/
def likeMatch : List LikeItem → List Char → Bool
  | [], s => s.isEmpty
  | .text :: items, s => s.tails.any (likeMatch items)
  | .one :: items, s => !s.isEmpty && likeMatch items s.tail
  | .literal c :: items, s => s.head? = some c && likeMatch items s.tail

/-- `text LIKE pattern` -/
def like (pattern text : String) : Bool :=
  match likeItems pattern.toList with
  | none => false
  | some items => likeMatch items text.toList

/-- The character stands for itself in a pattern. -/
def isLikePlain (c : Char) : Bool :=
  c ≠ '%' && c ≠ '_' && c ≠ '\\'

section Patterns

variable {items : List LikeItem} {c e : Char} {s cs : List Char}

theorem likeItems_escape : likeItems ('\\' :: e :: cs) = (likeItems cs).map (.literal e :: ·) :=
  rfl

theorem likeItems_cons (ne : c ≠ '\\') : likeItems (c :: cs) = (likeItems cs).map
    ((if c = '%' then .text else if c = '_' then .one else .literal c) :: ·) := by
  rw [likeItems.eq_def]
  exact if_neg ne

theorem likeItems_text : likeItems ('%' :: cs) = (likeItems cs).map (.text :: ·) :=
  likeItems_cons (by decide)

theorem likeItems_one : likeItems ('_' :: cs) = (likeItems cs).map (.one :: ·) :=
  likeItems_cons (by decide)

theorem likeItems_plain (plain : isLikePlain c = true) :
    likeItems (c :: cs) = (likeItems cs).map (.literal c :: ·) := by
  simp only [isLikePlain, ne_eq, Bool.and_eq_true, decide_eq_true_eq] at plain
  rw [likeItems_cons plain.2, if_neg plain.1.1, if_neg plain.1.2]

theorem likeMatch_text : likeMatch (.text :: items) s = true ↔
    ∃ rest, rest <:+ s ∧ likeMatch items rest = true := by
  simp [likeMatch]

/-- A pattern that begins with `%` matches what its rest matches. -/
theorem likeMatch_text_of_match (matches_ : likeMatch items s = true) :
    likeMatch (.text :: items) s = true :=
  likeMatch_text.mpr ⟨s, List.suffix_rfl, matches_⟩

theorem likeMatch_literal_cons : likeMatch (.literal e :: items) (c :: s) =
    (c = e && likeMatch items s) := by
  simp [likeMatch]

theorem likeMatch_one_cons : likeMatch (.one :: items) (c :: s) = likeMatch items s :=
  rfl

/-- Any text ends with the empty one. -/
theorem likeMatch_text_nil : likeMatch [.text] s = true :=
  likeMatch_text.mpr ⟨[], List.nil_suffix, rfl⟩

end Patterns

section Prefixes

variable {p r : List Char}

theorem likeMatch_literals (p s : List Char) :
    likeMatch (p.map .literal ++ [.text]) s = true ↔ p <+: s := by
  induction p generalizing s with
  | nil => exact iff_of_true likeMatch_text_nil List.nil_prefix
  | cons c p ih =>
      cases s with
      | nil => simp [likeMatch]
      | cons d s =>
          rw [List.map_cons, List.cons_append, likeMatch_literal_cons, Bool.and_eq_true,
            decide_eq_true_eq, ih, List.cons_prefix_cons, eq_comm]

theorem likeItems_of_plain (plain : ∀ c ∈ p, isLikePlain c = true) :
    likeItems (p ++ ['%']) = some (p.map .literal ++ [.text]) := by
  induction p with
  | nil => rfl
  | cons c p ih =>
      rw [List.cons_append, likeItems_plain (plain c List.mem_cons_self),
        ih fun c mem => plain c (List.mem_cons_of_mem _ mem)]
      rfl

/-- Some text that is no longer than `r` is matched. -/
theorem exists_short_match (r : List Char) : ∃ items t, likeItems (r ++ ['%']) = some items ∧
    likeMatch items t = true ∧ t.length ≤ r.length := by
  induction r using likeItems.induct with
  | case1 => exact ⟨[.text], [], rfl, likeMatch_text_nil, le_rfl⟩
  | case2 => exact ⟨[.literal '%'], ['%'], rfl, rfl, le_rfl⟩
  | case3 e cs ih =>
      obtain ⟨items, t, parsed, matches_, short⟩ := ih
      refine ⟨.literal e :: items, e :: t, ?_, ?_, ?_⟩
      · rw [List.cons_append, List.cons_append, likeItems_escape, parsed]
        rfl
      · rw [likeMatch_literal_cons, matches_]
        simp
      · simp only [List.length_cons]
        omega
  | case4 c cs ne ih =>
      obtain ⟨items, t, parsed, matches_, short⟩ := ih
      by_cases text : c = '%'
      · subst text
        refine ⟨.text :: items, t, ?_, likeMatch_text_of_match matches_, ?_⟩
        · rw [List.cons_append, likeItems_text, parsed]
          rfl
        · rw [List.length_cons]
          omega
      by_cases one : c = '_'
      · subst one
        refine ⟨.one :: items, '_' :: t, ?_, likeMatch_one_cons.trans matches_, ?_⟩
        · rw [List.cons_append, likeItems_one, parsed]
          rfl
        · rw [List.length_cons, List.length_cons]
          omega
      · have plain : isLikePlain c = true := by
          simp [isLikePlain, text, one, ne]
        refine ⟨.literal c :: items, c :: t, ?_, ?_, ?_⟩
        · rw [List.cons_append, likeItems_plain plain, parsed]
          rfl
        · rw [likeMatch_literal_cons, matches_]
          simp
        · rw [List.length_cons, List.length_cons]
          omega

/-- A text with one of the three characters is no prefix of some text that is matched. -/
theorem exists_matched_without_prefix (special : ∃ c ∈ p, isLikePlain c = false) :
    ∃ items t, likeItems (p ++ ['%']) = some items ∧ likeMatch items t = true ∧ ¬ p <+: t := by
  induction p with
  | nil =>
      obtain ⟨c, mem, _⟩ := special
      cases mem
  | cons c p ih =>
      by_cases plain : isLikePlain c = true
      · have later : ∃ c ∈ p, isLikePlain c = false := by
          obtain ⟨d, mem, wild⟩ := special
          rcases List.mem_cons.mp mem with rfl | mem
          · cases plain.symm.trans wild
          · exact ⟨d, mem, wild⟩
        obtain ⟨items, t, parsed, matches_, apart⟩ := ih later
        refine ⟨.literal c :: items, c :: t, ?_, ?_, fun begins => ?_⟩
        · rw [List.cons_append, likeItems_plain plain, parsed]
          rfl
        · rw [likeMatch_literal_cons, matches_]
          simp
        · exact apart (List.cons_prefix_cons.mp begins).2
      -- the first of the three: the text that the rest matches is too short, or differs here
      by_cases escape : c = '\\'
      · subst escape
        cases p with
        | nil =>
            refine ⟨[.literal '%'], ['%'], rfl, rfl, fun begins => ?_⟩
            exact absurd (List.cons_prefix_cons.mp begins).1 (by decide)
        | cons e p =>
            obtain ⟨items, t, parsed, matches_, short⟩ := exists_short_match p
            refine ⟨.literal e :: items, e :: t, ?_, ?_, fun begins => ?_⟩
            · rw [List.cons_append, List.cons_append, likeItems_escape, parsed]
              rfl
            · rw [likeMatch_literal_cons, matches_]
              simp
            · have := begins.length_le
              simp only [List.length_cons] at this
              omega
      obtain ⟨items, t, parsed, matches_, short⟩ := exists_short_match p
      by_cases text : c = '%'
      · subst text
        refine ⟨.text :: items, t, ?_, likeMatch_text_of_match matches_, fun begins => ?_⟩
        · rw [List.cons_append, likeItems_text, parsed]
          rfl
        · have := begins.length_le
          rw [List.length_cons] at this
          omega
      · have one : c = '_' := by
          by_contra other
          exact plain (by simp [isLikePlain, text, other, escape])
        subst one
        refine ⟨.one :: items, 'x' :: t, ?_, likeMatch_one_cons.trans matches_, fun begins => ?_⟩
        · rw [List.cons_append, likeItems_one, parsed]
          rfl
        · exact absurd (List.cons_prefix_cons.mp begins).1 (by decide)

end Prefixes

/-- Texts that `LIKE` with a `%` behind takes as they are. -/
theorem like_prefix_iff (p : String) :
    (∀ text : String, like (p ++ "%") text = true ↔ p.toList <+: text.toList) ↔
      ∀ c ∈ p.toList, isLikePlain c = true := by
  have pattern : (p ++ "%").toList = p.toList ++ ['%'] := String.toList_append
  constructor
  · intro exact_
    by_contra wild
    have special : ∃ c ∈ p.toList, isLikePlain c = false := by
      simpa using wild
    obtain ⟨items, t, parsed, matches_, apart⟩ := exists_matched_without_prefix special
    refine apart ?_
    have matched : like (p ++ "%") (String.ofList t) = true := by
      unfold like
      rw [pattern, parsed]
      simpa using matches_
    simpa using (exact_ (String.ofList t)).mp matched
  · intro plain text
    unfold like
    rw [pattern, likeItems_of_plain plain]
    exact likeMatch_literals p.toList text.toList

end Fulla
