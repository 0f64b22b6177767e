import Mathlib.Data.List.Basic
import Mathlib.Data.List.TakeWhile

/-!
# Text helpers

The few string operations of the source that the model needs, over the list of
characters so that they compute.
-/

namespace Fulla

/-- Cut at every occurrence of `sep`; the pieces may be empty. -/
def splitChars (sep : Char) : List Char → List (List Char)
  | [] => [[]]
  | c :: cs =>
    if c = sep then [] :: splitChars sep cs
    else
      match splitChars sep cs with
      | [] => [[c]]
      | t :: ts => (c :: t) :: ts

/-- The non-empty space-separated tokens, as `std::getline(iss, s, ' ')` with a test
for emptiness, or the `find(' ')` loops, produce them. -/
def splitSpaces (s : String) : List String :=
  ((splitChars ' ' s.toList).filter (· ≠ [])).map String.ofList

/-- `std::toupper` on every character in the C locale. -/
def toUpperAscii (s : String) : String :=
  String.ofList (s.toList.map Char.toUpper)

/-- `std::tolower` on every character in the C locale. -/
def toLowerAscii (s : String) : String :=
  String.ofList (s.toList.map Char.toLower)

/-- `std::isspace` in the C locale. -/
def isSpaceAscii (c : Char) : Bool :=
  c = ' ' || (9 ≤ c.toNat && c.toNat ≤ 13)

/-- `EmailNormalizer.h`: trim, lower case, and for Gmail drop the tag and the dots of
the local part. -/
def normalizeEmail (input : String) : String :=
  let trimmed := ((input.toList.dropWhile isSpaceAscii).reverse.dropWhile isSpaceAscii).reverse
  let lowered := trimmed.map Char.toLower
  match lowered.dropWhile (· ≠ '@') with
  | [] => String.ofList lowered
  | _ :: domain =>
    let local_ := lowered.takeWhile (· ≠ '@')
    let folded :=
      if String.ofList domain = "gmail.com" ∨ String.ofList domain = "googlemail.com" then
        (local_.takeWhile (· ≠ '+')).filter (· ≠ '.')
      else local_
    String.ofList (folded ++ '@' :: domain)

/-- Non-empty and `find_first_not_of("0123456789") == npos`. -/
def isNumeric (s : String) : Bool :=
  s ≠ "" && s.toList.all Char.isDigit

/-- `s.rfind(p, 0) == 0`, and then what follows `p`. -/
def afterText (p s : String) : Option String :=
  if p.toList.isPrefixOf s.toList then some (String.ofList (s.toList.drop p.toList.length))
  else none

/-- `s.find(needle) != npos`. -/
def hasText (needle s : String) : Bool :=
  s.toList.tails.any needle.toList.isPrefixOf

/-- `std::stoll` or `std::stoi` in base 10: blanks, a sign, digits, then anything;
`none` where it throws, which is out of the range of `2 * bound` values or no digits. -/
def stoInt (bound : Nat) (s : String) : Option Int :=
  let cs := s.toList.dropWhile isSpaceAscii
  let negative := cs.head? = some '-'
  let cs := if negative || cs.head? = some '+' then cs.tail else cs
  let digits := cs.takeWhile Char.isDigit
  let magnitude : Nat := digits.foldl (fun n c => 10 * n + (c.toNat - 48)) 0
  let value : Int := if negative then -magnitude else magnitude
  if digits.isEmpty || value < -bound || (bound : Int) ≤ value then none else some value

/-- `if (!acc.empty()) acc += " "; acc += s` in a loop. -/
def joinSpaces (ss : List String) : String :=
  ss.foldl (fun acc s => if acc = "" then s else acc ++ " " ++ s) ""

/-! ## Tokens -/

theorem splitChars_eq_splitOn (sep : Char) (cs : List Char) :
    splitChars sep cs = cs.splitOn sep := by
  induction cs with
  | nil => rfl
  | cons c cs ih =>
      rw [splitChars, ih, List.splitOn_cons_eq_if_modifyHead]
      by_cases eq : c = sep
      · simp [eq]
      · obtain ⟨t, ts, cut⟩ := List.exists_cons_of_ne_nil (List.splitOn_ne_nil sep cs)
        simp [eq, cut]

theorem splitChars_append_sep (sep : Char) (s t : List Char) :
    splitChars sep (s ++ sep :: t) = splitChars sep s ++ splitChars sep t := by
  rw [splitChars_eq_splitOn, splitChars_eq_splitOn, splitChars_eq_splitOn]
  exact List.splitOn_append_cons_self _ _

theorem splitChars_of_notMem {sep : Char} {s : List Char} (clean : sep ∉ s) :
    splitChars sep s = [s] := by
  rw [splitChars_eq_splitOn, List.splitOn_eq_singleton clean]

theorem sep_notMem_of_mem_splitChars {sep : Char} {cs t : List Char}
    (mem : t ∈ splitChars sep cs) : sep ∉ t := by
  induction cs generalizing t with
  | nil =>
      cases List.mem_singleton.mp mem
      exact List.not_mem_nil
  | cons c cs ih =>
      rw [splitChars] at mem
      split at mem
      · rcases List.mem_cons.mp mem with rfl | tail
        · exact List.not_mem_nil
        · exact ih tail
      · next ne =>
          split at mem
          · cases List.mem_singleton.mp mem
            simpa using Ne.symm ne
          · next u us cut =>
              rw [cut] at ih
              rcases List.mem_cons.mp mem with rfl | tail
              · simpa [Ne.symm ne] using ih List.mem_cons_self
              · exact ih (List.mem_cons_of_mem _ tail)

@[simp]
theorem splitSpaces_empty : splitSpaces "" = [] :=
  rfl

theorem splitSpaces_append_space (s t : String) :
    splitSpaces (s ++ " " ++ t) = splitSpaces s ++ splitSpaces t := by
  have cut : splitChars ' ' (s ++ " " ++ t).toList =
      splitChars ' ' s.toList ++ splitChars ' ' t.toList := by
    have joined : (s ++ " " ++ t).toList = s.toList ++ ' ' :: t.toList := by simp
    rw [joined, splitChars_append_sep]
  simp only [splitSpaces, cut, List.filter_append, List.map_append]

/-- A token is its own only token. -/
theorem splitSpaces_of_mem {s t : String} (mem : t ∈ splitSpaces s) : splitSpaces t = [t] := by
  obtain ⟨cs, memCs, rfl⟩ := List.mem_map.mp mem
  obtain ⟨cut, nonempty⟩ := List.mem_filter.mp memCs
  rw [splitSpaces, String.toList_ofList, splitChars_of_notMem (sep_notMem_of_mem_splitChars cut)]
  simp [of_decide_eq_true nonempty]

theorem splitSpaces_joinSpaces (ss : List String) :
    splitSpaces (joinSpaces ss) = ss.flatMap splitSpaces := by
  have loop (acc : String) :
      splitSpaces (ss.foldl (fun acc s => if acc = "" then s else acc ++ " " ++ s) acc) =
        splitSpaces acc ++ ss.flatMap splitSpaces := by
    induction ss generalizing acc with
    | nil => simp
    | cons s ss ih =>
        rw [List.foldl_cons, ih, List.flatMap_cons, ← List.append_assoc]
        split
        · next empty => rw [empty, splitSpaces_empty, List.nil_append]
        · rw [splitSpaces_append_space]
  rw [joinSpaces, loop, splitSpaces_empty, List.nil_append]

/-! ## Scope membership -/

/-- The loop of `scopeContains`: leading blanks are skipped, a token ends at a space. -/
def scopeContainsLoop (required : List Char) : Nat → List Char → Bool
  | 0, _ => false
  | fuel + 1, s =>
    let s := s.dropWhile fun c => c = ' ' || c = '\t'
    if s.isEmpty then false
    else if s.takeWhile (· ≠ ' ') = required then true
    else scopeContainsLoop required fuel (s.dropWhile (· ≠ ' '))

/-- Token-exact scope membership; every turn of the loop consumes a character. -/
def scopeContains (scopes required : String) : Bool :=
  if required = "" then true
  else scopeContainsLoop required.toList (scopes.toList.length + 1) scopes.toList

/-! ## Appended texts -/

/-- Texts that differ within their first `n` characters stay different. -/
theorem append_ne_of_take {p q : String} (n : Nat) (longP : n ≤ p.toList.length)
    (longQ : n ≤ q.toList.length) (differ : p.toList.take n ≠ q.toList.take n) (a b : String) :
    p ++ a ≠ q ++ b := by
  intro same
  have lists : p.toList ++ a.toList = q.toList ++ b.toList := by
    rw [← String.toList_append, ← String.toList_append, same]
  apply differ
  calc p.toList.take n
      = (p.toList ++ a.toList).take n := (List.take_append_of_le_length longP).symm
    _ = (q.toList ++ b.toList).take n := by rw [lists]
    _ = q.toList.take n := List.take_append_of_le_length longQ

theorem afterText_append (p key : String) : afterText p (p ++ key) = some key := by
  simp [afterText]

theorem eq_of_afterText {p s key : String} (after : afterText p s = some key) : s = p ++ key := by
  unfold afterText at after
  split at after
  · next begins =>
      obtain ⟨rest, eq⟩ := List.isPrefixOf_iff_prefix.mp begins
      cases after
      rw [← String.toList_inj, String.toList_append, String.toList_ofList, ← eq, List.drop_left]
  · cases after

/-! ## Numbers -/

theorem isSpaceAscii_of_isDigit {c : Char} (digit : c.isDigit = true) : isSpaceAscii c = false := by
  have bound : 48 ≤ c.toNat := by
    simp only [Char.isDigit, Bool.and_eq_true, decide_eq_true_eq, ge_iff_le] at digit
    exact digit.1
  have blank : c ≠ ' ' := by
    rintro rfl
    exact absurd bound (by decide)
  simp only [isSpaceAscii, blank, decide_false, Bool.false_or, Bool.and_eq_false_imp,
    decide_eq_true_eq, decide_eq_false_iff_not]
  omega

theorem notMem_toString {c : Char} (sign : c ≠ '-') (digit : c.isDigit = false) (n : Int) :
    c ∉ (toString n).toList := by
  have digits (k : Nat) : c ∉ Nat.toDigits 10 k := by
    intro mem
    exact absurd (Nat.isDigit_of_mem_toDigits (by decide) (by decide) mem) (by simp [digit])
  rw [show toString n = n.repr from rfl, Int.repr_eq_if]
  split
  · simp [digits]
  · simp [digits, sign]

/-- A number that is written out is read back. -/
theorem stoInt_toString {bound : Nat} {n : Int} (low : -(bound : Int) ≤ n) (high : n < bound) :
    stoInt bound (toString n) = some n := by
  have digit : ∀ k : Nat, ∀ c ∈ Nat.toDigits 10 k, c.isDigit = true := fun k c mem =>
    Nat.isDigit_of_mem_toDigits (by decide) (by decide) mem
  have value : ∀ k : Nat, (Nat.toDigits 10 k).foldl (fun n c => 10 * n + (c.toNat - 48)) 0 = k :=
    fun k => Nat.ofDigitChars_toDigits (by decide) (by decide)
  have some_ : ∀ k : Nat, ((Nat.toDigits 10 k).isEmpty) = false := by
    intro k
    cases eq : Nat.toDigits 10 k with
    | nil => exact absurd eq Nat.toDigits_ne_nil
    | cons c cs => rfl
  have all : ∀ k : Nat, (Nat.toDigits 10 k).takeWhile Char.isDigit = Nat.toDigits 10 k := fun k =>
    List.takeWhile_eq_self_iff.mpr (digit k)
  cases n with
  | ofNat k =>
      have text : (toString (Int.ofNat k)).toList = Nat.toDigits 10 k := by
        simp [toString, Int.repr]
      obtain ⟨c, cs, eq⟩ := List.exists_cons_of_ne_nil (Nat.toDigits_ne_nil (n := k) (b := 10))
      have first := digit k c (by rw [eq]; exact List.mem_cons_self)
      have blank := isSpaceAscii_of_isDigit first
      have minus : c ≠ '-' := fun same => by subst same; cases first
      have plus : c ≠ '+' := fun same => by subst same; cases first
      have kept : (Nat.toDigits 10 k).dropWhile isSpaceAscii = Nat.toDigits 10 k := by
        rw [eq, List.dropWhile_cons_of_neg (by simp [blank])]
      have head : (Nat.toDigits 10 k).head? = some c := by rw [eq]; rfl
      simp only [stoInt, text, kept, head, Option.some.injEq, minus, plus, decide_false,
        Bool.or_false, Bool.false_eq_true, if_false, all, some_, value, Bool.false_or]
      rw [if_neg]
      · rfl
      · simp only [Int.ofNat_eq_natCast] at low high
        simp only [Bool.or_eq_true, decide_eq_true_eq]
        omega
  | negSucc k =>
      have text : (toString (Int.negSucc k)).toList = '-' :: Nat.toDigits 10 (k + 1) := by
        simp [toString, Int.repr]
      have kept : ('-' :: Nat.toDigits 10 (k + 1)).dropWhile isSpaceAscii =
          '-' :: Nat.toDigits 10 (k + 1) := rfl
      simp only [stoInt, text, kept, List.head?_cons, decide_true, Bool.true_or, if_true,
        List.tail_cons, all, some_, value, Bool.false_or]
      rw [if_neg]
      · rfl
      · rw [Int.negSucc_eq] at low high
        simp only [Bool.or_eq_true, decide_eq_true_eq]
        omega

end Fulla
