import Mathlib.Data.List.DropRight
import Fulla.Model.Text

/-!
# One spelling for an address

`normalizeEmail` trims an address, lowers its letters and then folds a Gmail address.  The fold
comes last and is not followed by another trim: the dots it drops at the front of the local part
may have stood before a blank, which then begins the result.

`normalizeEmail_canonical_iff`: the result is one that normalizing leaves alone, without blanks
at its ends and without capitals, exactly for the other addresses.
-/

namespace Fulla

namespace EmailAddress

/-- The first two steps of `normalizeEmail`. -/
def lowered (input : String) : List Char :=
  ((input.toList.dropWhile isSpaceAscii).rdropWhile isSpaceAscii).map Char.toLower

/-- What stands before the first `@`. -/
def localPart (address : List Char) : List Char :=
  address.takeWhile (· ≠ '@')

/-- What stands after the first `@`. -/
def domain (address : List Char) : List Char :=
  (address.dropWhile (· ≠ '@')).tail

/-- The addresses that are folded. -/
def IsGmail (address : List Char) : Prop :=
  '@' ∈ address ∧ (String.ofList (domain address) = "gmail.com" ∨
    String.ofList (domain address) = "googlemail.com")

/-- The local part without its tag and its dots. -/
def foldedLocal (address : List Char) : List Char :=
  ((localPart address).takeWhile (· ≠ '+')).filter (· ≠ '.')

/-- The last step of `normalizeEmail`. -/
def folded (address : List Char) : List Char :=
  match address.dropWhile (· ≠ '@') with
  | [] => address
  | _ :: domain =>
    let local_ := localPart address
    let folded :=
      if String.ofList domain = "gmail.com" ∨ String.ofList domain = "googlemail.com" then
        (local_.takeWhile (· ≠ '+')).filter (· ≠ '.')
      else local_
    folded ++ '@' :: domain

theorem normalizeEmail_eq (input : String) :
    normalizeEmail input = String.ofList (folded (lowered input)) := by
  change (match (lowered input).dropWhile (· ≠ '@') with
    | [] => String.ofList (lowered input)
    | _ :: domain => _) = _
  unfold folded
  cases (lowered input).dropWhile (· ≠ '@') with
  | nil => rfl
  | cons at_ domain => rfl

/-- No blank at either end, and no capital. -/
structure Plain (address : List Char) : Prop where
  front : ∀ c ∈ address.head?, isSpaceAscii c = false
  back : ∀ c ∈ address.getLast?, isSpaceAscii c = false
  lower : ∀ c ∈ address, c.isUpper = false

/-- The local part of a Gmail address begins with dots and then a blank. -/
def DotsHideBlank (address : List Char) : Prop :=
  IsGmail address ∧ ∃ c ∈ ((localPart address).dropWhile (· = '.')).head?, isSpaceAscii c = true

/-! ## The two steps -/

theorem toLower_of_not_upper {c : Char} (lower : c.isUpper = false) : c.toLower = c := by
  unfold Char.toLower
  rw [dif_neg]
  intro upper
  have : c.isUpper = true := decide_eq_true upper
  rw [lower] at this
  cases this

/-- A capital is below 128, where all of them can be looked at. -/
theorem lower_of_upper {c : Char} (upper : c.isUpper = true) :
    isSpaceAscii c.toLower = false ∧ isSpaceAscii c = false ∧ c.toLower.isUpper = false := by
  have all : ∀ k : Fin 128, (Char.ofNat k).isUpper = true →
      isSpaceAscii (Char.ofNat k).toLower = false ∧ isSpaceAscii (Char.ofNat k) = false ∧
        (Char.ofNat k).toLower.isUpper = false := by
    decide
  have ascii : c.toNat < 128 := Nat.lt_of_le_of_lt (of_decide_eq_true upper).2 (by decide)
  have same := all ⟨c.toNat, ascii⟩
  rw [Char.ofNat_toNat] at same
  exact same upper

theorem isSpaceAscii_toLower (c : Char) : isSpaceAscii c.toLower = isSpaceAscii c := by
  cases upper : c.isUpper with
  | true =>
      obtain ⟨left, right, -⟩ := lower_of_upper upper
      rw [left, right]
  | false => rw [toLower_of_not_upper upper]

theorem isUpper_toLower (c : Char) : c.toLower.isUpper = false := by
  cases upper : c.isUpper with
  | true => exact (lower_of_upper upper).2.2
  | false =>
      rw [toLower_of_not_upper upper]
      exact upper

theorem front_of_beginning {l l' : List Char} (front : ∀ c ∈ l.head?, isSpaceAscii c = false)
    (pre : l' <+: l) : ∀ c ∈ l'.head?, isSpaceAscii c = false := by
  obtain ⟨rest, rfl⟩ := pre
  cases l' with
  | nil => nofun
  | cons c l' => exact front

theorem plain_lowered (input : String) : Plain (lowered input) := by
  let cut := (input.toList.dropWhile isSpaceAscii).rdropWhile isSpaceAscii
  have lowering (o : Option Char) (blankless : ∀ c ∈ o, isSpaceAscii c = false) :
      ∀ c ∈ o.map Char.toLower, isSpaceAscii c = false := by
    intro c mem
    obtain ⟨c, there, rfl⟩ := Option.map_eq_some_iff.mp mem
    rw [isSpaceAscii_toLower]
    exact blankless c there
  refine ⟨?_, ?_, ?_⟩
  · rw [lowered, List.head?_map]
    refine lowering _ (front_of_beginning ?_ (List.rdropWhile_prefix isSpaceAscii _))
    intro c first
    have := List.head?_dropWhile_not isSpaceAscii input.toList
    rw [first] at this
    simpa using this
  · rw [lowered, List.getLast?_map]
    refine lowering _ fun c last => ?_
    have some_ : cut ≠ [] := List.ne_nil_of_mem (List.mem_of_getLast? last)
    have := List.rdropWhile_last_not isSpaceAscii (input.toList.dropWhile isSpaceAscii) some_
    rw [List.getLast?_eq_some_getLast some_] at last
    cases last
    exact Bool.eq_false_iff.mpr this
  · intro c mem
    obtain ⟨c, -, rfl⟩ := List.mem_map.mp mem
    exact isUpper_toLower c

/-- A plain address is not changed by the first two steps. -/
theorem lowered_of_plain {address : List Char} (plain : Plain address) :
    lowered (String.ofList address) = address := by
  have front : address.dropWhile isSpaceAscii = address := by
    cases address with
    | nil => rfl
    | cons c cs =>
        rw [List.dropWhile_cons_of_neg]
        rw [plain.front c rfl]
        exact Bool.false_ne_true
  have back : address.rdropWhile isSpaceAscii = address := by
    rw [List.rdropWhile_eq_self_iff]
    intro some_
    rw [plain.back _ (List.getLast?_eq_some_getLast some_)]
    exact Bool.false_ne_true
  rw [lowered, String.toList_ofList, front, back]
  exact (List.map_congr_left fun c mem => toLower_of_not_upper (plain.lower c mem)).trans
    (List.map_id _)

/-! ## The fold -/

theorem eq_append_of_mem {address : List Char} (at_ : '@' ∈ address) :
    address = localPart address ++ '@' :: domain address := by
  cases rest : address.dropWhile (· ≠ '@') with
  | nil =>
      have := List.dropWhile_eq_nil_iff.mp rest '@' at_
      simp at this
  | cons c cs =>
      have first := List.head?_dropWhile_not (fun c => decide (c ≠ '@')) address
      rw [rest] at first
      have at_ : c = '@' := by simpa using first
      subst at_
      rw [domain, rest]
      exact (rest ▸ List.takeWhile_append_dropWhile).symm

theorem folded_of_not_gmail {address : List Char} (other : ¬ IsGmail address) :
    folded address = address := by
  by_cases at_ : '@' ∈ address
  · have whole := eq_append_of_mem at_
    have elsewhere := fun hosts => other ⟨at_, hosts⟩
    unfold folded
    unfold domain at whole elsewhere
    cases rest : address.dropWhile (· ≠ '@') with
    | nil => rfl
    | cons c cs =>
        rw [rest] at whole elsewhere
        exact (congrArg (· ++ '@' :: cs) (if_neg elsewhere)).trans whole.symm
  · have rest : address.dropWhile (· ≠ '@') = [] := by
      rw [List.dropWhile_eq_nil_iff]
      intro c mem
      exact decide_eq_true fun same => at_ (same ▸ mem)
    unfold folded
    rw [rest]

theorem folded_of_gmail {address : List Char} (gmail : IsGmail address) :
    folded address = foldedLocal address ++ '@' :: domain address := by
  obtain ⟨at_, hosts⟩ := gmail
  have whole := eq_append_of_mem at_
  unfold folded
  unfold domain at hosts whole ⊢
  cases rest : address.dropWhile (· ≠ '@') with
  | nil =>
      have := List.dropWhile_eq_nil_iff.mp rest '@' at_
      simp at this
  | cons c cs =>
      rw [rest] at hosts
      exact congrArg (· ++ '@' :: cs) (if_pos hosts)

theorem mem_foldedLocal {address : List Char} {c : Char} (mem : c ∈ foldedLocal address) :
    c ∈ address ∧ c ≠ '@' ∧ c ≠ '+' ∧ c ≠ '.' := by
  obtain ⟨taken, dot⟩ := List.mem_filter.mp mem
  have plus := List.mem_takeWhile_imp taken
  have there := (List.takeWhile_prefix _).mem taken
  have at_ := List.mem_takeWhile_imp there
  exact ⟨(List.takeWhile_prefix _).mem there, of_decide_eq_true at_, of_decide_eq_true plus,
    of_decide_eq_true dot⟩

/-- What a fold has made is folded already. -/
theorem folded_folded (address : List Char) : folded (folded address) = folded address := by
  by_cases gmail : IsGmail address
  · rw [folded_of_gmail gmail]
    have clean : ∀ c ∈ foldedLocal address, decide (c ≠ '@') = true := fun c mem =>
      decide_eq_true (mem_foldedLocal mem).2.1
    have local_ :
        localPart (foldedLocal address ++ '@' :: domain address) = foldedLocal address := by
      rw [localPart, List.takeWhile_append_of_pos clean]
      simp
    have domain_ : domain (foldedLocal address ++ '@' :: domain address) = domain address := by
      rw [domain, List.dropWhile_append_of_pos clean]
      simp
    have again : IsGmail (foldedLocal address ++ '@' :: domain address) :=
      ⟨by simp, by rw [domain_]; exact gmail.2⟩
    rw [folded_of_gmail again, domain_, foldedLocal, local_]
    have plus : (foldedLocal address).takeWhile (· ≠ '+') = foldedLocal address :=
      List.takeWhile_eq_self_iff.mpr fun c mem => decide_eq_true (mem_foldedLocal mem).2.2.1
    have dots : (foldedLocal address).filter (· ≠ '.') = foldedLocal address :=
      List.filter_eq_self.mpr fun c mem => decide_eq_true (mem_foldedLocal mem).2.2.2
    rw [plus, dots]
  · rw [folded_of_not_gmail gmail, folded_of_not_gmail gmail]

/-- The first character of the folded local part follows the dots. -/
theorem head?_foldedLocal (address : List Char) (c : Char) (blank : isSpaceAscii c = true) :
    (foldedLocal address).head? = some c ↔
      ((localPart address).dropWhile (· = '.')).head? = some c := by
  have other : c ≠ '.' ∧ c ≠ '+' := by
    constructor <;> rintro rfl <;> exact absurd blank (by decide)
  unfold foldedLocal
  induction localPart address with
  | nil => rfl
  | cons d ds ih =>
      by_cases dot : d = '.'
      · subst dot
        simpa using ih
      · rw [List.dropWhile_cons_of_neg (by simpa using dot)]
        by_cases plus : d = '+'
        · subst plus
          simp [other.2.symm]
        · simp [dot, plus]

theorem plain_folded_iff {address : List Char} (plain : Plain address) :
    Plain (folded address) ↔ ¬ DotsHideBlank address := by
  by_cases gmail : IsGmail address
  · rw [folded_of_gmail gmail]
    have whole := eq_append_of_mem gmail.1
    constructor
    · intro plain' hides
      obtain ⟨-, c, first, blank⟩ := hides
      have front := plain'.front c
      rw [List.head?_append, (head?_foldedLocal address c blank).mpr first] at front
      rw [front rfl] at blank
      cases blank
    · intro shown
      refine ⟨?_, ?_, ?_⟩
      · intro c first
        cases blank : isSpaceAscii c with
        | false => rfl
        | true =>
            refine absurd ⟨gmail, c, (head?_foldedLocal address c blank).mp ?_, blank⟩ shown
            rw [List.head?_append] at first
            cases start : (foldedLocal address).head? with
            | some d =>
                rw [start] at first
                exact first
            | none =>
                rw [start] at first
                cases first
                cases blank
      · have back := plain.back
        rw [whole, List.getLast?_append_cons] at back
        rw [List.getLast?_append_cons]
        exact back
      · intro c mem
        rcases List.mem_append.mp mem with local_ | rest
        · exact plain.lower c (mem_foldedLocal local_).1
        · refine plain.lower c ?_
          rw [whole]
          exact List.mem_append_right _ rest
  · rw [folded_of_not_gmail gmail]
    exact iff_of_true plain fun hides => gmail hides.1

/-- The normalized address is a canonical form, and a plain one, unless the local part of a Gmail
address begins with dots and then a blank. -/
theorem normalizeEmail_canonical_iff (input : String) :
    (normalizeEmail (normalizeEmail input) = normalizeEmail input ∧
        Plain (normalizeEmail input).toList) ↔
      ¬ DotsHideBlank (lowered input) := by
  have plain := plain_folded_iff (plain_lowered input)
  rw [normalizeEmail_eq input, String.toList_ofList]
  constructor
  · intro canonical
    exact plain.mp canonical.2
  · intro shown
    refine ⟨?_, plain.mpr shown⟩
    rw [normalizeEmail_eq, lowered_of_plain (plain.mpr shown), folded_folded]

/-- The dot hides the blank from the trim. -/
theorem normalizeEmail_not_idempotent :
    normalizeEmail ". a@gmail.com" = " a@gmail.com" ∧
      normalizeEmail (normalizeEmail ". a@gmail.com") ≠ normalizeEmail ". a@gmail.com" := by
  decide

end EmailAddress

end Fulla
