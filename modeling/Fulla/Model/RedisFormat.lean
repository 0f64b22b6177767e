import Mathlib.Algebra.GroupWithZero.Nat
import Mathlib.Data.List.TakeWhile
import Mathlib.Tactic.Common

/-!
# Commands written as format texts

A client that formats a command like `printf`: it cuts the format text at spaces and replaces the
directives in it.  A text that is put into the format instead of being passed as an argument is
taken at its word only if it has no space and no `%` but at its end (`format_word_iff`).
-/

namespace Fulla.RedisFormat

/-- An argument of a command text. -/
inductive FormatArg where
  | str (s : List Char)
  | int (n : Int)
deriving DecidableEq, Repr

/-- Why a command text is rejected. -/
inductive FormatError where
  /-- A directive for which no argument, or none of its kind, was passed. -/
  | missingArgument
  /-- Another directive: none that is known, or one that formats an argument by itself. -/
  | directive
deriving DecidableEq, Repr

/-- What a C string holds of a text. -/
def cStr (s : List Char) : List Char :=
  s.takeWhile (· ≠ Char.ofNat 0)

/-- The same of a `std::string` that is passed on as its `c_str()`. -/
def cString (s : String) : String :=
  String.ofList (cStr s.toList)

/-- A text that is its own C string. -/
def NulFree (s : String) : Prop :=
  Char.ofNat 0 ∉ s.toList

instance (s : String) : Decidable (NulFree s) :=
  inferInstanceAs (Decidable (¬ _))

/-- The words `argv` so far, and the one being written once it is `touched`.  A `%` at the end is
a character like any other. -/
def formatLoop : List Char → List FormatArg → List Char → Bool → List (List Char) →
    Except FormatError (List (List Char))
  | [], _, cur, touched, argv => .ok (if touched then argv ++ [cur] else argv)
  | '%' :: c :: rest, args, cur, _, argv =>
    if c = '%' then formatLoop rest args (cur ++ ['%']) true argv
    else if c = 's' then
      match args with
      | .str s :: args => formatLoop rest args (cur ++ s) true argv
      | _ => .error .missingArgument
    else if c = 'd' then
      match args with
      | .int n :: args => formatLoop rest args (cur ++ (toString n).toList) true argv
      | _ => .error .missingArgument
    else .error .directive
  | c :: rest, args, cur, touched, argv =>
    if c = ' ' then
      if touched then formatLoop rest args [] false (argv ++ [cur])
      else formatLoop rest args cur touched argv
    else formatLoop rest args (cur ++ [c]) true argv

/-- The words of a command text. -/
def format (text : List Char) (args : List FormatArg) : Except FormatError (List (List Char)) :=
  formatLoop text args [] false []

/-- Nothing in it is a separator or begins a directive. -/
def Plain (s : List Char) : Prop :=
  ' ' ∉ s ∧ '%' ∉ s.dropLast

instance (s : List Char) : Decidable (Plain s) :=
  inferInstanceAs (Decidable (_ ∧ _))

/-- The characters of all words. -/
def total (words : List (List Char)) : Nat :=
  (words.map List.length).sum

section Words

variable {c : Char} {s t cur : List Char} {touched : Bool} {argv out : List (List Char)}

theorem cStr_append (clean : Char.ofNat 0 ∉ s) (t : List Char) : cStr (s ++ t) = s ++ cStr t :=
  List.takeWhile_append_of_pos fun _ mem => decide_eq_true fun eq => clean (eq ▸ mem)

theorem cStr_of_clean (clean : Char.ofNat 0 ∉ s) : cStr s = s :=
  List.takeWhile_eq_self_iff.mpr fun _ mem => decide_eq_true fun eq => clean (eq ▸ mem)

theorem cString_of_nulFree {s : String} (clean : NulFree s) : cString s = s := by
  rw [cString, cStr_of_clean clean, String.ofList_toList]

theorem total_concat (words : List (List Char)) (w : List Char) :
    total (words ++ [w]) = total words + w.length := by
  simp [total]

theorem plain_nil : Plain [] :=
  ⟨List.not_mem_nil, List.not_mem_nil⟩

theorem plain_cons (letter : c ≠ ' ') (ends : c = '%' → s = []) (plain : Plain s) :
    Plain (c :: s) := by
  refine ⟨fun mem => ?_, fun mem => ?_⟩
  · rcases List.mem_cons.mp mem with eq | mem
    · exact letter eq.symm
    · exact plain.1 mem
  · cases s with
    | nil => cases mem
    | cons d s =>
        rw [List.dropLast_cons_cons] at mem
        rcases List.mem_cons.mp mem with eq | mem
        · cases ends eq.symm
        · exact plain.2 mem

theorem plain_of_cons (plain : Plain (c :: s)) : c ≠ ' ' ∧ (c = '%' → s = []) ∧ Plain s := by
  refine ⟨fun eq => plain.1 (eq ▸ List.mem_cons_self), fun eq => ?_, ?_⟩
  · cases s with
    | nil => rfl
    | cons d s =>
        refine absurd ?_ plain.2
        rw [List.dropLast_cons_cons, eq]
        exact List.mem_cons_self
  · refine ⟨fun mem => plain.1 (List.mem_cons_of_mem _ mem), fun mem => plain.2 ?_⟩
    cases s with
    | nil => cases mem
    | cons d s =>
        rw [List.dropLast_cons_cons]
        exact List.mem_cons_of_mem _ mem

theorem plain_append_iff (letters : Plain s) (percent : '%' ∉ s) : Plain (s ++ t) ↔ Plain t := by
  induction s with
  | nil => rfl
  | cons c s ih =>
      obtain ⟨letter, -, rest⟩ := plain_of_cons letters
      have other : c ≠ '%' := fun eq => percent (eq ▸ List.mem_cons_self)
      rw [← ih rest fun mem => percent (List.mem_cons_of_mem _ mem)]
      exact ⟨fun plain => (plain_of_cons plain).2.2,
        plain_cons letter fun eq => absurd eq other⟩

/-- A plain text goes on with the word, or begins one. -/
theorem formatLoop_plain {args : List FormatArg} (plain : Plain s)
    (going : touched = true ∨ s ≠ []) :
    formatLoop s args cur touched argv = .ok (argv ++ [cur ++ s]) := by
  induction s generalizing cur touched with
  | nil =>
      have on : touched = true := going.resolve_right fun some_ => some_ rfl
      simp [formatLoop, on]
  | cons c s ih =>
      obtain ⟨letter, ends, rest⟩ := plain_of_cons plain
      have next (cur : List Char) : formatLoop s args cur true argv = .ok (argv ++ [cur ++ s]) :=
        ih rest (.inl rfl)
      by_cases percent : c = '%'
      · cases ends percent
        subst percent
        simp [formatLoop]
      · rw [formatLoop, if_neg letter, next, List.append_assoc]
        · rfl
        · rintro d s' eq -
          exact percent eq

/-- A word is written on, whatever comes behind it. -/
theorem formatLoop_append {args : List FormatArg} (plain : Plain s) (percent : '%' ∉ s)
    (going : touched = true ∨ s ≠ []) :
    formatLoop (s ++ t) args cur touched argv = formatLoop t args (cur ++ s) true argv := by
  induction s generalizing cur touched with
  | nil => rw [going.resolve_right fun some_ => some_ rfl, List.nil_append, List.append_nil]
  | cons c s ih =>
      obtain ⟨letter, -, rest⟩ := plain_of_cons plain
      have other : c ≠ '%' := fun eq => percent (eq ▸ List.mem_cons_self)
      rw [List.cons_append, formatLoop, if_neg letter,
        ih rest (fun mem => percent (List.mem_cons_of_mem _ mem)) (.inl rfl), List.append_assoc]
      · rfl
      · rintro d s' eq -
        exact other eq

/-- The space behind a word, and the directives of a text and of a number. -/
theorem formatLoop_space {args : List FormatArg} :
    formatLoop (' ' :: s) args cur true argv = formatLoop s args [] false (argv ++ [cur]) := by
  simp [formatLoop]

theorem formatLoop_str {args : List FormatArg} :
    formatLoop ('%' :: 's' :: s) (.str t :: args) cur touched argv =
      formatLoop s args (cur ++ t) true argv :=
  rfl

theorem formatLoop_int {args : List FormatArg} {n : Int} :
    formatLoop ('%' :: 'd' :: s) (.int n :: args) cur touched argv =
      formatLoop s args (cur ++ (toString n).toList) true argv :=
  rfl

/-- Without arguments nothing is added to a text, and nothing of it is lost only if it is
plain. -/
theorem total_formatLoop {args : List FormatArg}
    (ok : formatLoop s args cur touched argv = .ok out) (none_ : args = []) :
    total out ≤ total argv + cur.length + s.length ∧
      (total out = total argv + cur.length + s.length → Plain s) := by
  fun_induction formatLoop s args cur touched argv with
  | case1 args cur touched argv =>
      refine ⟨?_, fun _ => plain_nil⟩
      cases ok
      split
      · rw [total_concat]
        exact Nat.le_add_right _ _
      · omega
  | case2 rest args cur _ argv ih =>
      obtain ⟨most, -⟩ := ih ok none_
      simp only [List.length_append, List.length_cons, List.length_nil] at most ⊢
      exact ⟨by omega, fun eq => by omega⟩
  | case3 => cases none_
  | case4 => cases ok
  | case5 => cases none_
  | case6 => cases ok
  | case7 => cases ok
  | case8 rest args cur argv _ ih =>
      obtain ⟨most, -⟩ := ih ok none_
      rw [total_concat, List.length_nil] at most
      simp only [List.length_cons]
      exact ⟨by omega, fun eq => by omega⟩
  | case9 rest args cur touched argv _ _ ih =>
      obtain ⟨most, -⟩ := ih ok none_
      simp only [List.length_cons]
      exact ⟨by omega, fun eq => by omega⟩
  | case10 c rest args cur touched argv ends letter ih =>
      obtain ⟨most, exact_⟩ := ih ok none_
      simp only [List.length_append, List.length_cons, List.length_nil] at most exact_ ⊢
      refine ⟨by omega, fun eq => plain_cons letter (fun percent => ?_) (exact_ (by omega))⟩
      cases rest with
      | nil => rfl
      | cons d rest => exact (ends d rest percent rfl).elim

/-- Behind the first word of a command a text is the second word, and there is no third, exactly
if it is plain. -/
theorem format_word_iff (plain : Plain s) (percent : '%' ∉ s) (named : s ≠ []) (some_ : t ≠ []) :
    format (s ++ ' ' :: t) [] = .ok [s, t] ↔ Plain t := by
  rw [format, formatLoop_append plain percent (.inr named), formatLoop_space]
  refine ⟨fun ok => (total_formatLoop ok rfl).2 ?_, fun plain => ?_⟩
  · simp [total]
  · exact formatLoop_plain plain (.inr some_)

end Words

end Fulla.RedisFormat
