import Fulla.Web.TokenEndpoint

/-!
# Three scope tokenizers

`scopeContains` of `TokenService.cc`, the two functions of `ScopeChecker.h` and
`Client::allowsAllScopes`: loops over one text that step over their separators each in its own
way.  The first three skip blanks before a token and end it at a space; the last cuts at spaces
alone, so a tab is part of the token it stands in.
-/

namespace Fulla

namespace ScopeChecker

/-- The characters between scopes. -/
def isBlank (c : Char) : Bool :=
  c = ' ' || c = '\t'

/-- The token is removed with the space behind it; every turn consumes a character. -/
def hasScopeLoop (requiredScope : List Char) : Nat → List Char → Bool
  | 0, _ => false
  | fuel + 1, s =>
    let s := s.dropWhile isBlank
    if s.isEmpty then false
    else if s.takeWhile (· ≠ ' ') = requiredScope then true
    else hasScopeLoop requiredScope fuel ((s.dropWhile (· ≠ ' ')).drop 1)

/-- `ScopeChecker::hasScope`. -/
def hasScope (tokenScopes requiredScope : String) : Bool :=
  if requiredScope = "" then true
  else hasScopeLoop requiredScope.toList (tokenScopes.toList.length + 1) tokenScopes.toList

/-- The loop over the required scopes. -/
def hasAllScopesLoop (tokenScopes : String) : Nat → List Char → Bool
  | 0, _ => true
  | fuel + 1, s =>
    let s := s.dropWhile isBlank
    if s.isEmpty then true
    else if !hasScope tokenScopes (String.ofList (s.takeWhile (· ≠ ' '))) then false
    else hasAllScopesLoop tokenScopes fuel ((s.dropWhile (· ≠ ' ')).drop 1)

/-- `ScopeChecker::hasAllScopes`. -/
def hasAllScopes (tokenScopes requiredScopes : String) : Bool :=
  hasAllScopesLoop tokenScopes (requiredScopes.toList.length + 1) requiredScopes.toList

end ScopeChecker

namespace Client

/-- From `start` on; `find` that finds nothing is the end of the text. -/
def allowsAllScopesLoop (dto : OAuth2Client) (requestedScope : List Char) : Nat → Nat → Bool
  | 0, _ => true
  | fuel + 1, start =>
    if start < requestedScope.length then
      let token := (requestedScope.drop start).takeWhile (· ≠ ' ')
      let stop := start + token.length
      if start < stop && !dto.allowsScope (String.ofList token) then false
      else allowsAllScopesLoop dto requestedScope fuel (stop + 1)
    else true

/-- `Client::allowsAllScopes`. -/
def allowsAllScopes (dto : OAuth2Client) (requestedScope : String) : Bool :=
  if requestedScope = "" then true
  else allowsAllScopesLoop dto requestedScope.toList requestedScope.toList.length 0

end Client

namespace ScopeTokens

open ScopeChecker

/-! ## Tokens -/

/-- What stands between spaces, less its leading tabs, where anything is left of it. -/
def tokens (s : List Char) : List (List Char) :=
  ((splitChars ' ' s).map fun piece => piece.dropWhile (· = '\t')).filter (· ≠ [])

section Tokens

variable {s t piece : List Char}

theorem tokens_append_space (s t : List Char) : tokens (s ++ ' ' :: t) = tokens s ++ tokens t := by
  rw [tokens, splitChars_append_sep, List.map_append, List.filter_append]
  rfl

theorem tokens_space (s : List Char) : tokens (' ' :: s) = tokens s :=
  tokens_append_space [] s

theorem tokens_tab (s : List Char) : tokens ('\t' :: s) = tokens s := by
  obtain ⟨piece, pieces, cut⟩ : ∃ piece pieces, splitChars ' ' s = piece :: pieces := by
    rw [splitChars_eq_splitOn]
    exact List.exists_cons_of_ne_nil (List.splitOn_ne_nil ' ' s)
  have cut_tab : splitChars ' ' ('\t' :: s) = ('\t' :: piece) :: pieces := by
    rw [splitChars, if_neg (by decide), cut]
  rw [tokens, tokens, cut, cut_tab, List.map_cons, List.map_cons, List.dropWhile_cons,
    if_pos (by decide)]

/-- Blanks in front make no difference. -/
theorem tokens_dropWhile_blank (s : List Char) : tokens (s.dropWhile isBlank) = tokens s := by
  induction s with
  | nil => rfl
  | cons c s ih =>
      rw [List.dropWhile_cons]
      split
      · next blank =>
          rw [ih]
          rcases (by simpa [isBlank] using blank : c = ' ' ∨ c = '\t') with rfl | rfl
          · exact (tokens_space s).symm
          · exact (tokens_tab s).symm
      · rfl

theorem tokens_of_clean (clean : ' ' ∉ piece) (some_ : piece ≠ [])
    (begins : piece.head? ≠ some '\t') : tokens piece = [piece] := by
  cases piece with
  | nil => exact absurd rfl some_
  | cons c piece =>
      have letter : c ≠ '\t' := fun eq => begins (congrArg some eq)
      rw [tokens, splitChars_of_notMem clean]
      simp [letter]

/-- Up to its first space a text is its first token, if it begins with no blank; the others are
behind the space. -/
theorem tokens_of_not_blank (begins : ∀ c, s.head? = some c → isBlank c = false) (some_ : s ≠ []) :
    tokens s = s.takeWhile (· ≠ ' ') :: tokens ((s.dropWhile (· ≠ ' ')).drop 1) := by
  have space : s.head? ≠ some ' ' := fun eq => absurd (begins _ eq) (by decide)
  have tab : s.head? ≠ some '\t' := fun eq => absurd (begins _ eq) (by decide)
  by_cases mem : ' ' ∈ s
  · obtain ⟨piece, rest, rfl, clean⟩ := List.eq_append_cons_of_mem mem
    have letters : ∀ c ∈ piece, (decide (c ≠ ' ')) = true := fun c mem =>
      decide_eq_true fun eq => clean (eq ▸ mem)
    have piece_some : piece ≠ [] := by
      rintro rfl
      exact space rfl
    have first : piece.head? ≠ some '\t' := by
      cases piece with
      | nil => exact absurd rfl piece_some
      | cons c piece => exact tab
    rw [tokens_append_space, tokens_of_clean clean piece_some first,
      List.takeWhile_append_of_pos letters, List.dropWhile_append_of_pos letters]
    simp
  · have letters : ∀ c ∈ s, (decide (c ≠ ' ')) = true := fun c c_mem =>
      decide_eq_true fun eq => mem (eq ▸ c_mem)
    rw [tokens_of_clean mem some_ tab, List.takeWhile_eq_self_iff.mpr letters,
      List.dropWhile_eq_nil_iff.mpr letters]
    rfl

/-- `remove_prefix(pos)` instead of `remove_prefix(pos + 1)` leaves the same tokens. -/
theorem tokens_drop_space (s : List Char) :
    tokens ((s.dropWhile (· ≠ ' ')).drop 1) = tokens (s.dropWhile (· ≠ ' ')) := by
  by_cases mem : ' ' ∈ s
  · obtain ⟨piece, rest, rfl, clean⟩ := List.eq_append_cons_of_mem mem
    have letters : ∀ c ∈ piece, (decide (c ≠ ' ')) = true := fun c mem =>
      decide_eq_true fun eq => clean (eq ▸ mem)
    rw [List.dropWhile_append_of_pos letters]
    simp [tokens_space]
  · have letters : ∀ c ∈ s, (decide (c ≠ ' ')) = true := fun c c_mem =>
      decide_eq_true fun eq => mem (eq ▸ c_mem)
    rw [List.dropWhile_eq_nil_iff.mpr letters, List.drop_nil]

/-- After the blanks there is nothing, or no blank comes first. -/
theorem head_dropWhile_blank (s : List Char) :
    ∀ c, (s.dropWhile isBlank).head? = some c → isBlank c = false := by
  intro c first
  have not := List.head?_dropWhile_not isBlank s
  rw [first] at not
  exact not

/-- A turn of the loops: nothing but blanks is left, or a first token and less than before. -/
theorem turn (s : List Char) :
    s.dropWhile isBlank = [] ∧ tokens s = [] ∨
      s.dropWhile isBlank ≠ [] ∧
        tokens s = (s.dropWhile isBlank).takeWhile (· ≠ ' ') ::
          tokens (((s.dropWhile isBlank).dropWhile (· ≠ ' ')).drop 1) ∧
        ((s.dropWhile isBlank).dropWhile (· ≠ ' ')).length < s.length := by
  have skipped := tokens_dropWhile_blank s
  have begins := head_dropWhile_blank s
  have shorter : (s.dropWhile isBlank).length ≤ s.length := (List.dropWhile_sublist _).length_le
  cases rest : s.dropWhile isBlank with
  | nil =>
      rw [rest] at skipped
      exact .inl ⟨rfl, skipped.symm⟩
  | cons c rest' =>
      rw [rest] at skipped begins shorter
      refine .inr ⟨List.cons_ne_nil _ _, ?_, ?_⟩
      · rw [← skipped]
        exact tokens_of_not_blank begins (List.cons_ne_nil _ _)
      · have letter : c ≠ ' ' := fun eq => absurd (begins c rfl) (by rw [eq]; decide)
        have consumed : (c :: rest').dropWhile (· ≠ ' ') = rest'.dropWhile (· ≠ ' ') :=
          List.dropWhile_cons_of_pos (decide_eq_true letter)
        rw [consumed]
        have less : (rest'.dropWhile (· ≠ ' ')).length ≤ rest'.length :=
          (List.dropWhile_sublist _).length_le
        rw [List.length_cons] at shorter
        omega

theorem hasScopeLoop_iff {r : List Char} (fuel : Nat) (s : List Char) (enough : s.length < fuel) :
    hasScopeLoop r fuel s = true ↔ r ∈ tokens s := by
  induction fuel generalizing s with
  | zero => cases enough
  | succ fuel ih =>
      rw [hasScopeLoop]
      rcases turn s with ⟨rest, none_⟩ | ⟨rest, first, less⟩
      · simp [rest, none_]
      · have left : (((s.dropWhile isBlank).dropWhile (· ≠ ' ')).drop 1).length < fuel :=
          (List.drop_sublist _ _).length_le.trans_lt (by omega)
        rw [first, List.mem_cons, ← ih _ left]
        simp only [List.isEmpty_iff, rest, if_false]
        split
        · next same => exact iff_of_true rfl (.inl same.symm)
        · next other => exact (or_iff_right (Ne.symm other)).symm

theorem scopeContainsLoop_iff {r : List Char} (fuel : Nat) (s : List Char)
    (enough : s.length < fuel) : scopeContainsLoop r fuel s = true ↔ r ∈ tokens s := by
  induction fuel generalizing s with
  | zero => cases enough
  | succ fuel ih =>
      rw [scopeContainsLoop]
      rcases turn s with ⟨rest, none_⟩ | ⟨rest, first, less⟩
      · have none_left : (s.dropWhile fun c => c = ' ' || c = '\t') = [] := rest
        simp [none_left, none_]
      · rw [first, List.mem_cons, tokens_drop_space, ← ih _ (by omega)]
        change (if (s.dropWhile isBlank).isEmpty then false
          else if (s.dropWhile isBlank).takeWhile (· ≠ ' ') = r then true
          else scopeContainsLoop r fuel ((s.dropWhile isBlank).dropWhile (· ≠ ' '))) = true ↔ _
        simp only [List.isEmpty_iff, rest, if_false]
        split
        · next same => exact iff_of_true rfl (.inl same.symm)
        · next other => exact (or_iff_right (Ne.symm other)).symm

theorem hasAllScopesLoop_iff {tokenScopes : String} (fuel : Nat) (s : List Char)
    (enough : s.length < fuel) :
    hasAllScopesLoop tokenScopes fuel s = true ↔
      ∀ t ∈ tokens s, hasScope tokenScopes (String.ofList t) = true := by
  induction fuel generalizing s with
  | zero => cases enough
  | succ fuel ih =>
      rw [hasAllScopesLoop]
      rcases turn s with ⟨rest, none_⟩ | ⟨rest, first, less⟩
      · simp [rest, none_]
      · have left : (((s.dropWhile isBlank).dropWhile (· ≠ ' ')).drop 1).length < fuel :=
          (List.drop_sublist _ _).length_le.trans_lt (by omega)
        rw [first, List.forall_mem_cons, ← ih _ left]
        simp only [List.isEmpty_iff, rest, if_false]
        cases hasScope tokenScopes (String.ofList ((s.dropWhile isBlank).takeWhile (· ≠ ' '))) with
        | true => simp
        | false => simp

end Tokens

/-! ## What the functions decide -/

section Decisions

theorem hasScope_iff {s r : String} (some_ : r ≠ "") :
    hasScope s r = true ↔ r.toList ∈ tokens s.toList := by
  rw [hasScope, if_neg some_, hasScopeLoop_iff _ _ (Nat.lt_succ_self _)]

theorem scopeContains_iff {s r : String} (some_ : r ≠ "") :
    scopeContains s r = true ↔ r.toList ∈ tokens s.toList := by
  rw [scopeContains, if_neg some_, scopeContainsLoop_iff _ _ (Nat.lt_succ_self _)]

theorem hasAllScopes_iff {s q : String} :
    hasAllScopes s q = true ↔ ∀ t ∈ tokens q.toList, hasScope s (String.ofList t) = true :=
  hasAllScopesLoop_iff _ _ (Nat.lt_succ_self _)

/-- Of the pieces between spaces the first ends at the first space. -/
theorem forall_pieces_iff {P : List Char → Prop} (s : List Char) :
    (∀ piece ∈ splitChars ' ' s, piece ≠ [] → P piece) ↔
      (s.takeWhile (· ≠ ' ') ≠ [] → P (s.takeWhile (· ≠ ' '))) ∧
        ∀ piece ∈ splitChars ' ' (s.drop ((s.takeWhile (· ≠ ' ')).length + 1)),
          piece ≠ [] → P piece := by
  by_cases mem : ' ' ∈ s
  · obtain ⟨first, rest, rfl, clean⟩ := List.eq_append_cons_of_mem mem
    have letters : ∀ c ∈ first, (decide (c ≠ ' ')) = true := fun c mem =>
      decide_eq_true fun eq => clean (eq ▸ mem)
    have taken : (first ++ ' ' :: rest).takeWhile (· ≠ ' ') = first := by
      rw [List.takeWhile_append_of_pos letters]
      simp
    have behind : (first ++ ' ' :: rest).drop (first.length + 1) = rest := by
      rw [List.drop_append, List.drop_eq_nil_of_le (Nat.le_succ _)]
      simp
    rw [taken, behind, splitChars_append_sep, splitChars_of_notMem clean]
    exact List.forall_mem_cons
  · have letters : ∀ c ∈ s, (decide (c ≠ ' ')) = true := fun c c_mem =>
      decide_eq_true fun eq => mem (eq ▸ c_mem)
    rw [List.takeWhile_eq_self_iff.mpr letters, List.drop_eq_nil_of_le (Nat.le_succ _),
      splitChars_of_notMem mem]
    simp [splitChars]

theorem allowsAllScopesLoop_iff {dto : OAuth2Client} {s : List Char} (fuel start : Nat)
    (enough : s.length ≤ start + fuel) :
    Client.allowsAllScopesLoop dto s fuel start = true ↔
      ∀ piece ∈ splitChars ' ' (s.drop start), piece ≠ [] →
        dto.allowsScope (String.ofList piece) = true := by
  induction fuel generalizing start with
  | zero =>
      have done : s.drop start = [] := List.drop_eq_nil_of_le enough
      rw [done]
      simp [Client.allowsAllScopesLoop, splitChars]
  | succ fuel ih =>
      rw [Client.allowsAllScopesLoop]
      split
      · next more =>
          rw [forall_pieces_iff, List.drop_drop, ← Nat.add_assoc, ← ih _ (by omega)]
          have longer : start < start + ((s.drop start).takeWhile (· ≠ ' ')).length ↔
              (s.drop start).takeWhile (· ≠ ' ') ≠ [] := by
            rw [← List.length_pos_iff]
            omega
          simp only [longer]
          cases dto.allowsScope (String.ofList ((s.drop start).takeWhile (· ≠ ' '))) with
          | true => simp
          | false => simp
      · next done =>
          rw [List.drop_eq_nil_of_le (Nat.not_lt.mp done)]
          simp [splitChars]

theorem allowsAllScopes_iff {dto : OAuth2Client} {s : String} :
    Client.allowsAllScopes dto s = true ↔
      ∀ piece ∈ splitChars ' ' s.toList, piece ≠ [] →
        dto.allowsScope (String.ofList piece) = true := by
  rw [Client.allowsAllScopes]
  split
  · next empty => simp [empty, splitChars]
  · exact allowsAllScopesLoop_iff _ _ (Nat.le_add_left _ _)

/-- The loop decides what `splitSpaces` says. -/
theorem allowsAllScopes_eq (dto : OAuth2Client) (s : String) :
    Client.allowsAllScopes dto s = dto.allowsAllScopes s := by
  rw [Bool.eq_iff_iff, allowsAllScopes_iff, OAuth2Client.allowsAllScopes_iff, splitSpaces,
    List.forall_mem_map]
  simp

/-- The filters' function is the one that the token endpoint asks. -/
theorem hasScope_eq (s r : String) : hasScope s r = TokenEndpoint.hasScope s r := by
  rw [TokenEndpoint.hasScope]
  by_cases empty : r = ""
  · simp [hasScope, empty]
  · have letters : r.toList ≠ [] := fun none_ => empty (String.toList_eq_nil_iff.mp none_)
    rw [Bool.eq_iff_iff, hasScope_iff empty, tokens]
    simp [empty, letters]

/-- The tokenizers agree: what two of the loops find is the same, the third asks it of every
token, and a client that is allowed every piece of a text is allowed every token of it. -/
theorem scope_tokenizers_agree :
    (∀ s r, scopeContains s r = hasScope s r) ∧
      (∀ s q, hasAllScopes s q = true ↔
        ∀ t ∈ tokens q.toList, hasScope s (String.ofList t) = true) ∧
      ∀ (client : OAuth2Client) s, (∀ allowed ∈ client.allowedScopes, '\t' ∉ allowed.toList) →
        Client.allowsAllScopes client s = true →
          ∀ r, r ≠ "" → hasScope s r = true → r ∈ client.allowedScopes := by
  refine ⟨fun s r => ?_, fun _ _ => hasAllScopes_iff,
    fun client s tabless allowed r some_ has => ?_⟩
  · by_cases empty : r = ""
    · rw [empty]
      rfl
    · rw [Bool.eq_iff_iff, scopeContains_iff empty, hasScope_iff empty]
  · obtain ⟨mem, nonempty⟩ := List.mem_filter.mp ((hasScope_iff some_).mp has)
    obtain ⟨piece, cut, eq⟩ := List.mem_map.mp mem
    have piece_some : piece ≠ [] := by
      rintro rfl
      rw [← eq] at nonempty
      exact absurd nonempty (by decide)
    have listed : String.ofList piece ∈ client.allowedScopes :=
      List.contains_iff_mem.mp (allowsAllScopes_iff.mp allowed piece cut piece_some)
    have clean : '\t' ∉ piece := by
      have none_ := tabless _ listed
      rwa [String.toList_ofList] at none_
    -- No tab stands in front, so the token is the piece.
    have same : piece.dropWhile (· = '\t') = piece := by
      cases piece with
      | nil => rfl
      | cons c piece =>
          have letter : ¬ c = '\t' := fun eq => clean (eq ▸ List.mem_cons_self)
          exact List.dropWhile_cons_of_neg (by simpa using letter)
    rw [same] at eq
    rw [eq, String.ofList_toList] at listed
    exact listed

end Decisions

end ScopeTokens

end Fulla
