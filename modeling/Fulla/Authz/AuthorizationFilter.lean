import Mathlib.Data.List.Forall2
import Mathlib.Data.List.Perm.Basic
import Mathlib.Data.Nat.Basic
import Fulla.Model.JsonText

/-!
# Rule-based access

`AuthorizationFilter.cc`: how the rules are loaded and sorted, and the decision on a path.

The first rule that matches decides, in the order of the patterns' lengths and of the
configuration for equal lengths (`Leads`).  The source means a rule that lists permissions and
roles to require both; a caller with one of the roles passes without the permissions.
-/

namespace Fulla

/-! ## The first of the largest -/

section Leads

variable {α : Type} {key : α → Nat} {p : α → Bool} {l l' : List α} {a b : α}

/-- Among the elements that satisfy `p`, the first of those with the largest key. -/
def Leads (key : α → Nat) (p : α → Bool) (l : List α) (a : α) : Prop :=
  ∃ before after, l = before ++ a :: after ∧ p a = true ∧
    (∀ b ∈ before, p b = true → key b < key a) ∧ ∀ b ∈ after, p b = true → key b ≤ key a

theorem Leads.mem (leads : Leads key p l a) : a ∈ l := by
  obtain ⟨before, after, rfl, _⟩ := leads
  exact List.mem_append_right _ List.mem_cons_self

theorem Leads.holds (leads : Leads key p l a) : p a = true := by
  obtain ⟨_, _, _, holds, _⟩ := leads
  exact holds

theorem Leads.le (leads : Leads key p l a) (mem : b ∈ l) (holds : p b = true) : key b ≤ key a := by
  obtain ⟨before, after, rfl, _, less, le⟩ := leads
  rcases List.mem_append.mp mem with mem | mem
  · exact le_of_lt (less b mem holds)
  · rcases List.mem_cons.mp mem with rfl | mem
    · exact le_rfl
    · exact le b mem holds

/-- The elements of the largest key that satisfy `p` begin with the one that leads. -/
theorem Leads.filter_eq (leads : Leads key p l a) :
    ∃ rest, l.filter (fun x => p x && key x = key a) = a :: rest := by
  obtain ⟨before, after, rfl, holds, less, _⟩ := leads
  have none : before.filter (fun x => p x && key x = key a) = [] := by
    refine List.filter_eq_nil_iff.mpr fun b mem both => ?_
    rw [Bool.and_eq_true, decide_eq_true_eq] at both
    exact absurd both.2 (ne_of_lt (less b mem both.1))
  refine ⟨after.filter fun x => p x && key x = key a, ?_⟩
  rw [List.filter_append, none, List.nil_append, List.filter_cons_of_pos]
  simp [holds]

/-- There is one leader. -/
theorem Leads.unique (leads : Leads key p l a) (leads' : Leads key p l b) : a = b := by
  have same : key a = key b :=
    le_antisymm (leads'.le leads.mem leads.holds) (leads.le leads'.mem leads'.holds)
  obtain ⟨rest, eq⟩ := leads.filter_eq
  obtain ⟨rest', eq'⟩ := leads'.filter_eq
  rw [same, eq'] at eq
  exact (List.cons.inj eq).1.symm

theorem leads_of_filter (mem : ∀ b ∈ l, p b = true → key b ≤ key a) (rest : List α)
    (eq : l.filter (fun x => p x && key x = key a) = a :: rest) : Leads key p l a := by
  obtain ⟨before, after, rfl, none, both, _⟩ := List.filter_eq_cons_iff.mp eq
  rw [Bool.and_eq_true] at both
  refine ⟨before, after, rfl, both.1, fun b there holds => ?_, fun b there holds =>
    mem b (List.mem_append_right _ (List.mem_cons_of_mem _ there)) holds⟩
  refine lt_of_le_of_ne (mem b (List.mem_append_left _ there) holds) fun same => ?_
  exact none b there (by simp [holds, same])

/-- By falling keys. -/
def byKey (key : α → Nat) (a b : α) : Bool :=
  key b ≤ key a

theorem byKey_trans (a b c : α) (ab : byKey key a b = true) (bc : byKey key b c = true) :
    byKey key a c = true :=
  decide_eq_true (le_trans (of_decide_eq_true bc) (of_decide_eq_true ab))

theorem byKey_total (a b : α) : (byKey key a b || byKey key b a) = true := by
  rw [Bool.or_eq_true]
  exact (le_total (key b) (key a)).imp decide_eq_true decide_eq_true

/-- The sort keeps the order of the elements with one key. -/
theorem filter_mergeSort (key : α → Nat) (k : Nat) :
    (l.mergeSort (byKey key)).filter (fun x => p x && key x = k) =
      l.filter (fun x => p x && key x = k) := by
  have sorted :
      (l.filter (fun x => p x && key x = k)).Pairwise fun a b => byKey key a b = true := by
    refine List.pairwise_of_forall_mem_list fun a mem b mem' => ?_
    have same := (List.mem_filter.mp mem).2
    have same' := (List.mem_filter.mp mem').2
    rw [Bool.and_eq_true, decide_eq_true_eq] at same same'
    exact decide_eq_true (le_of_eq (same'.2.trans same.2.symm))
  have sub := (List.sublist_mergeSort byKey_trans byKey_total sorted
    List.filter_sublist).filter (fun x => p x && key x = k)
  simp only [List.filter_filter, Bool.and_self] at sub
  refine (sub.eq_of_length ?_).symm
  exact ((List.mergeSort_perm l (byKey key)).filter _).length_eq.symm

/-- What is found in the sorted list leads the list. -/
theorem leads_of_find? (found : (l.mergeSort (byKey key)).find? p = some a) : Leads key p l a := by
  obtain ⟨holds, before, after, eq, none⟩ := List.find?_eq_some_iff_append.mp found
  have largest : ∀ b ∈ l, p b = true → key b ≤ key a := by
    intro b mem holds'
    have there : b ∈ before ++ a :: after := eq ▸ List.mem_mergeSort.mpr mem
    have sorted : (l.mergeSort (byKey key)).Pairwise fun a b => byKey key a b = true :=
      List.pairwise_mergeSort byKey_trans byKey_total l
    rw [eq, List.pairwise_append, List.pairwise_cons] at sorted
    rcases List.mem_append.mp there with there | there
    · have := none b there
      rw [holds'] at this
      cases this
    · rcases List.mem_cons.mp there with rfl | there
      · exact le_rfl
      · exact of_decide_eq_true (sorted.2.1.1 b there)
  refine leads_of_filter largest (after.filter fun x => p x && key x = key a) ?_
  have empty : before.filter (fun x => p x && key x = key a) = [] := by
    refine List.filter_eq_nil_iff.mpr fun b mem both => ?_
    rw [Bool.and_eq_true] at both
    have := none b mem
    rw [both.1] at this
    cases this
  rw [← filter_mergeSort key, eq, List.filter_append, empty, List.nil_append,
    List.filter_cons_of_pos]
  simp [holds]

/-- **The first hit of a sorted list is the leader**. -/
theorem find?_mergeSort_iff :
    (l.mergeSort (byKey key)).find? p = some a ↔ Leads key p l a := by
  refine ⟨leads_of_find?, fun leads => ?_⟩
  cases found : (l.mergeSort (byKey key)).find? p with
  | none =>
      have := List.find?_eq_none.mp found a (List.mem_mergeSort.mpr leads.mem)
      exact absurd leads.holds this
  | some b => rw [leads.unique (leads_of_find? found)]

/-- Elements that satisfy `p` have keys of their own. -/
def KeysApart (key : α → Nat) (p : α → Bool) (l : List α) : Prop :=
  l.Pairwise fun a b => p a = true → p b = true → key a ≠ key b

/-- With keys apart, the leader is the one with the greatest key. -/
theorem leads_iff_of_apart (apart : KeysApart key p l) :
    Leads key p l a ↔ a ∈ l ∧ p a = true ∧ ∀ b ∈ l, p b = true → key b ≤ key a := by
  refine ⟨fun leads => ⟨leads.mem, leads.holds, fun b mem holds => leads.le mem holds⟩, ?_⟩
  rintro ⟨mem, holds, largest⟩
  obtain ⟨before, after, rfl⟩ := List.append_of_mem mem
  refine ⟨before, after, rfl, holds, fun b there holds' => ?_, fun b there holds' =>
    largest b (List.mem_append_right _ (List.mem_cons_of_mem _ there)) holds'⟩
  refine lt_of_le_of_ne (largest b (List.mem_append_left _ there) holds') ?_
  exact (List.pairwise_append.mp apart).2.2 b there a List.mem_cons_self holds' holds

/-- The order does not matter then. -/
theorem leads_perm (apart : KeysApart key p l) (perm : l'.Perm l) :
    Leads key p l' a ↔ Leads key p l a := by
  have apart' : KeysApart key p l' :=
    (perm.pairwise_iff fun h holds holds' => (h holds' holds).symm).mpr apart
  rw [leads_iff_of_apart apart, leads_iff_of_apart apart', perm.mem_iff]
  simp only [perm.mem_iff]

end Leads

/-! ## The rules -/

/-- `std::regex`: an error for a pattern that it refuses. -/
abbrev RegexLibrary := String → Except String (String → Bool)

/-- A rule of the configuration. -/
structure RbacRule where
  sourcePattern : String
  pathPattern : String → Bool
  allowedRoles : List String := []
  requiredPermissions : List String := []

/-- The loaded rules and the public paths. -/
structure AuthorizationFilter where
  rules : List RbacRule
  publicPaths : List (String → Bool)

namespace AuthorizationFilter

/-- `if (json.isMember(k) && json[k].isArray())` and the loop over the elements. -/
def textsAt (json : Json) (k : String) : Except String (List String) :=
  match json.get k with
  | .arr items => items.mapM Json.asString
  | _ => return []

/-- One entry of `rbac_rules`: an array of roles, or an object with `roles` and `permissions`. -/
def loadRule (regex : RegexLibrary) (entry : String × Json) : Except String RbacRule := do
  let pathPattern ← regex entry.1
  match entry.2 with
  | .arr items =>
    return { sourcePattern := entry.1, pathPattern, allowedRoles := ← items.mapM Json.asString }
  | .obj members =>
    return {
      sourcePattern := entry.1
      pathPattern
      allowedRoles := ← textsAt (.obj members) "roles"
      requiredPermissions := ← textsAt (.obj members) "permissions" }
  | _ => return { sourcePattern := entry.1, pathPattern }

/-- The entries of `rbac_rules`.  `Json::Value` iterates by name; here the order is any. -/
def ruleEntries (config : Json) : List (String × Json) :=
  match config.get "rbac_rules" with
  | .obj members => members
  | _ => []

/-- The rules in the order of the configuration. -/
def loadRules (regex : RegexLibrary) (config : Json) : Except String (List RbacRule) :=
  (ruleEntries config).mapM (loadRule regex)

/-- The entries of the public paths. -/
def publicEntries (config : Json) : List Json :=
  match config.get "public_paths" with
  | .arr paths => paths
  | _ => []

/-- The patterns of the public paths. -/
def loadPublicPaths (regex : RegexLibrary) (config : Json) : Except String (List (String → Bool)) :=
  (publicEntries config).mapM fun path => do regex (← path.asString)

/-- Bytes. -/
def patternSize (rule : RbacRule) : Nat :=
  rule.sourcePattern.utf8ByteSize

/-- The error of a pattern or a value leaves the filter as it was. -/
def loadRulesSafely (regex : RegexLibrary) (config : Json) : Except String AuthorizationFilter := do
  let localRules ← loadRules regex config
  let localPublic ← loadPublicPaths regex config
  return { rules := localRules.mergeSort (byKey patternSize), publicPaths := localPublic }

/-- What the deciding rule answers. -/
def decide_ (rule : RbacRule) (userRoles userPermissions : List String) : Bool :=
  let permissionsCovered := rule.requiredPermissions.all fun perm => perm ∈ userPermissions
  if !rule.requiredPermissions.isEmpty && permissionsCovered && rule.allowedRoles.isEmpty then true
  else rule.allowedRoles.any fun allowed => userRoles.any fun userRole => userRole = allowed

/-- `AuthorizationFilter::checkAccess`: the first rule whose pattern fits decides. -/
def checkAccess (filter : AuthorizationFilter) (userRoles userPermissions : List String)
    (path : String) : Bool :=
  if filter.publicPaths.any fun publicPath => publicPath path then true
  else
    match filter.rules.find? fun rule => rule.pathPattern path with
    | none => false
    | some rule => decide_ rule userRoles userPermissions

end AuthorizationFilter

open AuthorizationFilter

/-! ## The decision -/

/-- The caller has one of the roles of the rule. -/
def RbacRule.HasRole (rule : RbacRule) (userRoles : List String) : Prop :=
  ∃ role ∈ userRoles, role ∈ rule.allowedRoles

/-- The caller's permissions are all that the rule lists. -/
def RbacRule.Covered (rule : RbacRule) (userPermissions : List String) : Prop :=
  ∀ perm ∈ rule.requiredPermissions, perm ∈ userPermissions

/-- What a rule lists is required: permissions, roles or both; a rule without either entitles
nobody. -/
def RbacRule.Entitles (rule : RbacRule) (userRoles userPermissions : List String) : Prop :=
  (rule.requiredPermissions ≠ [] ∨ rule.allowedRoles ≠ []) ∧ rule.Covered userPermissions ∧
    (rule.allowedRoles ≠ [] → rule.HasRole userRoles)

/-- The rule decides on the path: of the rules that match, it is the first of those with the
longest pattern. -/
def DecidesOn (rules : List RbacRule) (path : String) (rule : RbacRule) : Prop :=
  Leads patternSize (fun rule => rule.pathPattern path) rules rule

/-- A role suffices to pass a rule that lists permissions too. -/
def RbacRule.PassesByRole (rule : RbacRule) (userRoles userPermissions : List String) : Prop :=
  rule.HasRole userRoles ∧ ¬ rule.Covered userPermissions

/-- What the decision of a rule says. -/
theorem decide_iff (rule : RbacRule) (userRoles userPermissions : List String) :
    decide_ rule userRoles userPermissions = true ↔
      rule.Entitles userRoles userPermissions ∨ rule.PassesByRole userRoles userPermissions := by
  have role : (rule.allowedRoles.any fun allowed =>
      userRoles.any fun userRole => userRole = allowed) = true ↔ rule.HasRole userRoles := by
    simp only [List.any_eq_true, decide_eq_true_eq, RbacRule.HasRole]
    constructor
    · rintro ⟨allowed, mem, role, mem', rfl⟩
      exact ⟨role, mem', mem⟩
    · rintro ⟨role, mem, mem'⟩
      exact ⟨role, mem', role, mem, rfl⟩
  have covered : (rule.requiredPermissions.all fun perm => perm ∈ userPermissions) = true ↔
      rule.Covered userPermissions := by
    simp only [List.all_eq_true, decide_eq_true_eq, RbacRule.Covered]
  unfold decide_
  by_cases roles : rule.allowedRoles = []
  · have noRole : ¬ rule.HasRole userRoles := by
      rintro ⟨role, _, mem⟩
      rw [roles] at mem
      cases mem
    simp only [RbacRule.Entitles, RbacRule.PassesByRole, noRole, roles, ← covered]
    by_cases permissions : rule.requiredPermissions = []
    · simp [permissions]
    · simp [permissions]
  · have listed : rule.allowedRoles.isEmpty = false := by simpa using roles
    simp only [listed, Bool.and_false, Bool.false_eq_true, if_false, role, RbacRule.Entitles,
      RbacRule.PassesByRole, ne_eq, roles, not_false_eq_true, or_true, true_and, forall_const]
    by_cases all : rule.Covered userPermissions
    · simp [all]
    · simp [all]

/-- A caller whose role is enough is not entitled. -/
theorem entitles_not_passesByRole {rule : RbacRule} {userRoles userPermissions : List String}
    (passes : rule.PassesByRole userRoles userPermissions) :
    ¬ rule.Entitles userRoles userPermissions := fun entitles =>
  passes.2 entitles.2.1

/-- The path is allowed: it is public, or the rule that decides entitles the caller. -/
def Allowed (rules : List RbacRule) (publicPaths : List (String → Bool))
    (userRoles userPermissions : List String) (path : String) : Prop :=
  (∃ publicPath ∈ publicPaths, publicPath path = true) ∨
    ∃ rule, DecidesOn rules path rule ∧ rule.Entitles userRoles userPermissions

/-- The path is not public, and the rule that decides on it lists permissions that the caller
lacks and a role of the caller. -/
def RoleOverridesPermissions (rules : List RbacRule) (publicPaths : List (String → Bool))
    (userRoles userPermissions : List String) (path : String) : Prop :=
  (∀ publicPath ∈ publicPaths, publicPath path = false) ∧
    ∃ rule, DecidesOn rules path rule ∧ rule.PassesByRole userRoles userPermissions

section Loaded

variable {regex : RegexLibrary} {config config' : Json} {filter : AuthorizationFilter}
  {userRoles userPermissions : List String} {path : String}

theorem loadRulesSafely_eq_ok (loaded : loadRulesSafely regex config = .ok filter) :
    ∃ rules, loadRules regex config = .ok rules ∧
      loadPublicPaths regex config = .ok filter.publicPaths ∧
      filter.rules = rules.mergeSort (byKey patternSize) := by
  unfold loadRulesSafely at loaded
  cases rules : loadRules regex config with
  | error e => simp [rules, bind, Except.bind] at loaded
  | ok localRules =>
      cases paths : loadPublicPaths regex config with
      | error e => simp [rules, paths, bind, Except.bind] at loaded
      | ok localPublic =>
          simp only [rules, paths, bind, Except.bind, pure, Except.pure, Except.ok.injEq] at loaded
          subst loaded
          exact ⟨localRules, rfl, rfl, rfl⟩

/-- What the decision on a path says. -/
theorem checkAccess_iff {rules : List RbacRule}
    (sorted : filter.rules = rules.mergeSort (byKey patternSize)) :
    checkAccess filter userRoles userPermissions path = true ↔
      (∃ publicPath ∈ filter.publicPaths, publicPath path = true) ∨
        ∃ rule, DecidesOn rules path rule ∧ decide_ rule userRoles userPermissions = true := by
  have found : ∀ rule, filter.rules.find? (fun rule => rule.pathPattern path) = some rule ↔
      DecidesOn rules path rule := by
    intro rule
    rw [sorted]
    exact find?_mergeSort_iff
  unfold checkAccess
  by_cases isPublic : (filter.publicPaths.any fun publicPath => publicPath path) = true
  · rw [if_pos isPublic]
    exact iff_of_true rfl (.inl (List.any_eq_true.mp isPublic))
  · rw [if_neg isPublic]
    rw [← List.any_eq_true, or_iff_right isPublic]
    simp only [← found]
    cases filter.rules.find? (fun rule => rule.pathPattern path) with
    | none => simp
    | some rule => simp

section Order

variable {α β ε : Type} {f : α → Except ε β}

theorem mapM_cons_eq_ok {a : α} {as : List α} {bs : List β} :
    (a :: as).mapM f = .ok bs ↔ ∃ b rest, f a = .ok b ∧ as.mapM f = .ok rest ∧ bs = b :: rest := by
  rw [List.mapM_cons]
  cases f a with
  | error e => simp [bind, Except.bind]
  | ok b =>
      cases as.mapM f with
      | error e => simp [bind, Except.bind]
      | ok rest => simp [bind, Except.bind, pure, Except.pure, eq_comm]

/-- What is read entry by entry is read in any order. -/
theorem mapM_perm {as as' : List α} (perm : as'.Perm as) {bs : List β}
    (ok : as.mapM f = .ok bs) : ∃ bs', as'.mapM f = .ok bs' ∧ bs'.Perm bs := by
  induction perm generalizing bs with
  | nil => exact ⟨bs, ok, .refl bs⟩
  | cons a _ ih =>
      obtain ⟨b, rest, one, others, rfl⟩ := mapM_cons_eq_ok.mp ok
      obtain ⟨rest', others', perm⟩ := ih others
      exact ⟨b :: rest', mapM_cons_eq_ok.mpr ⟨b, rest', one, others', rfl⟩, perm.cons b⟩
  | swap a a' as =>
      obtain ⟨b, rest, one, others, rfl⟩ := mapM_cons_eq_ok.mp ok
      obtain ⟨b', rest', one', others', rfl⟩ := mapM_cons_eq_ok.mp others
      refine ⟨b' :: b :: rest', mapM_cons_eq_ok.mpr ⟨b', b :: rest', one', ?_, rfl⟩,
        .swap b b' rest'⟩
      exact mapM_cons_eq_ok.mpr ⟨b, rest', one, others', rfl⟩
  | trans _ _ ih ih' =>
      obtain ⟨bs', ok', perm⟩ := ih' ok
      obtain ⟨bs'', ok'', perm'⟩ := ih ok'
      exact ⟨bs'', ok'', perm'.trans perm⟩

end Order

/-- The decision is the one that the configuration says. -/
def DecidesExactly (regex : RegexLibrary) (config : Json) (filter : AuthorizationFilter)
    (userRoles userPermissions : List String) (path : String) : Prop :=
  ∀ rules, loadRules regex config = .ok rules →
    (checkAccess filter userRoles userPermissions path = true ↔
      Allowed rules filter.publicPaths userRoles userPermissions path)

/-- Any other order of the entries loads and gives the same decision, if the patterns that match
the path have different lengths. -/
def IndependentOfOrder (regex : RegexLibrary) (config : Json) (filter : AuthorizationFilter)
    (userRoles userPermissions : List String) (path : String) : Prop :=
  ∀ rules, loadRules regex config = .ok rules →
    KeysApart patternSize (fun rule => rule.pathPattern path) rules →
      ∀ config', (ruleEntries config').Perm (ruleEntries config) →
        publicEntries config' = publicEntries config → ∃ filter',
          loadRulesSafely regex config' = .ok filter' ∧
            checkAccess filter' userRoles userPermissions path =
              checkAccess filter userRoles userPermissions path

/-- The order of the rules does not matter unless two have one key. -/
theorem independentOfOrder (loaded : loadRulesSafely regex config = .ok filter) :
    IndependentOfOrder regex config filter userRoles userPermissions path := by
  intro rules parsed apart config' perm same
  obtain ⟨rules', parsed', paths, sorted⟩ := loadRulesSafely_eq_ok loaded
  cases parsed.symm.trans parsed'
  obtain ⟨rules', parsed', perm'⟩ := mapM_perm perm parsed
  have paths' : loadPublicPaths regex config' = .ok filter.publicPaths := by
    unfold loadPublicPaths
    rw [same]
    exact paths
  refine ⟨⟨rules'.mergeSort (byKey patternSize), filter.publicPaths⟩, ?_, ?_⟩
  · have read : loadRules regex config' = .ok rules' := parsed'
    simp only [loadRulesSafely, read, paths', bind, Except.bind, pure, Except.pure]
  · have sorted' : (AuthorizationFilter.mk (rules'.mergeSort (byKey patternSize))
        filter.publicPaths).rules = rules'.mergeSort (byKey patternSize) := rfl
    rw [Bool.eq_iff_iff, checkAccess_iff sorted, checkAccess_iff sorted']
    simp only [DecidesOn, leads_perm apart perm']

/-- The decision is exact, and independent of the order, just when no role overrides the
permissions that the deciding rule lists. -/
theorem access_exact_iff (loaded : loadRulesSafely regex config = .ok filter) :
    (DecidesExactly regex config filter userRoles userPermissions path ∧
        IndependentOfOrder regex config filter userRoles userPermissions path) ↔
      ∀ rules, loadRules regex config = .ok rules →
        ¬ RoleOverridesPermissions rules filter.publicPaths userRoles userPermissions path := by
  rw [and_iff_left (independentOfOrder loaded)]
  refine forall_congr' fun rules => forall_congr' fun parsed => ?_
  obtain ⟨rules', parsed', -, sorted⟩ := loadRulesSafely_eq_ok loaded
  cases parsed.symm.trans parsed'
  rw [checkAccess_iff sorted]
  simp only [decide_iff, Allowed, RoleOverridesPermissions]
  constructor
  · rintro exact_ ⟨closed, rule, decides, passes⟩
    rcases exact_.mp (.inr ⟨rule, decides, .inr passes⟩) with
      ⟨publicPath, mem, isPublic⟩ | ⟨rule', decides', entitles⟩
    · rw [closed publicPath mem] at isPublic
      cases isPublic
    · cases decides.unique decides'
      exact entitles_not_passesByRole passes entitles
  · intro none
    constructor
    · rintro (isPublic | ⟨rule, decides, entitles | passes⟩)
      · exact .inl isPublic
      · exact .inr ⟨rule, decides, entitles⟩
      · by_contra denied
        refine none ⟨fun publicPath mem => ?_, rule, decides, passes⟩
        refine Bool.eq_false_iff.mpr fun isPublic => denied (.inl ⟨publicPath, mem, isPublic⟩)
    · rintro (isPublic | ⟨rule, decides, entitles⟩)
      · exact .inl isPublic
      · exact .inr ⟨rule, decides, .inl entitles⟩

end Loaded

section Sample

/-- Patterns without special characters. -/
def literalPatterns : RegexLibrary := fun pattern => .ok fun path => path = pattern

/-- One rule that lists a role and a permission. -/
def mixedConfig : Json :=
  .obj [("rbac_rules", .obj [("/api/admin/users",
    .obj [("roles", .arr [.str "helpdesk"]), ("permissions", .arr [.str "users:write"])])])]

/-- A rule with a role and a permission. -/
def mixedRule : RbacRule where
  sourcePattern := "/api/admin/users"
  pathPattern path := path = "/api/admin/users"
  allowedRoles := ["helpdesk"]
  requiredPermissions := ["users:write"]

theorem mixedConfig_loads :
    loadRulesSafely literalPatterns mixedConfig = .ok ⟨[mixedRule], []⟩ := by
  have rules : loadRules literalPatterns mixedConfig = .ok [mixedRule] := rfl
  have paths : loadPublicPaths literalPatterns mixedConfig = .ok [] := rfl
  simp only [loadRulesSafely, rules, paths, bind, Except.bind, pure, Except.pure,
    List.mergeSort_singleton]

theorem mixedRule_decides : DecidesOn [mixedRule] "/api/admin/users" mixedRule := by
  refine ⟨[], [], rfl, by decide, fun b mem => ?_, fun b mem => ?_⟩
  · cases mem
  · cases mem

/-- A caller with the role and without the permission passes. -/
theorem role_overrides_permission :
    loadRulesSafely literalPatterns mixedConfig = .ok ⟨[mixedRule], []⟩ ∧
      ¬ DecidesExactly literalPatterns mixedConfig ⟨[mixedRule], []⟩ ["helpdesk"] []
        "/api/admin/users" := by
  refine ⟨mixedConfig_loads, fun exact_ => ?_⟩
  have passes : checkAccess ⟨[mixedRule], []⟩ ["helpdesk"] [] "/api/admin/users" = true := by
    decide
  rcases (exact_ [mixedRule] rfl).mp passes with ⟨publicPath, mem, _⟩ | ⟨rule, decides, entitles⟩
  · cases mem
  · cases decides.unique mixedRule_decides
    cases entitles.2.1 "users:write" List.mem_cons_self

theorem access_exact_iff_mixed :
    (DecidesExactly literalPatterns mixedConfig ⟨[mixedRule], []⟩ ["helpdesk"] ["users:write"]
        "/api/admin/users" ∧
      IndependentOfOrder literalPatterns mixedConfig ⟨[mixedRule], []⟩ ["helpdesk"] ["users:write"]
        "/api/admin/users") ↔
      ∀ rules, loadRules literalPatterns mixedConfig = .ok rules →
        ¬ RoleOverridesPermissions rules [] ["helpdesk"] ["users:write"] "/api/admin/users" :=
  access_exact_iff mixedConfig_loads

end Sample

end Fulla
