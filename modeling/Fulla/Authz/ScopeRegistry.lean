import Mathlib.Data.List.Induction
import Mathlib.Data.List.Perm.Basic
import Fulla.Authz.AuthorizationFilter
import Fulla.Model.Text

/-!
# Scopes of the routes

`ResourceScopeRegistry.cc`: the requirements that the endpoints declare and the prefixes that are
registered after them, and the requirement of a request.

`lookup` takes the first declared template that matches.  A template with a parameter may so come
before the one that spells the path out, and what is found then hangs on the order.  A prefix is
preferred to none only when it has a segment, so that the root is never found.
-/

namespace Fulla

/-- `drogon::HttpMethod`. -/
inductive HttpMethod
  | get | post | head | put | delete | options | patch | invalid
deriving DecidableEq, Repr

/-- Whether all of the scopes are needed or one of them. -/
inductive ScopeMatch
  | all | any
deriving DecidableEq, Repr

/-- The scopes that a request needs. -/
structure ResourceScopeRequirement where
  scopes : List String
  scopeMatch : ScopeMatch := .all
  impliedBy : List String := []
deriving DecidableEq, Repr

/-- What the registry reads of `EndpointInfo`. -/
structure EndpointInfo where
  path : String
  method : String
  requiredScopes : List String
  impliedBy : List String
deriving DecidableEq, Repr

/-- A requirement with the template of its paths. -/
structure StoredEntry where
  templatePath : String
  templateSegs : List String
  method : HttpMethod
  requirement : ResourceScopeRequirement

/-- A requirement with the prefix of its paths. -/
structure PrefixEntry where
  pathPrefix : String
  prefixSegs : List String
  requirement : ResourceScopeRequirement

/-- The statics `registry()`, `prefixEntries()` and `built()`; a method that the map does not
have has no entries. -/
structure ResourceScopeRegistry where
  registry : HttpMethod → List StoredEntry
  prefixEntries : List PrefixEntry
  built : Bool

/-- The segments between the slashes that are not empty. -/
def splitPath (path : String) : List String :=
  ((splitChars '/' path.toList).filter (· ≠ [])).map String.ofList

/-- A segment in braces. -/
def isParam (t : String) : Bool :=
  t.toList.head? = some '{' && t.toList.getLast? = some '}'

/-- The segments agree, but for those in braces. -/
def templateMatches : List String → List String → Bool
  | [], [] => true
  | t :: templateSegs, c :: concreteSegs =>
    (isParam t || t = c) && templateMatches templateSegs concreteSegs
  | _, _ => false

/-- The method that a text names. -/
def methodFromString (s : String) : HttpMethod :=
  if s = "GET" then .get
  else if s = "POST" then .post
  else if s = "PUT" then .put
  else if s = "DELETE" then .delete
  else if s = "PATCH" then .patch
  else if s = "OPTIONS" then .options
  else if s = "HEAD" then .head
  else .invalid

namespace EndpointInfo

variable (ep : EndpointInfo) (method : HttpMethod) (path : String)

/-- The requirement of an entry: all scopes, as `EndpointInfo` has it by default. -/
def requirement : ResourceScopeRequirement where
  scopes := ep.requiredScopes
  scopeMatch := .all
  impliedBy := ep.impliedBy

/-- The entry of a declared endpoint. -/
def stored : StoredEntry where
  templatePath := ep.path
  templateSegs := splitPath ep.path
  method := method
  requirement := ep.requirement

/-- The endpoint declares a requirement for the method. -/
def gates : Bool :=
  ep.requiredScopes ≠ [] && methodFromString ep.method = method && method ≠ .invalid

/-- The template is the path, segment for segment. -/
def spells : Bool :=
  ep.gates method && splitPath ep.path = splitPath path

/-- The endpoint is one for the method and the path. -/
def answers : Bool :=
  ep.gates method && templateMatches (splitPath ep.path) (splitPath path)

end EndpointInfo

namespace ResourceScopeRegistry

/-- A registry without entries. -/
def clear : ResourceScopeRegistry where
  registry _ := []
  prefixEntries := []
  built := false

/-- One turn of the loop: an endpoint without scopes or with a method that is not known
is passed over. -/
def addEndpoint (reg : HttpMethod → List StoredEntry) (ep : EndpointInfo) :
    HttpMethod → List StoredEntry :=
  if ep.requiredScopes = [] then reg
  else
    let method := methodFromString ep.method
    if method = .invalid then reg
    else fun m => if m = method then reg m ++ [ep.stored method] else reg m

/-- The entries of all declared endpoints. -/
def buildFromEndpoints (endpoints : List EndpointInfo) : ResourceScopeRegistry where
  registry := endpoints.foldl addEndpoint clear.registry
  prefixEntries := []
  built := true

/-- The entry of a registered prefix. -/
def prefixEntry (registered : String × ResourceScopeRequirement) : PrefixEntry where
  pathPrefix := registered.1
  prefixSegs := splitPath registered.1
  requirement := registered.2

/-- One more prefix. -/
def registerPrefix (reg : ResourceScopeRegistry) (registered : String × ResourceScopeRequirement) :
    ResourceScopeRegistry :=
  { reg with prefixEntries := reg.prefixEntries ++ [prefixEntry registered] }

/-- One turn of the second loop, on `bestPrefix` and `bestLen`. -/
def betterPrefix (concreteSegs : List String) (best : Option ResourceScopeRequirement × Nat)
    (pe : PrefixEntry) : Option ResourceScopeRequirement × Nat :=
  if pe.prefixSegs.isPrefixOf concreteSegs then
    if best.2 < pe.prefixSegs.length then (some pe.requirement, pe.prefixSegs.length) else best
  else best

/-- `ResourceScopeRegistry::lookup`. -/
def lookup (reg : ResourceScopeRegistry) (path : String) (method : HttpMethod) :
    Option ResourceScopeRequirement :=
  let concreteSegs := splitPath path
  match (reg.registry method).find? fun entry =>
      templateMatches entry.templateSegs concreteSegs with
  | some entry => some entry.requirement
  | none => (reg.prefixEntries.foldl (betterPrefix concreteSegs) (none, 0)).1

/-- The registry of a start: the endpoints first, then the prefixes. -/
def configured (endpoints : List EndpointInfo)
    (prefixes : List (String × ResourceScopeRequirement)) : ResourceScopeRegistry :=
  prefixes.foldl registerPrefix (buildFromEndpoints endpoints)

/-! ## The entries of a method -/

section

variable {endpoints endpoints' : List EndpointInfo} {ep : EndpointInfo}
  {prefixes : List (String × ResourceScopeRequirement)} {method : HttpMethod} {path : String}
  {reg : HttpMethod → List StoredEntry}

/-- When an endpoint needs scopes. -/
theorem gates_iff (m : HttpMethod) :
    ep.gates m = true ↔ ep.requiredScopes ≠ [] ∧ methodFromString ep.method = m ∧ m ≠ .invalid := by
  simp [EndpointInfo.gates, and_assoc]

/-- Such an endpoint adds an entry. -/
theorem addEndpoint_of_gates {m : HttpMethod} (gates : ep.gates m = true) :
    addEndpoint reg ep m = reg m ++ [ep.stored m] := by
  obtain ⟨listed, rfl, known⟩ := (gates_iff m).mp gates
  simp [addEndpoint, listed, known]

/-- Another one adds none. -/
theorem addEndpoint_of_not_gates {m : HttpMethod} (gates : ep.gates m = false) :
    addEndpoint reg ep m = reg m := by
  rw [← Bool.not_eq_true, gates_iff] at gates
  unfold addEndpoint
  split
  · rfl
  next listed =>
  dsimp only
  split
  · rfl
  next known =>
  refine if_neg fun eq => gates ⟨listed, eq.symm, ?_⟩
  rw [eq]
  exact known

/-- The entries of all declared endpoints. -/
theorem foldl_addEndpoint (m : HttpMethod) :
    endpoints.foldl addEndpoint reg m =
      reg m ++ (endpoints.filter (·.gates m)).map (·.stored m) := by
  induction endpoints generalizing reg with
  | nil => simp
  | cons ep endpoints ih =>
      rw [List.foldl_cons, ih]
      cases gates : ep.gates m with
      | false => rw [addEndpoint_of_not_gates gates, List.filter_cons_of_neg (by simp [gates])]
      | true =>
          rw [addEndpoint_of_gates gates, List.append_assoc, List.singleton_append]
          simp [gates]

/-- The entries of all prefixes. -/
theorem foldl_registerPrefix (reg : ResourceScopeRegistry) :
    prefixes.foldl registerPrefix reg =
      { reg with prefixEntries := reg.prefixEntries ++ prefixes.map prefixEntry } := by
  induction prefixes generalizing reg with
  | nil => simp
  | cons registered prefixes ih => simp [ih, registerPrefix]

theorem find?_stored :
    ((endpoints.filter (·.gates method)).map (·.stored method)).find?
        (fun entry => templateMatches entry.templateSegs (splitPath path)) =
      (endpoints.find? (·.answers method path)).map (·.stored method) := by
  rw [List.find?_map, List.find?_filter]
  simp only [Bool.decide_and, Bool.decide_eq_true, Function.comp_apply]
  rfl

end

/-! ## The prefix that is kept -/

/-- The segments of the prefix begin the path. -/
def begins (path : String) (registered : String × ResourceScopeRequirement) : Bool :=
  (splitPath registered.1).isPrefixOf (splitPath path)

/-- The number of segments of a prefix. -/
def prefixLength (registered : String × ResourceScopeRequirement) : Nat :=
  (splitPath registered.1).length

/-- No segment: `""`, `"/"` and any number of slashes. -/
def isRoot (registered : String × ResourceScopeRequirement) : Bool :=
  (splitPath registered.1).isEmpty

section

variable {l : List (String × ResourceScopeRequirement)}
  {p q : String × ResourceScopeRequirement} {path : String}
  {best : Option ResourceScopeRequirement × Nat}

/-- What `bestPrefix` and `bestLen` are after the prefixes of `l`. -/
def Best (path : String) (l : List (String × ResourceScopeRequirement))
    (best : Option ResourceScopeRequirement × Nat) : Prop :=
  (best = (none, 0) ∧ ∀ q ∈ l, begins path q = true → isRoot q = true) ∨
    ∃ q, isRoot q = false ∧ Leads prefixLength (begins path) l q ∧
      best = (some q.2, prefixLength q)

theorem isRoot_iff : isRoot p = true ↔ prefixLength p = 0 := by
  rw [isRoot, prefixLength, List.isEmpty_iff, List.length_eq_zero_iff]

theorem begins_of_isRoot (root : isRoot p = true) : begins path p = true := by
  rw [begins, List.isEmpty_iff.mp root]
  rfl

theorem leads_snoc (leads : Leads prefixLength (begins path) l q)
    (le : begins path p = true → prefixLength p ≤ prefixLength q) :
    Leads prefixLength (begins path) (l ++ [p]) q := by
  obtain ⟨before, after, rfl, holds, less, least⟩ := leads
  refine ⟨before, after ++ [p], by simp, holds, less, fun b mem begin => ?_⟩
  rcases List.mem_append.mp mem with mem | mem
  · exact least b mem begin
  · cases List.mem_singleton.mp mem
    exact le begin

theorem leads_last (begin : begins path p = true)
    (less : ∀ q ∈ l, begins path q = true → prefixLength q < prefixLength p) :
    Leads prefixLength (begins path) (l ++ [p]) p :=
  ⟨l, [], rfl, begin, less, fun _ mem => absurd mem List.not_mem_nil⟩

theorem betterPrefix_eq : betterPrefix (splitPath path) best (prefixEntry p) =
    if begins path p = true ∧ best.2 < prefixLength p then (some p.2, prefixLength p)
    else best := by
  rw [ite_and]
  rfl

theorem Best.le (kept : Best path l best) (mem : q ∈ l) (begin : begins path q = true) :
    prefixLength q ≤ best.2 := by
  obtain ⟨rfl, roots⟩ | ⟨_, _, leads, rfl⟩ := kept
  · exact le_of_eq (isRoot_iff.mp (roots q mem begin))
  · exact leads.le mem begin

/-- The best prefix after one more. -/
theorem Best.snoc (kept : Best path l best) :
    Best path (l ++ [p]) (betterPrefix (splitPath path) best (prefixEntry p)) := by
  rw [betterPrefix_eq]
  split
  next taken =>
    obtain ⟨begin, longer⟩ := taken
    refine .inr ⟨p, ?_, leads_last begin fun q mem there => ?_, rfl⟩
    · rw [← Bool.not_eq_true, isRoot_iff]
      exact Nat.ne_zero_of_lt longer
    · exact lt_of_le_of_lt (kept.le mem there) longer
  next passed =>
    have short : begins path p = true → prefixLength p ≤ best.2 := fun begin =>
      Nat.le_of_not_lt fun longer => passed ⟨begin, longer⟩
    obtain ⟨rfl, roots⟩ | ⟨q, deep, leads, rfl⟩ := kept
    · refine .inl ⟨rfl, fun q mem begin => ?_⟩
      rcases List.mem_append.mp mem with mem | mem
      · exact roots q mem begin
      · cases List.mem_singleton.mp mem
        exact isRoot_iff.mpr (Nat.le_zero.mp (short begin))
    · exact .inr ⟨q, deep, leads_snoc leads short, rfl⟩

/-- **The loop keeps the longest prefix that fits**, the last one among equals. -/
theorem best_foldl (path : String) (l : List (String × ResourceScopeRequirement)) :
    Best path l ((l.map prefixEntry).foldl (betterPrefix (splitPath path)) (none, 0)) := by
  induction l using List.reverseRecOn with
  | nil => exact .inl ⟨rfl, fun _ mem => absurd mem List.not_mem_nil⟩
  | append_singleton l p ih =>
      rw [List.map_append, List.foldl_append]
      exact ih.snoc

end

/-! ## What is found -/

section

variable {endpoints endpoints' : List EndpointInfo} {ep : EndpointInfo}
  {prefixes : List (String × ResourceScopeRequirement)} {method : HttpMethod} {path : String}
  {p : String × ResourceScopeRequirement}

theorem templateMatches_self (segs : List String) : templateMatches segs segs = true := by
  induction segs with
  | nil => rfl
  | cons seg segs ih => simp [templateMatches, ih]

/-- An endpoint answers for the path that it spells. -/
theorem answers_of_spells (spells : ep.spells method path = true) :
    ep.answers method path = true := by
  rw [EndpointInfo.spells, Bool.and_eq_true, decide_eq_true_eq] at spells
  rw [EndpointInfo.answers, spells.1, spells.2, templateMatches_self]
  rfl

/-- **What the registry looks up**: a template, or else the best prefix. -/
theorem lookup_configured (endpoints : List EndpointInfo)
    (prefixes : List (String × ResourceScopeRequirement)) (method : HttpMethod) (path : String) :
    (configured endpoints prefixes).lookup path method =
      ((endpoints.find? (·.answers method path)).map (·.requirement)).or
        ((prefixes.map prefixEntry).foldl (betterPrefix (splitPath path)) (none, 0)).1 := by
  rw [configured, foldl_registerPrefix, lookup]
  simp only [buildFromEndpoints, foldl_addEndpoint, clear, List.nil_append, find?_stored]
  cases endpoints.find? (·.answers method path) <;> rfl

/-- The declaration that the scan meets first decides. -/
theorem lookup_of_first {before after : List EndpointInfo}
    (passed : ∀ other ∈ before, other.answers method path = false)
    (answers : ep.answers method path = true) :
    (configured (before ++ ep :: after) prefixes).lookup path method = some ep.requirement := by
  have found : (before ++ ep :: after).find? (·.answers method path) = some ep :=
    List.find?_eq_some_iff_append.mpr ⟨answers, before, after, rfl, fun other mem => by
      rw [passed other mem]
      rfl⟩
  rw [lookup_configured, found]
  rfl

/-- The first endpoint that answers. -/
theorem exists_first (mem : ep ∈ endpoints) (answers : ep.answers method path = true) :
    ∃ before first after, endpoints = before ++ first :: after ∧
      first.answers method path = true ∧ ∀ other ∈ before, other.answers method path = false := by
  cases found : endpoints.find? (·.answers method path) with
  | none => exact absurd answers (List.find?_eq_none.mp found ep mem)
  | some first =>
      obtain ⟨answers, before, after, eq, passed⟩ := List.find?_eq_some_iff_append.mp found
      exact ⟨before, first, after, eq, answers, fun other mem => by simpa using passed other mem⟩

/-- Without a template that matches, the prefixes decide. -/
theorem lookup_of_unanswered (prefixes : List (String × ResourceScopeRequirement))
    (unanswered : ∀ ep ∈ endpoints, ep.answers method path = false) :
    ((configured endpoints prefixes).lookup path method = none ∧
        ∀ p ∈ prefixes, begins path p = true → isRoot p = true) ∨
      ∃ p, isRoot p = false ∧ Leads prefixLength (begins path) prefixes p ∧
        (configured endpoints prefixes).lookup path method = some p.2 := by
  have unfound : endpoints.find? (·.answers method path) = none :=
    List.find?_eq_none.mpr fun ep mem => by simp [unanswered ep mem]
  rw [lookup_configured, unfound, Option.map_none, Option.none_or]
  obtain ⟨eq, roots⟩ | ⟨p, deep, leads, eq⟩ := best_foldl path prefixes
  · exact .inl ⟨congrArg Prod.fst eq, roots⟩
  · exact .inr ⟨p, deep, leads, congrArg Prod.fst eq⟩

/-! ## Most specific, in any order -/

/-- What a lookup by the most specific declaration returns: the requirement of the template that
spells the path out; else, where a template matches, the same for every order of the endpoints;
else that of the longest prefix, and none only without a prefix. -/
structure MostSpecific (endpoints : List EndpointInfo)
    (prefixes : List (String × ResourceScopeRequirement)) (method : HttpMethod)
    (path : String) : Prop where
  literal : ∀ ep ∈ endpoints, ep.spells method path = true →
    (configured endpoints prefixes).lookup path method = some ep.requirement
  unordered : (∀ ep ∈ endpoints, ep.spells method path = false) →
    (∃ ep ∈ endpoints, ep.answers method path = true) →
    ∀ endpoints', endpoints'.Perm endpoints →
      (configured endpoints' prefixes).lookup path method =
        (configured endpoints prefixes).lookup path method
  absent : (∀ ep ∈ endpoints, ep.answers method path = false) →
    ((configured endpoints prefixes).lookup path method = none ↔
      ∀ p ∈ prefixes, begins path p = false)
  longest : (∀ ep ∈ endpoints, ep.answers method path = false) →
    ∀ p, Leads prefixLength (begins path) prefixes p →
      (configured endpoints prefixes).lookup path method = some p.2

/-- The first template that matches carries the requirement of the one that spells the path out;
else all that match carry one; and the root, where it is registered and no template matches,
comes with a longer prefix that begins the path. -/
structure Unshadowed (endpoints : List EndpointInfo)
    (prefixes : List (String × ResourceScopeRequirement)) (method : HttpMethod)
    (path : String) : Prop where
  literal : ∀ ep ∈ endpoints, ep.spells method path = true → ∀ before first after,
    endpoints = before ++ first :: after → first.answers method path = true →
    (∀ other ∈ before, other.answers method path = false) → first.requirement = ep.requirement
  agree : (∀ ep ∈ endpoints, ep.spells method path = false) →
    ∀ ep ∈ endpoints, ∀ other ∈ endpoints, ep.answers method path = true →
      other.answers method path = true → ep.requirement = other.requirement
  root : (∀ ep ∈ endpoints, ep.answers method path = false) →
    ∀ p ∈ prefixes, isRoot p = true → ∃ q ∈ prefixes, isRoot q = false ∧ begins path q = true

theorem lookup_of_answers (agree : ∀ ep ∈ endpoints, ∀ other ∈ endpoints,
      ep.answers method path = true → other.answers method path = true →
        ep.requirement = other.requirement)
    (perm : endpoints'.Perm endpoints) (mem : ep ∈ endpoints)
    (answers : ep.answers method path = true) :
    (configured endpoints' prefixes).lookup path method = some ep.requirement := by
  obtain ⟨before, first, after, rfl, found, passed⟩ := exists_first (perm.mem_iff.mpr mem) answers
  have there : first ∈ endpoints :=
    perm.mem_iff.mp (List.mem_append_right _ List.mem_cons_self)
  rw [lookup_of_first passed found, agree first there ep mem found answers]

/-- What is most specific is not shadowed. -/
theorem MostSpecific.unshadowed (specific : MostSpecific endpoints prefixes method path) :
    Unshadowed endpoints prefixes method path := by
  refine ⟨?_, ?_, ?_⟩
  · rintro ep mem spells before first after rfl found passed
    have eq := specific.literal ep mem spells
    rw [lookup_of_first passed found] at eq
    exact Option.some.inj eq
  · intro unspelled ep mem other mem' answers answers'
    -- either of the two can be the first
    have ahead : ∀ ep ∈ endpoints, ep.answers method path = true →
        (configured endpoints prefixes).lookup path method = some ep.requirement := by
      intro ep mem answers
      rw [← specific.unordered unspelled ⟨ep, mem, answers⟩ (ep :: endpoints.erase ep)
        (List.perm_cons_erase mem).symm]
      exact lookup_of_first (fun _ mem => absurd mem List.not_mem_nil) answers
    have eq := ahead ep mem answers
    rw [ahead other mem' answers'] at eq
    exact (Option.some.inj eq).symm
  · intro unanswered p mem root
    obtain ⟨none, _⟩ | ⟨q, deep, leads, _⟩ := lookup_of_unanswered prefixes unanswered
    · have passed := (specific.absent unanswered).mp none p mem
      rw [begins_of_isRoot root] at passed
      cases passed
    · exact ⟨q, leads.mem, deep, leads.holds⟩

/-- What is not shadowed is most specific. -/
theorem Unshadowed.mostSpecific (ahead : Unshadowed endpoints prefixes method path) :
    MostSpecific endpoints prefixes method path := by
  -- a prefix that begins the path is not the root alone
  have deep : (∀ ep ∈ endpoints, ep.answers method path = false) →
      (∀ q ∈ prefixes, begins path q = true → isRoot q = true) →
      ∀ p ∈ prefixes, begins path p ≠ true := by
    intro unanswered roots p mem begin
    obtain ⟨q, mem', deep, begin'⟩ := ahead.root unanswered p mem (roots p mem begin)
    rw [roots q mem' begin'] at deep
    cases deep
  refine ⟨?_, ?_, ?_, ?_⟩
  · intro ep mem spells
    obtain ⟨before, first, after, rfl, found, passed⟩ := exists_first mem (answers_of_spells spells)
    rw [lookup_of_first passed found,
      ahead.literal ep mem spells before first after rfl found passed]
  · rintro unspelled ⟨ep, mem, answers⟩ endpoints' perm
    have agree := ahead.agree unspelled
    rw [lookup_of_answers agree perm mem answers, lookup_of_answers agree (.refl _) mem answers]
  · intro unanswered
    obtain ⟨none, roots⟩ | ⟨q, _, leads, eq⟩ := lookup_of_unanswered prefixes unanswered
    · exact ⟨fun _ p mem => Bool.eq_false_iff.mpr (deep unanswered roots p mem), fun _ => none⟩
    · rw [eq]
      refine ⟨fun none => absurd none (Option.some_ne_none _), fun none => ?_⟩
      exact absurd leads.holds (Bool.eq_false_iff.mp (none q leads.mem))
  · intro unanswered p leads
    obtain ⟨_, roots⟩ | ⟨q, _, leads', eq⟩ := lookup_of_unanswered prefixes unanswered
    · exact absurd leads.holds (deep unanswered roots p leads.mem)
    · rw [eq, leads.unique leads']

/-- A lookup finds the most specific declaration, whatever the order, exactly where none is
shadowed. -/
theorem mostSpecific_iff : MostSpecific endpoints prefixes method path ↔
    Unshadowed endpoints prefixes method path :=
  ⟨MostSpecific.unshadowed, Unshadowed.mostSpecific⟩

/-- The root does not gate what has no other prefix. -/
example : (configured [] [("/", ⟨["profile"], .all, []⟩)]).lookup "/api/me" .get = none := by
  decide

/-- `GET /api/users/{id}` before `GET /api/users/me`: the first has the requirement of both. -/
theorem mostSpecific_shadowed : ¬ ∀ (endpoints : List EndpointInfo)
    (prefixes : List (String × ResourceScopeRequirement)) (method : HttpMethod) (path : String),
    (endpoints.Pairwise fun ep other => (ep.method, ep.path) ≠ (other.method, other.path)) →
      MostSpecific endpoints prefixes method path := by
  intro all
  have specific := all
    [⟨"/api/users/{id}", "GET", ["users:read"], []⟩, ⟨"/api/users/me", "GET", ["profile"], []⟩]
    [] .get "/api/users/me" (by decide)
  have eq := specific.literal ⟨"/api/users/me", "GET", ["profile"], []⟩ (by decide)
    (by decide)
  exact absurd eq (by decide)

end

end ResourceScopeRegistry

end Fulla
