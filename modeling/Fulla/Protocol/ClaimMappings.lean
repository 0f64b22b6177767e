import Fulla.Jwk.Verification
import Fulla.Model.JsonText
import Fulla.Protocol.TokenService

/-!
# Mapped claims in an id token

A client's claim mappings publish profile values in the id token.  `validateClaimMapping` of
`ClaimMappingValidator.cc` keeps them off the claims that the server emits; the minting code
merges them over its own claims and the verifier reads the result.

The three lists agree on every claim but `nbf`: no id token has one, the validator does not
reserve it and the verifier refuses one that is no number.
-/

namespace Fulla

open Conc

/-! ## The validator -/

namespace ClaimMappingValidator

/-- The names that no mapping may publish. -/
def reservedClaimNames : List String :=
  ["sub", "iss", "aud", "exp", "iat", "nonce", "auth_time", "acr", "amr", "org_ctx", "email",
    "email_verified", "name", "preferred_username", "family_name", "given_name", "nickname",
    "picture", "website", "phone_number", "phone_number_verified", "username", "roles"]

/-- `^[a-z][a-z0-9_]{0,63}$`. -/
def matchesKey (s : String) : Bool :=
  match s.toList with
  | [] => false
  | c :: cs =>
    c.isLower && cs.length ≤ 63 && cs.all fun c => c.isLower || c.isDigit || c = '_'

/-- The three places a claim can be published in. -/
def isValidIncludeIn (v : String) : Bool :=
  v = "id_token" || v = "userinfo" || v = "both"

/-- Empty when the mapping is accepted. -/
def validateClaimMapping (scopeName claimName sourcePath includeIn : String) : String :=
  if scopeName = "" ∨ scopeName.utf8ByteSize > 64 then "scope_name must be 1..64 chars"
  else if scopeName = "openid" then
    "scope_name 'openid' is forbidden (always granted; a mapping on it would be " ++
      "zero-authorization publication)"
  else if claimName = "" ∨ claimName.utf8ByteSize > 64 then "claim_name must be 1..64 chars"
  else if matchesKey claimName = false then "claim_name must match ^[a-z][a-z0-9_]{0,63}$"
  else if reservedClaimNames.contains claimName then "claim_name '" ++ claimName ++ "' is reserved"
  else if isValidIncludeIn includeIn = false then
    "include_in must be one of id_token | userinfo | both"
  else if sourcePath = "user.display_name" then ""
  else
    match afterText "custom_attributes." sourcePath with
    | some key =>
      if matchesKey key then ""
      else
        "source_path must be 'user.display_name' or 'custom_attributes.<key>' with the " ++
          "self-service key grammar"
    | none =>
      "source_path must be 'user.display_name' or 'custom_attributes.<key>' with the " ++
        "self-service key grammar"

/-- The mapping passes the validator. -/
def Accepted (m : ClaimMappingEntry) : Prop :=
  validateClaimMapping m.scopeName m.claimName m.sourcePath m.includeIn = ""

instance (m : ClaimMappingEntry) : Decidable (Accepted m) :=
  inferInstanceAs (Decidable (_ = _))

/-- An accepted mapping does not publish a reserved name. -/
theorem not_reserved {m : ClaimMappingEntry} (accepted : Accepted m) :
    m.claimName ∉ reservedClaimNames := by
  intro reserved
  have contained : reservedClaimNames.contains m.claimName = true := by
    simpa using reserved
  unfold Accepted validateClaimMapping at accepted
  rw [if_pos contained] at accepted
  split at accepted
  · exact absurd accepted (by decide)
  · split at accepted
    · exact absurd accepted (by decide)
    · split at accepted
      · exact absurd accepted (by decide)
      · split at accepted
        · exact absurd accepted (by decide)
        · simp at accepted

end ClaimMappingValidator

/-! ## Claims as the key manager signs them -/

namespace Json

/-- The value of a member. -/
def member? : Json → String → Option Json
  | obj members, k => members.lookup k
  | _, _ => none

/-- A member that was set is found, and the others are as before. -/
theorem member?_set (json : Json) (k k' : String) (v : Json) :
    (json.set k v).member? k' = if k' = k then some v else json.member? k' := by
  have single : (obj [(k, v)]).member? k' = if k' = k then some v else none := by
    by_cases same : k' = k
    · simp [member?, same]
    · simp [member?, List.lookup_cons, beq_eq_false_iff_ne.mpr same, same]
  cases json with
  | obj members =>
      obtain ⟨members', eq, lookups⟩ := set_lookup members k v
      rw [eq]
      exact lookups k'
  | null => exact single
  | bool b => exact single
  | int n => exact single
  | real text => exact single
  | str s => exact single
  | arr items => exact single

/-- Writing a member adds nothing else. -/
theorem mem_set (members : List (String × Json)) (k : String) (v : Json) :
    ∃ members', (obj members).set k v = .obj members' ∧
      ∀ m ∈ members', m = (k, v) ∨ m ∈ members := by
  simp only [set]
  split
  · refine ⟨_, rfl, fun m mem => ?_⟩
    obtain ⟨m', mem', eq⟩ := List.mem_map.mp mem
    split at eq
    · exact .inl eq.symm
    · exact .inr (eq ▸ mem')
  · refine ⟨_, rfl, fun m mem => ?_⟩
    rcases List.mem_append.mp mem with old | new
    · exact .inr old
    · exact .inl (List.mem_singleton.mp new)

/-- The members of a `Json::Value` are kept in the order of their names. -/
def insertMember (k : String) (v : Jwk.JsonValue) :
    List (String × Jwk.JsonValue) → List (String × Jwk.JsonValue)
  | [] => [(k, v)]
  | m :: members =>
    if k = m.1 then (k, v) :: members
    else if k < m.1 then (k, v) :: m :: members
    else m :: insertMember k v members

/-- The same for the members of the verifier. -/
theorem lookup_insertMember (k k' : String) (v : Jwk.JsonValue)
    (members : List (String × Jwk.JsonValue)) :
    (insertMember k v members).lookup k' = if k' = k then some v else members.lookup k' := by
  induction members with
  | nil =>
      by_cases same : k' = k
      · simp [insertMember, same]
      · simp [insertMember, List.lookup_cons, beq_eq_false_iff_ne.mpr same, same]
  | cons m members ih =>
      obtain ⟨a, w⟩ := m
      by_cases same : k' = k
      · subst same
        unfold insertMember
        split
        · simp
        · split
          · simp
          · next other _ =>
              rw [List.lookup_cons, beq_eq_false_iff_ne.mpr other, ih, if_pos rfl]
              exact (if_pos rfl).symm
      · have apart : (k' == k) = false := beq_eq_false_iff_ne.mpr same
        rw [if_neg same]
        unfold insertMember
        split
        · next eq =>
            simp only at eq
            subst eq
            simp [List.lookup_cons, apart]
        · split
          · rw [List.lookup_cons, apart]
          · rw [List.lookup_cons, List.lookup_cons, ih, if_neg same]

section ToValue

variable (double : String → Rat)

mutual

/-- The value of jsoncpp: an integer is an `Int64`, a text that stands for a double is one. -/
def toValue : Json → Jwk.JsonValue
  | null => .null
  | bool b => .bool b
  | int n => .int (Int64.ofInt n)
  | real text => .real (double text)
  | str s => .str s
  | arr items => .arr (toValues items)
  | obj members => .obj (toMembers members)

/-- Each element as the verifier reads it. -/
def toValues : List Json → List Jwk.JsonValue
  | [] => []
  | item :: items => toValue item :: toValues items

/-- The members as the verifier reads them; of two with one name the last counts. -/
def toMembers : List (String × Json) → List (String × Jwk.JsonValue)
  | [] => []
  | (k, v) :: members => insertMember k (toValue v) (toMembers members)

end

/-- The verifier finds what was written. -/
theorem lookup_toMembers (members : List (String × Json)) (k : String) :
    (toMembers double members).lookup k = (members.lookup k).map (toValue double) := by
  induction members with
  | nil => rfl
  | cons m members ih =>
      obtain ⟨a, v⟩ := m
      rw [toMembers, lookup_insertMember, List.lookup_cons]
      by_cases same : k = a
      · simp [same]
      · simp [same, beq_eq_false_iff_ne.mpr same, ih]

/-- The same for a whole value. -/
theorem member?_toValue (json : Json) (k : String) :
    (json.toValue double).member? k = (json.member? k).map (toValue double) := by
  cases json with
  | obj members =>
      rw [toValue]
      exact lookup_toMembers double members k
  | null => rfl
  | bool b => rfl
  | int n => rfl
  | real text => rfl
  | str s => rfl
  | arr items => rfl

end ToValue

end Json

/-- The key manager that the token service is wired with. -/
def Jwk.JwkManager.wired {Pkey : Type} (json : Jwk.JsonCpp) (rs256 : Jwk.Rs256 Pkey)
    (double : String → Rat) (m : Jwk.JwkManager Pkey) : Fulla.JwkManager where
  isInitialized := m.initialized
  signJwt := fun claims => m.signJwt json rs256 (claims.toValue double)

/-! ## The mapped claims -/

namespace TokenService

variable (svc : TokenService)

/-- The mappings that cover id tokens and whose scope the token carries. -/
def activeMappings (scope : String) (mappings : List ClaimMappingEntry) : List ClaimMappingEntry :=
  mappings.filter fun m =>
    (m.includeIn = "both" || m.includeIn = "id_token") && scopeContains scope m.scopeName

/-- What the mappings add to the id token of a user with the given profile. -/
def mappedFor (mappings : List ClaimMappingEntry) (profile : Option String) (scope : String) :
    Except String Json :=
  if svc.claimMappingsProvider && svc.userProfileResolver then
    match profile with
    | some profile => svc.mapClaims (activeMappings scope mappings) profile
    | none => .ok (.obj [])
  else .ok (.obj [])

/-- The source of the mapping has a value in the profile. -/
def HasValue (profile : String) (m : ClaimMappingEntry) : Prop :=
  ∃ value, resolveClaimSourceValueImpl svc.jsonCpp m.sourcePath profile.toUTF8.toList =
    .ok (some value)

variable {svc}

/-- A mapping whose source has a value adds a text, and one whose source has none nothing. -/
theorem publish_cases {profile : String} {claims claims' : Json} {m : ClaimMappingEntry}
    (published : svc.publish profile claims m = .ok claims') :
    (svc.HasValue profile m ∧ ∃ value, claims' = claims.set m.claimName (.str value)) ∨
      ¬ svc.HasValue profile m ∧ claims' = claims := by
  unfold publish at published
  cases found : resolveClaimSourceValueImpl svc.jsonCpp m.sourcePath profile.toUTF8.toList with
  | error what =>
      rw [found] at published
      cases published
  | ok value =>
      rw [found] at published
      cases value with
      | none =>
          cases published
          refine .inr ⟨?_, rfl⟩
          rintro ⟨value, has⟩
          cases found.symm.trans has
      | some value =>
          cases published
          exact .inl ⟨⟨value, found⟩, value, rfl⟩

/-- The mappings add the names of those whose source has a value, and no others. -/
theorem member?_mapClaims {mappings : List ClaimMappingEntry} {profile : String} {mapped : Json}
    (k : String) (done : svc.mapClaims mappings profile = .ok mapped) :
    (mapped.member? k).isSome = true ↔
      ∃ m ∈ mappings, m.claimName = k ∧ svc.HasValue profile m := by
  have loop : ∀ (mappings : List ClaimMappingEntry) (claims : Json),
      mappings.foldlM (svc.publish profile) claims = .ok mapped →
      ((mapped.member? k).isSome = true ↔
        (∃ m ∈ mappings, m.claimName = k ∧ svc.HasValue profile m) ∨
          (claims.member? k).isSome = true) := by
    intro mappings
    induction mappings with
    | nil =>
        intro claims eq
        cases eq
        simp
    | cons m mappings ih =>
        intro claims eq
        rw [List.foldlM_cons] at eq
        cases published : svc.publish profile claims m with
        | error what =>
            rw [published] at eq
            cases eq
        | ok claims' =>
            rw [published] at eq
            rw [ih claims' eq]
            rcases publish_cases published with ⟨has, value, rfl⟩ | ⟨hasNot, rfl⟩
            · rw [Json.member?_set]
              by_cases same : k = m.claimName
              · simp [same, has]
              · have other : ¬ m.claimName = k := fun eq => same eq.symm
                simp [same, other]
            · simp [hasNot]
  rw [loop mappings (.obj []) done]
  simp [Json.member?]

/-- The mapped claims are an object of texts. -/
theorem mapClaims_texts {mappings : List ClaimMappingEntry} {profile : String} {mapped : Json}
    (done : svc.mapClaims mappings profile = .ok mapped) :
    ∃ members, mapped = .obj members ∧ ∀ m ∈ members, ∃ s, m.2 = .str s := by
  have loop : ∀ (mappings : List ClaimMappingEntry) (members : List (String × Json)),
      (∀ m ∈ members, ∃ s, m.2 = Json.str s) →
      mappings.foldlM (svc.publish profile) (.obj members) = .ok mapped →
      ∃ members', mapped = .obj members' ∧ ∀ m ∈ members', ∃ s, m.2 = .str s := by
    intro mappings
    induction mappings with
    | nil =>
        intro members texts eq
        cases eq
        exact ⟨members, rfl, texts⟩
    | cons m mappings ih =>
        intro members texts eq
        rw [List.foldlM_cons] at eq
        cases published : svc.publish profile (.obj members) m with
        | error what =>
            rw [published] at eq
            cases eq
        | ok claims' =>
            rw [published] at eq
            rcases publish_cases published with ⟨_, value, rfl⟩ | ⟨_, rfl⟩
            · obtain ⟨members', set, mem⟩ := Json.mem_set members m.claimName (.str value)
              rw [set] at eq
              refine ih members' (fun m' mem' => ?_) eq
              rcases mem m' mem' with rfl | old
              · exact ⟨value, rfl⟩
              · exact texts m' old
            · exact ih members texts eq
  exact loop mappings [] (fun _ no => nomatch no) done

/-- Mapped claims are texts under the names of mappings. -/
theorem mappedFor_texts {mappings : List ClaimMappingEntry} {profile : Option String}
    {scope : String} {mapped : Json} (done : svc.mappedFor mappings profile scope = .ok mapped) :
    ∃ members, mapped = .obj members ∧ ∀ m ∈ members, ∃ s, m.2 = .str s := by
  have none : Except.ok (Json.obj []) = (.ok mapped : Except String Json) →
      ∃ members, mapped = .obj members ∧ ∀ m ∈ members, ∃ s, m.2 = .str s := by
    intro eq
    cases eq
    exact ⟨[], rfl, fun _ no => nomatch no⟩
  unfold mappedFor at done
  split at done
  · split at done
    · exact mapClaims_texts done
    · exact none done
  · exact none done

theorem mergeClaims_cons (claims : Json) (m : String × Json)
    (members : List (String × Json)) :
    mergeClaims claims (.obj (m :: members)) = mergeClaims (claims.set m.1 m.2) (.obj members) :=
  rfl

/-- A claim that is not mapped stays as it was. -/
theorem member?_merge_of_none {members : List (String × Json)} {k : String}
    (absent : ∀ m ∈ members, m.1 ≠ k) (claims : Json) :
    (mergeClaims claims (.obj members)).member? k = claims.member? k := by
  induction members generalizing claims with
  | nil => rfl
  | cons m members ih =>
      have other : k ≠ m.1 := fun eq => absent m List.mem_cons_self eq.symm
      rw [mergeClaims_cons, ih fun m mem => absent m (List.mem_cons_of_mem _ mem),
        Json.member?_set, if_neg other]

/-- A claim that is mapped is a text. -/
theorem member?_merge_of_some {members : List (String × Json)} {k : String}
    (texts : ∀ m ∈ members, ∃ s, m.2 = .str s) (mapped : ∃ m ∈ members, m.1 = k)
    (claims : Json) : ∃ s, (mergeClaims claims (.obj members)).member? k = some (.str s) := by
  induction members generalizing claims with
  | nil =>
      obtain ⟨m, mem, _⟩ := mapped
      cases mem
  | cons m members ih =>
      have texts' : ∀ m ∈ members, ∃ s, m.2 = .str s :=
        fun m mem => texts m (List.mem_cons_of_mem _ mem)
      rw [mergeClaims_cons]
      by_cases again : ∃ m ∈ members, m.1 = k
      · exact ih texts' again _
      · have absent : ∀ m ∈ members, m.1 ≠ k := fun m mem eq => again ⟨m, mem, eq⟩
        obtain ⟨m', mem, same⟩ := mapped
        rcases List.mem_cons.mp mem with rfl | old
        · obtain ⟨s, text⟩ := texts m' List.mem_cons_self
          rw [member?_merge_of_none absent, Json.member?_set, if_pos same.symm, text]
          exact ⟨s, rfl⟩
        · exact absurd ⟨m', old, same⟩ again

/-! ## What goes into an id token -/

/-- A mapping onto `nbf` that reaches the id token. -/
def MapsNbf (svc : TokenService) (mappings : List ClaimMappingEntry) (profile : Option String)
    (scope : String) : Prop :=
  (svc.claimMappingsProvider = true ∧ svc.userProfileResolver = true) ∧
    ∃ p, profile = some p ∧ ∃ m ∈ mappings, m.claimName = "nbf" ∧
      (m.includeIn = "both" ∨ m.includeIn = "id_token") ∧
      scopeContains scope m.scopeName = true ∧ svc.HasValue p m

theorem isSome_member?_obj {members : List (String × Json)} {k : String} :
    ((Json.obj members).member? k).isSome = true ↔ ∃ m ∈ members, m.1 = k := by
  rw [Json.member?, Json.isSome_lookup, List.any_eq_true]
  simp only [decide_eq_true_eq]

/-- The mappings that reach the id token with the name `k`. -/
theorem member?_mappedFor {mappings : List ClaimMappingEntry} {profile : Option String}
    {scope : String} {mapped : Json} (k : String)
    (done : svc.mappedFor mappings profile scope = .ok mapped) :
    (mapped.member? k).isSome = true ↔
      (svc.claimMappingsProvider = true ∧ svc.userProfileResolver = true) ∧
        ∃ p, profile = some p ∧ ∃ m ∈ mappings, m.claimName = k ∧
          (m.includeIn = "both" ∨ m.includeIn = "id_token") ∧
          scopeContains scope m.scopeName = true ∧ svc.HasValue p m := by
  unfold mappedFor at done
  by_cases ready : (svc.claimMappingsProvider && svc.userProfileResolver) = true
  · rw [if_pos ready] at done
    rw [Bool.and_eq_true] at ready
    cases profile with
    | none =>
        cases done
        simp [Json.member?]
    | some p =>
        simp only [member?_mapClaims k done, activeMappings, List.mem_filter, Bool.and_eq_true,
          Bool.or_eq_true, decide_eq_true_eq, Option.some.injEq, exists_eq_left']
        constructor
        · intro found
          obtain ⟨m, ⟨mem, covers, carried⟩, same, value⟩ := found
          exact ⟨ready, m, mem, same, covers, carried, value⟩
        · intro found
          obtain ⟨_, m, mem, same, covers, carried, value⟩ := found
          exact ⟨m, ⟨mem, covers, carried⟩, same, value⟩
  · rw [if_neg ready] at done
    rw [Bool.and_eq_true] at ready
    cases done
    simp [Json.member?, ready]

variable (svc) in
/-- The claims that the service chooses for a subject, a client and a scope at a time: those
of an exchange and those of a rotation. -/
inductive Chosen : (subject aud scope : String) → (now : Int) → Json → Prop
  | exchange (authCode : OAuth2AuthCode) (orgCtx : Option OrgContextInfo) (now : Int) :
    Chosen authCode.userId authCode.clientId authCode.scope now
      (svc.codeClaims authCode orgCtx now)
  | rotation (storedRt : OAuth2RefreshToken) (orgCtx : Option OrgContextInfo) (subject : String)
      (now : Int) :
    Chosen subject storedRt.clientId storedRt.scope now
      (setOrgCtx storedRt.orgId orgCtx
        (baseClaims svc.issuer subject storedRt.clientId now (now + svc.accessTokenTtl)))

section Chosen

/-- `org_ctx` changes no other claim. -/
theorem member?_setOrgCtx {k : String} (other : k ≠ "org_ctx") (orgId : Option Int)
    (orgCtx : Option OrgContextInfo) (claims : Json) :
    (setOrgCtx orgId orgCtx claims).member? k = claims.member? k := by
  unfold setOrgCtx
  split
  · rw [Json.member?_set, if_neg other]
  · rfl

/-- `amr` and `acr` change no other claim. -/
theorem member?_setAmr {k : String} (amr : k ≠ "amr") (acr : k ≠ "acr") (methods : String)
    (claims : Json) : (setAmr methods claims).member? k = claims.member? k := by
  simp only [setAmr]
  split
  · rfl
  · rw [Json.member?_set, if_neg acr, Json.member?_set, if_neg amr]

/-- Apart from what only some tokens have, the claims are the base ones. -/
theorem Chosen.member? {subject aud scope : String} {now : Int} {claims : Json}
    (chosen : Chosen svc subject aud scope now claims) {k : String}
    (base : k ∉ ["nonce", "auth_time", "amr", "acr", "org_ctx"]) :
    claims.member? k =
      (baseClaims svc.issuer subject aud now (now + svc.accessTokenTtl)).member? k := by
  simp only [List.mem_cons, List.not_mem_nil, or_false, not_or] at base
  obtain ⟨nonce, auth_time, amr, acr, org_ctx⟩ := base
  cases chosen with
  | exchange authCode orgCtx now =>
      simp only [codeClaims]
      rw [member?_setOrgCtx org_ctx, member?_setAmr amr acr]
      split
      · rw [Json.member?_set, if_neg auth_time]
        split
        · rfl
        · rw [Json.member?_set, if_neg nonce]
      · split
        · rfl
        · rw [Json.member?_set, if_neg nonce]
  | rotation storedRt orgCtx subject now => exact member?_setOrgCtx org_ctx ..

end Chosen

/-! ## The programs -/

/-- The mappings and the profiles that a call finds. -/
def Finds (mappings : List ClaimMappingEntry) (profile : String → Option String) :
    (o : StoreOp) → StoreSig.Res o → Prop
  | .env .getEnabledMappings, found => found = mappings
  | .env (.resolveUserProfile subject), found => found = profile subject
  | _, _ => True

variable {mappings : List ClaimMappingEntry} {profile : String → Option String}

/-- The program finds what the mappings say. -/
theorem resolveMappedClaims_yields (subject scope : String) :
    (svc.resolveMappedClaims subject scope "id_token").Yields (Finds mappings profile)
      fun mapped => mapped = svc.mappedFor mappings (profile subject) scope := by
  unfold resolveMappedClaims mappedFor
  cases svc.claimMappingsProvider && svc.userProfileResolver with
  | false => rfl
  | true =>
      intro found eq
      cases eq
      change (Prog.Yields _ _ (if (activeMappings scope mappings).isEmpty = true then _ else _))
      by_cases none : (activeMappings scope mappings).isEmpty = true
      · rw [if_pos none]
        rw [List.isEmpty_iff] at none
        rw [none]
        cases profile subject <;> rfl
      · rw [if_neg none]
        intro found eq
        cases eq
        cases profile subject <;> rfl

/-- The id token of an answer is the signature over chosen and mapped claims. -/
def Signs (svc : TokenService) (mappings : List ClaimMappingEntry)
    (profile : String → Option String) (t : String) : Prop :=
  ∃ jwk subject aud scope now claims mapped, svc.jwkManager = some jwk ∧
    Chosen svc subject aud scope now claims ∧
    svc.mappedFor mappings (profile subject) scope = .ok mapped ∧
    t = jwk.signJwt (mergeClaims claims mapped) ∧ t ≠ ""

/-- The id token is signed over the chosen claims. -/
theorem withIdToken_yields {subject aud scope : String} {now : Int} {claims : Json}
    (chosen : Chosen svc subject aud scope now claims) {json : TokenJson}
    (bare : json.idToken = none) :
    (svc.withIdToken subject scope claims json).Yields (Finds mappings profile)
      fun answer => ∀ json, answer = .ok json → ∀ t, json.idToken = some t →
        Signs svc mappings profile t := by
  have nothing : ∀ t, json.idToken = some t → Signs svc mappings profile t := by
    intro t found
    rw [bare] at found
    cases found
  have same : ∀ json', (Except.ok json : Except String TokenJson) = .ok json' →
      ∀ t, json'.idToken = some t → Signs svc mappings profile t := by
    intro json' eq
    cases eq
    exact nothing
  unfold withIdToken
  split
  · exact same
  · next jwk wired =>
      split
      · refine (resolveMappedClaims_yields subject scope).bind fun answer eq => ?_
        cases mapped : answer with
        | error what => exact fun json' no => nomatch no
        | ok mapped' =>
            rw [mapped] at eq
            intro json' written t found
            cases written
            dsimp only at found
            split at found
            · exact nothing t found
            · next made =>
                cases found
                exact ⟨jwk, subject, aud, scope, now, claims, mapped', wired, chosen, eq.symm, rfl,
                  made⟩
      · exact same

/-- Whatever is answered, an id token in it is signed like that. -/
def AnswersSigned (svc : TokenService) (mappings : List ClaimMappingEntry)
    (profile : String → Option String) (response : TokenResponse) : Prop :=
  ∀ json t, response = .tokens json → json.idToken = some t → Signs svc mappings profile t

/-- An answer is signed if its id token is. -/
theorem answersSigned_ofAnswer {answer : Except String TokenJson}
    (signs : ∀ json, answer = .ok json → ∀ t, json.idToken = some t →
      Signs svc mappings profile t) :
    AnswersSigned svc mappings profile (.ofAnswer answer) := by
  intro json t eq found
  cases answer with
  | error what => cases eq
  | ok json' =>
      cases eq
      exact signs _ rfl t found

theorem answersSigned_makeError {error desc : String} :
    AnswersSigned svc mappings profile (makeError error desc) := by
  intro json t eq
  cases eq

theorem answersSigned_thrown {what : String} :
    AnswersSigned svc mappings profile (.thrown what) := by
  intro json t eq
  cases eq

/-- What an exchange answers is signed. -/
theorem issueForCode_yields (tokens : TokenRepository) (crypto : CryptoProvider)
    (authCode : OAuth2AuthCode) (now : Int) :
    (svc.issueForCode tokens crypto authCode now).Yields (Finds mappings profile)
      (AnswersSigned svc mappings profile) := by
  unfold issueForCode
  refine Prog.yields_bind fun orgCtx => Prog.yields_bind fun roles => ?_
  split
  · exact answersSigned_thrown
  · refine Prog.yields_bind fun _ => Prog.yields_bind fun _ => Prog.yields_bind fun _ => ?_
    split
    · exact Prog.yields_bind fun _ => answersSigned_makeError
    · refine Prog.yields_bind fun ok => ?_
      split
      · exact Prog.yields_bind fun _ => answersSigned_makeError
      · refine (withIdToken_yields (.exchange authCode orgCtx now) rfl).bind
          fun answer signs => ?_
        exact Prog.yields_bind fun _ => answersSigned_ofAnswer signs

/-- A refusal of a code carries no id token. -/
theorem answersSigned_checkCode {crypto : CryptoProvider} {clientId codeVerifier : String}
    {authCode : OAuth2AuthCode} {refusal : TokenResponse}
    (checked : checkCode crypto clientId codeVerifier authCode = some refusal) :
    AnswersSigned svc mappings profile refusal := by
  unfold checkCode at checked
  split at checked
  · cases checked
    exact answersSigned_makeError
  · split at checked
    · cases checked
    · split at checked
      · cases checked
        exact answersSigned_makeError
      · split at checked
        · cases checked
          exact answersSigned_thrown
        · cases checked
          exact answersSigned_makeError
        · cases checked

/-- **The answer of an exchange is signed**. -/
theorem exchangeCodeForToken_yields (code clientId clientSecret redirectUri codeVerifier : String) :
    (svc.exchangeCodeForToken code clientId clientSecret redirectUri codeVerifier).Yields
      (Finds mappings profile) (AnswersSigned svc mappings profile) := by
  unfold exchangeCodeForToken
  split
  · refine Prog.yields_bind fun isValid => ?_
    split
    · exact answersSigned_makeError
    · refine Prog.yields_bind fun found => ?_
      split
      · exact answersSigned_makeError
      · split
        · next refusal checked => exact answersSigned_checkCode checked
        · refine Prog.yields_bind fun now => ?_
          split
          · exact answersSigned_makeError
          · exact issueForCode_yields ..
  · exact answersSigned_makeError

/-- What a rotation answers is signed. -/
theorem rotate_yields (tokens : TokenRepository) (crypto : CryptoProvider)
    (storedRt : OAuth2RefreshToken) (now : Int) (subject : String) :
    (svc.rotate tokens crypto storedRt now subject).Yields (Finds mappings profile)
      (AnswersSigned svc mappings profile) := by
  unfold rotate
  refine Prog.yields_bind fun orgCtx => Prog.yields_bind fun _ => Prog.yields_bind fun _ => ?_
  split
  · exact answersSigned_makeError
  · refine Prog.yields_bind fun ok => ?_
    split
    · exact answersSigned_makeError
    · refine Prog.yields_bind fun _ => ?_
      refine (withIdToken_yields (.rotation storedRt orgCtx subject now) rfl).bind
        fun answer signs => ?_
      exact answersSigned_ofAnswer signs

/-- A refusal of a refresh token carries no id token. -/
theorem refuseRefresh_yields (tokens : TokenRepository) (hashedRt : String) :
    (svc.refuseRefresh tokens hashedRt).Yields (Finds mappings profile)
      (AnswersSigned svc mappings profile) := by
  unfold refuseRefresh
  refine Prog.yields_bind fun found => ?_
  split
  · exact answersSigned_makeError
  · split
    · exact Prog.yields_bind fun _ => Prog.yields_bind fun _ => answersSigned_makeError
    · exact answersSigned_makeError

/-- **The answer of a refresh is signed**. -/
theorem refreshAccessToken_yields (refreshTokenStr clientId : String) :
    (svc.refreshAccessToken refreshTokenStr clientId).Yields (Finds mappings profile)
      (AnswersSigned svc mappings profile) := by
  unfold refreshAccessToken
  split
  · refine Prog.yields_bind fun found => ?_
    split
    · exact refuseRefresh_yields ..
    · split
      · exact answersSigned_makeError
      · refine Prog.yields_bind fun now => ?_
        split
        · exact answersSigned_makeError
        · refine Prog.yields_bind fun subject => ?_
          split
          · exact answersSigned_makeError
          · exact rotate_yields ..
  · exact answersSigned_makeError

/-! ## The token as a whole -/

/-- The claims that are the service's to set. -/
def protocolClaims : List String :=
  ["iss", "sub", "aud", "exp", "iat", "nbf", "nonce", "auth_time", "amr", "acr", "org_ctx"]

variable {Pkey : Type} (json : Jwk.JsonCpp) (rs256 : Jwk.Rs256 Pkey) (e : Jwk.KeyEntry Pkey)

/-- The payload has the claims that were chosen, and its token passes wherever the signing key
is held, from its issue until its `exp`. -/
structure Unbroken (issuer jwt aud : String) (now : Int) (claims payload : Json) : Prop where
  kept : ∀ k ∈ protocolClaims, payload.member? k = claims.member? k
  verifies : ∀ (verifier : Jwk.JwkManager Pkey) (clock : Int64) (audience : String) (exp : Int),
    verifier.initialized = true → e ∈ verifier.keys →
    (verifier.keys.map Jwk.KeyEntry.kid).Nodup → audience = "" ∨ audience = aud →
    claims.member? "exp" = some (.int exp) → now ≤ clock.toInt →
    clock.toInt < (Int64.ofInt exp).toInt →
    verifier.verifyJwt json rs256 jwt issuer clock audience = .ok .ok

variable {json rs256 e} {m : Jwk.JwkManager Pkey} {double : String → Rat}

/-- Apart from `nbf`, the claims that are the service's to set are reserved. -/
theorem reserved_of_protocol {k : String} (protocol : k ∈ protocolClaims) (other : k ≠ "nbf") :
    k ∈ ClaimMappingValidator.reservedClaimNames := by
  have each : ∀ k ∈ protocolClaims, k = "nbf" ∨ k ∈ ClaimMappingValidator.reservedClaimNames := by
    decide
  exact (each k protocol).resolve_left other

section Merged

variable {found : Option String} {scope : String} {mapped : Json}
  (done : svc.mappedFor mappings found scope = .ok mapped)
include done

/-- A claim that is not mapped stays. -/
theorem kept_of_unmapped {k : String} (unmapped : ¬ (mapped.member? k).isSome = true)
    (claims : Json) : (mergeClaims claims mapped).member? k = claims.member? k := by
  obtain ⟨members, rfl, _⟩ := mappedFor_texts done
  exact member?_merge_of_none (fun m mem same =>
    unmapped (isSome_member?_obj.mpr ⟨m, mem, same⟩)) claims

/-- A mapped claim is a text. -/
theorem text_of_mapped {k : String} (there : (mapped.member? k).isSome = true) (claims : Json) :
    ∃ s, (mergeClaims claims mapped).member? k = some (.str s) := by
  obtain ⟨members, rfl, texts⟩ := mappedFor_texts done
  exact member?_merge_of_some texts (isSome_member?_obj.mp there) claims

/-- Accepted mappings leave every claim alone that is reserved. -/
theorem unmapped_of_reserved (accepted : ∀ x ∈ mappings, ClaimMappingValidator.Accepted x)
    {k : String} (reserved : k ∈ ClaimMappingValidator.reservedClaimNames) :
    ¬ (mapped.member? k).isSome = true := by
  intro there
  obtain ⟨_, _, _, x, mem, same, _⟩ := (member?_mappedFor k done).mp there
  subst same
  exact ClaimMappingValidator.not_reserved (accepted x mem) reserved

end Merged

section Token

variable {subject aud scope : String} {now : Int} {claims : Json}

/-- Without an `nbf` in it, a token of chosen claims passes until its `exp`. -/
theorem claimsPass_of_kept (chosen : Chosen svc subject aud scope now claims)
    (named : subject ≠ "") {payload : Json}
    (kept : ∀ k ∈ protocolClaims, payload.member? k = claims.member? k) {clock : Int64}
    {audience : String} {exp : Int} (addressed : audience = "" ∨ audience = aud)
    (expiry : claims.member? "exp" = some (.int exp))
    (before : clock.toInt < (Int64.ofInt exp).toInt) :
    Jwk.ClaimsPass json (payload.toValue double) svc.issuer clock audience := by
  have value : ∀ k ∈ protocolClaims, k ∉ ["nonce", "auth_time", "amr", "acr", "org_ctx"] →
      (payload.toValue double).member? k =
        ((baseClaims svc.issuer subject aud now (now + svc.accessTokenTtl)).member? k).map
          (Json.toValue double) := by
    intro k protocol base
    rw [Json.member?_toValue, kept k protocol, chosen.member? base]
  have iss := value "iss" (by decide) (by decide)
  have sub := value "sub" (by decide) (by decide)
  have audClaim := value "aud" (by decide) (by decide)
  have nbf := value "nbf" (by decide) (by decide)
  refine ⟨?_, ?_, ?_, ?_, ?_⟩
  · exact Jwk.JsonValue.text?_of_member? iss
  · refine ⟨.int (Int64.ofInt exp), (Int64.ofInt exp).toInt, ?_, rfl, rfl, before⟩
    rw [Json.member?_toValue, kept "exp" (by decide), expiry]
    rfl
  · intro n found
    rw [nbf] at found
    cases found
  · exact ⟨subject, Jwk.JsonValue.text?_of_member? sub, named⟩
  · rcases addressed with anyone | same
    · exact .inl anyone
    · right
      subst same
      have found : (payload.toValue double).member? "aud" = some (.str audience) := audClaim
      simp [Jwk.JwkManager.audienceOk, found]

/-- A text for `nbf` is refused. -/
theorem not_claimsPass_of_text {payload : Json} {s : String}
    (text : payload.member? "nbf" = some (.str s)) {issuer audience : String} {clock : Int64} :
    ¬ Jwk.ClaimsPass json (payload.toValue double) issuer clock audience := by
  intro passes
  have found : (payload.toValue double).member? "nbf" = some (.str s) := by
    rw [Json.member?_toValue, text]
    rfl
  have numeric := (passes.nbf _ found).1
  cases numeric

end Token

variable (svc json rs256 m double mappings profile) in
/-- `t` is signed over `payload`: the claims chosen for `subject`, and the mapped ones. -/
structure SignedOver (t subject aud scope : String) (now : Int) (claims payload : Json) : Prop where
  chosen : Chosen svc subject aud scope now claims
  merged : (svc.mappedFor mappings (profile subject) scope).map (mergeClaims claims) = .ok payload
  signed : t = m.signJwt json rs256 (payload.toValue double)

variable (svc json rs256 e m double mappings profile) in
/-- An id token in an answer is signed over chosen and mapped claims, and whatever these are:
it is unbroken exactly if no mapping onto `nbf` reaches it, and otherwise it passes nowhere. -/
def Settled (response : TokenResponse) : Prop :=
  ∀ answer t, response = .tokens answer → answer.idToken = some t →
    (∃ subject aud scope now claims payload,
      SignedOver svc mappings profile json rs256 m double t subject aud scope now claims
        payload) ∧
    ∀ subject aud scope now claims payload,
      SignedOver svc mappings profile json rs256 m double t subject aud scope now claims payload →
      subject ≠ "" → json.ReadsBack (payload.toValue double) →
        (Unbroken json rs256 e svc.issuer t aud now claims payload ↔
          ¬ MapsNbf svc mappings (profile subject) scope) ∧
        (MapsNbf svc mappings (profile subject) scope →
          ∀ (verifier : Jwk.JwkManager Pkey) (clock : Int64) (issuer audience : String),
            verifier.initialized = true → e ∈ verifier.keys →
            (verifier.keys.map Jwk.KeyEntry.kid).Nodup →
            verifier.verifyJwt json rs256 t issuer clock audience ≠ .ok .ok)

/-- A signed answer is settled. -/
theorem settled_of_signs (wired : svc.jwkManager = some (m.wired json rs256 double))
    (correct : rs256.Correct) (active : m.activeEntry = some e)
    (header_back : json.ReadsBack (Jwk.JwkManager.jwtHeader e.kid))
    (accepted : ∀ x ∈ mappings, ClaimMappingValidator.Accepted x) {response : TokenResponse}
    (signed : AnswersSigned svc mappings profile response) :
    Settled svc mappings profile json rs256 e m double response := by
  intro answer t eq found
  obtain ⟨jwk, subject, aud, scope, now, claims, mapped, jwkEq, chosen, done, made, nonempty⟩ :=
    signed answer t eq found
  rw [wired] at jwkEq
  cases jwkEq
  have laid : SignedOver svc mappings profile json rs256 m double t subject aud scope now claims
      (mergeClaims claims mapped) := ⟨chosen, by rw [done]; rfl, made⟩
  refine ⟨⟨subject, aud, scope, now, claims, _, laid⟩, ?_⟩
  clear made chosen done laid
  intro subject aud scope now claims payload chooses named payload_back
  obtain ⟨chosen, merged, text⟩ := chooses
  rw [text] at nonempty
  subst text
  obtain ⟨mapped, done, rfl⟩ : ∃ mapped,
      svc.mappedFor mappings (profile subject) scope = .ok mapped ∧
        mergeClaims claims mapped = payload := by
    cases done : svc.mappedFor mappings (profile subject) scope with
    | error what =>
        rw [done] at merged
        cases merged
    | ok mapped =>
        rw [done] at merged
        exact ⟨mapped, rfl, Except.ok.inj merged⟩
  have reaches : MapsNbf svc mappings (profile subject) scope ↔
      (mapped.member? "nbf").isSome = true := (member?_mappedFor "nbf" done).symm
  refine ⟨⟨fun unbroken maps => ?_, fun unmapped => ?_⟩, fun maps => ?_⟩
  · -- a mapped `nbf` is not the one that was chosen, which is none
    obtain ⟨s, mapped⟩ := text_of_mapped done (reaches.mp maps) claims
    have kept := unbroken.kept "nbf" (by decide)
    rw [mapped, chosen.member? (by decide)] at kept
    cases kept
  · have kept : ∀ k ∈ protocolClaims, (mergeClaims claims mapped).member? k = claims.member? k := by
      intro k protocol
      by_cases nbf : k = "nbf"
      · subst nbf
        exact kept_of_unmapped done (fun there => unmapped (reaches.mpr there)) claims
      · exact kept_of_unmapped done (unmapped_of_reserved done accepted
          (reserved_of_protocol protocol nbf)) claims
    refine ⟨kept, ?_⟩
    intro verifier clock audience exp ready held distinct addressed expiry _ before
    exact (Jwk.signed_accepted_iff_passes correct active nonempty ready held distinct header_back
      payload_back).mpr (claimsPass_of_kept chosen named kept addressed expiry before)
  · intro verifier clock issuer audience ready held distinct passed
    obtain ⟨s, mapped⟩ := text_of_mapped done (reaches.mp maps) claims
    exact not_claimsPass_of_text mapped ((Jwk.signed_accepted_iff_passes correct active nonempty
      ready held distinct header_back payload_back).mp passed)

/-- For accepted mappings and whatever the operations of an exchange or a rotation answer: the
id token that is built is unbroken exactly if no mapping onto `nbf` reaches it. -/
theorem id_token_unbroken_iff {Pkey : Type} (json : Jwk.JsonCpp) (rs256 : Jwk.Rs256 Pkey)
    (double : String → Rat) (m : Jwk.JwkManager Pkey) (e : Jwk.KeyEntry Pkey) (svc : TokenService)
    (mappings : List ClaimMappingEntry) (profile : String → Option String)
    (wired : svc.jwkManager = some (m.wired json rs256 double)) (correct : rs256.Correct)
    (active : m.activeEntry = some e)
    (header_back : json.ReadsBack (Jwk.JwkManager.jwtHeader e.kid))
    (accepted : ∀ x ∈ mappings, ClaimMappingValidator.Accepted x) :
    (∀ code clientId clientSecret redirectUri codeVerifier,
      (svc.exchangeCodeForToken code clientId clientSecret redirectUri codeVerifier).Yields
        (Finds mappings profile) (Settled svc mappings profile json rs256 e m double)) ∧
    ∀ refreshTokenStr clientId,
      (svc.refreshAccessToken refreshTokenStr clientId).Yields (Finds mappings profile)
        (Settled svc mappings profile json rs256 e m double) := by
  refine ⟨?_, ?_⟩
  · intro code clientId clientSecret redirectUri codeVerifier
    exact (exchangeCodeForToken_yields ..).mono fun response signed =>
      settled_of_signs wired correct active header_back accepted signed
  · intro refreshTokenStr clientId
    exact (refreshAccessToken_yields ..).mono fun response signed =>
      settled_of_signs wired correct active header_back accepted signed

end TokenService

/-! ## A sample -/

namespace MappingSample

/-- A mapping of the display name onto a claim. -/
def mapping (claimName : String) : ClaimMappingEntry where
  scopeName := "profile"
  claimName := claimName
  sourcePath := "user.display_name"
  includeIn := "both"

/-- The claims of a token of Ann, with her display name under `claimName`. -/
def payload (claimName : String) : Jwk.JsonValue :=
  .obj [("aud", .str "app"), ("exp", .int 4600), ("iat", .int 1000),
    ("iss", .str "https://id.example"), (claimName, .str "Ann"), ("sub", .str "u1")]

/-- The payload with the display name under the claim. -/
def payloadText (claimName : String) : List UInt8 :=
  Jwk.Sample.ascii (r#"{"aud":"app","exp":4600,"iat":1000,"# ++
    r#""iss":"https://id.example",""# ++ claimName ++ r#"":"Ann","sub":"u1"}"#)

/-- jsoncpp on the header and on the claims. -/
def json (claimName : String) : Jwk.JsonCpp where
  parse bytes :=
    if bytes = Jwk.Sample.headerText then .ok (some (Jwk.JwkManager.jwtHeader "k1"))
    else if bytes = payloadText claimName then .ok (some (payload claimName))
    else .ok none
  write v := if (v.text? "alg").isSome then Jwk.Sample.headerText else payloadText claimName
  edge := Int64.minValue

/-- jsoncpp on the profile. -/
def profileJson : Jwk.JsonCpp where
  parse _ := .ok (some (.obj [("display_name", .str "Ann")]))
  write _ := []
  edge := Int64.minValue

/-- A provider whose tokens are all alike. -/
def crypto : CryptoProvider where
  sha256 := fun _ => []
  sha256Hex := id
  base64UrlEncode := fun _ => "tok"

/-- A service with one mapping. -/
def service (claimName : String) : TokenService where
  grants := some memoryGrantRepository
  tokens := some memoryTokenRepository
  crypto := some crypto
  claimMappingsProvider := true
  userProfileResolver := true
  jwkManager := some (Jwk.Sample.manager.wired (json claimName) Jwk.Sample.rs256 fun _ => 0)
  jsonCpp := profileJson
  authCodeTtl := 60
  accessTokenTtl := 3600
  refreshTokenTtl := 86400
  issuer := "https://id.example"

/-- A profile with a display name. -/
def profile : String → Option String :=
  fun _ => some r#"{"display_name":"Ann"}"#

/-- Second 1000. -/
def moment (claimName : String) : Moment where
  now := 1000000
  random := fun _ => some [1]
  getEnabledMappings := [mapping claimName]
  resolveUserProfile := profile

/-- A code of Ann for the client `app`. -/
def db : Db where
  authCodes := Table.empty.assign
    { code := "CODE", clientId := "app", userId := "u1", scope := "openid profile"
      redirectUri := "https://app/cb", codeChallenge := "", codeChallengeMethod := ""
      nonce := "", expiresAt := 1060 }

/-- What the exchange answers at the sample moment. -/
def response (claimName : String) : TokenResponse :=
  (((service claimName).exchangeCodeForToken "code" "app" "" "https://app/cb" "").run
    (execOp (moment claimName)) db).1

theorem header_back (claimName : String) :
    (json claimName).ReadsBack (Jwk.JwkManager.jwtHeader "k1") := by
  constructor
  · change Jwk.Sample.headerText ≠ []
    decide
  · change (json claimName).parse Jwk.Sample.headerText = _
    simp only [json, if_true]

/-- The payload of the sample is read back. -/
theorem payload_back {claimName : String} (other : (payload claimName).text? "alg" = none)
    (differs : payloadText claimName ≠ Jwk.Sample.headerText) :
    (json claimName).ReadsBack (payload claimName) := by
  have written : (json claimName).write (payload claimName) = payloadText claimName := by
    simp only [json, other, Option.isSome_none, Bool.false_eq_true, if_false]
  rw [Jwk.JsonCpp.ReadsBack, written]
  constructor
  · simp [payloadText, Jwk.Sample.ascii]
  · simp only [json, if_neg differs, if_true]

/-- The id token of an answer. -/
def idTokenOf : TokenResponse → Option String
  | .tokens answer => answer.idToken
  | _ => none

theorem answered_of_idToken {r : TokenResponse} (given : (idTokenOf r).isSome = true) :
    ∃ answer token, r = .tokens answer ∧ answer.idToken = some token := by
  obtain ⟨token, idToken⟩ := Option.isSome_iff_exists.mp given
  cases r with
  | tokens answer => exact ⟨answer, token, rfl, idToken⟩
  | _ => cases idToken

/-- The sample token is signed. -/
theorem signed (claimName : String) :
    Jwk.Sample.manager.signJwt (json claimName) Jwk.Sample.rs256 (payload claimName) ≠ "" := by
  intro empty
  have length := congrArg (fun s : String => s.toList.length) empty
  simp [Jwk.JwkManager.signJwt, Jwk.JwkManager.activeEntry, Jwk.JwkManager.findEntry,
    Jwk.Sample.manager, Jwk.Sample.rs256, String.toList_append] at length

end MappingSample

/-- A mapping of the display name onto `nbf` is accepted, and the id token of the next exchange is
refused in the second of its issue. -/
theorem mapped_nbf_breaks_id_token :
    let json := MappingSample.json "nbf"
    let token := Jwk.Sample.manager.signJwt json Jwk.Sample.rs256 (MappingSample.payload "nbf")
    ClaimMappingValidator.Accepted (MappingSample.mapping "nbf") ∧
      (∃ answer, MappingSample.response "nbf" = .tokens answer ∧ answer.idToken = some token) ∧
      Jwk.Sample.manager.verifyJwt json Jwk.Sample.rs256 token "https://id.example" 1000 "app" ≠
        .ok .ok := by
  intro json token
  refine ⟨by decide, ⟨_, rfl, rfl⟩, fun passed => ?_⟩
  have passes := (Jwk.signed_accepted_iff_passes Jwk.Sample.rs256_correct rfl
    (MappingSample.signed "nbf") rfl List.mem_cons_self (by decide)
    (MappingSample.header_back "nbf") (MappingSample.payload_back rfl (by decide))).mp passed
  have numeric := (passes.nbf (.str "Ann") rfl).1
  cases numeric

namespace TokenService

/-- Her display name under `team`: the id token of the exchange is there, and settled. -/
theorem id_token_unbroken_team :
    (∃ answer t, MappingSample.response "team" = .tokens answer ∧ answer.idToken = some t) ∧
      Settled (MappingSample.service "team") [MappingSample.mapping "team"] MappingSample.profile
        (MappingSample.json "team") Jwk.Sample.rs256 ⟨"k1", ()⟩ Jwk.Sample.manager (fun _ => 0)
        (MappingSample.response "team") := by
  have said := id_token_unbroken_iff (MappingSample.json "team") Jwk.Sample.rs256 (fun _ => 0)
    Jwk.Sample.manager ⟨"k1", ()⟩ (MappingSample.service "team") [MappingSample.mapping "team"]
    MappingSample.profile rfl Jwk.Sample.rs256_correct rfl (MappingSample.header_back "team") (by
      intro x mem
      rw [List.mem_singleton] at mem
      subst mem
      decide)
  refine ⟨MappingSample.answered_of_idToken (by decide), ?_⟩
  refine (said.1 "code" "app" "" "https://app/cb" "").run (fun o db => ?_) MappingSample.db
  cases o with
  | env o =>
      cases o <;> first | rfl | trivial
  | mem o => trivial
  | sql o => trivial
  | redis o => trivial

end TokenService

end Fulla
