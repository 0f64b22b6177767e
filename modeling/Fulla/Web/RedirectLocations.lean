import Fulla.Model.QueryStrings
import Fulla.Web.Registration

/-!
# Redirect locations

The `Location` that login, consent and authorize send the browser back to the client with:
`SessionController.cc` and `AuthorizationEndpointController.cc`.

Each builder writes its parameters behind a `?` of its own, and `REDIRECT_URI_PATTERN` lets any
character that is not blank into the path.  The parameters arrive when the `redirect_uri` has no
query and no fragment; behind a query they become part of its last value.
-/

namespace Fulla

/-- What a browser is sent back with: a code, an error of `sendOAuthErrorRedirect` or of
`buildAuthorizeErrorRedirect`, or a consent that is denied. -/
inductive Redirect where
  | code (code : String)
  | sessionError (error description : String)
  | authorizeError (error description : String)
  | denied
deriving DecidableEq, Repr

section

variable (urlEncode : String → String) (redirectUri : String)

/-- `if (!state.empty()) location += "&state=" + urlEncode(state)`. -/
def withState (location state : String) : String :=
  if state ≠ "" then location ++ "&state=" ++ urlEncode state else location

/-- The description, if there is one. -/
def withDescription (location description : String) : String :=
  if description ≠ "" then location ++ "&error_description=" ++ urlEncode description
  else location

/-- `login`, `mintCode` of the consent and the silent issue of `authorize`. -/
def codeLocation (code state : String) : String :=
  withState urlEncode (redirectUri ++ "?code=" ++ urlEncode code) state

/-- The error is written as it is. -/
def sendOAuthErrorRedirect (error description state : String) : String :=
  withState urlEncode
    (withDescription urlEncode (redirectUri ++ "?error=" ++ error) description) state

/-- `buildAuthorizeErrorRedirect`. -/
def buildAuthorizeErrorRedirect (error description state : String) : String :=
  withState urlEncode
    (withDescription urlEncode (redirectUri ++ "?error=" ++ urlEncode error) description) state

/-- The `deny` branch of the consent. -/
def denyLocation (state : String) : String :=
  withState urlEncode
    (redirectUri ++ "?error=access_denied&error_description=User+denied+consent") state

/-- The text of the header. -/
def Redirect.location (state : String) : Redirect → String
  | .code c => codeLocation urlEncode redirectUri c state
  | .sessionError error description =>
    sendOAuthErrorRedirect urlEncode redirectUri error description state
  | .authorizeError error description =>
    buildAuthorizeErrorRedirect urlEncode redirectUri error description state
  | .denied => denyLocation urlEncode redirectUri state

end

/-! ## What the client is to receive -/

/-- A parameter that is left out when it is empty. -/
def optional (name value : String) : List (String × String) :=
  if value ≠ "" then [(name, value)] else []

/-- The parameters that are meant. -/
def Redirect.sent (state : String) : Redirect → List (String × String)
  | .code c => ("code", c) :: optional "state" state
  | .sessionError error description | .authorizeError error description =>
    ("error", error) :: optional "error_description" description ++ optional "state" state
  | .denied => [("error", "access_denied"), ("error_description", "User denied consent")] ++
    optional "state" state

/-- The location is a URL at the address of the `redirect_uri`, and its decoded query has the
fields of the `redirect_uri` and then those that are sent. -/
structure Delivers (redirectUri location : String) (sent : List (String × String)) : Prop where
  address : ∃ address, Address.parse redirectUri.toList = some address ∧
    Address.parse location.toList = some address
  query : params location.toList = params redirectUri.toList ++
    sent.map fun p => (utf8 p.1.toList, utf8 p.2.toList)

/-! ## The texts that are written -/

/-- The parameters of a redirect. -/
inductive Param where
  | code | error | errorDescription | state

/-- The name of a parameter. -/
def Param.name : Param → String
  | code => "code"
  | error => "error"
  | errorDescription => "error_description"
  | state => "state"

theorem Param.named (param : Param) :
    param.name.toList ≠ [] ∧ param.name.toList.all isNameChar = true := by
  cases param <;> decide

/-- A parameter with its value and its text. -/
def Param.field (param : Param) (value text : String) : Field where
  name := param.name.toList
  value := value.toList
  text := text.toList
  named := param.named

section

variable (urlEncode : String → String)

/-- A parameter whose value is encoded. -/
def Param.encoded (param : Param) (value : String) : Field :=
  param.field value (urlEncode value)

/-- A parameter that is left out when it is empty. -/
def Param.optional (param : Param) (value : String) : List Field :=
  if value ≠ "" then [param.encoded urlEncode value] else []

/-- The parameter behind the `?`. -/
def Redirect.first : Redirect → Field
  | .code c => Param.code.encoded urlEncode c
  | .sessionError error _ => Param.error.field error error
  | .authorizeError error _ => Param.error.encoded urlEncode error
  | .denied => Param.error.field "access_denied" "access_denied"

/-- The parameters behind it. -/
def Redirect.rest (state : String) : Redirect → List Field
  | .code _ => Param.state.optional urlEncode state
  | .sessionError _ description | .authorizeError _ description =>
    Param.errorDescription.optional urlEncode description ++ Param.state.optional urlEncode state
  | .denied => Param.errorDescription.field "User denied consent" "User+denied+consent" ::
    Param.state.optional urlEncode state

/-- Everything that is written decodes to what it stands for and ends no field. -/
def Redirect.Intact (state : String) (redirect : Redirect) : Prop :=
  ∀ f ∈ redirect.first urlEncode :: redirect.rest urlEncode state, f.Intact

variable {urlEncode} {site : Site} {redirectUri location state value : String} {redirect : Redirect}
  {param : Param} {fs : List Field} {f : Field}

/-- Fields as they follow another one. -/
def behind (fs : List Field) : List Char :=
  fs.flatMap fun g => '&' :: g.written

theorem behind_append (fs gs : List Field) : behind (fs ++ gs) = behind fs ++ behind gs :=
  List.flatMap_append

theorem joinFields_eq (f : Field) (fs : List Field) : joinFields f fs = f.written ++ behind fs := by
  induction fs generalizing f with
  | nil => exact (List.append_nil _).symm
  | cons g fs ih => rw [joinFields, ih]; rfl

theorem toList_withState : (withState urlEncode location state).toList =
    location.toList ++ behind (Param.state.optional urlEncode state) := by
  unfold withState Param.optional
  split
  · simp [behind, Field.written, Param.encoded, Param.field, Param.name]
  · exact (List.append_nil _).symm

theorem toList_withDescription : (withDescription urlEncode location value).toList =
    location.toList ++ behind (Param.errorDescription.optional urlEncode value) := by
  unfold withDescription Param.optional
  split
  · simp [behind, Field.written, Param.encoded, Param.field, Param.name]
  · exact (List.append_nil _).symm

/-- The parameters stand behind a `?` at the end of the `redirect_uri`. -/
theorem toList_location : (redirect.location urlEncode redirectUri state).toList =
    redirectUri.toList ++ '?' ::
      joinFields (redirect.first urlEncode) (redirect.rest urlEncode state) := by
  rw [joinFields_eq]
  cases redirect with
  | code c =>
      rw [Redirect.location, codeLocation, toList_withState]
      simp [Redirect.first, Redirect.rest, Field.written, Param.encoded, Param.field, Param.name]
  | sessionError error description =>
      rw [Redirect.location, sendOAuthErrorRedirect, toList_withState, toList_withDescription,
        Redirect.rest, behind_append]
      simp [Redirect.first, Field.written, Param.field, Param.name]
  | authorizeError error description =>
      rw [Redirect.location, buildAuthorizeErrorRedirect, toList_withState, toList_withDescription,
        Redirect.rest, behind_append]
      simp [Redirect.first, Field.written, Param.encoded, Param.field, Param.name]
  | denied =>
      rw [Redirect.location, denyLocation, toList_withState]
      simp [Redirect.first, Redirect.rest, behind, Field.written, Param.field, Param.name]

/-! ## What arrives -/

theorem map_delivered_optional (param : Param) (value : String) :
    (param.optional urlEncode value).map Field.delivered =
      (optional param.name value).map fun p => (utf8 p.1.toList, utf8 p.2.toList) := by
  unfold Param.optional optional
  split <;> rfl

/-- What is delivered is what was sent. -/
theorem map_delivered : (redirect.first urlEncode :: redirect.rest urlEncode state).map
      Field.delivered =
    (redirect.sent state).map fun p => (utf8 p.1.toList, utf8 p.2.toList) := by
  cases redirect with
  | code c =>
      rw [Redirect.sent, Redirect.rest, List.map_cons, List.map_cons, map_delivered_optional]
      rfl
  | sessionError error description | authorizeError error description =>
      rw [Redirect.sent, Redirect.rest, List.map_cons, List.map_append, map_delivered_optional,
        map_delivered_optional, List.cons_append, List.map_cons, List.map_append]
      rfl
  | denied =>
      rw [Redirect.sent, Redirect.rest, List.map_cons, List.map_cons, map_delivered_optional]
      rfl

theorem honest_optional (invertible : ∀ s, formDecode (urlEncode s).toList = utf8 s.toList)
    (mem : f ∈ param.optional urlEncode value) : f.Honest := by
  unfold Param.optional at mem
  split at mem
  · rw [List.mem_singleton.mp mem]
    exact .inl (invertible value)
  · cases mem

/-- An encoder that can be inverted is honest. -/
theorem honest_redirect (invertible : ∀ s, formDecode (urlEncode s).toList = utf8 s.toList) :
    ∀ f ∈ redirect.first urlEncode :: redirect.rest urlEncode state, f.Honest := by
  intro f mem
  rcases List.mem_cons.mp mem with rfl | mem
  · cases redirect with
    | code c => exact .inl (invertible c)
    | sessionError error _ => exact .inr rfl
    | authorizeError error _ => exact .inl (invertible error)
    | denied => exact .inr rfl
  · cases redirect with
    | code c => exact honest_optional invertible mem
    | sessionError _ _ | authorizeError _ _ =>
        rcases List.mem_append.mp mem with mem | mem
        · exact honest_optional invertible mem
        · exact honest_optional invertible mem
    | denied =>
        rcases List.mem_cons.mp mem with rfl | mem
        · exact .inl (by decide)
        · exact honest_optional invertible mem

/-- What passes the validation has a scheme and an authority. -/
theorem exists_address (accepted : RuleSet.validateRedirectUri site redirectUri = none) :
    ∃ address, Address.parse redirectUri.toList = some address := by
  have scheme : RuleEngine.validateRedirectUriScheme site redirectUri = none := by
    unfold RuleSet.validateRedirectUri RuleEngine.validateRedirectUri at accepted
    split at accepted
    · cases accepted
    split at accepted
    · cases accepted
    exact (Option.or_eq_none_iff.mp accepted).1
  unfold RuleEngine.validateRedirectUriScheme at scheme
  split at scheme
  next https =>
    obtain ⟨rest, eq⟩ := exists_of_afterText https
    rw [eq]
    exact ⟨_, @Address.parse_eq "https".toList (by decide) (by decide) (by decide) rest⟩
  split at scheme
  next http =>
    rw [Bool.and_eq_true] at http
    obtain ⟨rest, eq⟩ := exists_of_afterText http.1
    rw [eq]
    exact ⟨_, @Address.parse_eq "http".toList (by decide) (by decide) (by decide) rest⟩
  · cases scheme

/-- The parameters are delivered behind the client's own exactly when the `redirect_uri` has no
query and no fragment and what is written for each of them is intact. -/
theorem delivers_iff (urlEncode : String → String)
    (invertible : ∀ s, formDecode (urlEncode s).toList = utf8 s.toList) (site : Site)
    (redirectUri : String) (accepted : RuleSet.validateRedirectUri site redirectUri = none)
    (redirect : Redirect) (state : String) :
    Delivers redirectUri (redirect.location urlEncode redirectUri state) (redirect.sent state) ↔
      '?' ∉ redirectUri.toList ∧ '#' ∉ redirectUri.toList ∧ redirect.Intact urlEncode state := by
  have query := @appended_iff _ _ redirectUri.toList
    (@honest_redirect urlEncode state redirect invertible)
  rw [← toList_location, map_delivered] at query
  obtain ⟨address, eq⟩ := exists_address accepted
  have address' : Address.parse (redirect.location urlEncode redirectUri state).toList =
      some address := by
    rw [toList_location, Address.parse_append_query, eq]
  exact ⟨fun delivers => query.mp delivers.query, fun clean =>
    ⟨⟨address, eq, address'⟩, query.mpr clean⟩⟩

/-- `urlEncode` as an encoder of forms writes it. -/
def formUrlEncode (s : String) : String :=
  String.ofList (formEncode s.toList)

theorem toList_formUrlEncode (s : String) : (formUrlEncode s).toList = formEncode s.toList := by
  rw [formUrlEncode, String.toList_ofList]

theorem formDecode_formUrlEncode (s : String) :
    formDecode (formUrlEncode s).toList = utf8 s.toList := by
  rw [toList_formUrlEncode, formDecode_formEncode]

theorem intact_field (param : Param) {value text : String} (pair : '&' ∉ text.toList)
    (fragment : '#' ∉ text.toList) (decodes : formDecode text.toList = utf8 value.toList) :
    (param.field value text).Intact :=
  ⟨pair, fragment, decodes⟩

/-- A form-encoded parameter is intact. -/
theorem intact_encoded (param : Param) (value : String) :
    (param.encoded formUrlEncode value).Intact := by
  refine intact_field param ?_ ?_ (formDecode_formUrlEncode value)
  · rw [toList_formUrlEncode]
    exact @notMem_formEncode '&' rfl value.toList
  · rw [toList_formUrlEncode]
    exact @notMem_formEncode '#' rfl value.toList

theorem intact_optional (param : Param) (value : String) :
    ∀ f ∈ param.optional formUrlEncode value, f.Intact := by
  intro f mem
  unfold Param.optional at mem
  split at mem
  · rw [List.mem_singleton.mp mem]
    exact intact_encoded param value
  · cases mem

/-- The values that are written as they are. -/
theorem intact_constants : ∀ c ∈ [("access_denied", "access_denied"),
      ("invalid_request", "invalid_request"), ("server_error", "server_error"),
      ("User denied consent", "User+denied+consent")],
    '&' ∉ c.2.toList ∧ '#' ∉ c.2.toList ∧ formDecode c.2.toList = utf8 c.1.toList := by
  decide

theorem intact_constant (param : Param) {value text : String} (mem : (value, text) ∈
      [("access_denied", "access_denied"), ("invalid_request", "invalid_request"),
        ("server_error", "server_error"), ("User denied consent", "User+denied+consent")]) :
    (param.field value text).Intact := by
  obtain ⟨pair, fragment, decodes⟩ := intact_constants _ mem
  exact intact_field param pair fragment decodes

/-- With an encoder that leaves no delimiter all that counts is the error that
`sendOAuthErrorRedirect` writes as it is. -/
theorem intact_redirect (redirect : Redirect) (state : String)
    (asIs : ∀ error description, redirect = .sessionError error description →
      (Param.error.field error error).Intact) : redirect.Intact formUrlEncode state := by
  intro f mem
  cases redirect with
  | code c =>
      rcases List.mem_cons.mp mem with rfl | mem
      · exact intact_encoded .code c
      · exact intact_optional .state state f mem
  | sessionError error description =>
      rcases List.mem_cons.mp mem with rfl | mem
      · exact asIs error description rfl
      rcases List.mem_append.mp mem with mem | mem
      · exact intact_optional .errorDescription description f mem
      · exact intact_optional .state state f mem
  | authorizeError error description =>
      rcases List.mem_cons.mp mem with rfl | mem
      · exact intact_encoded .error error
      rcases List.mem_append.mp mem with mem | mem
      · exact intact_optional .errorDescription description f mem
      · exact intact_optional .state state f mem
  | denied =>
      rcases List.mem_cons.mp mem with rfl | mem
      · exact intact_constant .error (by simp)
      rcases List.mem_cons.mp mem with rfl | mem
      · exact intact_constant .errorDescription (by simp)
      · exact intact_optional .state state f mem

/-- The errors that login and consent send. -/
theorem intact_sessionError {error : String} (sent : error ∈ ["invalid_request", "server_error"])
    (description state : String) :
    (Redirect.sessionError error description).Intact formUrlEncode state := by
  refine intact_redirect _ state fun error' description' eq => ?_
  cases eq
  rcases List.mem_cons.mp sent with rfl | sent
  · exact intact_constant .error (by simp)
  · rw [List.mem_singleton.mp sent]
    exact intact_constant .error (by simp)

open ClientRegistrationService (sampleSite)

theorem delivers_iff_callback : Delivers "https://app.example/cb"
    ((Redirect.code "SplxlOBe").location formUrlEncode "https://app.example/cb" "xyz12345")
    ((Redirect.code "SplxlOBe").sent "xyz12345") :=
  (delivers_iff formUrlEncode formDecode_formUrlEncode sampleSite "https://app.example/cb"
    (by decide) (.code "SplxlOBe") "xyz12345").mpr
    ⟨by decide, by decide, intact_redirect _ _ fun _ _ eq => by cases eq⟩

/-- `https://app.example/cb?tenant=1` is accepted; the client finds the code in `tenant`. -/
theorem query_swallows_code : ¬ ∀ urlEncode : String → String,
    (∀ s, formDecode (urlEncode s).toList = utf8 s.toList) →
      ∀ (site : Site) (redirectUri : String), RuleSet.validateRedirectUri site redirectUri = none →
        ∀ (redirect : Redirect) (state : String),
          Delivers redirectUri (redirect.location urlEncode redirectUri state)
            (redirect.sent state) := by
  intro all
  have delivers := all formUrlEncode formDecode_formUrlEncode sampleSite
    "https://app.example/cb?tenant=1" (by decide) (.code "SplxlOBe") "xyz"
  exact absurd delivers.query (by decide)

end

end Fulla
