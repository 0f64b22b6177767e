import Fulla.Conc.Track
import Fulla.Web.MintedTokens

/-!
# What a request does to the refresh tokens

A refresh token is issued by a code exchange (of the token endpoint or at the end of the
MFA completion), by the device grant and by the social login, and from then on rotated.
Over the Postgres token store every request keeps one order: it issues one token, or it
consumes one and replaces it within its family, and each issuing path sets the family of
its tokens on its own (`RefreshRequest.roots`).
-/

namespace Fulla.RefreshFamilies

open Conc

/-! ## What a request does to the refresh tokens -/

/-- How far a request has come with its refresh token. -/
inductive Stage where
  | idle
  /-- The compare-and-set has consumed a token, of this family. -/
  | consumed (token familyId : String)
  | issued (r : OAuth2RefreshToken)
  /-- The consumed token was replaced. -/
  | rotated (token : String) (r : OAuth2RefreshToken)
deriving DecidableEq

/-- The token and the family of a compare-and-set that has won. -/
def won : (o : TokenSig.Op) → TokenSig.Res o → Option (String × String)
  | .inl (.sql (.casRevokeRefresh token)), answer =>
    (answer : Option OAuth2RefreshToken).map fun r => (token, r.familyId)
  | _, _ => none

/-- The refresh token that an operation saves. -/
def saved : (o : TokenSig.Op) → TokenSig.Res o → Option OAuth2RefreshToken
  | .inl (.sql (.insertTokenPair _ r)), ok => if (ok : Bool) then some r else none
  | _, _ => none

def Stage.next (g : Stage) (o : TokenSig.Op) (answer : TokenSig.Res o) : Stage :=
  match g, won o answer, saved o answer with
  | .idle, some (token, familyId), _ => .consumed token familyId
  | .idle, none, some r => .issued r
  | .consumed token _, _, some r => .rotated token r
  | g, _, _ => g

/-- Neither a compare-and-set nor an `INSERT` of a pair, and no refresh token is deleted. -/
def Harmless : TokenSig.Op → Prop
  | .inl (.env _) => True
  | .inl (.mem o) => ∀ db m, (o.exec m db).2.refreshTokens = db.refreshTokens
  | .inl (.sql (.insertTokenPair _ _)) => False
  | .inl (.sql (.casRevokeRefresh _)) => False
  | .inl (.sql (.deleteExpiredRefresh _)) => False
  | .inl (.sql _) => True
  | .inl (.redis _) => True
  | .inr _ => True

/-- The order of one request: a token is consumed at most once and replaced within its family,
or one of a family among `roots` is issued. -/
inductive Fits (roots : String → Prop) : Stage → TokenSig.Op → Prop
  | harmless {g : Stage} {o : TokenSig.Op} (harmless : Harmless o) : Fits roots g o
  | consume (token : String) : Fits roots .idle (.inl (.sql (.casRevokeRefresh token)))
  | root (a : OAuth2AccessToken) {r : OAuth2RefreshToken} (family : roots r.familyId) :
      Fits roots .idle (.inl (.sql (.insertTokenPair a r)))
  | replace {token familyId : String} (a : OAuth2AccessToken) {r : OAuth2RefreshToken}
      (family : r.familyId = familyId) :
      Fits roots (.consumed token familyId) (.inl (.sql (.insertTokenPair a r)))

/-- A harmless step does not move the stage. -/
theorem next_harmless {g : Stage} {o : TokenSig.Op} {answer : TokenSig.Res o}
    (harmless : Harmless o) : g.next o answer = g := by
  have none_ : won o answer = none ∧ saved o answer = none := by
    cases o with
    | inr o => exact ⟨rfl, rfl⟩
    | inl o =>
        cases o with
        | sql o => cases o <;> first | exact ⟨rfl, rfl⟩ | exact harmless.elim
        | _ => exact ⟨rfl, rfl⟩
  unfold Stage.next
  rw [none_.1, none_.2]
  cases g <;> rfl

/-! ## The programs keep the order -/

section Programs

variable {α : Type} {roots : String → Prop} {Q : α → Stage → Prop}

/-- The order, seen from the store. -/
abbrev StoreFollows (roots : String → Prop) (Q : α → Stage → Prop) (p : StoreProg α) (g : Stage) :
    Prop :=
  p.Follows (fun (g : Stage) o r => g.next (.inl o) r) (fun g o => Fits roots g (.inl o))
    (fun _ _ _ => True) Q g

/-- The program takes its steps in the order of the stages. -/
abbrev Follows (roots : String → Prop) (p : TokenProg α) (g : Stage) : Prop :=
  p.Follows Stage.next (Fits roots) (fun _ _ _ => True) (fun _ _ => True) g

/-- A program of harmless steps stays where it is. -/
theorem stays {p : StoreProg α} (only : p.Only fun o => Harmless (.inl o)) (g : Stage) :
    StoreFollows roots (fun _ g' => g' = g) p g :=
  only.stays (fun _ harmless => .harmless harmless) fun _ _ => next_harmless

/-- It follows the stages. -/
theorem follows_harmless {p : StoreProg α} (only : p.Only fun o => Harmless (.inl o)) (g : Stage) :
    StoreFollows roots (fun _ _ => True) p g :=
  (stays only g).mono fun _ _ _ => trivial

/-- Asking a port is harmless. -/
theorem harmless_ports : OnPorts fun o => Harmless (.inl o) :=
  fun _ _ => trivial

theorem harmless_draw (crypto : CryptoProvider) (n : Nat) :
    (generateSecureToken crypto n).Only fun o => Harmless (.inl o) :=
  generateSecureToken_only crypto trivial

theorem harmless_ask (o : EnvOp) : (ask o).Only fun o => Harmless (.inl o) :=
  Prog.only_call.mpr trivial

theorem harmless_now : nowSeconds.Only fun o => Harmless (.inl o) :=
  harmless_ask _

/-- Consuming a code is harmless: no refresh token is touched. -/
theorem harmless_consumeAuthCode (grants : GrantBackend) (code redirectUri : String) :
    (grants.repository.consumeAuthCode code redirectUri).Only fun o => Harmless (.inl o) := by
  cases grants with
  | memory =>
      refine Prog.only_call.mpr ?_
      intro db m
      simp only [MemOp.exec, MemoryGrantRepository.consumeAuthCode]
      split
      · rfl
      · split
        · rfl
        · split <;> rfl
  | redis => exact Prog.Only.bind (Prog.only_call.mpr trivial) fun _ => trivial
  | postgres =>
      refine Prog.Only.bind (Prog.only_call.mpr trivial) fun row => ?_
      cases row with
      | none => trivial
      | some row =>
          dsimp only
          split <;> trivial

variable (svc : TokenService) (crypto : CryptoProvider)

/-- A refusal is harmless: families are revoked, none is saved. -/
theorem harmless_refuseRefresh (hashedRt : String) :
    (svc.refuseRefresh postgresTokenRepository hashedRt).Only fun o => Harmless (.inl o) := by
  have family (f : String) :
      (PostgresTokenRepository.revokeTokenFamily f).Only fun o => Harmless (.inl o) := by
    unfold PostgresTokenRepository.revokeTokenFamily
    split
    · trivial
    · refine Prog.Only.bind (Prog.only_call.mpr trivial) fun ok => ?_
      split
      · exact Prog.Only.bind (Prog.only_call.mpr trivial) fun _ => trivial
      · trivial
  unfold TokenService.refuseRefresh
  refine Prog.Only.bind (Prog.Only.bind (Prog.only_call.mpr trivial) fun _ => trivial) fun row => ?_
  cases row with
  | none => trivial
  | some rt =>
      dsimp only
      split
      · exact (audit_only svc harmless_ports _ _ _ _ _).bind fun _ =>
          (family _).bind fun _ => trivial
      · trivial

/-- A pair is saved where it fits, and the rest is harmless. -/
theorem save_follows {g : Stage} {a : OAuth2AccessToken} {r : OAuth2RefreshToken}
    {f : Bool → StoreProg α} (fit : Fits roots g (.inl (.sql (.insertTokenPair a r))))
    (rest : ∀ ok, (f ok).Only fun o => Harmless (.inl o)) :
    StoreFollows roots (fun _ _ => True) (postgresTokenRepository.saveTokenPair a r >>= f) g :=
  ⟨fit, fun ok _ => follows_harmless (rest ok) _⟩

/-- An exchange saves a token of a new family. -/
theorem issueForCode_follows (authCode : OAuth2AuthCode) (now : Int)
    (nonempty : ∀ f, f ≠ "" → roots f) :
    StoreFollows roots (fun _ _ => True)
      (svc.issueForCode postgresTokenRepository crypto authCode now) .idle := by
  unfold TokenService.issueForCode
  refine (stays (resolveOrgContextForClaims_only svc harmless_ports _ _ _) _).after fun orgCtx => ?_
  refine (stays (resolveRoles_only svc harmless_ports _) _).after fun roles => ?_
  cases roles with
  | none => trivial
  | some roles =>
      refine (stays (harmless_draw _ _) _).after fun tokenStr => ?_
      refine (stays (harmless_draw _ _) _).after fun refreshTokenStr => ?_
      refine (stays (harmless_draw _ _) _).after fun familyId => ?_
      split
      · refine follows_harmless (Prog.Only.bind (audit_only svc harmless_ports _ _ _ _ _) ?_) _
        exact fun _ => trivial
      · next drawn =>
          have family : familyId ≠ "" := fun empty => drawn (.inr (.inr empty))
          refine save_follows (.root _ (nonempty _ family)) fun ok => ?_
          split
          · exact (audit_only svc harmless_ports _ _ _ _ _).bind fun _ => trivial
          · refine (withIdToken_only svc harmless_ports _ _ _ _).bind fun answer => ?_
            exact (auditIssued_only svc harmless_ports _ _).bind fun _ => trivial

/-- **A rotation saves the token of the family it has taken from**. -/
theorem rotate_follows (storedRt : OAuth2RefreshToken) (token : String) (now : Int)
    (subject : String) :
    StoreFollows roots (fun _ _ => True)
      (svc.rotate postgresTokenRepository crypto storedRt now subject)
      (.consumed token storedRt.familyId) := by
  unfold TokenService.rotate
  refine (stays (resolveOrgContextForClaims_only svc harmless_ports _ _ _) _).after fun orgCtx => ?_
  refine (stays (harmless_draw _ _) _).after fun newTokenStr => ?_
  refine (stays (harmless_draw _ _) _).after fun newRefreshTokenStr => ?_
  split
  · trivial
  · refine save_follows (.replace _ rfl) fun ok => ?_
    split
    · trivial
    · refine (audit_only svc harmless_ports _ _ _ _ _).bind fun _ => ?_
      exact (withIdToken_only svc harmless_ports _ _ _ _).bind fun _ => trivial

variable (grants : GrantBackend)

/-- So an exchange follows the stages. -/
theorem exchangeCodeForToken_follows (code clientId clientSecret redirectUri codeVerifier : String)
    (nonempty : ∀ f, f ≠ "" → roots f) :
    StoreFollows roots (fun _ _ => True) ((svc.over grants .postgres crypto).exchangeCodeForToken
      code clientId clientSecret redirectUri codeVerifier) .idle := by
  unfold TokenService.exchangeCodeForToken
  split
  · next clients grants' tokens' crypto' eqC eqG eqT eqK =>
      cases eqG
      cases eqT
      cases eqK
      refine (stays (ask_only harmless_ports (by nofun)) _).after fun isValid => ?_
      split
      · trivial
      · refine (stays (harmless_consumeAuthCode grants _ _) _).after fun authCodeOpt => ?_
        cases authCodeOpt with
        | none => trivial
        | some authCode =>
            dsimp only
            split
            · trivial
            · refine (stays harmless_now _).after fun now => ?_
              split
              · trivial
              · exact issueForCode_follows (svc.over grants .postgres crypto) crypto _ _ nonempty
  · trivial

/-- So does a refresh. -/
theorem refreshAccessToken_follows (refreshToken clientId : String) :
    StoreFollows roots (fun _ _ => True)
      ((svc.over grants .postgres crypto).refreshAccessToken refreshToken clientId) .idle := by
  refine ⟨.consume _, fun answer _ => ?_⟩
  cases answer with
  | none => exact follows_harmless (harmless_refuseRefresh _ _) _
  | some storedRt =>
      show StoreFollows roots (fun _ _ => True) (if storedRt.clientId ≠ clientId then _ else _)
        (.consumed _ storedRt.familyId)
      split
      · trivial
      · refine (stays harmless_now _).after fun now => ?_
        split
        · trivial
        · refine (stays (normalizedSubject_only _ harmless_ports _) _).after fun subject => ?_
          cases subject with
          | none => trivial
          | some subject =>
              exact rotate_follows (svc.over grants .postgres crypto) crypto storedRt _ _ _

end Programs

/-! ### The endpoint and the social login -/

section Endpoint

variable {α β : Type} {roots : String → Prop} (ep : TokenEndpoint) (grants : GrantBackend)

theorem store_only {p : StoreProg α} (only : p.Only fun o => Harmless (.inl o)) :
    (store p).Only Harmless :=
  only.inl

theorem endpoint_only {o : EndpointOp} : (endpoint o).Only Harmless :=
  Prog.only_call.mpr trivial

/-- A part that is harmless, and the rest. -/
theorem follows_after {p : TokenProg α} {f : α → TokenProg β} {g : Stage} (only : p.Only Harmless)
    (rest : ∀ a, Follows roots (f a) g) : Follows roots (p >>= f) g :=
  (only.stays (fun _ harmless => .harmless harmless) fun _ _ => next_harmless).after rest

/-- A request of harmless steps follows the stages. -/
theorem follows_only {p : TokenProg α} (only : p.Only Harmless) (g : Stage) : Follows roots p g :=
  only.follows (fun _ _ harmless => .harmless harmless) g

/-- A program of the token service, and what is done with its answer. -/
theorem follows_store {p : StoreProg α} {f : α → TokenProg β} {g : Stage}
    (follows : StoreFollows roots (fun _ _ => True) p g) (rest : ∀ a, (f a).Only Harmless) :
    Follows roots (store p >>= f) g := by
  have lifted : Follows roots (store p) g := Prog.Follows.lift follows
  exact lifted.bind fun a g' _ => follows_only (rest a) g'

theorem generateSecureToken_harmless (bytes : Nat) :
    (ep.generateSecureToken bytes).Only Harmless := by
  refine (store_only (harmless_ask _)).bind fun buffer => ?_
  cases buffer with
  | some b => trivial
  | none => exact endpoint_only.bind fun _ => endpoint_only.bind fun _ => trivial

theorem signIdToken_harmless (subject clientId : String) :
    (ep.signIdToken subject clientId).Only Harmless := by
  unfold TokenEndpoint.signIdToken
  split
  · trivial
  · split
    · exact (store_only harmless_now).bind fun _ => trivial
    · trivial

/-- A save of a family that may begin here, and harmless steps after it. -/
theorem save_rest {a : OAuth2AccessToken} {r : OAuth2RefreshToken} {f : Bool → TokenProg α}
    (family : roots r.familyId) (rest : ∀ ok, (f ok).Only Harmless) :
    Follows roots (store (postgresTokenRepository.saveTokenPair a r) >>= f) .idle :=
  follows_store ⟨.root a family, fun _ _ => trivial⟩ rest

/-- Minting for a device follows the stages. -/
theorem mintDeviceTokens_follows (any : ∀ f, roots f) (clientId userId scope : String) (now : Int) :
    Follows roots ((ep.onStores grants .postgres).mintDeviceTokens clientId userId scope now)
      .idle := by
  refine follows_after (generateSecureToken_harmless _ _) fun accessTokenStr => ?_
  refine follows_after (generateSecureToken_harmless _ _) fun refreshTokenStr => ?_
  refine follows_after (generateSecureToken_harmless _ _) fun familyId => ?_
  refine save_rest (any _) fun ok => ?_
  split
  · trivial
  · dsimp only
    split
    · exact (signIdToken_harmless _ _ _).bind fun _ => trivial
    · trivial

/-- So does the look-up before it. -/
theorem runDeviceCodeLookup_follows (any : ∀ f, roots f) (clientId deviceCodeHash : String) :
    Follows roots ((ep.onStores grants .postgres).runDeviceCodeLookup clientId deviceCodeHash)
      .idle := by
  refine follows_after endpoint_only fun found => ?_
  cases found with
  | none => trivial
  | some found =>
      cases found with
      | none => trivial
      | some row =>
          dsimp only
          unfold TokenEndpoint.pollFound
          split
          · trivial
          · refine follows_after (store_only harmless_now) fun now => ?_
            split
            · trivial
            · split
              · unfold TokenEndpoint.pollPending
                split
                · exact follows_after endpoint_only fun _ => trivial
                · exact follows_after endpoint_only fun _ => trivial
              · trivial
              · refine follows_after endpoint_only fun consumed => ?_
                split
                · trivial
                · trivial
                · exact mintDeviceTokens_follows ep grants any _ _ _ _
              · trivial

/-- So does the device code grant. -/
theorem deviceCodeGrant_follows (any : ∀ f, roots f) (req : TokenRequest)
    (creds : ClientCredentials) :
    Follows roots ((ep.onStores grants .postgres).deviceCodeGrant req creds) .idle := by
  unfold TokenEndpoint.deviceCodeGrant
  dsimp only
  generalize (if creds.clientId = "" then req.param "client_id" else creds.clientId) = clientId
  split
  · trivial
  · split
    · trivial
    · refine follows_after endpoint_only fun client => ?_
      cases client with
      | none => trivial
      | some client =>
          dsimp only
          split
          · exact runDeviceCodeLookup_follows ep grants any _ _
          · refine follows_after (store_only (harmless_ask _)) fun valid => ?_
            split
            · trivial
            · exact runDeviceCodeLookup_follows ep grants any _ _

/-- A token of the client itself comes without a refresh token. -/
theorem mintCcToken_harmless (clientId scope : String) (orgId : Option Int) :
    (ep.mintCcToken clientId scope orgId).Only Harmless := by
  refine (generateSecureToken_harmless _ _).bind fun tokenStr => ?_
  exact (store_only harmless_now).bind fun now => endpoint_only.bind fun _ => trivial

theorem clientCredentialsGrant_harmless (req : TokenRequest) (creds : ClientCredentials) :
    (ep.clientCredentialsGrant req creds).Only Harmless := by
  unfold TokenEndpoint.clientCredentialsGrant
  split
  · trivial
  · refine (store_only (harmless_ask _)).bind fun valid => ?_
    split
    · trivial
    · refine endpoint_only.bind fun client => ?_
      cases client with
      | none => trivial
      | some client =>
          dsimp only
          split
          · trivial
          · split
            · trivial
            · split
              · exact mintCcToken_harmless ep _ _ _
              · exact endpoint_only.bind fun orgId => mintCcToken_harmless ep _ _ _

/-- The refresh grant follows the stages. -/
theorem refreshTokenGrant_follows (req : TokenRequest) (creds : ClientCredentials) :
    Follows roots ((ep.onStores grants .postgres).refreshTokenGrant req creds) .idle := by
  have refresh : Follows roots ((ep.onStores grants .postgres).refreshAccessToken
      (req.param "refresh_token") creds.clientId) .idle := by
    unfold TokenEndpoint.refreshAccessToken
    split
    · trivial
    · exact follows_store (refreshAccessToken_follows ep.site.tokenService ep.crypto grants _ _)
        fun _ => trivial
  refine follows_after endpoint_only fun client => ?_
  cases client with
  | none => trivial
  | some client =>
      dsimp only
      split
      · split
        · trivial
        · refine follows_after (store_only (harmless_ask _)) fun valid => ?_
          split
          · trivial
          · exact refresh
      · exact refresh

/-- A token request issues a token of a family, unless it is one for a device code. -/
theorem token_follows (req : TokenRequest) (nonempty : ∀ f, f ≠ "" → roots f)
    (device : ¬ MintedTokens.audienceSet req → ∀ f, roots f) :
    Follows roots ((ep.onStores grants .postgres).token req) .idle := by
  unfold TokenEndpoint.token
  split
  · trivial
  · split
    · trivial
    · refine follows_after endpoint_only fun limited => ?_
      split
      · trivial
      · refine Prog.Follows.bind (Q := fun _ _ => True) ?_ fun reply g _ => follows_only ?_ g
        · refine follows_after endpoint_only fun client => ?_
          split
          · trivial
          · unfold TokenEndpoint.dispatchGrant
            dsimp only
            split
            · exact follows_store (exchangeCodeForToken_follows ep.site.tokenService ep.crypto
                grants _ _ _ _ _ nonempty) fun _ => trivial
            · split
              · exact refreshTokenGrant_follows ep grants _ _
              · split
                · exact follows_only (clientCredentialsGrant_harmless _ _ _) _
                · split
                  · next grant =>
                      exact deviceCodeGrant_follows ep grants (device fun set => set grant) _ _
                  · trivial
        · unfold TokenEndpoint.accounted
          split
          · exact endpoint_only.bind fun _ => trivial
          · exact endpoint_only.bind fun _ => trivial
          · trivial

/-- The social login issues a token without a family. -/
theorem issueTokensForUser_follows (empty : roots "") (configured : Option String)
    (provider userPublicSub : String) :
    Follows roots (SocialTokenIssuer.issueTokensForUser (ep.onStores grants .postgres) configured
      provider userPublicSub) .idle := by
  unfold SocialTokenIssuer.issueTokensForUser
  split
  · trivial
  · split
    · trivial
    · refine follows_after endpoint_only fun clientRow => ?_
      cases clientRow with
      | none => trivial
      | some client =>
          dsimp only
          unfold SocialTokenIssuer.issueTokensForRegisteredClient
          split
          · trivial
          · refine follows_after (generateSecureToken_harmless _ _) fun accessTokenStr => ?_
            refine follows_after (generateSecureToken_harmless _ _) fun refreshTokenStr => ?_
            refine follows_after (store_only harmless_now) fun now => ?_
            refine save_rest (by exact empty) fun ok => ?_
            split
            · trivial
            · exact (store_only (harmless_ask _)).bind fun _ => trivial

end Endpoint

/-! ## Requests, one at a time -/

/-- The requests of the four issuing paths, refreshes, and any others. -/
inductive RefreshRequest where
  | token (req : TokenRequest)
  /-- The exchange that ends `MfaController::verifyLogin`. -/
  | completeMfa (code clientId redirectUri codeVerifier : String)
  | social (configured : Option String) (provider userPublicSub : String)
  | refresh (refreshToken clientId : String)
  | other (p : TokenProg Unit) (harmless : p.Only Harmless)

/-- The families of the tokens that a request issues. -/
def RefreshRequest.roots : RefreshRequest → String → Prop
  | token req, familyId => MintedTokens.audienceSet req → familyId ≠ ""
  | completeMfa _ _ _ _, familyId => familyId ≠ ""
  | social _ _ _, familyId => familyId = ""
  | refresh _ _, _ => False
  | other _ _, _ => False

/-- What a request runs; its answer is not looked at here. -/
def RefreshRequest.prog (ep : TokenEndpoint) : RefreshRequest → TokenProg Unit
  | token req => (fun _ => ()) <$> ep.token req
  | completeMfa code clientId redirectUri codeVerifier => (fun _ => ()) <$>
    store (ep.site.tokenService.exchangeCodeForToken code clientId "" redirectUri codeVerifier)
  | social configured provider userPublicSub =>
    (fun _ => ()) <$> SocialTokenIssuer.issueTokensForUser ep configured provider userPublicSub
  | refresh refreshToken clientId =>
    (fun _ => ()) <$> store (ep.site.tokenService.refreshAccessToken refreshToken clientId)
  | other p _ => p

/-- **Every request follows the stages**, from the families that it may begin. -/
theorem prog_follows (ep : TokenEndpoint) (grants : GrantBackend) (request : RefreshRequest) :
    Follows request.roots (request.prog (ep.onStores grants .postgres)) .idle := by
  cases request with
  | token req =>
      refine Prog.Follows.bind (token_follows ep grants req (fun f nonempty _ => nonempty) ?_)
        fun _ _ _ => trivial
      intro device f set
      exact absurd set device
  | completeMfa code clientId redirectUri codeVerifier =>
      exact follows_store (exchangeCodeForToken_follows ep.site.tokenService ep.crypto grants _ _ _
        _ _ fun _ nonempty => nonempty) fun _ => trivial
  | social configured provider userPublicSub =>
      have empty : (RefreshRequest.social configured provider userPublicSub).roots "" := rfl
      exact Prog.Follows.bind (issueTokensForUser_follows ep grants empty _ _ _)
        fun _ _ _ => trivial
  | refresh refreshToken clientId =>
      exact follows_store (refreshAccessToken_follows ep.site.tokenService ep.crypto grants _ _)
        fun _ => trivial
  | other p harmless => exact follows_only harmless _

end Fulla.RefreshFamilies
