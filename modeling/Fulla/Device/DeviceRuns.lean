import Fulla.Device.DeviceSafety

/-!
# Runs of the device flow

Every call keeps the invariant of `DeviceSafety` step by step, so an orderly run
keeps it in every interleaving.  `device_flow_safe` reads it off; `second_approver`
is a run that is not orderly, in which one code yields two pairs for two users.
-/

namespace Fulla.DeviceFlow

open Conc

variable {ι : Type} [DecidableEq ι] {α : Type} {env : Nat → TokenMoment}
  {clients : ClientRepository} {tokens : TokenBackend} {ep : TokenEndpoint}
  {calls : ι → DeviceCall} {s : TokenDb} {i : ι}

/-! ## Steps of a poll -/

section Poll

variable {w : DeviceWorld ι} {γ : ι → Holding} {h u : String}

/-- A look-up that finds an approved code has read the recorded approver. -/
theorem Shared.look {row : DeviceCode} (shared : Shared ep calls s w γ)
    (read : (DeviceOp.exec (env w.tick).store.fault w.db.db.clientIds (.selectByHash h)
      w.db.devices).1 = some (some row)) (approved : row.status = .approved) :
    Shared ep calls s (deviceHandler env clients tokens i (.inr (.device (.selectByHash h))) w).2
      (Function.update γ i (.seen h row.userId)) := by
  intro orderly
  have neutral : Neutral (polls (calls i)) (.inr (.device (.selectByHash h))) := trivial
  have inv : Inv ep calls s
      (deviceHandler env clients tokens i (.inr (.device (.selectByHash h))) w).2 γ :=
    shared.neutral neutral orderly
  have found : w.db.devices.find? h = some row := by
    unfold DeviceOp.exec at read
    split at read
    · cases read
    · simpa [DeviceOp.effect] using read
  have row_view : view (deviceHandler env clients tokens i
      (.inr (.device (.selectByHash h))) w).2.db h = some (.approved, row.userId) := by
    rw [World.handler_db, view_of_neutral clients tokens _ neutral]
    simp [view, found, approved]
  have agrees := inv.book h
  rw [row_view] at agrees
  obtain ⟨open_, -⟩ | ⟨-, known, -⟩ := agrees
  · cases open_
  · exact inv.see known

/-- The `consume` that finds the code approved wins it. -/
theorem Shared.consumed {c : DeviceCode} (shared : Shared ep calls s w γ)
    (found : w.db.devices.find? h = some c) (approved : c.status = .approved)
    (eq : DeviceOp.exec (env w.tick).store.fault w.db.db.clientIds (.consume h) w.db.devices =
      (some true, w.db.devices.update h (fun c => { c with status := .consumed }) fun _ => rfl))
    (own : γ i = .seen h u) :
    Shared ep calls s (deviceHandler env clients tokens i (.inr (.device (.consume h))) w).2
      (Function.update γ i (.won h u)) := by
  intro orderly
  have inv := shared fun e mem => orderly e (List.mem_cons_of_mem _ mem)
  have answered : (DeviceOp.exec (env w.tick).store.fault w.db.db.clientIds (.consume h)
      w.db.devices).1 = some true := congrArg Prod.fst eq
  have before : view w.db h = some (.approved, c.userId) := by
    simp [view, found, approved]
  have after : (deviceHandler env clients tokens i (.inr (.device (.consume h))) w).2.db =
      { w.db with
        devices := w.db.devices.update h (fun c => { c with status := .consumed })
          fun _ => rfl } := by
    simp only [World.handler_db, execToken, eq]
  obtain ⟨consumed, other⟩ : view _ h = some (.consumed, c.userId) ∧ _ :=
    after ▸ view_update found
  have told : consumes h (deviceEvent env i w (.consume h)) = true := by
    simp [consumes, answered]
  have only : ∀ k ≠ h, consumes k (deviceEvent env i w (.consume h)) = false := by
    intro k ne
    simp [consumes, ne.symm]
  exact inv.consume rfl (fun _ => rfl) told only (fun _ => mintOf_eq_none fun _ => rfl) before
    consumed other own

omit [DecidableEq ι] in
theorem pairOf_save {n : Nat} {o : StoreOp} {r : TokenSig.Res (.inl o)} {pre : TokenDb}
    {pair : OAuth2AccessToken × OAuth2RefreshToken} (saves : savedPair? o = some pair) :
    pairOf (⟨i, n, .inl o, r, pre⟩ : DeviceEvent ι) = none ∨
      pairOf (⟨i, n, .inl o, r, pre⟩ : DeviceEvent ι) = some pair := by
  cases o with
  | env o => cases saves
  | mem o =>
      cases o <;> cases saves
      simp only [pairOf]
      split
      · exact .inr rfl
      · exact .inl rfl
  | sql o =>
      cases o <;> cases saves
      simp only [pairOf]
      split
      · exact .inr rfl
      · exact .inl rfl
  | redis o => cases saves

/-- The winner saves its pair, or fails to. -/
theorem Shared.save {o : StoreOp} {pair : OAuth2AccessToken × OAuth2RefreshToken}
    (shared : Shared ep calls s w γ) (saves : savedPair? o = some pair)
    (user : pair.1.userId = u) (redeem : ∀ k, redeems ep k (calls i) = true ↔ k = h)
    (own : γ i = .won h u) :
    ∃ g, Shared ep calls s (deviceHandler env clients tokens i (.inl o) w).2
      (Function.update γ i g) := by
  let e : DeviceEvent ι :=
    ⟨i, w.tick, .inl o, (execToken clients tokens (env w.tick) (.inl o) w.db).1, w.db⟩
  rcases (pairOf_save saves : pairOf e = none ∨ pairOf e = some pair) with failed | saved
  · refine ⟨γ i, fun orderly => ?_⟩
    rw [Function.update_eq_self]
    have inv := shared fun e mem => orderly e (List.mem_cons_of_mem _ mem)
    have silent : Silent ep calls e :=
      ⟨fun _ => rfl, fun _ => rfl, fun _ => mintOf_eq_none fun _ => failed⟩
    exact inv.frame silent rfl fun _ => rfl
  · refine ⟨.nothing, fun orderly => ?_⟩
    have inv := shared fun e mem => orderly e (List.mem_cons_of_mem _ mem)
    have minted : mintOf ep calls h e = some u := by
      have mine : redeems ep h (calls e.thread) = true := (redeem h).mpr rfl
      unfold mintOf
      rw [if_pos mine, saved, ← user]
      rfl
    have only : ∀ k ≠ h, mintOf ep calls k e = none := by
      intro k ne
      exact if_neg fun mine => ne ((redeem k).mp mine)
    exact inv.mint rfl (fun _ => rfl) (fun _ => rfl) minted only (fun _ => rfl) own

end Poll

/-! ## Neutral programs -/

section NeutralPrograms

variable {poll : Bool}

omit [DecidableEq ι] in
/-- A program over the store that saves no pair is neutral. -/
theorem store_neutral {p : StoreProg α} (noSave : poll = true → p.Only NoSave) :
    (store p).Only (Neutral poll) := by
  refine Prog.Only.inl ?_
  cases poll with
  | false => exact Prog.only_of_forall fun _ told => nomatch told
  | true => exact (noSave rfl).mono fun _ none_ _ => none_

/-- Whatever the token service does, a call that is no poll may do. -/
theorem store_other {p : StoreProg α} : (store p).Only (Neutral false) :=
  store_neutral fun told => nomatch told

/-- One neutral operation of the endpoint. -/
theorem endpoint_neutral (o : EndpointOp) (neutral : Neutral poll (.inr o)) :
    (endpoint o).Only (Neutral poll) :=
  Prog.only_call.mpr neutral

/-- Asking a port is neutral. -/
theorem ask_neutral (o : EnvOp) : (store (ask o)).Only (Neutral poll) :=
  store_neutral fun _ => Prog.only_call.mpr rfl

/-- Making a token is neutral. -/
theorem generateSecureToken_neutral (bytes : Nat) :
    (ep.generateSecureToken bytes).Only (Neutral poll) := by
  refine (ask_neutral _).bind fun buffer => ?_
  cases buffer with
  | none => exact ⟨trivial, fun _ => ⟨trivial, fun _ => trivial⟩⟩
  | some b => trivial

/-- Counting a failure is neutral. -/
theorem accounted_neutral (key : String) (reply : TokenReply) :
    (TokenEndpoint.accounted key reply).Only (Neutral poll) := by
  unfold TokenEndpoint.accounted
  split
  · exact ⟨trivial, fun _ => trivial⟩
  · exact ⟨trivial, fun _ => trivial⟩
  · trivial

/-- A poll of a pending code only moves its next poll. -/
theorem pollPending_neutral (deviceCodeHash : String) (row : DeviceCode) (now : Int) :
    (TokenEndpoint.pollPending deviceCodeHash row now).Only (Neutral poll) := by
  unfold TokenEndpoint.pollPending
  split
  · exact ⟨trivial, fun _ => trivial⟩
  · exact ⟨trivial, fun _ => trivial⟩

/-- Signing an id token is neutral. -/
theorem signIdToken_neutral (subject clientId : String) :
    (ep.signIdToken subject clientId).Only (Neutral poll) := by
  unfold TokenEndpoint.signIdToken
  split
  · trivial
  · split
    · exact (ask_neutral _).bind fun _ => trivial
    · trivial

/-- A token of the client itself is no token of a device. -/
theorem mintCcToken_neutral (clientId scope : String) (orgId : Option Int) :
    (ep.mintCcToken clientId scope orgId).Only (Neutral poll) := by
  refine (generateSecureToken_neutral _).bind fun _ => (ask_neutral _).bind fun _ => ?_
  exact ⟨trivial, fun _ => trivial⟩

variable (req : TokenRequest) (creds : ClientCredentials)

/-- The code grant is neutral, as it redeems no device code. -/
theorem authorizationCodeGrant_neutral :
    (ep.authorizationCodeGrant req creds).Only (Neutral false) :=
  store_other.bind fun _ => trivial

theorem refreshAccessToken_neutral (refreshToken clientId : String) :
    (ep.refreshAccessToken refreshToken clientId).Only (Neutral false) := by
  unfold TokenEndpoint.refreshAccessToken
  split
  · trivial
  · exact store_other.bind fun _ => trivial

/-- So is the refresh grant. -/
theorem refreshTokenGrant_neutral : (ep.refreshTokenGrant req creds).Only (Neutral false) := by
  refine (endpoint_neutral (.getClient _) trivial).bind fun client => ?_
  cases client with
  | none => trivial
  | some client =>
      dsimp only
      split
      · split
        · trivial
        · refine (ask_neutral _).bind fun valid => ?_
          split
          · trivial
          · exact refreshAccessToken_neutral _ _
      · exact refreshAccessToken_neutral _ _

/-- So is the grant of the client itself. -/
theorem clientCredentialsGrant_neutral :
    (ep.clientCredentialsGrant req creds).Only (Neutral false) := by
  unfold TokenEndpoint.clientCredentialsGrant
  split
  · trivial
  · refine (ask_neutral _).bind fun valid => ?_
    split
    · trivial
    · refine (endpoint_neutral (.getClient _) trivial).bind fun client => ?_
      cases client with
      | none => trivial
      | some client =>
          dsimp only
          split
          · trivial
          · split
            · trivial
            · split
              · exact mintCcToken_neutral _ _ _
              · exact (endpoint_neutral (.findOwnerRow _) trivial).bind fun _ =>
                  mintCcToken_neutral _ _ _

end NeutralPrograms

/-! ## Calls -/

section Calls

/-- The call keeps the invariant, from what it holds to its end. -/
abbrev Serves (env : Nat → TokenMoment) (clients : ClientRepository) (tokens : TokenBackend)
    (ep : TokenEndpoint) (calls : ι → DeviceCall) (s : TokenDb) (i : ι) (p : TokenProg α)
    (g : Holding) : Prop :=
  Keeps (deviceHandler env clients tokens) (Shared ep calls s) i (fun _ _ => True) p g

variable {h u : String}

/-- **The step that mints.**  The pair belongs to the user who approved the code that was
consumed. -/
theorem saveTokenPair_serves {a : OAuth2AccessToken} {r : OAuth2RefreshToken}
    (user : a.userId = u) (redeem : ∀ k, redeems ep k (calls i) = true ↔ k = h) :
    Serves env clients tokens ep calls s i (store (tokens.repository.saveTokenPair a r))
      (.won h u) := by
  cases tokens with
  | memory =>
      intro w γ shared own
      obtain ⟨g, kept⟩ := shared.save (o := .mem (.saveTokenPair a r)) rfl user redeem own
      exact ⟨g, kept, trivial⟩
  | postgres =>
      intro w γ shared own
      obtain ⟨g, kept⟩ := shared.save (o := .sql (.insertTokenPair a r)) rfl user redeem own
      exact ⟨g, kept, trivial⟩

/-- So does the minting as a whole. -/
theorem mintDeviceTokens_serves (wired : ep.site.tokenService.tokens = some tokens.repository)
    (redeem : ∀ k, redeems ep k (calls i) = true ↔ k = h) (clientId scope : String) (now : Int) :
    Serves env clients tokens ep calls s i (ep.mintDeviceTokens clientId u scope now)
      (.won h u) := by
  refine (keeps_neutral (generateSecureToken_neutral _)).bind fun access g same => ?_
  subst same
  refine (keeps_neutral (generateSecureToken_neutral _)).bind fun refresh g same => ?_
  subst same
  refine (keeps_neutral (generateSecureToken_neutral _)).bind fun family g same => ?_
  subst same
  simp only [wired]
  refine Keeps.bind (saveTokenPair_serves rfl redeem) fun ok g _ => ?_
  split
  · trivial
  · split
    · exact keeps_rest ((signIdToken_neutral _ _).bind fun _ => trivial)
    · trivial

/-- A redemption consumes the code before it mints. -/
theorem redeemDeviceCode_serves (wired : ep.site.tokenService.tokens = some tokens.repository)
    (redeem : ∀ k, redeems ep k (calls i) = true ↔ k = h) (clientId : String) (row : DeviceCode)
    (now : Int) :
    Serves env clients tokens ep calls s i (ep.redeemDeviceCode clientId h row now)
      (.seen h row.userId) := by
  intro w γ shared own
  rcases DeviceOp.consume_cases (env w.tick).store.fault w.db.db.clientIds w.db.devices h with
    ⟨lost, same⟩ | ⟨c, found, approved, eq⟩
  · refine ⟨.seen h row.userId, ?_, ?_⟩
    · rw [← own, Function.update_eq_self]
      exact shared.notConsumed lost same
    · simp only [World.handler_fst, execToken]
      revert lost
      generalize (DeviceOp.exec (env w.tick).store.fault w.db.db.clientIds (.consume h)
        w.db.devices).1 = answer
      intro lost
      rcases answer with _ | _ | _
      · trivial
      · trivial
      · exact absurd rfl lost
  · refine ⟨.won h row.userId, shared.consumed found approved eq own, ?_⟩
    simp only [World.handler_fst, execToken, eq]
    exact mintDeviceTokens_serves wired redeem clientId row.scope now

/-- A poll that has an approved row in hand has seen its approver. -/
theorem pollFound_serves (wired : ep.site.tokenService.tokens = some tokens.repository)
    (redeem : ∀ k, redeems ep k (calls i) = true ↔ k = h) (clientId : String) (row : DeviceCode)
    {g : Holding} (read : row.status = .approved → g = .seen h row.userId) :
    Serves env clients tokens ep calls s i (ep.pollFound clientId h row) g := by
  unfold TokenEndpoint.pollFound
  split
  · trivial
  · refine (keeps_neutral (ask_neutral _)).bind fun now g' same => ?_
    subst same
    split
    · trivial
    · split
      · exact keeps_rest (pollPending_neutral _ _ _)
      · trivial
      · next approved =>
          rw [read approved]
          exact redeemDeviceCode_serves wired redeem clientId row now
      · trivial

/-- What a look-up of the code leads to. -/
theorem runDeviceCodeLookup_serves
    (wired : ep.site.tokenService.tokens = some tokens.repository)
    (redeem : ∀ k, redeems ep k (calls i) = true ↔ k = h) (clientId : String) :
    Serves env clients tokens ep calls s i (ep.runDeviceCodeLookup clientId h) .nothing := by
  intro w γ shared own
  have kept : Shared ep calls s
      (deviceHandler env clients tokens i (.inr (.device (.selectByHash h))) w).2 γ :=
    shared.neutral trivial
  cases read : (DeviceOp.exec (env w.tick).store.fault w.db.db.clientIds (.selectByHash h)
      w.db.devices).1 with
  | none =>
      refine ⟨γ i, by rwa [Function.update_eq_self], ?_⟩
      simp only [World.handler_fst, execToken, read]
      trivial
  | some found =>
      cases found with
      | none =>
          refine ⟨γ i, by rwa [Function.update_eq_self], ?_⟩
          simp only [World.handler_fst, execToken, read]
          trivial
      | some row =>
          by_cases approved : row.status = .approved
          · refine ⟨.seen h row.userId, shared.look read approved, ?_⟩
            simp only [World.handler_fst, execToken, read]
            exact pollFound_serves wired redeem clientId row fun _ => rfl
          · refine ⟨γ i, by rwa [Function.update_eq_self], ?_⟩
            simp only [World.handler_fst, execToken, read]
            exact pollFound_serves wired redeem clientId row fun told => absurd told approved

/-- The device code grant serves the flow. -/
theorem deviceCodeGrant_serves (wired : ep.site.tokenService.tokens = some tokens.repository)
    {req : TokenRequest} {creds : ClientCredentials}
    (redeem : ∀ k, redeems ep k (calls i) = true ↔ k = hashToken ep.crypto
      (req.param "device_code")) :
    Serves env clients tokens ep calls s i (ep.deviceCodeGrant req creds) .nothing := by
  unfold TokenEndpoint.deviceCodeGrant
  dsimp only
  generalize (if creds.clientId = "" then req.param "client_id" else creds.clientId) = clientId
  split
  · trivial
  · split
    · trivial
    · refine (keeps_neutral (endpoint_neutral (.getClient _) trivial)).bind fun client g same => ?_
      subst same
      cases client with
      | none => trivial
      | some client =>
          dsimp only
          split
          · exact runDeviceCodeLookup_serves wired redeem _
          · refine (keeps_neutral (ask_neutral _)).bind fun valid g same => ?_
            subst same
            split
            · trivial
            · exact runDeviceCodeLookup_serves wired redeem _

/-- So does the choice among the grants. -/
theorem dispatchGrant_serves (wired : ep.site.tokenService.tokens = some tokens.repository)
    {req : TokenRequest} {creds : ClientCredentials} (call : calls i = .token req) :
    Serves env clients tokens ep calls s i (ep.dispatchGrant req creds) .nothing := by
  have other {p : TokenProg TokenReply} {grant : String} (eq : req.param "grant_type" = grant)
      (ne : grant ≠ "urn:ietf:params:oauth:grant-type:device_code")
      (neutral : p.Only (Neutral false)) : Serves env clients tokens ep calls s i p .nothing := by
    have noPoll : polls (calls i) = false := by
      rw [call]
      simp [polls, eq, ne]
    exact keeps_rest (noPoll ▸ neutral)
  unfold TokenEndpoint.dispatchGrant
  dsimp only
  split
  · next eq => exact other eq (by decide) (authorizationCodeGrant_neutral req creds)
  · split
    · next eq => exact other eq (by decide) (refreshTokenGrant_neutral req creds)
    · split
      · next eq => exact other eq (by decide) (clientCredentialsGrant_neutral req creds)
      · split
        · next eq =>
            refine deviceCodeGrant_serves wired fun k => ?_
            rw [call]
            simp [redeems, eq, eq_comm]
        · trivial

/-- So does the request behind the rate limit. -/
theorem gatedGrant_serves (wired : ep.site.tokenService.tokens = some tokens.repository)
    {req : TokenRequest} {creds : ClientCredentials} (call : calls i = .token req) :
    Serves env clients tokens ep calls s i (ep.gatedGrant req creds) .nothing := by
  refine (keeps_neutral (endpoint_neutral (.getClient _) trivial)).bind fun client g same => ?_
  subst same
  split
  · trivial
  · exact dispatchGrant_serves wired call

/-- **So does every request to the token endpoint**. -/
theorem token_serves (wired : ep.site.tokenService.tokens = some tokens.repository)
    {req : TokenRequest} (call : calls i = .token req) :
    Serves env clients tokens ep calls s i (ep.token req) .nothing := by
  unfold TokenEndpoint.token
  split
  · trivial
  · split
    · trivial
    · dsimp only
      refine (keeps_neutral (endpoint_neutral (.checkThrottled _) trivial)).bind
        fun limited g same => ?_
      subst same
      split
      · trivial
      · refine Keeps.bind (gatedGrant_serves wired call) fun reply g _ => ?_
        exact keeps_rest (accounted_neutral _ reply)

/-! ### Creation and approval -/

/-- So does the begin of a flow. -/
theorem createDeviceCode_serves {deviceCodeHash userCode clientId scope : String}
    {expiresAt intervalSeconds : Int} :
    Serves env clients tokens ep calls s i
      (DeviceCodeService.createDeviceCode deviceCodeHash userCode clientId scope expiresAt
        intervalSeconds) .nothing := by
  refine Keeps.stutter (fun w γ shared _ => ?_) fun _ _ _ _ => trivial
  exact shared.insert ⟨rfl, rfl⟩

/-- So does the write of an approval. -/
theorem markApproved_serves {deviceCodeHash userId : String} :
    Serves env clients tokens ep calls s i
      (DeviceCodeService.markApproved deviceCodeHash userId) .nothing := by
  refine (keeps_neutral (endpoint_neutral (.device (.selectByHash _)) trivial)).bind
    fun row g same => ?_
  subst same
  match row with
  | none => trivial
  | some none => trivial
  | some (some _) => exact Keeps.stutter (fun w γ shared _ => shared.approve) fun _ _ _ _ => trivial

/-- So does the page of the user. -/
theorem approveDevice_serves {userCode userId : String} :
    Serves env clients tokens ep calls s i (ep.approveDevice userCode userId) .nothing := by
  unfold TokenEndpoint.approveDevice
  split
  · trivial
  · split
    · trivial
    · split
      · trivial
      · refine (keeps_neutral (endpoint_neutral (.device (.selectByUserCode _)) trivial)).bind
          fun code g same => ?_
        subst same
        match code with
        | none => trivial
        | some none => trivial
        | some (some code) =>
            dsimp only
            split
            · trivial
            · refine (keeps_neutral (ask_neutral _)).bind fun now g same => ?_
              subst same
              split
              · trivial
              · refine Keeps.bind markApproved_serves fun outcome g _ => ?_
                obtain ⟨dbOk, found⟩ := outcome
                dsimp only
                split
                · trivial
                · split
                  · trivial
                  · trivial

/-- **So does every call**. -/
theorem prog_serves (wired : ep.site.tokenService.tokens = some tokens.repository) (i : ι) :
    Serves env clients tokens ep calls s i ((calls i).prog ep) .nothing := by
  cases call : calls i with
  | createDeviceCode h u c s e n => exact Keeps.bind createDeviceCode_serves fun _ _ _ => trivial
  | approveDevice c u => exact Keeps.bind approveDevice_serves fun _ _ _ => trivial
  | token req => exact Keeps.bind (token_serves wired call) fun _ _ _ => trivial

end Calls

/-! ## Runs -/

omit [DecidableEq ι] in
/-- At the start the history is what the table says. -/
theorem Inv.start (s : TokenDb) : Inv ep calls s (World.start s) fun _ => .nothing := by
  constructor
  case book =>
    intro h
    simp only [view, recorded, closed, World.start, List.filterMap_nil, List.nil_append,
      List.any_nil, Bool.false_or]
    cases s.devices.find? h with
    | none => exact ⟨rfl, rfl⟩
    | some c =>
        cases settled : c.status.open_ with
        | true => exact .inl ⟨settled, by simp [settled], by simp [settled]⟩
        | false => exact .inr ⟨settled, by simp [settled], by simp [settled]⟩
  case seen =>
    intro _ _ _ holds
    cases holds
  case won =>
    intro _ _ _ holds
    cases holds
  case alone =>
    intro _ _ _ _ _ holds
    cases holds
  case minted => exact fun _ => .inl rfl

/-- An orderly run keeps the invariant. -/
theorem runDevice_inv (env : Nat → TokenMoment) (clients : ClientRepository)
    (grants : GrantBackend) (tokens : TokenBackend) (ep : TokenEndpoint) (calls : ι → DeviceCall)
    (s : TokenDb) (sched : List ι)
    (orderly : Orderly
      (runDevice env clients tokens (ep.onStores grants tokens) calls s sched).store.log) :
    ∃ γ, Inv (ep.onStores grants tokens) calls s
      (runDevice env clients tokens (ep.onStores grants tokens) calls s sched).store γ := by
  let start : Pool TokenSig ι DeviceAnswer (DeviceWorld ι) :=
    { store := World.start s, prog := fun i => (calls i).prog (ep.onStores grants tokens) }
  have good : start.Good (deviceHandler env clients tokens)
      (Shared (ep.onStores grants tokens) calls s) (fun _ _ _ => True) :=
    ⟨fun _ => .nothing, fun _ => Inv.start s, fun i => prog_serves rfl i⟩
  obtain ⟨γ, shared, _⟩ := Pool.run_keeps good sched
  exact ⟨γ, shared orderly⟩

omit [DecidableEq ι] in
/-- A code with a recorded approver is settled for that user. -/
theorem Inv.settled {w : DeviceWorld ι} {γ : ι → Holding} {h : String} (inv : Inv ep calls s w γ)
    (approved : recorded s h w.log ≠ []) :
    ∃ c, w.db.devices.find? h = some c ∧ c.status.open_ = false ∧
      recorded s h w.log = [c.userId] ∧ (c.status = .approved ↔ closed s h w.log = false) := by
  have agrees := inv.book h
  unfold view at agrees
  cases found : w.db.devices.find? h with
  | none =>
      rw [found] at agrees
      exact absurd agrees.1 approved
  | some c =>
      rw [found] at agrees
      obtain ⟨-, none_, -⟩ | ⟨settled, one, iff⟩ := agrees
      · exact absurd none_ approved
      · exact ⟨c, rfl, settled, one, iff⟩

section Settled

variable {w w' : DeviceWorld ι} {γ γ' : ι → Holding} {h : String}

omit [DecidableEq ι] in
/-- A code is redeemed once at most. -/
theorem Inv.mints_le_one (inv : Inv ep calls s w γ) : (mints ep calls h w.log).length ≤ 1 := by
  obtain none_ | ⟨-, u, one, -⟩ := inv.minted h
  · rw [none_]
    exact Nat.zero_le 1
  · rw [one]
    exact Nat.le_refl 1

omit [DecidableEq ι] in
/-- A pair is minted for the first recorded approver. -/
theorem Inv.minted_first (inv : Inv ep calls s w γ) {u : String}
    (mem : u ∈ mints ep calls h w.log) : (recorded s h w.log).getLast? = some u := by
  obtain none_ | ⟨-, v, one, known⟩ := inv.minted h
  · rw [none_] at mem
    cases mem
  · rw [one] at mem
    rw [known, List.mem_singleton.mp mem]
    rfl

omit [DecidableEq ι] in
/-- A settled code stays settled for its user, and is not approved again. -/
theorem Inv.stays_settled (inv : Inv ep calls s w γ) (inv' : Inv ep calls s w' γ')
    {newer : List (DeviceEvent ι)} (log : w'.log = newer ++ w.log) {c : DeviceCode}
    (found : w.db.devices.find? h = some c) (settled : c.status.open_ = false) :
    ∃ c', w'.db.devices.find? h = some c' ∧ c'.status.open_ = false ∧ c'.userId = c.userId ∧
      (c'.status = .approved → c.status = .approved) := by
  have agrees := inv.book h
  unfold view at agrees
  rw [found] at agrees
  obtain ⟨open_, -⟩ | ⟨-, one, iff⟩ := agrees
  · rw [open_] at settled
    cases settled
  have grown : recorded s h w'.log = newer.filterMap (approvalOf h) ++ [c.userId] := by
    rw [log, ← one]
    simp [recorded]
  have known : recorded s h w'.log ≠ [] := by simp [grown]
  obtain ⟨c', found', settled', one', iff'⟩ := inv'.settled known
  refine ⟨c', found', settled', ?_, fun approved => iff.mpr ?_⟩
  · have last := congrArg List.getLast? (grown.symm.trans one')
    rw [List.getLast?_concat] at last
    exact (Option.some.inj last).symm
  · have unclosed := iff'.mp approved
    rw [log] at unclosed
    simp only [closed, List.any_append, Bool.or_assoc, Bool.or_eq_false_iff] at unclosed ⊢
    exact ⟨unclosed.2.1, unclosed.2.2⟩

end Settled

/-- As long as every approving `UPDATE` finds its code pending, a code yields at most one
pair, for the user whose approval was recorded first, and once settled it keeps its
user and does not go back to approved. -/
theorem device_flow_safe (env : Nat → TokenMoment) (clients : ClientRepository)
    (grants : GrantBackend) (tokens : TokenBackend) (ep : TokenEndpoint) (calls : ι → DeviceCall)
    (s : TokenDb) (sched later : List ι) (h : String)
    (orderly : Orderly
      (runDevice env clients tokens (ep.onStores grants tokens) calls s
        (sched ++ later)).store.log) :
    let before := (runDevice env clients tokens (ep.onStores grants tokens) calls s sched).store
    let after :=
      (runDevice env clients tokens (ep.onStores grants tokens) calls s (sched ++ later)).store
    (mints (ep.onStores grants tokens) calls h after.log).length ≤ 1 ∧
      (∀ u ∈ mints (ep.onStores grants tokens) calls h after.log,
        (recorded s h after.log).getLast? = some u) ∧
      ∀ c, before.db.devices.find? h = some c → c.status.open_ = false →
        ∃ c', after.db.devices.find? h = some c' ∧ c'.status.open_ = false ∧
          c'.userId = c.userId ∧ (c'.status = .approved → c.status = .approved) := by
  intro before after
  have split : after = (Pool.run (deviceHandler env clients tokens)
      (runDevice env clients tokens (ep.onStores grants tokens) calls s sched) later).store :=
    congrArg Pool.store Pool.run_append
  obtain ⟨newer, log⟩ : ∃ newer, after.log = newer ++ before.log := by
    rw [split]
    exact World.run_log _ _ _
  have orderly_before : Orderly before.log := by
    intro e mem
    have mem' : e ∈ after.log := log ▸ List.mem_append_right _ mem
    exact orderly e mem'
  obtain ⟨γ, inv⟩ := runDevice_inv env clients grants tokens ep calls s sched orderly_before
  obtain ⟨γ', inv'⟩ := runDevice_inv env clients grants tokens ep calls s (sched ++ later) orderly
  refine ⟨inv'.mints_le_one, fun u mem => inv'.minted_first mem, ?_⟩
  intro c found settled
  exact inv.stays_settled inv' log found settled

/-! ### Two approvers -/

/-- A pending code of the public client `app`. -/
def sampleCodes : TokenDb :=
  { db := Sample.db
    devices := Table.empty.assign
      { deviceCodeHash := "DEVICE", userCode := "USERCODE", clientId := "app", scope := ""
        expiresAt := 2000 } }

/-- One public client. -/
def samplePublicClients : ClientRepository :=
  (ClientStore.postgres id
    (Table.empty.assign { clientId := "app", clientType := "PUBLIC" })).repository

/-- The device asks for its tokens. -/
def samplePoll : DeviceCall :=
  .token
    { params := [("grant_type", "urn:ietf:params:oauth:grant-type:device_code"),
        ("device_code", "DEVICE"), ("client_id", "app")] }

/-- Two users approve the code and the client polls twice. -/
def sampleCalls : Fin 4 → DeviceCall
  | 0 => .approveDevice "USERCODE" "alice"
  | 1 => .approveDevice "USERCODE" "bob"
  | 2 => samplePoll
  | 3 => samplePoll

/-- The calls in the order of a schedule. -/
def sampleRun (sched : List (Fin 4)) : DeviceWorld (Fin 4) :=
  (runDevice (fun n => { store := Sample.envAt 1000 n, uuid := Sample.drawn n })
    samplePublicClients .postgres
      ((Sample.endpoint .postgres).onStores .postgres .postgres) sampleCalls
    sampleCodes sched).store

/-- Both users find the code pending; alice's approval is redeemed before bob's is
written, and then the code is redeemed again, for bob. -/
theorem second_approver :
    mints ((Sample.endpoint .postgres).onStores .postgres .postgres) sampleCalls "DEVICE"
        (sampleRun ([0, 0, 1, 1, 0, 0] ++ List.replicate 11 2 ++ [1, 1] ++
          List.replicate 14 3)).log = ["bob", "alice"] ∧
      recorded sampleCodes "DEVICE"
        (sampleRun ([0, 0, 1, 1, 0, 0] ++ List.replicate 11 2 ++ [1, 1] ++
          List.replicate 14 3)).log = ["bob", "alice"] := by
  decide

theorem device_flow_safe_redeemed :
    mints ((Sample.endpoint .postgres).onStores .postgres .postgres) sampleCalls "DEVICE"
        (sampleRun ([0, 0, 0, 0] ++ List.replicate 11 2)).log = ["alice"] ∧
      (recorded sampleCodes "DEVICE"
        (sampleRun ([0, 0, 0, 0] ++ List.replicate 11 2)).log).getLast? = some "alice" :=
  ⟨by decide,
    (device_flow_safe (fun n => { store := Sample.envAt 1000 n, uuid := Sample.drawn n })
      samplePublicClients .postgres .postgres (Sample.endpoint .postgres) sampleCalls sampleCodes
      [0, 0, 0, 0] (List.replicate 11 2) "DEVICE" (by unfold Orderly; decide)).2.1
      "alice" (by decide)⟩

end Fulla.DeviceFlow
