import Fulla.Cache.ClientTransparency

/-!
# Clients of a deleted organization

`OrganizationService::deleteOrg` suspends the clients of the organization in its
transaction, and from the commit on Postgres rejects their credentials.  The commit callback
empties the overlay of introspection and answers.  The client cache is not touched: an entry
has no owner status, and a `validateClient` that finds one does not ask Postgres.
-/

namespace Fulla

open Conc

/-! ## Rows -/

/-- The clients with the status of their owner rows, and the organization in the owner row. -/
structure OwnedClients where
  rows : Table ClientRow.clientId
  orgOf : String → Option Int
  /-- An owner row has a status. -/
  owned : ∀ clientId row, rows.find? clientId = some row → (orgOf clientId).isSome = true →
    row.ownerStatus.isSome = true

namespace OwnedClients

/-- An owner row of the organization that is active is suspended. -/
def suspendedRow (orgOf : String → Option Int) (orgId : Int) (row : ClientRow) : ClientRow :=
  if orgOf row.clientId = some orgId ∧ row.ownerStatus = some "active" then
    { row with ownerStatus := some "suspended" }
  else row

theorem suspendedRow_clientId (orgOf : String → Option Int) (orgId : Int) (row : ClientRow) :
    (suspendedRow orgOf orgId row).clientId = row.clientId := by
  unfold suspendedRow
  split <;> rfl

theorem suspendedRow_isSome {orgOf : String → Option Int} {orgId : Int} {row : ClientRow}
    (status : row.ownerStatus.isSome = true) :
    (suspendedRow orgOf orgId row).ownerStatus.isSome = true := by
  unfold suspendedRow
  split
  · rfl
  · exact status

/-- The `UPDATE oauth2_client_owners` of the cascade. -/
def suspend (orgId : Int) (w : OwnedClients) : OwnedClients where
  rows := w.rows.modify (suspendedRow w.orgOf orgId) (suspendedRow_clientId w.orgOf orgId)
  orgOf := w.orgOf
  owned clientId row found org := by
    rw [Table.find?_modify] at found
    obtain ⟨before, there, rfl⟩ := Option.map_eq_some_iff.mp found
    exact suspendedRow_isSome (w.owned clientId before there org)

/-- The rows after a suspension. -/
theorem find?_suspend (orgId : Int) (w : OwnedClients) (clientId : String) :
    (w.suspend orgId).rows.find? clientId =
      (w.rows.find? clientId).map (suspendedRow w.orgOf orgId) :=
  Table.find?_modify _ _ (suspendedRow_clientId w.orgOf orgId) _

end OwnedClients

/-! ## Operations -/

/-- What decides the answers of Postgres. -/
structure OwnerMoment where
  /-- The query fails; a look-up is then answered with nothing and a validation with no. -/
  fault : Bool := false
  /-- The transaction of the deletion commits. -/
  commits : Bool := true

/-- `PostgresClientRepository`. -/
def postgresClients (sha256 : String → String) :
    Wrapped ClientImplSig OwnedClients OwnerMoment where
  exec m
    | .getClient clientId => fun w =>
      (if m.fault then none else PostgresClientRepository.getClient w.rows clientId, w)
    | .validateClient clientId clientSecret => fun w =>
      (!m.fault && PostgresClientRepository.validateClient sha256 w.rows clientId clientSecret, w)

/-- The steps of `deleteOrg` that the cache of clients can see. -/
inductive DeletionOp where
  /-- The end of the transaction: whether it has committed. -/
  | commit (orgId : Int)
  | invalidateOwnerStatusCache
  /-- The response, and whether it says that the organization is deleted. -/
  | respond (orgId : Int) (deleted : Bool)

/-- What these steps answer. -/
abbrev DeletionSig : Sig where
  Op := DeletionOp
  Res
    | .commit _ => Bool
    | .invalidateOwnerStatusCache => Unit
    | .respond _ _ => Unit

/-- The operations of the client cache and those of a deletion. -/
abbrev OwnedClientSig := ClientCacheSig.sum DeletionSig

/-- The cache, and the statuses of the owners that introspection keeps. -/
structure OwnedClientState where
  server : CacheState OwnedClients
  /-- The overlay of introspection. -/
  ownerStatusCache : String → Option (Option String) := fun _ => none

/-- A commit suspends the clients of the organization, and a response may have dropped its caches.
-/
def execDeletion (m : CacheMoment OwnerMoment) :
    (o : DeletionOp) → OwnedClientState → DeletionSig.Res o × OwnedClientState
  | .commit orgId, s =>
    (m.around.commits,
      if m.around.commits then
        { s with server := { s.server with wrapped := s.server.wrapped.suspend orgId } }
      else s)
  | .invalidateOwnerStatusCache, s => ((), { s with ownerStatusCache := fun _ => none })
  | .respond _ _, s => ((), s)

/-- What an operation does and answers. -/
def execOwned (sha256 : String → String) (m : CacheMoment OwnerMoment) :
    (o : OwnedClientSig.Op) → OwnedClientState →
      Option (OwnedClientSig.Res o × OwnedClientState)
  | .inl o, s =>
    (execCache (postgresClients sha256) m o s.server).map fun a => (a.1, { s with server := a.2 })
  | .inr o, s =>
    some (execDeletion m o { s with server := s.server.pass (postgresClients sha256) m })

/-! ## Calls -/

/-- A call of either kind, with what it has sent into the background. -/
abbrev OwnedClientTask := Async OwnedClientSig

/-- `deleteOrg` from the end of its transaction on. -/
def OrganizationService.deleteOrgCommit (orgId : Int) : OwnedClientTask :=
  .op (.inr (.commit orgId)) fun committed =>
    if committed then
      .op (.inr .invalidateOwnerStatusCache) fun _ =>
        .op (.inr (.respond orgId true)) fun _ => .done
    else .op (.inr (.respond orgId false)) fun _ => .done

/-- A call of the client cache, or the deletion of an organization. -/
inductive OwnedClientCall where
  | client (c : ClientCall)
  | deleteOrg (orgId : Int)

/-- The task that a call starts. -/
def OwnedClientCall.prog (cfg : ClientCache) (since : Nat) : OwnedClientCall → OwnedClientTask
  | client c => (c.prog cfg since).left
  | deleteOrg orgId => OrganizationService.deleteOrgCommit orgId

abbrev OwnedClientEvent := TaskEvent OwnedClientSig OwnedClientState

/-- A call is started, or something that is in flight happens. -/
abbrev OwnedClientMove := Move OwnedClientCall (CacheMoment OwnerMoment)

/-- A run over the rows of the clients, from an empty cache. -/
def runOwned (cfg : ClientCache) (w : OwnedClients) (moves : List OwnedClientMove) :
    Tasks OwnedClientSig OwnedClientState :=
  Tasks.run (execOwned cfg.sha256) (OwnedClientCall.prog cfg)
    { store := { server := { wrapped := w } } } moves

namespace SuspendedClients

open RedisCachedClientRepository

/-! ## What is asked of a run -/

/-- The organization whose deletion the event answers with success. -/
def deletedOrg (e : OwnedClientEvent) : Option Int :=
  match e.op with
  | .inr (.respond orgId true) => some orgId
  | _ => none

/-- The deletion of the organization has been answered with success. -/
def deleted (orgId : Int) (log : List OwnedClientEvent) : Bool :=
  log.any fun e => deletedOrg e = some orgId

/-- A validation of the client that began after the deletion of the organization rejects. -/
def RejectsSuspended (clientId : String) (orgId : Int) (before : List OwnedClientEvent)
    (e : OwnedClientEvent) : Bool :=
  match e.op with
  | .inl (.callback since (.validated id ok)) =>
    !(decide (id = clientId) && ok && deleted orgId (firstOf since before))
  | _ => true

/-- A `GET` of these words finds a client. -/
def findsClient (cfg : ClientCache) (keys : CacheKeys) (now : Nat) (ws : List String) : Bool :=
  match keys.answer now ws with
  | some (some text) =>
    match deserializeClient cfg text with
    | .ok (some _) => true
    | _ => false
  | _ => false

/-- After the deletion the `GET` of the client finds no client any more. -/
def EntryGone (cfg : ClientCache) (clientId : String) (orgId : Int)
    (before : List OwnedClientEvent) (e : OwnedClientEvent) : Bool :=
  match e.op with
  | .inl (.redis (.words ws)) =>
    !(decide (getWords cfg clientId = some ws) && deleted orgId before &&
      findsClient cfg e.pre.server.keys e.post.server.clock ws)
  | _ => true

/-! ## Suspended rows -/

/-- Postgres does not show the client. -/
def Hidden (clientId : String) (w : OwnedClients) : Prop :=
  PostgresClientRepository.findActive w.rows clientId = none

theorem validateClient_of_hidden {sha256 : String → String} {clientId : String} {w : OwnedClients}
    (hidden : Hidden clientId w) (clientSecret : String) :
    PostgresClientRepository.validateClient sha256 w.rows clientId clientSecret = false := by
  rw [PostgresClientRepository.validateClient, hidden]

/-- Which clients Postgres hides. -/
theorem hidden_iff {clientId : String} {w : OwnedClients} :
    Hidden clientId w ↔ ∀ row, w.rows.find? clientId = some row → row.deleted = false →
      row.ownerStatus ≠ none ∧ row.ownerStatus ≠ some "active" := by
  unfold Hidden PostgresClientRepository.findActive
  cases w.rows.find? clientId with
  | none => simp
  | some row => simp [Option.filter_eq_none_iff]

/-- The commit hides the clients of the organization. -/
theorem suspend_hides {clientId : String} {orgId : Int} {w : OwnedClients}
    (owner : w.orgOf clientId = some orgId) : Hidden clientId (w.suspend orgId) := by
  rw [hidden_iff]
  intro row found _
  rw [OwnedClients.find?_suspend] at found
  obtain ⟨before, there, rfl⟩ := Option.map_eq_some_iff.mp found
  have status := w.owned clientId before there (by simp [owner])
  have named : before.clientId = clientId := Table.find?_key there
  unfold OwnedClients.suspendedRow
  split
  · exact ⟨by simp, by simp⟩
  · next other =>
      refine ⟨fun none => by simp [none] at status, fun active => other ⟨?_, active⟩⟩
      rw [named, owner]

/-- No deletion shows a hidden client again. -/
theorem suspend_keeps_hidden {clientId : String} {orgId : Int} {w : OwnedClients}
    (hidden : Hidden clientId w) : Hidden clientId (w.suspend orgId) := by
  rw [hidden_iff] at hidden ⊢
  intro row found live
  rw [OwnedClients.find?_suspend] at found
  obtain ⟨before, there, rfl⟩ := Option.map_eq_some_iff.mp found
  unfold OwnedClients.suspendedRow at live ⊢
  split
  · exact ⟨by simp, by simp⟩
  · next other =>
      rw [if_neg other] at live
      exact hidden before there live

/-! ## The invariant -/

section Invariant

variable {cfg : ClientCache} {clientId : String} {orgId : Int} {m : CacheMoment OwnerMoment}
  {s s' : OwnedClientState} {o : OwnedClientSig.Op} {r : OwnedClientSig.Res o}
  {log : List OwnedClientEvent}

/-- The transaction of a deletion of the organization has committed. -/
def Committed (orgId : Int) (log : List OwnedClientEvent) : Prop :=
  ∃ pre post, ⟨.inr (.commit orgId), true, pre, post⟩ ∈ log

theorem Committed.mono {log' : List OwnedClientEvent} (committed : Committed orgId log)
    (later : log <:+ log') : Committed orgId log' := by
  obtain ⟨pre, post, mem⟩ := committed
  exact ⟨pre, post, later.subset mem⟩

theorem deleted_mono {log' : List OwnedClientEvent} (answered : deleted orgId log = true)
    (later : log <:+ log') : deleted orgId log' = true := by
  rw [deleted, List.any_eq_true] at answered ⊢
  obtain ⟨e, mem, own⟩ := answered
  exact ⟨e, later.subset mem, own⟩

/-- From the commit on the client is hidden, and every answer came after its commit. -/
structure Inv (cfg : ClientCache) (clientId : String) (orgId : Int) (s : OwnedClientState)
    (log : List OwnedClientEvent) : Prop where
  owner : s.server.wrapped.orgOf clientId = some orgId
  hidden : Committed orgId log → Hidden clientId s.server.wrapped
  committed : deleted orgId log = true → Committed orgId log
  rejected : EachIn (EntryGone cfg clientId orgId) log = true →
    EachIn (RejectsSuspended clientId orgId) log = true

/-- What the code does: a deletion is answered after its commit, and a validation that began
after the answer rejects. -/
def Fits (cfg : ClientCache) (clientId : String) (orgId : Int) (log : List OwnedClientEvent) :
    OwnedClientSig.Op → Prop
  | .inl (.callback since (.validated id ok)) =>
    EachIn (EntryGone cfg clientId orgId) log = true → id = clientId →
      deleted orgId (firstOf since log) = true → ok = false
  | .inr (.respond org true) => org = orgId → Committed orgId log
  | _ => True

theorem execOwned_cache {o : CacheOp ClientImplSig ClientAnswer}
    {r : ClientCacheSig.Res o} (stepped : execOwned cfg.sha256 m (.inl o) s = some (r, s')) :
    execCache (postgresClients cfg.sha256) m o s.server = some (r, s'.server) := by
  obtain ⟨a, answered, eq⟩ := Option.map_eq_some_iff.mp stepped
  cases eq
  exact answered

/-- What the step does to the rows. -/
theorem wrapped_next (stepped : execOwned cfg.sha256 m o s = some (r, s')) :
    (s'.server.wrapped = s.server.wrapped ∧
      ∀ org pre post, (⟨o, r, s, s'⟩ : OwnedClientEvent) ≠ ⟨.inr (.commit org), true, pre, post⟩) ∨
      ∃ org, (⟨o, r, s, s'⟩ : OwnedClientEvent) = ⟨.inr (.commit org), true, s, s'⟩ ∧
        s'.server.wrapped = s.server.wrapped.suspend org := by
  cases o with
  | inl o =>
      refine .inl ⟨?_, fun org pre post eq => by cases eq⟩
      refine execCache_wrapped (P := (· = s.server.wrapped)) (execOwned_cache stepped)
        (fun _ eq => eq) ?_ rfl
      intro i _ w eq
      cases i <;> exact eq
  | inr o =>
      cases o with
      | commit org =>
          cases commits : m.around.commits with
          | true =>
              simp only [execOwned, execDeletion, commits] at stepped
              cases stepped
              exact .inr ⟨org, rfl, rfl⟩
          | false =>
              simp only [execOwned, execDeletion, commits] at stepped
              cases stepped
              exact .inl ⟨rfl, fun org pre post eq => by cases eq⟩
      | invalidateOwnerStatusCache =>
          cases stepped
          exact .inl ⟨rfl, fun org pre post eq => by cases eq⟩
      | respond org deleted =>
          cases stepped
          exact .inl ⟨rfl, fun org pre post eq => by cases eq⟩

/-- Only the response of `deleteOrg` answers a deletion. -/
theorem op_of_deletedOrg {e : OwnedClientEvent} {org : Int} (answers : deletedOrg e = some org) :
    e.op = .inr (.respond org true) := by
  unfold deletedOrg at answers
  split at answers
  · next org' eq =>
      cases answers
      exact eq
  · cases answers

theorem rejects_of_fits (fits : Fits cfg clientId orgId log o)
    (gone : EachIn (EntryGone cfg clientId orgId) log = true) :
    RejectsSuspended clientId orgId log ⟨o, r, s, s'⟩ = true := by
  unfold RejectsSuspended
  split
  · next since id ok eq =>
      obtain rfl : o = _ := eq
      by_cases named : id = clientId
      · cases answered : deleted orgId (firstOf since log) with
        | true => simp [fits gone named answered]
        | false => simp
      · simp [named]
  · rfl

/-- The invariant after a step that fits. -/
theorem Inv.next (inv : Inv cfg clientId orgId s log) (fits : Fits cfg clientId orgId log o)
    (stepped : execOwned cfg.sha256 m o s = some (r, s')) :
    Inv cfg clientId orgId s' (⟨o, r, s, s'⟩ :: log) := by
  constructor
  case owner =>
    rcases wrapped_next stepped with ⟨same, -⟩ | ⟨org, -, suspended⟩
    · rw [same]
      exact inv.owner
    · rw [suspended]
      exact inv.owner
  case hidden =>
    rintro ⟨pre, post, mem⟩
    rcases wrapped_next stepped with ⟨same, other⟩ | ⟨org, commit, suspended⟩
    · rw [same]
      rcases List.mem_cons.mp mem with now | old
      · exact absurd now.symm (other orgId pre post)
      · exact inv.hidden ⟨pre, post, old⟩
    · rw [suspended]
      rcases List.mem_cons.mp mem with now | old
      · cases now.trans commit
        exact suspend_hides inv.owner
      · exact suspend_keeps_hidden (inv.hidden ⟨pre, post, old⟩)
  case committed =>
    intro answered
    rw [deleted, List.any_cons, Bool.or_eq_true, decide_eq_true_eq] at answered
    refine Committed.mono ?_ (List.suffix_cons _ log)
    rcases answered with now | old
    · obtain rfl : o = _ := op_of_deletedOrg now
      exact fits rfl
    · exact inv.committed old
  case rejected =>
    intro gone
    obtain ⟨-, before⟩ := Bool.and_eq_true_iff.mp gone
    exact Bool.and_eq_true_iff.mpr ⟨rejects_of_fits fits before, inv.rejected before⟩

theorem inv_kept :
    Async.Kept (execOwned cfg.sha256) (Inv cfg clientId orgId) (Fits cfg clientId orgId) :=
  fun _ _ _ _ _ _ inv fits stepped => inv.next fits stepped

end Invariant

/-! ## Programs -/

section Programs

variable {cfg : ClientCache} {clientId : String} {orgId : Int} {log log₀ : List OwnedClientEvent}

/-- A deletion is safe. -/
theorem deleteOrgCommit_safe (org : Int) :
    (OrganizationService.deleteOrgCommit org).Safe (execOwned cfg.sha256) (Inv cfg clientId orgId)
      log := by
  refine .op_of_kept inv_kept (fun _ _ => trivial) fun s log' _ _ m committed s' stepped => ?_
  cases committed with
  | true =>
      refine .op_of_kept inv_kept (fun _ _ => trivial) fun _ log'' later _ _ _ _ _ => ?_
      refine .op_of_kept inv_kept (fun log₃ latest same => ?_) fun _ _ _ _ _ _ _ _ => trivial
      subst same
      exact Committed.mono ⟨s, s', List.mem_cons_self⟩
        (later.trans ((List.suffix_cons _ _).trans latest))
  | false => exact .op_of_kept inv_kept (fun _ _ => trivial) fun _ _ _ _ _ _ _ _ => trivial

/-- A look-up of a client validates nothing. -/
theorem getClient_safe (since : Nat) (id : String) :
    (getClient cfg since id).left.Safe (execOwned cfg.sha256) (Inv cfg clientId orgId) log := by
  have answer (c : Option OAuth2Client) : (reply since (.client id c)).Only
      fun o => ∀ l : List OwnedClientEvent, Fits cfg clientId orgId l (.inl o) :=
    ⟨fun _ => trivial, fun _ => trivial⟩
  have delegate : (delegateAndFill cfg since id).Only
      fun o => ∀ l : List OwnedClientEvent, Fits cfg clientId orgId l (.inl o) := by
    refine ⟨fun _ => trivial, fun client => ?_⟩
    cases client with
    | none => exact answer none
    | some c =>
        dsimp only [fillClient]
        split
        · exact ⟨⟨fun _ => trivial, fun _ => trivial⟩, answer _⟩
        · exact answer _
  refine .of_kept inv_kept (Async.left_only ?_)
  unfold getClient
  split
  · split
    · trivial
    · refine ⟨fun _ => trivial, fun found => ?_⟩
      rcases found with _ | _ | text
      · exact ⟨fun _ => trivial, answer⟩
      · exact delegate
      · rw [onClientLookup]
        split
        · trivial
        · exact answer _
        · exact delegate
  · exact delegate

/-- A validation that began at `log₀` rejects, if the deletion had been answered by then. -/
theorem reply_validated_safe {id : String} {ok : Bool} (began : log₀ <:+ log)
    (rejects : EachIn (EntryGone cfg clientId orgId) log = true → id = clientId →
      deleted orgId log₀ = true → ok = false) :
    (reply log₀.length (.validated id ok)).left.Safe (execOwned cfg.sha256)
      (Inv cfg clientId orgId) log := by
  refine .op_of_kept inv_kept (fun log' later gone named answered => ?_)
    fun _ _ _ _ _ _ _ _ => trivial
  rw [firstOf_of_suffix (began.trans later)] at answered
  exact rejects (EachIn.of_suffix gone later) named answered

/-- Postgres rejects a client it does not show. -/
theorem delegateValidation_safe (began : log₀ <:+ log) (id secret : String) :
    (delegateValidation log₀.length id secret).left.Safe (execOwned cfg.sha256)
      (Inv cfg clientId orgId) log := by
  refine .op_of_kept inv_kept (fun _ _ => trivial) fun s log' later inv m ok s' stepped => ?_
  have started := (began.trans later).trans (List.suffix_cons
    (⟨.inl (.impl (.validateClient id secret)), ok, s, s'⟩ : OwnedClientEvent) log')
  refine reply_validated_safe started fun _ named answered => ?_
  subst named
  have hidden := inv.hidden (inv.committed (deleted_mono answered (began.trans later)))
  have answer : ok = (!m.around.fault && PostgresClientRepository.validateClient cfg.sha256
      s.server.wrapped.rows id secret) := (execCache_impl (execOwned_cache stepped)).1
  rw [answer, validateClient_of_hidden hidden, Bool.and_false]

/-- **The check of a secret is safe**. -/
theorem validateClient_safe (id secret : String) :
    (validateClient cfg log.length id secret).left.Safe (execOwned cfg.sha256)
      (Inv cfg clientId orgId) log := by
  unfold validateClient
  split
  · split
    · trivial
    · next ws words =>
        refine .op_of_kept inv_kept (fun _ _ => trivial)
          fun s log' later inv m found s' stepped => ?_
        have started := later.trans
          (List.suffix_cons (⟨.inl (.redis (.words ws)), found, s, s'⟩ : OwnedClientEvent) log')
        rcases found with _ | _ | text
        · exact delegateValidation_safe started id secret
        · exact delegateValidation_safe started id secret
        · rw [onValidationLookup]
          split
          · trivial
          · next cached whole =>
              refine reply_validated_safe started fun gone named answered => ?_
              -- the entry that was found is one that should be gone
              obtain ⟨now, -⟩ := Bool.and_eq_true_iff.mp gone
              have finds : findsClient cfg s.server.keys s'.server.clock ws = true := by
                rcases execCache_redis (execOwned_cache stepped) with ⟨failed, -⟩ | ⟨hit, -⟩
                · cases failed
                · have hit : s.server.keys.answer s'.server.clock ws = some (some text) := hit.symm
                  simp only [findsClient, hit, whole]
              subst named
              simp [EntryGone, words, deleted_mono answered later, finds] at now
          · exact delegateValidation_safe started id secret
  · exact delegateValidation_safe List.suffix_rfl id secret

end Programs

/-! ## Runs -/

/-- In every run in which the entry of the client is gone whenever it is looked for after the
deletion, a validation that begins after the deletion rejects, as Postgres does. -/
theorem suspended_client_rejected (cfg : ClientCache) (w : OwnedClients)
    (moves : List OwnedClientMove) (clientId : String) (orgId : Int)
    (owner : w.orgOf clientId = some orgId)
    (gone : EachIn (EntryGone cfg clientId orgId) (runOwned cfg w moves).log = true) :
    EachIn (RejectsSuspended clientId orgId) (runOwned cfg w moves).log = true ∧
      (deleted orgId (runOwned cfg w moves).log = true → ∀ clientSecret,
        PostgresClientRepository.validateClient cfg.sha256
          (runOwned cfg w moves).store.server.wrapped.rows clientId clientSecret = false) := by
  have calls : ∀ call, Move.call call ∈ moves → ∀ (s : OwnedClientState) log,
      Inv cfg clientId orgId s log →
        (call.prog cfg log.length).Safe (execOwned cfg.sha256) (Inv cfg clientId orgId) log := by
    intro call _ s log _
    cases call with
    | deleteOrg org => exact deleteOrgCommit_safe org
    | client c =>
        cases c with
        | getClient id => exact getClient_safe log.length id
        | validateClient id secret => exact validateClient_safe id secret
  have empty : Inv cfg clientId orgId { server := { wrapped := w } } [] := by
    refine ⟨owner, ?_, fun answered => ?_, fun _ => rfl⟩
    · rintro ⟨pre, post, mem⟩
      cases mem
    · cases answered
  obtain ⟨inv, -⟩ := Tasks.run_safe calls (c := { store := { server := { wrapped := w } } })
    ⟨empty, fun f mem => by cases mem⟩
  exact ⟨inv.rejected gone, fun answered => validateClient_of_hidden
    (inv.hidden (inv.committed answered))⟩

/-! ### A confidential client that is looked up before -/

/-- The row of a client that an organization owns. -/
def sampleRow : ClientRow :=
  { clientId := "app", clientType := "CONFIDENTIAL", clientSecret := "AB", salt := "s"
    redirectUris := "https://app.example/cb", ownerStatus := some "active", scopes := ["openid"] }

/-- A table with this row. -/
def sampleClients : OwnedClients where
  rows := Table.empty.assign sampleRow
  orgOf clientId := if clientId = "app" then some 7 else none
  owned clientId row found _ := by
    rw [Table.find?_assign] at found
    split at found
    · cases found
      rfl
    · cases found

/-- The digest of the secret `pw` with the salt is the stored one. -/
def sampleCache : ClientCache :=
  { ClientTransparency.sampleCache with
    sha256 := fun text => if text = "pws" then "ab" else "" }

/-- So many steps of what is in flight. -/
def steps (n : Nat) : List OwnedClientMove :=
  List.replicate n (.happen 0 { around := {} })

/-- A look-up fills the cache, organization 7 is deleted, and the client is validated after the
given milliseconds. -/
def sampleMoves (elapsed : Nat) : List OwnedClientMove :=
  .call (.client (.getClient "app")) :: steps 4 ++ .call (.deleteOrg 7) :: steps 3 ++
    .call (.client (.validateClient "app" "pw")) ::
      .happen 0 { elapsed := elapsed, around := {} } :: steps 2

/-- The client still authenticates. -/
theorem suspended_client_accepted :
    EachIn (RejectsSuspended "app" 7) (runOwned sampleCache sampleClients (sampleMoves 0)).log =
      false := by
  decide +kernel

theorem suspended_client_rejected_expired :
    EachIn (RejectsSuspended "app" 7)
        (runOwned sampleCache sampleClients (sampleMoves 300001)).log = true ∧
      (deleted 7 (runOwned sampleCache sampleClients (sampleMoves 300001)).log = true →
        ∀ clientSecret, PostgresClientRepository.validateClient sampleCache.sha256
          (runOwned sampleCache sampleClients (sampleMoves 300001)).store.server.wrapped.rows
          "app" clientSecret = false) :=
  suspended_client_rejected sampleCache sampleClients (sampleMoves 300001) "app" 7 (by decide)
    (by decide)

end SuspendedClients

end Fulla
