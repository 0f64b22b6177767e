import Fulla.Cache.CachedClients

/-!
# What the client cache changes

A client comes back from the cache without its post-logout redirect URIs.  So a
look-up is the same through the cache as without it exactly if the entry it may read is
that of the same client and this client has no such URIs.
-/

namespace Fulla.ClientTransparency

open Conc RedisCachedClientRepository

/-! ## Entries -/

section Entries

theorem mapM_asString (items : List String) :
    (items.map Json.str).mapM Json.asString = .ok items := by
  induction items with
  | nil => rfl
  | cons s items ih =>
      rw [List.map_cons, List.mapM_cons, ih]
      rfl

theorem listAt_obj {members : List (String × Json)} {k : String} {items : List String}
    (found : members.lookup k = some (.arr (items.map Json.str))) :
    listAt (.obj members) k = .ok items := by
  simp only [listAt, found]
  exact mapM_asString items

/-- The client as the cache delivers it. -/
def forgetful (c : OAuth2Client) : OAuth2Client :=
  { c with postLogoutRedirectUris := [] }

variable {cfg : ClientCache} {c : OAuth2Client}

/-- The members of a client are read back, but for what is not kept. -/
theorem readClient_members {members : List (String × Json)}
    (same : ∀ k, members.lookup k = (clientMembers c).lookup k) :
    readClient (.obj members) c.clientId c.clientType = .ok (forgetful c) := by
  have text (k s : String) (found : (clientMembers c).lookup k = some (.str s)) :
      (Json.obj members).textAt k = .ok s := Json.textAt_obj ((same k).trans found)
  have list (k : String) (items : List String)
      (found : (clientMembers c).lookup k = some (.arr (items.map Json.str))) :
      listAt (.obj members) k = .ok items := listAt_obj ((same k).trans found)
  unfold readClient
  rw [text "clientSecretHash" _ rfl, text "salt" _ rfl, text "tokenEndpointAuthMethod" _ rfl,
    list "redirectUris" _ rfl, list "allowedScopes" _ rfl, list "allowedGrantTypes" _ rfl]
  rfl

/-- Every field comes back but the post-logout redirect URIs; without an identifier nothing
does. -/
theorem deserialize_client (reads : cfg.json.ReadsBack (clientMembers c)) :
    deserializeClient cfg (serializeClient cfg c) =
      .ok (if c.clientId = "" then none else some (forgetful c)) := by
  obtain ⟨members, parsed, same⟩ := reads
  have id : (Json.obj members).textAt "clientId" = .ok c.clientId :=
    Json.textAt_obj (same "clientId")
  have type : readClientType (.obj members) = some c.clientType := by
    have text : (Json.obj members).textAt "clientType" = .ok (clientTypeToString c.clientType) :=
      Json.textAt_obj (same "clientType")
    simp only [readClientType, text]
    exact stringToClientType_toString c.clientType
  have hasId : members.lookup "clientId" = some (.str c.clientId) := same "clientId"
  have hasType : members.lookup "clientType" = some (.str (clientTypeToString c.clientType)) :=
    same "clientType"
  simp only [deserializeClient, serializeClient, parsed, Json.hasMember_obj, hasId, hasType, id,
    type, readClient_members same, bind, Except.bind]
  by_cases empty : c.clientId = ""
  · simp [empty, pure, Except.pure]
  · simp [empty, pure, Except.pure]

end Entries

/-! ## Look-ups -/

section Lookups

variable (cfg : ClientCache) (repo : ClientRepository)

/-- The key that a look-up of the client reads, if it reads one. -/
def keyRead (clientId : String) : Option String :=
  match getWords cfg clientId with
  | some ["GET", key] => some key
  | _ => none

/-- In every run, a look-up of the client is answered with what the wrapped repository holds,
and so are the decisions about its URIs. -/
def Transparent (clientId : String) : Prop :=
  ∀ moves since r pre post,
    ⟨.callback since (.client clientId r), (), pre, post⟩ ∈ (runClients cfg repo moves).log →
      r = repo.getClient clientId ∧
        ∀ uri,
          ClientService.validateRedirectUri r uri =
              ClientService.validateRedirectUri (repo.getClient clientId) uri ∧
            ClientService.validatePostLogoutRedirectUri r uri =
              ClientService.validatePostLogoutRedirectUri (repo.getClient clientId) uri

/-- Whatever client's entry a look-up of the client may read, it is its own, and the client has
no post-logout redirect URIs. -/
def KeptWhole (clientId : String) : Prop :=
  cfg.redisClient = true → ∀ k c, keyRead cfg clientId = some (clientKey k) →
    (keyRead cfg k).isSome = true → repo.getClient k = some c → k ≠ "" →
      k = clientId ∧ c.postLogoutRedirectUris = []

/-- Every entry is the text of a client, under the key of the client. -/
structure Inv (clientId : String) (s : CacheState Unit) (log : List ClientEvent) : Prop where
  keys : ∀ key e, s.keys key = some e → ∃ k c, key = clientKey k ∧ (keyRead cfg k).isSome = true ∧
    repo.getClient k = some c ∧ e.value = serializeClient cfg c
  answered : ∀ since r pre post,
    ⟨.callback since (.client clientId r), (), pre, post⟩ ∈ log → r = repo.getClient clientId

end Lookups

section Steps

variable {cfg : ClientCache} {repo : ClientRepository} {clientId : String}
  {m : CacheMoment Unit} {s s' : CacheState Unit} {log : List ClientEvent}
  {o : ClientCacheSig.Op} {r : ClientCacheSig.Res o}

/-- What the code does: it keeps only texts of clients, and answers as the repository would. -/
def Fits (cfg : ClientCache) (repo : ClientRepository) (clientId : String) :
    ClientCacheSig.Op → Prop
  | .redis (.set key value _) => ∃ k c, key = clientKey k ∧ (keyRead cfg k).isSome = true ∧
    repo.getClient k = some c ∧ value = serializeClient cfg c
  | .callback _ (.client id r) => id = clientId → r = repo.getClient clientId
  | _ => True

/-- The invariant after a step that fits. -/
theorem Inv.next (inv : Inv cfg repo clientId s log) (fits : Fits cfg repo clientId o)
    (stepped : execCache (wrappedClients repo) m o s = some (r, s')) :
    Inv cfg repo clientId s' (⟨o, r, s, s'⟩ :: log) := by
  constructor
  case keys =>
    intro key e stored
    rcases execCache_key stepped key with same | ⟨value, ttl, set, now⟩ | ⟨_, -, gone⟩
    · exact inv.keys key e (same ▸ stored)
    · cases set
      rw [now] at stored
      cases stored
      exact fits
    · rw [gone] at stored
      cases stored
  case answered =>
    intro since r' pre post mem
    rcases List.mem_cons.mp mem with now | old
    · cases now
      exact fits rfl
    · exact inv.answered since r' pre post old

theorem inv_kept : Async.Kept (execCache (wrappedClients repo)) (Inv cfg repo clientId)
    fun _ => Fits cfg repo clientId :=
  fun _ _ _ _ _ _ inv fits stepped => inv.next fits stepped

/-- The answer of the wrapped repository, which does not change. -/
theorem reply_client_safe {since : Nat} {id : String} {r : Option OAuth2Client}
    (right : id = clientId → r = repo.getClient clientId) :
    (reply since (.client id r)).Safe (execCache (wrappedClients repo)) (Inv cfg repo clientId)
      log :=
  .op_of_kept inv_kept (fun _ _ => right) fun _ _ _ _ _ _ _ _ => trivial

theorem delegateAndFill_safe {since : Nat} {id : String}
    (readable : cfg.redisClient = true → (keyRead cfg id).isSome = true) :
    (delegateAndFill cfg since id).Safe (execCache (wrappedClients repo)) (Inv cfg repo clientId)
      log := by
  refine .op_of_kept inv_kept (fun _ _ => trivial)
    fun s log' _ inv m client s' stepped => ?_
  have answer : client = repo.getClient id := (execCache_impl stepped).1
  have right : (reply since (.client id client)).Safe (execCache (wrappedClients repo))
      (Inv cfg repo clientId) (⟨.impl (.getClient id), client, s, s'⟩ :: log') :=
    reply_client_safe fun same => same ▸ answer
  unfold fillClient
  split
  · exact right
  · next c =>
      split
      · next wired =>
          refine .send (.op_of_kept inv_kept (fun _ _ => ?_) fun _ _ _ _ _ _ _ _ => trivial) right
          exact ⟨id, c, rfl, readable wired, answer.symm, rfl⟩
      · exact right

theorem answered_words {ws : List String} {text : Option String}
    (stepped : execCache (wrappedClients repo) m (.redis (.words ws) : ClientCacheSig.Op) s =
      some (some text, s')) :
    ∃ key, ws = ["GET", key] ∧ text = s.keys.find? s'.clock key := by
  rcases execCache_redis stepped with ⟨failed, -⟩ | ⟨answer, -⟩
  · cases failed
  · have found : s.keys.answer s'.clock ws = some text := answer.symm
    unfold CacheKeys.answer at found
    split at found
    · next key => exact ⟨key, rfl, (Option.some.inj found).symm⟩
    · cases found

end Steps

/-! ## Runs -/

section Runs

variable {cfg : ClientCache} {repo : ClientRepository} {clientId : String} {log : List ClientEvent}

theorem keyRead_of_words {id : String} {ws : List String} {key : String}
    (words : getWords cfg id = some ws) (get : ws = ["GET", key]) : keyRead cfg id = some key := by
  simp only [keyRead, words, get]

/-- An entry that a look-up of `id` has found, if its own is the only one it can find. -/
theorem cached_eq (named : ∀ id c, repo.getClient id = some c → c.clientId = id)
    (reads : ∀ id c, repo.getClient id = some c → cfg.json.ReadsBack (clientMembers c))
    (kept : KeptWhole cfg repo clientId) (wired : cfg.redisClient = true) {s : CacheState Unit}
    (inv : Inv cfg repo clientId s log) {now : Nat} {key text : String}
    (read : keyRead cfg clientId = some key) (found : s.keys.find? now key = some text)
    {cached : OAuth2Client} (hit : deserializeClient cfg text = .ok (some cached)) :
    some cached = repo.getClient clientId := by
  obtain ⟨e, stored, -, value⟩ := CacheKeys.find?_eq_some.mp found
  obtain ⟨k, c, rfl, readable, has, filled⟩ := inv.keys key e stored
  rw [← value, filled, deserialize_client (reads k c has), named k c has] at hit
  split at hit
  · cases hit
  · next nonempty =>
      obtain ⟨rfl, none_⟩ := kept wired k c read readable has nonempty
      have same : forgetful c = c := by
        rw [forgetful, ← none_]
      rw [has, ← Option.some.inj (Except.ok.inj hit), same]

/-- **A look-up is safe**. -/
theorem getClient_safe (named : ∀ id c, repo.getClient id = some c → c.clientId = id)
    (reads : ∀ id c, repo.getClient id = some c → cfg.json.ReadsBack (clientMembers c))
    (kept : KeptWhole cfg repo clientId) (since : Nat) (id : String) :
    (getClient cfg since id).Safe (execCache (wrappedClients repo))
      (Inv cfg repo clientId) log := by
  unfold getClient
  split
  · next wired =>
      split
      · trivial
      · next ws words =>
          refine .op_of_kept inv_kept (fun _ _ => trivial)
            fun s log' _ inv m found s' stepped => ?_
          match found, stepped with
          | none, _ =>
              refine .op_of_kept inv_kept (fun _ _ => trivial)
                fun _ _ _ _ _ client _ stepped => ?_
              exact reply_client_safe fun same => same ▸ (execCache_impl stepped).1
          | some none, stepped =>
              obtain ⟨key, get, -⟩ := answered_words stepped
              exact delegateAndFill_safe fun _ => by rw [keyRead_of_words words get]; rfl
          | some (some text), stepped =>
              obtain ⟨key, get, hit⟩ := answered_words stepped
              have read := keyRead_of_words words get
              dsimp only [onClientLookup]
              split
              · trivial
              · next cached whole =>
                  apply reply_client_safe
                  intro same
                  subst same
                  exact cached_eq named reads kept wired inv read hit.symm whole
              · exact delegateAndFill_safe fun _ => by rw [read]; rfl
  · next unwired => exact delegateAndFill_safe fun wired => absurd wired unwired

/-- So is the check of a secret. -/
theorem validateClient_safe (since : Nat) (id secret : String) :
    (validateClient cfg since id secret).Safe (execCache (wrappedClients repo))
      (Inv cfg repo clientId) log := by
  have answer (ok : Bool) : (reply since (.validated id ok)).Only (Fits cfg repo clientId) :=
    ⟨trivial, fun _ => trivial⟩
  have delegate : (delegateValidation since id secret).Only (Fits cfg repo clientId) :=
    ⟨trivial, answer⟩
  refine .of_only (P := Fits cfg repo clientId) ?_ fun _ fits _ _ inv _ _ _ stepped =>
    inv.next fits stepped
  unfold validateClient
  split
  · split
    · trivial
    · refine ⟨trivial, fun found => ?_⟩
      match found with
      | none => exact delegate
      | some none => exact delegate
      | some (some text) =>
          dsimp only [onValidationLookup]
          split
          · trivial
          · exact answer _
          · exact delegate
  · exact delegate

/-- A client that is kept whole is transparent. -/
theorem transparent_of_keptWhole (named : ∀ id c, repo.getClient id = some c → c.clientId = id)
    (reads : ∀ id c, repo.getClient id = some c → cfg.json.ReadsBack (clientMembers c))
    (kept : KeptWhole cfg repo clientId) : Transparent cfg repo clientId := by
  intro moves since r pre post mem
  have calls : ∀ call, Move.call call ∈ moves → ∀ (s : CacheState Unit) log,
      Inv cfg repo clientId s log →
        (call.prog cfg log.length).Safe (execCache (wrappedClients repo)) (Inv cfg repo clientId)
          log := by
    intro call _ s log _
    cases call with
    | getClient id => exact getClient_safe named reads kept log.length id
    | validateClient id secret => exact validateClient_safe log.length id secret
  have empty : Inv cfg repo clientId { wrapped := () } [] :=
    ⟨fun _ _ eq => (nomatch eq), fun _ _ _ _ mem => (nomatch mem)⟩
  obtain ⟨inv, -⟩ := Tasks.run_safe calls (c := { store := { wrapped := () } })
    ⟨empty, fun _ mem => nomatch mem⟩
  have same := inv.answered since r pre post mem
  rw [same]
  exact ⟨rfl, fun _ => ⟨rfl, rfl⟩⟩

/-! ### The other direction -/

theorem words_of_keyRead {id key : String} (read : keyRead cfg id = some key) :
    getWords cfg id = some ["GET", key] := by
  unfold keyRead at read
  split at read
  · next key' words => rw [words, Option.some.inj read]
  · cases read

/-- Look up client `k` and let everything happen: its entry is written. -/
def fillMoves (k : String) : List ClientMove :=
  .call (.getClient k) :: List.replicate 4 (.happen 0 { around := () })

/-- A look-up, and the two steps it takes. -/
def readMoves (clientId : String) : List ClientMove :=
  .call (.getClient clientId) :: List.replicate 2 (.happen 0 { around := () })

/-- Two moves fill the entry of a client. -/
theorem run_fillMoves (wired : cfg.redisClient = true) {k key : String} {c : OAuth2Client}
    (readable : keyRead cfg k = some key) (has : repo.getClient k = some c) :
    ∃ log, runClients cfg repo (fillMoves k) =
      { store :=
          { keys := CacheKeys.set (fun _ => none) (clientKey k)
              { value := serializeClient cfg c, expireAt := cfg.ttl * 1000 }
            wrapped := () }
        log := log } := by
  have words := words_of_keyRead readable
  simp [runClients, fillMoves, Tasks.run, Tasks.move, ClientCall.prog, getClient, wired, words,
    Async.flights, execCache, CacheState.pass, RedisCommand.exec, CacheKeys.answer, CacheKeys.find?,
    onClientLookup, delegateAndFill, wrappedClients, has, fillClient, Async.send, reply]

/-- A look-up after them is a hit. -/
theorem hit_after_fill (wired : cfg.redisClient = true) {k key : String} {c : OAuth2Client}
    (read : keyRead cfg clientId = some (clientKey k)) (readable : keyRead cfg k = some key)
    (has : repo.getClient k = some c) (reads : cfg.json.ReadsBack (clientMembers c))
    (nonempty : c.clientId ≠ "") :
    ∃ since pre post, ⟨.callback since (.client clientId (some (forgetful c))), (), pre, post⟩ ∈
      (runClients cfg repo (fillMoves k ++ readMoves clientId)).log := by
  have words := words_of_keyRead read
  have whole : deserializeClient cfg (serializeClient cfg c) = .ok (some (forgetful c)) := by
    rw [deserialize_client reads, if_neg nonempty]
  obtain ⟨log, filled⟩ := run_fillMoves wired readable has
  have there : (CacheKeys.set (fun _ => none) (clientKey k)
      { value := serializeClient cfg c, expireAt := cfg.ttl * 1000 }).find? 0 (clientKey k) =
        some (serializeClient cfg c) :=
    CacheKeys.find?_eq_some.mpr ⟨_, Function.update_self .., Nat.zero_le _, rfl⟩
  rw [runClients, Tasks.run_append, ← runClients, filled]
  simp [readMoves, Tasks.run, Tasks.move, ClientCall.prog, getClient, wired, words, Async.flights,
    execCache, CacheState.pass, RedisCommand.exec, CacheKeys.answer, there, onClientLookup, whole,
    reply]
  exact ⟨_, _, _, .inl ⟨rfl, rfl, rfl⟩⟩

/-- A client is the same through the cache as without it exactly if it is kept whole there. -/
theorem cached_clients_transparent_iff (cfg : ClientCache) (repo : ClientRepository)
    (named : ∀ id c, repo.getClient id = some c → c.clientId = id)
    (reads : ∀ id c, repo.getClient id = some c → cfg.json.ReadsBack (clientMembers c))
    (clientId : String) : Transparent cfg repo clientId ↔ KeptWhole cfg repo clientId := by
  refine ⟨fun transparent wired k c read readable has nonempty => ?_,
    transparent_of_keptWhole named reads⟩
  obtain ⟨key, readable⟩ := Option.isSome_iff_exists.mp readable
  have id : c.clientId = k := named k c has
  obtain ⟨since, pre, post, mem⟩ := hit_after_fill wired read readable has (reads k c has)
    (id ▸ nonempty)
  have same : some (forgetful c) = repo.getClient clientId :=
    (transparent _ since _ pre post mem).1
  have own : k = clientId := by
    rw [← named clientId _ same.symm, ← id]
    rfl
  subst own
  rw [has] at same
  refine ⟨rfl, ?_⟩
  rw [← Option.some.inj same]
  rfl

end Runs

/-! ### A client with a whitelist for the log-out -/

/-- A confidential client. -/
def sampleApp : OAuth2Client :=
  { clientId := "app", clientType := .confidential, clientSecretHash := "AB", salt := "s"
    redirectUris := ["https://app.example/cb"], allowedScopes := ["openid"]
    postLogoutRedirectUris := ["https://app.example/bye"] }

/-- A public client. -/
def sampleWeb : OAuth2Client :=
  { clientId := "web", redirectUris := ["https://web.example/cb"] }

/-- A repository with both. -/
def sampleRepo : ClientRepository :=
  (ClientStore.memory ((Table.empty.assign sampleApp).assign sampleWeb)).repository

/-- jsoncpp writes the members in the order of their names. -/
def sampleAppText : String :=
  r#"{"allowedGrantTypes":[],"allowedScopes":["openid"],"clientId":"app","# ++
    r#""clientSecretHash":"AB","clientType":"CONFIDENTIAL","# ++
    r#""redirectUris":["https://app.example/cb"],"salt":"s","# ++
    r#""tokenEndpointAuthMethod":""}"#

/-- The text of the public client's entry. -/
def sampleWebText : String :=
  r#"{"allowedGrantTypes":[],"allowedScopes":[],"clientId":"web","# ++
    r#""clientSecretHash":"","clientType":"PUBLIC","# ++
    r#""redirectUris":["https://web.example/cb"],"salt":"","# ++
    r#""tokenEndpointAuthMethod":""}"#

/-- A JSON library that knows two texts. -/
def sampleJson : JsonText where
  write
    | .obj (("clientId", .str "app") :: _) => sampleAppText
    | _ => sampleWebText
  parse s :=
    if s = sampleAppText then some (.obj (clientMembers sampleApp))
    else if s = sampleWebText then some (.obj (clientMembers sampleWeb))
    else none

/-- A text without `%` is cut at its spaces. -/
def sampleCache : ClientCache where
  json := sampleJson
  sha256 := id
  formatCommand text := some (splitSpaces text)

theorem sampleCache_reads (id : String) (c : OAuth2Client)
    (found : sampleRepo.getClient id = some c) :
    sampleCache.json.ReadsBack (clientMembers c) := by
  have stored : c = sampleWeb ∨ c = sampleApp := by
    have looked : (if id = sampleWeb.clientId then some sampleWeb
        else if id = sampleApp.clientId then some sampleApp else none) = some c := by
      simpa [sampleRepo, ClientStore.repository, MemoryClientRepository.getClient] using found
    split at looked
    · exact .inl (Option.some.inj looked).symm
    · split at looked
      · exact .inr (Option.some.inj looked).symm
      · cases looked
  have other : sampleWebText ≠ sampleAppText := by decide
  rcases stored with rfl | rfl
  · refine ⟨clientMembers sampleWeb, ?_, fun _ => rfl⟩
    have written : sampleJson.write (.obj (clientMembers sampleWeb)) = sampleWebText := by
      decide +kernel
    rw [show sampleCache.json = sampleJson from rfl, written]
    simp only [sampleJson, other, if_false, if_true]
  · refine ⟨clientMembers sampleApp, ?_, fun _ => rfl⟩
    have written : sampleJson.write (.obj (clientMembers sampleApp)) = sampleAppText := by
      decide +kernel
    rw [show sampleCache.json = sampleJson from rfl, written]
    simp only [sampleJson, if_true]

/-- On a hit the log-out of `app` is refused its own URI. -/
theorem post_logout_refused_on_hit :
    ¬ Transparent sampleCache sampleRepo "app" := by
  intro transparent
  have read : keyRead sampleCache "app" = some (clientKey "app") := by decide
  have hit : ∃ since pre post, ⟨.callback since (.client "app" (some (forgetful sampleApp))), (),
      pre, post⟩ ∈ (runClients sampleCache sampleRepo (fillMoves "app" ++ readMoves "app")).log :=
    hit_after_fill rfl read read rfl (sampleCache_reads "app" sampleApp rfl) (by decide)
  obtain ⟨since, pre, post, mem⟩ := hit
  have same := ((transparent _ since _ pre post mem).2 "https://app.example/bye").2
  exact absurd same (by decide)

theorem cached_clients_transparent_iff_sample :
    Transparent sampleCache sampleRepo "web" ∧ ¬ KeptWhole sampleCache sampleRepo "app" := by
  have named (id : String) (c : OAuth2Client) (found : sampleRepo.getClient id = some c) :
      c.clientId = id := ClientStore.getClient_clientId found
  constructor
  · apply (cached_clients_transparent_iff sampleCache sampleRepo named sampleCache_reads "web").mpr
    intro _ k c read _ has _
    have own : clientKey k = clientKey "web" := by
      rw [← Option.some.inj (read.symm.trans (by decide : _ = some (clientKey "web")))]
    have web : k = "web" := (String.append_right_inj _).mp own
    subst web
    cases has
    exact ⟨rfl, rfl⟩
  · intro kept
    have whole := kept rfl "app" sampleApp (by decide) (by decide) rfl (by decide)
    exact absurd whole.2 (by decide)

end Fulla.ClientTransparency
