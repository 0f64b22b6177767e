import Fulla.Conc.Table
import Fulla.Conc.Track
import Fulla.Identity.RandomSource
import Fulla.Identity.UserRows
import Fulla.Model.JsonText
import Fulla.Model.RedisFormat
import Mathlib.Algebra.Group.Int.Defs

/-!
# Linking social accounts

`SocialLinkService.cc` with `PostgresSocialAccountRepository.cc` and
`RedisSocialLinkStateStore.cc`, as programs with one operation for every statement, every Redis
command and every exchange with a provider.  Each statement is committed on its own, so the
steps of any number of calls interleave.

The table of mappings has one constraint, that a provider's subject occurs once.  That a user has
one link for a provider is a rule of the service, which reads and then inserts.
-/

namespace Fulla

open Conc

/-- A link as the user sees it. -/
structure SocialLinkEntry where
  provider : String := ""
  subject : String := ""
deriving DecidableEq, Repr

/-- The account behind a link. -/
structure SocialAccountLookup where
  userId : Int32 := 0
  username : String := ""
  publicSub : String := ""
deriving DecidableEq, Repr

/-- The results of a look-up. -/
inductive SocialLinkStatus where
  | linked
  | noMapping
  | accountUnavailable
  | repositoryError
deriving DecidableEq, Repr

/-- The results of a write. -/
inductive LinkMutationStatus where
  | inserted
  | conflict
  | deleted
  | noLink
  | error
deriving DecidableEq, Repr

/-- The results of an operation. -/
inductive SocialLinkOpStatus where
  | ok
  | invalidProvider
  | notConfigured
  | exchangeFailed
  | alreadyLinkedToSelf
  | alreadyLinkedToOtherUser
  | providerConflictForUser
  | noLink
  | lastCredentialGuard
  | invalidState
  | repositoryError
deriving DecidableEq, Repr

/-- What an operation answers. -/
structure SocialLinkOpResult where
  status : SocialLinkOpStatus := .repositoryError
  errorCode : String := ""
  entry : SocialLinkEntry := {}
  state : String := ""
  lockoutRiskObserved : Bool := false
deriving DecidableEq, Repr

/-- What is kept under a state. -/
structure SocialLinkStateData where
  internalUserId : Int32 := 0
  provider : String := ""
deriving DecidableEq, Repr

/-! ## The stores -/

/-- A row of `oauth2_subject_mappings`. -/
structure SubjectMapping where
  provider : String
  subject : String
  internalUserId : Int32
deriving DecidableEq, Repr

/-- A key of Redis with the time of the server, in milliseconds, at which it is gone. -/
structure LinkStateEntry where
  key : String
  value : String
  expireAt : Nat
deriving DecidableEq, Repr

/-- The tables and keys that the service uses. -/
structure SocialStore where
  mappings : List SubjectMapping := []
  users : List UserRow := []
  /-- The credentials of `webauthn_credentials`, each with its user. -/
  credentials : List (Int32 × String) := []
  redis : Table LinkStateEntry.key := .empty
  /-- The clock of the Redis server, in milliseconds. -/
  clock : Nat := 0

namespace SocialStore

/-- The rows that `listForUser` answers with. -/
def links (s : SocialStore) (userId : Int32) : List SubjectMapping :=
  s.mappings.filter fun m => m.internalUserId = userId ∧ m.provider ≠ "local"

/-- The unique key of the table. -/
def claimed (s : SocialStore) (provider subject : String) : Bool :=
  s.mappings.any fun m => m.provider = provider ∧ m.subject = subject

/-- `password_hash LIKE '$pbkdf2-sha256$%'` -/
def usablePassword (s : SocialStore) (userId : Int32) : Bool :=
  s.users.any fun u => u.id = userId.toInt ∧ u.deleted = false ∧
    "$pbkdf2-sha256$".toList.isPrefixOf u.passwordHash.toList

/-- The credentials of a user. -/
def passkeys (s : SocialStore) (userId : Int32) : List String :=
  (s.credentials.filter fun c => c.1 = userId).map Prod.snd

/-- The value under a key that is not gone. -/
def linkState (s : SocialStore) (key : String) : Option String :=
  ((s.redis.find? key).filter fun e => s.clock < e.expireAt).map LinkStateEntry.value

end SocialStore

/-- The operations of a call. -/
inductive SocialOp where
  | secureRandomBytes
  /-- `SET key value NX EX seconds` -/
  | setNxEx (key value : String) (seconds : Nat)
  | getDel (key : String)
  | fetchProfile (code : String)
  | googleLogin (code : String)
  | weChatLogin (code : String)
  | findMapping (provider subject : String)
  | findLiveUser (userId : Int32)
  | nowSeconds
  | listForUser (userId : Int32)
  | insertMapping (provider subject : String) (userId : Int32)
  | deleteMappings (provider : String) (userId : Int32)
  | findUsablePassword (userId : Int32)
  | findCredentials (userId : Int32)
deriving DecidableEq, Repr

/-- What an insert of a mapping comes to. -/
inductive InsertOutcome where
  | inserted
  | uniqueViolation
  | failed
deriving DecidableEq, Repr

/-- None is an exception of the database or of Redis. -/
abbrev SocialSig : Sig where
  Op := SocialOp
  Res
    | .secureRandomBytes => Draw 16
    | .setNxEx _ _ _ => Option Bool
    | .getDel _ => Option (Option String)
    | .fetchProfile _ => String × Int64
    | .googleLogin _ => String × String
    | .weChatLogin _ => String × String
    | .findMapping _ _ => Option (Option Int32)
    | .findLiveUser _ => Option (Option UserRow)
    | .nowSeconds => Int
    | .listForUser _ => Option (List SocialLinkEntry)
    | .insertMapping _ _ _ => InsertOutcome
    | .deleteMappings _ _ => Option Nat
    | .findUsablePassword _ => Option Bool
    | .findCredentials _ => Option (List String)

/-- A call of the service. -/
abbrev SocialProg := Prog SocialSig

def social (o : SocialOp) : SocialProg (SocialSig.Res o) :=
  Prog.call (S := SocialSig) o

/-- What the surroundings decide about one step. -/
structure SocialMoment where
  /-- The statement or the command fails. -/
  fault : Bool := false
  /-- The time of the Redis server until the next step, in milliseconds. -/
  elapsed : Nat := 0
  /-- The clock of the application. -/
  now : Int := 0
  draw : Draw 16 := .failed 16
  /-- The error code and the subject, or the GitHub id, that the provider answers with. -/
  errorCode : String := ""
  subject : String := ""
  githubId : Int64 := 0

/-- One statement, command or exchange. -/
def execSocialOp (m : SocialMoment) (s : SocialStore) :
    (o : SocialOp) → SocialSig.Res o × SocialStore
  | .secureRandomBytes => (m.draw, s)
  | .setNxEx key value seconds =>
    if m.fault then (none, s)
    else if (s.linkState key).isSome then (some false, s)
    else (some true, { s with redis := s.redis.assign ⟨key, value, s.clock + seconds * 1000⟩ })
  | .getDel key =>
    if m.fault then (none, s)
    else (some (s.linkState key), { s with redis := s.redis.erase key })
  | .fetchProfile _ => ((m.errorCode, m.githubId), s)
  | .googleLogin _ => ((m.errorCode, m.subject), s)
  | .weChatLogin _ => ((m.errorCode, m.subject), s)
  | .findMapping provider subject =>
    if m.fault then (none, s)
    else
      let row := s.mappings.find? fun r => r.provider = provider ∧ r.subject = subject
      (some (row.map SubjectMapping.internalUserId), s)
  | .findLiveUser userId =>
    if m.fault then (none, s)
    else (some (s.users.find? fun u => u.id = userId.toInt ∧ u.deleted = false), s)
  | .nowSeconds => (m.now, s)
  | .listForUser userId =>
    if m.fault then (none, s)
    else (some ((s.links userId).map fun r => ⟨r.provider, r.subject⟩), s)
  | .insertMapping provider subject userId =>
    if m.fault then (.failed, s)
    else if s.claimed provider subject then (.uniqueViolation, s)
    else (.inserted, { s with mappings := s.mappings ++ [⟨provider, subject, userId⟩] })
  | .deleteMappings provider userId =>
    if m.fault then (none, s)
    else
      (some (s.mappings.countP fun r => r.provider = provider ∧ r.internalUserId = userId),
        { s with
          mappings := s.mappings.filter fun r =>
            ¬ (r.provider = provider ∧ r.internalUserId = userId) })
  | .findUsablePassword userId =>
    if m.fault then (none, s) else (some (s.usablePassword userId), s)
  | .findCredentials userId =>
    if m.fault then (none, s) else (some (s.passkeys userId), s)

/-- Nothing waits here, and time passes after every step. -/
def execSocial {ι : Type} : Attempt SocialSig ι SocialStore SocialMoment := fun m _ o s =>
  some ((execSocialOp m s o).1, { (execSocialOp m s o).2 with clock := s.clock + m.elapsed })

/-! ## The repositories -/

namespace PostgresSocialAccountRepository

/-- `findLinkedUser`: the mapping and then the account. -/
def findLinkedUser (provider subject : String) :
    SocialProg (SocialLinkStatus × SocialAccountLookup) := do
  match ← social (.findMapping provider subject) with
  | none => return (.repositoryError, {})
  | some none => return (.noMapping, {})
  | some (some userId) =>
    match ← social (.findLiveUser userId) with
    | none => return (.repositoryError, {})
    | some none => return (.accountUnavailable, {})
    | some (some user) =>
      let now : Int ← social .nowSeconds
      if user.lockedUntil > now then return (.accountUnavailable, {})
      else return (.linked,
        { userId := userId, username := user.username, publicSub := user.publicSub })

/-- The links of a user. -/
def listForUser (userId : Int32) : SocialProg (Option (List SocialLinkEntry)) :=
  social (.listForUser userId)

/-- A link is inserted; a duplicate key is a conflict. -/
def insertLink (provider subject : String) (userId : Int32) : SocialProg LinkMutationStatus := do
  match ← social (.insertMapping provider subject userId) with
  | .inserted => return .inserted
  | .uniqueViolation => return .conflict
  | .failed => return .error

/-- The links to a provider are deleted. -/
def deleteLink (provider : String) (userId : Int32) : SocialProg LinkMutationStatus := do
  match ← social (.deleteMappings provider userId) with
  | none => return .error
  | some count => return if count > 0 then .deleted else .noLink

/-- Whether the account can log in without a link. -/
def userHasUsablePassword (userId : Int32) : SocialProg (Option Bool) :=
  social (.findUsablePassword userId)

end PostgresSocialAccountRepository

/-- `PostgresWebAuthnRepository::listCredentials`: a failed query is an empty list. -/
def listCredentials (userId : Int32) : SocialProg (List String) := do
  match ← social (.findCredentials userId) with
  | none => return []
  | some credentials => return credentials

/-! ## The store of link states -/

/-- With what was injected and how jsoncpp writes and reads. -/
structure RedisSocialLinkStateStore where
  redisClient : Bool := true
  cryptoProvider : Bool := true
  /-- The argument of the constructor. -/
  ttlArgument : Int32 := 600
  json : JsonText

namespace RedisSocialLinkStateStore

/-- Ten minutes, unless configured. -/
def ttlSeconds (store : RedisSocialLinkStateStore) : Nat :=
  if store.ttlArgument > 0 then store.ttlArgument.toInt.toNat else 600

/-- The key of a state. -/
def stateKey (token : String) : String :=
  "social_link_state:" ++ token

/-- What is written for a state. -/
def encodedMembers (data : SocialLinkStateData) : List (String × Json) :=
  [("user_id", .int data.internalUserId.toInt), ("provider", .str data.provider)]

/-- The text that is stored for a state. -/
def encodeValue (store : RedisSocialLinkStateStore) (data : SocialLinkStateData) : String :=
  store.json.write (.obj (encodedMembers data))

/-- `isNumeric` and `asInt`, which throws outside of its range. -/
def userIdMember : Json → Except String Int32
  | .int n =>
    if -2 ^ 31 ≤ n ∧ n < 2 ^ 31 then .ok (Int32.ofInt n) else .error "LargestInt out of Int range"
  | .real text => do
    let n ← (Json.real text).asInt64
    if -2 ^ 31 ≤ n ∧ n < 2 ^ 31 then .ok (Int32.ofInt n) else .error "double out of Int range"
  | _ => .ok 0

/-- The provider of a stored state. -/
def providerMember : Json → String
  | .str provider => provider
  | _ => ""

/-- The error is an exception: of `isMember` for a value that is no object, or of `asInt`. -/
def decodeValue (store : RedisSocialLinkStateStore) (value : String) :
    Except String SocialLinkStateData :=
  match store.json.parse value with
  | none => .ok {}
  | some json => do
    let hasUser ← json.hasMember "user_id"
    let internalUserId ← if hasUser then userIdMember (json.get "user_id") else .ok 0
    let hasProvider ← json.hasMember "provider"
    return {
      internalUserId := internalUserId
      provider := if hasProvider then providerMember (json.get "provider") else "" }

/-- Two hex digits for every byte. -/
def hexToken (raw : List UInt8) : String :=
  String.ofList (raw.flatMap fun byte =>
    [Nat.digitChar (byte.toNat / 16), Nat.digitChar (byte.toNat % 16)])

/-- A state is drawn and stored, if no other is under its key. -/
def issue (store : RedisSocialLinkStateStore) (internalUserId : Int32) (provider : String) :
    SocialProg (Option String) :=
  if store.redisClient = false ∨ store.cryptoProvider = false then return none
  else do
    let draw : Draw 16 ← social .secureRandomBytes
    if draw.ok = false then return none
    else
      let token := hexToken draw.random
      let value := store.encodeValue { internalUserId := internalUserId, provider := provider }
      match ← social (.setNxEx (stateKey token) value store.ttlSeconds) with
      | some true => return some token
      | _ => return none

/-- The command is given the state as a C string.  The answer of a callback that throws never
comes; no exchange follows it either way. -/
def consume (store : RedisSocialLinkStateStore) (state : String) :
    SocialProg (Option SocialLinkStateData) :=
  if store.redisClient = false ∨ state = "" then return none
  else do
    match ← social (.getDel (stateKey (RedisFormat.cString state))) with
    | some (some value) =>
      match store.decodeValue value with
      | .ok data => return some data
      | .error _ => return none
    | _ => return none

end RedisSocialLinkStateStore

/-! ## The service -/

/-- What the service is injected with. -/
structure SocialLinkService where
  gitHubService : Bool := true
  googleService : Bool := true
  weChatService : Bool := true
  accountRepo : Bool := true
  webAuthnRepo : Bool := true
  stateStore : Option RedisSocialLinkStateStore

namespace SocialLinkService

open PostgresSocialAccountRepository

/-- The provider is GitHub. -/
def isGithub (provider : String) : Bool :=
  provider = "github"

/-- The provider is Google. -/
def isGoogle (provider : String) : Bool :=
  provider = "google"

/-- The provider is WeChat. -/
def isWeChat (provider : String) : Bool :=
  provider = "wechat"

/-- The provider is one of the three. -/
def isValidProvider (provider : String) : Bool :=
  isGithub provider || isGoogle provider || isWeChat provider

/-- `SocialLinkService::beginLink`. -/
def beginLink (svc : SocialLinkService) (provider : String) (internalUserId : Int32) :
    SocialProg SocialLinkOpResult :=
  if isValidProvider provider = false then return { status := .invalidProvider }
  else
    match svc.stateStore with
    | none => return { status := .notConfigured }
    | some store => do
      match ← store.issue internalUserId provider with
      | none => return { status := .notConfigured }
      | some token => return { status := .ok, state := token }

/-- What follows once the provider has named a subject. -/
def onSubject (provider : String) (internalUserId : Int32) (errorCode subject : String) :
    SocialProg SocialLinkOpResult :=
  if errorCode ≠ "" ∨ subject = "" then
    return {
      status := .exchangeFailed
      errorCode := if errorCode = "" then "VALIDATION_INVALID_INPUT" else errorCode }
  else do
    let (status, existing) ← findLinkedUser provider subject
    match status with
    | .linked =>
      return {
        status :=
          if existing.userId = internalUserId then .alreadyLinkedToSelf
          else .alreadyLinkedToOtherUser }
    | .accountUnavailable => return { status := .alreadyLinkedToOtherUser }
    | .repositoryError => return { status := .repositoryError }
    | .noMapping =>
      match ← listForUser internalUserId with
      | none => return { status := .repositoryError }
      | some entries =>
        if entries.any (fun e => e.provider = provider) then
          return { status := .providerConflictForUser }
        else
          match ← insertLink provider subject internalUserId with
          | .inserted => return { status := .ok, entry := ⟨provider, subject⟩ }
          | .conflict => return { status := .alreadyLinkedToOtherUser }
          | _ => return { status := .repositoryError }

/-- The code is exchanged for a subject. -/
def proceedWithExchange (svc : SocialLinkService) (provider code : String)
    (internalUserId : Int32) : SocialProg SocialLinkOpResult :=
  if isGithub provider then
    if svc.gitHubService = false then return { status := .notConfigured }
    else do
      let profile : String × Int64 ← social (.fetchProfile code)
      onSubject provider internalUserId profile.1 (toString profile.2.toInt)
  else if isGoogle provider then
    if svc.googleService = false then return { status := .notConfigured }
    else do
      let profile : String × String ← social (.googleLogin code)
      onSubject provider internalUserId profile.1 profile.2
  else
    if svc.weChatService = false then return { status := .notConfigured }
    else do
      let profile : String × String ← social (.weChatLogin code)
      onSubject provider internalUserId profile.1 profile.2

/-- `SocialLinkService::linkAccount`. -/
def linkAccount (svc : SocialLinkService) (provider code state : String)
    (internalUserId : Int32) : SocialProg SocialLinkOpResult :=
  if isValidProvider provider = false then return { status := .invalidProvider }
  else if svc.accountRepo = false then return { status := .notConfigured }
  else
    match svc.stateStore with
    | none => return { status := .notConfigured }
    | some store => do
      match ← store.consume state with
      | none => return { status := .invalidState }
      | some bound =>
        if bound.internalUserId ≠ internalUserId ∨ bound.provider ≠ provider then
          return { status := .invalidState }
        else svc.proceedWithExchange provider code internalUserId

/-- After the delete of one of several links: whether the user is left without a credential. -/
def recheck (svc : SocialLinkService) (internalUserId : Int32) : SocialProg Bool := do
  match ← listForUser internalUserId with
  | none => return false
  | some remaining =>
    if remaining ≠ [] then return false
    else
      match ← userHasUsablePassword internalUserId with
      | none => return false
      | some true => return false
      | some false =>
        if svc.webAuthnRepo = false then return false
        else do
          let creds ← listCredentials internalUserId
          return creds.isEmpty

/-- The deletion, after the last look at the links. -/
def doDelete (svc : SocialLinkService) (provider : String) (internalUserId : Int32)
    (targetSubject : String) (originalLinkCount : Nat) : SocialProg SocialLinkOpResult := do
  match ← deleteLink provider internalUserId with
  | .deleted =>
    if originalLinkCount < 2 then
      return { status := .ok, entry := ⟨provider, targetSubject⟩ }
    else do
      let lockoutRisk ← svc.recheck internalUserId
      return {
        status := .ok
        entry := ⟨provider, targetSubject⟩
        lockoutRiskObserved := lockoutRisk }
  | .noLink => return { status := .noLink }
  | _ => return { status := .repositoryError }

/-- `SocialLinkService::unlinkAccount`. -/
def unlinkAccount (svc : SocialLinkService) (provider : String) (internalUserId : Int32) :
    SocialProg SocialLinkOpResult :=
  if isValidProvider provider = false then return { status := .invalidProvider }
  else if svc.accountRepo = false then return { status := .repositoryError }
  else do
    match ← listForUser internalUserId with
    | none => return { status := .repositoryError }
    | some entries =>
      match entries.find? (fun e => e.provider = provider) with
      | none => return { status := .noLink }
      | some target =>
        if entries.length = 1 then
          match ← userHasUsablePassword internalUserId with
          | none => return { status := .repositoryError }
          | some true => svc.doDelete provider internalUserId target.subject entries.length
          | some false =>
            if svc.webAuthnRepo = false then return { status := .lastCredentialGuard }
            else do
              let creds ← listCredentials internalUserId
              if creds = [] then return { status := .lastCredentialGuard }
              else svc.doDelete provider internalUserId target.subject entries.length
        else svc.doDelete provider internalUserId target.subject entries.length

end SocialLinkService

/-! ## The operations of the calls -/

section Only

variable {P : SocialOp → Prop}

/-- A program of one operation. -/
theorem social_only {o : SocialOp} (sat : P o) : (social o).Only P :=
  ⟨sat, fun _ => trivial⟩

theorem RedisSocialLinkStateStore.issue_only {store : RedisSocialLinkStateStore}
    (draws : P .secureRandomBytes) (sets : ∀ key value seconds, P (.setNxEx key value seconds))
    (userId : Int32) (provider : String) : (store.issue userId provider).Only P := by
  unfold RedisSocialLinkStateStore.issue
  split
  · trivial
  · refine (social_only draws).bind fun draw => ?_
    split
    · trivial
    · refine (social_only (sets _ _ _)).bind fun done => ?_
      rcases done with _ | _ | _ <;> trivial

theorem RedisSocialLinkStateStore.consume_only {store : RedisSocialLinkStateStore}
    (takes : ∀ key, P (.getDel key)) (state : String) : (store.consume state).Only P := by
  unfold RedisSocialLinkStateStore.consume
  split
  · trivial
  · refine (social_only (takes _)).bind fun found => ?_
    split
    · split <;> trivial
    · trivial

namespace SocialLinkService

open PostgresSocialAccountRepository

variable {svc : SocialLinkService} {provider : String} {userId : Int32}

/-- What a begin asks for. -/
theorem beginLink_only (draws : P .secureRandomBytes)
    (sets : ∀ key value seconds, P (.setNxEx key value seconds)) :
    (svc.beginLink provider userId).Only P := by
  unfold beginLink
  split
  · trivial
  · split
    · trivial
    · refine (RedisSocialLinkStateStore.issue_only draws sets _ _).bind fun token => ?_
      cases token <;> trivial

theorem findLinkedUser_only (mapping : ∀ provider subject, P (.findMapping provider subject))
    (user : ∀ userId, P (.findLiveUser userId)) (now : P .nowSeconds) (provider subject : String) :
    (findLinkedUser provider subject).Only P := by
  refine (social_only (mapping _ _)).bind fun found => ?_
  split
  · trivial
  · trivial
  · refine (social_only (user _)).bind fun found => ?_
    split
    · trivial
    · trivial
    · refine (social_only now).bind fun now => ?_
      split <;> trivial

/-- What a link asks for, once the subject is known. -/
theorem onSubject_only (mapping : ∀ provider subject, P (.findMapping provider subject))
    (user : ∀ userId, P (.findLiveUser userId)) (now : P .nowSeconds)
    (lists : ∀ userId, P (.listForUser userId))
    (inserts : ∀ provider subject userId, P (.insertMapping provider subject userId))
    (provider : String) (userId : Int32) (errorCode subject : String) :
    (onSubject provider userId errorCode subject).Only P := by
  unfold onSubject
  split
  · trivial
  · refine (findLinkedUser_only mapping user now _ _).bind fun found => ?_
    obtain ⟨status, existing⟩ := found
    cases status with
    | noMapping =>
        refine (social_only (lists _)).bind fun entries => ?_
        split
        · trivial
        · split
          · trivial
          · refine Prog.Only.bind ((social_only (inserts _ _ _)).bind fun outcome => ?_) fun m => ?_
            · cases outcome <;> trivial
            · cases m <;> trivial
    | _ => trivial

section Unlink

variable (lists : P (.listForUser userId)) (deletes : P (.deleteMappings provider userId))
  (password : P (.findUsablePassword userId)) (credentials : P (.findCredentials userId))

include credentials in
theorem listCredentials_only : (listCredentials userId).Only P := by
  refine (social_only credentials).bind fun found => ?_
  cases found <;> trivial

include lists password credentials in
theorem recheck_only : (svc.recheck userId).Only P := by
  refine (social_only lists).bind fun remaining => ?_
  split
  · trivial
  · split
    · trivial
    · refine (social_only password).bind fun usable => ?_
      split
      · trivial
      · trivial
      · split
        · trivial
        · exact (listCredentials_only credentials).bind fun _ => trivial

include deletes in
theorem deleteLink_only : (deleteLink provider userId).Only P := by
  refine (social_only deletes).bind fun gone => ?_
  split <;> trivial

include lists deletes password credentials in
theorem doDelete_only (subject : String) (count : Nat) :
    (svc.doDelete provider userId subject count).Only P := by
  refine (deleteLink_only deletes).bind fun outcome => ?_
  split
  · split
    · trivial
    · exact (recheck_only lists password credentials).bind fun _ => trivial
  · trivial
  · trivial

include lists deletes password credentials in
/-- What a removal asks for. -/
theorem unlinkAccount_only : (svc.unlinkAccount provider userId).Only P := by
  have deletion : ∀ subject count, (svc.doDelete provider userId subject count).Only P :=
    doDelete_only lists deletes password credentials
  unfold unlinkAccount
  split
  · trivial
  · split
    · trivial
    · refine (social_only lists).bind fun entries => ?_
      split
      · trivial
      · split
        · trivial
        · split
          · refine (social_only password).bind fun usable => ?_
            split
            · trivial
            · exact deletion _ _
            · split
              · trivial
              · refine (listCredentials_only credentials).bind fun creds => ?_
                split
                · trivial
                · exact deletion _ _
          · exact deletion _ _

end Unlink

end SocialLinkService

end Only

/-- The calls of the service. -/
inductive SocialCall where
  | beginLink (provider : String) (userId : Int32)
  | linkAccount (provider code state : String) (userId : Int32)
  | unlinkAccount (provider : String) (userId : Int32)
deriving DecidableEq, Repr

/-- The program that a call runs. -/
def SocialCall.prog (svc : SocialLinkService) : SocialCall → SocialProg SocialLinkOpResult
  | beginLink provider userId => svc.beginLink provider userId
  | linkAccount provider code state userId => svc.linkAccount provider code state userId
  | unlinkAccount provider userId => svc.unlinkAccount provider userId

abbrev SocialWorld (ι : Type) := World SocialSig ι SocialStore

abbrev SocialEvent (ι : Type) := Event SocialSig ι SocialStore

/-- Any number of calls at once, and the log of their steps. -/
def socialPool {ι : Type} (svc : SocialLinkService) (store : SocialStore) (calls : ι → SocialCall) :
    Pool SocialSig ι SocialLinkOpResult (SocialWorld ι) where
  store := World.start store
  prog := fun i => (calls i).prog svc

/-! ### A user who links Google -/

/-- The text that stands for user 7 and Google in Redis. -/
def googleState : String :=
  r#"{"provider":"google","user_id":7}"#

/-- jsoncpp on that text. -/
def googleStateJson : JsonText where
  write := fun _ => googleState
  parse := fun text =>
    if text = googleState then some (.obj [("provider", .str "google"), ("user_id", .int 7)])
    else none

/-- A service with Google and a state store. -/
def googleLinking : SocialLinkService where
  stateStore := some { json := googleStateJson }

end Fulla
