import Fulla.Identity.UserRows

/-!
# Backup codes

`mfa_backup_codes` is a JSON array in a text column, one hash per code.  Using a
code reads the text, looks for the hash, and writes the array without that entry
back where the column still holds the text that was read.

The JSON reader and writer are those of jsoncpp: an entry that is not a string is
carried along untouched.
-/

namespace Fulla

open Conc

/-- An entry of the stored array. -/
inductive JsonEntry where
  | text (s : String)
  /-- Anything but a string. -/
  | other (raw : String)
deriving DecidableEq, Repr

/-- jsoncpp, on arrays. -/
structure JsonArrays where
  /-- `parseFromStream`, then `isArray`. -/
  parse : String → Option (List JsonEntry)
  /-- `writeString` without indentation. -/
  write : List JsonEntry → String

/-- What is left of an array that was parsed is read back as it was written. -/
def JsonArrays.Faithful (json : JsonArrays) : Prop :=
  ∀ text entries i, json.parse text = some entries →
    json.parse (json.write (entries.eraseIdx i)) = some (entries.eraseIdx i)

namespace MfaBackup

/-- The stored text as an array. -/
def parseArray (json : JsonArrays) (storedJsonArray : String) : Option (List JsonEntry) :=
  if storedJsonArray = "" then none else json.parse storedJsonArray

/-- The entry is the given hash, in either hex case. -/
def isHash (hash : String) : JsonEntry → Bool
  | .text s => toLowerAscii s = toLowerAscii hash
  | .other _ => false

/-- The index of the first entry that is the hash of the code. -/
def matchBackupCode (json : JsonArrays) (sha256Hex : String → String)
    (storedJsonArray plainCode : String) : Option Nat :=
  if plainCode = "" then none
  else
    match parseArray json storedJsonArray with
    | none => none
    | some arr => arr.findIdx? (isHash (sha256Hex plainCode))

/-- Empty where the array cannot be parsed. -/
def removeEntry (json : JsonArrays) (storedJsonArray : String) (index : Nat) : String :=
  match parseArray json storedJsonArray with
  | none => ""
  | some arr => if index ≥ arr.length then "" else json.write (arr.eraseIdx index)

/-- How many codes are left. -/
def countEntries (json : JsonArrays) (storedJsonArray : String) : Int :=
  match parseArray json storedJsonArray with
  | none => 0
  | some arr => arr.length

end MfaBackup

/-- What `attemptBackupCode` works with. -/
structure BackupSite where
  json : JsonArrays
  sha256Hex : String → String
  /-- `storage_type` is `memory`. -/
  memoryStorage : Bool := false
  /-- `getDbClient` answers. -/
  dbAvailable : Bool := true

namespace MfaController

open MfaBackup

/-- The text that was read, and one attempt to replace it by the text without the entry. -/
def consumeStored (site : BackupSite) (userId : Int) (code stored : String) :
    UserProg (Bool × Int) :=
  match matchBackupCode site.json site.sha256Hex stored code with
  | none => return (false, -1)
  | some idx =>
    let updated := removeEntry site.json stored idx
    if updated = "" then return (false, -1)
    else do
      let remaining := countEntries site.json updated
      let consumed : Option Bool ← statement (.casBackupCodes userId updated stored)
      match consumed with
      | some true => return (true, remaining)
      | _ => return (false, -1)

/-- Whether a code was used up, and how many are left. -/
def attemptBackupCode (site : BackupSite) (userId : Int) (code : String) :
    UserProg (Bool × Int) :=
  if site.memoryStorage || !site.dbAvailable then return (false, -1)
  else do
    let found : Option (Option UserRow) ← statement (.selectById userId)
    match found with
    | none => return (false, -1)
    | some none => return (false, -1)
    | some (some user) => consumeStored site userId code (user.mfaBackupCodes.getD "")

end MfaController

namespace BackupCodes

/-! ## Runs -/

/-- A request with a backup code. -/
structure BackupCall where
  userId : Int
  code : String
deriving DecidableEq, Repr

/-- Any number of requests over the users. -/
def runBackupCodes {ι : Type} [DecidableEq ι] (site : BackupSite) (env : Nat → UserMoment)
    (calls : ι → BackupCall) (s : UserRows) (sched : List ι) :
    Pool UserSig ι (Bool × Int) (UserWorld ι) :=
  Pool.run (World.handler fun n => execUser (env n))
    { store := World.start s
      prog := fun i => MfaController.attemptBackupCode site (calls i).userId (calls i).code } sched

/-- The entries stored for a user. -/
def entriesOf (json : JsonArrays) (users : UserRows) (u : Int) : Option (List JsonEntry) :=
  (users.find? u).bind fun row => MfaBackup.parseArray json (row.mfaBackupCodes.getD "")

/-- An entry that a call has used up. -/
structure Acceptance (ι : Type) where
  thread : ι
  user : Int
  entry : JsonEntry
  /-- The list stored in place of the one with the entry. -/
  left : List JsonEntry
deriving DecidableEq

section Log

variable {ι : Type}

/-- What an event has used up: the entry that matches the caller's code. -/
def acceptanceOf (site : BackupSite) (calls : ι → BackupCall) :
    UserEvent ι → Option (Acceptance ι)
  | ⟨i, _, .casBackupCodes u updated stored, r, _⟩ =>
    if r = some true then do
      let entries ← MfaBackup.parseArray site.json stored
      let idx ← MfaBackup.matchBackupCode site.json site.sha256Hex stored (calls i).code
      let entry ← entries[idx]?
      let left ← MfaBackup.parseArray site.json updated
      return { thread := i, user := u, entry := entry, left := left }
    else none
  | _ => none

/-- Everything used up so far, newest first. -/
def acceptances (site : BackupSite) (calls : ι → BackupCall) (log : List (UserEvent ι)) :
    List (Acceptance ι) :=
  log.filterMap (acceptanceOf site calls)

/-- The entries of `u` used up so far. -/
def usedUp (site : BackupSite) (calls : ι → BackupCall) (u : Int) (log : List (UserEvent ι)) :
    List JsonEntry :=
  ((acceptances site calls log).filter fun a => a.user = u).map fun a => a.entry

end Log

/-! ## The helpers -/

section Helpers

variable {json : JsonArrays} {sha256Hex : String → String} {stored code : String} {idx : Nat}

theorem matched {entries : List JsonEntry}
    (found : MfaBackup.matchBackupCode json sha256Hex stored code = some idx)
    (parsed : MfaBackup.parseArray json stored = some entries) : idx < entries.length := by
  unfold MfaBackup.matchBackupCode at found
  split at found
  · cases found
  · rw [parsed] at found
    exact (List.findIdx?_eq_some_iff_findIdx_eq.mp found).1

theorem parsed_of_matched
    (found : MfaBackup.matchBackupCode json sha256Hex stored code = some idx) :
    ∃ entries, MfaBackup.parseArray json stored = some entries := by
  unfold MfaBackup.matchBackupCode at found
  split at found
  · cases found
  · split at found
    · cases found
    · next entries parsed => exact ⟨entries, parsed⟩

/-- What is written without an entry is read back as the list without it. -/
theorem parse_removeEntry (faithful : json.Faithful) {entries : List JsonEntry}
    (parsed : MfaBackup.parseArray json stored = some entries) (bound : idx < entries.length)
    (nonempty : MfaBackup.removeEntry json stored idx ≠ "") :
    MfaBackup.parseArray json (MfaBackup.removeEntry json stored idx) =
      some (entries.eraseIdx idx) := by
  have text : MfaBackup.removeEntry json stored idx = json.write (entries.eraseIdx idx) := by
    unfold MfaBackup.removeEntry
    rw [parsed]
    exact if_neg (Nat.not_le.mpr bound)
  have source : json.parse stored = some entries := by
    unfold MfaBackup.parseArray at parsed
    split at parsed
    · cases parsed
    · exact parsed
  unfold MfaBackup.parseArray
  rw [if_neg nonempty, text]
  exact faithful stored entries idx source

end Helpers

/-! ## The invariant -/

section Invariant

variable {ι : Type} {site : BackupSite} {calls : ι → BackupCall} {s : UserRows}

/-- What every run keeps; a call holds what it has used up. -/
structure Inv (site : BackupSite) (calls : ι → BackupCall) (s : UserRows) (w : UserWorld ι)
    (γ : ι → Option (Acceptance ι)) : Prop where
  held : ∀ i a, (a ∈ acceptances site calls w.log ∧ a.thread = i) ↔ γ i = some a
  once : ((acceptances site calls w.log).map fun a => a.thread).Nodup
  book : ∀ u initial, entriesOf site.json s u = some initial →
    ∃ left, entriesOf site.json w.db u = some left ∧ left.Sublist initial ∧
      (usedUp site calls u w.log ++ left).Perm initial
  broken : ∀ u, entriesOf site.json s u = none →
    entriesOf site.json w.db u = none ∧ usedUp site calls u w.log = []

variable {w w' : UserWorld ι} {γ : ι → Option (Acceptance ι)} {e : UserEvent ι}

theorem acceptances_cons {log : List (UserEvent ι)} :
    acceptances site calls (e :: log) =
      (acceptanceOf site calls e).toList ++ acceptances site calls log := by
  cases eq : acceptanceOf site calls e <;> simp [acceptances, eq]

theorem Inv.frame (inv : Inv site calls s w γ) (log : w'.log = e :: w.log)
    (silent : acceptanceOf site calls e = none)
    (same : ∀ u, entriesOf site.json w'.db u = entriesOf site.json w.db u) :
    Inv site calls s w' γ := by
  have acceptances_eq : acceptances site calls w'.log = acceptances site calls w.log := by
    rw [log, acceptances_cons, silent]
    rfl
  have usedUp_eq (u : Int) : usedUp site calls u w'.log = usedUp site calls u w.log := by
    unfold usedUp
    rw [acceptances_eq]
  constructor
  case held =>
    rw [acceptances_eq]
    exact inv.held
  case once =>
    rw [acceptances_eq]
    exact inv.once
  case book =>
    intro u initial start
    rw [same, usedUp_eq]
    exact inv.book u initial start
  case broken =>
    intro u start
    rw [same, usedUp_eq]
    exact inv.broken u start

variable [DecidableEq ι] {i : ι}

/-- A call that holds nothing yet takes an entry out of the stored list. -/
theorem Inv.accept (inv : Inv site calls s w γ) (log : w'.log = e :: w.log)
    {a : Acceptance ι} {entries : List JsonEntry} {idx : Nat}
    (accepted : acceptanceOf site calls e = some a) (thread : a.thread = i)
    (before : entriesOf site.json w.db a.user = some entries) (entry : entries[idx]? = some a.entry)
    (after : entriesOf site.json w'.db a.user = some (entries.eraseIdx idx))
    (other : ∀ v ≠ a.user, entriesOf site.json w'.db v = entriesOf site.json w.db v)
    (fresh : γ i = none) : Inv site calls s w' (Function.update γ i (some a)) := by
  have acceptances_new : acceptances site calls w'.log = a :: acceptances site calls w.log := by
    rw [log, acceptances_cons, accepted]
    rfl
  have absent (b : Acceptance ι) (mem : b ∈ acceptances site calls w.log) : b.thread ≠ i := by
    intro eq
    have holds := (inv.held i b).mp ⟨mem, eq⟩
    rw [fresh] at holds
    cases holds
  have usedUp_new :
      usedUp site calls a.user w'.log = a.entry :: usedUp site calls a.user w.log := by
    unfold usedUp
    simp [acceptances_new]
  have usedUp_eq (v : Int) (ne : v ≠ a.user) :
      usedUp site calls v w'.log = usedUp site calls v w.log := by
    unfold usedUp
    simp [acceptances_new, ne.symm]
  constructor
  case held =>
    intro j b
    rw [acceptances_new, List.mem_cons]
    by_cases eq : j = i
    · subst eq
      rw [Function.update_self]
      constructor
      · intro holds
        rcases holds with ⟨rfl | old, own⟩
        · rfl
        · exact absurd own (absent b old)
      · intro holds
        cases holds
        exact ⟨.inl rfl, thread⟩
    · rw [Function.update_of_ne eq, ← inv.held j b]
      constructor
      · intro holds
        rcases holds with ⟨rfl | old, own⟩
        · exact absurd (own.symm.trans thread) eq
        · exact ⟨old, own⟩
      · exact fun holds => ⟨.inr holds.1, holds.2⟩
  case once =>
    rw [acceptances_new, List.map_cons, List.nodup_cons]
    refine ⟨?_, inv.once⟩
    intro mem
    obtain ⟨b, old, eq⟩ := List.mem_map.mp mem
    exact absent b old (eq.trans thread)
  case book =>
    intro v initial start
    obtain ⟨left, now, sub, perm⟩ := inv.book v initial start
    by_cases eq : v = a.user
    · subst eq
      rw [before] at now
      cases now
      refine ⟨_, after, (List.eraseIdx_sublist entries idx).trans sub, ?_⟩
      rw [usedUp_new]
      -- the entry goes from the stored list to the used ones
      have moved : (a.entry :: entries.eraseIdx idx).Perm entries := by
        obtain ⟨bound, value⟩ := List.getElem?_eq_some_iff.mp entry
        rw [← value]
        have erased := (List.erase_getElem bound).cons entries[idx]
        exact erased.symm.trans (List.perm_cons_erase (List.getElem_mem bound)).symm
      have shuffled : (a.entry :: usedUp site calls a.user w.log ++ entries.eraseIdx idx).Perm
          (usedUp site calls a.user w.log ++ a.entry :: entries.eraseIdx idx) :=
        List.perm_middle.symm
      exact shuffled.trans ((moved.append_left _).trans perm)
    · rw [other v eq, usedUp_eq v eq]
      exact ⟨left, now, sub, perm⟩
  case broken =>
    intro v start
    obtain ⟨now, none_⟩ := inv.broken v start
    by_cases eq : v = a.user
    · subst eq
      rw [before] at now
      cases now
    · rw [other v eq, usedUp_eq v eq]
      exact ⟨now, none_⟩

end Invariant

/-! ## Calls -/

section Calls

variable {ι : Type} [DecidableEq ι] {site : BackupSite} {env : Nat → UserMoment}
  {calls : ι → BackupCall} {s : UserRows} {i : ι}

abbrev backupHandler (env : Nat → UserMoment) : ι → Handler UserSig (UserWorld ι) :=
  World.handler fun n => execUser (env n)

/-- A call is told that it used up a code exactly if it did, and how many are left. -/
def Told (call : BackupCall) (answer : Bool × Int) (g : Option (Acceptance ι)) : Prop :=
  (answer.1 = true ↔ g.isSome = true) ∧
    ∀ a, g = some a → a.user = call.userId ∧ answer.2 = a.left.length

omit [DecidableEq ι] in
theorem told_nothing (call : BackupCall) :
    Told call (false, -1) (none : Option (Acceptance ι)) :=
  ⟨iff_of_false nofun nofun, nofun⟩

omit [DecidableEq ι] in
theorem Inv.lookup {w : UserWorld ι} {γ : ι → Option (Acceptance ι)} (inv : Inv site calls s w γ)
    (u : Int) : Inv site calls s (backupHandler env i (.selectById u) w).2 γ :=
  inv.frame rfl rfl fun _ => rfl

omit [DecidableEq ι] in
/-- The column does not hold the text that was read, or the server refuses. -/
theorem casBackupCodes_cases (m : UserMoment) (users : UserRows) (u : Int)
    (updated stored : String) :
    (execUser m (.casBackupCodes u updated stored) users).1 ≠ some true ∧
        (execUser m (.casBackupCodes u updated stored) users).2 = users ∨
      ∃ row, users.find? u = some row ∧ row.mfaBackupCodes = some stored ∧
        execUser m (.casBackupCodes u updated stored) users =
          (some true, users.update u (fun r => { r with mfaBackupCodes := some updated })
            fun _ => rfl) := by
  simp only [execUser]
  split
  · exact .inl ⟨by simp, rfl⟩
  · split
    · exact .inl ⟨by simp, rfl⟩
    · next row found =>
        split
        · next same => exact .inr ⟨row, found, same, rfl⟩
        · exact .inl ⟨by simp, rfl⟩

/-- The conditional `UPDATE` with the text that was read and the text without the entry. -/
theorem consume_keeps (faithful : site.json.Faithful) {stored : String} {idx : Nat}
    (found : MfaBackup.matchBackupCode site.json site.sha256Hex stored (calls i).code = some idx)
    (nonempty : MfaBackup.removeEntry site.json stored idx ≠ "") :
    Keeps (backupHandler env) (Inv site calls s) i (Told (calls i))
      (do
        let consumed : Option Bool ← statement (.casBackupCodes (calls i).userId
          (MfaBackup.removeEntry site.json stored idx) stored)
        match consumed with
        | some true =>
          return (true,
            MfaBackup.countEntries site.json (MfaBackup.removeEntry site.json stored idx))
        | _ => return (false, -1)) none := by
  obtain ⟨entries, parsed⟩ := parsed_of_matched found
  have bound : idx < entries.length := matched found parsed
  have written := parse_removeEntry faithful parsed bound nonempty
  intro w γ inv own
  rcases casBackupCodes_cases (env w.tick) w.db (calls i).userId
      (MfaBackup.removeEntry site.json stored idx) stored with
    ⟨lost, same⟩ | ⟨row, stored_, text, eq⟩
  · refine ⟨none, ?_, ?_⟩
    · rw [← own, Function.update_eq_self]
      refine inv.frame rfl ?_ fun u => by rw [World.handler_db, same]
      exact if_neg lost
    · simp only [World.handler_fst]
      revert lost
      generalize (execUser (env w.tick) (.casBackupCodes (calls i).userId
        (MfaBackup.removeEntry site.json stored idx) stored) w.db).1 = answer
      intro lost
      rcases answer with _ | _ | _
      · exact told_nothing (calls i)
      · exact told_nothing (calls i)
      · exact absurd rfl lost
  · let a : Acceptance ι :=
      { thread := i, user := (calls i).userId, entry := entries[idx]
        left := entries.eraseIdx idx }
    let e : UserEvent ι := ⟨i, w.tick, .casBackupCodes (calls i).userId
      (MfaBackup.removeEntry site.json stored idx) stored,
      (execUser (env w.tick) (.casBackupCodes (calls i).userId
        (MfaBackup.removeEntry site.json stored idx) stored) w.db).1, w.db⟩
    have accepted : acceptanceOf site calls e = some a := by
      simp [acceptanceOf, e, a, eq, parsed, found, written, bound]
    have before : entriesOf site.json w.db a.user = some entries := by
      simp [entriesOf, a, stored_, text, parsed]
    have entry : entries[idx]? = some a.entry := List.getElem?_eq_getElem bound
    refine ⟨some a, inv.accept rfl accepted rfl before entry ?_ ?_ own, ?_⟩
    · rw [World.handler_db, eq]
      unfold entriesOf
      rw [UserRows.find?_update, if_pos rfl, stored_]
      exact written
    · intro v ne
      rw [World.handler_db, eq]
      unfold entriesOf
      rw [UserRows.find?_update, if_neg ne]
    · simp only [World.handler_fst, eq]
      refine ⟨iff_of_true rfl rfl, ?_⟩
      intro b same
      cases same
      refine ⟨rfl, ?_⟩
      unfold MfaBackup.countEntries
      rw [written]

theorem consumeStored_keeps (faithful : site.json.Faithful) (stored : String) :
    Keeps (backupHandler env) (Inv site calls s) i (Told (calls i))
      (MfaController.consumeStored site (calls i).userId (calls i).code stored) none := by
  unfold MfaController.consumeStored
  split
  · exact told_nothing (calls i)
  · next idx found =>
      dsimp only
      split
      · exact told_nothing (calls i)
      · next nonempty => exact consume_keeps faithful found nonempty

theorem attemptBackupCode_keeps (faithful : site.json.Faithful) :
    Keeps (backupHandler env) (Inv site calls s) i (Told (calls i))
      (MfaController.attemptBackupCode site (calls i).userId (calls i).code) none := by
  unfold MfaController.attemptBackupCode
  split
  · exact told_nothing (calls i)
  · refine Keeps.stutter (fun w γ inv _ => inv.lookup _) fun w γ _ _ => ?_
    generalize ((backupHandler env i (.selectById (calls i).userId) w).1 :
      Option (Option UserRow)) = found
    rcases found with _ | _ | user
    · exact told_nothing (calls i)
    · exact told_nothing (calls i)
    · exact consumeStored_keeps faithful _

end Calls

/-! ## Single use -/

section SingleUse

variable {ι : Type} [DecidableEq ι] (site : BackupSite) (env : Nat → UserMoment)
  (calls : ι → BackupCall) (s : UserRows)

omit [DecidableEq ι] in
theorem Inv.start : Inv site calls s (World.start s) fun _ => none := by
  constructor
  case held => exact fun _ _ => iff_of_false (fun holds => nomatch holds.1) nofun
  case once => exact List.nodup_nil
  case book => exact fun u initial start => ⟨initial, start, .refl _, .refl _⟩
  case broken => exact fun u start => ⟨start, rfl⟩

/-- In every interleaving the entries used up and those still stored are together the
initial ones, the stored ones in their order; a call that is told so has used up one entry,
and is told the length of the list it stored.  A text that cannot be read stays as it is. -/
theorem backup_codes_single_use (faithful : site.json.Faithful) (sched : List ι) :
    let c := runBackupCodes site env calls s sched
    (∀ u initial, entriesOf site.json s u = some initial →
        ∃ left, entriesOf site.json c.store.db u = some left ∧ left.Sublist initial ∧
          (usedUp site calls u c.store.log ++ left).Perm initial) ∧
      (∀ u, entriesOf site.json s u = none →
        entriesOf site.json c.store.db u = none ∧ usedUp site calls u c.store.log = []) ∧
      ((acceptances site calls c.store.log).map fun a => a.thread).Nodup ∧
      ∀ i ok remaining, c.answer? i = some (ok, remaining) →
        (ok = true ↔ ∃ a ∈ acceptances site calls c.store.log, a.thread = i) ∧
          ∀ a ∈ acceptances site calls c.store.log, a.thread = i →
            a.user = (calls i).userId ∧ remaining = a.left.length := by
  intro c
  let start : Pool UserSig ι (Bool × Int) (UserWorld ι) :=
    { store := World.start s
      prog := fun i => MfaController.attemptBackupCode site (calls i).userId (calls i).code }
  have good : start.Good (backupHandler env) (Inv site calls s) (fun i => Told (calls i)) :=
    ⟨fun _ => none, Inv.start site calls s, fun _ => attemptBackupCode_keeps faithful⟩
  obtain ⟨γ, inv, threads⟩ := Pool.run_keeps good sched
  refine ⟨inv.book, inv.broken, inv.once, fun i ok remaining answered => ?_⟩
  obtain ⟨ok_iff, held⟩ := Pool.post_of_answer? (threads i) answered
  constructor
  · refine ok_iff.trans (Option.isSome_iff_exists.trans ?_)
    exact exists_congr fun a => (inv.held i a).symm
  · intro a mem own
    exact held a ((inv.held i a).mp ⟨mem, own⟩)

end SingleUse

/-! ### Two calls with one code -/

/-- What jsoncpp reads and writes for the arrays over two hashes. -/
def sampleTexts : List (String × List JsonEntry) :=
  [("[\"AA\",\"bb\"]", [.text "AA", .text "bb"]), ("[\"AA\"]", [.text "AA"]),
    ("[\"bb\"]", [.text "bb"]), ("[]", [])]

/-- A JSON library that knows the texts of the sample. -/
def sampleJson : JsonArrays where
  parse text := sampleTexts.lookup text
  write entries := ((sampleTexts.find? fun p => p.2 = entries).map Prod.fst).getD "[]"

theorem sampleJson_faithful : sampleJson.Faithful := by
  intro text entries i parsed
  have known : entries ∈ sampleTexts.map Prod.snd := by
    obtain ⟨_, _, split, _⟩ := List.lookup_eq_some_iff.mp parsed
    rw [split]
    simp
  simp only [sampleTexts, List.map_cons, List.map_nil, List.mem_cons, List.not_mem_nil, or_false]
    at known
  rcases known with rfl | rfl | rfl | rfl
  · match i with
    | 0 => rfl
    | 1 => rfl
    | _ + 2 => rfl
  · match i with
    | 0 => rfl
    | _ + 1 => rfl
  · match i with
    | 0 => rfl
    | _ + 1 => rfl
  · rfl

/-- A site whose hash is the identity. -/
def sampleSite : BackupSite where
  json := sampleJson
  sha256Hex := id

/-- One user with backup codes. -/
def sampleUsers : UserRows :=
  Table.empty.assign
    { id := 7, publicSub := "sub-7", username := "alice", passwordHash := "secret"
      mfaBackupCodes := some "[\"AA\",\"bb\"]" }

/-- Both calls have read the text before either writes. -/
theorem backup_codes_single_use_raced :
    ∃ left,
      entriesOf sampleJson (runBackupCodes sampleSite (fun _ => { now := 0 })
        (fun _ : Bool => { userId := 7, code := "aa" }) sampleUsers
        [false, true, false, true]).store.db 7 = some left ∧
      left.Sublist [.text "AA", .text "bb"] ∧
      (usedUp sampleSite (fun _ : Bool => { userId := 7, code := "aa" }) 7
        (runBackupCodes sampleSite (fun _ => { now := 0 })
          (fun _ : Bool => { userId := 7, code := "aa" }) sampleUsers
          [false, true, false, true]).store.log ++ left).Perm [.text "AA", .text "bb"] :=
  (backup_codes_single_use sampleSite (fun _ => { now := 0 })
    (fun _ : Bool => { userId := 7, code := "aa" }) sampleUsers sampleJson_faithful
    [false, true, false, true]).1 7 _ (by decide)

end BackupCodes

end Fulla
