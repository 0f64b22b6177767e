import Fulla.Conc.OneShot
import Fulla.Model.JsonText
import Fulla.Web.Session
import Mathlib.Algebra.Group.Int.Defs

/-!
# Consent and organization slots

`ConsentCsrfSlots` and `OrgContextSlots` read a JSON text from the session, change the list and
write the text back.  The lists are bounded lists of one-shot slots: the first kind keeps slots
with the same nonce side by side, the second replaces a slot when its state comes again.
-/

namespace Fulla

open Conc

/-- The text of the array of objects reads back as objects with the same members. -/
def JsonText.ReadsBackAll (json : JsonText) (rows : List (List (String × Json))) : Prop :=
  ∃ rows', json.parse (json.write (.arr (rows.map .obj))) = some (.arr (rows'.map .obj)) ∧
    List.Forall₂ (fun row' row => ∀ k, row'.lookup k = row.lookup k) rows' rows

/-! ## In the session -/

namespace ConsentCsrfSlots

/-- A slot as it is written. -/
def members (slot : ConsentCsrfSlot) : List (String × Json) :=
  [("n", .str slot.nonce), ("t", .int slot.ts)]

/-- Nothing for an item that is skipped; an error is an exception of `asString` or `asInt64`. -/
def parseItem : Json → Except String (Option ConsentCsrfSlot)
  | .obj members =>
    match members.lookup "n", members.lookup "t" with
    | some n, some t => do return some { nonce := ← n.asString, ts := ← t.asInt64 }
    | _, _ => .ok none
  | _ => .ok none

/-- The slots in the text of the session. -/
def parseSlots (json : JsonText) (value : Option String) : Except String (List ConsentCsrfSlot) :=
  match value.bind json.parse with
  | some (.arr items) => do return (← items.mapM parseItem).filterMap id
  | _ => .ok []

/-- The key is erased first, and then inserted. -/
def writeSlots (json : JsonText) (slots : List ConsentCsrfSlot) : Option String :=
  Session.insert none (json.write (.arr (slots.map fun slot => .obj (members slot))))

/-- `ConsentCsrfSlots::mint`, on the text. -/
def mintIn (json : JsonText) (value : Option String) (nonce : String) (nowSeconds : Int64) :
    Except String (Option String) := do
  return writeSlots json (mint (← parseSlots json value) nonce nowSeconds.toInt)

/-- `ConsentCsrfSlots::consume`, on the text. -/
def consumeIn (json : JsonText) (value : Option String) (nonce : String) (nowSeconds : Int64) :
    Except String (Bool × Option String) :=
  if nonce = "" then .ok (false, value)
  else do
    match consume (← parseSlots json value) nonce nowSeconds.toInt with
    | some slots => return (true, writeSlots json slots)
    | none => return (false, value)

/-- `ConsentCsrfSlots::peek`, on the text. -/
def peekIn (json : JsonText) (value : Option String) (nonce : String) (nowSeconds : Int64) :
    Except String Bool :=
  if nonce = "" then .ok false
  else do
    return (← parseSlots json value).any fun slot =>
      slot.nonce = nonce && nowSeconds.toInt - slot.ts ≤ kTtlSeconds

/-- The calls on the slots of a session. -/
inductive Call where
  | mint (nonce : String) (nowSeconds : Int64)
  | peek (nonce : String) (nowSeconds : Int64)
  | consume (nonce : String) (nowSeconds : Int64)

/-- The value of the session key after a call. -/
def callIn (json : JsonText) (value : Option String) : Call → Except String (Option String)
  | .mint nonce now => mintIn json value nonce now
  | .peek nonce now => do
    let _ ← peekIn json value nonce now
    return value
  | .consume nonce now => do return (← consumeIn json value nonce now).2

/-- After calls, the newest first, on a session without the key. -/
def runIn (json : JsonText) : List Call → Except String (Option String)
  | [] => .ok none
  | call :: calls => do callIn json (← runIn json calls) call

end ConsentCsrfSlots

namespace OrgContextSlots

/-- A slot as it is written. -/
def members (slot : OrgContextSlot) : List (String × Json) :=
  [("s", .str slot.state), ("o", .int slot.orgId), ("t", .int slot.ts)]

/-- `isInt` or `isInt64` for the range, and the value. -/
def intIn (bits : Nat) : Json → Option Int
  | .int n => if -2 ^ (bits - 1) ≤ n ∧ n < 2 ^ (bits - 1) then some n else none
  | .real text =>
    if (text.toList.dropWhile (· ≠ '.')).drop 1 |>.all (· = '0') then
      ((Json.real text).asInt64.toOption).filter fun n => -2 ^ (bits - 1) ≤ n ∧ n < 2 ^ (bits - 1)
    else none
  | _ => none

/-- A slot as it is read. -/
def parseItem : Json → Option OrgContextSlot
  | .obj members =>
    match members.lookup "s", members.lookup "o", members.lookup "t" with
    | some (.str state), some o, some t => do
      return { state := state, orgId := ← intIn 32 o, ts := ← intIn 64 t }
    | _, _, _ => none
  | _ => none

/-- The slots in the text of the session; items of another shape are skipped. -/
def parseSlots (json : JsonText) (value : Option String) : List OrgContextSlot :=
  match value.bind json.parse with
  | some (.arr items) => items.filterMap parseItem
  | _ => []

/-- The text that the session gets. -/
def writeSlots (json : JsonText) (slots : List OrgContextSlot) : Option String :=
  Session.insert none (json.write (.arr (slots.map fun slot => .obj (members slot))))

/-- `OrgContextSlots::mint`, on the text. -/
def mintIn (json : JsonText) (value : Option String) (state : String) (orgId : Int32)
    (nowSeconds : Int64) : Option String :=
  if state = "" then value
  else writeSlots json (mint (parseSlots json value) state orgId.toInt nowSeconds.toInt)

/-- `OrgContextSlots::consume`, on the text. -/
def consumeIn (json : JsonText) (value : Option String) (state : String) (nowSeconds : Int64) :
    Option Int × Option String :=
  if state = "" then (none, value)
  else
    match consume (parseSlots json value) state nowSeconds.toInt with
    | (some orgId, slots) => (some orgId, writeSlots json slots)
    | (none, _) => (none, value)

/-- `OrgContextSlots::peek`, on the text. -/
def peekIn (json : JsonText) (value : Option String) (state : String) (nowSeconds : Int64) :
    Option Int :=
  if state = "" then none
  else
    ((parseSlots json value).find? fun slot =>
      slot.state = state && nowSeconds.toInt - slot.ts ≤ kTtlSeconds).map OrgContextSlot.orgId

/-- The calls on the slots of a session. -/
inductive Call where
  | mint (state : String) (orgId : Int32) (nowSeconds : Int64)
  | peek (state : String) (nowSeconds : Int64)
  | consume (state : String) (nowSeconds : Int64)

/-- What a call leaves in the session. -/
def callIn (json : JsonText) (value : Option String) : Call → Option String
  | .mint state orgId now => mintIn json value state orgId now
  | .peek _ _ => value
  | .consume state now => (consumeIn json value state now).2

/-- Calls in a session, the last one first. -/
def runIn (json : JsonText) : List Call → Option String
  | [] => none
  | call :: calls => callIn json (runIn json calls) call

end OrgContextSlots

/-! ## The lists as one-shot slots -/

theorem evictOldest_eq {α κ : Type} (kind : SlotKind α κ) (cap : kind.cap = kMaxSlots)
    (slots : List α) : evictOldest slots = kind.room slots := by
  rw [evictOldest, SlotKind.room, cap]

namespace ConsentCsrfSlots

/-- These slots as bounded one-shot slots. -/
def kind : SlotKind ConsentCsrfSlot String where
  key := ConsentCsrfSlot.nonce
  born := ConsentCsrfSlot.ts
  lifetime := kTtlSeconds
  cap := kMaxSlots
  replaces := false
  admits := fun _ => true
  asks := fun nonce => nonce ≠ ""

/-- A call as a use of slots. -/
def Call.use : Call → SlotUse ConsentCsrfSlot String
  | .mint nonce now => .put { nonce := nonce, ts := now.toInt }
  | .peek nonce now => .look nonce now.toInt
  | .consume nonce now => .take nonce now.toInt

/-- The source's `mint` is the use of a slot. -/
theorem mint_eq (slots : List ConsentCsrfSlot) (nonce : String) (now : Int) :
    mint slots nonce now = kind.put { nonce := nonce, ts := now } slots := by
  have same : (fun slot : ConsentCsrfSlot => decide (¬ now - slot.ts > kTtlSeconds)) =
      kind.stays { nonce := nonce, ts := now } := by
    funext slot
    simp [SlotKind.stays, SlotKind.live, kind]
  rw [mint, same, evictOldest_eq kind rfl]
  rfl

theorem picks_eq {nonce : String} (some_ : nonce ≠ "") (now : Int) :
    (fun slot : ConsentCsrfSlot =>
      decide (slot.nonce = nonce) && decide (now - slot.ts ≤ kTtlSeconds)) =
      kind.picks nonce now := by
  funext slot
  simp [SlotKind.picks, SlotKind.live, kind, some_]

theorem picks_empty (now : Int) (slot : ConsentCsrfSlot) : kind.picks "" now slot = false :=
  rfl

/-- Items that agree member by member are the same slots. -/
theorem parse_items {rows : List (List (String × Json))} {slots : List ConsentCsrfSlot}
    (same : List.Forall₂ (fun row' row => ∀ k, row'.lookup k = row.lookup k) rows
      (slots.map members)) :
    (rows.map Json.obj).mapM parseItem = .ok (slots.map some) := by
  induction slots generalizing rows with
  | nil =>
      cases same
      rfl
  | cons slot slots ih =>
      cases same with
      | cons first rest =>
          rename_i row rows
          have item : parseItem (.obj row) = .ok (some slot) := by
            have n : row.lookup "n" = some (.str slot.nonce) := first "n"
            have t : row.lookup "t" = some (.int slot.ts) := by
              rw [first]
              simp [members, List.lookup_cons]
            simp only [parseItem, n, t, Json.asString, Json.asInt64]
            rfl
          rw [List.map_cons, List.mapM_cons, item, List.map_cons]
          simp only [ih rest]
          rfl

/-- What was written is read back. -/
theorem parse_write {json : JsonText} {slots : List ConsentCsrfSlot}
    (reads : json.ReadsBackAll (slots.map members)) :
    parseSlots json (writeSlots json slots) = .ok slots := by
  obtain ⟨rows, parsed, same⟩ := reads
  have text : (writeSlots json slots).bind json.parse = some (.arr (rows.map .obj)) := by
    rw [← parsed, List.map_map]
    rfl
  simp only [parseSlots, text, parse_items same]
  change Except.ok ((slots.map some).filterMap id) = _
  simp [List.filterMap_map]

/-- `consume` on the text is the one on the slots. -/
theorem consumeIn_eq {json : JsonText} {value : Option String} {slots : List ConsentCsrfSlot}
    (parsed : parseSlots json value = .ok slots) (nonce : String) (now : Int64) :
    consumeIn json value nonce now =
      .ok (slots.any (kind.picks nonce now.toInt),
        if slots.any (kind.picks nonce now.toInt) then
          writeSlots json (slots.eraseP (kind.picks nonce now.toInt))
        else value) := by
  by_cases empty : nonce = ""
  · subst empty
    have none : slots.any (kind.picks "" now.toInt) = false :=
      List.any_eq_false.mpr fun slot _ => by simp [picks_empty]
    rw [none]
    rfl
  · rw [consumeIn, if_neg empty, parsed]
    change (match consume slots nonce now.toInt with | some _ => _ | none => _) = _
    rw [consume, if_neg empty]
    simp only [picks_eq empty]
    by_cases found : slots.any (kind.picks nonce now.toInt) = true
    · rw [if_pos found, if_pos found, found]
      rfl
    · rw [if_neg found, if_neg found, Bool.eq_false_iff.mpr found]
      rfl

/-- `peek` on the text is the one on the slots. -/
theorem peekIn_eq {json : JsonText} {value : Option String} {slots : List ConsentCsrfSlot}
    (parsed : parseSlots json value = .ok slots) (nonce : String) (now : Int64) :
    peekIn json value nonce now = .ok (slots.any (kind.picks nonce now.toInt)) := by
  by_cases empty : nonce = ""
  · subst empty
    have none : slots.any (kind.picks "" now.toInt) = false :=
      List.any_eq_false.mpr fun slot _ => by simp [picks_empty]
    rw [none]
    rfl
  · rw [peekIn, if_neg empty, parsed, ← picks_eq empty]
    rfl

/-- The lists of slots that the calls come to read back. -/
def ReadsBackAlong (json : JsonText) (calls : List Call) : Prop :=
  ∀ earlier, earlier <:+ calls →
    json.ReadsBackAll ((kind.slots (earlier.map Call.use)).map members)

variable {json : JsonText}

/-- The session holds the slots of the history. -/
theorem runIn_eq {calls : List Call} (reads : ReadsBackAlong json calls) :
    ∃ value, runIn json calls = .ok value ∧
    parseSlots json value = .ok (kind.slots (calls.map Call.use)) := by
  induction calls with
  | nil => exact ⟨none, rfl, rfl⟩
  | cons call calls ih =>
      obtain ⟨value, ran, parsed⟩ :=
        ih fun earlier sub => reads earlier (sub.trans (List.suffix_cons call calls))
      have wrote : ∀ slots, slots = kind.slots ((call :: calls).map Call.use) →
          parseSlots json (writeSlots json slots) =
            .ok (kind.slots ((call :: calls).map Call.use)) := by
        intro slots same
        subst same
        exact parse_write (reads _ (List.suffix_refl _))
      simp only [runIn, ran]
      cases call with
      | mint nonce now =>
          refine ⟨writeSlots json (mint (kind.slots (calls.map Call.use)) nonce now.toInt), ?_,
            wrote _ (mint_eq _ _ _)⟩
          change mintIn json value nonce now = _
          rw [mintIn, parsed]
          rfl
      | peek nonce now =>
          refine ⟨value, ?_, parsed⟩
          change callIn json value (.peek nonce now) = _
          rw [callIn, peekIn_eq parsed]
          rfl
      | consume nonce now =>
          change ∃ value', callIn json value (.consume nonce now) = _ ∧ _
          rw [callIn, consumeIn_eq parsed]
          by_cases found : (kind.slots (calls.map Call.use)).any (kind.picks nonce now.toInt) = true
          · rw [if_pos found]
            exact ⟨_, rfl, wrote _ rfl⟩
          · rw [if_neg found]
            refine ⟨value, rfl, ?_⟩
            rw [parsed]
            refine congrArg Except.ok (List.eraseP_of_forall_not fun slot mem picked => ?_).symm
            exact found (List.any_eq_true.mpr ⟨slot, mem, picked⟩)

end ConsentCsrfSlots

namespace OrgContextSlots

/-- These slots as bounded one-shot slots. -/
def kind : SlotKind OrgContextSlot String where
  key := OrgContextSlot.state
  born := OrgContextSlot.ts
  lifetime := kTtlSeconds
  cap := kMaxSlots
  replaces := true
  admits := fun state => state ≠ ""
  asks := fun state => state ≠ ""

/-- A call as a use of slots. -/
def Call.use : Call → SlotUse OrgContextSlot String
  | .mint state orgId now => .put { state := state, orgId := orgId.toInt, ts := now.toInt }
  | .peek state now => .look state now.toInt
  | .consume state now => .take state now.toInt

theorem mint_eq (slots : List OrgContextSlot) (state : String) (orgId now : Int) :
    mint slots state orgId now = kind.put { state := state, orgId := orgId, ts := now } slots := by
  have same : (fun slot : OrgContextSlot => decide (slot.state ≠ state) &&
      decide (¬ now - slot.ts > kTtlSeconds)) =
      kind.stays { state := state, orgId := orgId, ts := now } := by
    funext slot
    simp [SlotKind.stays, SlotKind.live, kind, Bool.and_comm]
  rw [mint, List.filter_filter, same, evictOldest_eq kind rfl, SlotKind.put]
  by_cases empty : state = ""
  · simp [kind, empty]
  · simp [kind, empty]

theorem picks_eq {state : String} (some_ : state ≠ "") (now : Int) :
    (fun slot : OrgContextSlot =>
      decide (slot.state = state) && decide (now - slot.ts ≤ kTtlSeconds)) =
      kind.picks state now := by
  funext slot
  simp [SlotKind.picks, SlotKind.live, kind, some_]

theorem find?_empty (slots : List OrgContextSlot) (now : Int) :
    slots.find? (kind.picks "" now) = none :=
  List.find?_eq_none.mpr fun _ _ => by simp [SlotKind.picks, kind]

/-- The slot is one that can be minted. -/
def InRange (slot : OrgContextSlot) : Prop :=
  (∃ orgId : Int32, slot.orgId = orgId.toInt) ∧ ∃ now : Int64, slot.ts = now.toInt

/-- Items that agree member by member are the same slots, within the range of an `int`. -/
theorem parse_items {rows : List (List (String × Json))} {slots : List OrgContextSlot}
    (range : ∀ slot ∈ slots, InRange slot)
    (same : List.Forall₂ (fun row' row => ∀ k, row'.lookup k = row.lookup k) rows
      (slots.map members)) :
    (rows.map Json.obj).filterMap parseItem = slots := by
  induction slots generalizing rows with
  | nil =>
      cases same
      rfl
  | cons slot slots ih =>
      cases same with
      | cons first rest =>
          rename_i row rows
          have item : parseItem (.obj row) = some slot := by
            obtain ⟨⟨orgId, isOrg⟩, now, isNow⟩ := range slot List.mem_cons_self
            have s : row.lookup "s" = some (.str slot.state) := first "s"
            have o : row.lookup "o" = some (.int slot.orgId) := by
              rw [first]
              simp [members, List.lookup_cons]
            have t : row.lookup "t" = some (.int slot.ts) := by
              rw [first]
              simp [members, List.lookup_cons]
            have low := Int32.le_toInt orgId
            have high := Int32.toInt_lt orgId
            have low' := Int64.le_toInt now
            have high' := Int64.toInt_lt now
            have org : intIn 32 (.int slot.orgId) = some slot.orgId := by
              rw [isOrg]
              exact if_pos ⟨low, high⟩
            have time : intIn 64 (.int slot.ts) = some slot.ts := by
              rw [isNow]
              exact if_pos ⟨low', high'⟩
            simp only [parseItem, s, o, t, org, time]
            rfl
          rw [List.map_cons, List.filterMap_cons_some item,
            ih (fun slot mem => range slot (List.mem_cons_of_mem _ mem)) rest]

/-- What was written is read back. -/
theorem parse_write {json : JsonText} {slots : List OrgContextSlot}
    (range : ∀ slot ∈ slots, InRange slot) (reads : json.ReadsBackAll (slots.map members)) :
    parseSlots json (writeSlots json slots) = slots := by
  obtain ⟨rows, parsed, same⟩ := reads
  have text : (writeSlots json slots).bind json.parse = some (.arr (rows.map .obj)) := by
    rw [← parsed, List.map_map]
    rfl
  simp only [parseSlots, text]
  exact parse_items range same

theorem consumeIn_eq {json : JsonText} {value : Option String} (state : String) (now : Int64) :
    consumeIn json value state now =
      (((parseSlots json value).find? (kind.picks state now.toInt)).map OrgContextSlot.orgId,
        if ((parseSlots json value).find? (kind.picks state now.toInt)).isSome then
          writeSlots json ((parseSlots json value).eraseP (kind.picks state now.toInt))
        else value) := by
  by_cases empty : state = ""
  · subst empty
    rw [find?_empty]
    rfl
  · rw [consumeIn, if_neg empty, consume, if_neg empty]
    simp only [picks_eq empty]
    cases (parseSlots json value).find? (kind.picks state now.toInt) with
    | none => rfl
    | some slot => rfl

theorem peekIn_eq {json : JsonText} {value : Option String} (state : String) (now : Int64) :
    peekIn json value state now =
      ((parseSlots json value).find? (kind.picks state now.toInt)).map OrgContextSlot.orgId := by
  by_cases empty : state = ""
  · subst empty
    rw [find?_empty]
    rfl
  · rw [peekIn, if_neg empty, picks_eq empty]

theorem inRange_of_mem {calls : List Call} {slot : OrgContextSlot}
    (mem : slot ∈ kind.slots (calls.map Call.use)) : InRange slot := by
  obtain ⟨call, _, is⟩ := List.mem_map.mp (SlotKind.put_of_mem_slots mem)
  cases call with
  | mint state orgId now =>
      cases is
      exact ⟨⟨orgId, rfl⟩, now, rfl⟩
  | peek state now => cases is
  | consume state now => cases is

/-- The lists of slots that the calls come to read back. -/
def ReadsBackAlong (json : JsonText) (calls : List Call) : Prop :=
  ∀ earlier, earlier <:+ calls →
    json.ReadsBackAll ((kind.slots (earlier.map Call.use)).map members)

variable {json : JsonText}

/-- The session holds the slots of the history. -/
theorem runIn_eq {calls : List Call} (reads : ReadsBackAlong json calls) :
    parseSlots json (runIn json calls) = kind.slots (calls.map Call.use) := by
  induction calls with
  | nil => rfl
  | cons call calls ih =>
      have wrote : ∀ slots, slots = kind.slots ((call :: calls).map Call.use) →
          parseSlots json (writeSlots json slots) = kind.slots ((call :: calls).map Call.use) := by
        intro slots same
        subst same
        exact parse_write (fun slot mem => inRange_of_mem mem) (reads _ (List.suffix_refl _))
      replace ih := ih fun earlier sub => reads earlier (sub.trans (List.suffix_cons call calls))
      cases call with
      | mint state orgId now =>
          change parseSlots json (mintIn json (runIn json calls) state orgId now) = _
          have minted := mint_eq (kind.slots (calls.map Call.use)) state orgId.toInt now.toInt
          rw [mintIn]
          split
          · rename_i empty
            rw [ih]
            rw [mint, if_pos empty] at minted
            exact minted
          · rw [ih]
            exact wrote _ minted
      | peek state now => exact ih
      | consume state now =>
          change parseSlots json (consumeIn json (runIn json calls) state now).2 = _
          rw [consumeIn_eq, ih]
          dsimp only
          split
          · exact wrote _ rfl
          · rename_i none
            rw [ih]
            refine (List.eraseP_of_forall_not fun slot mem picked => none ?_).symm
            exact List.find?_isSome.mpr ⟨slot, mem, picked⟩

end OrgContextSlots

/-- Both kinds of slots, after any calls: the session holds the slots of a bounded list of one-shot
slots; a consume answers what it takes from that list, and a peek the same. -/
theorem slots_one_shot (json : JsonText) :
    (∀ calls : List ConsentCsrfSlots.Call, ConsentCsrfSlots.ReadsBackAlong json calls → ∃ value,
      let marks := ConsentCsrfSlots.kind.marks (calls.map ConsentCsrfSlots.Call.use)
      ConsentCsrfSlots.runIn json calls = .ok value ∧
      ConsentCsrfSlots.parseSlots json value = .ok (marks.map Prod.snd) ∧
      ConsentCsrfSlots.kind.Laws (calls.map ConsentCsrfSlots.Call.use) ∧
      ∀ nonce now,
        let found := marks.find? (ConsentCsrfSlots.kind.numbered.picks nonce now.toInt)
        (ConsentCsrfSlots.consumeIn json value nonce now).map Prod.fst = .ok found.isSome ∧
        ConsentCsrfSlots.peekIn json value nonce now = .ok found.isSome) ∧
    ∀ calls : List OrgContextSlots.Call, OrgContextSlots.ReadsBackAlong json calls →
      let marks := OrgContextSlots.kind.marks (calls.map OrgContextSlots.Call.use)
      let value := OrgContextSlots.runIn json calls
      OrgContextSlots.parseSlots json value = marks.map Prod.snd ∧
      OrgContextSlots.kind.Laws (calls.map OrgContextSlots.Call.use) ∧
      ∀ state now,
        let found := marks.find? (OrgContextSlots.kind.numbered.picks state now.toInt)
        (OrgContextSlots.consumeIn json value state now).1 = found.map (fun x => x.2.orgId) ∧
        OrgContextSlots.peekIn json value state now = found.map fun x => x.2.orgId := by
  refine ⟨fun calls reads => ?_, fun calls reads => ?_⟩
  · obtain ⟨value, ran, parsed⟩ := ConsentCsrfSlots.runIn_eq reads
    refine ⟨value, ran, by rw [parsed, SlotKind.marks_map], SlotKind.laws (by decide) (by decide) _,
      fun nonce now => ?_⟩
    have any : (ConsentCsrfSlots.kind.slots (calls.map ConsentCsrfSlots.Call.use)).any
        (ConsentCsrfSlots.kind.picks nonce now.toInt) =
        ((ConsentCsrfSlots.kind.marks (calls.map ConsentCsrfSlots.Call.use)).find?
          (ConsentCsrfSlots.kind.numbered.picks nonce now.toInt)).isSome := by
      rw [← Option.isSome_map (f := Prod.snd), SlotKind.find?_marks, Bool.eq_iff_iff,
        List.find?_isSome, List.any_eq_true]
    rw [ConsentCsrfSlots.consumeIn_eq parsed, ConsentCsrfSlots.peekIn_eq parsed, any]
    exact ⟨rfl, rfl⟩
  · intro marks value
    have parsed := OrgContextSlots.runIn_eq reads
    refine ⟨by rw [parsed, SlotKind.marks_map], SlotKind.laws (by decide) (by decide) _,
      fun state now => ?_⟩
    have same : ((OrgContextSlots.kind.marks (calls.map OrgContextSlots.Call.use)).find?
        (OrgContextSlots.kind.numbered.picks state now.toInt)).map Prod.snd = _ :=
      SlotKind.find?_marks (calls.map OrgContextSlots.Call.use) state now.toInt
    rw [OrgContextSlots.consumeIn_eq, OrgContextSlots.peekIn_eq, parsed, ← same, Option.map_map]
    exact ⟨rfl, rfl⟩

/-! ### A history of each kind -/

namespace Sample

/-- The text and the first number of every slot of an array. -/
def slotKeys : Json → List (String × Int)
  | .arr items => items.map fun
    | .obj ((_, .str text) :: (_, .int number) :: _) => (text, number)
    | _ => ("", 0)
  | _ => []

/-- The arrays that the two histories write, by their keys and with their texts. -/
def slotArrays : List (List (String × Int) × String × Json) :=
  let slot nonce t := Json.obj (ConsentCsrfSlots.members ⟨nonce, t⟩)
  let context state o t := Json.obj (OrgContextSlots.members ⟨state, o, t⟩)
  [([], "[]", .arr []),
    ([("a", 1)], r#"[{"n":"a","t":1}]"#, .arr [slot "a" 1]),
    ([("a", 1), ("b", 2)], r#"[{"n":"a","t":1},{"n":"b","t":2}]"#,
      .arr [slot "a" 1, slot "b" 2]),
    ([("b", 2)], r#"[{"n":"b","t":2}]"#, .arr [slot "b" 2]),
    ([("xyz", 3)], r#"[{"o":3,"s":"xyz","t":1}]"#, .arr [context "xyz" 3 1]),
    ([("xyz", 4)], r#"[{"o":4,"s":"xyz","t":2}]"#, .arr [context "xyz" 4 2])]

/-- jsoncpp on these arrays. -/
def slotJson : JsonText where
  write v := ((slotArrays.lookup (slotKeys v)).map Prod.fst).getD ""
  parse text := (slotArrays.map Prod.snd).lookup text

theorem readsBackAll_self {json : JsonText} {rows : List (List (String × Json))}
    (same : json.parse (json.write (.arr (rows.map .obj))) = some (.arr (rows.map .obj))) :
    json.ReadsBackAll rows :=
  ⟨rows, same, List.forall₂_same.mpr fun _ _ _ => rfl⟩

/-- Two nonces are minted, the first one is consumed. -/
def consentCalls : List ConsentCsrfSlots.Call :=
  [.consume "a" 600, .mint "b" 2, .mint "a" 1]

/-- One state is minted twice, for two organizations. -/
def contextCalls : List OrgContextSlots.Call :=
  [.mint "xyz" 4 2, .mint "xyz" 3 1]

theorem reads_consentCalls : ConsentCsrfSlots.ReadsBackAlong slotJson consentCalls := by
  intro earlier sub
  apply readsBackAll_self
  rcases List.suffix_cons_iff.mp sub with rfl | sub
  · rfl
  rcases List.suffix_cons_iff.mp sub with rfl | sub
  · rfl
  rcases List.suffix_cons_iff.mp sub with rfl | sub
  · rfl
  rw [List.suffix_nil.mp sub]
  rfl

theorem reads_contextCalls : OrgContextSlots.ReadsBackAlong slotJson contextCalls := by
  intro earlier sub
  apply readsBackAll_self
  rcases List.suffix_cons_iff.mp sub with rfl | sub
  · rfl
  rcases List.suffix_cons_iff.mp sub with rfl | sub
  · rfl
  rw [List.suffix_nil.mp sub]
  rfl

end Sample

/-- The nonce that was consumed is not found again, the other one is; of the two organizations the
state has the later one, until it is too old. -/
theorem slots_one_shot_sample :
    (∃ value, ConsentCsrfSlots.runIn Sample.slotJson Sample.consentCalls = .ok value ∧
      (ConsentCsrfSlots.consumeIn Sample.slotJson value "a" 601).map Prod.fst = .ok false ∧
      (ConsentCsrfSlots.consumeIn Sample.slotJson value "b" 601).map Prod.fst = .ok true ∧
      ConsentCsrfSlots.kind.Laws (Sample.consentCalls.map ConsentCsrfSlots.Call.use)) ∧
    let value := OrgContextSlots.runIn Sample.slotJson Sample.contextCalls
    (OrgContextSlots.consumeIn Sample.slotJson value "xyz" 602).1 = some 4 ∧
      (OrgContextSlots.consumeIn Sample.slotJson value "xyz" 603).1 = none := by
  obtain ⟨consent, context⟩ := slots_one_shot Sample.slotJson
  obtain ⟨value, ran, _, laws, answers⟩ := consent _ Sample.reads_consentCalls
  obtain ⟨_, _, contextAnswers⟩ := context _ Sample.reads_contextCalls
  refine ⟨⟨value, ran, ?_, ?_, laws⟩, ?_, ?_⟩
  · rw [(answers "a" 601).1]
    rfl
  · rw [(answers "b" 601).1]
    rfl
  · rw [(contextAnswers "xyz" 602).1]
    rfl
  · rw [(contextAnswers "xyz" 603).1]
    rfl

end Fulla
