import Mathlib.Data.List.Basic
import Mathlib.Data.List.Infix
import Mathlib.Data.List.Nodup

/-!
# Bounded lists of one-shot slots

A list of slots with keys and birth times.  Putting a slot in drops what has expired, and what
has the same key where slots are replaced; then the oldest slots make room, and the new one goes
to the end.  Taking a key removes the first slot that is alive and has it.

`marks` runs the same operations on slots that carry the number of the operation that put them
in, so that what becomes of each slot can be said of whole histories.
-/

namespace Conc

/-- Slots of type `α` with keys in `κ`. -/
structure SlotKind (α κ : Type) where
  key : α → κ
  born : α → Int
  lifetime : Int
  cap : Nat
  /-- A new slot replaces those with its key. -/
  replaces : Bool
  /-- The keys that are stored. -/
  admits : κ → Bool
  /-- The keys that are looked for. -/
  asks : κ → Bool

inductive SlotUse (α κ : Type) where
  | put (a : α)
  | take (k : κ) (now : Int)
  | look (k : κ) (now : Int)

namespace SlotKind

variable {α κ : Type} [DecidableEq κ] (kind : SlotKind α κ)

/-- The slot is still good. -/
def live (now : Int) (a : α) : Bool :=
  now - kind.born a ≤ kind.lifetime

/-- What stays beside a new slot. -/
def stays (a b : α) : Bool :=
  kind.live (kind.born a) b && !(kind.replaces && kind.key b = kind.key a)

/-- The oldest make room for one more. -/
def room (l : List α) : List α :=
  l.drop (l.length + 1 - kind.cap)

/-- A slot is added, in the place of those that make room. -/
def put (a : α) (l : List α) : List α :=
  if kind.admits (kind.key a) then kind.room (l.filter (kind.stays a)) ++ [a] else l

/-- The slot is the one that is asked for. -/
def picks (k : κ) (now : Int) (a : α) : Bool :=
  kind.asks k && kind.key a = k && kind.live now a

/-- What a use does to the list. -/
def use (l : List α) : SlotUse α κ → List α
  | .put a => kind.put a l
  | .take k now => l.eraseP (kind.picks k now)
  | .look _ _ => l

/-- The time of a use. -/
def time : SlotUse α κ → Int
  | .put a => kind.born a
  | .take _ now => now
  | .look _ now => now

/-- The same kind of slots, numbered. -/
def numbered : SlotKind (Nat × α) κ where
  key := fun x => kind.key x.2
  born := fun x => kind.born x.2
  lifetime := kind.lifetime
  cap := kind.cap
  replaces := kind.replaces
  admits := kind.admits
  asks := kind.asks

/-- The operation with its number. -/
def number (n : Nat) : SlotUse α κ → SlotUse (Nat × α) κ
  | .put a => .put (n, a)
  | .take k now => .take k now
  | .look k now => .look k now

/-- The slots after a history, newest first, each with the number of its operation. -/
def marks : List (SlotUse α κ) → List (Nat × α)
  | [] => []
  | u :: h => kind.numbered.use (marks h) (number h.length u)

/-- The slots after a history. -/
def slots : List (SlotUse α κ) → List α
  | [] => []
  | u :: h => kind.use (slots h) u

/-! ## Numbers do not matter -/

variable {kind}

theorem put_map (n : Nat) (a : α) (l : List (Nat × α)) :
    (kind.numbered.put (n, a) l).map Prod.snd = kind.put a (l.map Prod.snd) := by
  unfold put
  by_cases admitted : kind.admits (kind.key a) = true
  · rw [if_pos admitted, if_pos (show kind.numbered.admits (kind.numbered.key (n, a)) = true from
      admitted), List.map_append, room, room, List.map_drop, List.filter_map, List.length_map]
    rfl
  · rw [if_neg admitted, if_neg (show ¬ kind.numbered.admits (kind.numbered.key (n, a)) = true from
      admitted)]

theorem use_map (n : Nat) (u : SlotUse α κ) (l : List (Nat × α)) :
    (kind.numbered.use l (number n u)).map Prod.snd = kind.use (l.map Prod.snd) u := by
  cases u with
  | put a => exact put_map n a l
  | take k now =>
      change (l.eraseP _).map Prod.snd = (l.map Prod.snd).eraseP _
      rw [List.eraseP_map]
      rfl
  | look k now => rfl

theorem marks_map (h : List (SlotUse α κ)) : (kind.marks h).map Prod.snd = kind.slots h := by
  induction h with
  | nil => rfl
  | cons u h ih => rw [marks, use_map, ih, slots]

/-- What is found among the numbered slots is what is found among the slots. -/
theorem find?_marks (h : List (SlotUse α κ)) (k : κ) (now : Int) :
    ((kind.marks h).find? (kind.numbered.picks k now)).map Prod.snd =
      (kind.slots h).find? (kind.picks k now) := by
  rw [← marks_map, List.find?_map]
  rfl

/-! ## What becomes of a slot -/

variable {h : List (SlotUse α κ)} {u : SlotUse α κ} {x : Nat × α} {n : Nat} {a : α} {k : κ}
  {now : Int}

theorem mem_use {l : List α} (mem : a ∈ kind.use l u) : a ∈ l ∨ u = .put a := by
  cases u with
  | put b =>
      change a ∈ kind.put b l at mem
      unfold put at mem
      split at mem
      · rcases List.mem_append.mp mem with old | new
        · exact .inl (List.mem_of_mem_filter (List.mem_of_mem_drop old))
        · rw [List.mem_singleton.mp new]
          exact .inr rfl
      · exact .inl mem
  | take k now => exact .inl (List.mem_of_mem_eraseP mem)
  | look k now => exact .inl mem

theorem mem_marks_cons (mem : x ∈ kind.marks (u :: h)) :
    x ∈ kind.marks h ∨ x.1 = h.length ∧ u = .put x.2 := by
  rcases mem_use mem with old | new
  · exact .inl old
  · cases u with
    | put b =>
        cases new
        exact .inr ⟨rfl, rfl⟩
    | take k now => cases new
    | look k now => cases new

/-- A slot was put in by the operation of its number. -/
theorem put_of_mem_marks (mem : (n, a) ∈ kind.marks h) :
    ∃ later earlier, h = later ++ SlotUse.put a :: earlier ∧ earlier.length = n := by
  induction h with
  | nil => cases mem
  | cons u h ih =>
      rcases mem_marks_cons mem with old | ⟨rfl, rfl⟩
      · obtain ⟨later, earlier, rfl, number⟩ := ih old
        exact ⟨u :: later, earlier, rfl, number⟩
      · exact ⟨[], h, rfl, rfl⟩

theorem put_of_mem_slots (mem : a ∈ kind.slots h) : .put a ∈ h := by
  rw [← marks_map] at mem
  obtain ⟨⟨n, b⟩, numbered, rfl⟩ := List.mem_map.mp mem
  obtain ⟨later, earlier, rfl, _⟩ := put_of_mem_marks numbered
  exact List.mem_append_right _ List.mem_cons_self

theorem number_lt (mem : x ∈ kind.marks h) : x.1 < h.length := by
  obtain ⟨later, earlier, rfl, number⟩ := put_of_mem_marks mem
  rw [List.length_append, List.length_cons]
  omega

theorem marks_pairwise : (kind.marks h).Pairwise fun x y => x.1 < y.1 := by
  induction h with
  | nil => exact List.Pairwise.nil
  | cons u h ih =>
      cases u with
      | put a =>
          change (kind.numbered.put (h.length, a) (kind.marks h)).Pairwise _
          unfold put
          split
          · refine List.pairwise_append.mpr ⟨?_, List.pairwise_singleton _ _, ?_⟩
            · exact (ih.filter _).sublist (List.drop_sublist _ _)
            · intro x mem y new
              rw [List.mem_singleton.mp new]
              exact number_lt (List.mem_of_mem_filter (List.mem_of_mem_drop mem))
          · exact ih
      | take k now => exact ih.sublist List.eraseP_sublist
      | look k now => exact ih

theorem length_marks_le (some_ : 0 < kind.cap) : (kind.marks h).length ≤ kind.cap := by
  induction h with
  | nil => exact Nat.zero_le _
  | cons u h ih =>
      cases u with
      | put a =>
          change (kind.numbered.put (h.length, a) (kind.marks h)).length ≤ _
          unfold put
          split
          · rw [List.length_append, room, List.length_drop, List.length_singleton]
            change _ - (_ + 1 - kind.cap) + 1 ≤ _
            omega
          · exact ih
      | take k now => exact le_trans List.eraseP_sublist.length_le ih
      | look k now => exact ih

/-- What is gone stays gone. -/
theorem not_mem_later (gone : x ∉ kind.marks h) (old : x.1 < h.length)
    (later : List (SlotUse α κ)) : x ∉ kind.marks (later ++ h) := by
  induction later with
  | nil => exact gone
  | cons u later ih =>
      intro mem
      rcases mem_marks_cons mem with before | ⟨number, _⟩
      · exact ih before
      · have length : (later ++ h).length = later.length + h.length := List.length_append
        rw [List.append_eq, length] at number
        omega

theorem admits_of_mem (mem : x ∈ kind.marks h) : kind.admits (kind.key x.2) = true := by
  induction h with
  | nil => cases mem
  | cons u h ih =>
      rcases mem_marks_cons mem with old | ⟨number, rfl⟩
      · exact ih old
      · change x ∈ kind.numbered.put (h.length, x.2) (kind.marks h) at mem
        unfold put at mem
        split at mem
        · assumption
        · exact absurd number (Nat.ne_of_lt (number_lt mem))

/-- A slot that stays when another is put in. -/
theorem mem_marks_put (old : x ∈ kind.marks h) (mem : x ∈ kind.marks (.put a :: h))
    (admitted : kind.admits (kind.key a) = true) : kind.stays a x.2 = true := by
  change x ∈ kind.numbered.put (h.length, a) (kind.marks h) at mem
  unfold put at mem
  rw [if_pos (show kind.numbered.admits (kind.numbered.key (h.length, a)) = true from admitted)]
    at mem
  rcases List.mem_append.mp mem with kept | new
  · exact (List.mem_filter.mp (List.mem_of_mem_drop kept)).2
  · have number := number_lt old
    rw [List.mem_singleton.mp new] at number
    exact absurd number (Nat.lt_irrefl _)

/-- Where slots are replaced, a slot is the newest of its key. -/
theorem newest_of_mem_marks (replaces : kind.replaces = true) (mem : (n, a) ∈ kind.marks h) :
    ∃ later earlier, h = later ++ SlotUse.put a :: earlier ∧ earlier.length = n ∧
      ∀ b, SlotUse.put b ∈ later → kind.key b ≠ kind.key a := by
  induction h with
  | nil => cases mem
  | cons u h ih =>
      rcases mem_marks_cons mem with old | ⟨rfl, rfl⟩
      · obtain ⟨later, earlier, rfl, number, newest⟩ := ih old
        refine ⟨u :: later, earlier, rfl, number, fun b put same => ?_⟩
        rcases List.mem_cons.mp put with rfl | put
        · have admitted : kind.admits (kind.key b) = true := by
            rw [same]
            exact admits_of_mem old
          have stays := mem_marks_put old mem admitted
          simp [SlotKind.stays, replaces, same] at stays
        · exact newest b put same
      · exact ⟨[], h, rfl, rfl, fun b none => by cases none⟩

theorem keys_nodup (replaces : kind.replaces = true) :
    ((kind.marks h).map fun x => kind.key x.2).Nodup := by
  induction h with
  | nil => exact List.nodup_nil
  | cons u h ih =>
      cases u with
      | put a =>
          change ((kind.numbered.put (h.length, a) (kind.marks h)).map _).Nodup
          unfold put
          split
          · rw [List.map_append, List.map_singleton]
            refine List.nodup_append.mpr ⟨?_, List.nodup_singleton _, ?_⟩
            · exact ih.sublist (((List.drop_sublist _ _).trans List.filter_sublist).map _)
            · intro k mem k' new
              obtain ⟨x, kept, rfl⟩ := List.mem_map.mp mem
              rw [List.mem_singleton.mp new]
              have stays := (List.mem_filter.mp (List.mem_of_mem_drop kept)).2
              simp only [SlotKind.stays, numbered, replaces, Bool.true_and, Bool.and_eq_true,
                Bool.not_eq_true', decide_eq_false_iff_not] at stays
              exact stays.2
          · exact ih
      | take k now => exact ih.sublist (List.eraseP_sublist.map _)
      | look k now => exact ih

/-! ## The laws -/

/-- The slot that is picked is removed, and no other. -/
theorem marks_take (found : (kind.marks h).find? (kind.numbered.picks k now) = some x) :
    ∃ before after, kind.marks h = before ++ x :: after ∧
      kind.marks (.take k now :: h) = before ++ after := by
  obtain ⟨picked, before, after, split, none⟩ := List.find?_eq_some_iff_append.mp found
  refine ⟨before, after, split, ?_⟩
  change (kind.marks h).eraseP _ = _
  have skipped : ∀ y ∈ before, ¬ kind.numbered.picks k now y = true := fun y mem => by
    simpa using none y mem
  rw [split, List.eraseP_append_right _ skipped, List.eraseP_cons_of_pos picked]

theorem not_mem_take (found : (kind.marks h).find? (kind.numbered.picks k now) = some x) :
    x ∉ kind.marks (.take k now :: h) := by
  obtain ⟨before, after, split, rest⟩ := marks_take found
  have sorted : (kind.marks h).Pairwise fun x y => x.1 < y.1 := marks_pairwise
  rw [split, List.pairwise_append, List.pairwise_cons] at sorted
  rw [rest]
  intro mem
  rcases List.mem_append.mp mem with first | last
  · exact Nat.lt_irrefl _ (sorted.2.2 x first x List.mem_cons_self)
  · exact Nat.lt_irrefl _ (sorted.2.1.1 x last)

/-- A live slot that a new one drops has its key, or the list is full of newer ones. -/
theorem dropped_by_put (old : x ∈ kind.marks h) (gone : x ∉ kind.marks (.put a :: h))
    (live : kind.live (kind.born a) x.2 = true) (some_ : 0 < kind.cap)
    (lifetime : 0 ≤ kind.lifetime) :
    kind.replaces = true ∧ kind.key a = kind.key x.2 ∨
      (kind.marks (.put a :: h)).length = kind.cap ∧
        ∀ y ∈ kind.marks (.put a :: h), x.1 < y.1 ∧ kind.live (kind.born a) y.2 = true := by
  change x ∉ kind.numbered.put (h.length, a) (kind.marks h) at gone
  change _ ∨ (kind.numbered.put (h.length, a) (kind.marks h)).length = kind.cap ∧
    ∀ y ∈ kind.numbered.put (h.length, a) (kind.marks h), _
  unfold put at gone ⊢
  split at gone
  · rename_i admitted
    rw [if_pos admitted]
    by_cases stays : kind.numbered.stays (h.length, a) x = true
    · -- It was among the oldest of those that stayed.
      refine .inr ?_
      have kept : x ∈ (kind.marks h).filter (kind.numbered.stays (h.length, a)) :=
        List.mem_filter.mpr ⟨old, stays⟩
      have sorted : (kind.marks h).Pairwise fun x y => x.1 < y.1 := marks_pairwise
      replace sorted := sorted.filter (kind.numbered.stays (h.length, a))
      have alive : ∀ y ∈ (kind.marks h).filter (kind.numbered.stays (h.length, a)),
          kind.live (kind.born a) y.2 = true := by
        intro y mem
        have both := (List.mem_filter.mp mem).2
        simp only [SlotKind.stays, Bool.and_eq_true] at both
        exact both.1
      generalize (kind.marks h).filter (kind.numbered.stays (h.length, a)) = rest at *
      have out : x ∉ kind.numbered.room rest := fun mem => gone (List.mem_append_left _ mem)
      unfold room at out ⊢
      rw [← List.take_append_drop (rest.length + 1 - kind.numbered.cap) rest] at kept sorted
      have first := (List.mem_append.mp kept).resolve_right out
      have dropped : 0 < rest.length + 1 - kind.cap := by
        refine Nat.pos_of_ne_zero fun zero => ?_
        change x ∈ rest.take (rest.length + 1 - kind.cap) at first
        rw [zero] at first
        cases first
      refine ⟨?_, fun y mem => ?_⟩
      · rw [List.length_append, List.length_drop, List.length_singleton]
        change _ - (_ + 1 - kind.cap) + 1 = _
        omega
      · rcases List.mem_append.mp mem with newer | new
        · exact ⟨(List.pairwise_append.mp sorted).2.2 x first y newer,
            alive y (List.mem_of_mem_drop newer)⟩
        · rw [List.mem_singleton.mp new]
          refine ⟨number_lt old, ?_⟩
          simp [SlotKind.live, lifetime]
    · refine .inl ?_
      have bad : kind.numbered.replaces = true ∧
          kind.numbered.key x = kind.numbered.key (h.length, a) := by
        have live' : kind.numbered.live (kind.numbered.born (h.length, a)) x = true := live
        simpa [SlotKind.stays, live'] using stays
      exact ⟨bad.1, bad.2.symm⟩
  · exact absurd old gone

/-- What holds of every history. -/
structure Laws (kind : SlotKind α κ) (h : List (SlotUse α κ)) : Prop where
  /-- Every slot was put in by the operation of its number, the newest of its key where slots are
  replaced. -/
  origin : ∀ n a, (n, a) ∈ kind.marks h → ∃ later earlier, h = later ++ SlotUse.put a :: earlier ∧
    earlier.length = n ∧
      (kind.replaces = true → ∀ b, SlotUse.put b ∈ later → kind.key b ≠ kind.key a)
  apart : (kind.marks h).Pairwise fun x y => x.1 < y.1
  bounded : (kind.marks h).length ≤ kind.cap
  /-- What is taken has the key and is alive, and it is never there again. -/
  taken : ∀ k now n a, (kind.marks h).find? (kind.numbered.picks k now) = some (n, a) →
    kind.key a = k ∧ now - kind.born a ≤ kind.lifetime ∧
      ∀ later, (n, a) ∉ kind.marks (later ++ SlotUse.take k now :: h)
  /-- No take since has taken a slot that is there; where slots are replaced, none for its key has
  taken anything. -/
  unspent : ∀ later k now earlier n a, h = later ++ SlotUse.take k now :: earlier →
    (n, a) ∈ kind.marks h →
    (kind.marks earlier).find? (kind.numbered.picks k now) ≠ some (n, a) ∧
    (kind.replaces = true → n < earlier.length → kind.key a = k →
      (kind.marks earlier).find? (kind.numbered.picks k now) = none)
  /-- A slot that goes although it is still alive was taken, was replaced, or has made room for
  newer live ones. -/
  dropped : ∀ u n a now, (n, a) ∈ kind.marks h → (n, a) ∉ kind.marks (u :: h) →
    kind.time u ≤ now → now - kind.born a ≤ kind.lifetime →
    (∃ k t, u = .take k t ∧ (kind.marks h).find? (kind.numbered.picks k t) = some (n, a)) ∨
    (∃ b, u = .put b ∧ kind.replaces = true ∧ kind.key b = kind.key a) ∨
    ∃ b, u = .put b ∧ (kind.marks (u :: h)).length = kind.cap ∧
      ∀ m c, (m, c) ∈ kind.marks (u :: h) → n < m ∧ kind.born b - kind.born c ≤ kind.lifetime
  /-- Taking one key leaves the slots of the others. -/
  frame : ∀ k now x, x ∈ kind.marks h → kind.key x.2 ≠ k → x ∈ kind.marks (.take k now :: h)

theorem laws (some_ : 0 < kind.cap) (lifetime : 0 ≤ kind.lifetime) (h : List (SlotUse α κ)) :
    kind.Laws h where
  origin := by
    intro n a mem
    by_cases replaces : kind.replaces = true
    · obtain ⟨later, earlier, split, number, newest⟩ := newest_of_mem_marks replaces mem
      exact ⟨later, earlier, split, number, fun _ => newest⟩
    · obtain ⟨later, earlier, split, number⟩ := put_of_mem_marks mem
      exact ⟨later, earlier, split, number, fun yes => absurd yes replaces⟩
  apart := marks_pairwise
  bounded := length_marks_le some_
  taken := by
    intro k now n a found
    have picked := List.find?_some found
    simp only [picks, live, numbered, Bool.and_eq_true] at picked
    refine ⟨of_decide_eq_true picked.1.2, of_decide_eq_true picked.2, fun later => ?_⟩
    refine not_mem_later (not_mem_take found) ?_ later
    have number := number_lt (List.mem_of_find?_eq_some found)
    rw [List.length_cons]
    omega
  unspent := by
    intro later k now earlier n a split mem
    subst split
    have spent : (kind.marks earlier).find? (kind.numbered.picks k now) ≠ some (n, a) := by
      intro found
      have number := number_lt (List.mem_of_find?_eq_some found)
      refine not_mem_later (not_mem_take found) ?_ later mem
      rw [List.length_cons]
      omega
    refine ⟨spent, fun replaces number key => ?_⟩
    cases found : (kind.marks earlier).find? (kind.numbered.picks k now) with
    | none => rfl
    | some y =>
        -- Both were there under the same key, so they are the same.
        have before : (n, a) ∈ kind.marks earlier := by
          by_contra out
          have split : later ++ .take k now :: earlier = (later ++ [.take k now]) ++ earlier := by
            simp
          rw [split] at mem
          exact not_mem_later out number _ mem
        have picked := List.find?_some found
        simp only [picks, numbered, Bool.and_eq_true] at picked
        have same : kind.key y.2 = kind.key a :=
          (of_decide_eq_true picked.1.2).trans key.symm
        have eq := List.inj_on_of_nodup_map (keys_nodup replaces)
          (List.mem_of_find?_eq_some found) before same
        rw [found, eq] at spent
        exact absurd rfl spent
  dropped := by
    intro u n a now old gone before alive
    cases u with
    | put b =>
        have live : kind.live (kind.born b) a = true := by
          change kind.born b ≤ now at before
          simp only [SlotKind.live, decide_eq_true_eq]
          omega
        rcases dropped_by_put old gone live some_ lifetime with same | ⟨full, newer⟩
        · exact .inr (.inl ⟨b, rfl, same⟩)
        · refine .inr (.inr ⟨b, rfl, full, fun m c mem => ?_⟩)
          obtain ⟨later, live⟩ := newer (m, c) mem
          exact ⟨later, of_decide_eq_true live⟩
    | take k t =>
        refine .inl ⟨k, t, rfl, ?_⟩
        cases found : (kind.marks h).find? (kind.numbered.picks k t) with
        | none =>
            have same : kind.marks (.take k t :: h) = kind.marks h :=
              List.eraseP_of_forall_not fun y mem => List.find?_eq_none.mp found y mem
            rw [same] at gone
            exact absurd old gone
        | some y =>
            obtain ⟨first, last, split, rest⟩ := marks_take found
            rw [rest, List.mem_append, not_or] at gone
            rw [split] at old
            rcases List.mem_append.mp old with inFirst | inRest
            · exact absurd inFirst gone.1
            · rcases List.mem_cons.mp inRest with rfl | inLast
              · rfl
              · exact absurd inLast gone.2
    | look k t => exact absurd old gone
  frame := by
    intro k now x mem other
    change x ∈ (kind.marks h).eraseP _
    refine (List.mem_eraseP_of_neg ?_).mpr mem
    simp [picks, numbered, other]

end SlotKind

end Conc
