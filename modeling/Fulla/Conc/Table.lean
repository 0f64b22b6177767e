import Mathlib.Data.List.Nodup

/-!
# Keyed tables

`Table key` is a finite collection of records in which every key occurs at most
once: a hash map from keys to records that carry their key, or an SQL table with
a primary key.  The invariant is a field, so no operation can lose it, and every
operation is described by what `find?` answers afterwards.

* `assign`: the hash map's `m[k] = v`, which replaces a record of the same key.
* `insertNew`: SQL's `INSERT`, which fails on a conflict of keys.
* `updateWhere`: an `UPDATE` that leaves the key alone; `keep`: a `DELETE` of the rest.
-/

namespace Conc

variable {κ α : Type} {key : α → κ}

/-- Records with pairwise different keys. -/
structure Table {κ α : Type} (key : α → κ) where
  rows : List α
  nodup : (rows.map key).Nodup

namespace Table

@[ext]
theorem ext {t t' : Table key} (rows : t.rows = t'.rows) : t = t' := by
  cases t
  cases t'
  cases rows
  rfl

instance [DecidableEq α] : DecidableEq (Table key) := fun t t' =>
  decidable_of_iff (t.rows = t'.rows) ⟨Table.ext, congrArg Table.rows⟩

/-- A table without records. -/
def empty : Table key :=
  { rows := [], nodup := List.nodup_nil }

/-- Only the records that satisfy `p`. -/
def keep (t : Table key) (p : α → Bool) : Table key where
  rows := t.rows.filter p
  nodup := t.nodup.sublist (List.filter_sublist.map key)

/-- The rows that are kept. -/
@[simp]
theorem mem_keep {t : Table key} {p : α → Bool} {a : α} :
    a ∈ (t.keep p).rows ↔ a ∈ t.rows ∧ p a = true :=
  List.mem_filter

/-- Rewrite every record, leaving its key alone. -/
def modify (t : Table key) (f : α → α) (same : ∀ a, key (f a) = key a) : Table key where
  rows := t.rows.map f
  nodup := by
    have keys : (t.rows.map f).map key = t.rows.map key := by
      simp [List.map_map, Function.comp_def, same]
    rw [keys]
    exact t.nodup

/-- Rewrite the records that `sel` selects, leaving their keys alone. -/
def updateWhere (t : Table key) (sel : α → Bool) (f : α → α) (same : ∀ a, key (f a) = key a) :
    Table key :=
  t.modify (fun a => if sel a then f a else a) fun a => by split <;> simp [same]

theorem forall_mem_updateWhere {t : Table key} {sel : α → Bool} {f : α → α}
    {same : ∀ a, key (f a) = key a} {P : α → Prop} :
    (∀ b ∈ (t.updateWhere sel f same).rows, P b) ↔ ∀ a ∈ t.rows, P (if sel a then f a else a) :=
  List.forall_mem_map

/-- Updates by selections that agree on every record. -/
theorem updateWhere_congr {t : Table key} {sel sel' : α → Bool} {f : α → α}
    {same : ∀ a, key (f a) = key a} (agree : ∀ a ∈ t.rows, sel a = sel' a) :
    t.updateWhere sel f same = t.updateWhere sel' f same := by
  ext1
  refine List.map_congr_left fun a mem => ?_
  rw [agree a mem]

/-- Two updates of the same kind are one. -/
theorem updateWhere_updateWhere {t : Table key} {sel sel' : α → Bool} {f : α → α}
    {same : ∀ a, key (f a) = key a} (idem : ∀ a, f (f a) = f a)
    (kept : ∀ a, sel' (f a) = sel' a) :
    (t.updateWhere sel f same).updateWhere sel' f same =
      t.updateWhere (fun a => sel a || sel' a) f same := by
  ext1
  simp only [updateWhere, modify, List.map_map]
  refine List.map_congr_left fun a _ => ?_
  by_cases first : sel a = true
  · simp [first, kept, idem]
  · simp [first]

/-! ## Looking up -/

variable [DecidableEq κ]

/-- The record stored under `k`. -/
def find? (t : Table key) (k : κ) : Option α :=
  t.rows.find? fun a => key a = k

/-- What a look-up finds. -/
theorem find?_eq_some {t : Table key} {k : κ} {a : α} :
    t.find? k = some a ↔ a ∈ t.rows ∧ key a = k := by
  constructor
  · intro found
    refine ⟨List.mem_of_find?_eq_some found, ?_⟩
    have := List.find?_some found
    simpa using this
  · intro stored
    rcases stored with ⟨mem, rfl⟩
    obtain ⟨rows, nodup⟩ := t
    simp only [find?] at mem ⊢
    induction rows with
    | nil => cases mem
    | cons b rows ih =>
        rw [List.map_cons, List.nodup_cons] at nodup
        rcases List.mem_cons.mp mem with rfl | tail
        · simp
        · have ne : key b ≠ key a := by
            intro eq
            exact nodup.1 (eq ▸ List.mem_map_of_mem tail)
          simpa [List.find?_cons, ne] using ih nodup.2 tail

theorem find?_key {t : Table key} {k : κ} {a : α} (found : t.find? k = some a) : key a = k :=
  (find?_eq_some.mp found).2

/-- A row is the one found under its key. -/
theorem mem_rows_iff {t : Table key} {a : α} : a ∈ t.rows ↔ t.find? (key a) = some a := by
  rw [find?_eq_some]
  exact ⟨fun mem => ⟨mem, rfl⟩, fun found => found.1⟩

@[simp]
theorem find?_empty (k : κ) : (empty : Table key).find? k = none :=
  rfl

/-- A look-up among the rows that are kept. -/
@[simp]
theorem find?_keep (t : Table key) (p : α → Bool) (k : κ) :
    (t.keep p).find? k = (t.find? k).filter p := by
  apply Option.ext
  intro a
  simp only [find?_eq_some, mem_keep, Option.filter_eq_some_iff]
  tauto

/-- A look-up after a change of all rows. -/
@[simp]
theorem find?_modify (t : Table key) (f : α → α) (same : ∀ a, key (f a) = key a) (k : κ) :
    (t.modify f same).find? k = (t.find? k).map f := by
  simp only [find?, modify, List.find?_map, Function.comp_def, same]

/-- A look-up after a change of selected rows. -/
@[simp]
theorem find?_updateWhere (t : Table key) (sel : α → Bool) (f : α → α)
    (same : ∀ a, key (f a) = key a) (k : κ) :
    (t.updateWhere sel f same).find? k = (t.find? k).map fun a => if sel a then f a else a :=
  find?_modify ..

theorem find?_eq_map {t : Table key} {k : κ} {f : α → α} (fixed : ∀ a ∈ t.find? k, f a = a) :
    t.find? k = (t.find? k).map f := by
  cases found : t.find? k with
  | none => rfl
  | some a => rw [Option.map_some, fixed a found]

/-- A selection is updated as it should be, or the update is none for all that it selects. -/
theorem updateWhere_exact_iff {t : Table key} {sel : α → Bool} {f : α → α}
    {same : ∀ a, key (f a) = key a} {does should : Bool} :
    (∀ k, (t.updateWhere (fun a => does && sel a) f same).find? k = (t.find? k).map fun a =>
        if (should && sel a) = true then f a else a) ↔
      does = should ∨ ∀ a ∈ t.rows, sel a = true → f a = a := by
  simp only [find?_updateWhere]
  by_cases eq : does = should
  · subst eq
    exact iff_of_true (fun _ => rfl) (.inl rfl)
  constructor
  · intro exact_
    refine .inr fun a mem selected => ?_
    have found := mem_rows_iff.mp mem
    have there := exact_ (key a)
    rw [found, Option.map_some, Option.map_some, Option.some_inj, selected] at there
    cases does with
    | true =>
        cases should with
        | true => exact absurd rfl eq
        | false => exact there
    | false =>
        cases should with
        | true => exact there.symm
        | false => exact absurd rfl eq
  · rintro (same_ | fixed) k
    · exact absurd same_ eq
    · cases found : t.find? k with
      | none => rfl
      | some a =>
          have mem := (find?_eq_some.mp found).1
          simp only [Option.map_some, Option.some_inj]
          cases selected : sel a with
          | true => simp only [fixed a mem selected, ite_self]
          | false => simp

/-! ## Removing and inserting one record -/

/-- Remove the record under `k`. -/
def erase (t : Table key) (k : κ) : Table key :=
  t.keep fun a => key a ≠ k

/-- A look-up after a row is gone. -/
theorem find?_erase (t : Table key) (k k' : κ) :
    (t.erase k).find? k' = if k' = k then none else t.find? k' := by
  apply Option.ext
  intro a
  rw [erase, find?_keep, Option.filter_eq_some_iff, find?_eq_some]
  by_cases eq : k' = k
  · subst eq
    simp
  · simp only [eq, if_false, find?_eq_some, ne_eq, decide_not, Bool.not_eq_true',
      decide_eq_false_iff_not]
    constructor
    · exact fun found => found.1
    · exact fun found => ⟨found, fun bad => eq (found.2.symm.trans bad)⟩

/-- Store `a` under its key, in place of a record already there. -/
def assign (t : Table key) (a : α) : Table key where
  rows := a :: (t.erase (key a)).rows
  nodup := by
    rw [List.map_cons, List.nodup_cons]
    refine ⟨?_, (t.erase (key a)).nodup⟩
    intro mem
    obtain ⟨b, memB, eq⟩ := List.mem_map.mp mem
    simp [erase, eq] at memB

/-- A look-up after a row is set. -/
@[simp]
theorem find?_assign (t : Table key) (a : α) (k : κ) :
    (t.assign a).find? k = if k = key a then some a else t.find? k := by
  by_cases eq : k = key a
  · subst eq
    simp [find?, assign]
  · have ne : ¬ key a = k := fun bad => eq bad.symm
    have tail : (t.assign a).find? k = (t.erase (key a)).find? k := by
      simp [find?, assign, ne]
    rw [tail, find?_erase, if_neg eq, if_neg eq]

/-- Store `a` unless its key is taken. -/
def insertNew (t : Table key) (a : α) : Option (Table key) :=
  match t.find? (key a) with
  | some _ => none
  | none => some (t.assign a)

/-- A row is inserted if its key is free. -/
theorem insertNew_eq_some {t t' : Table key} {a : α} :
    t.insertNew a = some t' ↔ t.find? (key a) = none ∧ t' = t.assign a := by
  unfold insertNew
  split
  · next found => simp [found]
  · next absent => simp [absent, eq_comm]

theorem insertNew_of_absent {t : Table key} {a : α} (absent : t.find? (key a) = none) :
    t.insertNew a = some (t.assign a) :=
  insertNew_eq_some.mpr ⟨absent, rfl⟩

/-! ## Tables that differ in dead records -/

/-- Under every key the tables hold the same, or each of them a dead record or none. -/
def AgreeBut (dead : α → Prop) (t t' : Table key) : Prop :=
  ∀ k, t.find? k = t'.find? k ∨ (∀ a ∈ t.find? k, dead a) ∧ ∀ a ∈ t'.find? k, dead a

namespace AgreeBut

variable {dead dead' : α → Prop} {t t' u u' : Table key}

theorem refl : t.AgreeBut dead t :=
  fun _ => .inl rfl

theorem symm (agree : t.AgreeBut dead t') : t'.AgreeBut dead t := by
  intro k
  rcases agree k with same | gone
  · exact .inl same.symm
  · exact .inr gone.symm

theorem mono (agree : t.AgreeBut dead t') (le : ∀ a, dead a → dead' a) :
    t.AgreeBut dead' t' := by
  intro k
  rcases agree k with same | gone
  · exact .inl same
  · exact .inr ⟨fun a found => le a (gone.1 a found), fun a found => le a (gone.2 a found)⟩

theorem assign (agree : t.AgreeBut dead t') (a : α) :
    (t.assign a).AgreeBut dead (t'.assign a) := by
  intro k
  rw [find?_assign, find?_assign]
  split
  · exact .inl rfl
  · exact agree k

/-- The same is made of the records of both tables, and it revives none of them. -/
theorem map (agree : t.AgreeBut dead t') {f : α → α} (stays : ∀ a, dead a → dead (f a))
    (left : ∀ k, u.find? k = (t.find? k).map f) (right : ∀ k, u'.find? k = (t'.find? k).map f) :
    u.AgreeBut dead u' := by
  have made {o : Option α} (gone : ∀ a ∈ o, dead a) : ∀ b ∈ o.map f, dead b := by
    intro b found
    obtain ⟨a, stored, rfl⟩ := Option.map_eq_some_iff.mp found
    exact stays a (gone a stored)
  intro k
  rw [left k, right k]
  rcases agree k with same | gone
  · exact .inl (congrArg (Option.map f) same)
  · exact .inr ⟨made gone.1, made gone.2⟩

theorem updateWhere (agree : t.AgreeBut dead t') {sel : α → Bool} {f : α → α}
    (same : ∀ a, key (f a) = key a) (stays : ∀ a, dead a → dead (f a)) :
    (t.updateWhere sel f same).AgreeBut dead (t'.updateWhere sel f same) := by
  refine agree.map (fun a gone => ?_) (fun k => find?_updateWhere ..) fun k => find?_updateWhere ..
  split
  · exact stays a gone
  · exact gone

/-- Only dead records are removed. -/
theorem keep (agree : t.AgreeBut dead t') {p : α → Bool} (removed : ∀ a, p a = false → dead a) :
    (t.keep p).AgreeBut dead t' := by
  intro k
  rw [find?_keep]
  rcases agree k with same | gone
  · rw [same]
    cases found : t'.find? k with
    | none => exact .inl rfl
    | some a =>
        cases kept : p a with
        | true => exact .inl (by simp [kept])
        | false =>
            refine .inr ⟨by simp [kept], ?_⟩
            rintro _ ⟨⟩
            exact removed a kept
  · refine .inr ⟨fun a found => gone.1 a ?_, gone.2⟩
    exact (Option.filter_eq_some_iff.mp found).1

end AgreeBut

end Table

end Conc
