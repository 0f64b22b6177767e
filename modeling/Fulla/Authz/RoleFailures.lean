import Fulla.Authz.RolePermissions

/-!
# Failures of the queries

What a call of `resolveForRoles` leaves in the cache when some of its queries fail, and what later
calls deliver.  A first query that fails is cached as "no permissions" for every role that was
missed (`Poisoned`); the other failures leave the cache as it was.
-/

namespace Fulla

namespace Authz

open Conc

/-- What fails in a call: the client and the three queries. -/
structure Failing where
  client : Bool := false
  roles : Bool := false
  grants : Bool := false
  permissions : Bool := false
deriving DecidableEq, Repr

/-- Whether an operation fails. -/
def Failing.fault (f : Failing) : RoleOp → Bool
  | .getDbClient => f.client
  | .queryRoles _ => f.roles
  | .queryRolePermissions _ => f.grants
  | .queryPermissions _ => f.permissions
  | _ => false

/-- What an operation does when some of them fail. -/
def resolving (catalog : RoleCatalog) (f : Failing) : Handler RoleSig RoleStore := fun o s =>
  execRole catalog (f.fault o) o s

/-- The answer of a call and the store after it. -/
def resolveCall (catalog : RoleCatalog) (s : RoleStore) (roles : List String) (f : Failing) :
    List String × RoleStore :=
  (resolveForRoles roles).run (resolving catalog f) s

/-! ## The entries that are written -/

section Entries

variable {catalog : RoleCatalog} {l : List RoleRow} {v : RoleRow → List String} {r : RoleRow}
  {role : String} {s : RoleStore}

theorem lookup_entry (apart : (l.map (·.name)).Nodup) (mem : r ∈ l) :
    (l.map fun r => (r.name, v r)).lookup r.name = some (v r) := by
  induction l with
  | nil => cases mem
  | cons r' l ih =>
      rw [List.map_cons, List.nodup_cons] at apart
      rcases List.mem_cons.mp mem with rfl | mem
      · simp
      · have ne : (r.name == r'.name) = false := by
          refine beq_eq_false_iff_ne.mpr fun same => apart.1 ?_
          rw [← same]
          exact List.mem_map_of_mem mem
        rw [List.map_cons, List.lookup_cons, ne]
        exact ih apart.2 mem

theorem lookup_no_entry (none : ∀ r ∈ l, r.name ≠ role) :
    (l.map fun r => (r.name, v r)).lookup role = Option.none := by
  induction l with
  | nil => rfl
  | cons r l ih =>
      have ne : (role == r.name) = false :=
        beq_eq_false_iff_ne.mpr fun same => none r List.mem_cons_self same.symm
      rw [List.map_cons, List.lookup_cons, ne]
      exact ih fun r mem => none r (List.mem_cons_of_mem _ mem)

/-- An entry is written for the role. -/
theorem cache_assign (apart : (l.map (·.name)).Nodup) (mem : r ∈ l) :
    (s.assign (l.map fun r => (r.name, v r))).cache r.name = some (v r) := by
  simp only [RoleStore.assign, lookup_entry apart mem, Option.some_or]

theorem cache_assign_of_none (none : ∀ r ∈ l, r.name ≠ role) :
    (s.assign (l.map fun r => (r.name, v r))).cache role = s.cache role := by
  simp only [RoleStore.assign, lookup_no_entry none, Option.none_or]

end Entries

/-! ## The hops one by one -/

section Hops

variable {catalog : RoleCatalog} {f : Failing} {s : RoleStore} {merged misses : List String}
  {roleRows : List RoleRow} {rpRows : List RolePermissionRow} {role permission : String}

/-- The roles with a row, and their permissions. -/
def grantedEntries (catalog : RoleCatalog) (roleRows : List RoleRow)
    (rpRows : List RolePermissionRow) : List (String × List String) :=
  (roleRows.filter fun r => permissionIdsOf rpRows r.id ≠ []).map fun r =>
    (r.name, namesOf (catalog.permissions.rows.filter fun p =>
      p.id ∈ rpRows.map (·.permissionId)) (permissionIdsOf rpRows r.id))

/-- What reading the names does, when it may fail. -/
theorem run_resolveNames :
    (resolveNames merged roleRows rpRows).run (resolving catalog f) s =
      if f.permissions then (merged, s)
      else
        (merged ++ namesOf (catalog.permissions.rows.filter fun p =>
            p.id ∈ rpRows.map (·.permissionId)) (rpRows.map (·.permissionId)),
          s.assign (grantedEntries catalog roleRows rpRows)) := by
  unfold resolveNames
  cases fails : f.permissions with
  | true => simp [resolving, execRole, Failing.fault, fails]
  | false =>
      simp only [Prog.run_op, resolving, execRole, Failing.fault, fails]
      rfl

/-- The rows of the roles. -/
def grantsOf (s : RoleStore) (roleRows : List RoleRow) : List RolePermissionRow :=
  s.rolePermissions.filter fun g => g.roleId ∈ roleRows.map (·.id)

/-- The roles without a row are cached. -/
def ungrantedCached (s : RoleStore) (roleRows : List RoleRow) : RoleStore :=
  s.assign ((roleRows.filter fun r => permissionIdsOf (grantsOf s roleRows) r.id = []).map fun r =>
    (r.name, []))

/-- The rest of the second hop. -/
theorem run_resolveGrants (goes : f.grants = false) :
    (resolveGrants merged roleRows).run (resolving catalog f) s =
      if (grantsOf s roleRows).isEmpty then (merged, ungrantedCached s roleRows)
      else
        (resolveNames merged roleRows (grantsOf s roleRows)).run (resolving catalog f)
          (ungrantedCached s roleRows) := by
  have answer : (resolving catalog f (.queryRolePermissions (roleRows.map (·.id))) s) =
      (some (grantsOf s roleRows), s) := by
    simp only [resolving, execRole, Failing.fault, goes]
    rfl
  have cached : (resolving catalog f (.cacheNoGrants ((roleRows.filter fun r =>
      permissionIdsOf (grantsOf s roleRows) r.id = []).map (·.name))) s) =
        ((), ungrantedCached s roleRows) := by
    simp only [resolving, execRole, ungrantedCached, List.map_map]
    rfl
  unfold resolveGrants
  rw [Prog.run_op, answer]
  show Prog.run _ (roleStep _ >>= _) _ = _
  rw [Prog.run_bind, roleStep, Prog.call, Prog.run_op, cached]
  show Prog.run _ (if _ then _ else _) _ = _
  split
  · rfl
  · rfl

theorem run_resolveGrants_fails (fails : f.grants = true) :
    (resolveGrants merged roleRows).run (resolving catalog f) s = (merged, s) := by
  have answer : (resolving catalog f (.queryRolePermissions (roleRows.map (·.id))) s) =
      (none, s) := by
    simp only [resolving, execRole, Failing.fault, fails]
    rfl
  unfold resolveGrants
  rw [Prog.run_op, answer]
  rfl

/-- The rows of the missed roles. -/
def rowsOf (catalog : RoleCatalog) (misses : List String) : List RoleRow :=
  catalog.roles.rows.filter fun r => r.name ∈ misses

/-- What resolving the roles without an entry does. -/
theorem run_resolveMisses :
    (resolveMisses merged misses).run (resolving catalog f) s =
      if f.roles || (rowsOf catalog misses).isEmpty then (merged, s.emplaceEmpty misses)
      else (resolveGrants merged (rowsOf catalog misses)).run (resolving catalog f) s := by
  unfold resolveMisses
  cases fails : f.roles with
  | true =>
      have answer : (resolving catalog f (.queryRoles misses) s) = (none, s) := by
        simp only [resolving, execRole, Failing.fault, fails]
        rfl
      rw [Prog.run_op, answer]
      rfl
  | false =>
      have answer : (resolving catalog f (.queryRoles misses) s) =
          (some (rowsOf catalog misses), s) := by
        simp only [resolving, execRole, Failing.fault, fails]
        rfl
      rw [Prog.run_op, answer]
      show Prog.run _ (if _ then _ else _) _ = _
      rw [Bool.false_or]
      split
      · rfl
      · rfl

/-- **What a call does**, by what fails. -/
theorem resolveCall_eq (s : RoleStore) (roles : List String) (f : Failing) :
    resolveCall catalog s roles f =
      if (s.readCache roles).2.isEmpty || f.client then ((s.readCache roles).1, s)
      else
        (resolveMisses (s.readCache roles).1 (s.readCache roles).2).run
          (resolving catalog f) s := by
  have read : resolving catalog f (.readCache roles) s = (s.readCache roles, s) := rfl
  have client : resolving catalog f .getDbClient s = (!f.client, s) := rfl
  unfold resolveCall resolveForRoles
  rw [Prog.run_bind, roleStep, Prog.call, Prog.run_op, read, Prog.run_ret, resolveUncached]
  cases none : (s.readCache roles).2.isEmpty with
  | true => rfl
  | false =>
      rw [if_neg Bool.false_ne_true, Prog.run_bind, roleStep, Prog.call, Prog.run_op, client,
        Bool.false_or, Prog.run_ret]
      cases f.client with
      | true => rfl
      | false => rfl

end Hops

/-! ## One call -/

section OneCall

variable {catalog : RoleCatalog} {s : RoleStore} {roles : List String} {f : Failing}
  {role permission : String}

/-- The role has some permission. -/
def Granted (catalog : RoleCatalog) (rows : List RolePermissionRow) (role : String) : Prop :=
  ∃ permission, Stored catalog rows role permission

/-- The roles without an entry. -/
theorem mem_readCache {misses : List String} (eq : (s.readCache roles).2 = misses) :
    role ∈ misses ↔ role ∈ roles ∧ s.cache role = none := by
  rw [← eq, RoleStore.readCache, List.mem_filter, decide_eq_true_eq]

/-- What the entries deliver. -/
theorem mem_merged : permission ∈ (s.readCache roles).1 ↔
    ∃ role ∈ roles, ∃ l, s.cache role = some l ∧ permission ∈ l := by
  simp only [RoleStore.readCache, List.mem_flatMap]
  refine exists_congr fun role => and_congr_right fun _ => ?_
  cases s.cache role with
  | none => simp
  | some l => simp

theorem mem_grantsOf {roleRows : List RoleRow} {r : RoleRow} (mem : r ∈ roleRows) {pid : Int32} :
    ⟨r.id, pid⟩ ∈ grantsOf s roleRows ↔ ⟨r.id, pid⟩ ∈ s.rolePermissions := by
  simp only [grantsOf, List.mem_filter, decide_eq_true_eq]
  exact and_iff_left (List.mem_map_of_mem mem)

/-- The names of a role's rows are its permissions. -/
theorem mem_names_of_row {roleRows : List RoleRow} {r : RoleRow} (mem : r ∈ roleRows)
    (exists_ : r ∈ catalog.roles.rows) :
    permission ∈ namesOf (catalog.permissions.rows.filter fun p =>
        p.id ∈ (grantsOf s roleRows).map (·.permissionId))
          (permissionIdsOf (grantsOf s roleRows) r.id) ↔
      Stored catalog s.rolePermissions r.name permission := by
  rw [mem_namesOf, stored_iff_of_mem exists_]
  · simp only [mem_permissionIdsOf, mem_grantsOf mem]
  · intro pid there
    exact List.mem_map_of_mem (mem_permissionIdsOf.mp there)

theorem rowsOf_name {misses : List String} {r : RoleRow} (mem : r ∈ rowsOf catalog misses) :
    r ∈ catalog.roles.rows ∧ r.name ∈ misses := by
  rwa [rowsOf, List.mem_filter, decide_eq_true_eq] at mem

section Cached

variable {misses : List String}

/-- The first entries of the second hop, for a role of the misses or another. -/
theorem cache_ungrantedCached_of_row {r : RoleRow} (mem : r ∈ rowsOf catalog misses) :
    (ungrantedCached s (rowsOf catalog misses)).cache r.name =
      if permissionIdsOf (grantsOf s (rowsOf catalog misses)) r.id = [] then some []
      else s.cache r.name := by
  unfold ungrantedCached
  split
  · next none =>
      refine cache_assign (catalog.apart.sublist ?_)
        (List.mem_filter.mpr ⟨mem, decide_eq_true none⟩)
      exact (List.filter_sublist.trans List.filter_sublist).map _
  · next some_ =>
      refine cache_assign_of_none fun r' mem' same => ?_
      rw [List.mem_filter, decide_eq_true_eq] at mem'
      rw [RoleCatalog.role_of_name (rowsOf_name mem'.1).1 (rowsOf_name mem).1 same] at mem'
      exact some_ mem'.2

/-- The entry of a role that was resolved. -/
theorem cache_granted_of_row {t : RoleStore} {rpRows : List RolePermissionRow} {r : RoleRow}
    (mem : r ∈ rowsOf catalog misses) :
    (t.assign (grantedEntries catalog (rowsOf catalog misses) rpRows)).cache r.name =
      if permissionIdsOf rpRows r.id = [] then t.cache r.name
      else some (namesOf (catalog.permissions.rows.filter fun p =>
        p.id ∈ rpRows.map (·.permissionId)) (permissionIdsOf rpRows r.id)) := by
  unfold grantedEntries
  split
  · next none =>
      refine cache_assign_of_none fun r' mem' same => ?_
      rw [List.mem_filter, decide_eq_true_eq] at mem'
      rw [RoleCatalog.role_of_name (rowsOf_name mem'.1).1 (rowsOf_name mem).1 same] at mem'
      exact mem'.2 none
  · next some_ =>
      refine cache_assign (v := fun r => namesOf _ (permissionIdsOf rpRows r.id))
        (catalog.apart.sublist ?_) (List.mem_filter.mpr ⟨mem, decide_eq_true some_⟩)
      exact (List.filter_sublist.trans List.filter_sublist).map _

/-- A role that is not of the misses is left alone by both hops. -/
theorem cache_ungrantedCached_of_ne (none : ∀ r ∈ rowsOf catalog misses, r.name ≠ role) :
    (ungrantedCached s (rowsOf catalog misses)).cache role = s.cache role :=
  cache_assign_of_none fun r mem => none r (List.mem_filter.mp mem).1

theorem cache_granted_of_ne {t : RoleStore} {rpRows : List RolePermissionRow}
    (none : ∀ r ∈ rowsOf catalog misses, r.name ≠ role) :
    (t.assign (grantedEntries catalog (rowsOf catalog misses) rpRows)).cache role =
      t.cache role :=
  cache_assign_of_none fun r mem => none r (List.mem_filter.mp mem).1

end Cached

/-- The store after a call. -/
theorem resolveCall_store (s : RoleStore) (roles : List String) (f : Failing) :
    let misses := (s.readCache roles).2
    let rows := rowsOf catalog misses
    (resolveCall catalog s roles f).2 =
      if misses.isEmpty || f.client then s
      else if f.roles || rows.isEmpty then s.emplaceEmpty misses
      else if f.grants then s
      else if (grantsOf s rows).isEmpty || f.permissions then ungrantedCached s rows
      else (ungrantedCached s rows).assign (grantedEntries catalog rows (grantsOf s rows)) := by
  intro misses rows
  rw [resolveCall_eq]
  split
  · rfl
  · rw [run_resolveMisses]
    split
    · rfl
    · cases fails : f.grants with
      | true => rw [run_resolveGrants_fails fails, if_pos rfl]
      | false =>
          rw [run_resolveGrants fails, if_neg Bool.false_ne_true]
          cases none : (grantsOf s rows).isEmpty with
          | true => rfl
          | false =>
              rw [if_neg Bool.false_ne_true, run_resolveNames, Bool.false_or]
              cases f.permissions with
              | true => rfl
              | false => rfl

/-- A call leaves the rows alone. -/
theorem rolePermissions_resolveCall :
    (resolveCall catalog s roles f).2.rolePermissions = s.rolePermissions := by
  rw [resolveCall_store]
  split
  · rfl
  · split
    · rfl
    · split
      · rfl
      · split
        · rfl
        · rfl

/-- Only the entries of the misses change. -/
theorem cache_resolveCall_of_not_miss (hit : role ∉ (s.readCache roles).2) :
    (resolveCall catalog s roles f).2.cache role = s.cache role := by
  have others : ∀ r ∈ rowsOf catalog (s.readCache roles).2, r.name ≠ role := fun r mem same =>
    hit (same ▸ (rowsOf_name mem).2)
  rw [resolveCall_store]
  split
  · rfl
  · split
    · simp only [RoleStore.emplaceEmpty, hit, and_false, if_false]
    · split
      · rfl
      · split
        · exact cache_ungrantedCached_of_ne others
        · rw [cache_granted_of_ne others, cache_ungrantedCached_of_ne others]

/-- The entry of a missed role: none, an empty one, or the permissions of the role. -/
theorem cache_resolveCall_of_row {r : RoleRow} (mem : r ∈ rowsOf catalog (s.readCache roles).2)
    (miss : s.cache r.name = none) :
    let gs := grantsOf s (rowsOf catalog (s.readCache roles).2)
    (resolveCall catalog s roles f).2.cache r.name =
      if f.client then none
      else if f.roles then some []
      else if f.grants then none
      else if permissionIdsOf gs r.id = [] then some []
      else if f.permissions then none
      else
        some (namesOf (catalog.permissions.rows.filter fun p => p.id ∈ gs.map (·.permissionId))
          (permissionIdsOf gs r.id)) := by
  intro gs
  have missed := (rowsOf_name mem).2
  have some_ : (s.readCache roles).2.isEmpty = false := by
    cases none : (s.readCache roles).2 with
    | nil =>
        rw [none] at missed
        cases missed
    | cons => rfl
  have rows : (rowsOf catalog (s.readCache roles).2).isEmpty = false := by
    cases none : rowsOf catalog (s.readCache roles).2 with
    | nil =>
        rw [none] at mem
        cases mem
    | cons => rfl
  rw [resolveCall_store, some_, rows, Bool.false_or, Bool.or_false]
  split
  · exact miss
  · split
    · simp only [RoleStore.emplaceEmpty, miss, missed, and_self, if_true]
    · split
      · exact miss
      · by_cases none : permissionIdsOf gs r.id = []
        · rw [if_pos none]
          split
          · rw [cache_ungrantedCached_of_row mem, if_pos none]
          · rw [cache_granted_of_row mem, if_pos none, cache_ungrantedCached_of_row mem,
              if_pos none]
        · have gs_some : (grantsOf s (rowsOf catalog (s.readCache roles).2)).isEmpty = false := by
            cases eq : grantsOf s (rowsOf catalog (s.readCache roles).2) with
            | nil =>
                refine absurd ?_ none
                show permissionIdsOf (grantsOf s _) r.id = []
                rw [eq]
                rfl
            | cons => rfl
          rw [if_neg none, gs_some, Bool.false_or]
          split
          · rw [cache_ungrantedCached_of_row mem, if_neg none, miss]
          · rw [cache_granted_of_row mem, if_neg none]

/-- A missed role that does not exist gets an empty entry or none. -/
theorem cache_resolveCall_of_no_row (none : ∀ r ∈ catalog.roles.rows, r.name ≠ role)
    (miss : s.cache role = Option.none) {l : List String}
    (cached : (resolveCall catalog s roles f).2.cache role = some l) : l = [] := by
  have others : ∀ r ∈ rowsOf catalog (s.readCache roles).2, r.name ≠ role := fun r mem =>
    none r (rowsOf_name mem).1
  rw [resolveCall_store] at cached
  split at cached
  · rw [miss] at cached
    cases cached
  · split at cached
    · simp only [RoleStore.emplaceEmpty, miss, true_and] at cached
      split at cached
      · cases cached
        rfl
      · cases cached
    · split at cached
      · rw [miss] at cached
        cases cached
      · split at cached
        · rw [cache_ungrantedCached_of_ne others, miss] at cached
          cases cached
        · rw [cache_granted_of_ne others, cache_ungrantedCached_of_ne others, miss] at cached
          cases cached

/-- A role that is asked for and not cached, by its row. -/
theorem mem_rowsOf {r : RoleRow} (exists_ : r ∈ catalog.roles.rows) (asked : r.name ∈ roles)
    (miss : s.cache r.name = none) : r ∈ rowsOf catalog (s.readCache roles).2 := by
  rw [rowsOf, List.mem_filter, decide_eq_true_eq]
  exact ⟨exists_, (mem_readCache rfl).mpr ⟨asked, miss⟩⟩

/-- A call without failures delivers what is cached and, for the rest, what is stored. -/
theorem answer_resolveCall : permission ∈ (resolveCall catalog s roles {}).1 ↔
    (∃ role ∈ roles, ∃ l, s.cache role = some l ∧ permission ∈ l) ∨
      ∃ role ∈ roles, s.cache role = none ∧ Stored catalog s.rolePermissions role permission := by
  have stored : (∃ role ∈ roles, s.cache role = none ∧
      Stored catalog s.rolePermissions role permission) ↔
        ∃ r ∈ rowsOf catalog (s.readCache roles).2,
          Stored catalog s.rolePermissions r.name permission := by
    constructor
    · rintro ⟨role, asked, miss, r, exists_, rfl, has⟩
      exact ⟨r, mem_rowsOf exists_ asked miss, r, exists_, rfl, has⟩
    · rintro ⟨r, mem, has⟩
      obtain ⟨asked, miss⟩ := (mem_readCache rfl).mp (rowsOf_name mem).2
      exact ⟨r.name, asked, miss, has⟩
  rw [stored, ← mem_merged, resolveCall_eq]
  split
  · next none =>
      rw [Bool.or_false, List.isEmpty_iff] at none
      refine (or_iff_left ?_).symm
      rintro ⟨r, mem, _⟩
      have := (rowsOf_name mem).2
      rw [none] at this
      cases this
  · rw [run_resolveMisses]
    split
    · next none =>
        rw [Bool.false_or, List.isEmpty_iff] at none
        refine (or_iff_left ?_).symm
        rintro ⟨r, mem, _⟩
        rw [none] at mem
        cases mem
    · rw [run_resolveGrants rfl]
      have has (r : RoleRow) (mem : r ∈ rowsOf catalog (s.readCache roles).2) :
          Stored catalog s.rolePermissions r.name permission ↔
            ∃ p ∈ catalog.permissions.rows, p.name = permission ∧
              ⟨r.id, p.id⟩ ∈ grantsOf s (rowsOf catalog (s.readCache roles).2) := by
        rw [stored_iff_of_mem (rowsOf_name mem).1]
        simp only [mem_grantsOf mem]
      split
      · next none =>
          rw [List.isEmpty_iff] at none
          refine (or_iff_left ?_).symm
          rintro ⟨r, mem, stored⟩
          obtain ⟨p, _, _, there⟩ := (has r mem).mp stored
          rw [none] at there
          cases there
      · rw [run_resolveNames, if_neg Bool.false_ne_true, List.mem_append,
          mem_namesOf fun _ mem => mem]
        refine or_congr_right ⟨?_, ?_⟩
        · rintro ⟨p, exists_, name, mem⟩
          obtain ⟨g, there, permissionId⟩ := List.mem_map.mp mem
          have asked := (List.mem_filter.mp there).2
          rw [decide_eq_true_eq] at asked
          obtain ⟨r, row, same⟩ := List.mem_map.mp asked
          refine ⟨r, row, (has r row).mpr ⟨p, exists_, name, ?_⟩⟩
          rw [same, ← permissionId]
          exact there
        · rintro ⟨r, row, stored⟩
          obtain ⟨p, exists_, name, there⟩ := (has r row).mp stored
          exact ⟨p, exists_, name, List.mem_map_of_mem there⟩

/-- The entry of a missed role that exists is empty after a failure of the first query, and else
what is stored. -/
theorem entry_of_row {r : RoleRow} (row : r ∈ rowsOf catalog (s.readCache roles).2)
    (miss : s.cache r.name = none) {l : List String}
    (cached : (resolveCall catalog s roles f).2.cache r.name = some l) :
    f.client = false ∧ f.roles = true ∧ l = [] ∨ ∀ permission,
      permission ∈ l ↔ Stored catalog s.rolePermissions r.name permission := by
  have exists_ := (rowsOf_name row).1
  rw [cache_resolveCall_of_row row miss] at cached
  split at cached
  · cases cached
  · next client =>
      split at cached
      · next fails =>
          cases cached
          exact .inl ⟨by simpa using client, fails, rfl⟩
      · right
        intro permission
        split at cached
        · cases cached
        · split at cached
          · next none =>
              cases cached
              rw [← mem_names_of_row row exists_, none]
              simp [namesOf]
          · split at cached
            · cases cached
            · cases cached
              exact mem_names_of_row row exists_

/-- The rows of a role that has a permission. -/
theorem exists_row_of_granted (granted : Granted catalog s.rolePermissions role) :
    ∃ r ∈ catalog.roles.rows, r.name = role ∧ ∀ misses, r ∈ rowsOf catalog misses →
      permissionIdsOf (grantsOf s (rowsOf catalog misses)) r.id ≠ [] := by
  obtain ⟨permission, r, exists_, rfl, p, _, _, there⟩ := granted
  refine ⟨r, exists_, rfl, fun misses row none => ?_⟩
  have mem := mem_permissionIdsOf.mpr ((mem_grantsOf row).mpr there)
  rw [none] at mem
  cases mem

end OneCall

/-! ## Sequences of calls -/

section Sequences

variable {catalog : RoleCatalog} {s : RoleStore} {calls : List (List String × Failing)}
  {role permission : String}

/-- The store after a sequence of calls, the oldest first. -/
def callsFrom (catalog : RoleCatalog) (s : RoleStore) : List (List String × Failing) → RoleStore
  | [] => s
  | c :: calls => callsFrom catalog (resolveCall catalog s c.1 c.2).2 calls

/-- The first call that asks for the role, has a client and is not cut short by its second or
third query fails at its first. -/
def Poisoned (role : String) : List (List String × Failing) → Prop
  | [] => False
  | (roles, f) :: calls =>
    if role ∈ roles ∧ f.client = false then
      if f.roles then True
      else if f.grants || f.permissions then Poisoned role calls
      else False
    else Poisoned role calls

/-- What is cached for the role is what is stored. -/
def Exactly (catalog : RoleCatalog) (s : RoleStore) (role : String) : Prop :=
  ∀ l, s.cache role = some l → ∀ permission,
    permission ∈ l ↔ Stored catalog s.rolePermissions role permission

theorem rolePermissions_callsFrom :
    (callsFrom catalog s calls).rolePermissions = s.rolePermissions := by
  induction calls generalizing s with
  | nil => rfl
  | cons c calls ih => exact ih.trans rolePermissions_resolveCall

/-- An entry stays as it is. -/
theorem cache_resolveCall_of_some {roles : List String} {f : Failing} {l : List String}
    (cached : s.cache role = some l) : (resolveCall catalog s roles f).2.cache role = some l := by
  refine (cache_resolveCall_of_not_miss fun miss => ?_).trans cached
  rw [((mem_readCache rfl).mp miss).2] at cached
  cases cached

theorem cache_resolveCall_of_not_asked {roles : List String} {f : Failing} (asked : role ∉ roles) :
    (resolveCall catalog s roles f).2.cache role = s.cache role :=
  cache_resolveCall_of_not_miss fun miss => asked ((mem_readCache rfl).mp miss).1

/-- An entry stays. -/
theorem cache_callsFrom_of_some {l : List String} (cached : s.cache role = some l) :
    (callsFrom catalog s calls).cache role = some l := by
  induction calls generalizing s with
  | nil => exact cached
  | cons c calls ih => exact ih (cache_resolveCall_of_some cached)

theorem Exactly.of_entry {l : List String} (cached : s.cache role = some l)
    (exact_ : ∀ permission, permission ∈ l ↔ Stored catalog s.rolePermissions role permission) :
    Exactly catalog s role := by
  intro l' cached'
  cases cached.symm.trans cached'
  exact exact_

/-- A role without permissions is cached with none. -/
theorem exactly_of_not_granted (none : ¬ Granted catalog s.rolePermissions role)
    (exact_ : Exactly catalog s role) : Exactly catalog (callsFrom catalog s calls) role := by
  induction calls generalizing s with
  | nil => exact exact_
  | cons c calls ih =>
      refine ih (by rwa [rolePermissions_resolveCall]) fun l cached permission => ?_
      rw [rolePermissions_resolveCall]
      cases before : s.cache role with
      | some l' =>
          cases (cache_resolveCall_of_some before).symm.trans cached
          exact exact_ _ before permission
      | none =>
          refine iff_of_false (fun mem => ?_) fun stored => none ⟨permission, stored⟩
          by_cases asked : role ∈ c.1
          · by_cases exists_ : ∃ r ∈ catalog.roles.rows, r.name = role
            · obtain ⟨r, exists_, rfl⟩ := exists_
              rcases entry_of_row (mem_rowsOf exists_ asked before) before cached with
                ⟨_, _, rfl⟩ | same
              · cases mem
              · exact none ⟨permission, (same permission).mp mem⟩
            · have others : ∀ r ∈ catalog.roles.rows, r.name ≠ role := fun r mem same =>
                exists_ ⟨r, mem, same⟩
              rw [cache_resolveCall_of_no_row others before cached] at mem
              cases mem
          · rw [cache_resolveCall_of_not_asked asked, before] at cached
            cases cached

/-- A role with permissions that is not cached yet: it is cached as empty if it is poisoned, and
else as what is stored. -/
theorem entry_of_granted (granted : Granted catalog s.rolePermissions role)
    (miss : s.cache role = none) :
    (Poisoned role calls → (callsFrom catalog s calls).cache role = some []) ∧
      (¬ Poisoned role calls → Exactly catalog (callsFrom catalog s calls) role) := by
  induction calls generalizing s with
  | nil =>
      refine ⟨nofun, fun _ l cached => ?_⟩
      rw [show (callsFrom catalog s []).cache role = none from miss] at cached
      cases cached
  | cons c calls ih =>
      obtain ⟨roles, f⟩ := c
      have granted' : Granted catalog (resolveCall catalog s roles f).2.rolePermissions role := by
        rwa [rolePermissions_resolveCall]
      simp only [Poisoned, callsFrom]
      by_cases asked : role ∈ roles
      · obtain ⟨r, exists_, rfl, some_⟩ := exists_row_of_granted granted
        have row := mem_rowsOf exists_ asked miss
        have entry := cache_resolveCall_of_row (f := f) row miss
        dsimp only at entry
        rw [if_neg (some_ _ row)] at entry
        cases client : f.client with
        | true =>
            rw [if_neg (by simp)]
            rw [client] at entry
            exact ih granted' entry
        | false =>
            rw [if_pos ⟨asked, rfl⟩]
            cases fails : f.roles with
            | true =>
                rw [client, fails] at entry
                exact ⟨fun _ => cache_callsFrom_of_some entry, fun no => absurd trivial no⟩
            | false =>
                rw [if_neg Bool.false_ne_true]
                cases cut : f.grants || f.permissions with
                | true =>
                    refine ih granted' (entry.trans ?_)
                    rw [client, fails]
                    cases grants : f.grants with
                    | true => rfl
                    | false =>
                        rw [grants, Bool.false_or] at cut
                        rw [cut]
                        rfl
                | false =>
                    rw [Bool.or_eq_false_iff] at cut
                    rw [client, fails, cut.1, cut.2] at entry
                    refine ⟨nofun, fun _ => ?_⟩
                    refine .of_entry (cache_callsFrom_of_some entry) fun permission => ?_
                    rw [rolePermissions_callsFrom, rolePermissions_resolveCall]
                    exact mem_names_of_row row exists_
      · rw [if_neg fun both => asked both.1]
        exact ih granted' ((cache_resolveCall_of_not_asked asked).trans miss)

/-- A call without failures, after any sequence of calls from an empty cache, delivers the
permissions of its roles just when those of the poisoned ones are other roles' too. -/
theorem failures_forgotten_iff (catalog : RoleCatalog) (rows : List RolePermissionRow)
    (calls : List (List String × Failing)) (roles : List String) :
    (∀ permission,
        permission ∈
          (resolveCall catalog (callsFrom catalog ⟨rows, fun _ => none⟩ calls) roles {}).1 ↔
          ∃ role ∈ roles, Stored catalog rows role permission) ↔
      ∀ role ∈ roles, Poisoned role calls → ∀ permission, Stored catalog rows role permission →
        ∃ role' ∈ roles, ¬ Poisoned role' calls ∧ Stored catalog rows role' permission := by
  have same : (callsFrom catalog ⟨rows, fun _ => none⟩ calls).rolePermissions = rows :=
    rolePermissions_callsFrom
  have delivered (permission : String) :
      permission ∈
        (resolveCall catalog (callsFrom catalog ⟨rows, fun _ => none⟩ calls) roles {}).1 ↔
        ∃ role ∈ roles, ¬ Poisoned role calls ∧ Stored catalog rows role permission := by
    rw [answer_resolveCall, same, ← exists_or]
    refine exists_congr fun role => ?_
    rw [← and_or_left]
    refine and_congr_right fun _ => ?_
    by_cases granted : Granted catalog rows role
    · have entry : (Poisoned role calls →
            (callsFrom catalog ⟨rows, fun _ => none⟩ calls).cache role = some []) ∧
          (¬ Poisoned role calls →
            Exactly catalog (callsFrom catalog ⟨rows, fun _ => none⟩ calls) role) :=
        entry_of_granted granted rfl
      obtain ⟨poisoned, exactly_⟩ := entry
      by_cases bad : Poisoned role calls
      · simp [bad, poisoned bad]
      · simp only [bad, not_false_eq_true, true_and]
        cases cached : (callsFrom catalog ⟨rows, fun _ => none⟩ calls).cache role with
        | none => simp
        | some l =>
            have := exactly_ bad l cached permission
            rw [same] at this
            simp [this]
    · have nothing : ¬ Stored catalog rows role permission := fun stored =>
        granted ⟨permission, stored⟩
      have exactly_ : Exactly catalog (callsFrom catalog ⟨rows, fun _ => none⟩ calls) role :=
        exactly_of_not_granted granted nofun
      simp only [nothing, and_false, or_false, iff_false]
      rintro ⟨l, cached, mem⟩
      have := exactly_ l cached permission
      rw [same] at this
      exact nothing (this.mp mem)
  simp only [delivered]
  constructor
  · intro all role asked _ permission stored
    exact (all permission).mpr ⟨role, asked, stored⟩
  · intro covered permission
    constructor
    · rintro ⟨role, asked, _, stored⟩
      exact ⟨role, asked, stored⟩
    · rintro ⟨role, asked, stored⟩
      by_cases bad : Poisoned role calls
      · exact covered role asked bad permission stored
      · exact ⟨role, asked, bad, stored⟩

end Sequences

section Sample

/-- One role with one permission. -/
def sampleCatalog : RoleCatalog where
  roles := ⟨[⟨1, "support"⟩], by decide⟩
  apart := by decide
  permissions := ⟨[⟨5, "users:read"⟩, ⟨6, "users:write"⟩], by decide⟩

/-- The first query of the first call fails; the second call has no failure and delivers nothing. -/
theorem failure_remembered :
    (resolveCall sampleCatalog
        (callsFrom sampleCatalog ⟨[⟨1, 5⟩], fun _ => none⟩ [(["support"], { roles := true })])
        ["support"] {}).1 = [] ∧
      ¬ ∀ permission, permission ∈ (resolveCall sampleCatalog
          (callsFrom sampleCatalog ⟨[⟨1, 5⟩], fun _ => none⟩ [(["support"], { roles := true })])
          ["support"] {}).1 ↔
        ∃ role ∈ ["support"], Stored sampleCatalog [⟨1, 5⟩] role permission := by
  have nothing : (resolveCall sampleCatalog
      (callsFrom sampleCatalog ⟨[⟨1, 5⟩], fun _ => none⟩ [(["support"], { roles := true })])
      ["support"] {}).1 = [] := rfl
  refine ⟨nothing, fun delivers => ?_⟩
  have := (delivers "users:read").mpr ⟨"support", List.mem_cons_self, ⟨1, "support"⟩,
    List.mem_cons_self, rfl, ⟨5, "users:read"⟩, List.mem_cons_self, rfl, List.mem_cons_self⟩
  rw [nothing] at this
  cases this

end Sample

end Authz

end Fulla
