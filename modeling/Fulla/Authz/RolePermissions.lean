import Mathlib.Logic.Function.Basic
import Fulla.Account.Tables

/-!
# The permissions of roles

`RolePermissionResolver.cc` for a Postgres storage: the process-wide cache of the permissions of
roles and the chain of three queries that fills it.  `putRolePermissions` of
`RoleScopeAdminService.cc` replaces the permissions of one role in a transaction and then drops
the cached entry; any other change drops all of them.

Roles and permissions themselves are fixed (`RoleCatalog`); what changes is which role has which.
-/

namespace Fulla

namespace Authz

open Conc

/-- A row of `permissions`. -/
structure PermissionRow where
  id : Int32
  name : String
deriving DecidableEq, Repr

/-- A row of `role_permissions`. -/
structure RolePermissionRow where
  roleId : Int32
  permissionId : Int32
deriving DecidableEq, Repr

/-- The rows of roles, permissions and their assignment. -/
structure RoleCatalog where
  roles : Table RoleRow.id
  /-- `UNIQUE` -/
  apart : (roles.rows.map (·.name)).Nodup
  permissions : Table PermissionRow.id

namespace RoleCatalog

variable {catalog : RoleCatalog}

theorem role_of_name {r r' : RoleRow} (mem : r ∈ catalog.roles.rows)
    (mem' : r' ∈ catalog.roles.rows)
    (same : r.name = r'.name) : r = r' :=
  List.inj_on_of_nodup_map catalog.apart mem mem' same

theorem role_of_id {r r' : RoleRow} (mem : r ∈ catalog.roles.rows) (mem' : r' ∈ catalog.roles.rows)
    (same : r.id = r'.id) : r = r' :=
  List.inj_on_of_nodup_map catalog.roles.nodup mem mem' same

end RoleCatalog

/-- The rows that change, and the cache of the process. -/
structure RoleStore where
  rolePermissions : List RolePermissionRow := []
  /-- `gRolePermissionsCache` -/
  cache : String → Option (List String) := fun _ => none

/-- The role has the permission. -/
def Stored (catalog : RoleCatalog) (rows : List RolePermissionRow) (role permission : String) :
    Prop :=
  ∃ r ∈ catalog.roles.rows, r.name = role ∧
    ∃ p ∈ catalog.permissions.rows, p.name = permission ∧ ⟨r.id, p.id⟩ ∈ rows

/-- The operations of a call. -/
inductive RoleOp where
  /-- The cached entries of the roles and the roles without one, under one lock. -/
  | readCache (roles : List String)
  | getDbClient
  | queryRoles (names : List String)
  | queryRolePermissions (roleIds : List Int32)
  | queryPermissions (ids : List Int32)
  | cacheMissesAsEmpty (misses : List String)
  | cacheNoGrants (roleNames : List String)
  | fill (entries : List (String × List String))
  | findRole (roleId : Int32)
  /-- The transaction of `putRolePermissions`. -/
  | replaceRolePermissions (roleId : Int32) (requested : List String)
  /-- Any other change. -/
  | replaceAll (rows : List RolePermissionRow)
  | invalidateForRole (role : String)
  | invalidateAll

/-- None is an exception of the database. -/
abbrev RoleSig : Sig where
  Op := RoleOp
  Res
    | .readCache _ => List String × List String
    | .getDbClient => Bool
    | .queryRoles _ => Option (List RoleRow)
    | .queryRolePermissions _ => Option (List RolePermissionRow)
    | .queryPermissions _ => Option (List PermissionRow)
    | .findRole _ => Option RoleRow
    | .replaceRolePermissions _ _ => Bool
    | .cacheMissesAsEmpty _ | .cacheNoGrants _ | .fill _ | .replaceAll _ => Unit
    | .invalidateForRole _ | .invalidateAll => Unit

/-- A call of the resolver or of the administration. -/
abbrev RoleProg := Prog RoleSig

def roleStep (o : RoleOp) : RoleProg (RoleSig.Res o) :=
  Prog.call (S := RoleSig) o

/-! ## Execution -/

/-- `names.insert(pit->second)` for the ids that have a row. -/
def namesOf (permRows : List PermissionRow) (ids : List Int32) : List String :=
  ids.filterMap fun pid => (permRows.find? fun p => p.id = pid).map (·.name)

/-- `roleToPermIds[roleId]` -/
def permissionIdsOf (rpRows : List RolePermissionRow) (roleId : Int32) : List Int32 :=
  (rpRows.filter fun g => g.roleId = roleId).map (·.permissionId)

namespace RoleStore

/-- What the cache holds for the roles, and the roles without an entry. -/
def readCache (s : RoleStore) (roles : List String) : List String × List String :=
  (roles.flatMap fun role => (s.cache role).getD [], roles.filter fun role => s.cache role = none)

/-- `try_emplace`: an entry that is there stays. -/
def emplaceEmpty (s : RoleStore) (misses : List String) : RoleStore :=
  { s with cache := fun role =>
      if s.cache role = none ∧ role ∈ misses then some [] else s.cache role }

/-- `gRolePermissionsCache[name] = names` for every entry. -/
def assign (s : RoleStore) (entries : List (String × List String)) : RoleStore :=
  { s with cache := fun role => (entries.lookup role).or (s.cache role) }

end RoleStore

/-- The rows with the permissions of one role replaced, or none if a name does not exist.  An empty
request takes every permission away, as on a database that reads its `in ()` as no name; where
that is an error, the transaction is one of those with a `fault`. -/
def replaced (catalog : RoleCatalog) (roleId : Int32) (requested : List String)
    (rows : List RolePermissionRow) : Option (List RolePermissionRow) :=
  let permRows := catalog.permissions.rows.filter fun p => p.name ∈ requested
  if permRows.length ≠ requested.length then none
  else
    some ((rows.filter fun g => g.roleId ≠ roleId) ++ permRows.map fun p => ⟨roleId, p.id⟩)

/-- `fault`: the query fails, there is no client, or the transaction is rolled back. -/
def execRole (catalog : RoleCatalog) (fault : Bool) : Handler RoleSig RoleStore := fun o s =>
  match o with
  | .readCache roles => (s.readCache roles, s)
  | .getDbClient => (!fault, s)
  | .queryRoles names =>
    (if fault then none else some (catalog.roles.rows.filter fun r => r.name ∈ names), s)
  | .queryRolePermissions roleIds =>
    (if fault then none else some (s.rolePermissions.filter fun g => g.roleId ∈ roleIds), s)
  | .queryPermissions ids =>
    (if fault then none else some (catalog.permissions.rows.filter fun p => p.id ∈ ids), s)
  | .cacheMissesAsEmpty misses => ((), s.emplaceEmpty misses)
  | .cacheNoGrants roleNames => ((), s.assign (roleNames.map fun name => (name, [])))
  | .fill entries => ((), s.assign entries)
  | .findRole roleId => (if fault then none else catalog.roles.find? roleId, s)
  | .replaceRolePermissions roleId requested =>
    match replaced catalog roleId requested s.rolePermissions with
    | none => (false, s)
    | some rows => if fault then (false, s) else (true, { s with rolePermissions := rows })
  | .replaceAll rows => ((), { s with rolePermissions := rows })
  | .invalidateForRole role => ((), { s with cache := Function.update s.cache role none })
  | .invalidateAll => ((), { s with cache := fun _ => none })

/-! ## Programs -/

/-- The third hop: the names of the permissions, the entries and the answer. -/
def resolveNames (merged : List String) (roleRows : List RoleRow)
    (rpRows : List RolePermissionRow) : RoleProg (List String) :=
  Prog.op (S := RoleSig) (.queryPermissions (rpRows.map (·.permissionId))) fun
    | none => return merged
    | some permRows => do
      let granted := roleRows.filter fun r => permissionIdsOf rpRows r.id ≠ []
      let () ← roleStep (.fill (granted.map fun r =>
        (r.name, namesOf permRows (permissionIdsOf rpRows r.id))))
      return merged ++ namesOf permRows (rpRows.map (·.permissionId))

/-- The second hop: roles without a row are cached at once. -/
def resolveGrants (merged : List String) (roleRows : List RoleRow) : RoleProg (List String) :=
  Prog.op (S := RoleSig) (.queryRolePermissions (roleRows.map (·.id))) fun
    | none => return merged
    | some rpRows => do
      let ungranted := roleRows.filter fun r => permissionIdsOf rpRows r.id = []
      let () ← roleStep (.cacheNoGrants (ungranted.map (·.name)))
      if rpRows.isEmpty then return merged
      else resolveNames merged roleRows rpRows

/-- The roles without an entry get an empty one. -/
def cacheMissesAsEmpty (merged misses : List String) : RoleProg (List String) := do
  let () ← roleStep (.cacheMissesAsEmpty misses)
  return merged

/-- The first hop.  An exception is cached like a role that does not exist. -/
def resolveMisses (merged misses : List String) : RoleProg (List String) :=
  Prog.op (S := RoleSig) (.queryRoles misses) fun
    | none => cacheMissesAsEmpty merged misses
    | some roleRows =>
      if roleRows.isEmpty then cacheMissesAsEmpty merged misses
      else resolveGrants merged roleRows

/-- Past the cache. -/
def resolveUncached (merged misses : List String) : RoleProg (List String) :=
  if misses.isEmpty then return merged
  else do
    let db : Bool ← roleStep .getDbClient
    if !db then return merged
    else resolveMisses merged misses

/-- `RolePermissionResolver::resolveForRoles`. -/
def resolveForRoles (roles : List String) : RoleProg (List String) := do
  let cached : List String × List String ← roleStep (.readCache roles)
  resolveUncached cached.1 cached.2

/-- The cached entry is dropped when the transaction has committed. -/
def putRolePermissions (roleId : Int32) (requested : List String) : RoleProg Unit :=
  Prog.op (S := RoleSig) (.findRole roleId) fun
    | none => return
    | some role => do
      let committed : Bool ← roleStep (.replaceRolePermissions roleId requested)
      if committed then roleStep (.invalidateForRole role.name)
      else return

/-- A change of any rows. -/
def changeAll (rows : List RolePermissionRow) : RoleProg Unit := do
  let () ← roleStep (.replaceAll rows)
  roleStep .invalidateAll

/-! ## What the hops deliver -/

section Hops

variable {catalog : RoleCatalog} {rows : List RolePermissionRow} {roleRows : List RoleRow}
  {misses : List String} {role permission : String}

theorem mem_permissionIdsOf {rpRows : List RolePermissionRow} {roleId pid : Int32} :
    pid ∈ permissionIdsOf rpRows roleId ↔ ⟨roleId, pid⟩ ∈ rpRows := by
  simp only [permissionIdsOf, List.mem_map, List.mem_filter, decide_eq_true_eq]
  constructor
  · rintro ⟨g, ⟨mem, rfl⟩, rfl⟩
    exact mem
  · intro mem
    exact ⟨_, ⟨mem, rfl⟩, rfl⟩

/-- The permissions of ids that were all asked for. -/
theorem mem_namesOf {ids asked : List Int32} (sub : ∀ pid ∈ ids, pid ∈ asked) :
    permission ∈ namesOf (catalog.permissions.rows.filter fun p => p.id ∈ asked) ids ↔
      ∃ p ∈ catalog.permissions.rows, p.name = permission ∧ p.id ∈ ids := by
  have found (p : PermissionRow) (pid : Int32) (mem : pid ∈ ids) :
      (catalog.permissions.rows.filter fun p => p.id ∈ asked).find? (fun p => p.id = pid) = some p ↔
        p ∈ catalog.permissions.rows ∧ p.id = pid := by
    rw [List.find?_filter, ← Table.find?_eq_some, Table.find?]
    congr! 3 with q
    by_cases same : q.id = pid
    · simp [same, sub pid mem]
    · simp [same]
  simp only [namesOf, List.mem_filterMap, Option.map_eq_some_iff]
  constructor
  · rintro ⟨pid, mem, p, at_, rfl⟩
    obtain ⟨stored, rfl⟩ := (found p pid mem).mp at_
    exact ⟨p, stored, rfl, mem⟩
  · rintro ⟨p, stored, rfl, mem⟩
    exact ⟨p.id, mem, p, (found p p.id mem).mpr ⟨stored, rfl⟩, rfl⟩

/-- A role that exists has the permissions of its rows. -/
theorem stored_iff_of_mem {r : RoleRow} (mem : r ∈ catalog.roles.rows) :
    Stored catalog rows r.name permission ↔
      ∃ p ∈ catalog.permissions.rows, p.name = permission ∧ ⟨r.id, p.id⟩ ∈ rows := by
  constructor
  · rintro ⟨r', mem', same, has⟩
    rw [← RoleCatalog.role_of_name mem' mem same]
    exact has
  · intro has
    exact ⟨r, mem, rfl, has⟩

end Hops

end Authz

end Fulla
