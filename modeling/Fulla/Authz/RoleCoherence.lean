import Fulla.Authz.RoleFailures
import Fulla.Conc.Track

/-!
# Coherence of the cached permissions

Calls of `resolveForRoles` and changes of the permissions of roles, their steps interleaved.  A call
that has read the rows of a role before a change writes the entry after the change has dropped
it, and nothing drops it again.

`resolve_coherent`: as long as no entry is written from rows that a change has overtaken, a call
that is not disturbed delivers what is stored.
-/

namespace Fulla

namespace Authz

open Conc

/-- The calls of readers and writers. -/
inductive RoleCall where
  | resolveForRoles (roles : List String)
  | putRolePermissions (roleId : Int32) (requested : List String)
  | changeAll (rows : List RolePermissionRow)

/-- What is delivered, if something is. -/
def RoleCall.prog : RoleCall → RoleProg (Option (List String))
  | resolveForRoles roles => some <$> Authz.resolveForRoles roles
  | putRolePermissions roleId requested =>
    (fun _ => none) <$> Authz.putRolePermissions roleId requested
  | changeAll rows => (fun _ => none) <$> Authz.changeAll rows

variable {ι : Type}

/-- The rows and the cache with the log of the steps. -/
abbrev RoleWorld (ι : Type) := World RoleSig ι RoleStore

abbrev RoleEvent (ι : Type) := Event RoleSig ι RoleStore

/-- The calls with what is left of each. -/
abbrev RolePool (ι : Type) := Pool RoleSig ι (Option (List String)) (RoleWorld ι)

/-- No query fails. -/
def execHealthy (catalog : RoleCatalog) : Attempt RoleSig ι RoleStore Unit := fun _ _ o s =>
  some (execRole catalog false o s)

/-- The calls run from an empty cache. -/
def runRoles [DecidableEq ι] (catalog : RoleCatalog) (rows : List RolePermissionRow)
    (calls : ι → RoleCall) (sched : List (ι × Unit)) : RolePool ι :=
  (Pool.mk (World.start ⟨rows, fun _ => none⟩) fun i => (calls i).prog).play
    (execHealthy catalog) sched

/-! ## Where a call stands -/

/-- How far a call has come. -/
inductive RoleStage where
  | idle
  | read (roles merged misses : List String)
  | named (roles merged misses : List String) (roleRows : List RoleRow)
  | granted (roles merged misses : List String) (roleRows : List RoleRow)
      (rpRows : List RolePermissionRow)
  | found (role : RoleRow)
  /-- The change is committed, and the entry, or all entries, are still to be dropped. -/
  | due (role : Option String)
  | dropped

namespace RoleStage

def next (g : RoleStage) : (o : RoleOp) → RoleSig.Res o → RoleStage
  | .readCache roles, r => read roles r.1 r.2
  | .queryRoles _, some roleRows =>
    match g with
    | read roles merged misses => named roles merged misses roleRows
    | g => g
  | .queryRolePermissions _, some rpRows =>
    match g with
    | named roles merged misses roleRows => granted roles merged misses roleRows rpRows
    | g => g
  | .findRole _, some role => found role
  | .replaceRolePermissions _ _, true =>
    match g with
    | found role => due (some role.name)
    | g => g
  | .replaceAll _, _ => due none
  | .invalidateForRole _, _ => dropped
  | .invalidateAll, _ => dropped
  | _, _ => g

/-- The entry of the role is still to be dropped. -/
def Owes (g : RoleStage) (role : String) : Prop :=
  g = due none ∨ g = due (some role)

/-- The operations of the calls, each where it is made. -/
def fits (catalog : RoleCatalog) (g : RoleStage) : RoleOp → Prop
  | .readCache _ | .findRole _ | .replaceAll _ => g = idle
  | .getDbClient => ∃ roles merged misses, g = read roles merged misses
  | .queryRoles names => ∃ roles merged, g = read roles merged names
  | .cacheMissesAsEmpty misses =>
    rowsOf catalog misses = [] ∧ ∃ roles merged, g = named roles merged misses []
  | .queryRolePermissions ids =>
    ∃ roles merged misses, g = named roles merged misses (rowsOf catalog misses) ∧
      ids = (rowsOf catalog misses).map (·.id)
  | .cacheNoGrants names =>
    ∃ roles merged misses rpRows, g = granted roles merged misses (rowsOf catalog misses) rpRows ∧
      names =
        ((rowsOf catalog misses).filter fun r => permissionIdsOf rpRows r.id = []).map (·.name)
  | .queryPermissions _ =>
    ∃ roles merged misses rpRows, g = granted roles merged misses (rowsOf catalog misses) rpRows
  | .fill entries =>
    ∃ roles merged misses rpRows, g = granted roles merged misses (rowsOf catalog misses) rpRows ∧
      entries = grantedEntries catalog (rowsOf catalog misses) rpRows
  | .replaceRolePermissions roleId _ =>
    ∃ role ∈ catalog.roles.rows, role.id = roleId ∧ g = found role
  | .invalidateForRole role => g = due (some role)
  | .invalidateAll => g = due none

/-- The answers of queries that do not fail. -/
def possible (catalog : RoleCatalog) : (o : RoleOp) → RoleSig.Res o → Prop
  | .getDbClient, r => r = true
  | .queryRoles names, r => r = some (rowsOf catalog names)
  | .queryRolePermissions ids, r => ∃ rpRows, r = some rpRows ∧ ∀ g ∈ rpRows, g.roleId ∈ ids
  | .queryPermissions ids, r => r = some (catalog.permissions.rows.filter fun p => p.id ∈ ids)
  | .findRole id, r => ∀ role, r = some role → role ∈ catalog.roles.rows ∧ role.id = id
  | _, _ => True

end RoleStage

open RoleStage

/-- What a call that has come to its end delivers. -/
def Delivers (catalog : RoleCatalog) (call : RoleCall) (a : Option (List String)) :
    RoleStage → Prop
  | .read roles merged misses => call = .resolveForRoles roles ∧ misses = [] ∧ a = some merged
  | .named roles merged misses _ =>
    call = .resolveForRoles roles ∧ rowsOf catalog misses = [] ∧ a = some merged
  | .granted roles merged misses roleRows rpRows =>
    call = .resolveForRoles roles ∧ roleRows = rowsOf catalog misses ∧
      a = some (merged ++ namesOf (catalog.permissions.rows.filter fun p =>
        p.id ∈ rpRows.map (·.permissionId)) (rpRows.map (·.permissionId)))
  | _ => a = none

section Follow

variable {catalog : RoleCatalog}

/-- The program takes its steps in the order of the stages. -/
abbrev RoleFollows (catalog : RoleCatalog) (call : RoleCall) (p : RoleProg (Option (List String)))
    (g : RoleStage) : Prop :=
  p.Follows RoleStage.next (fits catalog) (fun _ o r => possible catalog o r)
    (Delivers catalog call) g

/-- Reading the names of permissions follows the stages. -/
theorem resolveNames_follows (roles merged misses : List String) (rpRows : List RolePermissionRow) :
    RoleFollows catalog (.resolveForRoles roles)
      (some <$> resolveNames merged (rowsOf catalog misses) rpRows)
      (.granted roles merged misses (rowsOf catalog misses) rpRows) := by
  refine ⟨⟨roles, merged, misses, rpRows, rfl⟩, fun r possible => ?_⟩
  cases possible
  exact ⟨⟨roles, merged, misses, rpRows, rfl, rfl⟩, fun _ _ => ⟨rfl, rfl, rfl⟩⟩

/-- So does reading the assignments. -/
theorem resolveGrants_follows (roles merged misses : List String) :
    RoleFollows catalog (.resolveForRoles roles)
      (some <$> resolveGrants merged (rowsOf catalog misses))
      (.named roles merged misses (rowsOf catalog misses)) := by
  refine ⟨⟨roles, merged, misses, rfl, rfl⟩, fun r possible => ?_⟩
  obtain ⟨rpRows, rfl, _⟩ := possible
  refine ⟨⟨roles, merged, misses, rpRows, rfl, rfl⟩, fun _ _ => ?_⟩
  cases rpRows with
  | nil => exact ⟨rfl, rfl, by simp [namesOf]⟩
  | cons g rpRows => exact resolveNames_follows roles merged misses (g :: rpRows)

/-- So does resolving the roles without an entry. -/
theorem resolveMisses_follows (roles merged misses : List String) :
    RoleFollows catalog (.resolveForRoles roles) (some <$> resolveMisses merged misses)
      (.read roles merged misses) := by
  refine ⟨⟨roles, merged, rfl⟩, fun r possible => ?_⟩
  cases possible
  have grants : RoleFollows catalog (.resolveForRoles roles)
      (some <$> resolveGrants merged (rowsOf catalog misses))
      (.named roles merged misses (rowsOf catalog misses)) :=
    resolveGrants_follows roles merged misses
  show RoleFollows catalog _ (some <$> if (rowsOf catalog misses).isEmpty then _ else _)
    (.named roles merged misses (rowsOf catalog misses))
  split
  · next none =>
      rw [List.isEmpty_iff] at none
      rw [none]
      exact ⟨⟨none, roles, merged, rfl⟩, fun _ _ => ⟨rfl, none, rfl⟩⟩
  · exact grants

/-- **Every call follows the stages**. -/
theorem roleCall_follows (call : RoleCall) : RoleFollows catalog call call.prog .idle := by
  cases call with
  | resolveForRoles roles =>
      refine ⟨rfl, fun r _ => ?_⟩
      show RoleFollows catalog _ (some <$> resolveUncached r.1 r.2) (.read roles r.1 r.2)
      unfold resolveUncached
      split
      · next none => exact ⟨rfl, List.isEmpty_iff.mp none, rfl⟩
      · refine ⟨⟨roles, r.1, r.2, rfl⟩, fun db client => ?_⟩
        cases client
        exact resolveMisses_follows roles r.1 r.2
  | putRolePermissions roleId requested =>
      refine ⟨rfl, fun r exists_ => ?_⟩
      cases r with
      | none => rfl
      | some role =>
          refine ⟨⟨role, (exists_ role rfl).1, (exists_ role rfl).2, rfl⟩, fun committed _ => ?_⟩
          cases committed with
          | true => exact ⟨rfl, fun _ _ => rfl⟩
          | false => rfl
  | changeAll rows => exact ⟨rfl, fun _ _ => ⟨rfl, fun _ _ => rfl⟩⟩

end Follow

/-! ## What may disturb a call -/

section Disturbed

variable [DecidableEq ι]

/-- The event commits a change of the role. -/
def Changes (e : RoleEvent ι) (roleId : Int32) : Prop :=
  match e with
  | ⟨_, _, .replaceRolePermissions id _, committed, _⟩ => id = roleId ∧ committed = true
  | ⟨_, _, .replaceAll _, _, _⟩ => True
  | _ => False

/-- The step changes the permissions of a role. -/
def Commits (e : RoleEvent ι) : Prop :=
  ∃ roleId, Changes e roleId

/-- Where the thread stands after the events. -/
abbrev stageOf (i : ι) (log : List (RoleEvent ι)) : RoleStage :=
  track (S := RoleSig) RoleStage.next RoleStage.idle i log

/-- An invalidation of the role is still to come. -/
def Due (log : List (RoleEvent ι)) (role : String) : Prop :=
  ∃ i, (stageOf i log).Owes role

/-- A change of the role has committed since the thread has read the rows. -/
def Overtaken (i : ι) (roleId : Int32) : List (RoleEvent ι) → Prop
  | [] => False
  | e :: log =>
    match e.op with
    | .queryRolePermissions _ => if e.thread = i then False else Overtaken i roleId log
    | _ => Changes e roleId ∨ Overtaken i roleId log

/-- The call of the thread began when no invalidation of its roles was still to come, and no change
has committed since. -/
def Undisturbed (i : ι) : List (RoleEvent ι) → Prop
  | [] => False
  | e :: log =>
    match e.op with
    | .readCache roles =>
      if e.thread = i then ∀ role ∈ roles, ¬ Due log role else Undisturbed i log
    | _ => ¬ Commits e ∧ Undisturbed i log

/-- The roles whose entries are written from rows that were read. -/
def writtenRoles : RoleOp → List String
  | .cacheNoGrants names => names
  | .fill entries => entries.map (·.1)
  | _ => []

/-- No entry is written from rows that a change has overtaken, unless it is still to be dropped. -/
def FillsInTime (catalog : RoleCatalog) (e : RoleEvent ι) (log : List (RoleEvent ι)) : Prop :=
  ∀ r ∈ catalog.roles.rows, r.name ∈ writtenRoles e.op →
    ¬ Overtaken e.thread r.id log ∨ Due log r.name

variable {i j : ι} {e : RoleEvent ι} {log : List (RoleEvent ι)} {roleId : Int32}

/-- The log after a step of another call. -/
theorem undisturbed_cons (own : e.thread ≠ j ∨ ∀ roles, e.op ≠ .readCache roles) :
    Undisturbed j (e :: log) ↔ ¬ Commits e ∧ Undisturbed j log := by
  obtain ⟨i, n, o, r, pre⟩ := e
  cases o with
  | readCache roles =>
      have other : i ≠ j := own.resolve_right fun no => no roles rfl
      have quiet : ¬ Commits (⟨i, n, .readCache roles, r, pre⟩ : RoleEvent ι) := fun ⟨_, no⟩ => no
      simp only [Undisturbed, if_neg other, quiet, not_false_eq_true, true_and]
  | _ => rfl

theorem overtaken_cons (own : e.thread ≠ j ∨ ∀ ids, e.op ≠ .queryRolePermissions ids) :
    Overtaken j roleId (e :: log) ↔ Changes e roleId ∨ Overtaken j roleId log := by
  obtain ⟨i, n, o, r, pre⟩ := e
  cases o with
  | queryRolePermissions ids =>
      have other : i ≠ j := own.resolve_right fun no => no ids rfl
      have quiet : ¬ Changes (⟨i, n, .queryRolePermissions ids, r, pre⟩ : RoleEvent ι) roleId := id
      simp only [Overtaken, if_neg other, quiet, false_or]
  | _ => rfl

end Disturbed

/-! ## The invariant -/

section Invariant

variable [DecidableEq ι] {catalog : RoleCatalog} {w : RoleWorld ι} {i j : ι}

/-- What was read from the cache is what is stored for the roles that were there. -/
def Merged (catalog : RoleCatalog) (rows : List RolePermissionRow)
    (roles merged misses : List String) : Prop :=
  (∀ role ∈ misses, role ∈ roles) ∧ ∀ permission, permission ∈ merged ↔
    ∃ role ∈ roles, role ∉ misses ∧ Stored catalog rows role permission

/-- The rows of the role that were read are those that are stored. -/
def UpToDate (rpRows rows : List RolePermissionRow) (roleId : Int32) : Prop :=
  ∀ pid, ⟨roleId, pid⟩ ∈ rpRows ↔ ⟨roleId, pid⟩ ∈ rows

/-- What a call has read is what is stored, as long as it is not disturbed; the rows of a role
until they are overtaken. -/
def StageOk (catalog : RoleCatalog) (rows : List RolePermissionRow) (log : List (RoleEvent ι))
    (i : ι) : RoleStage → Prop
  | .read roles merged misses => Undisturbed i log → Merged catalog rows roles merged misses
  | .named roles merged misses _ => Undisturbed i log → Merged catalog rows roles merged misses
  | .granted roles merged misses roleRows rpRows =>
    (Undisturbed i log → Merged catalog rows roles merged misses ∧
        ∀ r ∈ roleRows, UpToDate rpRows rows r.id) ∧
      (∀ r ∈ roleRows, ¬ Overtaken i r.id log → UpToDate rpRows rows r.id) ∧
      ∀ g ∈ rpRows, g.roleId ∈ roleRows.map (·.id)
  | _ => True

/-- Every entry is what is stored or still to be dropped. -/
def Coherent (catalog : RoleCatalog) (w : RoleWorld ι) : Prop :=
  (∀ role, Due w.log role ∨ Exactly catalog w.db role) ∧
    ∀ i, StageOk catalog w.db.rolePermissions w.log i (stageOf i w.log)

theorem stored_congr {rows rows' : List RolePermissionRow} {role permission : String}
    (same : ∀ r ∈ catalog.roles.rows, r.name = role → UpToDate rows rows' r.id) :
    Stored catalog rows role permission ↔ Stored catalog rows' role permission := by
  unfold Stored
  refine exists_congr fun r => and_congr_right fun mem => and_congr_right fun name => ?_
  exact exists_congr fun p => and_congr_right fun _ => and_congr_right fun _ =>
    same r mem name p.id

theorem Merged.congr {rows rows' : List RolePermissionRow} {roles merged misses : List String}
    (held : Merged catalog rows roles merged misses) (same : ∀ id, UpToDate rows rows' id) :
    Merged catalog rows' roles merged misses := by
  refine ⟨held.1, fun permission => (held.2 permission).trans ?_⟩
  refine exists_congr fun role => and_congr_right fun _ => and_congr_right fun _ => ?_
  exact stored_congr fun r _ _ => same r.id

theorem UpToDate.trans {rows rows' rows'' : List RolePermissionRow} {id : Int32}
    (held : UpToDate rows rows' id) (same : UpToDate rows' rows'' id) : UpToDate rows rows'' id :=
  fun pid => (held pid).trans (same pid)

/-- An event that the thread does not read by keeps what the thread has read. -/
theorem StageOk.push {rows rows' : List RolePermissionRow} {log : List (RoleEvent ι)}
    {e : RoleEvent ι} {g : RoleStage} (ok : StageOk catalog rows log i g)
    (undisturbed : Undisturbed i (e :: log) → ¬ Commits e ∧ Undisturbed i log)
    (overtaken : ∀ id, Changes e id ∨ Overtaken i id log → Overtaken i id (e :: log))
    (unchanged : ∀ id, ¬ Changes e id → UpToDate rows rows' id) :
    StageOk catalog rows' (e :: log) i g := by
  have same (quiet : ¬ Commits e) (id : Int32) : UpToDate rows rows' id :=
    unchanged id fun changes => quiet ⟨id, changes⟩
  cases g with
  | read roles merged misses =>
      intro still
      obtain ⟨quiet, before⟩ := undisturbed still
      exact (ok before).congr (same quiet)
  | named roles merged misses roleRows =>
      intro still
      obtain ⟨quiet, before⟩ := undisturbed still
      exact (ok before).congr (same quiet)
  | granted roles merged misses roleRows rpRows =>
      refine ⟨fun still => ?_, fun r mem inTime => ?_, ok.2.2⟩
      · obtain ⟨quiet, before⟩ := undisturbed still
        refine ⟨(ok.1 before).1.congr (same quiet), fun r mem => ?_⟩
        exact ((ok.1 before).2 r mem).trans (same quiet r.id)
      · refine (ok.2.1 r mem fun before => inTime (overtaken r.id (.inr before))).trans ?_
        exact unchanged r.id fun changes => inTime (overtaken r.id (.inl changes))
  | _ => trivial

omit [DecidableEq ι] in
/-- Rows of roles that no event changes stay. -/
theorem execRole_unchanged (catalog : RoleCatalog) (i : ι) (o : RoleOp) (s : RoleStore) (n : Nat)
    (id : Int32)
    (unchanged : ¬ Changes (⟨i, n, o, (execRole catalog false o s).1, s⟩ : RoleEvent ι) id) :
    UpToDate s.rolePermissions (execRole catalog false o s).2.rolePermissions id := by
  cases o with
  | replaceRolePermissions roleId requested =>
      intro pid
      simp only [execRole] at unchanged ⊢
      cases eq : replaced catalog roleId requested s.rolePermissions with
      | none => rfl
      | some rows =>
          rw [eq] at unchanged
          have ne : roleId ≠ id := fun same => unchanged ⟨same, rfl⟩
          simp only [replaced] at eq
          split at eq
          · cases eq
          · cases eq
            simp [Ne.symm ne, ne]
  | replaceAll rows => exact absurd trivial unchanged
  | _ => exact fun pid => Iff.rfl

end Invariant

/-! ## The entries -/

section Entries

variable {catalog : RoleCatalog} {s s' : RoleStore} {role permission : String}
  {misses : List String} {rpRows : List RolePermissionRow}

/-- Exact entries are merged exactly. -/
theorem merged_of_exactly {roles : List String} (exact_ : ∀ role ∈ roles, Exactly catalog s role) :
    Merged catalog s.rolePermissions roles (s.readCache roles).1 (s.readCache roles).2 := by
  refine ⟨fun role miss => ((mem_readCache rfl).mp miss).1, fun permission => ?_⟩
  rw [mem_merged]
  refine exists_congr fun role => and_congr_right fun asked => ?_
  constructor
  · rintro ⟨l, cached, mem⟩
    refine ⟨fun miss => ?_, (exact_ role asked l cached permission).mp mem⟩
    rw [((mem_readCache rfl).mp miss).2] at cached
    cases cached
  · rintro ⟨hit, stored⟩
    cases cached : s.cache role with
    | none => exact absurd ((mem_readCache rfl).mpr ⟨asked, cached⟩) hit
    | some l => exact ⟨l, rfl, (exact_ role asked l cached permission).mpr stored⟩

/-- An entry stays exact when neither it nor its rows change. -/
theorem Exactly.of_eq (before : Exactly catalog s role) (cache : s'.cache role = s.cache role)
    (same : ∀ r ∈ catalog.roles.rows, r.name = role →
      UpToDate s.rolePermissions s'.rolePermissions r.id) : Exactly catalog s' role := by
  intro l cached permission
  rw [cache] at cached
  exact (before l cached permission).trans (stored_congr same)

/-- The names of rows that are up to date. -/
theorem mem_names_of_upToDate {r : RoleRow} (exists_ : r ∈ catalog.roles.rows)
    {rows : List RolePermissionRow} (same : UpToDate rpRows rows r.id) :
    permission ∈ namesOf (catalog.permissions.rows.filter fun p =>
        p.id ∈ rpRows.map (·.permissionId)) (permissionIdsOf rpRows r.id) ↔
      Stored catalog rows r.name permission := by
  rw [mem_namesOf, stored_iff_of_mem exists_]
  · simp only [mem_permissionIdsOf, same _]
  · intro pid there
    exact List.mem_map_of_mem (mem_permissionIdsOf.mp there)

/-- An entry is exact when it was filled in time. -/
theorem exactly_fill (before : Exactly catalog s role)
    (inTime : ∀ r ∈ rowsOf catalog misses, r.name = role → permissionIdsOf rpRows r.id ≠ [] →
      UpToDate rpRows s.rolePermissions r.id) :
    Exactly catalog (s.assign (grantedEntries catalog (rowsOf catalog misses) rpRows)) role := by
  by_cases row : ∃ r ∈ rowsOf catalog misses, r.name = role
  · obtain ⟨r, mem, rfl⟩ := row
    intro l cached permission
    rw [cache_granted_of_row mem] at cached
    split at cached
    · exact before l cached permission
    · next some_ =>
        cases cached
        exact mem_names_of_upToDate (rowsOf_name mem).1 (inTime r mem rfl some_)
  · push Not at row
    exact before.of_eq (cache_granted_of_ne row) fun _ _ _ _ => Iff.rfl

/-- The roles without a row are cached with no permissions. -/
theorem exactly_cacheNoGrants (before : Exactly catalog s role)
    (inTime : ∀ r ∈ rowsOf catalog misses, r.name = role → permissionIdsOf rpRows r.id = [] →
      UpToDate rpRows s.rolePermissions r.id) :
    Exactly catalog (s.assign (((rowsOf catalog misses).filter fun r =>
      permissionIdsOf rpRows r.id = []).map fun r => (r.name, []))) role := by
  by_cases row : ∃ r ∈ rowsOf catalog misses, r.name = role ∧ permissionIdsOf rpRows r.id = []
  · obtain ⟨r, mem, rfl, none⟩ := row
    intro l cached permission
    have apart := catalog.apart.sublist ((List.filter_sublist.trans List.filter_sublist :
      ((rowsOf catalog misses).filter fun r => permissionIdsOf rpRows r.id = []).Sublist _).map
        (·.name))
    rw [cache_assign (v := fun _ => []) apart
      (List.mem_filter.mpr ⟨mem, decide_eq_true none⟩)] at cached
    cases cached
    show permission ∈ [] ↔ Stored catalog s.rolePermissions r.name permission
    rw [← mem_names_of_upToDate (rowsOf_name mem).1 (inTime r mem rfl none), none]
    rfl
  · push Not at row
    refine before.of_eq (cache_assign_of_none fun r mem same => ?_) fun _ _ _ _ => Iff.rfl
    rw [List.mem_filter, decide_eq_true_eq] at mem
    exact row r mem.1 same mem.2

/-- A role that does not exist has no permissions. -/
theorem exactly_emplaceEmpty (before : Exactly catalog s role) (none : rowsOf catalog misses = []) :
    Exactly catalog (s.emplaceEmpty misses) role := by
  intro l cached permission
  simp only [RoleStore.emplaceEmpty] at cached ⊢
  split at cached
  · next miss =>
      cases cached
      refine ⟨fun mem => absurd mem List.not_mem_nil, ?_⟩
      rintro ⟨r, exists_, rfl, _⟩
      have row : r ∈ rowsOf catalog misses :=
        List.mem_filter.mpr ⟨exists_, decide_eq_true miss.2⟩
      rw [none] at row
      cases row
  · exact before l cached permission

end Entries

/-! ## Every operation keeps it -/

section Kept

variable [DecidableEq ι] {catalog : RoleCatalog} {w : RoleWorld ι} {i j : ι} {o : RoleOp}
  {r : RoleSig.Res o} {db : RoleStore} {role : String}

/-- A step moves the stage of its own call. -/
theorem stageOf_own :
    stageOf i (w.push i o r db).log = RoleStage.next (stageOf i w.log) o r :=
  track_own

/-- It moves no other stage. -/
theorem stageOf_other (ne : j ≠ i) : stageOf j (w.push i o r db).log = stageOf j w.log :=
  track_other ne

/-- Which invalidations are due after a step. -/
theorem due_push : Due (w.push i o r db).log role ↔
    (RoleStage.next (stageOf i w.log) o r).Owes role ∨
      ∃ j, j ≠ i ∧ (stageOf j w.log).Owes role := by
  unfold Due
  constructor
  · rintro ⟨j, owes⟩
    by_cases eq : j = i
    · subst eq
      rw [stageOf_own] at owes
      exact .inl owes
    · rw [stageOf_other eq] at owes
      exact .inr ⟨j, eq, owes⟩
  · rintro (owes | ⟨j, ne, owes⟩)
    · exact ⟨i, by rwa [stageOf_own]⟩
    · exact ⟨j, by rwa [stageOf_other ne]⟩

/-- What is still to be dropped by another thread stays so. -/
theorem due_push_of_due (due : Due w.log role) (not : ¬ (stageOf i w.log).Owes role) :
    Due (w.push i o r db).log role := by
  obtain ⟨j, owes⟩ := due
  refine due_push.mpr (.inr ⟨j, fun eq => ?_, owes⟩)
  subst eq
  exact not owes

/-- What is known at other stages stays known. -/
theorem stageOk_other (ok : ∀ j, StageOk catalog w.db.rolePermissions w.log j (stageOf j w.log))
    (done : execRole catalog false o w.db = (r, db)) (ne : j ≠ i) :
    StageOk catalog db.rolePermissions (w.push i o r db).log j
      (stageOf j (w.push i o r db).log) := by
  have unchanged := execRole_unchanged catalog i o w.db w.tick
  rw [done] at unchanged
  rw [stageOf_other ne]
  exact (ok j).push (undisturbed_cons (.inl ne.symm)).mp
    (fun id => (overtaken_cons (.inl ne.symm)).mpr)
    unchanged

/-- An event of the thread itself that reads nothing. -/
theorem stageOk_own {g : RoleStage}
    (ok : StageOk catalog w.db.rolePermissions w.log i g)
    (done : execRole catalog false o w.db = (r, db)) (cached : ∀ roles, o ≠ .readCache roles)
    (queried : ∀ ids, o ≠ .queryRolePermissions ids) :
    StageOk catalog db.rolePermissions (w.push i o r db).log i g := by
  have unchanged := execRole_unchanged catalog i o w.db w.tick
  rw [done] at unchanged
  exact ok.push (undisturbed_cons (.inr cached)).mp (fun id => (overtaken_cons (.inr queried)).mpr)
    unchanged

omit [DecidableEq ι] in
theorem possible_exec (done : execRole catalog false o w.db = (r, db)) :
    possible catalog o r := by
  have answer : (execRole catalog false o w.db).1 = r := by rw [done]
  subst answer
  cases o with
  | getDbClient => rfl
  | queryRoles names => rfl
  | queryRolePermissions ids =>
      refine ⟨_, rfl, fun g mem => ?_⟩
      exact of_decide_eq_true (List.mem_filter.mp mem).2
  | queryPermissions ids => rfl
  | findRole id => exact fun role eq => Table.find?_eq_some.mp eq
  | _ => trivial

omit [DecidableEq ι] in
theorem not_owes {g : RoleStage} (not : ∀ d, g ≠ due d) : ¬ g.Owes role := by
  rintro (eq | eq)
  · exact not _ eq
  · exact not _ eq

/-- **The entries after a step**. -/
theorem coherent_entries (entries : ∀ role, Due w.log role ∨ Exactly catalog w.db role)
    (ok : StageOk catalog w.db.rolePermissions w.log i (stageOf i w.log))
    (fit : fits catalog (stageOf i w.log) o) (done : execRole catalog false o w.db = (r, db))
    (inTime : FillsInTime catalog ⟨i, w.tick, o, r, w.db⟩ w.log) (role : String) :
    Due (w.push i o r db).log role ∨ Exactly catalog db role := by
  -- Whoever is not about to drop entries leaves what is due as it is.
  have owing (not : ¬ (stageOf i w.log).Owes role)
      (exact_ : ¬ Due w.log role → Exactly catalog w.db role → Exactly catalog db role) :
      Due (w.push i o r db).log role ∨ Exactly catalog db role := by
    by_cases due : Due w.log role
    · exact .inl (due_push_of_due due not)
    · exact .inr (exact_ due ((entries role).resolve_left due))
  cases o with
  | readCache roles =>
      cases done
      exact owing (not_owes (by rw [fit]; rintro d ⟨⟩)) fun _ => id
  | getDbClient =>
      cases done
      obtain ⟨roles, merged, misses, at_⟩ := fit
      exact owing (not_owes (by rw [at_]; rintro d ⟨⟩)) fun _ => id
  | queryRoles names =>
      cases done
      obtain ⟨roles, merged, at_⟩ := fit
      exact owing (not_owes (by rw [at_]; rintro d ⟨⟩)) fun _ => id
  | queryRolePermissions ids =>
      cases done
      obtain ⟨roles, merged, misses, at_, _⟩ := fit
      exact owing (not_owes (by rw [at_]; rintro d ⟨⟩)) fun _ => id
  | queryPermissions ids =>
      cases done
      obtain ⟨roles, merged, misses, rpRows, at_⟩ := fit
      exact owing (not_owes (by rw [at_]; rintro d ⟨⟩)) fun _ => id
  | cacheMissesAsEmpty misses =>
      cases done
      obtain ⟨none, roles, merged, at_⟩ := fit
      exact owing (not_owes (by rw [at_]; rintro d ⟨⟩)) fun _ before =>
        exactly_emplaceEmpty before none
  | cacheNoGrants names =>
      cases done
      obtain ⟨roles, merged, misses, rpRows, at_, rfl⟩ := fit
      rw [at_] at ok
      refine owing (not_owes (by rw [at_]; rintro d ⟨⟩)) fun due before => ?_
      simp only [List.map_map]
      refine exactly_cacheNoGrants before fun r mem name none => ok.2.1 r mem ?_
      subst name
      refine (inTime r (rowsOf_name mem).1 ?_).resolve_right due
      exact List.mem_map_of_mem (List.mem_filter.mpr ⟨mem, decide_eq_true none⟩)
  | fill entries' =>
      cases done
      obtain ⟨roles, merged, misses, rpRows, at_, rfl⟩ := fit
      rw [at_] at ok
      refine owing (not_owes (by rw [at_]; rintro d ⟨⟩)) fun due before => ?_
      refine exactly_fill before fun r mem name some_ => ok.2.1 r mem ?_
      subst name
      refine (inTime r (rowsOf_name mem).1 ?_).resolve_right due
      simp only [writtenRoles, grantedEntries, List.map_map]
      exact List.mem_map_of_mem (List.mem_filter.mpr ⟨mem, decide_eq_true some_⟩)
  | findRole id =>
      cases done
      exact owing (not_owes (by rw [fit]; rintro d ⟨⟩)) fun _ before => before
  | replaceRolePermissions roleId requested =>
      obtain ⟨row, exists_, rfl, at_⟩ := fit
      have changed :=
        execRole_unchanged catalog i (.replaceRolePermissions row.id requested) w.db w.tick
      rw [done] at changed
      by_cases same : role = row.name ∧ r = true
      · obtain ⟨rfl, rfl⟩ := same
        refine .inl (due_push.mpr (.inl ?_))
        rw [at_]
        exact .inr rfl
      · refine owing (not_owes (by rw [at_]; rintro d ⟨⟩)) fun _ before =>
          before.of_eq ?_ fun r' mem name => ?_
        · simp only [execRole] at done
          split at done
          · cases done
            rfl
          · cases done
            rfl
        · refine changed r'.id fun changes => same ⟨?_, changes.2⟩
          rw [← name, RoleCatalog.role_of_id mem exists_ changes.1.symm]
  | replaceAll rows =>
      cases done
      refine .inl (due_push.mpr (.inl ?_))
      exact .inl rfl
  | invalidateForRole role' =>
      cases done
      by_cases eq : role = role'
      · subst eq
        right
        intro l cached
        have none : Function.update w.db.cache role none role = some l := cached
        rw [Function.update_self] at none
        cases none
      · refine owing ?_ fun _ before => before.of_eq (Function.update_of_ne eq _ _)
          fun _ _ _ _ => Iff.rfl
        rw [fit]
        rintro (no | same)
        · cases no
        · cases same
          exact eq rfl
  | invalidateAll =>
      cases done
      refine .inr fun l cached => ?_
      cases cached

/-- **What is known at the stage after a step**. -/
theorem stageOk_next (entries : ∀ role, Due w.log role ∨ Exactly catalog w.db role)
    (ok : StageOk catalog w.db.rolePermissions w.log i (stageOf i w.log))
    (fit : fits catalog (stageOf i w.log) o) (done : execRole catalog false o w.db = (r, db)) :
    StageOk catalog db.rolePermissions (w.push i o r db).log i
      (RoleStage.next (stageOf i w.log) o r) := by
  have own (cached : ∀ roles, o ≠ .readCache roles)
      (queried : ∀ ids, o ≠ .queryRolePermissions ids) :=
    stageOk_own (r := r) ok done cached queried
  cases o with
  | readCache roles =>
      cases done
      intro still
      have quiet : ∀ role ∈ roles, ¬ Due w.log role := by
        simpa only [Undisturbed, World.push_log, if_true] using still
      exact merged_of_exactly fun role asked => (entries role).resolve_left (quiet role asked)
  | getDbClient => exact own nofun nofun
  | queryRoles names =>
      cases done
      obtain ⟨roles, merged, at_⟩ := fit
      have read := own nofun nofun
      rw [at_] at read ⊢
      exact read
  | queryRolePermissions ids =>
      cases done
      obtain ⟨roles, merged, misses, at_, rfl⟩ := fit
      have read (r : RoleRow) (mem : r ∈ rowsOf catalog misses) :
          UpToDate (grantsOf w.db (rowsOf catalog misses)) w.db.rolePermissions r.id :=
        fun pid => mem_grantsOf mem
      have cached (roles : List String) : RoleOp.queryRolePermissions
        ((rowsOf catalog misses).map (·.id)) ≠ .readCache roles := nofun
      rw [at_] at ok ⊢
      refine ⟨fun still => ⟨?_, read⟩, fun r mem _ => read r mem, fun g mem => ?_⟩
      · exact ok ((undisturbed_cons (.inr cached)).mp still).2
      · exact of_decide_eq_true (List.mem_filter.mp mem).2
  | queryPermissions ids => exact own nofun nofun
  | cacheMissesAsEmpty misses => exact own nofun nofun
  | cacheNoGrants names => exact own nofun nofun
  | fill entries' => exact own nofun nofun
  | findRole id =>
      cases r with
      | none => exact own nofun nofun
      | some row => trivial
  | replaceRolePermissions roleId requested =>
      obtain ⟨row, _, _, at_⟩ := fit
      cases r with
      | false => exact own nofun nofun
      | true =>
          rw [at_]
          trivial
  | _ => trivial

/-- The invariant is kept by fills in time. -/
theorem coherent_kept :
    KeptByFitting (execHealthy catalog : Attempt RoleSig ι RoleStore Unit)
      (FillsInTime catalog) RoleStage.next .idle
      (fits catalog) (fun _ o r => possible catalog o r) (Coherent catalog) := by
  rintro w i o m r db ⟨entries, ok⟩ fit done inTime
  have answered : execRole catalog false o w.db = (r, db) := Option.some.inj done
  refine ⟨possible_exec answered, coherent_entries entries (ok i) fit answered inTime, fun j => ?_⟩
  by_cases eq : j = i
  · subst eq
    rw [stageOf_own]
    exact stageOk_next entries (ok j) fit answered
  · exact stageOk_other ok answered eq

end Kept

/-! ## Every run -/

section Runs

variable [DecidableEq ι] {catalog : RoleCatalog} {s : RoleStore} {log : List (RoleEvent ι)} {i : ι}
  {roles : List String} {out : List String} {g : RoleStage} {permission : String}

/-- What a call that is not disturbed delivers. -/
theorem delivers_stored (ok : StageOk catalog s.rolePermissions log i g)
    (still : Undisturbed i log)
    (delivers : Delivers catalog (.resolveForRoles roles) (some out) g) :
    permission ∈ out ↔ ∃ role ∈ roles, Stored catalog s.rolePermissions role permission := by
  have missed {merged misses : List String}
      (held : Merged catalog s.rolePermissions roles merged misses)
      (none : rowsOf catalog misses = []) :
      permission ∈ merged ↔ ∃ role ∈ roles, Stored catalog s.rolePermissions role permission := by
    refine (held.2 permission).trans (exists_congr fun role => and_congr_right fun _ => ?_)
    refine and_iff_right_of_imp fun stored miss => ?_
    obtain ⟨r, exists_, rfl, _⟩ := stored
    have row : r ∈ rowsOf catalog misses := List.mem_filter.mpr ⟨exists_, decide_eq_true miss⟩
    rw [none] at row
    cases row
  cases g with
  | read roles' merged misses =>
      obtain ⟨call, rfl, answer⟩ := delivers
      cases call
      cases answer
      exact missed (ok still) (List.filter_eq_nil_iff.mpr fun _ _ => by simp)
  | named roles' merged misses roleRows =>
      obtain ⟨call, none, answer⟩ := delivers
      cases call
      cases answer
      exact missed (ok still) none
  | granted roles' merged misses roleRows rpRows =>
      obtain ⟨call, rfl, answer⟩ := delivers
      cases call
      cases answer
      obtain ⟨held, current⟩ := ok.1 still
      rw [List.mem_append, held.2, mem_namesOf fun _ mem => mem]
      constructor
      · rintro (⟨role, asked, _, stored⟩ | ⟨p, exists_, name, mem⟩)
        · exact ⟨role, asked, stored⟩
        · obtain ⟨g, there, permissionId⟩ := List.mem_map.mp mem
          obtain ⟨r, row, roleId⟩ := List.mem_map.mp (ok.2.2 g there)
          obtain ⟨role, miss⟩ := rowsOf_name row
          refine ⟨r.name, held.1 _ miss, (stored_iff_of_mem role).mpr ⟨p, exists_, name, ?_⟩⟩
          rw [← current r row, roleId, ← permissionId]
          exact there
      · rintro ⟨role, asked, stored⟩
        by_cases miss : role ∈ misses
        · obtain ⟨r, exists_, rfl, p, row, name, there⟩ := stored
          refine .inr ⟨p, row, name, List.mem_map.mpr ⟨⟨r.id, p.id⟩, ?_, rfl⟩⟩
          exact (current r (List.mem_filter.mpr ⟨exists_, decide_eq_true miss⟩) p.id).mpr there
        · exact .inl ⟨role, asked, miss, stored⟩
  | _ => cases delivers

/-- In every run in which no entry is written from rows that a change has overtaken, an entry
whose invalidation is not still to come is what is stored, and a call that begins when none of
its roles is still to be invalidated, with no change since, delivers what is stored. -/
theorem resolve_coherent (catalog : RoleCatalog) (rows : List RolePermissionRow)
    (calls : ι → RoleCall) (sched : List (ι × Unit))
    (inTime : Abides (FillsInTime catalog) (runRoles catalog rows calls sched).store.log) :
    let c := runRoles catalog rows calls sched
    let stored := Stored catalog c.store.db.rolePermissions
    (∀ role l, c.store.db.cache role = some l → ¬ Due c.store.log role →
        ∀ permission, permission ∈ l ↔ stored role permission) ∧
      ∀ i roles out, calls i = .resolveForRoles roles → c.answer? i = some (some out) →
        Undisturbed i c.store.log →
          ∀ permission, permission ∈ out ↔ ∃ role ∈ roles, stored role permission := by
  intro c stored
  have start : Coherent catalog (World.start ⟨rows, fun _ => none⟩ : RoleWorld ι) :=
    ⟨fun role => .inr fun l cached => absurd cached nofun, fun i => trivial⟩
  obtain ⟨⟨entries, ok⟩, answers⟩ := Pool.play_follows (c := ⟨World.start ⟨rows, fun _ => none⟩,
    fun i => (calls i).prog⟩) coherent_kept start rfl (fun i => roleCall_follows (calls i)) sched
    inTime
  refine ⟨fun role l cached due => (entries role).resolve_left due l cached, ?_⟩
  intro i roles out call answered still permission
  have delivers := answers i _ answered
  rw [call] at delivers
  exact delivers_stored (ok i) still delivers

end Runs

section Sample

/-- Thread 1 gives the role another permission for its only one; the others resolve. -/
def sampleCalls (i : Nat) : RoleCall :=
  if i = 1 then .putRolePermissions 1 ["users:write"] else .resolveForRoles ["support"]

/-- The calls in the order of a schedule. -/
def samplePool (sched : List Nat) : RolePool Nat :=
  runRoles sampleCatalog [⟨1, 5⟩] sampleCalls (sched.map fun i => (i, ()))

/-- Nothing is written too late when the change is over before the call begins. -/
theorem resolve_coherent_in_turn :
    let c := samplePool [1, 1, 1, 2, 2, 2, 2, 2, 2, 2]
    c.answer? 2 = some (some ["users:write"]) ∧
      ∀ permission, permission ∈ ["users:write"] ↔
        ∃ role ∈ ["support"],
          Stored sampleCatalog c.store.db.rolePermissions role permission := by
  intro c
  have inTime : Abides (FillsInTime sampleCatalog) c.store.log :=
    ⟨fun _ _ _ => .inl (by rintro (no | no | no) <;> exact no), nofun, nofun, nofun, nofun, nofun,
      nofun, nofun, nofun, nofun, trivial⟩
  have still : Undisturbed 2 c.store.log := by
    refine ⟨nofun, nofun, nofun, nofun, nofun, nofun, fun role _ => ?_⟩
    rintro ⟨i, owes⟩
    rcases i with _ | _ | i
    · rcases owes with no | no <;> cases no
    · rcases owes with no | no <;> cases no
    · rcases owes with no | no <;> cases no
  exact ⟨rfl, (resolve_coherent sampleCatalog [⟨1, 5⟩] sampleCalls _ inTime).2 2 ["support"]
    ["users:write"] rfl rfl still⟩

/-- Thread 0 reads the row, thread 1 replaces it and drops the entry, thread 0 writes what it read:
the call of thread 2 begins afterwards and delivers the permission that was taken away. -/
theorem revoked_permission_delivered :
    let c := samplePool [0, 0, 0, 0, 1, 1, 1, 0, 0, 0, 2]
    c.answer? 2 = some (some ["users:read"]) ∧ Undisturbed 2 c.store.log ∧
      ¬ ∃ role ∈ ["support"],
        Stored sampleCatalog c.store.db.rolePermissions role "users:read" := by
  intro c
  refine ⟨rfl, ?_, ?_⟩
  · show ∀ role ∈ ["support"], ¬ Due c.store.log.tail role
    rintro role _ ⟨i, owes⟩
    rcases i with _ | _ | i
    · rcases owes with no | no <;> cases no
    · rcases owes with no | no <;> cases no
    · rcases owes with no | no <;> cases no
  · rintro ⟨role, _, r, _, _, p, exists_, name, there⟩
    have left : c.store.db.rolePermissions = [⟨1, 6⟩] := rfl
    rw [left, List.mem_singleton, RolePermissionRow.mk.injEq] at there
    have id : ∀ p ∈ sampleCatalog.permissions.rows, p.name = "users:read" → p.id ≠ 6 := by decide
    exact id p exists_ name there.2

end Sample

end Authz

end Fulla
