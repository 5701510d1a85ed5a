/-!
# Where a server goes

Whoever imports a document may name the tenant and the path of the server.  If neither
is named, or both only as empty texts, the convention of the conversion applies.
-/

namespace ApiIntake

/-- Whom a server is to belong to and where it is to be mounted. -/
inductive Destination where
  /-- The default tenant, and a path made from the name. -/
  | byConvention
  /-- The given texts as they are, empty ones included. -/
  | explicit (tenant pathPrefix : String)
deriving DecidableEq, Repr

namespace Destination

/-- The destination that two optional texts name: an absent text is an empty one, and
two empty ones name none. -/
def ofParts (tenant pathPrefix : Option String) : Destination :=
  let tenant := tenant.getD ""
  let pathPrefix := pathPrefix.getD ""
  if tenant.isEmpty ∧ pathPrefix.isEmpty then .byConvention else .explicit tenant pathPrefix

/-- The destination as a tenant and a path, given those of the convention. -/
def resolve (tenant pathPrefix : String) : Destination → String × String
  | .byConvention => (tenant, pathPrefix)
  | .explicit tenant pathPrefix => (tenant, pathPrefix)

end Destination

end ApiIntake
