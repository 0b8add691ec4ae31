import Fleet.Node.Retention

/-!
# Realized nodes

What a planned capacity comes to: the record, the policy that decides how long the node
stays, and the handle that frees the resource behind it.  The handle's type is a parameter
`ρ`; nothing here looks inside one.
-/

namespace Fleet

structure RealizedNode (ρ : Type) where
  record : NodeRecord
  retention : Policy
  release : Option ρ

/-- The resource behind a node could not be freed. -/
structure ReleaseError where
  node : NodeId
  reason : String
  deriving DecidableEq, Repr

namespace ReleaseError

/-- An error that names no node is about the node that was released. -/
def about (id : NodeId) (e : ReleaseError) : ReleaseError :=
  if e.node = "" then { e with node := id } else e

def message (e : ReleaseError) : String :=
  "failed to release node " ++ e.node ++ ": " ++ e.reason

end ReleaseError

/-- How the resource of a removed node fared. -/
inductive ReleaseOutcome where
  | released
  | nothingToRelease
  | leaked (error : String)
  deriving DecidableEq, Repr

def ReleaseOutcome.toJson : ReleaseOutcome → Json
  | .released => .object [("outcome", .text "released")]
  | .nothingToRelease => .object [("outcome", .text "nothing_to_release")]
  | .leaked error => .object [("outcome", .text "leaked"), ("error", .text error)]

end Fleet
