import Fleet.Node.Realized
import Fleet.Name

/-!
# Release handles

How the resource behind a node is freed: a simulated node gives back its slot, a drill takes
its time and then comes out as laid down.
-/

namespace Fleet

inductive ReleaseHandle where
  /-- The slot that `node` occupies at a simulated source. -/
  | slot (source : SourceName) (node : NodeId)
  | drill (delay : Duration) (node : NodeId) (failure : Option ReleaseError)
  deriving DecidableEq

/-- How long the release takes. -/
def ReleaseHandle.delay : ReleaseHandle → Duration
  | .slot _ _ => ⟨0⟩
  | .drill delay _ _ => delay

end Fleet
