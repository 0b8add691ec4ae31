import Fleet.Source.Scripted
import Fleet.Source.Simulated

/-!
# The kinds of sources

The members of a running set: simulated sources from the configuration, and scripted ones in
rehearsals.
-/

namespace Fleet

inductive Source where
  | scripted (s : ScriptedSource)
  | simulated (s : SimulatedSource)

namespace Source

def name : Source → SourceName
  | scripted s => s.name
  | simulated s => s.name

def displayName : Source → String
  | scripted s => s.name.text
  | simulated s => s.displayName

def canProvision (label : Option Label) : Source → Except RequestError Bool × Source
  | scripted s => ((s.canProvision label).1, scripted (s.canProvision label).2)
  | simulated s => (.ok (s.serves label), simulated s)

def provision (label : Option Label) (excess : Nat) :
    Source → Except RequestError (List (Offer ReleaseHandle)) × Source
  | scripted s => (s.provision.1, scripted s.provision.2)
  | simulated s => ((s.provision label excess).1, simulated (s.provision label excess).2)

/-- Give back a slot; only simulated sources keep count of them. -/
def releaseSlot (node : NodeId) : Source → Except ReleaseError Unit × Source
  | scripted s => (.ok (), scripted s)
  | simulated s => ((s.releaseSlot node).1, simulated (s.releaseSlot node).2)

theorem name_releaseSlot (node : NodeId) : ∀ s : Source, (s.releaseSlot node).2.name = s.name
  | scripted _ => rfl
  | simulated s => s.name_releaseSlot node

instance : CapacitySource Source ReleaseHandle where
  name := name
  displayName := displayName
  canProvision := canProvision
  provision := provision
  name_canProvision label s := by
    cases s with
    | scripted s => exact s.name_canProvision label
    | simulated s => rfl
  name_provision label excess s := by
    cases s with
    | scripted s => rfl
    | simulated s => exact s.name_provision label excess

/-! ## Freeing -/

/-- Give back a slot at the source of a name; a source that is gone keeps no count. -/
def freeSlot (source : SourceName) (node : NodeId) (set : SourceSet Source) :
    Except ReleaseError Unit × SourceSet Source :=
  (((set.get? source).map fun s => (s.releaseSlot node).1).getD (.ok ()),
    set.update source (fun s => (s.releaseSlot node).2) (name_releaseSlot node))

def free (handle : ReleaseHandle) (set : SourceSet Source) :
    Except ReleaseError Unit × SourceSet Source :=
  match handle with
  | .slot source node => freeSlot source node set
  | .drill _ _ none => (.ok (), set)
  | .drill _ _ (some e) => (.error e, set)

instance : Freeing Source ReleaseHandle where
  delay := ReleaseHandle.delay
  free := free
  names_free handle set := by
    cases handle with
    | slot source node => exact SourceSet.names_update _ _ _ (name_releaseSlot node)
    | drill _ _ failure => cases failure <;> rfl

end Source

end Fleet
