import Fleet.Event
import Fleet.Mutation

/-!
# The reaper

Nodes leave in two phases: first a node is taken out of the registry, by a sweep or by hand,
and then its resource is freed.  A sweep asks every policy and then asks each of those that
want their node gone once more, on the record as it is by then.  Every step below makes one
call to the registry, so that other work may go on between any two of them.
-/

namespace Fleet

/-- A node that is out of the registry and whose resource is still to be freed. -/
structure Removal (ρ : Type) where
  node : DetachedNode ρ
  reason : String

/-! ## Sweeps -/

/-- A sweep under way. -/
structure Sweep (R : Type) {ρ : Type} [NodeRegistry R ρ] where
  registry : R
  /-- How many nodes were looked at. -/
  evaluated : Nat
  /-- The nodes taken out so far, in the order of the sweep. -/
  removals : List (NodeId × Removal ρ)

namespace Sweep

variable {R ρ : Type} [NodeRegistry R ρ]

/-- Take out a node if its policy says so again; a node that cannot be taken out stays. -/
def expire (now : UInt64) (id : NodeId) (s : Sweep R) : Sweep R :=
  match NodeRegistry.detachExpired id now s.registry with
  | (.ok (some (node, reason)), registry) =>
    { s with registry, removals := s.removals ++ [(id, ⟨node, reason⟩)] }
  | (_, registry) => { s with registry }

/-- Look at one node again if the first look found it due to go. -/
def recheck (now : UInt64) (s : Sweep R) (entry : NodeRecord × Decision) : Sweep R :=
  if entry.2.isRemove then s.expire now entry.1.id else s

end Sweep

/-- Sweep the registry at the second `now`. -/
def sweep {R ρ : Type} [NodeRegistry R ρ] (now : UInt64) (registry : R) :
    Except RegistryError (Sweep R) × R :=
  match NodeRegistry.evaluateRetention now registry with
  | (.error e, registry) => (.error e, registry)
  | (.ok entries, registry) =>
    let s := entries.foldl (Sweep.recheck now) ⟨registry, entries.length, []⟩
    (.ok s, s.registry)

/-! ## Removal by hand -/

section ByHand

variable {R ρ : Type} [NodeRegistry R ρ]

/-- Check that an actor may remove a node, by the source that its record names. -/
def authorizeRemoval (guard : Guard) (actor : Actor) (id : NodeId) (registry : R) :
    Except MutationError Unit × R :=
  match NodeRegistry.get id registry with
  | (.error e, registry) => (.error (.registry e), registry)
  | (.ok none, registry) => (.error (.registry (.nodeNotFound id)), registry)
  | (.ok (some record), registry) =>
    match SourceName.ofString record.source with
    | .error _ => (.error (.unknownSource record.source), registry)
    | .ok source =>
      match guard.check actor .remove source with
      | .error e => (.error (.denied e), registry)
      | .ok () => (.ok (), registry)

/-- Take a node out on an actor's behalf; the permission has been checked. -/
def detachFor (actor : Actor) (id : NodeId) (reason : String) (registry : R) :
    Except MutationError (Removal ρ) × R :=
  match NodeRegistry.detach id registry with
  | (.error e, registry) => (.error (.registry e), registry)
  | (.ok none, registry) => (.error (.registry (.nodeNotFound id)), registry)
  | (.ok (some node), registry) =>
    (.ok ⟨node, "removed by " ++ actor.name ++ ": " ++ reason⟩, registry)

def removeNode (guard : Guard) (actor : Actor) (id : NodeId) (reason : String) (registry : R) :
    Except MutationError (Removal ρ) × R :=
  match authorizeRemoval guard actor id registry with
  | (.error e, registry) => (.error e, registry)
  | (.ok (), registry) => detachFor actor id reason registry

end ByHand

/-! ## The second phase -/

/-- The leak that is left when the resource of a node was not freed. -/
def NodeRecord.leak (r : NodeRecord) (now : UInt64) (e : ReleaseError) : LeakRecord where
  nodeId := r.id
  source := r.source
  error := (e.about r.id).message
  recordedAt := now

namespace Removal

variable {R ρ : Type} [NodeRegistry R ρ]

def event (removal : Removal ρ) (outcome : ReleaseOutcome) : Event :=
  .nodeRemoved removal.node.record.id removal.node.record.source removal.reason outcome

/-- The end of a removal whose release came to `result`; `none` if there was no handle.  A
failure leaves a leak. -/
def conclude (now : UInt64) (result : Option (Except ReleaseError Unit)) (removal : Removal ρ)
    (registry : R) : ReleaseOutcome × R :=
  match result with
  | none => (.nothingToRelease, registry)
  | some (.ok ()) => (.released, registry)
  | some (.error e) =>
    let leak := removal.node.record.leak now e
    (.leaked leak.error, (NodeRegistry.recordLeak leak registry).2)

end Removal

end Fleet
