import Fleet.Node.Realized
import Fleet.Store

/-!
# The cluster registry

The set of live nodes.  Records persist in the store; a node's policy and release handle live
in memory (`handles`), so the records of an earlier run have neither, and the orphan policy
stands in.  `NodeRegistry` is what the provisioner and the reaper ask of a registry; every
operation of it is complete in itself, so others may run between any two.
-/

namespace Fleet

inductive RegistryError where
  | state (error : StateError)
  | nodeNotFound (id : NodeId)
  deriving DecidableEq, Repr

def RegistryError.message : RegistryError → String
  | .state e => "state store error: " ++ e.message
  | .nodeNotFound id => "node not found: " ++ id

/-- What became of an attempt to register; a node that is not taken comes back. -/
inductive Registration (ρ : Type) where
  | added
  | duplicate (node : RealizedNode ρ)
  | failed (error : RegistryError) (node : RealizedNode ρ)

/-- A node that has left the registry. -/
structure DetachedNode (ρ : Type) where
  record : NodeRecord
  release : Option ρ

class NodeRegistry (R : Type) (ρ : outParam Type) where
  register : RealizedNode ρ → R → Registration ρ × R
  /-- Take a node out; `none` if it is not there. -/
  detach : NodeId → R → Except RegistryError (Option (DetachedNode ρ)) × R
  /-- Take a node out if its policy, asked again, still says so. -/
  detachExpired : NodeId → UInt64 → R →
    Except RegistryError (Option (DetachedNode ρ × String)) × R
  get : NodeId → R → Except RegistryError (Option NodeRecord) × R
  list : R → Except RegistryError (List NodeRecord) × R
  updateActivity : NodeId → (busy pending : UInt32) → UInt64 → R →
    Except RegistryError NodeRecord × R
  evaluateRetention : UInt64 → R → Except RegistryError (List (NodeRecord × Decision)) × R
  recordLeak : LeakRecord → R → Except RegistryError Unit × R
  /-- The store behind the registry, for what concerns leaks alone. -/
  withStore : {α : Type} → (Store → α × Store) → R → α × R

structure Handles (ρ : Type) where
  retention : Policy
  release : Option ρ

structure Registry (ρ : Type) where
  store : Store
  handles : SortedMap NodeId (Handles ρ)
  orphanPolicy : Option Policy

namespace Registry

variable {ρ : Type}

def ofStore (store : Store) (orphanPolicy : Option Policy) : Registry ρ :=
  ⟨store, .empty, orphanPolicy⟩

def onStore {α : Type} (call : Store → α × Store) (r : Registry ρ) : α × Registry ρ :=
  let (answer, store) := call r.store
  (answer, { r with store })

/-- The decision of the policy in force for a record. -/
def decide (r : Registry ρ) (record : NodeRecord) (now : UInt64) : Decision :=
  match r.handles.get? record.id, r.orphanPolicy with
  | some h, _ => h.retention.check record now
  | none, some policy => policy.check record now
  | none, none => .keep

def register (node : RealizedNode ρ) (r : Registry ρ) : Registration ρ × Registry ρ :=
  match r.onStore (Store.insertNodeIfAbsent node.record) with
  | (.error e, r) => (.failed (.state e) node, r)
  | (.ok false, r) => (.duplicate node, r)
  | (.ok true, r) =>
    (.added, { r with handles := r.handles.insert node.record.id ⟨node.retention, node.release⟩ })

/-- Delete a record that is there and hand out the handles of its id. -/
def detachRecord (record : NodeRecord) (r : Registry ρ) :
    Except RegistryError (DetachedNode ρ) × Registry ρ :=
  match r.onStore (Store.deleteNode record.id) with
  | (.error e, r) => (.error (.state e), r)
  | (.ok _, r) =>
    (.ok ⟨record, (r.handles.get? record.id).bind (·.release)⟩,
      { r with handles := r.handles.erase record.id })

def detach (id : NodeId) (r : Registry ρ) :
    Except RegistryError (Option (DetachedNode ρ)) × Registry ρ :=
  match r.onStore (Store.getNode id) with
  | (.error e, r) => (.error (.state e), r)
  | (.ok none, r) => (.ok none, { r with handles := r.handles.erase id })
  | (.ok (some record), r) =>
    match r.detachRecord record with
    | (.error e, r) => (.error e, r)
    | (.ok node, r) => (.ok (some node), r)

def detachExpired (id : NodeId) (now : UInt64) (r : Registry ρ) :
    Except RegistryError (Option (DetachedNode ρ × String)) × Registry ρ :=
  match r.onStore (Store.getNode id) with
  | (.error e, r) => (.error (.state e), r)
  | (.ok none, r) => (.ok none, r)
  | (.ok (some record), r) =>
    match r.decide record now with
    | .keep => (.ok none, r)
    | .remove reason =>
      match r.detachRecord record with
      | (.error e, r) => (.error e, r)
      | (.ok node, r) => (.ok (some (node, reason)), r)

def get (id : NodeId) (r : Registry ρ) :
    Except RegistryError (Option NodeRecord) × Registry ρ :=
  match r.onStore (Store.getNode id) with
  | (.error e, r) => (.error (.state e), r)
  | (.ok record, r) => (.ok record, r)

def list (r : Registry ρ) : Except RegistryError (List NodeRecord) × Registry ρ :=
  match r.onStore Store.listNodes with
  | (.error e, r) => (.error (.state e), r)
  | (.ok records, r) => (.ok records, r)

def updateActivity (id : NodeId) (busy pending : UInt32) (now : UInt64) (r : Registry ρ) :
    Except RegistryError NodeRecord × Registry ρ :=
  match r.onStore (Store.getNode id) with
  | (.error e, r) => (.error (.state e), r)
  | (.ok none, r) => (.error (.nodeNotFound id), r)
  | (.ok (some record), r) =>
    let record := record.reportActivity busy pending now
    match r.onStore (Store.putNode record) with
    | (.error e, r) => (.error (.state e), r)
    | (.ok _, r) => (.ok record, r)

def evaluateRetention (now : UInt64) (r : Registry ρ) :
    Except RegistryError (List (NodeRecord × Decision)) × Registry ρ :=
  match r.list with
  | (.error e, r) => (.error e, r)
  | (.ok records, r) => (.ok (records.map fun record => (record, r.decide record now)), r)

def recordLeak (leak : LeakRecord) (r : Registry ρ) :
    Except RegistryError Unit × Registry ρ :=
  match r.onStore (Store.putLeak leak) with
  | (.error e, r) => (.error (.state e), r)
  | (.ok _, r) => (.ok (), r)

/-- The ids of records without handles, left by an earlier run. -/
def orphans (r : Registry ρ) : Except RegistryError (List NodeId) × Registry ρ :=
  match r.list with
  | (.error e, r) => (.error e, r)
  | (.ok records, r) =>
    (.ok ((records.filter fun record => !r.handles.contains record.id).map (·.id)), r)

instance : NodeRegistry (Registry ρ) ρ where
  register := register
  detach := detach
  detachExpired := detachExpired
  get := get
  list := list
  updateActivity := updateActivity
  evaluateRetention := evaluateRetention
  recordLeak := recordLeak
  withStore := onStore

end Registry

end Fleet
