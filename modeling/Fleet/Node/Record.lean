import Fleet.Json.Reader
import Fleet.Time

/-!
# Records of nodes and of leaks

What the store keeps of a node that was provisioned, and of an external resource that could
not be freed.  The idle clock of a node (`idleSince`) starts with the first report that finds
it idle and keeps that start while it stays idle.
-/

namespace Fleet

abbrev NodeId := String

structure NodeRecord where
  id : NodeId
  source : String
  label : Option String
  description : String
  executors : UInt32
  busyExecutors : UInt32
  pendingTasks : UInt32
  hasRunWork : Bool
  idleSince : Option UInt64
  registeredAt : UInt64
  deriving DecidableEq, Inhabited

namespace NodeRecord

/-- A fresh node, idle since `now`. -/
def fresh (id : NodeId) (source : String) (label : Option String) (executors : UInt32)
    (now : UInt64) (description : String) : NodeRecord where
  id
  source
  label
  description
  executors
  busyExecutors := 0
  pendingTasks := 0
  hasRunWork := false
  idleSince := some now
  registeredAt := now

def isIdle (r : NodeRecord) : Bool := r.busyExecutors == 0 && r.pendingTasks == 0

/-- The seconds an idle node has been idle; a clock that runs ahead counts as none. -/
def idleFor (r : NodeRecord) (now : UInt64) : Option Nat :=
  if r.isIdle then r.idleSince.map fun since => now.toNat - since.toNat else none

/-- The record after a report of `busy` executors and `pending` tasks. -/
def reportActivity (r : NodeRecord) (busy pending : UInt32) (now : UInt64) : NodeRecord :=
  let counted := { r with
    busyExecutors := min busy r.executors
    pendingTasks := pending
    hasRunWork := r.hasRunWork || busy > 0 }
  { counted with idleSince := if counted.isIdle then some (r.idleSince.getD now) else none }

/-- The record of a node that came up at `now`. -/
def bootedAt (r : NodeRecord) (now : UInt64) : NodeRecord :=
  { r with registeredAt := now, idleSince := some now }

/-! ## Written form -/

def shape : Shape := .record [
  ("id", .required, .anyText),
  ("source", .required, .anyText),
  ("label", .optional, .nullable .anyText),
  ("description", .required, .anyText),
  ("executors", .required, .number countLimit),
  ("busy_executors", .required, .number countLimit),
  ("pending_tasks", .required, .number countLimit),
  ("has_run_work", .required, .flag),
  ("idle_since", .optional, .nullable (.number wordLimit)),
  ("registered_at", .required, .number wordLimit)]

def toJson (r : NodeRecord) : Json := .object [
  ("id", .text r.id),
  ("source", .text r.source),
  ("label", .ofOption .text r.label),
  ("description", .text r.description),
  ("executors", .number r.executors.toNat),
  ("busy_executors", .number r.busyExecutors.toNat),
  ("pending_tasks", .number r.pendingTasks.toNat),
  ("has_run_work", .flag r.hasRunWork),
  ("idle_since", .ofOption (fun t : UInt64 => .number t.toNat) r.idleSince),
  ("registered_at", .number r.registeredAt.toNat)]

def ofJson? (v : Json) : Option NodeRecord := do
  let count (name : String) : Option UInt32 := do
    UInt32.ofNat (← (← v.member? name).number?)
  pure {
    id := ← (← v.member? "id").text?
    source := ← (← v.member? "source").text?
    label := ← (← v.member? "label").optional? Json.text?
    description := ← (← v.member? "description").text?
    executors := ← count "executors"
    busyExecutors := ← count "busy_executors"
    pendingTasks := ← count "pending_tasks"
    hasRunWork := ← (← v.member? "has_run_work").flag?
    idleSince := (← (← v.member? "idle_since").optional? Json.number?).map UInt64.ofNat
    registeredAt := UInt64.ofNat (← (← v.member? "registered_at").number?) }

end NodeRecord

/-- An external resource that outlived its node. -/
structure LeakRecord where
  nodeId : NodeId
  source : String
  error : String
  recordedAt : UInt64
  deriving DecidableEq, Inhabited

namespace LeakRecord

def shape : Shape := .record [
  ("node_id", .required, .anyText),
  ("source", .required, .anyText),
  ("error", .required, .anyText),
  ("recorded_at", .required, .number wordLimit)]

def toJson (r : LeakRecord) : Json := .object [
  ("node_id", .text r.nodeId),
  ("source", .text r.source),
  ("error", .text r.error),
  ("recorded_at", .number r.recordedAt.toNat)]

def ofJson? (v : Json) : Option LeakRecord := do
  pure {
    nodeId := ← (← v.member? "node_id").text?
    source := ← (← v.member? "source").text?
    error := ← (← v.member? "error").text?
    recordedAt := UInt64.ofNat (← (← v.member? "recorded_at").number?) }

end LeakRecord

end Fleet
