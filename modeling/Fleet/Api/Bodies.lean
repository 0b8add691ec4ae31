import Fleet.Api.Message
import Fleet.Duration

/-!
# Request bodies

What the bodies of the mutating requests say.
-/

namespace Fleet.Api

/-- A workload of executors for a label; of demand or of a manual request. -/
structure Workload where
  label : Option String
  excess : Nat

namespace Workload

def shape : Shape := .record [
  ("label", .byDefault .null, .nullable .anyText),
  ("excess", .required, .number countLimit)]

def ofJson? (v : Json) : Option Workload := do
  pure {
    label := ← (← v.member? "label").optional? Json.text?
    excess := ← (← v.member? "excess").number? }

end Workload

/-- What the scheduler reports of a node. -/
structure Activity where
  busy : UInt32
  pending : UInt32

namespace Activity

def shape : Shape := .record [
  ("busy_executors", .required, .number countLimit),
  ("pending_tasks", .byDefault (.number 0), .number countLimit)]

def ofJson? (v : Json) : Option Activity := do
  pure {
    busy := UInt32.ofNat (← (← v.member? "busy_executors").number?)
    pending := UInt32.ofNat (← (← v.member? "pending_tasks").number?) }

end Activity

/-- Read a body of a shape into what it says. -/
def Request.decode {α : Type} (r : Request) (shape : Shape) (ofJson? : Json → Option α) :
    Except Status α :=
  match r.read shape with
  | .error status => .error status
  | .ok v =>
    match ofJson? v with
    | some a => .ok a
    | none => .error .unprocessable

end Fleet.Api
