import Fleet.Node.Realized

/-!
# Planned capacity

One node creation in progress, and the handoff that ends it.  A `Completion` is resolved at
most once (`deliver`), read at most once (`poll`), and spent for ever after.
-/

namespace Fleet

abbrev PlannedId := Nat

def PlannedId.display (id : PlannedId) : String := "planned-" ++ Text.numeral id

/-- An accepted creation came to nothing. -/
inductive CompletionError where
  | failed (message : String)
  | abandoned
  | rejected (message : String)
  deriving DecidableEq, Repr

def CompletionError.message : CompletionError → String
  | .failed m => "node creation failed: " ++ m
  | .abandoned => "node creation abandoned by source"
  | .rejected m => "registry rejected node: " ++ m

abbrev CompletionResult (ρ : Type) := Except CompletionError (RealizedNode ρ)

inductive Completion (ρ : Type) where
  | waiting
  | unread (result : CompletionResult ρ)
  | spent

/-- What looking at a completion shows. -/
inductive Poll (ρ : Type) where
  | pending
  | ready (result : CompletionResult ρ)
  | spent

namespace Completion

variable {ρ : Type}

def poll : Completion ρ → Poll ρ × Completion ρ
  | waiting => (.pending, waiting)
  | unread result => (.ready result, spent)
  | spent => (.spent, spent)

/-- Resolve a completion that is still waiting. -/
def deliver? (result : CompletionResult ρ) : Completion ρ → Option (Completion ρ)
  | waiting => some (unread result)
  | _ => none

def isWaiting : Completion ρ → Bool
  | waiting => true
  | _ => false

end Completion

structure Planned (ρ : Type) where
  id : PlannedId
  description : String
  /-- The executors the source expects the node to offer. -/
  promised : Nat
  completion : Completion ρ
  createdAt : Time

def Planned.age {ρ : Type} (p : Planned ρ) (now : Time) : Duration := now.since p.createdAt

/-! ## Both ends of a handoff -/

/-- A planned capacity together with its completer.  `capacity` is `none` once the one who
waits has dropped it; `completer` says that the creating side has not used up its end. -/
structure Handoff (ρ : Type) where
  capacity : Option (Completion ρ)
  completer : Bool

/-- What the creating side learns from using its end. -/
inductive Delivery (ρ : Type) where
  | accepted
  | returned (result : CompletionResult ρ)

namespace Handoff

variable {ρ : Type}

def pending : Handoff ρ := ⟨some .waiting, true⟩

/-- Use the completer; `none` if it is used up. -/
def resolve? (result : CompletionResult ρ) (h : Handoff ρ) : Option (Delivery ρ × Handoff ρ) :=
  if h.completer then
    match h.capacity.bind (Completion.deliver? result) with
    | some c => some (.accepted, ⟨some c, false⟩)
    | none => some (.returned result, { h with completer := false })
  else none

/-- Drop the completer; who waits then reads that the creation was abandoned. -/
def abandon (h : Handoff ρ) : Handoff ρ :=
  match h.resolve? (.error .abandoned) with
  | some (_, h') => h'
  | none => h

def poll? (h : Handoff ρ) : Option (Poll ρ × Handoff ρ) :=
  h.capacity.map fun c => (c.poll.1, { h with capacity := some c.poll.2 })

def dropCapacity (h : Handoff ρ) : Handoff ρ := { h with capacity := none }

/-- Nobody waits any more. -/
def isClosed (h : Handoff ρ) : Bool := h.capacity.isNone

/-- A handoff whose result is there from the start. -/
def resolved (result : CompletionResult ρ) : Handoff ρ :=
  match pending.resolve? result with
  | some (_, h) => h
  | none => pending

end Handoff

end Fleet
