import Fleet.Planned

/-!
# Commissions

Planned capacities that one client holds, numbered from 1 in the order in which they were
made, each with its handoff.  A number stays taken when the capacity or its completer is
dropped.
-/

namespace Fleet

structure Commission (ρ : Type) where
  description : String
  promised : Nat
  createdAt : Time
  handoff : Handoff ρ

structure Commissions (ρ : Type) where
  entries : List (Commission ρ)

namespace Commissions

variable {ρ : Type}

def empty : Commissions ρ := ⟨[]⟩

def get? (cs : Commissions ρ) (number : Nat) : Option (Commission ρ) :=
  if number = 0 then none else cs.entries[number - 1]?

/-- The number that the next commission gets. -/
def nextNumber (cs : Commissions ρ) : Nat := cs.entries.length + 1

def add (cs : Commissions ρ) (c : Commission ρ) : Commissions ρ := ⟨cs.entries ++ [c]⟩

def setHandoff (cs : Commissions ρ) (number : Nat) (h : Handoff ρ) : Commissions ρ :=
  ⟨cs.entries.modify (number - 1) fun c => { c with handoff := h }⟩

/-- Look at a completion; `none` if the capacity is not there. -/
def poll? (number : Nat) (cs : Commissions ρ) : Option (Poll ρ × Commissions ρ) := do
  let c ← cs.get? number
  let (poll, h) ← c.handoff.poll?
  some (poll, cs.setHandoff number h)

/-- Use a completer; `none` if it is used up. -/
def resolve? (number : Nat) (result : CompletionResult ρ) (cs : Commissions ρ) :
    Option (Delivery ρ × Commissions ρ) := do
  let c ← cs.get? number
  let (delivery, h) ← c.handoff.resolve? result
  some (delivery, cs.setHandoff number h)

/-- Drop a completer unused; answers whether it was there. -/
def abandon (number : Nat) (cs : Commissions ρ) : Bool × Commissions ρ :=
  match cs.get? number with
  | none => (false, cs)
  | some c => (c.handoff.completer, cs.setHandoff number c.handoff.abandon)

/-- Drop a capacity; answers whether it was there. -/
def drop (number : Nat) (cs : Commissions ρ) : Bool × Commissions ρ :=
  match cs.get? number with
  | none => (false, cs)
  | some c => (c.handoff.capacity.isSome, cs.setHandoff number c.handoff.dropCapacity)

/-- Whether nobody waits any more, as the holder of the completer sees it. -/
def isClosed? (number : Nat) (cs : Commissions ρ) : Option Bool := do
  let c ← cs.get? number
  if c.handoff.completer then some c.handoff.isClosed else none

/-- The age of a capacity that is there. -/
def age? (number : Nat) (now : Time) (cs : Commissions ρ) : Option Duration := do
  let c ← cs.get? number
  if c.handoff.isClosed then none else some (now.since c.createdAt)

end Commissions

end Fleet
