import Fleet.Access
import Fleet.Event
import Fleet.Ledger
import Fleet.Source

/-!
# The provisioner

The provisioner turns demand into planned capacity and planned capacity into registered
nodes.  Its `outstanding` list holds the capacity in flight, each entry with its unread
completion; the ledger says what that capacity promises.  Capacity that took too long moves
to `abandoned`, where it promises nothing and a late node is turned away.
-/

namespace Fleet

/-- Planned capacity in flight and the account it was promised to. -/
structure Outstanding (ρ : Type) where
  planned : Planned ρ
  account : Account

def Outstanding.toJson {ρ : Type} (now : Time) (o : Outstanding ρ) : Json := .object [
  ("planned", .number o.planned.id),
  ("source", .text o.account.source.text),
  ("label", Event.labelJson o.account.label),
  ("promised_executors", .number o.planned.promised),
  ("description", .text o.planned.description),
  ("age_secs", .number (o.planned.age now).seconds)]

structure Abandoned (ρ : Type) where
  planned : PlannedId
  source : SourceName
  completion : Completion ρ

structure Provisioner (σ : Type) {ρ : Type} [CapacitySource σ ρ] where
  sources : SourceSet σ
  ledger : Ledger
  outstanding : List (Outstanding ρ)
  abandoned : List (Abandoned ρ)
  guard : Guard
  /-- Give up on capacity that has not resolved after this long. -/
  timeout : Option Duration
  ticks : Nat
  /-- The id of the next planned capacity. -/
  nextId : PlannedId

namespace Provisioner

variable {σ ρ : Type} [CapacitySource σ ρ]

def start (sources : SourceSet σ) (guard : Guard) (timeout : Option Duration)
    (nextId : PlannedId) : Provisioner σ where
  sources
  ledger := .empty
  outstanding := []
  abandoned := []
  guard
  timeout
  ticks := 0
  nextId

/-- Whether some capacity with this id still waits for its result. -/
def awaits (p : Provisioner σ) (id : PlannedId) : Bool :=
  (p.outstanding.any fun o => o.planned.id == id && o.planned.completion.isWaiting) ||
    p.abandoned.any fun a => a.planned == id && a.completion.isWaiting

/-- Resolve the capacity with this id; the result comes back if nobody waits for it. -/
def deliver (id : PlannedId) (result : CompletionResult ρ) (p : Provisioner σ) :
    Delivery ρ × Provisioner σ :=
  if p.awaits id then
    let resolve (c : Completion ρ) : Completion ρ := (c.deliver? result).getD c
    (.accepted, { p with
      outstanding := p.outstanding.map fun o =>
        if o.planned.id = id then
          { o with planned := { o.planned with completion := resolve o.planned.completion } }
        else o
      abandoned := p.abandoned.map fun a =>
        if a.planned = id then { a with completion := resolve a.completion } else a })
  else (.returned result, p)

end Provisioner

/-! ## Work -/

/-- What a source was asked and what it answered. -/
inductive SourceCall where
  | canProvision (source : SourceName) (label : Option Label) (answer : Except RequestError Bool)
  | provision (source : SourceName) (label : Option Label) (workload : Nat)
      (answer : Except RequestError (List PlannedId))

/-- The provisioner at work, and what the work has brought about so far: events, calls to
sources and boots that these have started. -/
structure Work (σ : Type) {ρ : Type} [CapacitySource σ ρ] where
  loop : Provisioner σ
  events : List Event
  calls : List SourceCall
  boots : List (PlannedId × Boot ρ)

/-- Counts of executors stop at the largest one there is. -/
def addCounts (a b : Nat) : Nat := min (a + b) (countLimit - 1)

namespace Work

variable {σ ρ : Type} [CapacitySource σ ρ]

def begin (loop : Provisioner σ) : Work σ := ⟨loop, [], [], []⟩

def emit (w : Work σ) (e : Event) : Work σ := { w with events := w.events ++ [e] }

/-- Track one offer under the next id. -/
def acceptOffer (now : Time) (account : Account) (w : Work σ) (o : Offer ρ) : Work σ :=
  let id := w.loop.nextId
  let planned : Planned ρ := ⟨id, o.description, o.promised, o.completion, now.before o.age⟩
  { loop := { w.loop with
      ledger := w.loop.ledger.record account id o.promised
      outstanding := w.loop.outstanding ++ [⟨planned, account⟩]
      nextId := id + 1 }
    events := w.events ++
      [.provisionRequested account.source account.label id o.promised o.description]
    calls := w.calls
    boots := w.boots ++ (o.boot.map fun b => (id, b)).toList }

def accept (now : Time) (account : Account) (offers : List (Offer ρ)) (w : Work σ) : Work σ :=
  offers.foldl (acceptOffer now account) w

def requestFailed (account : Account) (e : RequestError) (w : Work σ) : Work σ :=
  w.emit (.requestFailed account.source account.label e.message)

/-- Ask a source whether it serves the account's label. -/
def askCan (account : Account) (w : Work σ) : Except RequestError Bool × Work σ :=
  match w.loop.sources.canProvision account.source account.label with
  | (none, _) => (.ok false, w)
  | (some answer, sources) => (answer, { w with
      loop := { w.loop with sources }
      calls := w.calls ++ [.canProvision account.source account.label answer] })

/-- Ask a source for capacity and track what it offers; a failure is reported.  Answers the
ids of the offers and the executors they promise together. -/
def askFor (now : Time) (account : Account) (workload : Nat) (w : Work σ) :
    Except RequestError (List PlannedId × Nat) × Work σ :=
  match w.loop.sources.provision account.source account.label workload with
  | (none, _) => (.ok ([], 0), w)
  | (some (.error e), sources) =>
    (.error e, requestFailed account e { w with
      loop := { w.loop with sources }
      calls := w.calls ++ [.provision account.source account.label workload (.error e)] })
  | (some (.ok offers), sources) =>
    let ids := List.range' w.loop.nextId offers.length
    (.ok (ids, offers.foldl (fun n o => addCounts n o.promised) 0),
      accept now account offers { w with
        loop := { w.loop with sources }
        calls := w.calls ++ [.provision account.source account.label workload (.ok ids)] })

end Work

end Fleet
