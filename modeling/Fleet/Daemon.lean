import Fleet.Demand
import Fleet.Provisioner.Manual
import Fleet.Provisioner.Tick
import Fleet.Reaper

/-!
# The daemon

The provisioner, the registry and the reaper at work together.  What they start and do not
wait for is a list of tasks, each with the time from which it may run: nodes that boot, and
releases of nodes that have left or were turned away.  Each operation is one step at a given
time; `settle` runs the tasks that are due.  The journal notes all that happens and is never
consulted.
-/

namespace Fleet

inductive Task (ρ : Type) where
  /-- The node of a planned capacity comes up. -/
  | boot (planned : PlannedId) (node : RealizedNode ρ)
  /-- A node that was turned away gives back its resource. -/
  | reclaim (node : RealizedNode ρ)
  /-- The second phase of a removal. -/
  | removal (ticket : Nat) (removal : Removal ρ)

/-- A task and the time from which it may run. -/
structure Scheduled (ρ : Type) where
  due : Time
  task : Task ρ

/-- What has happened, in order: events, calls to sources, handles whose release has run,
and the outcomes of removals by ticket. -/
structure Journal (ρ : Type) where
  events : List Event
  calls : List SourceCall
  released : List ρ
  outcomes : List (Nat × ReleaseOutcome)

def Journal.empty {ρ : Type} : Journal ρ := ⟨[], [], [], []⟩

/-- The outcome of the removal with this ticket, `none` while its release is under way. -/
def Journal.outcome? {ρ : Type} (j : Journal ρ) (ticket : Nat) : Option ReleaseOutcome :=
  (j.outcomes.find? fun o => o.1 == ticket).map (·.2)

structure Daemon (σ R : Type) {ρ : Type} [CapacitySource σ ρ] where
  loop : Provisioner σ
  registry : R
  board : Demand.Board
  signal : Demand.Signal
  history : History
  /-- In the order in which they were started. -/
  tasks : List (Scheduled ρ)
  /-- The ticket of the next removal. -/
  nextTicket : Nat
  journal : Journal ρ

/-- What a sweep did; the releases of the removed nodes go by ticket. -/
structure SweepReport where
  evaluated : Nat
  removed : List NodeId
  tickets : List Nat

namespace Daemon

variable {σ R ρ : Type} [CapacitySource σ ρ]

def start (loop : Provisioner σ) (registry : R) (signal : Demand.Signal) (history : History) :
    Daemon σ R where
  loop
  registry
  board := .empty
  signal
  history
  tasks := []
  nextTicket := 0
  journal := .empty

def emitAll (events : List Event) (d : Daemon σ R) : Daemon σ R :=
  { d with
    history := d.history.emitAll events
    journal := { d.journal with events := d.journal.events ++ events } }

/-- Take over what the provisioner's work has brought about. -/
def absorb (now : Time) (w : Work σ) (d : Daemon σ R) : Daemon σ R :=
  let d := d.emitAll w.events
  { d with
    loop := w.loop
    tasks := d.tasks ++ w.boots.map fun b => ⟨now.after b.2.delay, .boot b.1 b.2.node⟩
    journal := { d.journal with calls := d.journal.calls ++ w.calls } }

variable [NodeRegistry R ρ] [Freeing σ ρ]

/-- When the resource of a node is free if its release starts now. -/
def freeAt (σ : Type) {ρ : Type} [CapacitySource σ ρ] [Freeing σ ρ] (now : Time)
    (release : Option ρ) : Time :=
  match release with
  | none => now
  | some handle => now.after (Freeing.delay σ handle)

/-! ## Operations -/

/-- Sample the demand and tick. -/
def tick (now : Time) (d : Daemon σ R) : TickReport × Daemon σ R :=
  let (demands, signal) := d.signal.sample d.board
  let round := d.loop.tick now demands d.registry
  let reclaims := round.discarded.map fun node =>
    (⟨freeAt σ now node.release, .reclaim node⟩ : Scheduled ρ)
  (round.report, { d with
    signal
    registry := round.registry
    tasks := d.tasks ++ reclaims }.absorb now round.toWork)

def provisionManually (now : Time) (actor : Actor) (source : String) (label : Option Label)
    (workload : Nat) (d : Daemon σ R) : Except MutationError (List PlannedId) × Daemon σ R :=
  let (answer, work) := d.loop.provisionManually now actor source label workload
  (answer, d.absorb now work)

/-- Start the second phase of a removal; answers its ticket. -/
def beginRelease (now : Time) (removal : Removal ρ) (d : Daemon σ R) : Nat × Daemon σ R :=
  (d.nextTicket, { d with
    tasks := d.tasks ++
      [⟨freeAt σ now removal.node.release, .removal d.nextTicket removal⟩]
    nextTicket := d.nextTicket + 1 })

def beginReleases (now : Time) : List (Removal ρ) → Daemon σ R → List Nat × Daemon σ R
  | [], d => ([], d)
  | removal :: rest, d =>
    let (ticket, d) := d.beginRelease now removal
    let (tickets, d) := beginReleases now rest d
    (ticket :: tickets, d)

/-- Sweep by the clock reading `second`. -/
def sweep (now : Time) (second : UInt64) (d : Daemon σ R) :
    Except RegistryError SweepReport × Daemon σ R :=
  match Fleet.sweep second d.registry with
  | (.error e, registry) => (.error e, { d with registry })
  | (.ok s, registry) =>
    let (tickets, d) := { d with registry }.beginReleases now (s.removals.map Prod.snd)
    (.ok ⟨s.evaluated, s.removals.map Prod.fst, tickets⟩, d)

def removeNode (now : Time) (actor : Actor) (id : NodeId) (reason : String) (d : Daemon σ R) :
    Except MutationError Nat × Daemon σ R :=
  match Fleet.removeNode d.loop.guard actor id reason d.registry with
  | (.error e, registry) => (.error e, { d with registry })
  | (.ok removal, registry) =>
    let (ticket, d) := { d with registry }.beginRelease now removal
    (.ok ticket, d)

/-- Resolve planned capacity from outside. -/
def deliver (id : PlannedId) (result : CompletionResult ρ) (d : Daemon σ R) :
    Delivery ρ × Daemon σ R :=
  let (delivery, loop) := d.loop.deliver id result
  (delivery, { d with loop })

/-! ## Tasks -/

/-- Free a resource. -/
def free (handle : ρ) (d : Daemon σ R) : Except ReleaseError Unit × Daemon σ R :=
  let (result, sources) := Freeing.free handle d.loop.sources
  (result, { d with
    loop := { d.loop with sources }
    journal := { d.journal with released := d.journal.released ++ [handle] } })

/-- Free the resource of a node, `none` if it has no handle. -/
def freeNode (release : Option ρ) (d : Daemon σ R) :
    Option (Except ReleaseError Unit) × Daemon σ R :=
  match release with
  | none => (none, d)
  | some handle =>
    let (result, d) := d.free handle
    (some result, d)

/-- A node comes up; if nobody waits for it any more its resource is freed at once. -/
def runBoot (now : Time) (id : PlannedId) (node : RealizedNode ρ) (d : Daemon σ R) :
    Daemon σ R :=
  let node := { node with record := node.record.bootedAt now.seconds }
  match d.deliver id (.ok node) with
  | (.accepted, d) => d
  | (.returned _, d) => (d.freeNode node.release).2

/-- The resource of a node that was turned away is freed; a failure leaves a leak. -/
def runReclaim (now : Time) (node : RealizedNode ρ) (d : Daemon σ R) : Daemon σ R :=
  match d.freeNode node.release with
  | (some (.error e), d) =>
    { d with registry := (NodeRegistry.recordLeak (node.record.leak now.seconds e) d.registry).2 }
  | (_, d) => d

def runRemoval (now : Time) (ticket : Nat) (removal : Removal ρ) (d : Daemon σ R) :
    Daemon σ R :=
  let (result, d) := d.freeNode removal.node.release
  let (outcome, registry) := removal.conclude now.seconds result d.registry
  { d with
    registry
    journal := { d.journal with outcomes := d.journal.outcomes ++ [(ticket, outcome)] }
    }.emitAll [removal.event outcome]

def run (now : Time) (task : Task ρ) (d : Daemon σ R) : Daemon σ R :=
  match task with
  | .boot id node => d.runBoot now id node
  | .reclaim node => d.runReclaim now node
  | .removal ticket removal => d.runRemoval now ticket removal

/-- Run the tasks that are due, in the order in which they were started. -/
def settle (now : Time) (d : Daemon σ R) : Daemon σ R :=
  let (due, waiting) := d.tasks.partition fun t => t.due ≤ now
  due.foldl (fun d t => d.run now t.task) { d with tasks := waiting }

end Daemon

end Fleet
