import Fleet.Daemon
import Fleet.Proofs.Provisioner.Run

/-!
# The daemon from moment to moment

The daemon's own operations are long: a tick registers many nodes, and a sweep takes out many.
A `Moment` is the daemon at a point in between, with a tick that may be under way, and an
`Act` is a single step of it, with at most one call to the registry: a tick looks at one
entry, a sweep takes out one node, a task runs.  Acts may follow each other in any order, so
sweeps, removals and reports go on in the middle of a tick, and tasks run at any time.
-/

namespace Fleet

/-! ## Moments -/

/-- What a tick under way still has to look at. -/
inductive Ahead (ρ : Type) where
  | inFlight (rest : List (Outstanding ρ))
  | late (rest : List (Abandoned ρ))

/-- A tick under way; `round` is what it has come to so far, except that the provisioner and
the registry are those of the daemon. -/
structure Ticking (σ : Type) {ρ : Type} [CapacitySource σ ρ] where
  now : Time
  demands : List Demand
  round : Round σ (Registry ρ)
  ahead : Ahead ρ

structure Moment (σ : Type) {ρ : Type} [CapacitySource σ ρ] where
  daemon : Daemon σ (Registry ρ)
  ticking : Option (Ticking σ)

/-- A call to the registry that neither adds nor takes out a node. -/
inductive Consultation where
  | get (id : NodeId)
  | list
  | evaluate (second : UInt64)
  | report (id : NodeId) (busy pending : UInt32) (second : UInt64)
  | listLeaks
  | resolveLeak (id : NodeId)

def Registry.consult {ρ : Type} (r : Registry ρ) : Consultation → Registry ρ
  | .get id => (r.get id).2
  | .list => r.list.2
  | .evaluate second => (r.evaluateRetention second).2
  | .report id busy pending second => (r.updateActivity id busy pending second).2
  | .listLeaks => (r.onStore Store.listLeaks).2
  | .resolveLeak id => (r.onStore (Store.deleteLeak id)).2

namespace Moment

variable {σ ρ : Type} [CapacitySource σ ρ]

/-- What may happen next. -/
inductive Act (σ : Type) {ρ : Type} [CapacitySource σ ρ] where
  | begin (now : Time)
  /-- The tick under way goes one step on. -/
  | advance
  | provision (now : Time) (actor : Actor) (source : String) (label : Option Label)
      (workload : Nat)
  | deliver (id : PlannedId) (result : CompletionResult ρ)
  | changeSources (sources : SourceSet σ)
  | changeDemand (board : Demand.Board)
  | consult (c : Consultation)
  /-- A sweep comes to a node. -/
  | expire (now : Time) (second : UInt64) (id : NodeId)
  | remove (now : Time) (actor : Actor) (id : NodeId) (reason : String)
  /-- The task at a place of the list runs. -/
  | perform (now : Time) (place : Nat)

end Moment

/-! ## Ticks in steps -/

namespace Ticking

variable {σ ρ : Type} [CapacitySource σ ρ]

/-- The round under way, with the provisioner and the registry as they are now. -/
def current (d : Daemon σ (Registry ρ)) (t : Ticking σ) : Round σ (Registry ρ) :=
  { t.round with loop := d.loop, registry := d.registry }

variable [Freeing σ ρ]

/-- Take over what a look has come to; the release of a node that it turned away starts at
once. -/
def proceed (r : Round σ (Registry ρ)) (ahead : Ahead ρ) (d : Daemon σ (Registry ρ))
    (t : Ticking σ) : Moment σ where
  daemon := { d with
    loop := r.loop
    registry := r.registry
    tasks := d.tasks ++ (r.discarded.drop t.round.discarded.length).map fun node =>
      ⟨Daemon.freeAt σ t.now node.release, .reclaim node⟩ }
  ticking := some { t with round := r, ahead }

/-- One step of a tick: a look at the next entry, the turn to abandoned capacity, or the
evaluation of all demand. -/
def advance (d : Daemon σ (Registry ρ)) (t : Ticking σ) : Moment σ :=
  match t.ahead with
  | .inFlight (o :: os) => t.proceed (Round.pollEntry t.now (t.current d) o) (.inFlight os) d
  | .inFlight [] =>
    let r := t.current d
    t.proceed { r with loop := { r.loop with abandoned := [] } } (.late r.loop.abandoned) d
  | .late (a :: as) => t.proceed (Round.pollLate (t.current d) a) (.late as) d
  | .late [] =>
    let r := ((t.current d).evaluateAll t.now t.demands).finish
    { daemon := { d with registry := r.registry }.absorb t.now r.toWork
      ticking := none }

end Ticking

/-! ## Capacity that is polled -/

section Polled

variable {ρ : Type}

def Outstanding.watched (o : Outstanding ρ) : PlannedId × Completion ρ :=
  (o.planned.id, o.planned.completion)

def Abandoned.watched (a : Abandoned ρ) : PlannedId × Completion ρ := (a.planned, a.completion)

namespace Ahead

def watched : Ahead ρ → List (PlannedId × Completion ρ)
  | inFlight rest => rest.map Outstanding.watched
  | late rest => rest.map Abandoned.watched

def outstanding : Ahead ρ → List (Outstanding ρ)
  | inFlight rest => rest
  | late _ => []

def abandoned : Ahead ρ → List (Abandoned ρ)
  | inFlight _ => []
  | late rest => rest

def resolved (id : PlannedId) (result : CompletionResult ρ) : Ahead ρ → Ahead ρ
  | inFlight rest => .inFlight (rest.map (·.resolved id result))
  | late rest => .late (rest.map (·.resolved id result))

end Ahead

variable {σ : Type} [CapacitySource σ ρ]

/-- The ids and completions of all capacity that a provisioner polls. -/
def Provisioner.watched (p : Provisioner σ) : List (PlannedId × Completion ρ) :=
  p.outstanding.map Outstanding.watched ++ p.abandoned.map Abandoned.watched

/-- The ids and completions of all capacity that is polled, wherever the tick has come to. -/
def Moment.watched (m : Moment σ) : List (PlannedId × Completion ρ) :=
  (m.ticking.map fun t => t.ahead.watched).getD [] ++ m.daemon.loop.watched

/-- The capacity in flight, wherever the tick has come to. -/
def Moment.outstanding (m : Moment σ) : List (Outstanding ρ) :=
  (m.ticking.map fun t => t.ahead.outstanding).getD [] ++ m.daemon.loop.outstanding

/-- What has timed out and is still polled, wherever the tick has come to. -/
def Moment.abandoned (m : Moment σ) : List (Abandoned ρ) :=
  (m.ticking.map fun t => t.ahead.abandoned).getD [] ++ m.daemon.loop.abandoned

/-- Whether some capacity with this id still waits for its result. -/
def Moment.awaits (m : Moment σ) (id : PlannedId) : Bool :=
  m.watched.any fun c => c.1 == id && c.2.isWaiting

end Polled

/-! ## Single steps -/

namespace Moment

variable {σ ρ : Type} [CapacitySource σ ρ]

/-- Begin a tick unless one is under way. -/
def begin (now : Time) (m : Moment σ) : Moment σ :=
  match m.ticking with
  | some _ => m
  | none =>
    let d := m.daemon
    let (demands, signal) := d.signal.sample d.board
    let round := Round.start { d.loop with outstanding := [] } d.registry
    { daemon := { d with signal, loop := round.loop }
      ticking := some ⟨now, demands, round, .inFlight d.loop.outstanding⟩ }

/-- Resolve planned capacity, also such as the tick under way has in hand. -/
def deliver (id : PlannedId) (result : CompletionResult ρ) (m : Moment σ) : Moment σ where
  daemon := (m.daemon.deliver id result).2
  ticking := m.ticking.map fun t => { t with ahead := t.ahead.resolved id result }

variable [Freeing σ ρ]

/-- A sweep comes to a node that it found due to go. -/
def expire (now : Time) (second : UInt64) (id : NodeId) (d : Daemon σ (Registry ρ)) :
    Daemon σ (Registry ρ) :=
  let s := Sweep.expire second id ⟨d.registry, 0, []⟩
  ({ d with registry := s.registry }.beginReleases now (s.removals.map Prod.snd)).2

/-- Take out a node by hand; the permission has been checked. -/
def remove (now : Time) (actor : Actor) (id : NodeId) (reason : String)
    (d : Daemon σ (Registry ρ)) : Daemon σ (Registry ρ) :=
  match detachFor actor id reason d.registry with
  | (.error _, registry) => { d with registry }
  | (.ok removal, registry) => ({ d with registry }.beginRelease now removal).2

/-- The node as it is handed over when it has come up. -/
def booted (now : Time) (node : RealizedNode ρ) : RealizedNode ρ :=
  { node with record := node.record.bootedAt now.seconds }

/-- Run a task.  A node that comes up may be awaited by the tick under way. -/
def runTask (now : Time) (m : Moment σ) : Task ρ → Moment σ
  | .boot id node =>
    if m.awaits id then m.deliver id (.ok (booted now node))
    else { m with daemon := (m.daemon.freeNode node.release).2 }
  | .reclaim node => { m with daemon := m.daemon.runReclaim now node }
  | .removal ticket removal => { m with daemon := m.daemon.runRemoval now ticket removal }

def perform (now : Time) (place : Nat) (m : Moment σ) : Moment σ :=
  match m.daemon.tasks[place]? with
  | none => m
  | some t =>
    { m with daemon := { m.daemon with tasks := m.daemon.tasks.eraseIdx place } }.runTask now
      t.task

def step (m : Moment σ) : Act σ → Moment σ
  | .begin now => m.begin now
  | .advance => (m.ticking.map fun t => t.advance m.daemon).getD m
  | .provision now actor source label workload =>
    -- who asks by hand waits for the tick to end
    match m.ticking with
    | some _ => m
    | none => { m with daemon := (m.daemon.provisionManually now actor source label workload).2 }
  | .deliver id result => m.deliver id result
  | .changeSources sources =>
    { m with daemon := { m.daemon with loop := { m.daemon.loop with sources } } }
  | .changeDemand board => { m with daemon := { m.daemon with board } }
  | .consult c => { m with daemon := { m.daemon with registry := m.daemon.registry.consult c } }
  | .expire now second id => { m with daemon := expire now second id m.daemon }
  | .remove now actor id reason => { m with daemon := remove now actor id reason m.daemon }
  | .perform now place => m.perform now place

def run (m : Moment σ) (acts : List (Act σ)) : Moment σ := acts.foldl step m

end Moment

end Fleet
