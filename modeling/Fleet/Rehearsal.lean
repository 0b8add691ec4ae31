import Fleet.Config.Build
import Fleet.Running

/-!
# Rehearsals

A daemon on a stage: its sources follow scripts, the calls of its registry can be made to
fail, and others can be made to act between the two looks of a sweep.
-/

namespace Fleet

/-- The calls of a registry that can be made to fail.  `missing` is the one by which a node
that is there is not found when it is to be taken out. -/
inductive RegistryCall where
  | register
  | detach
  | detachExpired
  | get
  | list
  | updateActivity
  | evaluateRetention
  | recordLeak
  | missing
  deriving DecidableEq, Repr

/-- What others do in the middle of a sweep. -/
inductive Interruption where
  | activity (node : NodeId) (busy pending : UInt32)
  | detach (node : NodeId)
  deriving DecidableEq, Repr

/-- A registry whose calls fail as laid down.  `interruptions` come right after the next
evaluation that succeeds. -/
structure StagedRegistry (ρ : Type) where
  registry : Registry ρ
  faults : List (RegistryCall × StateError)
  interruptions : List Interruption

namespace StagedRegistry

variable {ρ : Type}

def ofRegistry (registry : Registry ρ) : StagedRegistry ρ := ⟨registry, [], []⟩

def fault? (s : StagedRegistry ρ) (call : RegistryCall) : Option RegistryError :=
  (s.faults.find? fun f => f.1 == call).map fun f => .state f.2

/-- Let a call fail from now on, or, without an error, no longer. -/
def setFault (call : RegistryCall) (error : Option StateError) (s : StagedRegistry ρ) :
    StagedRegistry ρ :=
  let others := s.faults.filter fun f => f.1 != call
  { s with faults := (error.map fun e => (call, e)).toList ++ others }

/-- Carry out a call on the registry unless it is to fail. -/
def attempt {α : Type} (call : RegistryCall)
    (action : Registry ρ → Except RegistryError α × Registry ρ) (s : StagedRegistry ρ) :
    Except RegistryError α × StagedRegistry ρ :=
  match s.fault? call with
  | some e => (.error e, s)
  | none =>
    let (answer, registry) := action s.registry
    (answer, { s with registry })

def register (node : RealizedNode ρ) (s : StagedRegistry ρ) :
    Registration ρ × StagedRegistry ρ :=
  match s.fault? .register with
  | some e => (.failed e node, s)
  | none =>
    let (answer, registry) := s.registry.register node
    (answer, { s with registry })

def detach (id : NodeId) (s : StagedRegistry ρ) :
    Except RegistryError (Option (DetachedNode ρ)) × StagedRegistry ρ :=
  s.attempt .detach fun r => if (s.fault? .missing).isSome then (.ok none, r) else r.detach id

/-- What one interruption does; its error is the evaluation's. -/
def interrupt (now : UInt64) (r : Registry ρ) :
    Interruption → Except RegistryError Unit × Registry ρ
  | .activity node busy pending =>
    let (answer, r) := r.updateActivity node busy pending now
    (answer.map fun _ => (), r)
  | .detach node =>
    let (answer, r) := r.detach node
    (answer.map fun _ => (), r)

/-- Interruptions in turn, up to the first that fails. -/
def interruptAll (now : UInt64) :
    List Interruption → Registry ρ → Except RegistryError Unit × Registry ρ
  | [], r => (.ok (), r)
  | i :: is, r =>
    match interrupt now r i with
    | (.error e, r) => (.error e, r)
    | (.ok (), r) => interruptAll now is r

def evaluateRetention (now : UInt64) (s : StagedRegistry ρ) :
    Except RegistryError (List (NodeRecord × Decision)) × StagedRegistry ρ :=
  match s.attempt .evaluateRetention (Registry.evaluateRetention now) with
  | (.error e, s) => (.error e, s)
  | (.ok entries, s) =>
    let (answer, registry) := interruptAll now s.interruptions s.registry
    (answer.map fun _ => entries, { s with registry, interruptions := [] })

instance : NodeRegistry (StagedRegistry ρ) ρ where
  register := register
  detach := detach
  detachExpired id now := attempt .detachExpired (Registry.detachExpired id now)
  get id := attempt .get (Registry.get id)
  list := attempt .list Registry.list
  updateActivity id busy pending now :=
    attempt .updateActivity (Registry.updateActivity id busy pending now)
  evaluateRetention := evaluateRetention
  recordLeak leak := attempt .recordLeak (Registry.recordLeak leak)
  withStore call s :=
    let (answer, registry) := s.registry.onStore call
    (answer, { s with registry })

end StagedRegistry

/-! ## Productions -/

/-- A daemon on the stage, in time. -/
abbrev Production := Running Source (StagedRegistry ReleaseHandle)

namespace Production

/-- Raise a daemon on the stage. -/
def ofDaemon (now : Time) (d : Daemon Source (Registry ReleaseHandle)) : Production where
  now
  daemon := {
    loop := d.loop
    registry := .ofRegistry d.registry
    board := d.board
    signal := d.signal
    history := d.history
    tasks := d.tasks
    nextTicket := d.nextTicket
    journal := d.journal }
  alarms := none

/-- Build the daemon anew on the same store and forget the old one. -/
def restart (room : Nat) (config : Config) (p : Production) : Except BuildError Production :=
  (config.build room p.daemon.registry.registry.store p.daemon.loop.nextId).map (ofDaemon p.now)

/-- Change what the daemon is and nothing else. -/
def change (p : Production) (d : Daemon Source (StagedRegistry ReleaseHandle)) : Production :=
  { p with daemon := d }

/-- Change the registry alone. -/
def onRegistry {α : Type}
    (call : StagedRegistry ReleaseHandle → α × StagedRegistry ReleaseHandle) (p : Production) :
    α × Production :=
  let (answer, registry) := call p.daemon.registry
  (answer, p.change { p.daemon with registry })

/-- Change the store directly. -/
def onStore {α : Type} (call : Store → α × Store) (p : Production) : α × Production :=
  p.onRegistry (NodeRegistry.withStore call)

/-- Whether a script still holds the completer of a planned capacity; those of nodes that
boot by themselves it never had. -/
def holdsCompleter (id : PlannedId) (p : Production) : Bool :=
  p.daemon.loop.awaits id && !p.daemon.tasks.any fun t =>
    match t.task with
    | .boot planned _ => planned == id
    | _ => false

/-- Use the completer of a planned capacity; `none` if there is none. -/
def complete? (id : PlannedId) (result : CompletionResult ReleaseHandle) (p : Production) :
    Option (Delivery ReleaseHandle × Production) :=
  if p.holdsCompleter id then
    let (delivery, d) := p.daemon.deliver id result
    some (delivery, p.change d)
  else none

def addSource (s : Source) (p : Production) : Except NamingError Production :=
  (p.daemon.loop.sources.insert s).map fun sources =>
    p.change { p.daemon with loop := { p.daemon.loop with sources } }

/-- Remove a source; answers whether it was there. -/
def removeSource (name : String) (p : Production) : Bool × Production :=
  ((p.daemon.loop.sources.named? name).isSome,
    p.change { p.daemon with
      loop := { p.daemon.loop with sources := p.daemon.loop.sources.remove name } })

/-- Forget what has happened so far. -/
def clearJournal (p : Production) : Production :=
  p.change { p.daemon with journal := .empty }

/-- The calls for capacity that scripts have answered since the journal was cleared. -/
def scriptedCalls (p : Production) : List (SourceName × Option Label × Nat) :=
  p.daemon.journal.calls.filterMap fun
    | .provision source label workload _ =>
      match p.daemon.loop.sources.get? source with
      | some (.scripted _) => some (source, label, workload)
      | _ => none
    | .canProvision _ _ _ => none

/-- The nodes whose drills have run since the journal was cleared. -/
def drilled (p : Production) : List NodeId :=
  p.daemon.journal.released.filterMap fun
    | .drill _ node _ => some node
    | .slot _ _ => none

end Production

end Fleet
