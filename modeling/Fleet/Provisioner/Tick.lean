import Fleet.Demand
import Fleet.Mutation
import Fleet.Provisioner.Basic

/-!
# Ticks

A tick first looks at all capacity in flight: a node is registered, a failure reported, and
what has taken too long is abandoned.  It then looks at what was abandoned, and a node that
arrives late is turned away.  Only then does it ask, label by label and source by source in
the order of the set, for the demand that the ledger does not cover yet.  A source that fails
is left alone for the rest of the tick.
-/

namespace Fleet

structure TickReport where
  tick : Nat
  requested : Nat
  promisedExecutors : Nat
  registered : Nat
  failed : Nat
  timedOut : Nat
  lateDiscarded : Nat
  sourceFailures : Nat
  /-- The labels that no source serves. -/
  unmet : List (Option Label)
  deriving DecidableEq

def TickReport.zero (tick : Nat) : TickReport := ⟨tick, 0, 0, 0, 0, 0, 0, 0, []⟩

def TickReport.toJson (r : TickReport) : Json := .object [
  ("tick", .number r.tick),
  ("requested", .number r.requested),
  ("promised_executors", .number r.promisedExecutors),
  ("registered", .number r.registered),
  ("failed", .number r.failed),
  ("timed_out", .number r.timedOut),
  ("late_discarded", .number r.lateDiscarded),
  ("source_failures", .number r.sourceFailures),
  ("unmet", .array (r.unmet.map Event.labelJson))]

def timeoutMessage (id : PlannedId) (waited : Duration) : String :=
  "planned capacity " ++ PlannedId.display id ++ " did not complete within " ++ waited.display

/-- A tick under way.  `failed` are the sources whose calls failed in it, `discarded` the
nodes turned away whose resources are still to be freed. -/
structure Round (σ R : Type) {ρ : Type} [CapacitySource σ ρ] extends Work σ where
  registry : R
  report : TickReport
  failed : List SourceName
  discarded : List (RealizedNode ρ)

namespace Round

variable {σ R ρ : Type} [CapacitySource σ ρ] [NodeRegistry R ρ]

def emit (r : Round σ R) (e : Event) : Round σ R := { r with toWork := r.toWork.emit e }

/-- Turn a node away; without a handle there is nothing to free. -/
def discard (node : RealizedNode ρ) (r : Round σ R) : Round σ R :=
  match node.release with
  | none => r
  | some _ => { r with discarded := r.discarded ++ [node] }

/-! ## Capacity in flight -/

/-- Take a promise off the ledger. -/
def clearPromise (id : PlannedId) (r : Round σ R) : Round σ R :=
  { r with loop := { r.loop with ledger := (r.loop.ledger.resolve id).2 } }

def completionFailed (o : Outstanding ρ) (e : CompletionError) (r : Round σ R) : Round σ R :=
  { r with
    report := { r.report with failed := r.report.failed + 1 }
    events := r.events ++
      [.provisionFailed o.account.source o.account.label o.planned.id e.message] }

/-- Hand a node over to the registry; a node it does not take is turned away. -/
def merge (o : Outstanding ρ) (node : RealizedNode ρ) (r : Round σ R) : Round σ R :=
  match NodeRegistry.register node r.registry with
  | (.added, registry) => { r with
      registry
      report := { r.report with registered := r.report.registered + 1 }
      events := r.events ++
        [.provisionSucceeded o.account.source o.account.label o.planned.id node.record.id] }
  | (.duplicate back, registry) =>
    ({ r with registry }.emit
      (.duplicateNodeIgnored o.account.source o.planned.id node.record.id)).discard back
  | (.failed e back, registry) =>
    ({ r with registry }.completionFailed o (.rejected e.message)).discard back

def timedOut (now : Time) (timeout : Option Duration) (p : Planned ρ) : Bool :=
  timeout.any fun limit => decide (limit.millis ≤ (p.age now).millis)

/-- Give up on an entry that has waited too long. -/
def abandon (now : Time) (o : Outstanding ρ) (r : Round σ R) : Round σ R :=
  let r := r.clearPromise o.planned.id
  { r with
    loop := { r.loop with
      abandoned := r.loop.abandoned ++
        [⟨o.planned.id, o.account.source, o.planned.completion⟩] }
    report := { r.report with timedOut := r.report.timedOut + 1 }
    events := r.events ++ [.provisionTimedOut o.account.source o.account.label o.planned.id
      (timeoutMessage o.planned.id (o.planned.age now))] }

def keep (o : Outstanding ρ) (r : Round σ R) : Round σ R :=
  { r with loop := { r.loop with outstanding := r.loop.outstanding ++ [o] } }

/-- Look at one entry in flight. -/
def pollEntry (now : Time) (r : Round σ R) (o : Outstanding ρ) : Round σ R :=
  match o.planned.completion.poll.1 with
  | .pending => if timedOut now r.loop.timeout o.planned then r.abandon now o else r.keep o
  | .ready (.ok node) => (r.clearPromise o.planned.id).merge o node
  | .ready (.error e) => (r.clearPromise o.planned.id).completionFailed o e
  | .spent => r.clearPromise o.planned.id

def pollOutstanding (now : Time) (r : Round σ R) : Round σ R :=
  r.loop.outstanding.foldl (pollEntry now)
    { r with loop := { r.loop with outstanding := [] } }

/-! ## Abandoned capacity -/

/-- Look at one abandoned entry. -/
def pollLate (r : Round σ R) (a : Abandoned ρ) : Round σ R :=
  match a.completion.poll.1 with
  | .pending => { r with loop := { r.loop with abandoned := r.loop.abandoned ++ [a] } }
  | .ready (.ok node) =>
    let r := r.emit (.lateCompletionDiscarded a.source a.planned node.record.id)
    { r with report := { r.report with lateDiscarded := r.report.lateDiscarded + 1 } }.discard
      node
  | .ready (.error _) => r
  | .spent => r

def pollAbandoned (r : Round σ R) : Round σ R :=
  r.loop.abandoned.foldl pollLate { r with loop := { r.loop with abandoned := [] } }

/-! ## Demand -/

/-- The sources asked so far for one label: the executors they granted, whether one of them
serves the label, and whether one was passed over for a failure. -/
structure Asking (σ R : Type) {ρ : Type} [CapacitySource σ ρ] where
  round : Round σ R
  granted : Nat
  capable : Bool
  skipped : Bool

def markFailed (n : SourceName) (r : Round σ R) : Round σ R :=
  { r with failed := r.failed ++ [n] }

/-- Ask one source for what is still missing of `remaining`. -/
def askSource (now : Time) (label : Option Label) (remaining : Nat) (n : SourceName)
    (a : Asking σ R) : Asking σ R :=
  let account : Account := ⟨n, label⟩
  if a.round.failed.contains n then { a with skipped := true }
  else
    match a.round.toWork.askCan account with
    | (.error e, w) => { a with
        round := { a.round with toWork := w.requestFailed account e }.markFailed n
        skipped := true }
    | (.ok false, w) => { a with round := { a.round with toWork := w } }
    | (.ok true, w) =>
      match w.askFor now account (remaining - a.granted) with
      | (.error _, w) => { a with
          round := { a.round with toWork := w }.markFailed n
          capable := true }
      | (.ok (ids, executors), w) => { a with
          round := { a.round with
            toWork := w
            report := { a.round.report with
              requested := a.round.report.requested + ids.length
              promisedExecutors := addCounts a.round.report.promisedExecutors executors } }
          granted := addCounts a.granted executors
          capable := true }

/-- Ask the sources in order until `remaining` is covered. -/
def askSources (now : Time) (label : Option Label) (remaining : Nat) :
    List SourceName → Asking σ R → Asking σ R
  | [], a => a
  | n :: ns, a =>
    if remaining ≤ a.granted then a
    else askSources now label remaining ns (askSource now label remaining n a)

/-- Ask for what the ledger does not cover of one demand. -/
def evaluate (now : Time) (r : Round σ R) (d : Demand) : Round σ R :=
  let remaining := d.excess - r.loop.ledger.promisedForLabel d.label
  if remaining = 0 then r
  else
    let a := askSources now d.label remaining r.loop.sources.names ⟨r, 0, false, false⟩
    if !a.capable && !a.skipped then
      { a.round with
        events := a.round.events ++ [.demandUnmet d.label d.excess]
        report := { a.round.report with unmet := a.round.report.unmet ++ [d.label] } }
    else a.round

def evaluateAll (now : Time) (demands : List Demand) (r : Round σ R) : Round σ R :=
  demands.foldl (evaluate now) r

/-! ## The whole tick -/

def start (loop : Provisioner σ) (registry : R) : Round σ R :=
  let tick := loop.ticks + 1
  { loop := { loop with ticks := tick }
    events := [.tickStarted tick]
    calls := []
    boots := []
    registry
    report := .zero tick
    failed := []
    discarded := [] }

def finish (r : Round σ R) : Round σ R :=
  { r with
    report := { r.report with sourceFailures := r.failed.length }
    events := r.events ++ [.tickFinished r.report.tick r.report.requested r.report.registered
      (r.report.failed + r.report.timedOut)] }

end Round

/-- One tick at `now` with the demand sampled for it. -/
def Provisioner.tick {σ R ρ : Type} [CapacitySource σ ρ] [NodeRegistry R ρ] (now : Time)
    (demands : List Demand) (registry : R) (p : Provisioner σ) : Round σ R :=
  ((Round.start p registry).pollOutstanding now).pollAbandoned.evaluateAll now demands |>.finish

end Fleet
