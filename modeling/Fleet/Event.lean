import Fleet.Name
import Fleet.Planned

/-!
# Provisioning events and their history

Everything the provisioner and the reaper do is reported as an `Event`.  A `History` keeps
the most recent ones, oldest first.
-/

namespace Fleet

inductive Event where
  | tickStarted (tick : Nat)
  | tickFinished (tick requested registered failed : Nat)
  | provisionRequested (source : SourceName) (label : Option Label) (planned : PlannedId)
      (executors : Nat) (description : String)
  /-- No source of the set serves the label. -/
  | demandUnmet (label : Option Label) (excess : Nat)
  | requestFailed (source : SourceName) (label : Option Label) (error : String)
  | provisionSucceeded (source : SourceName) (label : Option Label) (planned : PlannedId)
      (node : NodeId)
  | provisionFailed (source : SourceName) (label : Option Label) (planned : PlannedId)
      (error : String)
  | provisionTimedOut (source : SourceName) (label : Option Label) (planned : PlannedId)
      (error : String)
  /-- A node arrived after its planned capacity had timed out. -/
  | lateCompletionDiscarded (source : SourceName) (planned : PlannedId) (node : NodeId)
  | duplicateNodeIgnored (source : SourceName) (planned : PlannedId) (node : NodeId)
  | nodeRemoved (node : NodeId) (source : String) (reason : String) (release : ReleaseOutcome)
  deriving DecidableEq

namespace Event

def labelJson (label : Option Label) : Json := .ofOption (fun l : Label => .text l.text) label

/-- A tagged object: the kind of event, then its details. -/
def tagged (kind : String) (details : List (String × Json)) : Json :=
  .object (("type", .text kind) :: details)

def toJson : Event → Json
  | tickStarted tick => tagged "tick_started" [("tick", .number tick)]
  | tickFinished tick requested registered failed => tagged "tick_finished" [
      ("tick", .number tick), ("requested", .number requested),
      ("registered", .number registered), ("failed", .number failed)]
  | provisionRequested source label planned executors description =>
    tagged "provision_requested" [
      ("source", .text source.text), ("label", labelJson label), ("planned", .number planned),
      ("executors", .number executors), ("description", .text description)]
  | demandUnmet label excess => tagged "demand_unmet" [
      ("label", labelJson label), ("excess", .number excess)]
  | requestFailed source label error => tagged "request_failed" [
      ("source", .text source.text), ("label", labelJson label), ("error", .text error)]
  | provisionSucceeded source label planned node => tagged "provision_succeeded" [
      ("source", .text source.text), ("label", labelJson label), ("planned", .number planned),
      ("node", .text node)]
  | provisionFailed source label planned error => tagged "provision_failed" [
      ("source", .text source.text), ("label", labelJson label), ("planned", .number planned),
      ("error", .text error)]
  | provisionTimedOut source label planned error => tagged "provision_timed_out" [
      ("source", .text source.text), ("label", labelJson label), ("planned", .number planned),
      ("error", .text error)]
  | lateCompletionDiscarded source planned node => tagged "late_completion_discarded" [
      ("source", .text source.text), ("planned", .number planned), ("node", .text node)]
  | duplicateNodeIgnored source planned node => tagged "duplicate_node_ignored" [
      ("source", .text source.text), ("planned", .number planned), ("node", .text node)]
  | nodeRemoved node source reason release => tagged "node_removed" [
      ("node", .text node), ("source", .text source), ("reason", .text reason),
      ("release", release.toJson)]

end Event

structure History where
  capacity : Nat
  events : List Event

namespace History

def empty (capacity : Nat) : History := ⟨capacity, []⟩

/-- The most events that a machine has memory for: an allocation is of less than 2 ^ 63 bytes,
and an event takes 96 of them. -/
def addressable : Nat := 9223372036854775807 / 96

/-- A history with memory for `capacity` events, which is taken from the start; `room` is the
number of events that there is memory for. -/
def allocate? (room capacity : Nat) : Option History :=
  if capacity ≤ room then some (empty capacity) else none

/-- Add an event; a full history forgets its oldest one first. -/
def emit (h : History) (e : Event) : History :=
  if h.capacity = 0 then h
  else
    let kept := if h.events.length = h.capacity then h.events.drop 1 else h.events
    { h with events := kept ++ [e] }

def emitAll (h : History) (es : List Event) : History := es.foldl emit h

def clear (h : History) : History := { h with events := [] }

end History

end Fleet
