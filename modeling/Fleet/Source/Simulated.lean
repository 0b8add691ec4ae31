import Fleet.Source
import Fleet.Source.Release

/-!
# Simulated sources

A source that boots nodes after a fixed delay without any provider.  It holds a slot for each
node that is booting or live, `maxNodes` at most, and numbers its nodes from where an earlier
run left off.
-/

namespace Fleet

structure SimulatedSource where
  name : SourceName
  labels : List Label
  untagged : Bool
  executorsPerNode : UInt32
  maxNodes : Nat
  bootDelay : Duration
  retention : Policy
  /-- Why there is no scheduler to run boots on, in the words of the platform; `none` where
  there is one. -/
  outage : Option String
  /-- Nodes booting or live. -/
  nodeCount : Nat
  /-- The number of the next node; numbers are machine words and start over after the last. -/
  nextNode : UInt64

namespace SimulatedSource

def displayName (s : SimulatedSource) : String := "Simulated (" ++ s.name.text ++ ")"

def serves (s : SimulatedSource) : Option Label → Bool
  | none => s.untagged
  | some label => s.labels.contains label

def nodeId (s : SimulatedSource) (n : UInt64) : NodeId :=
  s.name.text ++ "-" ++ Text.numeral n.toNat

/-- The number in the id of a node of this source. -/
def nodeNumber? (s : SimulatedSource) (id : NodeId) : Option Nat :=
  let start := s.name.text.toList ++ ['-']
  let cs := id.toList
  if start.isPrefixOf cs then Text.unsigned? wordLimit (cs.drop start.length) else none

/-- Number on after the nodes that this source made in an earlier run. -/
def resumeAfter (s : SimulatedSource) (existing : List NodeRecord) : SimulatedSource :=
  let numbers := (existing.filter fun r => r.source == s.name.text).filterMap fun r =>
    s.nodeNumber? r.id
  match numbers.max? with
  | none => s
  | some last => { s with nextNode := UInt64.ofNat (last + 1) }

/-- The nodes it takes to offer `excess` executors. -/
def wanted (s : SimulatedSource) (excess : Nat) : Nat :=
  (excess + (s.executorsPerNode.toNat - 1)) / s.executorsPerNode.toNat

/-- The nodes it takes and has slots for. -/
def granted (s : SimulatedSource) (excess : Nat) : Nat :=
  min (s.wanted excess) (s.maxNodes - s.nodeCount)

/-- The offer of the node numbered `n`. -/
def offer (s : SimulatedSource) (label : Option Label) (n : UInt64) : Offer ReleaseHandle where
  description := "simulated node " ++ s.nodeId n
  promised := s.executorsPerNode.toNat
  completion := .waiting
  age := ⟨0⟩
  boot := some {
    delay := s.bootDelay
    node := {
      record := NodeRecord.fresh (s.nodeId n) s.name.text (label.map (·.text))
        s.executorsPerNode 0 ("simulated node of " ++ s.name.text)
      retention := s.retention
      release := some (.slot s.name (s.nodeId n)) } }

def provision (label : Option Label) (excess : Nat) (s : SimulatedSource) :
    Except RequestError (List (Offer ReleaseHandle)) × SimulatedSource :=
  match s.outage with
  | some reason => (.error (.unavailable reason), s)
  | none =>
    let count := s.granted excess
    (.ok ((List.range count).map fun i => s.offer label (s.nextNode + UInt64.ofNat i)),
      { s with nodeCount := s.nodeCount + count, nextNode := s.nextNode + UInt64.ofNat count })

/-- Give back the slot of `node`. -/
def releaseSlot (node : NodeId) (s : SimulatedSource) :
    Except ReleaseError Unit × SimulatedSource :=
  if s.nodeCount = 0 then (.error ⟨node, "node count already zero"⟩, s)
  else (.ok (), { s with nodeCount := s.nodeCount - 1 })

theorem provision_of_running {s : SimulatedSource} (h : s.outage = none)
    (label : Option Label) (excess : Nat) :
    s.provision label excess =
      (.ok ((List.range (s.granted excess)).map fun i =>
          s.offer label (s.nextNode + UInt64.ofNat i)),
        { s with
          nodeCount := s.nodeCount + s.granted excess
          nextNode := s.nextNode + UInt64.ofNat (s.granted excess) }) := by
  unfold provision
  split
  next reason hreason => cases h.symm.trans hreason
  next => rfl

theorem name_provision (label : Option Label) (excess : Nat) (s : SimulatedSource) :
    (s.provision label excess).2.name = s.name := by
  unfold provision
  split <;> rfl

theorem name_releaseSlot (node : NodeId) (s : SimulatedSource) :
    (s.releaseSlot node).2.name = s.name := by
  unfold releaseSlot
  split <;> rfl

end SimulatedSource

end Fleet
