import Fleet.Access
import Fleet.Config.Basic
import Fleet.Duration
import Fleet.Source.Kind

/-!
# What a configuration sets up

The durations, the guard and the sources that the texts of a configuration stand for.  A
validated configuration never falls back on the durations given here.
-/

namespace Fleet

namespace Config

def tickInterval (c : Config) : Duration :=
  (Duration.parse? c.daemon.tickInterval).getD (.ofSeconds 10)

def retentionInterval (c : Config) : Duration :=
  (Duration.parse? c.daemon.retentionInterval).getD (.ofSeconds 30)

def completionTimeout (c : Config) : Option Duration :=
  c.daemon.completionTimeout.bind Duration.parse?

def guard (c : Config) : Guard :=
  match c.grants with
  | none => .allowAll
  | some grants => .ofTable (.ofConfig grants.entries)

end Config

namespace SourceSettings

def bootDuration (s : SourceSettings) : Duration :=
  (Duration.parse? s.bootDelay).getD (.ofSeconds 5)

def idleDuration (s : SourceSettings) : Duration :=
  (Duration.parse? s.idleTimeout).getD (.ofSeconds 600)

def policy (s : SourceSettings) : Policy :=
  match s.retention with
  | .idle => .idleTimeout s.idleDuration
  | .always => .always
  | .once => .singleUse

/-- The source that the settings describe. -/
def source (s : SourceSettings) : Except NamingError SimulatedSource := do
  let labels ← s.labels.mapM Label.ofString
  let name ← SourceName.ofString s.name
  .ok {
    name
    labels
    untagged := s.untagged
    executorsPerNode := max s.executorsPerNode 1
    maxNodes := s.maxNodes
    bootDelay := s.bootDuration
    retention := s.policy
    outage := none
    nodeCount := 0
    nextNode := 1 }

end SourceSettings

end Fleet
