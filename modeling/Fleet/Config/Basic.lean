import Fleet.Duration
import Fleet.Json.Reader
import Fleet.SortedMap

/-!
# Configurations

What a daemon is set up with, as the text of the configuration gives it: names and durations
are still texts here.
-/

namespace Fleet

structure DaemonSettings where
  port : Nat
  dataDir : String
  tickInterval : String
  retentionInterval : String
  /-- Give up on planned capacity after this long; without it, never. -/
  completionTimeout : Option String
  eventHistory : Nat
  deriving DecidableEq

/-- When a node goes away: after some idle time, never, or after its first work. -/
inductive RetentionMode where
  | idle
  | always
  | once
  deriving DecidableEq

namespace RetentionMode

def word : RetentionMode → String
  | idle => "idle"
  | always => "always"
  | once => "once"

def ofWord? (w : String) : Option RetentionMode :=
  [idle, always, once].find? fun m => m.word == w

end RetentionMode

structure SourceSettings where
  name : String
  labels : List String
  /-- Whether the source serves untagged demand too. -/
  untagged : Bool
  executorsPerNode : UInt32
  maxNodes : Nat
  bootDelay : String
  retention : RetentionMode
  idleTimeout : String
  deriving DecidableEq

/-- Actors and the sources they may mutate. -/
abbrev Grants := SortedMap String (List String)

structure Config where
  daemon : DaemonSettings
  /-- The decay of the demand's average; 0 takes demand as it comes. -/
  smoothing : Float
  sources : List SourceSettings
  /-- Without a table every actor may mutate every source. -/
  grants : Option Grants

/-! ## Written form -/

namespace DaemonSettings

def shape : Shape := .record [
  ("port", .byDefault (.number 8480), .number (Nat.pow 2 16)),
  ("data_dir", .byDefault (.text "/var/lib/flotilla"), .anyText),
  ("tick_interval", .byDefault (.text "10s"), .anyText),
  ("retention_interval", .byDefault (.text "30s"), .anyText),
  ("completion_timeout", .optional, .nullable .anyText),
  ("event_history", .byDefault (.number 256), .number wordLimit)]

def standard : Json := .object [
  ("port", .number 8480),
  ("data_dir", .text "/var/lib/flotilla"),
  ("tick_interval", .text "10s"),
  ("retention_interval", .text "30s"),
  ("completion_timeout", .null),
  ("event_history", .number 256)]

def toJson (s : DaemonSettings) : Json := .object [
  ("port", .number s.port),
  ("data_dir", .text s.dataDir),
  ("tick_interval", .text s.tickInterval),
  ("retention_interval", .text s.retentionInterval),
  ("completion_timeout", .ofOption .text s.completionTimeout),
  ("event_history", .number s.eventHistory)]

def ofJson? (v : Json) : Option DaemonSettings := do
  pure {
    port := ← (← v.member? "port").number?
    dataDir := ← (← v.member? "data_dir").text?
    tickInterval := ← (← v.member? "tick_interval").text?
    retentionInterval := ← (← v.member? "retention_interval").text?
    completionTimeout := ← (← v.member? "completion_timeout").optional? Json.text?
    eventHistory := ← (← v.member? "event_history").number? }

end DaemonSettings

namespace SourceSettings

def shape : Shape := .record [
  ("name", .required, .anyText),
  ("kind", .byDefault (.text "simulated"), .choice ["simulated"]),
  ("labels", .byDefault (.array []), .list .anyText),
  ("untagged", .byDefault (.flag true), .flag),
  ("executors_per_node", .byDefault (.number 1), .number countLimit),
  ("max_nodes", .byDefault (.number 10), .number countLimit),
  ("boot_delay", .byDefault (.text "5s"), .anyText),
  ("retention", .byDefault (.text "idle"), .choice ["idle", "always", "once"]),
  ("idle_timeout", .byDefault (.text "10m"), .anyText)]

def toJson (s : SourceSettings) : Json := .object [
  ("name", .text s.name),
  ("kind", .text "simulated"),
  ("labels", .array (s.labels.map .text)),
  ("untagged", .flag s.untagged),
  ("executors_per_node", .number s.executorsPerNode.toNat),
  ("max_nodes", .number s.maxNodes),
  ("boot_delay", .text s.bootDelay),
  ("retention", .text s.retention.word),
  ("idle_timeout", .text s.idleTimeout)]

def ofJson? (v : Json) : Option SourceSettings := do
  pure {
    name := ← (← v.member? "name").text?
    labels := ← (← (← v.member? "labels").items?).mapM Json.text?
    untagged := ← (← v.member? "untagged").flag?
    executorsPerNode := UInt32.ofNat (← (← v.member? "executors_per_node").number?)
    maxNodes := ← (← v.member? "max_nodes").number?
    bootDelay := ← (← v.member? "boot_delay").text?
    retention := ← RetentionMode.ofWord? (← (← v.member? "retention").text?)
    idleTimeout := ← (← v.member? "idle_timeout").text? }

end SourceSettings

namespace Grants

def shape : Shape := .dictionary (.list .anyText)

def toJson (g : Grants) : Json :=
  .object (g.entries.map fun e => (e.1, .array (e.2.map .text)))

def ofJson? : Json → Option Grants
  | .object members => do
    let entries ← members.mapM fun m => do
      pure (m.1, ← (← m.2.items?).mapM Json.text?)
    pure (.ofList entries)
  | _ => none

end Grants

namespace Config

def shape : Shape := .record [
  ("daemon", .byDefault DaemonSettings.standard, DaemonSettings.shape),
  ("demand", .byDefault (.object [("smoothing", .real 0.0)]),
    .record [("smoothing", .byDefault (.real 0.0), .real)]),
  ("sources", .byDefault (.array []), .list SourceSettings.shape),
  ("access", .byDefault (.object [("grants", .null)]),
    .record [("grants", .optional, .nullable Grants.shape)])]

def toJson (c : Config) : Json := .object [
  ("daemon", c.daemon.toJson),
  ("demand", .object [("smoothing", .real c.smoothing)]),
  ("sources", .array (c.sources.map (·.toJson))),
  ("access", .object [("grants", .ofOption Grants.toJson c.grants)])]

def real? : Json → Option Float
  | .real x => some x
  | _ => none

def ofJson? (v : Json) : Option Config := do
  pure {
    daemon := ← DaemonSettings.ofJson? (← v.member? "daemon")
    smoothing := ← real? (← (← v.member? "demand").member? "smoothing")
    sources := ← (← (← v.member? "sources").items?).mapM SourceSettings.ofJson?
    grants := ← (← (← v.member? "access").member? "grants").optional? Grants.ofJson? }

end Config

end Fleet
