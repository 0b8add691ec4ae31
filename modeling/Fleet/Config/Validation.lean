import Fleet.Config.Basic
import Fleet.Duration
import Fleet.Name

/-!
# Validation of configurations

What the shape of a configuration cannot say.  Of several faults the one that stands first
counts: the daemon's settings, the demand's, then each source in turn.
-/

namespace Fleet

inductive ConfigError where
  /-- The text is no configuration at all. -/
  | document
  | naming (error : NamingError)
  | duration (field value : String)
  | smoothing (value : Float)
  | duplicateSource (name : String)
  | noExecutors (source : String)

namespace ConfigError

/-- Doubles in messages have no mark of their own. -/
def realFormat : Decimal.Positional := ⟨"", "NaN", "inf"⟩

def message : ConfigError → String
  | document => "not a configuration"
  | naming e => e.message
  | duration field value => field ++ ": invalid duration " ++ Text.quoted value
  | smoothing value => "demand.smoothing must be in [0, 1), got " ++ realFormat.write value
  | duplicateSource name => "duplicate source name: " ++ name
  | noExecutors source => "source " ++ source ++ ": executors_per_node must be at least 1"

end ConfigError

def checkDuration (field value : String) : Except ConfigError Unit :=
  match Duration.parse? value with
  | some _ => .ok ()
  | none => .error (.duration field value)

def checkLabels : List String → Except ConfigError Unit
  | [] => .ok ()
  | l :: ls =>
    match Label.ofString l with
    | .error e => .error (.naming e)
    | .ok _ => checkLabels ls

/-- Check one source; `seen` are the names before it. -/
def SourceSettings.validate (seen : List String) (s : SourceSettings) :
    Except ConfigError Unit := do
  if let .error e := SourceName.ofString s.name then .error (.naming e)
  if seen.contains s.name then .error (.duplicateSource s.name)
  checkLabels s.labels
  if s.executorsPerNode = 0 then .error (.noExecutors s.name)
  checkDuration ("source " ++ s.name ++ " boot_delay") s.bootDelay
  checkDuration ("source " ++ s.name ++ " idle_timeout") s.idleTimeout

def validateSources : (seen : List String) → List SourceSettings → Except ConfigError Unit
  | _, [] => .ok ()
  | seen, s :: ss => do
    s.validate seen
    validateSources (s.name :: seen) ss

def DaemonSettings.validate (s : DaemonSettings) : Except ConfigError Unit := do
  checkDuration "daemon.tick_interval" s.tickInterval
  checkDuration "daemon.retention_interval" s.retentionInterval
  match s.completionTimeout with
  | none => .ok ()
  | some timeout => checkDuration "daemon.completion_timeout" timeout

def isDecay (x : Float) : Bool := 0.0 ≤ x && x < 1.0

def Config.validate (c : Config) : Except ConfigError Unit := do
  c.daemon.validate
  if !isDecay c.smoothing then .error (.smoothing c.smoothing)
  validateSources [] c.sources

end Fleet
