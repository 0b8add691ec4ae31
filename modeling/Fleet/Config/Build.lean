import Fleet.Config.Setup
import Fleet.Daemon

/-!
# Building a daemon

A daemon is built from a configuration on a store.  The records that an earlier run left in
the store are kept until someone removes them, and the sources number their nodes on after
them.
-/

namespace Fleet

inductive BuildError where
  | registry (error : RegistryError)
  | naming (error : NamingError)
  /-- There is no memory for the history.  This is no error to answer with: the program ends. -/
  | noRoom (capacity : Nat)

namespace Config

/-- Append the sources that the settings describe. -/
def addSources (existing : List NodeRecord) :
    List SourceSettings → SourceSet Source → Except NamingError (SourceSet Source)
  | [], set => .ok set
  | s :: ss, set => do
    let source ← s.source
    let set ← set.insert (.simulated (source.resumeAfter existing))
    addSources existing ss set

def sourceSet (c : Config) (existing : List NodeRecord) : Except NamingError (SourceSet Source) :=
  addSources existing c.sources .empty

def signal (c : Config) : Demand.Signal :=
  if c.smoothing > 0.0 then ⟨none, some (.start c.smoothing)⟩ else .board

/-- The daemon of a configuration on a store; its planned capacities are numbered from
`nextId` on, and its history takes its memory out of that for `room` events. -/
def build (c : Config) (room : Nat) (store : Store) (nextId : PlannedId) :
    Except BuildError (Daemon Source (Registry ReleaseHandle)) :=
  match (Registry.ofStore store (some .always)).list with
  | (.error e, _) => .error (.registry e)
  | (.ok existing, registry) =>
    match c.sourceSet existing with
    | .error e => .error (.naming e)
    | .ok sources =>
      match History.allocate? room c.daemon.eventHistory with
      | none => .error (.noRoom c.daemon.eventHistory)
      | some history =>
        .ok (.start (.start sources c.guard c.completionTimeout nextId) registry c.signal history)

end Config

end Fleet
