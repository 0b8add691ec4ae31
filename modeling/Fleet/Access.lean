import Fleet.Json.Shape
import Fleet.Name
import Fleet.SortedMap

/-!
# Who may change what

A mutation is checked against one permission, scoped to the source it concerns: an actor may
mutate a source or may not.  `GrantTable` is the table that a configuration sets up; a full
grant is never narrowed again.
-/

namespace Fleet

structure Actor where
  name : String
  deriving DecidableEq, Repr

def Actor.shape : Shape := .record [("name", .required, .anyText)]

def Actor.anonymous : Actor := ⟨"anonymous"⟩

inductive Action where
  | provision
  | remove
  deriving DecidableEq, Repr

def Action.word : Action → String
  | .provision => "provision"
  | .remove => "remove"

def Action.shape : Shape := .choice [Action.provision.word, Action.remove.word]

/-- The sources an actor may mutate. -/
inductive Grant where
  | all
  | sources (names : List String)
  deriving DecidableEq, Repr

structure GrantTable where
  grants : SortedMap String Grant

namespace GrantTable

def empty : GrantTable := ⟨.empty⟩

def grantAll (t : GrantTable) (actor : String) : GrantTable := ⟨t.grants.insert actor .all⟩

def grant (t : GrantTable) (actor source : String) : GrantTable :=
  match t.grants.get? actor with
  | some .all => t
  | some (.sources names) => ⟨t.grants.insert actor (.sources (names ++ [source]))⟩
  | none => ⟨t.grants.insert actor (.sources [source])⟩

/-- Grant one actor the listed sources, or all of them if `*` is listed. -/
def grantList (t : GrantTable) (actor : String) (names : List String) : GrantTable :=
  if names.contains "*" then t.grantAll actor
  else names.foldl (fun t name => t.grant actor name) t

def ofConfig (config : List (String × List String)) : GrantTable :=
  config.foldl (fun t entry => t.grantList entry.1 entry.2) empty

def permits (t : GrantTable) (actor : Actor) (source : SourceName) : Bool :=
  match t.grants.get? actor.name with
  | some .all => true
  | some (.sources names) => names.contains source.text
  | none => false

end GrantTable

structure PermissionDenied where
  actor : Actor
  action : Action
  source : SourceName

def PermissionDenied.message (e : PermissionDenied) : String :=
  "actor " ++ e.actor.name ++ " may not " ++ e.action.word ++ " on source " ++ e.source.text

/-- The decision every mutation asks for. -/
structure Guard where
  permits : Actor → Action → SourceName → Bool

namespace Guard

def allowAll : Guard := ⟨fun _ _ _ => true⟩

def ofTable (t : GrantTable) : Guard := ⟨fun actor _ source => t.permits actor source⟩

def check (g : Guard) (actor : Actor) (action : Action) (source : SourceName) :
    Except PermissionDenied Unit :=
  if g.permits actor action source then .ok () else .error ⟨actor, action, source⟩

end Guard

end Fleet
