import Fleet.Name
import Fleet.Planned

/-!
# Capacity sources

A source answers whether it can serve a label and, when asked for capacity, with offers of
nodes that it has begun to create.  Its answers may depend on all its earlier calls, so a
call changes the source; it never changes the source's name.  A `SourceSet` keeps its members
in the order in which they are asked, under distinct names.
-/

namespace Fleet

/-- A call to a source failed. -/
inductive RequestError where
  | rejected (message : String)
  | unavailable (message : String)
  | panicked (message : String)
  deriving DecidableEq, Repr

/-- What a panic says whose payload is no text. -/
def RequestError.unknownPayload : String := "unknown panic payload"

/-- A call that panicked, with the text of its payload if that is one. -/
def RequestError.ofPanic (payload : Option String) : RequestError :=
  .panicked (payload.getD unknownPayload)

def RequestError.message : RequestError → String
  | .rejected m => "request rejected: " ++ m
  | .unavailable m => "source unavailable: " ++ m
  | .panicked m => "source panicked: " ++ m

/-- Work that a source has started: `node` comes up after `delay`. -/
structure Boot (ρ : Type) where
  delay : Duration
  node : RealizedNode ρ

/-- One node creation that a source answers with. -/
structure Offer (ρ : Type) where
  description : String
  promised : Nat
  completion : Completion ρ
  /-- How long ago the capacity was made; a source may have had it ready. -/
  age : Duration
  boot : Option (Boot ρ)

class CapacitySource (σ : Type) (ρ : outParam Type) where
  name : σ → SourceName
  displayName : σ → String
  canProvision : Option Label → σ → Except RequestError Bool × σ
  provision : Option Label → Nat → σ → Except RequestError (List (Offer ρ)) × σ
  name_canProvision : ∀ label s, name (canProvision label s).2 = name s
  name_provision : ∀ label excess s, name (provision label excess s).2 = name s

namespace CapacitySource

variable {σ ρ : Type} [CapacitySource σ ρ]

/-- The path of a source below the root of the interface. -/
def url (s : σ) : String := "cloud/" ++ (name s).text

end CapacitySource

open CapacitySource

structure SourceSet (σ : Type) {ρ : Type} [CapacitySource σ ρ] where
  members : List σ
  distinct : (members.map name).Nodup

namespace SourceSet

variable {σ ρ : Type} [CapacitySource σ ρ]

def empty : SourceSet σ := ⟨[], .nil⟩

def names (set : SourceSet σ) : List SourceName := set.members.map name

def get? (set : SourceSet σ) (n : SourceName) : Option σ := set.members.find? fun s => name s = n

/-- The member that a text names. -/
def named? (set : SourceSet σ) (text : String) : Option σ :=
  set.members.find? fun s => (name s).text == text

/-- Append a source unless its name is taken. -/
def insert (set : SourceSet σ) (s : σ) : Except NamingError (SourceSet σ) :=
  if h : name s ∈ set.members.map name then .error (.duplicateSource (name s).text)
  else .ok ⟨set.members ++ [s], by
    simp only [List.map_append, List.map_cons, List.map_nil]
    refine List.nodup_append.2 ⟨set.distinct, by simp, ?_⟩
    rintro a ha b hb rfl
    simp only [List.mem_singleton] at hb
    exact h (hb ▸ ha)⟩

def ofList (ss : List σ) : Except NamingError (SourceSet σ) :=
  ss.foldlM insert empty

/-- The set without the member that a text names. -/
def remove (set : SourceSet σ) (text : String) : SourceSet σ :=
  ⟨set.members.filter fun s => (name s).text != text,
    set.distinct.sublist (List.filter_sublist.map _)⟩

/-- Change the member of a name by a call that keeps names. -/
def update (set : SourceSet σ) (n : SourceName) (call : σ → σ)
    (keeps : ∀ s, name (call s) = name s) : SourceSet σ :=
  ⟨set.members.map fun s => if name s = n then call s else s, by
    have same : (name ∘ fun s : σ => if name s = n then call s else s) = name := by
      funext s
      simp only [Function.comp_apply]
      split
      · exact keeps s
      · rfl
    rw [List.map_map, same]
    exact set.distinct⟩

/-- Ask a member whether it serves a label; `none` if there is no such member. -/
def canProvision (set : SourceSet σ) (n : SourceName) (label : Option Label) :
    Option (Except RequestError Bool) × SourceSet σ :=
  ((set.get? n).map fun s => (CapacitySource.canProvision label s).1,
    set.update n (fun s => (CapacitySource.canProvision label s).2) (name_canProvision label))

/-- Ask a member for capacity; `none` if there is no such member. -/
def provision (set : SourceSet σ) (n : SourceName) (label : Option Label) (excess : Nat) :
    Option (Except RequestError (List (Offer ρ))) × SourceSet σ :=
  ((set.get? n).map fun s => (CapacitySource.provision label excess s).1,
    set.update n (fun s => (CapacitySource.provision label excess s).2)
      (name_provision label excess))

theorem names_update (set : SourceSet σ) (n : SourceName) (call : σ → σ)
    (keeps : ∀ s, name (call s) = name s) : (set.update n call keeps).names = set.names := by
  simp only [names, update, List.map_map]
  refine List.map_congr_left fun s _ => ?_
  simp only [Function.comp_apply]
  split
  · exact keeps s
  · rfl

end SourceSet

/-- How handles of type `ρ` free their resources in a fleet of sources `σ`: after a delay,
in one step that may change the sources' accounts but not the set. -/
class Freeing (σ : Type) (ρ : outParam Type) [CapacitySource σ ρ] where
  delay : ρ → Duration
  free : ρ → SourceSet σ → Except ReleaseError Unit × SourceSet σ
  names_free : ∀ h set, (free h set).2.names = set.names

end Fleet
