import Fleet.Script
import Fleet.Source
import Fleet.Source.Release

/-!
# Scripted sources

A source whose answers are laid down in advance, for rehearsals.  Once the answers about
labels are used up, it serves exactly the labels it lists.
-/

namespace Fleet

structure ScriptedSource where
  name : SourceName
  labels : List (Option Label)
  answers : List (Except RequestError Bool)
  script : Script (Except RequestError (List (Offer ReleaseHandle)))

namespace ScriptedSource

def canProvision (label : Option Label) (s : ScriptedSource) :
    Except RequestError Bool × ScriptedSource :=
  match s.answers with
  | [] => (.ok (s.labels.contains label), s)
  | answer :: rest => (answer, { s with answers := rest })

def provision (s : ScriptedSource) :
    Except RequestError (List (Offer ReleaseHandle)) × ScriptedSource :=
  (s.script.next?.1.getD (.ok []), { s with script := s.script.next?.2 })

theorem name_canProvision (label : Option Label) (s : ScriptedSource) :
    (s.canProvision label).2.name = s.name := by
  unfold canProvision
  split <;> rfl

end ScriptedSource

end Fleet
