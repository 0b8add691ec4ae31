import Fleet.Node.Record

/-!
# Retention of nodes

A `Policy` looks at a node's record and the time and decides whether the node stays.  It
never touches the registry.
-/

namespace Fleet

inductive Decision where
  | keep
  | remove (reason : String)
  deriving DecidableEq, Repr

namespace Decision

def isRemove : Decision → Bool
  | keep => false
  | remove _ => true

def toJson : Decision → Json
  | keep => .object [("decision", .text "keep")]
  | remove reason => .object [("decision", .text "remove"), ("reason", .text reason)]

end Decision

structure Policy where
  check : NodeRecord → UInt64 → Decision
  describe : String

namespace Policy

def always : Policy := ⟨fun _ _ => .keep, "always"⟩

/-- Remove a node that has been idle for `limit`, counted in whole seconds. -/
def idleTimeout (limit : Duration) : Policy where
  check r now :=
    match r.idleFor now with
    | some idle =>
      if limit.seconds ≤ idle then
        .remove
          ("idle for " ++ Text.numeral idle ++ "s (limit " ++ Text.numeral limit.seconds ++ "s)")
      else .keep
    | none => .keep
  describe := "idle-timeout(" ++ Text.numeral limit.seconds ++ "s)"

/-- Remove a node once it has run work and is idle again. -/
def singleUse : Policy where
  check r _ :=
    if r.hasRunWork && r.isIdle then .remove "single-use node finished its work" else .keep
  describe := "single-use"

/-- Remove a node whatever it does. -/
def condemn (reason : String) : Policy := ⟨fun _ _ => .remove reason, "remove"⟩

end Policy

end Fleet
