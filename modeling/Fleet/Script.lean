/-!
# Scripts

Answers laid down in advance, played one after the other; the last one repeats for ever.
-/

namespace Fleet

structure Script (α : Type) where
  entries : List α
  deriving Inhabited

namespace Script

variable {α : Type}

/-- The next answer, `none` from an empty script. -/
def next? (s : Script α) : Option α × Script α :=
  match s.entries with
  | [] => (none, s)
  | [last] => (some last, s)
  | a :: rest => (some a, ⟨rest⟩)

end Script

end Fleet
