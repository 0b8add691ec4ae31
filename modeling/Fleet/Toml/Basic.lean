/-!
# TOML values

The values that a TOML document is made of.  A table remembers how it came about, since that
decides what later statements may still add to it.
-/

namespace Fleet

namespace Toml

/-- How a table came about. -/
inductive Origin where
  /-- By its own header. -/
  | header
  /-- On the way to a header further down. -/
  | implied
  /-- By dotted keys. -/
  | dotted
  /-- Between braces, closed for good. -/
  | inline
  deriving DecidableEq, Repr

end Toml

open Toml in
inductive Toml where
  | text (s : String)
  | integer (n : Int)
  | real (x : Float)
  | flag (b : Bool)
  /-- Dates and times are checked and then no longer told apart. -/
  | datetime
  | array (items : List Toml)
  | table (origin : Origin) (entries : List (String × Toml))
  /-- The tables under headers in double brackets. -/
  | tables (elements : List (List (String × Toml)))
  deriving Inhabited

namespace Toml

/-- The entries of a table by name. -/
abbrev Entries := List (String × Toml)

def Entries.get? (es : Entries) (name : String) : Option Toml :=
  (es.find? fun e => e.1 == name).map (·.2)

/-- Add an entry, or change the value of one that is there. -/
def Entries.set (es : Entries) (name : String) (v : Toml) : Entries :=
  if es.any fun e => e.1 == name then es.map fun e => if e.1 == name then (name, v) else e
  else es ++ [(name, v)]

end Toml

end Fleet
