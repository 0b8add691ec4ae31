import Fleet.Json.Shape
import Fleet.Toml.Basic

/-!
# TOML values of a shape

A TOML value is read by a shape into the JSON value that says the same.  Integers pass for
real numbers; a record is a table, or an array of its fields in order; one of several names
is a text, or the name of the only entry, itself empty, of a table.
-/

namespace Fleet

namespace Toml

/-- Whether an array or a table has nothing in it. -/
def isEmpty : Toml → Bool
  | array items => items.isEmpty
  | table _ entries => entries.isEmpty
  | tables elements => elements.isEmpty
  | _ => false

/-- One of the names that a choice admits. -/
def choice? (names : List String) : Toml → Option Json
  | text s => if names.contains s then some (.text s) else none
  | table _ [(name, v)] => if names.contains name && v.isEmpty then some (.text name) else none
  | _ => none

/-- The items of an array or of tables under headers in double brackets. -/
def items? : Toml → Option (List Toml)
  | array items => some items
  | tables elements => some (elements.map (table .header))
  | _ => none

/-- The entries of a table; a date or time has none that anyone knows. -/
def entries? : Toml → Option Entries
  | table _ entries => some entries
  | datetime => some []
  | _ => none

end Toml

open Toml

mutual

def Shape.ofToml? : Shape → Toml → Option Json
  | .flag, .flag b => some (.flag b)
  | .flag, _ => none
  | .number limit, .integer n =>
    if 0 ≤ n ∧ n < limit then some (.number n.toNat) else none
  | .number _, _ => none
  | .real, .real x => some (.real x)
  | .real, .integer n => some (.real (Float.ofInt n))
  | .real, _ => none
  | .text accepts, .text s => if accepts s then some (.text s) else none
  | .text _, _ => none
  | .choice names, v => choice? names v
  | .nullable shape, v => shape.ofToml? v
  | .list shape, v => do some (.array (← (← v.items?).mapM shape.ofToml?))
  | .dictionary shape, .table _ entries => do
    some (.object (← entries.mapM fun e => do some (e.1, ← shape.ofToml? e.2)))
  | .dictionary _, _ => none
  | .record fields, v =>
    match v.items? with
    | some items => (Shape.fieldsOfItems? fields items).map .object
    | none => do
      let entries ← v.entries?
      some (.object (← Shape.fieldsOfEntries? fields entries))

/-- The fields of a record from the entries of a table. -/
def Shape.fieldsOfEntries? :
    List (String × Presence × Shape) → Entries → Option (List (String × Json))
  | [], _ => some []
  | (name, presence, shape) :: fields, entries => do
    let v ← match entries.get? name with
      | some v => shape.ofToml? v
      | none => presence.missing?
    some ((name, v) :: (← Shape.fieldsOfEntries? fields entries))

/-- The fields of a record from the items of an array. -/
def Shape.fieldsOfItems? :
    List (String × Presence × Shape) → List Toml → Option (List (String × Json))
  | [], _ => some []
  | (name, _, shape) :: fields, v :: items => do
    let v ← shape.ofToml? v
    some ((name, v) :: (← Shape.fieldsOfItems? fields items))
  | (name, presence, _) :: fields, [] => do
    let v ← presence.cut?
    some ((name, v) :: (← Shape.fieldsOfItems? fields []))

end

end Fleet
