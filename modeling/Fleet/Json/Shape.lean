import Fleet.Json.Basic

/-!
# Shapes of JSON values

A `Shape` says which values a record, a request or a configuration admits, field by field
and with the values that stand for missing fields.  A value of a shape always lists all
fields, in the shape's order.
-/

namespace Fleet

/-- What a record makes of a missing field. -/
inductive Presence where
  | required
  | optional
  | byDefault (value : Json)

inductive Shape where
  | flag
  | number (limit : Nat)
  | real
  | text (accepts : String → Bool)
  | choice (names : List String)
  | nullable (shape : Shape)
  | list (shape : Shape)
  | dictionary (shape : Shape)
  | record (fields : List (String × Presence × Shape))

def Shape.anyText : Shape := .text fun _ => true

/-- The value of a field that an object leaves out. -/
def Presence.missing? : Presence → Option Json
  | .required => none
  | .optional => some .null
  | .byDefault v => some v

/-- The value of a field that a shorter array leaves out. -/
def Presence.cut? : Presence → Option Json
  | .byDefault v => some v
  | _ => none

end Fleet
