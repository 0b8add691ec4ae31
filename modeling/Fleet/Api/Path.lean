import Fleet.Text.Quoted

/-!
# Paths

A path leads to a route by its segments.  The part of a segment that a route leaves open is
a name, written with percent signs where need be; such a name is decoded only after the
route is found, and what it decodes to may be any text.
-/

namespace Fleet.Api

/-! ## Percent signs -/

def hexByte? (b : UInt8) : Option UInt8 :=
  if 0x30 ≤ b ∧ b ≤ 0x39 then some (b - 0x30)
  else if 0x61 ≤ b ∧ b ≤ 0x66 then some (b - 0x57)
  else if 0x41 ≤ b ∧ b ≤ 0x46 then some (b - 0x37)
  else none

/-- Two hexadecimal digits after a percent sign stand for a byte; any other percent sign
stands for itself. -/
def decodeBytes : List UInt8 → List UInt8
  | 0x25 :: a :: b :: rest =>
    match hexByte? a, hexByte? b with
    | some high, some low => (high * 16 + low) :: decodeBytes rest
    | _, _ => 0x25 :: decodeBytes (a :: b :: rest)
  | b :: rest => b :: decodeBytes rest
  | [] => []

/-- The text that a segment stands for; `none` if its bytes are not UTF-8. -/
def decodeSegment? (s : String) : Option String :=
  String.fromUTF8? ⟨(decodeBytes s.toUTF8.toList).toArray⟩

/-! ## Routes -/

inductive Route where
  | sources
  | source (name : String)
  | provision (name : String)
  | nodes
  | node (id : String)
  | activity (id : String)
  | ledger
  | planned
  | demand
  | events
  | leaks
  | leak (id : String)
  deriving DecidableEq, Repr

namespace Route

/-- The segments of a path; a query does not count. -/
def segments (path : String) : List String :=
  (((path.toList.takeWhile fun c => c != '?' && c != '#').splitOn '/')).map String.ofList

/-- The route below the root of the interface.  The last segment is never empty. -/
def ofSegments? : List String → Option Route
  | ["sources"] => some sources
  | ["sources", name] => if name = "" then none else some (source name)
  | ["sources", name, "provision"] => some (provision name)
  | ["nodes"] => some nodes
  | ["nodes", id] => if id = "" then none else some (node id)
  | ["nodes", id, "activity"] => some (activity id)
  | ["ledger"] => some ledger
  | ["planned"] => some planned
  | ["demand"] => some demand
  | ["events"] => some events
  | ["leaks"] => some leaks
  | ["leaks", id] => if id = "" then none else some (leak id)
  | _ => none

def ofPath? (path : String) : Option Route :=
  match segments path with
  | "" :: "api" :: "v1" :: rest => ofSegments? rest
  | _ => none

end Route

end Fleet.Api
