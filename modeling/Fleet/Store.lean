import Fleet.Node.Record
import Fleet.SortedMap

/-!
# The state store

Two tables of JSON texts by key, one for node records and one for leaks.  A call either does
its work in one step or fails and leaves both tables as they were; which of the calls to come
fail is part of the store (`faults`).  A row that does not decode fails the call that reads
it.
-/

namespace Fleet

inductive StateError where
  | cannotOpen (detail : String)
  | transaction (detail : String)
  | table (detail : String)
  | storage (detail : String)
  | malformedRecord (detail : String)
  deriving DecidableEq, Repr

def StateError.message : StateError → String
  | .cannotOpen d => "cannot open state database: " ++ d
  | .transaction d => "state transaction failed: " ++ d
  | .table d => "state table unavailable: " ++ d
  | .storage d => "state storage error: " ++ d
  | .malformedRecord d => "malformed state record: " ++ d

/-- Rows by key. -/
abbrev Table := SortedMap String String

/-- The two tables, and the outcomes of the calls to come: `none` lets a call through, and
after the end of `faults` every call goes through. -/
structure Store where
  nodes : Table
  leaks : Table
  faults : List (Option StateError)

namespace Store

def empty : Store := ⟨.empty, .empty, []⟩

/-- Carry out one call unless it is due to fail. -/
def attempt {α : Type} (s : Store) (call : Store → Except StateError α × Store) :
    Except StateError α × Store :=
  match s.faults with
  | [] => call s
  | none :: rest => call { s with faults := rest }
  | some e :: rest => (.error e, { s with faults := rest })

/-! ## Rows -/

def decodeNode (row : String) : Except StateError NodeRecord :=
  match NodeRecord.shape.readText row with
  | .error _ => .error (.malformedRecord "")
  | .ok v => match NodeRecord.ofJson? v with
    | none => .error (.malformedRecord "")
    | some r => .ok r

def decodeLeak (row : String) : Except StateError LeakRecord :=
  match LeakRecord.shape.readText row with
  | .error _ => .error (.malformedRecord "")
  | .ok v => match LeakRecord.ofJson? v with
    | none => .error (.malformedRecord "")
    | some r => .ok r

/-- All rows decoded, in key order; the first bad row fails the listing. -/
def decodeAll {α : Type} (decode : String → Except StateError α) :
    List String → Except StateError (List α)
  | [] => .ok []
  | row :: rows => do
    let r ← decode row
    let rs ← decodeAll decode rows
    .ok (r :: rs)

/-- Lay a row into a table as it is. -/
def layNode (key row : String) (s : Store) : Store := { s with nodes := s.nodes.insert key row }

def layLeak (key row : String) (s : Store) : Store := { s with leaks := s.leaks.insert key row }

/-! ## Nodes -/

def insertNodeIfAbsent (r : NodeRecord) (s : Store) : Except StateError Bool × Store :=
  s.attempt fun s =>
    if s.nodes.contains r.id then (.ok false, s)
    else (.ok true, { s with nodes := s.nodes.insert r.id r.toJson.compact })

def putNode (r : NodeRecord) (s : Store) : Except StateError Unit × Store :=
  s.attempt fun s => (.ok (), { s with nodes := s.nodes.insert r.id r.toJson.compact })

def getNode (id : NodeId) (s : Store) : Except StateError (Option NodeRecord) × Store :=
  s.attempt fun s =>
    match s.nodes.get? id with
    | none => (.ok none, s)
    | some row => ((decodeNode row).map some, s)

def listNodes (s : Store) : Except StateError (List NodeRecord) × Store :=
  s.attempt fun s => (decodeAll decodeNode s.nodes.values, s)

/-- Answers whether there was such a row. -/
def deleteNode (id : NodeId) (s : Store) : Except StateError Bool × Store :=
  s.attempt fun s => (.ok (s.nodes.contains id), { s with nodes := s.nodes.erase id })

/-! ## Leaks -/

def putLeak (r : LeakRecord) (s : Store) : Except StateError Unit × Store :=
  s.attempt fun s => (.ok (), { s with leaks := s.leaks.insert r.nodeId r.toJson.compact })

def listLeaks (s : Store) : Except StateError (List LeakRecord) × Store :=
  s.attempt fun s => (decodeAll decodeLeak s.leaks.values, s)

def deleteLeak (id : NodeId) (s : Store) : Except StateError Bool × Store :=
  s.attempt fun s => (.ok (s.leaks.contains id), { s with leaks := s.leaks.erase id })

end Store

/-! ## Databases on disk -/

/-- What a path leads to. -/
inductive DatabaseFile where
  /-- The directory does not exist. -/
  | unreachable
  /-- A file that is no database. -/
  | other (text : String)
  | tables (nodes leaks : Table)

namespace DatabaseFile

/-- Open the database, creating it where there is nothing yet. -/
def openStore : DatabaseFile → Except StateError Store
  | unreachable => .error (.cannotOpen "")
  | other text => if text = "" then .ok .empty else .error (.cannotOpen "")
  | tables nodes leaks => .ok ⟨nodes, leaks, []⟩

end DatabaseFile

def Store.close (s : Store) : DatabaseFile := .tables s.nodes s.leaks

end Fleet
