import Fleet.Toml.Scalar

/-!
# TOML documents

A document is a list of statements, each a key with a value or the header of a table.  The
statements are put together one after the other: a key goes into the table of the last
header, and no statement may change or reopen what an earlier one has closed.

Readers that go through the text carry its length as fuel; values carry the depth that is
left for nesting.
-/

namespace Fleet

namespace Toml

/-! ## Tables that grow -/

/-- Change the table at the end of a path, making the tables on the way that are missing.
Dotted keys make and enter only tables that dotted keys or headers further down imply; a
header enters all tables but inline ones, and of tables under double brackets the last. -/
def changeAt (dotted : Bool) (change : Origin → Entries → Option Entries) :
    (path : List String) → Origin → Entries → Option Entries
  | [], origin, es => change origin es
  | name :: path, _, es => do
    let fresh := if dotted then Origin.dotted else .implied
    match es.get? name with
    | none =>
      let inner ← changeAt dotted change path fresh []
      some (es.set name (.table fresh inner))
    | some (.table origin inner) =>
      if origin = .inline ∨ (dotted ∧ origin = .header) then none
      else
        let inner ← changeAt dotted change path origin inner
        some (es.set name (.table origin inner))
    | some (.tables elements) =>
      match elements.reverse with
      | [] => none
      | last :: before =>
        let inner ← changeAt dotted change path .header last
        some (es.set name (.tables (before.reverse ++ [inner])))
    | some _ => none

/-- Add the value of a key to a table. -/
def insertKey (key : List String) (v : Toml) (es : Entries) : Option Entries :=
  match key.reverse with
  | [] => none
  | name :: path =>
    changeAt true (fun origin es =>
      if !path.isEmpty && origin != .dotted then none
      else if (es.get? name).isSome then none
      else some (es ++ [(name, v)])) path.reverse .header es

/-- Open the table of a header; only one that a header further down has implied may be there
already. -/
def openTable (key : List String) (es : Entries) : Option Entries :=
  match key.reverse with
  | [] => none
  | name :: path =>
    changeAt false (fun _ es =>
      match es.get? name with
      | none => some (es.set name (.table .header []))
      | some (.table .implied inner) => some (es.set name (.table .header inner))
      | some _ => none) path.reverse .header es

/-- Open one more table of a header in double brackets. -/
def openElement (key : List String) (es : Entries) : Option Entries :=
  match key.reverse with
  | [] => none
  | name :: path =>
    changeAt false (fun _ es =>
      match es.get? name with
      | none => some (es.set name (.tables [[]]))
      | some (.tables elements) => some (es.set name (.tables (elements ++ [[]])))
      | some _ => none) path.reverse .header es

/-! ## Values -/

mutual

/-- A value; `depth` bounds the brackets and braces around its parts. -/
def readValue? (fuel depth : Nat) (cs : List Char) : Option (Toml × List Char) :=
  match fuel, depth, cs with
  | fuel + 1, depth + 1, '[' :: rest => readItems? fuel depth rest
  | fuel + 1, depth + 1, '\x7b' :: rest => readPairs? fuel depth true [] rest
  | _, _, cs => scalar? cs

/-- The items up to the closing bracket; a comma may follow the last. -/
def readItems? (fuel depth : Nat) (cs : List Char) : Option (Toml × List Char) :=
  match fuel with
  | 0 => none
  | fuel + 1 =>
    match skipLines (cs.length + 1) cs with
    | ']' :: rest => some (.array [], rest)
    | cs => do
      let (v, rest) ← readValue? fuel depth cs
      match skipLines (rest.length + 1) rest with
      | ']' :: rest => some (.array [v], rest)
      | ',' :: rest =>
        match ← readItems? fuel depth rest with
        | (.array vs, rest) => some (.array (v :: vs), rest)
        | _ => none
      | _ => none

/-- The entries up to the closing brace, after those already in `es`; all on one line. -/
def readPairs? (fuel depth : Nat) (first : Bool) (es : Entries) (cs : List Char) :
    Option (Toml × List Char) :=
  match fuel, first, skipSpace cs with
  | 0, _, _ => none
  | _ + 1, true, '\x7d' :: rest => some (.table .inline es, rest)
  | fuel + 1, _, cs => do
    let (key, rest) ← key? cs
    let rest ← mark? '=' rest
    let (v, rest) ← readValue? fuel depth (skipSpace rest)
    let es ← insertKey key v es
    match skipSpace rest with
    | '\x7d' :: rest => some (.table .inline es, rest)
    | ',' :: rest => readPairs? fuel depth false es rest
    | _ => none

end

/-! ## Statements -/

inductive Statement where
  | pair (key : List String) (value : Toml)
  | table (key : List String)
  | element (key : List String)

/-- A statement and the rest after the end of its line. -/
def statement? (cs : List Char) : Option (Statement × List Char) :=
  match cs with
  | '[' :: '[' :: rest => do
    let (key, rest) ← key? rest
    let rest ← (mark? ']' rest).bind (mark? ']')
    some (.element key, ← endLine? rest)
  | '[' :: rest => do
    let (key, rest) ← key? rest
    let rest ← mark? ']' rest
    some (.table key, ← endLine? rest)
  | cs => do
    let (key, rest) ← key? cs
    let rest ← mark? '=' rest
    let (v, rest) ← readValue? (rest.length + 1) (depthLimit - 1) (skipSpace rest)
    some (.pair key v, ← endLine? rest)

def statements? : (fuel : Nat) → List Char → Option (List Statement)
  | 0, _ => none
  | fuel + 1, cs =>
    match skipSpace cs with
    | [] => some []
    | '#' :: rest => (endLine? ('#' :: rest)).bind (statements? fuel)
    | c :: rest =>
      match newline? (c :: rest) with
      | some rest => statements? fuel rest
      | none => do
        let (s, rest) ← statement? (c :: rest)
        some (s :: (← statements? fuel rest))

/-! ## Putting together -/

/-- A document under way, and the header to whose table the next keys go. -/
structure Draft where
  root : Entries
  current : List String

def Draft.add? (d : Draft) : Statement → Option Draft
  | .table key => (openTable key d.root).map fun root => ⟨root, key⟩
  | .element key => (openElement key d.root).map fun root => ⟨root, key⟩
  | .pair key v =>
    (changeAt false (fun _ es => insertKey key v es) d.current .header d.root).map
      fun root => { d with root }

/-- Skip the mark that may open a text. -/
def skipMark : List Char → List Char
  | '\ufeff' :: rest => rest
  | cs => cs

/-- The table that a document describes. -/
def ofString? (s : String) : Option Toml := do
  let cs := skipMark s.toList
  let statements ← statements? (cs.length + 1) cs
  let draft ← statements.foldlM Draft.add? ⟨[], []⟩
  some (.table .header draft.root)

end Toml

end Fleet
