import Fleet.Decimal.Shortest
import Fleet.Json.Basic
import Fleet.Toml.Text

/-!
# Writing TOML documents

A JSON object as a TOML document: members that are `null` are left out, values come before
tables, and an array of several items has a line for each.  A table gets a header if it has
values or nothing at all.

A text is written in the first of these forms that needs no escape: in double quotes, in
single quotes, in three double quotes, in three single quotes; and otherwise with escapes.
-/

namespace Fleet.Toml

/-- The length of the longest run of a character. -/
def longestRun (c : Char) (cs : List Char) : Nat :=
  (cs.foldl (fun (run, best) d =>
    let run := if d = c then run + 1 else 0
    (run, max best run)) (0, 0)).2

/-- Control characters other than the tab and the line feed have no literal form. -/
def needsEscape (c : Char) : Bool := (c.toNat < 0x20 && c != '\t' && c != '\n') || c == '\x7f'

def escaped (c : Char) : List Char :=
  match c with
  | '\x08' => ['\\', 'b']
  | '\t' => ['\\', 't']
  | '\n' => ['\\', 'n']
  | '\x0c' => ['\\', 'f']
  | '\r' => ['\\', 'r']
  | '"' => ['\\', '"']
  | '\\' => ['\\', '\\']
  | c =>
    if c.toNat < 0x20 || c == '\x7f' then '\\' :: 'u' :: (Json.hex4 c.toNat).map Char.toUpper
    else [c]

/-- The characters between triple double quotes: line feeds stay, and of more than two quotes
in a row every third is escaped.  `run` quotes have been written since the last escape. -/
def escapedLines (run : Nat) : List Char → List Char
  | [] => []
  | '\n' :: cs => '\n' :: escapedLines 0 cs
  | '"' :: cs =>
    if run < 2 then '"' :: escapedLines (run + 1) cs else escaped '"' ++ escapedLines 0 cs
  | c :: cs => escaped c ++ escapedLines 0 cs

def basic (cs : List Char) : List Char := '"' :: cs.flatMap escaped ++ ['"']

def literal (cs : List Char) : List Char := '\'' :: cs ++ ['\'']

/-- In triple quotes, on a new line if there is more than one. -/
def tripled (quote : Char) (isLines : Bool) (inner : List Char) : List Char :=
  let quotes := [quote, quote, quote]
  quotes ++ (if isLines then ['\n'] else []) ++ inner ++ quotes

def writeText (s : String) : List Char :=
  let cs := s.toList
  let isLines := cs.contains '\n'
  let controls := cs.any needsEscape
  let backslash := cs.contains '\\'
  let doubles := longestRun '"' cs
  let singles := longestRun '\'' cs
  if !controls && !backslash && doubles = 0 && !isLines then basic cs
  else if !controls && singles = 0 && !isLines then literal cs
  else if !controls && !backslash && doubles ≤ 2 then tripled '"' isLines (escapedLines 0 cs)
  else if !controls && singles ≤ 2 then tripled '\'' isLines cs
  else if isLines then tripled '"' isLines (escapedLines 0 cs)
  else basic cs

def writeKey (s : String) : List Char :=
  let cs := s.toList
  let isLines := cs.contains '\n'
  let controls := cs.any needsEscape
  if !cs.isEmpty && cs.all isBare then cs
  else if !controls && !cs.contains '\\' && !cs.contains '"' && !isLines then basic cs
  else if !controls && !cs.contains '\'' && !isLines then literal cs
  else basic cs

/-- Real numbers keep a mark of being one. -/
def realFormat : Decimal.Positional := ⟨".0", "nan", "inf"⟩

/-- Whether a member is written under a header of its own. -/
def isTable : Json → Bool
  | .object _ => true
  | .array (v :: vs) => (v :: vs).all fun | .object _ => true | _ => false
  | _ => false

mutual

def writeValue : Json → List Char
  | .null => []
  | .flag b => (if b then "true" else "false").toList
  | .number n => (Text.numeral n).toList
  | .real x => (realFormat.write x).toList
  | .text s => writeText s
  | .array [] => ['[', ']']
  | .array [v] => '[' :: writeValue v ++ [']']
  | .array items => ['[', '\n'] ++ writeItems items ++ [']']
  | .object _ => []

/-- Each item on a line. -/
def writeItems : List Json → List Char
  | [] => []
  | v :: vs => "    ".toList ++ writeValue v ++ [',', '\n'] ++ writeItems vs

end

/-- The line of a value; `null` has none. -/
def writePair (m : String × Json) : List Char :=
  match m.2 with
  | .null => []
  | v => if isTable v then [] else writeKey m.1 ++ " = ".toList ++ writeValue v ++ ['\n']

def isWritten (m : String × Json) : Bool :=
  match m.2 with
  | .null => false
  | _ => true

/-- The lines of the values of a table. -/
def writePairs (members : List (String × Json)) : List Char := members.flatMap writePair

/-- A header, for tables with values or with nothing at all. -/
def writeHeader (path : List String) (members : List (String × Json)) : List Char :=
  let written := members.filter isWritten
  if written.isEmpty || written.any (fun m => !isTable m.2) then
    ['\n', '['] ++ List.intercalate ['.'] (path.map writeKey) ++ [']', '\n']
  else []

def writeElementHeader (path : List String) : List Char :=
  ['\n', '[', '['] ++ List.intercalate ['.'] (path.map writeKey) ++ [']', ']', '\n']

mutual

/-- A table with all tables below it. -/
def writeTable (path : List String) : Json → List Char
  | .object members =>
    writeHeader path members ++ writePairs members ++ writeTables path members
  | .array items => writeElements path items
  | _ => []

/-- The tables among the members of a table. -/
def writeTables (path : List String) : List (String × Json) → List Char
  | [] => []
  | (name, v) :: members =>
    (if isTable v then writeTable (path ++ [name]) v else []) ++ writeTables path members

/-- Tables that share a header in double brackets. -/
def writeElements (path : List String) : List Json → List Char
  | [] => []
  | .object members :: items =>
    writeElementHeader path ++ writePairs members ++ writeTables path members ++
      writeElements path items
  | _ :: items => writeElements path items

end

/-- The document of an object; nothing stands before the first header. -/
def write : Json → String
  | .object members =>
    let values := writePairs members
    let tables := writeTables [] members
    String.ofList (if values.isEmpty then tables.drop 1 else values ++ tables)
  | _ => ""

end Fleet.Toml
