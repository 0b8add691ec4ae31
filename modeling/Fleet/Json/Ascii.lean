import Fleet.Json.Basic

/-!
# JSON in ASCII

The compact text of a value for channels that carry ASCII alone: every other character is
written as its UTF-16 code units.
-/

namespace Fleet.Json

def writeUnit (n : Nat) : List Char := '\\' :: 'u' :: hex4 n

/-- The code units of a code point above ASCII. -/
def writeUnits (n : Nat) : List Char :=
  if n < 0x10000 then writeUnit n
  else writeUnit (0xD800 + (n - 0x10000) / 0x400) ++ writeUnit (0xDC00 + (n - 0x10000) % 0x400)

def asciiChar (c : Char) : List Char :=
  if c.toNat < 0x7f then writeChar c else writeUnits c.toNat

def asciiText (s : String) : List Char := '"' :: s.toList.flatMap asciiChar ++ ['"']

mutual

def writeAscii : Json → List Char
  | text s => asciiText s
  | array items => '[' :: asciiItems items ++ [']']
  | object members => '\x7b' :: asciiMembers members ++ ['\x7d']
  | v => write v

def asciiItems : List Json → List Char
  | [] => []
  | [v] => writeAscii v
  | v :: w :: rest => writeAscii v ++ ',' :: asciiItems (w :: rest)

def asciiMembers : List (String × Json) → List Char
  | [] => []
  | [(k, v)] => asciiText k ++ ':' :: writeAscii v
  | (k, v) :: m :: rest => asciiText k ++ ':' :: writeAscii v ++ ',' :: asciiMembers (m :: rest)

end

def ascii (v : Json) : String := String.ofList v.writeAscii

end Fleet.Json
