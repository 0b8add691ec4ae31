import Fleet.Text.Digits
import Fleet.Text.Quoted
import Fleet.Decimal.Shortest

/-!
# JSON values

The values that records, requests and answers are made of, and their compact text.  Objects
keep the order of their members.  Numbers are naturals, or doubles where the configuration
has them; nothing here is negative otherwise.
-/

namespace Fleet

inductive Json where
  | null
  | flag (b : Bool)
  | number (n : Nat)
  | real (x : Float)
  | text (s : String)
  | array (items : List Json)
  | object (members : List (String × Json))
  deriving Inhabited

namespace Json

open Text

/-- The four hexadecimal digits of a code unit. -/
def hex4 (n : Nat) : List Char :=
  let ds := hexDigits n
  List.replicate (4 - ds.length) '0' ++ ds

/-- A character inside a text: quote, backslash and control characters are escaped. -/
def writeChar (c : Char) : List Char :=
  match c with
  | '"' => ['\\', '"']
  | '\\' => ['\\', '\\']
  | '\n' => ['\\', 'n']
  | '\r' => ['\\', 'r']
  | '\t' => ['\\', 't']
  | '\x08' => ['\\', 'b']
  | '\x0c' => ['\\', 'f']
  | c => if c.toNat < 0x20 then '\\' :: 'u' :: hex4 c.toNat else [c]

def writeText (s : String) : List Char :=
  '"' :: s.toList.flatMap writeChar ++ ['"']

/-- Doubles keep a mark of being one: an integral value ends in `.0`. -/
def realFormat : Decimal.Positional := ⟨".0", "null", "null"⟩

mutual

/-- The text of a value without any blank. -/
def write : Json → List Char
  | null => "null".toList
  | flag true => "true".toList
  | flag false => "false".toList
  | number n => Nat.toDigits 10 n
  | real x => (realFormat.write x).toList
  | text s => writeText s
  | array items => '[' :: writeItems items ++ [']']
  | object members => '\x7b' :: writeMembers members ++ ['\x7d']

def writeItems : List Json → List Char
  | [] => []
  | [v] => write v
  | v :: w :: rest => write v ++ ',' :: writeItems (w :: rest)

def writeMembers : List (String × Json) → List Char
  | [] => []
  | [(k, v)] => writeText k ++ ':' :: write v
  | (k, v) :: m :: rest => writeText k ++ ':' :: write v ++ ',' :: writeMembers (m :: rest)

end

def compact (v : Json) : String := String.ofList v.write

/-! ## Look-ups -/

def member? (v : Json) (name : String) : Option Json :=
  match v with
  | object members => (members.find? fun m => m.1 == name).map (·.2)
  | _ => none

def text? : Json → Option String
  | text s => some s
  | _ => none

def flag? : Json → Option Bool
  | flag b => some b
  | _ => none

def number? : Json → Option Nat
  | number n => some n
  | _ => none

def items? : Json → Option (List Json)
  | array items => some items
  | _ => none

/-- An optional member: absent and `null` read alike. -/
def optional? {α : Type} (read : Json → Option α) : Json → Option (Option α)
  | null => some none
  | v => (read v).map some

def ofOption {α : Type} (write : α → Json) : Option α → Json
  | none => null
  | some a => write a

end Json

end Fleet
