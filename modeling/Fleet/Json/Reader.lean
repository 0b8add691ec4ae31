import Fleet.Decimal.Numeral
import Fleet.Json.Shape

/-!
# Reading JSON by shape

`Shape.read` reads a value of a known shape straight off the text, so the first fault met is
the one reported: the text ends (`truncated`), it is no JSON (`malformed`), or it is JSON of
another shape (`misshapen`).  Records are objects, or arrays of their fields in order.
Members that the shape does not know are passed over by `skipValue`, which checks less: it
does not pair surrogates and does not bound numbers.

Loops that consume the text carry its length as fuel.
-/

namespace Fleet

namespace Json

open Text

inductive Fault where
  | truncated
  | malformed
  | misshapen
  deriving DecidableEq, Repr

def isSpace (c : Char) : Bool := c == ' ' || c == '\n' || c == '\t' || c == '\r'

def skipSpace (cs : List Char) : List Char := cs.dropWhile isSpace

def isDigit (c : Char) : Bool := '0' ≤ c && c ≤ '9'

/-- The rest after the letters of `word`. -/
def expect : (word : List Char) → List Char → Except Fault (List Char)
  | [], cs => .ok cs
  | _ :: _, [] => .error .truncated
  | w :: ws, c :: cs => if c = w then expect ws cs else .error .malformed

/-! ## Texts -/

def hexDigit? (c : Char) : Option Nat :=
  if isDigit c then some (c.toNat - '0'.toNat)
  else if 'a' ≤ c ∧ c ≤ 'f' then some (c.toNat - 'a'.toNat + 10)
  else if 'A' ≤ c ∧ c ≤ 'F' then some (c.toNat - 'A'.toNat + 10)
  else none

/-- The code unit in four hexadecimal digits.  A text with fewer than four bytes left has
been cut off. -/
def readUnit (cs : List Char) : Except Fault (Nat × List Char) :=
  if ((cs.take 4).map Char.utf8Size).foldr (· + ·) 0 < 4 then .error .truncated
  else
    match cs with
    | a :: b :: c :: d :: rest =>
      match hexDigit? a, hexDigit? b, hexDigit? c, hexDigit? d with
      | some a, some b, some c, some d => .ok (((a * 16 + b) * 16 + c) * 16 + d, rest)
      | _, _, _, _ => .error .malformed
    | _ => .error .malformed

/-- The second half of a surrogate pair that `high` opens. -/
def readLowHalf (high : Nat) (cs : List Char) : Except Fault (Char × List Char) := do
  let cs ← expect ['\\', 'u'] cs
  let (low, rest) ← readUnit cs
  if 0xDC00 ≤ low ∧ low ≤ 0xDFFF then
    .ok (Char.ofNat (0x10000 + (high - 0xD800) * 0x400 + (low - 0xDC00)), rest)
  else .error .malformed

/-- The character that an escape stands for, after its backslash. -/
def readEscape : List Char → Except Fault (Char × List Char)
  | [] => .error .truncated
  | '"' :: rest => .ok ('"', rest)
  | '\\' :: rest => .ok ('\\', rest)
  | '/' :: rest => .ok ('/', rest)
  | 'b' :: rest => .ok ('\x08', rest)
  | 'f' :: rest => .ok ('\x0c', rest)
  | 'n' :: rest => .ok ('\n', rest)
  | 'r' :: rest => .ok ('\r', rest)
  | 't' :: rest => .ok ('\t', rest)
  | 'u' :: rest => do
    let (unit, rest) ← readUnit rest
    if 0xDC00 ≤ unit ∧ unit ≤ 0xDFFF then .error .malformed
    else if 0xD800 ≤ unit ∧ unit ≤ 0xDBFF then readLowHalf unit rest
    else .ok (Char.ofNat unit, rest)
  | _ => .error .malformed

/-- The characters up to the closing quote. -/
def readChars : (fuel : Nat) → List Char → Except Fault (List Char × List Char)
  | 0, _ => .error .truncated
  | _, [] => .error .truncated
  | _, '"' :: rest => .ok ([], rest)
  | fuel + 1, '\\' :: rest => do
    let (c, rest) ← readEscape rest
    let (cs, rest) ← readChars fuel rest
    .ok (c :: cs, rest)
  | fuel + 1, c :: rest =>
    if c.toNat < 0x20 then .error .malformed
    else do
      let (cs, rest) ← readChars fuel rest
      .ok (c :: cs, rest)

/-- A text after its opening quote. -/
def readText (cs : List Char) : Except Fault (String × List Char) := do
  let (chars, rest) ← readChars (cs.length + 1) cs
  .ok (String.ofList chars, rest)

def skipEscape : List Char → Except Fault (List Char)
  | [] => .error .truncated
  | 'u' :: rest => (readUnit rest).map (·.2)
  | c :: rest =>
    if ['"', '\\', '/', 'b', 'f', 'n', 'r', 't'].contains c then .ok rest else .error .malformed

def skipChars : (fuel : Nat) → List Char → Except Fault (List Char)
  | 0, _ => .error .truncated
  | _, [] => .error .truncated
  | _, '"' :: rest => .ok rest
  | fuel + 1, '\\' :: rest => (skipEscape rest).bind (skipChars fuel)
  | fuel + 1, c :: rest => if c.toNat < 0x20 then .error .malformed else skipChars fuel rest

def skipText (cs : List Char) : Except Fault (List Char) := skipChars (cs.length + 1) cs

/-! ## Numbers -/

/-- A numeral as it is written: `plain` without fraction and exponent. -/
structure Numeral extends Decimal.Numeral where
  plain : Bool

/-- A run of digits that may not be empty; at the end of the text `atEnd` is the fault. -/
def readDigits (atEnd : Fault) (cs : List Char) : Except Fault (List Char × List Char) :=
  let ds := cs.takeWhile isDigit
  let rest := cs.dropWhile isDigit
  if ds.isEmpty then .error (if rest.isEmpty then atEnd else .malformed) else .ok (ds, rest)

def digitsValue (ds : List Char) : Nat := (digits? ds).getD 0

def readFraction (atEnd : Fault) : List Char → Except Fault (List Char × List Char)
  | '.' :: rest => readDigits atEnd rest
  | cs => .ok ([], cs)

def readExponent (atEnd : Fault) (cs : List Char) : Except Fault (Option Int × List Char) :=
  let unsigned (sign : Int) (cs : List Char) : Except Fault (Option Int × List Char) := do
    let (ds, rest) ← readDigits atEnd cs
    .ok (some (sign * digitsValue ds), rest)
  let signed : List Char → Except Fault (Option Int × List Char)
    | '+' :: rest => unsigned 1 rest
    | '-' :: rest => unsigned (-1) rest
    | cs => unsigned 1 cs
  match cs with
  | 'e' :: rest => signed rest
  | 'E' :: rest => signed rest
  | cs => .ok (none, cs)

/-- A number after its sign. -/
def readNumeral (atEnd : Fault) (cs : List Char) : Except Fault (Numeral × List Char) := do
  let (whole, rest) ← readDigits atEnd cs
  if whole.length > 1 ∧ whole.head? = some '0' then .error .malformed
  else
    let (fraction, rest) ← readFraction atEnd rest
    let (exponent, rest) ← readExponent atEnd rest
    .ok ({ digits := digitsValue (whole ++ fraction)
           exponent := exponent.getD 0 - fraction.length
           plain := fraction.isEmpty && exponent.isNone }, rest)

/-- A number after its sign, within the range of doubles. -/
def readNumber (cs : List Char) : Except Fault (Numeral × List Char) := do
  let (n, rest) ← readNumeral .truncated cs
  if n.overflows then .error .malformed else .ok (n, rest)

/-- The fault of a value that is there but of another kind. -/
def misfit : List Char → Fault
  | [] => .truncated
  | '[' :: _ => .misshapen
  | '\x7b' :: _ => .misshapen
  | 'n' :: rest => faultOf (expect ['u', 'l', 'l'] rest)
  | 't' :: rest => faultOf (expect ['r', 'u', 'e'] rest)
  | 'f' :: rest => faultOf (expect ['a', 'l', 's', 'e'] rest)
  | '"' :: rest => faultOf (readText rest)
  | '-' :: rest => faultOf (readNumber rest)
  | c :: rest => if isDigit c then faultOf (readNumber (c :: rest)) else .malformed
where
  faultOf {α : Type} : Except Fault α → Fault
    | .error e => e
    | .ok _ => .misshapen

/-! ## Items and members -/

/-- Where the next item of an array starts; `none` at the closing bracket. -/
def nextItem? (first : Bool) (cs : List Char) : Except Fault (Option (List Char)) :=
  match skipSpace cs with
  | [] => .error .truncated
  | ']' :: _ => .ok none
  | c :: rest =>
    if first then .ok (some (c :: rest))
    else if c = ',' then
      match skipSpace rest with
      | [] => .error .truncated
      | ']' :: _ => .error .malformed
      | rest => .ok (some rest)
    else .error .malformed

/-- The rest after the closing bracket of an array that holds no more items. -/
def closeArray (cs : List Char) : Except Fault (List Char) :=
  match skipSpace cs with
  | [] => .error .truncated
  | ']' :: rest => .ok rest
  | _ => .error .malformed

/-- The text of the next member's name, after its quote; `none` at the closing brace. -/
def nextName? (first : Bool) (cs : List Char) : Except Fault (Option (List Char)) :=
  let name : List Char → Except Fault (Option (List Char))
    | [] => .error .truncated
    | '"' :: rest => .ok (some rest)
    | _ => .error .malformed
  match skipSpace cs with
  | [] => .error .truncated
  | '\x7d' :: _ => .ok none
  | c :: rest =>
    if first then name (c :: rest)
    else if c = ',' then name (skipSpace rest)
    else .error .malformed

def closeObject (cs : List Char) : Except Fault (List Char) :=
  match skipSpace cs with
  | [] => .error .truncated
  | '\x7d' :: rest => .ok rest
  | _ => .error .malformed

def expectColon (cs : List Char) : Except Fault (List Char) :=
  match skipSpace cs with
  | [] => .error .truncated
  | ':' :: rest => .ok rest
  | _ => .error .malformed

/-! ## Values of no known shape -/

mutual

def skipValue : (fuel : Nat) → List Char → Except Fault (List Char)
  | 0, _ => .error .truncated
  | fuel + 1, cs =>
    match skipSpace cs with
    | [] => .error .truncated
    | '[' :: rest => skipItems fuel true rest
    | '\x7b' :: rest => skipMembers fuel true rest
    | 'n' :: rest => expect ['u', 'l', 'l'] rest
    | 't' :: rest => expect ['r', 'u', 'e'] rest
    | 'f' :: rest => expect ['a', 'l', 's', 'e'] rest
    | '"' :: rest => skipText rest
    | '-' :: rest => (readNumeral .malformed rest).map (·.2)
    | c :: rest =>
      if isDigit c then (readNumeral .malformed (c :: rest)).map (·.2) else .error .malformed

def skipItems : (fuel : Nat) → Bool → List Char → Except Fault (List Char)
  | 0, _, _ => .error .truncated
  | fuel + 1, first, cs => do
    match ← nextItem? first cs with
    | none => closeArray cs
    | some item =>
      let rest ← skipValue fuel item
      skipItems fuel false rest

def skipMembers : (fuel : Nat) → Bool → List Char → Except Fault (List Char)
  | 0, _, _ => .error .truncated
  | fuel + 1, first, cs => do
    match ← nextName? first cs with
    | none => closeObject cs
    | some name =>
      let rest ← skipText name
      let value ← expectColon rest
      let rest ← skipValue fuel value
      skipMembers fuel false rest

end

/-! ## Values of a shape -/

/-- A field of a record with the reading of its values. -/
structure Field where
  name : String
  presence : Presence
  read : List Char → Except Fault (Json × List Char)

def readItems (read : List Char → Except Fault (Json × List Char)) :
    (fuel : Nat) → Bool → List Char → Except Fault (List Json × List Char)
  | 0, _, _ => .error .truncated
  | fuel + 1, first, cs => do
    match ← nextItem? first cs with
    | none => .ok ([], cs)
    | some item =>
      let (v, rest) ← read item
      let (vs, rest) ← readItems read fuel false rest
      .ok (v :: vs, rest)

/-- The members of an object in the order of the text, each known name at most once. -/
def readMembers (fields : List Field) :
    (fuel : Nat) → Bool → List (String × Json) → List Char →
      Except Fault (List (String × Json) × List Char)
  | 0, _, _, _ => .error .truncated
  | fuel + 1, first, seen, cs => do
    match ← nextName? first cs with
    | none => .ok (seen, cs)
    | some name =>
      let (name, rest) ← readText name
      match fields.find? fun f => f.name == name with
      | none =>
        let value ← expectColon rest
        let rest ← skipValue (value.length + 1) value
        readMembers fields fuel false seen rest
      | some field =>
        if seen.any fun m => m.1 == name then .error .misshapen
        else
          let value ← expectColon rest
          let (v, rest) ← field.read value
          readMembers fields fuel false (seen ++ [(name, v)]) rest

/-- All fields in order, the missing ones filled in. -/
def fillFields (seen : List (String × Json)) : List Field → Except Fault (List (String × Json))
  | [] => .ok []
  | f :: fs =>
    match ((seen.find? fun m => m.1 == f.name).map (·.2)).or f.presence.missing? with
    | none => .error .misshapen
    | some v => (fillFields seen fs).map ((f.name, v) :: ·)

/-- The fields of a record written as an array. -/
def readPositional : List Field → Bool → List Char → Except Fault (List (String × Json) × List Char)
  | [], _, cs => .ok ([], cs)
  | f :: fs, first, cs => do
    match ← nextItem? first cs with
    | some item =>
      let (v, rest) ← f.read item
      let (vs, rest) ← readPositional fs false rest
      .ok ((f.name, v) :: vs, rest)
    | none =>
      match f.presence.cut? with
      | none => .error .misshapen
      | some v =>
        let (vs, rest) ← readPositional fs first cs
        .ok ((f.name, v) :: vs, rest)

def readRecord (fields : List Field) (cs : List Char) : Except Fault (Json × List Char) :=
  match cs with
  | '\x7b' :: rest => do
    let (seen, rest) ← readMembers fields (rest.length + 1) true [] rest
    let members ← fillFields seen fields
    let rest ← closeObject rest
    .ok (.object members, rest)
  | '[' :: rest => do
    let (members, rest) ← readPositional fields true rest
    let rest ← closeArray rest
    .ok (.object members, rest)
  | cs => .error (misfit cs)

def readDictionary (read : List Char → Except Fault (Json × List Char)) :
    (fuel : Nat) → Bool → List Char → Except Fault (List (String × Json) × List Char)
  | 0, _, _ => .error .truncated
  | fuel + 1, first, cs => do
    match ← nextName? first cs with
    | none => .ok ([], cs)
    | some name =>
      let (name, rest) ← readText name
      let value ← expectColon rest
      let (v, rest) ← read value
      let (vs, rest) ← readDictionary read fuel false rest
      .ok ((name, v) :: vs, rest)

/-- One of the names, as a text or as the only member of an object with the value `null`. -/
def readChoice (names : List String) (cs : List Char) : Except Fault (Json × List Char) :=
  let named (name : String) (rest : List Char) : Except Fault (Json × List Char) :=
    if names.contains name then .ok (.text name, rest) else .error .misshapen
  match cs with
  | [] => .error .truncated
  | '"' :: rest => do
    let (name, rest) ← readText rest
    named name rest
  | '\x7b' :: rest => do
    match skipSpace rest with
    | '"' :: rest =>
      let (name, rest) ← readText rest
      let (v, rest) ← named name rest
      let value ← expectColon rest
      match skipSpace value with
      | 'n' :: rest =>
        let rest ← expect ['u', 'l', 'l'] rest
        match skipSpace rest with
        | [] => .error .truncated
        | '\x7d' :: rest => .ok (v, rest)
        | _ => .error .malformed
      | value => .error (misfit value)
    | other => .error (misfit other)
  | _ => .error .malformed

end Json

open Json

mutual

/-- A value of the shape at the front of the text, blanks before it not counting. -/
def Shape.read : Shape → List Char → Except Fault (Json × List Char)
  | .flag, cs =>
    match skipSpace cs with
    | 't' :: rest => (expect ['r', 'u', 'e'] rest).map (.flag true, ·)
    | 'f' :: rest => (expect ['a', 'l', 's', 'e'] rest).map (.flag false, ·)
    | cs => .error (misfit cs)
  | .number limit, cs =>
    match skipSpace cs with
    | [] => .error .truncated
    | c :: rest =>
      if isDigit c then do
        let (n, rest) ← readNumber (c :: rest)
        if n.plain && n.digits < limit then .ok (.number n.digits, rest) else .error .misshapen
      else .error (misfit (c :: rest))
  | .real, cs =>
    match skipSpace cs with
    | [] => .error .truncated
    | '-' :: rest => do
      let (n, rest) ← readNumber rest
      .ok (.real (-n.toFloat), rest)
    | c :: rest =>
      if isDigit c then do
        let (n, rest) ← readNumber (c :: rest)
        .ok (.real n.toFloat, rest)
      else .error (misfit (c :: rest))
  | .text accepts, cs =>
    match skipSpace cs with
    | '"' :: rest => do
      let (s, rest) ← readText rest
      if accepts s then .ok (.text s, rest) else .error .misshapen
    | cs => .error (misfit cs)
  | .choice names, cs => readChoice names (skipSpace cs)
  | .nullable shape, cs =>
    match skipSpace cs with
    | 'n' :: rest => (expect ['u', 'l', 'l'] rest).map (.null, ·)
    | cs => shape.read cs
  | .list shape, cs =>
    match skipSpace cs with
    | '[' :: rest => do
      let (vs, rest) ← readItems shape.read (rest.length + 1) true rest
      let rest ← closeArray rest
      .ok (.array vs, rest)
    | cs => .error (misfit cs)
  | .dictionary shape, cs =>
    match skipSpace cs with
    | '\x7b' :: rest => do
      let (ms, rest) ← readDictionary shape.read (rest.length + 1) true rest
      let rest ← closeObject rest
      .ok (.object ms, rest)
    | cs => .error (misfit cs)
  | .record fields, cs => readRecord (Shape.fieldReaders fields) (skipSpace cs)

def Shape.fieldReaders : List (String × Presence × Shape) → List Field
  | [] => []
  | (name, presence, shape) :: rest => ⟨name, presence, shape.read⟩ :: Shape.fieldReaders rest

end

/-- A text that holds one value of the shape and nothing else. -/
def Shape.readText (shape : Shape) (s : String) : Except Fault Json := do
  let (v, rest) ← shape.read s.toList
  if (skipSpace rest).isEmpty then .ok v else .error .malformed

end Fleet
