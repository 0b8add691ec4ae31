import Fleet.Decimal.Numeral
import Fleet.Toml.Basic
import Fleet.Toml.Text

/-!
# Numbers, dates and times of TOML

Digits may be parted by single underscores.  Integers fit in 64 bits with a sign; a real
number too large for a double is none at all, unless it is negative.  Dates and times are
checked against the calendar and the clock.
-/

namespace Fleet.Toml

def isDigit (c : Char) : Bool := '0' ≤ c && c ≤ '9'

/-- Further digits, each after at most one underscore. -/
def moreDigits (ok : Char → Bool) : List Char → List Char × List Char
  | '_' :: d :: rest =>
    if ok d then
      let (ds, rest) := moreDigits ok rest
      (d :: ds, rest)
    else ([], '_' :: d :: rest)
  | d :: rest =>
    if ok d then
      let (ds, rest) := moreDigits ok rest
      (d :: ds, rest)
    else ([], d :: rest)
  | [] => ([], [])

/-- A run of digits that starts with one. -/
def digits? (ok : Char → Bool) : List Char → Option (List Char × List Char)
  | [] => none
  | d :: rest =>
    if ok d then
      let (ds, rest) := moreDigits ok rest
      some (d :: ds, rest)
    else none

/-- The number that digits denote in a base. -/
def digitsValue (base : Nat) (ds : List Char) : Nat :=
  ds.foldl (fun n d => base * n + (hexDigit? d).getD 0) 0

/-- Whether there is a minus sign, and what follows the sign. -/
def sign : List Char → Bool × List Char
  | '+' :: rest => (false, rest)
  | '-' :: rest => (true, rest)
  | cs => (false, cs)

/-- The digits of a decimal integer; a zero at the front stands alone. -/
def whole? (cs : List Char) : Option (List Char × List Char) :=
  match cs with
  | '0' :: rest => some (['0'], rest)
  | cs => digits? isDigit cs

/-! ## Integers -/

def isWord (n : Int) : Bool :=
  let limit : Int := Nat.pow 2 63
  n < limit && -limit ≤ n

def integerOf (n : Int) (rest : List Char) : Option (Toml × List Char) :=
  if isWord n then some (.integer n, rest) else none

def based? (base : Nat) (ok : Char → Bool) (cs : List Char) : Option (Toml × List Char) := do
  let (ds, rest) ← digits? ok cs
  integerOf (digitsValue base ds) rest

def integer? (cs : List Char) : Option (Toml × List Char) :=
  match cs with
  | '0' :: 'x' :: rest => based? 16 (fun c => (hexDigit? c).isSome) rest
  | '0' :: 'o' :: rest => based? 8 (fun c => '0' ≤ c && c ≤ '7') rest
  | '0' :: 'b' :: rest => based? 2 (fun c => c == '0' || c == '1') rest
  | cs => do
    let (negative, cs) := sign cs
    let (ds, rest) ← whole? cs
    let n : Int := digitsValue 10 ds
    integerOf (if negative then -n else n) rest

/-! ## Real numbers -/

def fraction? : List Char → Option (List Char × List Char)
  | '.' :: rest => digits? isDigit rest
  | _ => none

def exponent? : List Char → Option (Int × List Char)
  | c :: rest =>
    if c == 'e' || c == 'E' then do
      let (negative, rest) := sign rest
      let (ds, rest) ← digits? isDigit rest
      let e : Int := digitsValue 10 ds
      some (if negative then -e else e, rest)
    else none
  | [] => none

def realOf (negative : Bool) (whole fraction : List Char) (exponent : Int) (rest : List Char) :
    Option (Toml × List Char) :=
  let n : Decimal.Numeral :=
    ⟨digitsValue 10 (whole ++ fraction), exponent - (fraction.length : Int)⟩
  let x := if n.overflows then 1.0 / 0.0 else n.toFloat
  if n.overflows && !negative then none
  else some (.real (if negative then -x else x), rest)

/-- A real number has a fraction, an exponent, or both; or it is one of two words. -/
def real? (cs : List Char) : Option (Toml × List Char) :=
  let (negative, cs) := sign cs
  match cs with
  | 'i' :: 'n' :: 'f' :: rest =>
    some (.real (if negative then -(1.0 / 0.0) else 1.0 / 0.0), rest)
  | 'n' :: 'a' :: 'n' :: rest => some (.real (0.0 / 0.0), rest)
  | cs => do
    let (whole, rest) ← whole? cs
    match fraction? rest with
    | some (fraction, rest) =>
      match exponent? rest with
      | some (e, rest) => realOf negative whole fraction e rest
      | none => realOf negative whole fraction 0 rest
    | none =>
      let (e, rest) ← exponent? rest
      realOf negative whole [] e rest

/-! ## Dates and times -/

/-- The number written in exactly `count` digits, if it is in the range. -/
def field? (count low high : Nat) (cs : List Char) : Option (Nat × List Char) :=
  let ds := cs.take count
  let n := digitsValue 10 ds
  if ds.length = count ∧ ds.all isDigit ∧ low ≤ n ∧ n ≤ high then some (n, cs.drop count)
  else none

def mark? (c : Char) : List Char → Option (List Char)
  | d :: rest => if d = c then some rest else none
  | [] => none

def isLeap (year : Nat) : Bool := year % 4 == 0 && (year % 100 != 0 || year % 400 == 0)

def daysIn (year month : Nat) : Nat :=
  if month = 2 then (if isLeap year then 29 else 28)
  else if [4, 6, 9, 11].contains month then 30
  else 31

def date? (cs : List Char) : Option (List Char) := do
  let (year, rest) ← field? 4 0 9999 cs
  let rest ← mark? '-' rest
  let (month, rest) ← field? 2 1 12 rest
  let rest ← mark? '-' rest
  let (_, rest) ← field? 2 1 (daysIn year month) rest
  some rest

/-- A time of day, which may have a fraction of a second. -/
def time? (cs : List Char) : Option (List Char) := do
  let (_, rest) ← field? 2 0 23 cs
  let rest ← mark? ':' rest
  let (_, rest) ← field? 2 0 59 rest
  let rest ← mark? ':' rest
  let (_, rest) ← field? 2 0 60 rest
  match rest with
  | '.' :: d :: more => if isDigit d then some (more.dropWhile isDigit) else none
  | '.' :: [] => none
  | rest => some rest

/-- The offset of a zone. -/
def offset? (cs : List Char) : Option (List Char) :=
  match cs with
  | [] => some []
  | c :: rest =>
    if c == 'Z' || c == 'z' then some rest
    else if c == '+' || c == '-' then do
      let (_, rest) ← field? 2 0 23 rest
      let rest ← mark? ':' rest
      let (_, rest) ← field? 2 0 59 rest
      some rest
    else some (c :: rest)

/-- A time after a date, or nothing if none follows. -/
def timeAfterDate (cs : List Char) : List Char :=
  match cs with
  | c :: rest =>
    if c == 'T' || c == 't' || c == ' ' then ((time? rest).bind offset?).getD cs else cs
  | [] => []

def datetime? (cs : List Char) : Option (Toml × List Char) :=
  match date? cs with
  | some rest => some (.datetime, timeAfterDate rest)
  | none => (time? cs).map fun rest => (.datetime, rest)

/-! ## Scalars -/

/-- A number, a date or a time. -/
def numeric? (cs : List Char) : Option (Toml × List Char) :=
  match datetime? cs with
  | some r => some r
  | none =>
    match real? cs with
    | some r => some r
    | none => integer? cs

/-- A value that is no array and no table. -/
def scalar? (cs : List Char) : Option (Toml × List Char) :=
  match cs with
  | '"' :: _ => (text? cs).map fun r => (.text r.1, r.2)
  | '\'' :: _ => (text? cs).map fun r => (.text r.1, r.2)
  | 't' :: 'r' :: 'u' :: 'e' :: rest => some (.flag true, rest)
  | 'f' :: 'a' :: 'l' :: 's' :: 'e' :: rest => some (.flag false, rest)
  | cs => numeric? cs

end Fleet.Toml
