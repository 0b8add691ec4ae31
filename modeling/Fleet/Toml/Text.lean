import Fleet.Text.Quoted

/-!
# Blanks, texts and keys of TOML

There are four kinds of texts: in double quotes with escapes or in single quotes without, and
both also in triple quotes, which may span lines.  A line ends with a line feed, which a
carriage return may precede and nothing else may follow.

Each reader answers what it has read and the rest, or `none`.
-/

namespace Fleet.Toml

def isSpace (c : Char) : Bool := c == ' ' || c == '\t'

def skipSpace (cs : List Char) : List Char := cs.dropWhile isSpace

/-- Neither a control character nor the end of a line. -/
def isPlain (c : Char) : Bool := c == '\t' || (' ' ≤ c && c != '\x7f')

/-- The rest after the end of a line. -/
def newline? : List Char → Option (List Char)
  | '\n' :: rest => some rest
  | '\r' :: '\n' :: rest => some rest
  | _ => none

def skipComment : List Char → List Char
  | '#' :: rest => rest.dropWhile isPlain
  | cs => cs

/-- The rest after a statement: nothing but blanks and a comment up to the end of its line. -/
def endLine? (cs : List Char) : Option (List Char) :=
  match skipComment (skipSpace cs) with
  | [] => some []
  | cs => newline? cs

/-- Skip blanks, comments and ends of lines. -/
def skipLines : (fuel : Nat) → List Char → List Char
  | 0, cs => cs
  | fuel + 1, cs =>
    match skipSpace cs with
    | '#' :: rest => skipLines fuel (rest.dropWhile isPlain)
    | cs =>
      match newline? cs with
      | some rest => skipLines fuel rest
      | none => cs

/-! ## Escapes -/

def hexDigit? (c : Char) : Option Nat :=
  if '0' ≤ c ∧ c ≤ '9' then some (c.toNat - '0'.toNat)
  else if 'a' ≤ c ∧ c ≤ 'f' then some (c.toNat - 'a'.toNat + 10)
  else if 'A' ≤ c ∧ c ≤ 'F' then some (c.toNat - 'A'.toNat + 10)
  else none

/-- The number that exactly `count` hexadecimal digits denote, after those read as `n`. -/
def hexAfter (n : Nat) : (count : Nat) → List Char → Option (Nat × List Char)
  | 0, cs => some (n, cs)
  | count + 1, c :: cs => (hexDigit? c).bind fun d => hexAfter (16 * n + d) count cs
  | _ + 1, [] => none

/-- The character of a code point in hexadecimal digits. -/
def codePoint? (count : Nat) (cs : List Char) : Option (Char × List Char) := do
  let (n, rest) ← hexAfter 0 count cs
  if n.isValidChar then some (Char.ofNat n, rest) else none

/-- The character that an escape stands for, after its backslash. -/
def escape? : List Char → Option (Char × List Char)
  | 'b' :: rest => some ('\x08', rest)
  | 't' :: rest => some ('\t', rest)
  | 'n' :: rest => some ('\n', rest)
  | 'f' :: rest => some ('\x0c', rest)
  | 'r' :: rest => some ('\r', rest)
  | '"' :: rest => some ('"', rest)
  | '\\' :: rest => some ('\\', rest)
  | 'u' :: rest => codePoint? 4 rest
  | 'U' :: rest => codePoint? 8 rest
  | _ => none

/-! ## Texts -/

/-- The characters up to the closing double quote. -/
def basicChars? : (fuel : Nat) → List Char → Option (List Char × List Char)
  | 0, _ => none
  | _, [] => none
  | _, '"' :: rest => some ([], rest)
  | fuel + 1, '\\' :: rest => do
    let (c, rest) ← escape? rest
    let (cs, rest) ← basicChars? fuel rest
    some (c :: cs, rest)
  | fuel + 1, c :: rest =>
    if isPlain c then do
      let (cs, rest) ← basicChars? fuel rest
      some (c :: cs, rest)
    else none

/-- The characters up to the closing single quote. -/
def literalChars? : List Char → Option (List Char × List Char)
  | [] => none
  | '\'' :: rest => some ([], rest)
  | c :: rest =>
    if isPlain c then do
      let (cs, rest) ← literalChars? rest
      some (c :: cs, rest)
    else none

/-- What follows three closing quotes: up to two more of them still belong to the text. -/
def lastQuotes (quote : Char) : List Char → List Char × List Char
  | a :: b :: rest =>
    if a = quote ∧ b = quote then ([a, b], rest)
    else if a = quote then ([a], b :: rest)
    else ([], a :: b :: rest)
  | [a] => if a = quote then ([a], []) else ([], [a])
  | [] => ([], [])

/-- The rest after a backslash that ends a line: all blanks and ends of lines are skipped. -/
def lineEnding? (cs : List Char) : Option (List Char) :=
  (newline? (skipSpace cs)).map skipAll
where
  skipAll : List Char → List Char
    | ' ' :: rest => skipAll rest
    | '\t' :: rest => skipAll rest
    | '\n' :: rest => skipAll rest
    | '\r' :: '\n' :: rest => skipAll rest
    | cs => cs

/-- The characters up to three closing double quotes. -/
def basicLines? : (fuel : Nat) → List Char → Option (List Char × List Char)
  | 0, _ => none
  | _, [] => none
  | _, '"' :: '"' :: '"' :: rest => some (lastQuotes '"' rest)
  | fuel + 1, '\\' :: rest =>
    match lineEnding? rest with
    | some rest => basicLines? fuel rest
    | none => do
      let (c, rest) ← escape? rest
      let (cs, rest) ← basicLines? fuel rest
      some (c :: cs, rest)
  | fuel + 1, c :: rest =>
    match newline? (c :: rest) with
    | some rest => do
      let (cs, rest) ← basicLines? fuel rest
      some ('\n' :: cs, rest)
    | none =>
      if isPlain c then do
        let (cs, rest) ← basicLines? fuel rest
        some (c :: cs, rest)
      else none

/-- The characters up to three closing single quotes. -/
def literalLines? : (fuel : Nat) → List Char → Option (List Char × List Char)
  | 0, _ => none
  | _, [] => none
  | _, '\'' :: '\'' :: '\'' :: rest => some (lastQuotes '\'' rest)
  | fuel + 1, c :: rest =>
    match newline? (c :: rest) with
    | some rest => do
      let (cs, rest) ← literalLines? fuel rest
      some ('\n' :: cs, rest)
    | none =>
      if isPlain c then do
        let (cs, rest) ← literalLines? fuel rest
        some (c :: cs, rest)
      else none

/-- The first line of a text in triple quotes may be empty; it does not count. -/
def skipFirstLine (cs : List Char) : List Char := (newline? cs).getD cs

/-- A text in single or double quotes on one line. -/
def line? : List Char → Option (String × List Char)
  | '"' :: rest => (basicChars? (rest.length + 1) rest).map fun r => (String.ofList r.1, r.2)
  | '\'' :: rest => (literalChars? rest).map fun r => (String.ofList r.1, r.2)
  | _ => none

/-- A text of any kind. -/
def text? (cs : List Char) : Option (String × List Char) :=
  match cs with
  | '"' :: '"' :: '"' :: rest =>
    (basicLines? (rest.length + 1) (skipFirstLine rest)).map fun r => (String.ofList r.1, r.2)
  | '\'' :: '\'' :: '\'' :: rest =>
    (literalLines? (rest.length + 1) (skipFirstLine rest)).map fun r => (String.ofList r.1, r.2)
  | cs => line? cs

/-! ## Keys -/

def isBare (c : Char) : Bool :=
  ('A' ≤ c && c ≤ 'Z') || ('a' ≤ c && c ≤ 'z') || ('0' ≤ c && c ≤ '9') || c == '_' || c == '-'

/-- One part of a key: a bare word or a text. -/
def simpleKey? (cs : List Char) : Option (String × List Char) :=
  match cs with
  | '"' :: _ => line? cs
  | '\'' :: _ => line? cs
  | _ =>
    let word := cs.takeWhile isBare
    if word.isEmpty then none else some (String.ofList word, cs.dropWhile isBare)

/-- The parts of a dotted key. -/
def keyParts? : (fuel : Nat) → List Char → Option (List String × List Char)
  | 0, _ => none
  | fuel + 1, cs => do
    let (part, rest) ← simpleKey? (skipSpace cs)
    match skipSpace rest with
    | '.' :: rest =>
      let (parts, rest) ← keyParts? fuel rest
      some (part :: parts, rest)
    | rest => some ([part], rest)

/-- Keys have fewer parts than this, and values are nested less deeply. -/
def depthLimit : Nat := 80

def key? (cs : List Char) : Option (List String × List Char) := do
  let (parts, rest) ← keyParts? (cs.length + 1) cs
  if parts.length < depthLimit then some (parts, rest) else none

end Fleet.Toml
