import Fleet.Text.Hidden

/-!
# Quoted text

A text between double quotes, as error messages show it.  The quote and the backslash get
a backslash; tab, line feed, carriage return and the null character have letters; every
other hidden character is written by its number between braces.
-/

namespace Fleet.Text

def hexDigits (n : Nat) : List Char := Nat.toDigits 16 n

/-- The written form of one character between the quotes. -/
def quotedChar (c : Char) : List Char :=
  match c with
  | '"' => ['\\', '"']
  | '\\' => ['\\', '\\']
  | '\t' => ['\\', 't']
  | '\n' => ['\\', 'n']
  | '\r' => ['\\', 'r']
  | '\x00' => ['\\', '0']
  | c => if isHidden c then ['\\', 'u', '\x7b'] ++ hexDigits c.toNat ++ ['\x7d'] else [c]

def quoted (s : String) : String :=
  String.ofList ('"' :: s.toList.flatMap quotedChar ++ ['"'])

example : quoted "a\tb\"c" = "\"a\\tb\\\"c\"" := by decide +kernel

end Fleet.Text
