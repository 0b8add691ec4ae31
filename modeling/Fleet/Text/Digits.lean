/-!
# Decimal numerals

Reading a run of ASCII digits as a natural number, and nothing else: no sign, no blank,
no separator.  `unsigned?` is the numeral of a bounded word, which may carry a `+`.
-/

namespace Fleet.Text

def digit? (c : Char) : Option Nat :=
  if '0' ≤ c ∧ c ≤ '9' then some (c.toNat - '0'.toNat) else none

/-- The number that the digits denote after those already read as `n`. -/
def digitsAfter (n : Nat) : List Char → Option Nat
  | [] => some n
  | c :: cs => (digit? c).bind fun d => digitsAfter (10 * n + d) cs

/-- The number written by a nonempty run of digits. -/
def digits? : List Char → Option Nat
  | [] => none
  | c :: cs => digitsAfter 0 (c :: cs)

/-- A numeral below `bound`, with an optional `+` in front. -/
def unsigned? (bound : Nat) (cs : List Char) : Option Nat :=
  let numeral := match cs with
    | '+' :: rest => rest
    | _ => cs
  (digits? numeral).filter (· < bound)

/-- The decimal numeral of `n`. -/
def numeral (n : Nat) : String := Nat.repr n

end Fleet.Text
