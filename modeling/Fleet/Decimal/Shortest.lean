/-!
# The shortest decimal of a binary number

A finite double is `m * 2 ^ q`.  The reals that round to it form an interval; `shortest`
finds the least number of digits with which some decimal lies in that interval, and of the
decimals of that length the one nearest to the double.  On the grid of a given length only
the two neighbours of the double are tried: if any point of the grid lies in the interval,
one of these does.
-/

namespace Fleet.Decimal

/-- The number `digits * 10 ^ exponent`. -/
structure Numeral where
  digits : Nat
  exponent : Int
  deriving DecidableEq, Repr

/-- A positive rational with the ends of the interval that rounds to it, over one
denominator.  The ends belong to the interval iff `closed`. -/
structure Target where
  low : Nat
  value : Nat
  high : Nat
  denominator : Nat
  closed : Bool

/-- The target of `m * 2 ^ q`.  Below a power of two the neighbour is half as far, except
at the bottom of the range. -/
def Target.ofBinary (m : Nat) (q : Int) : Target :=
  let near := m == Nat.pow 2 52 && q > -1074
  let scale := Nat.pow 2 (q - 2).toNat
  { low := (if near then 4 * m - 1 else 4 * m - 2) * scale
    value := 4 * m * scale
    high := (4 * m + 2) * scale
    denominator := Nat.pow 2 (2 - q).toNat
    closed := m % 2 == 0 }

/-- Whether `d * 10 ^ e` rounds to the target. -/
def Target.hits (t : Target) (d : Nat) (e : Int) : Bool :=
  let n := d * Nat.pow 10 e.toNat * t.denominator
  let s := Nat.pow 10 (-e).toNat
  if t.closed then t.low * s ≤ n && n ≤ t.high * s else t.low * s < n && n < t.high * s

/-- The largest `d` with `d * 10 ^ e` at most the target. -/
def Target.below (t : Target) (e : Int) : Nat :=
  t.value * Nat.pow 10 (-e).toNat / (t.denominator * Nat.pow 10 e.toNat)

/-- Whether `d + 1` is nearer to the target than `d` on the grid of `10 ^ e`. -/
def Target.nearerAbove (t : Target) (d : Nat) (e : Int) : Bool :=
  2 * t.value * Nat.pow 10 (-e).toNat > (2 * d + 1) * Nat.pow 10 e.toNat * t.denominator

/-- The number of decimal digits of `n`. -/
def width (n : Nat) : Nat := (Nat.toDigits 10 n).length

/-- The `k` with `10 ^ (k - 1) ≤ t < 10 ^ k`. -/
def Target.magnitude (t : Target) : Int :=
  if t.denominator ≤ t.value then (width (t.value / t.denominator) : Int)
  else
    let j := width t.denominator - width t.value
    if t.denominator ≤ t.value * Nat.pow 10 j then 1 - (j : Int) else -(j : Int)

def Target.onGrid? (t : Target) (e : Int) : Option Numeral :=
  let d := t.below e
  match t.hits d e, t.hits (d + 1) e with
  | true, true => some ⟨if t.nearerAbove d e then d + 1 else d, e⟩
  | true, false => some ⟨d, e⟩
  | false, true => some ⟨d + 1, e⟩
  | false, false => none

/-- The shortest decimal with at least `17 - spare` digits; 17 always suffice. -/
def Target.search (t : Target) (k : Int) : Nat → Numeral
  | 0 => (t.onGrid? (k - 17)).getD ⟨t.below (k - 17), k - 17⟩
  | spare + 1 =>
    let digits := 17 - (spare + 1)
    (t.onGrid? (k - (digits : Int))).getD (t.search k spare)

/-- The shortest decimal that reads back as `m * 2 ^ q`. -/
def shortest (m : Nat) (q : Int) : Numeral :=
  let t := Target.ofBinary m q
  t.search t.magnitude 16

/-- A double by its parts: `significand * 2 ^ exponent` with a sign, or no number. -/
inductive Binary where
  | notANumber
  | infinite (negative : Bool)
  | finite (negative : Bool) (significand : Nat) (exponent : Int)

def Binary.ofFloat (x : Float) : Binary :=
  let bits := x.toBits.toNat
  let negative := bits / Nat.pow 2 63 == 1
  let e : Nat := bits / Nat.pow 2 52 % Nat.pow 2 11
  let f := bits % Nat.pow 2 52
  if e == 2047 then (if f == 0 then .infinite negative else .notANumber)
  else if e == 0 then .finite negative f (-1074)
  else .finite negative (f + Nat.pow 2 52) ((e : Int) - 1075)

/-- How a format writes a number in positional notation: what follows an integral value,
and the words for what is not finite. -/
structure Positional where
  integralEnd : String
  notANumber : String
  infinity : String

/-- Positional notation of `d * 10 ^ e`, with `tail` after an integral value. -/
def Numeral.positional (x : Numeral) (tail : String) : String :=
  let all := Nat.toDigits 10 x.digits
  let ds := (all.reverse.dropWhile (· == '0')).reverse
  let e := x.exponent + ((all.length - ds.length : Nat) : Int)
  if 0 ≤ e then String.ofList (ds ++ List.replicate e.toNat '0') ++ tail
  else
    let places := (-e).toNat
    if places < ds.length then
      String.ofList (ds.take (ds.length - places) ++ '.' :: ds.drop (ds.length - places))
    else String.ofList ("0.".toList ++ List.replicate (places - ds.length) '0' ++ ds)

def Positional.write (p : Positional) (x : Float) : String :=
  match Binary.ofFloat x with
  | .notANumber => p.notANumber
  | .infinite negative => (if negative then "-" else "") ++ p.infinity
  | .finite negative m q =>
    (if negative then "-" else "") ++
      if m == 0 then "0" ++ p.integralEnd else (shortest m q).positional p.integralEnd

end Fleet.Decimal
