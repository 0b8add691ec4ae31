import Fleet.Text.Blank
import Fleet.Text.Digits

/-!
# Durations

A duration is a whole number of milliseconds.  It is written as a numeral with one of the
units `ms`, `s`, `m`, `h`, or with none for seconds; blanks around it do not count.
-/

namespace Fleet

open Text

structure Duration where
  millis : Nat
  deriving DecidableEq, Repr, Inhabited

/-- One past the largest machine word. -/
def wordLimit : Nat := Nat.pow 2 64

/-- One past the largest half word, the range of every count of executors. -/
def countLimit : Nat := Nat.pow 2 32

namespace Duration

def ofSeconds (n : Nat) : Duration := ⟨n * 1000⟩

def seconds (d : Duration) : Nat := d.millis / 1000

/-- The nanoseconds beyond the whole seconds. -/
def nanos (d : Duration) : Nat := d.millis % 1000 * 1000000

inductive Scale where
  | milliseconds
  | seconds
  | minutes
  | hours
  deriving DecidableEq, Repr

def Scale.millis : Scale → Nat
  | .milliseconds => 1
  | .seconds => 1000
  | .minutes => 60 * 1000
  | .hours => 3600 * 1000

/-- The unit at the end of a text, and what stands before it. -/
def splitScale (cs : List Char) : List Char × Scale :=
  match cs.reverse with
  | 's' :: 'm' :: rest => (rest.reverse, .milliseconds)
  | 's' :: rest => (rest.reverse, .seconds)
  | 'm' :: rest => (rest.reverse, .minutes)
  | 'h' :: rest => (rest.reverse, .hours)
  | _ => (cs, .seconds)

def parse? (s : String) : Option Duration :=
  let (number, scale) := splitScale (trim s.toList)
  (unsigned? wordLimit number).map fun n => ⟨n * scale.millis⟩

/-- The written form in messages: seconds with as many decimals as needed, below one
second whole milliseconds. -/
def display (d : Duration) : String :=
  if 1000 ≤ d.millis then
    let thousandths := d.millis % 1000
    let padded := (toString (1000 + thousandths)).toList.drop 1
    let decimals := (padded.reverse.dropWhile (· == '0')).reverse
    let fraction := if decimals.isEmpty then [] else '.' :: decimals
    numeral d.seconds ++ String.ofList fraction ++ "s"
  else if d.millis = 0 then "0ns"
  else numeral d.millis ++ "ms"

example : [(⟨1500⟩ : Duration), ⟨0⟩, ⟨999⟩, ⟨1001⟩, ⟨61234⟩, ⟨3600000⟩].map display =
    ["1.5s", "0ns", "999ms", "1.001s", "61.234s", "3600s"] := by decide +kernel

end Duration

end Fleet
