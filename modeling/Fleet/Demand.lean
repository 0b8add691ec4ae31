import Fleet.Duration
import Fleet.Json.Reader
import Fleet.Name
import Fleet.Script
import Fleet.SortedMap

/-!
# Demand

Executors that labels are short of.  The `Board` is the table that the outside sets; an
average over samples (`Smoothing`) damps it.  A `Signal` is what the provisioner samples once
a tick.
-/

namespace Fleet

structure Demand where
  label : Option Label
  excess : Nat
  deriving DecidableEq

namespace Demand

def labelShape : Shape := .text fun s => !Text.isBlankText s

def shape : Shape := .record [
  ("label", .optional, .nullable labelShape),
  ("excess", .required, .number countLimit)]

def toJson (d : Demand) : Json := .object [
  ("label", .ofOption (fun l : Label => .text l.text) d.label),
  ("excess", .number d.excess)]

/-- The demand of each label that is short of executors, untagged first. -/
structure Board where
  excess : SortedMap (Option Label) Nat

namespace Board

def empty : Board := ⟨.empty⟩

/-- Set a label's excess; none at all clears the label. -/
def set (b : Board) (label : Option Label) (excess : Nat) : Board :=
  if excess = 0 then ⟨b.excess.erase label⟩ else ⟨b.excess.insert label excess⟩

def clear (_ : Board) : Board := empty

def sample (b : Board) : List Demand := b.excess.entries.map fun e => ⟨e.1, e.2⟩

end Board

/-! ## Smoothing -/

/-- A moving average per label: `decay` of the old average and the rest of the sample. -/
structure Smoothing where
  decay : Float
  averages : SortedMap (Option Label) Float

namespace Smoothing

/-- The decay lies between 0 and 0.99. -/
def start (decay : Float) : Smoothing :=
  let decay := if decay < 0.0 then 0.0 else decay
  let decay := if decay > 0.99 then 0.99 else decay
  ⟨decay, .empty⟩

def mix (decay average : Float) (sample : Nat) : Float :=
  decay * average + (1.0 - decay) * sample.toFloat

/-- The nearest whole number of executors, halves up, within the range of counts. -/
def wholeExcess (average : Float) : Nat := average.round.toUInt32.toNat

/-- An average that has decayed below this is forgotten. -/
def isRemembered (average : Float) : Bool := average ≥ 0.01

/-- Average in one sample; of several entries for a label the last one counts. -/
def sample (s : Smoothing) (raw : List Demand) : List Demand × Smoothing :=
  let current : SortedMap (Option Label) Nat := .ofList (raw.map fun d => (d.label, d.excess))
  let known := current.keys.foldl
    (fun m label => if m.contains label then m else m.insert label 0.0) s.averages
  let updated := known.filterMap fun label average =>
    some (mix s.decay average ((current.get? label).getD 0))
  let out := updated.entries.filterMap fun e =>
    if 0 < wholeExcess e.2 then some ⟨e.1, wholeExcess e.2⟩ else none
  (out, { s with averages := updated.filterMap fun _ average =>
    if isRemembered average then some average else none })

end Smoothing

/-! ## Signals -/

/-- Where the demand of a tick comes from: the board unless a script is given, averaged if
there is smoothing. -/
structure Signal where
  script : Option (Script (List Demand))
  smoothing : Option Smoothing

namespace Signal

def board : Signal := ⟨none, none⟩

def sample (s : Signal) (b : Board) : List Demand × Signal :=
  let (raw, script) := match s.script with
    | none => (b.sample, none)
    | some script => (script.next?.1.getD [], some script.next?.2)
  match s.smoothing with
  | none => (raw, { s with script })
  | some smoothing =>
    let (out, smoothing) := smoothing.sample raw
    (out, ⟨script, some smoothing⟩)

end Signal

end Demand

end Fleet
