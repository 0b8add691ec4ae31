import Fleet.Text.Blank
import Fleet.Text.Quoted

/-!
# Names of sources and labels of demand

A `SourceName` is a nonempty run of letters, digits, `_` and `-`, so it can stand in a path
and in a node's identity.  A `Label` is any text that is not blank; demand without a label
is untagged and written `none`.  Both are ordered by code point, untagged first.
-/

namespace Fleet

open Text

inductive NamingError where
  | invalidSource (name : String)
  | duplicateSource (name : String)
  | invalidLabel (label : String)
  deriving DecidableEq, Repr

def NamingError.message : NamingError → String
  | .invalidSource name => "invalid source name " ++ quoted name ++ ": expected [A-Za-z0-9_-]+"
  | .duplicateSource name => "duplicate source name: " ++ name
  | .invalidLabel label => "invalid label " ++ quoted label

def isNameChar (c : Char) : Bool :=
  ('A' ≤ c && c ≤ 'Z') || ('a' ≤ c && c ≤ 'z') || ('0' ≤ c && c ≤ '9') || c == '_' || c == '-'

def isSourceName (s : String) : Bool := s.toList.all isNameChar && !s.toList.isEmpty

structure SourceName where
  text : String
  valid : isSourceName text = true
  deriving DecidableEq

def SourceName.ofString (s : String) : Except NamingError SourceName :=
  if h : isSourceName s = true then .ok ⟨s, h⟩ else .error (.invalidSource s)

structure Label where
  text : String
  valid : isBlankText text = false
  deriving DecidableEq

def Label.ofString (s : String) : Except NamingError Label :=
  if h : isBlankText s = false then .ok ⟨s, h⟩ else .error (.invalidLabel s)

def Label.ofOption : Option String → Except NamingError (Option Label)
  | none => .ok none
  | some s => (Label.ofString s).map some

/-- How a message names the label of demand. -/
def Label.display : Option Label → String
  | none => "<untagged>"
  | some l => l.text

theorem SourceName.ext {a b : SourceName} (h : a.text = b.text) : a = b := by
  cases a; cases b; cases h; rfl

theorem Label.ext {a b : Label} (h : a.text = b.text) : a = b := by
  cases a; cases b; cases h; rfl

theorem SourceName.ofString_eq_ok_iff {s : String} {n : SourceName} :
    SourceName.ofString s = .ok n ↔ n.text = s := by
  unfold SourceName.ofString
  split
  · refine ⟨fun h => ?_, fun h => ?_⟩
    · cases h; rfl
    · cases h; rfl
  · rename_i hs
    refine ⟨fun h => (nomatch h), fun h => ?_⟩
    exact absurd (h ▸ n.valid) hs

theorem Label.ofString_eq_ok_iff {s : String} {l : Label} :
    Label.ofString s = .ok l ↔ l.text = s := by
  unfold Label.ofString
  split
  · refine ⟨fun h => ?_, fun h => ?_⟩
    · cases h; rfl
    · cases h; rfl
  · rename_i hs
    refine ⟨fun h => (nomatch h), fun h => ?_⟩
    exact absurd (h ▸ l.valid) hs

/-! ## Order -/

instance : Ord SourceName := ⟨compareOn SourceName.text⟩

instance : Std.TransOrd SourceName := inferInstanceAs (Std.TransCmp (compareOn SourceName.text))

instance : Std.LawfulEqOrd SourceName where
  eq_of_compare h := SourceName.ext (Std.LawfulEqOrd.eq_of_compare (α := String) h)

instance : Ord Label := ⟨compareOn Label.text⟩

instance : Std.TransOrd Label := inferInstanceAs (Std.TransCmp (compareOn Label.text))

instance : Std.LawfulEqOrd Label where
  eq_of_compare h := Label.ext (Std.LawfulEqOrd.eq_of_compare (α := String) h)

end Fleet
