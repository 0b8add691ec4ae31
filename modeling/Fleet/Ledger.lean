import Fleet.Name
import Fleet.Planned
import Fleet.SortedMap

/-!
# The ledger of promises

The executors promised by planned capacity that is still in flight, by source and label.
`promises` groups them by that key and never holds an empty group; `index` leads from a
planned id to its key.  An id that is tracked is not recorded again, and one that is not is
not resolved, so resolving twice subtracts a promise once.

Sums of promises are natural numbers here.  Where executors are counted in words of 32 bits they
are the same as long as they stay below 2 ^ 32; a greater sum wraps there or ends the program.
-/

namespace Fleet

/-- Whose promise it is, and for which label. -/
structure Account where
  source : SourceName
  label : Option Label
  deriving DecidableEq

namespace Account

instance : Ord Account := ⟨compareLex (compareOn source) (compareOn label)⟩

instance : Std.TransOrd Account :=
  inferInstanceAs (Std.TransCmp (compareLex (compareOn source) (compareOn label)))

instance : Std.LawfulEqOrd Account where
  eq_of_compare {a b} h := by
    obtain ⟨h1, h2⟩ := Ordering.then_eq_eq.1 h
    cases a; cases b
    cases Std.LawfulEqOrd.eq_of_compare (α := SourceName) h1
    cases Std.LawfulEqOrd.eq_of_compare (α := Option Label) h2
    rfl

end Account

/-- What the ledger shows of one account. -/
structure LedgerEntry where
  account : Account
  promised : Nat
  outstanding : Nat

abbrev Promises := SortedMap PlannedId Nat

def Promises.total (p : Promises) : Nat := p.values.foldr (· + ·) 0

structure Ledger where
  promises : SortedMap Account Promises
  index : SortedMap PlannedId Account

namespace Ledger

def empty : Ledger := ⟨.empty, .empty⟩

def contains (l : Ledger) (id : PlannedId) : Bool := l.index.contains id

def record (l : Ledger) (account : Account) (id : PlannedId) (executors : Nat) : Ledger :=
  if l.contains id then l
  else
    let group := (l.promises.get? account).getD .empty
    { promises := l.promises.insert account (group.insert id executors)
      index := l.index.insert id account }

/-- Clear a promise; answers the executors it was for, or `none` if it is not tracked. -/
def resolve (l : Ledger) (id : PlannedId) : Option Nat × Ledger :=
  match l.index.get? id with
  | none => (none, l)
  | some account =>
    let index := l.index.erase id
    match l.promises.get? account with
    | none => (none, { l with index })
    | some group =>
      let rest := group.erase id
      let promises :=
        if rest.isEmpty then l.promises.erase account else l.promises.insert account rest
      (group.get? id, { promises, index })

def promised (l : Ledger) (account : Account) : Nat :=
  ((l.promises.get? account).map Promises.total).getD 0

/-- The executors promised for a label by all sources. -/
def promisedForLabel (l : Ledger) (label : Option Label) : Nat :=
  let groups := l.promises.entries.filter fun e => e.1.label == label
  (groups.map fun e => e.2.total).foldr (· + ·) 0

def outstanding (l : Ledger) : Nat := l.index.size

/-- The accounts with promises in flight, by source and then label. -/
def entries (l : Ledger) : List LedgerEntry :=
  l.promises.entries.map fun e => ⟨e.1, e.2.total, e.2.size⟩

end Ledger

def LedgerEntry.toJson (e : LedgerEntry) : Json := .object [
  ("source", .text e.account.source.text),
  ("label", .ofOption (fun l : Label => .text l.text) e.account.label),
  ("promised_executors", .number e.promised),
  ("outstanding", .number e.outstanding)]

end Fleet
