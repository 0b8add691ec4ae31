import Fleet.Duration

/-!
# Points in time

A point in time is a number of milliseconds since the epoch; records hold whole seconds.
-/

namespace Fleet

structure Time where
  millis : Nat
  deriving DecidableEq, Repr, Inhabited

namespace Time

instance : LE Time := ⟨fun a b => a.millis ≤ b.millis⟩

instance : LT Time := ⟨fun a b => a.millis < b.millis⟩

instance (a b : Time) : Decidable (a ≤ b) := inferInstanceAs (Decidable (a.millis ≤ b.millis))

instance (a b : Time) : Decidable (a < b) := inferInstanceAs (Decidable (a.millis < b.millis))

theorem lt_iff {a b : Time} : a < b ↔ a.millis < b.millis := .rfl

def after (t : Time) (d : Duration) : Time := ⟨t.millis + d.millis⟩

/-- The time that was `d` ago; nothing was before the epoch. -/
def before (t : Time) (d : Duration) : Time := ⟨t.millis - d.millis⟩

/-- How long ago `earlier` was, nothing if it is still to come. -/
def since (t earlier : Time) : Duration := ⟨t.millis - earlier.millis⟩

/-- The whole seconds since the epoch. -/
def seconds (t : Time) : UInt64 := UInt64.ofNat (t.millis / 1000)

end Time

end Fleet
