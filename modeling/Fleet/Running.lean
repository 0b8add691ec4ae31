import Fleet.Daemon

/-!
# The daemon in time

A running daemon is a daemon, the time it has reached, and the two alarms that make it tick
and sweep by itself.  `advanceTo` lets time pass from deadline to deadline; at each of them
everything that is due runs before time goes on.
-/

namespace Fleet

/-- Work to be done again and again, `interval` after it was done last. -/
structure Alarm where
  interval : Duration
  due : Time

namespace Alarm

/-- The milliseconds from one ring to the next; the clock has no finer grain. -/
def period (interval : Duration) : Nat := max interval.millis 1

def after (now : Time) (interval : Duration) : Alarm := ⟨interval, now.after ⟨period interval⟩⟩

def rearm (now : Time) (a : Alarm) : Alarm := after now a.interval

end Alarm

structure Alarms where
  tick : Alarm
  sweep : Alarm

structure Running (σ R : Type) {ρ : Type} [CapacitySource σ ρ] where
  now : Time
  daemon : Daemon σ R
  /-- Missing while the daemon does nothing by itself. -/
  alarms : Option Alarms

namespace Running

variable {σ R ρ : Type} [CapacitySource σ ρ] [NodeRegistry R ρ] [Freeing σ ρ]

def settle (r : Running σ R) : Running σ R := { r with daemon := r.daemon.settle r.now }

def tickIfDue (r : Running σ R) : Running σ R :=
  match r.alarms with
  | none => r
  | some alarms =>
    if alarms.tick.due ≤ r.now then
      { r with
        daemon := (r.daemon.tick r.now).2
        alarms := some { alarms with tick := alarms.tick.rearm r.now } }
    else r

/-- A sweep that fails is left at that until the next one. -/
def sweepIfDue (r : Running σ R) : Running σ R :=
  match r.alarms with
  | none => r
  | some alarms =>
    if alarms.sweep.due ≤ r.now then
      { r with
        daemon := (r.daemon.sweep r.now r.now.seconds).2
        alarms := some { alarms with sweep := alarms.sweep.rearm r.now } }
    else r

/-- Do everything that is due at the time reached. -/
def work (r : Running σ R) : Running σ R := r.settle.tickIfDue.sweepIfDue.settle

theorem now_work (r : Running σ R) : r.work.now = r.now := by
  have h (r : Running σ R) : r.tickIfDue.now = r.now := by
    unfold tickIfDue
    split
    · rfl
    · split <;> rfl
  have h' (r : Running σ R) : r.sweepIfDue.now = r.now := by
    unfold sweepIfDue
    split
    · rfl
    · split <;> rfl
  simp [work, settle, h, h']

/-- The times at which something is due. -/
def deadlines (r : Running σ R) : List Time :=
  r.daemon.tasks.map (·.due) ++
    match r.alarms with
    | none => []
    | some alarms => [alarms.tick.due, alarms.sweep.due]

/-- The first time after now that something is due, but no later than `target`. -/
def next (target : Time) (r : Running σ R) : Time :=
  r.deadlines.foldl (fun t d => if r.now < d ∧ d < t then d else t) target

/-- Let time pass, but never by nothing. -/
def advanceTo (target : Time) (r : Running σ R) : Running σ R :=
  if r.now < target then
    let reached := max (r.now.millis + 1) (r.next target).millis
    advanceTo target { r with now := ⟨reached⟩ }.work
  else r
termination_by target.millis - r.now.millis
decreasing_by
  rw [now_work]
  have := Time.lt_iff.1 ‹_›
  simp only
  omega

def advance (d : Duration) (r : Running σ R) : Running σ R := r.advanceTo (r.now.after d)

/-- Set the alarms. -/
def start (tick sweep : Duration) (r : Running σ R) : Running σ R :=
  { r with alarms := some ⟨.after r.now tick, .after r.now sweep⟩ }

/-- Take the alarms away; what has been started still ends. -/
def stop (r : Running σ R) : Running σ R := { r with alarms := none }

end Running

end Fleet
