import Fleet.Running
import Mathlib.Data.List.Range

/-!
# A running daemon from millisecond to millisecond

A running daemon goes from deadline to deadline.  It comes to what it would come to if it went
from millisecond to millisecond and did in each what is due then: a tick at every multiple of one
period since the alarms were set, a sweep at every multiple of the other, and each task in its
time (`Daemon.beat`).  That is so whatever is done to the daemon in between
(`Running.foldl_play`), since an alarm always stands at the next multiple of its period
(`Running.OnTime`).
-/

namespace Fleet

/-! ## Rings -/

namespace Alarm

/-- The first multiple of the period after `n`. -/
def ring (interval : Duration) (n : Nat) : Nat := (n / period interval + 1) * period interval

variable (interval : Duration) {n m : Nat}

theorem period_pos : 0 < period interval := Nat.lt_of_lt_of_le Nat.one_pos (Nat.le_max_right _ _)

theorem lt_ring (n : Nat) : n < ring interval n := by
  rw [ring, Nat.add_one_mul, Nat.mul_comm]
  exact Nat.lt_mul_div_succ n (period_pos interval)

theorem ring_zero : ring interval 0 = period interval := by
  rw [ring, Nat.zero_div, Nat.zero_add, Nat.one_mul]

theorem div_of_lt_ring (hnm : n ≤ m) (hm : m < ring interval n) :
    m / period interval = n / period interval :=
  Nat.le_antisymm (Nat.lt_succ_iff.1 ((Nat.div_lt_iff_lt_mul (period_pos interval)).2 hm))
    (Nat.div_le_div_right hnm)

/-- Until it rings an alarm stands where it stood. -/
theorem ring_of_lt (hnm : n ≤ m) (hm : m < ring interval n) :
    ring interval m = ring interval n := by
  rw [ring, ring, div_of_lt_ring interval hnm hm]

theorem dvd_ring (n : Nat) : period interval ∣ ring interval n := Nat.dvd_mul_left _ _

theorem ring_of_dvd (h : period interval ∣ n) : ring interval n = n + period interval := by
  rw [ring, Nat.add_one_mul, Nat.div_mul_cancel h]

/-- On the way to the next ring only the ring itself is a multiple of the period. -/
theorem dvd_iff_eq_ring (hnm : n < m) (hm : m ≤ ring interval n) :
    period interval ∣ m ↔ m = ring interval n := by
  refine ⟨fun hdvd => Nat.le_antisymm hm (Nat.not_lt.1 fun hlt => ?_), fun h => h ▸ dvd_ring ..⟩
  have hdiv := div_of_lt_ring interval (Nat.le_of_lt hnm) hlt
  have hle : n / period interval * period interval ≤ n := Nat.div_mul_le_self n _
  rw [← hdiv, Nat.div_mul_cancel hdvd] at hle
  exact Nat.not_le.2 hnm hle

end Alarm

/-! ## What is due in a millisecond -/

section

variable {σ R ρ : Type} [CapacitySource σ ρ] [NodeRegistry R ρ] [Freeing σ ρ]

namespace Daemon

/-- What a daemon does when `n` milliseconds have passed since its alarms were set: the tasks run
that are due, it ticks at the multiples of one period and sweeps at those of the other, and what
these have started runs if it is due at once. -/
def beat (tick sweep : Duration) (start : Time) (n : Nat) (d : Daemon σ R) : Daemon σ R :=
  let now := start.after ⟨n⟩
  let d := d.settle now
  let d := if Alarm.period tick ∣ n then (d.tick now).2 else d
  let d := if Alarm.period sweep ∣ n then (d.sweep now now.seconds).2 else d
  d.settle now

/-- What it does in the next `k` milliseconds when `n` have passed. -/
def beats (tick sweep : Duration) (start : Time) (n k : Nat) (d : Daemon σ R) : Daemon σ R :=
  (List.range' (n + 1) k).foldl (fun d i => d.beat tick sweep start i) d

theorem beats_add (tick sweep : Duration) (start : Time) (n k l : Nat) (d : Daemon σ R) :
    d.beats tick sweep start n (k + l) =
      (d.beats tick sweep start n k).beats tick sweep start (n + k) l := by
  rw [beats, beats, beats, ← List.foldl_append, Nat.add_right_comm n k 1, List.range'_append_1]

theorem tasks_run (now : Time) (t : Task ρ) (d : Daemon σ R) : (d.run now t).tasks = d.tasks := by
  have hfree (release : Option ρ) (d : Daemon σ R) : (d.freeNode release).2.tasks = d.tasks := by
    cases release <;> rfl
  cases t with
  | boot id node =>
    unfold run runBoot
    dsimp only
    split
    · rename_i heq
      exact (congrArg (fun x => x.2.tasks) heq).symm
    · rename_i heq
      exact (hfree _ _).trans (congrArg (fun x => x.2.tasks) heq).symm
  | reclaim node =>
    unfold run runReclaim
    dsimp only
    split
    · rename_i heq
      exact (congrArg (fun x => x.2.tasks) heq).symm.trans (hfree _ _)
    · rename_i heq
      exact (congrArg (fun x => x.2.tasks) heq).symm.trans (hfree _ _)
  | removal ticket removal =>
    exact hfree _ _

/-- Nothing that is due is left when a daemon has settled. -/
theorem lt_due_settle (now : Time) (d : Daemon σ R) :
    ∀ t ∈ (d.settle now).tasks, now < t.due := by
  have hfold (ts : List (Scheduled ρ)) (d : Daemon σ R) :
      (ts.foldl (fun d t => d.run now t.task) d).tasks = d.tasks := by
    induction ts generalizing d with
    | nil => rfl
    | cons t ts ih => exact (ih _).trans (tasks_run now t.task d)
  intro t ht
  rw [settle, List.partition_eq_filter_filter] at ht
  dsimp only at ht
  rw [hfold, List.mem_filter] at ht
  have hlate : ¬ t.due ≤ now := by simpa using ht.2
  exact Nat.not_le.1 hlate

theorem settle_of_lt_due {now : Time} {d : Daemon σ R} (h : ∀ t ∈ d.tasks, now < t.due) :
    d.settle now = d := by
  have hdue : d.tasks.filter (fun t => decide (t.due ≤ now)) = [] :=
    List.filter_eq_nil_iff.2 fun t ht hle => Nat.not_le.2 (h t ht) (of_decide_eq_true hle)
  have hwait : d.tasks.filter (not ∘ fun t => decide (t.due ≤ now)) = d.tasks :=
    List.filter_eq_self.2 fun t ht => by
      have hlate : ¬ t.due ≤ now := Nat.not_le.2 (h t ht)
      rw [Function.comp_apply, decide_eq_false hlate]
      rfl
  rw [settle, List.partition_eq_filter_filter, hdue, hwait]
  rfl

theorem beats_of_idle {tick sweep : Duration} {start : Time} {n k : Nat} {d : Daemon σ R}
    (h : ∀ i, n < i → i ≤ n + k → d.beat tick sweep start i = d) :
    d.beats tick sweep start n k = d := by
  induction k with
  | zero => rfl
  | succ k ih =>
    rw [beats_add, ih fun i hni hik => h i hni (Nat.le_succ_of_le hik)]
    exact h (n + k + 1) (Nat.lt_succ_of_le (Nat.le_add_right n k)) (Nat.le_refl _)

/-- In a millisecond in which nothing is due nothing is done. -/
theorem beat_of_idle {tick sweep : Duration} {start : Time} {n : Nat} {d : Daemon σ R}
    (htasks : ∀ t ∈ d.tasks, start.after ⟨n⟩ < t.due) (htick : ¬ Alarm.period tick ∣ n)
    (hsweep : ¬ Alarm.period sweep ∣ n) : d.beat tick sweep start n = d := by
  rw [beat, settle_of_lt_due htasks, if_neg htick, if_neg hsweep, settle_of_lt_due htasks]

end Daemon

/-! ## From deadline to deadline -/

namespace Running

/-- When `n` milliseconds have passed since the alarms were set: each of them stands at the next
multiple of its period, and no task is overdue. -/
structure OnTime (tick sweep : Duration) (start : Time) (n : Nat) (r : Running σ R) : Prop where
  now : r.now = start.after ⟨n⟩
  alarms : r.alarms = some
    ⟨⟨tick, start.after ⟨Alarm.ring tick n⟩⟩, ⟨sweep, start.after ⟨Alarm.ring sweep n⟩⟩⟩
  tasks : ∀ t ∈ r.daemon.tasks, r.now < t.due

omit [NodeRegistry R ρ] [Freeing σ ρ] in
theorem onTime_start (tick sweep : Duration) (start : Time) {d : Daemon σ R}
    (h : ∀ t ∈ d.tasks, start < t.due) :
    OnTime tick sweep start 0 ((⟨start, d, none⟩ : Running σ R).start tick sweep) where
  now := rfl
  alarms := by
    rw [Alarm.ring_zero, Alarm.ring_zero]
    rfl
  tasks := h

variable {tick sweep : Duration} {start : Time} {n : Nat} {r : Running σ R}

variable {m : Nat}

/-- An alarm that rings stands at its next ring. -/
theorem rearm_eq {interval : Duration} (h : Alarm.period interval ∣ m) (due : Time) :
    Alarm.rearm (start.after ⟨m⟩) ⟨interval, due⟩ =
      ⟨interval, start.after ⟨Alarm.ring interval m⟩⟩ := by
  rw [Alarm.ring_of_dvd interval h]
  show (⟨interval, ⟨start.millis + m + Alarm.period interval⟩⟩ : Alarm) = _
  rw [Nat.add_assoc]
  rfl

/-- A time that no ring precedes is the ring or before it. -/
theorem due_le_iff {interval : Duration} (hnm : n < m) (hm : m ≤ Alarm.ring interval n) :
    start.after ⟨Alarm.ring interval n⟩ ≤ start.after ⟨m⟩ ↔ Alarm.period interval ∣ m := by
  rw [Alarm.dvd_iff_eq_ring interval hnm hm]
  show start.millis + Alarm.ring interval n ≤ start.millis + m ↔ _
  omega

theorem ring_of_not_dvd {interval : Duration} (hnm : n < m) (hm : m ≤ Alarm.ring interval n)
    (h : ¬ Alarm.period interval ∣ m) : Alarm.ring interval n = Alarm.ring interval m := by
  rw [Alarm.dvd_iff_eq_ring interval hnm hm] at h
  exact (Alarm.ring_of_lt interval (Nat.le_of_lt hnm) (Nat.lt_of_le_of_ne hm h)).symm

theorem tickIfDue_eq (hnm : n < m) (hm : m ≤ Alarm.ring tick n) (d : Daemon σ R) (a : Alarm) :
    (⟨start.after ⟨m⟩, d, some ⟨⟨tick, start.after ⟨Alarm.ring tick n⟩⟩, a⟩⟩ :
        Running σ R).tickIfDue =
      ⟨start.after ⟨m⟩,
        if Alarm.period tick ∣ m then (d.tick (start.after ⟨m⟩)).2 else d,
        some ⟨⟨tick, start.after ⟨Alarm.ring tick m⟩⟩, a⟩⟩ := by
  unfold tickIfDue
  by_cases h : Alarm.period tick ∣ m
  · simp only [if_pos ((due_le_iff hnm hm).2 h), if_pos h, rearm_eq h]
  · simp only [if_neg (mt (due_le_iff hnm hm).1 h), if_neg h]
    rw [ring_of_not_dvd hnm hm h]

theorem sweepIfDue_eq (hnm : n < m) (hm : m ≤ Alarm.ring sweep n) (d : Daemon σ R) (a : Alarm) :
    (⟨start.after ⟨m⟩, d, some ⟨a, ⟨sweep, start.after ⟨Alarm.ring sweep n⟩⟩⟩⟩ :
        Running σ R).sweepIfDue =
      ⟨start.after ⟨m⟩,
        if Alarm.period sweep ∣ m then
          (d.sweep (start.after ⟨m⟩) (start.after ⟨m⟩).seconds).2 else d,
        some ⟨a, ⟨sweep, start.after ⟨Alarm.ring sweep m⟩⟩⟩⟩ := by
  unfold sweepIfDue
  by_cases h : Alarm.period sweep ∣ m
  · simp only [if_pos ((due_le_iff hnm hm).2 h), if_pos h, rearm_eq h]
  · simp only [if_neg (mt (due_le_iff hnm hm).1 h), if_neg h]
    rw [ring_of_not_dvd hnm hm h]

/-- The work at a time that no ring precedes is that of its millisecond. -/
theorem OnTime.work (h : r.OnTime tick sweep start n) (hnm : n < m)
    (htick : m ≤ Alarm.ring tick n) (hsweep : m ≤ Alarm.ring sweep n) :
    ({ r with now := start.after ⟨m⟩ } : Running σ R).work.OnTime tick sweep start m ∧
      ({ r with now := start.after ⟨m⟩ } : Running σ R).work.daemon =
        r.daemon.beat tick sweep start m := by
  have hwork : ({ r with now := start.after ⟨m⟩ } : Running σ R).work =
      ⟨start.after ⟨m⟩, r.daemon.beat tick sweep start m, some
        ⟨⟨tick, start.after ⟨Alarm.ring tick m⟩⟩, ⟨sweep, start.after ⟨Alarm.ring sweep m⟩⟩⟩⟩ := by
    obtain ⟨now, d, alarms⟩ := r
    cases h.alarms
    show (((⟨start.after ⟨m⟩, d.settle (start.after ⟨m⟩), some ⟨_, _⟩⟩ :
      Running σ R).tickIfDue).sweepIfDue).settle = _
    rw [tickIfDue_eq hnm htick, sweepIfDue_eq hnm hsweep]
    rfl
  rw [hwork]
  exact ⟨⟨rfl, rfl, Daemon.lt_due_settle _ _⟩, rfl⟩

/-- The first deadline after now that is up to the target is what time goes to next. -/
theorem foldl_next_spec (now target : Time) (ds : List Time) (h : now < target) :
    let t := ds.foldl (fun t d => if now < d ∧ d < t then d else t) target
    now < t ∧ t ≤ target ∧ ∀ d ∈ ds, now < d → t ≤ d := by
  induction ds generalizing target with
  | nil => exact ⟨h, Nat.le_refl _, nofun⟩
  | cons d ds ih =>
    rw [List.foldl_cons]
    by_cases hd : now < d ∧ d < target
    · rw [if_pos hd]
      obtain ⟨hlt, hle, hmin⟩ := ih d hd.1
      refine ⟨hlt, Nat.le_trans hle (Nat.le_of_lt hd.2), ?_⟩
      rw [List.forall_mem_cons]
      exact ⟨fun _ => hle, hmin⟩
    · rw [if_neg hd]
      obtain ⟨hlt, hle, hmin⟩ := ih target h
      refine ⟨hlt, hle, ?_⟩
      rw [List.forall_mem_cons]
      refine ⟨fun hnow => Nat.le_trans hle (Nat.not_lt.1 fun hdt => hd ⟨hnow, hdt⟩), hmin⟩

/-- Time goes on to the next deadline, and nothing was due on the way. -/
theorem OnTime.reach (h : r.OnTime tick sweep start n) {k : Nat} (hk : 0 < k) :
    ∃ j l, k = j + 1 + l ∧
      max (r.now.millis + 1) (r.next (start.after ⟨n + k⟩)).millis = start.millis + (n + j + 1) ∧
      n + j + 1 ≤ Alarm.ring tick n ∧ n + j + 1 ≤ Alarm.ring sweep n ∧
      r.daemon.beats tick sweep start n j = r.daemon := by
  have hnow : r.now.millis = start.millis + n := congrArg Time.millis h.now
  have hlt : r.now < start.after ⟨n + k⟩ := by
    show r.now.millis < start.millis + (n + k)
    omega
  obtain ⟨hnext, hle, hfirst⟩ := foldl_next_spec r.now (start.after ⟨n + k⟩) r.deadlines hlt
  change r.now.millis < (r.next (start.after ⟨n + k⟩)).millis at hnext
  change (r.next (start.after ⟨n + k⟩)).millis ≤ start.millis + (n + k) at hle
  have hring (interval : Duration) (hmem : start.after ⟨Alarm.ring interval n⟩ ∈ r.deadlines) :
      (r.next (start.after ⟨n + k⟩)).millis ≤ start.millis + Alarm.ring interval n := by
    refine hfirst _ hmem ?_
    show r.now.millis < start.millis + Alarm.ring interval n
    have := Alarm.lt_ring interval n
    omega
  have htick := hring tick (by simp [deadlines, h.alarms])
  have hsweep := hring sweep (by simp [deadlines, h.alarms])
  have htasks : ∀ t ∈ r.daemon.tasks, (r.next (start.after ⟨n + k⟩)).millis ≤ t.due.millis :=
    fun t ht => hfirst t.due (List.mem_append_left _ (List.mem_map_of_mem ht)) (h.tasks t ht)
  generalize (r.next (start.after ⟨n + k⟩)).millis = reached at *
  obtain ⟨j, rfl⟩ : ∃ j, reached = start.millis + (n + j + 1) :=
    ⟨reached - start.millis - n - 1, by omega⟩
  refine ⟨j, k - j - 1, by omega, by omega, by omega, by omega,
    Daemon.beats_of_idle fun i hni hij => Daemon.beat_of_idle (fun t ht => ?_) ?_ ?_⟩
  · have := htasks t ht
    show start.millis + i < t.due.millis
    omega
  · rw [Alarm.dvd_iff_eq_ring tick hni (by omega)]
    omega
  · rw [Alarm.dvd_iff_eq_ring sweep hni (by omega)]
    omega

/-- Letting time pass is going on from millisecond to millisecond. -/
theorem OnTime.advanceTo (h : r.OnTime tick sweep start n) (k : Nat) :
    (r.advanceTo (start.after ⟨n + k⟩)).OnTime tick sweep start (n + k) ∧
      (r.advanceTo (start.after ⟨n + k⟩)).daemon = r.daemon.beats tick sweep start n k := by
  induction k using Nat.strong_induction_on generalizing n r with
  | _ k ih =>
  have hlt : r.now < start.after ⟨n + k⟩ ↔ 0 < k := by
    rw [h.now]
    show start.millis + n < start.millis + (n + k) ↔ _
    omega
  rw [Running.advanceTo]
  by_cases hk : 0 < k
  · obtain ⟨j, l, rfl, hreached, htick, hsweep, hidle⟩ := h.reach hk
    obtain ⟨hwork, hdaemon⟩ := h.work (Nat.lt_succ_of_le (Nat.le_add_right n j)) htick hsweep
    obtain ⟨hlater, hbeats⟩ := ih l (by omega) hwork
    have hsum : n + j + 1 + l = n + (j + 1 + l) := by omega
    rw [hsum] at hlater hbeats
    rw [if_pos (hlt.2 hk), hreached]
    refine ⟨hlater, hbeats.trans ?_⟩
    rw [hdaemon, Daemon.beats_add, Daemon.beats_add, hidle]
    rfl
  · obtain rfl : k = 0 := Nat.eq_zero_of_not_pos hk
    rw [if_neg (mt hlt.1 hk)]
    exact ⟨h, rfl⟩

/-! ## Calls in between -/

/-- What comes next for a running daemon: time passes, or something is done to it, and what that
has made due at once runs. -/
inductive Turn (σ R : Type) {ρ : Type} [CapacitySource σ ρ] where
  | pass (d : Duration)
  | call (f : Daemon σ R → Daemon σ R)

def play (r : Running σ R) : Turn σ R → Running σ R
  | .pass d => r.advance d
  | .call f => ({ r with daemon := f r.daemon } : Running σ R).settle

end Running

/-- The same for a daemon whose alarms were set at `start`, and the milliseconds since then. -/
def Daemon.live (tick sweep : Duration) (start : Time) (past : Nat × Daemon σ R) :
    Running.Turn σ R → Nat × Daemon σ R
  | .pass d => (past.1 + d.millis, past.2.beats tick sweep start past.1 d.millis)
  | .call f => (past.1, (f past.2).settle (start.after ⟨past.1⟩))

namespace Running

variable {tick sweep : Duration} {start : Time} {n : Nat} {r : Running σ R}

theorem OnTime.play (h : r.OnTime tick sweep start n) (turn : Turn σ R) :
    (r.play turn).OnTime tick sweep start (Daemon.live tick sweep start (n, r.daemon) turn).1 ∧
      (r.play turn).daemon = (Daemon.live tick sweep start (n, r.daemon) turn).2 := by
  cases turn with
  | pass d =>
    have hadvance : r.play (.pass d) = r.advanceTo (start.after ⟨n + d.millis⟩) := by
      show r.advanceTo (r.now.after d) = _
      rw [h.now]
      exact congrArg r.advanceTo (congrArg Time.mk (Nat.add_assoc _ _ _))
    rw [hadvance]
    exact h.advanceTo d.millis
  | call f =>
    refine ⟨⟨h.now, h.alarms, Daemon.lt_due_settle _ _⟩, ?_⟩
    show (f r.daemon).settle r.now = _
    rw [h.now]
    rfl

/-- From the setting of the alarms on a daemon does in each millisecond what is due then, whatever
is done to it in between. -/
theorem foldl_play (tick sweep : Duration) (start : Time) {d : Daemon σ R}
    (h : ∀ t ∈ d.tasks, start < t.due) (turns : List (Turn σ R)) :
    let r := turns.foldl play ((⟨start, d, none⟩ : Running σ R).start tick sweep)
    let past := turns.foldl (Daemon.live tick sweep start) (0, d)
    r.now = start.after ⟨past.1⟩ ∧ r.daemon = past.2 := by
  have hturns (turns : List (Turn σ R)) {n : Nat} {r : Running σ R}
      (h : r.OnTime tick sweep start n) :
      (turns.foldl play r).OnTime tick sweep start
          (turns.foldl (Daemon.live tick sweep start) (n, r.daemon)).1 ∧
        (turns.foldl play r).daemon =
          (turns.foldl (Daemon.live tick sweep start) (n, r.daemon)).2 := by
    induction turns generalizing n r with
    | nil => exact ⟨h, rfl⟩
    | cons turn turns ih =>
      obtain ⟨hplay, hdaemon⟩ := h.play turn
      have hrest := ih hplay
      rw [hdaemon] at hrest
      exact hrest
  obtain ⟨hlast, hdaemon⟩ := hturns turns (onTime_start tick sweep start h)
  exact ⟨hlast.now, hdaemon⟩

end Running

end

end Fleet
