import Fleet.Node.Retention
import Mathlib.Data.List.DropRight

/-!
# Activity and retention

What a record says of a node after any number of reports, in terms of the reports alone.  Whether
a report finds the node idle (`ActivityReport.isIdle`) depends on it and on the executors of the
node, so a step of the idle clock is a step of `idleStart`, which reads the clock off the longest
run of idle reports at the end (`NodeRecord.idleSince_heard`).  What the policies say of the node
follows (`fresh_followsActivity`).
-/

namespace Fleet

/-- A report of the activity of a node. -/
structure ActivityReport where
  busy : UInt32
  pending : UInt32
  time : UInt64
  deriving DecidableEq

/-- The report finds a node of so many executors idle. -/
def ActivityReport.isIdle (executors : UInt32) (a : ActivityReport) : Bool :=
  min a.busy executors = 0 ∧ a.pending = 0

/-- Since when a node is idle after these reports that was idle from `start` on: since the first
report of the longest run of idle reports at the end. -/
def idleStart (executors : UInt32) (start : UInt64) (reports : List ActivityReport) :
    Option UInt64 :=
  if reports.all (·.isIdle executors) then some start
  else (reports.rtakeWhile (·.isIdle executors)).head?.map (·.time)

/-- Work stops the clock, and the next idle report starts it anew. -/
example : idleStart 2 1000 [⟨0, 0, 1100⟩, ⟨1, 0, 1200⟩, ⟨0, 0, 1300⟩, ⟨0, 0, 1400⟩] = some 1300 := by
  decide

theorem idleStart_of_idle {executors : UInt32} {start : UInt64} {reports : List ActivityReport}
    {a : ActivityReport} (h : a.isIdle executors = true) :
    idleStart executors start (reports ++ [a]) =
      some ((idleStart executors start reports).getD a.time) := by
  unfold idleStart
  rw [List.all_append, List.all_cons, h, List.all_nil, Bool.and_true, Bool.and_true,
    List.rtakeWhile_concat_pos _ _ _ h]
  by_cases hall : reports.all (·.isIdle executors) = true
  · rw [if_pos hall, if_pos hall]
    rfl
  · rw [if_neg hall, if_neg hall]
    cases reports.rtakeWhile (·.isIdle executors) <;> rfl

theorem idleStart_of_work {executors : UInt32} {start : UInt64} {reports : List ActivityReport}
    {a : ActivityReport} (h : a.isIdle executors = false) :
    idleStart executors start (reports ++ [a]) = none := by
  have hnot : ¬ (reports ++ [a]).all (·.isIdle executors) = true := by
    rw [List.all_append, List.all_cons, h, Bool.false_and, Bool.and_false]
    exact Bool.false_ne_true
  rw [idleStart, if_neg hnot, List.rtakeWhile_concat_neg _ _ _ (by simp [h])]
  rfl

namespace NodeRecord

variable {r : NodeRecord}

/-! ## One report -/

theorem isIdle_reportActivity (r : NodeRecord) (busy pending : UInt32) (time : UInt64) :
    (r.reportActivity busy pending time).isIdle =
      ActivityReport.isIdle r.executors ⟨busy, pending, time⟩ := by
  rw [Bool.eq_iff_iff]
  simp [isIdle, reportActivity, ActivityReport.isIdle]

theorem idleSince_reportActivity (r : NodeRecord) (busy pending : UInt32) (time : UInt64) :
    (r.reportActivity busy pending time).idleSince =
      if ActivityReport.isIdle r.executors ⟨busy, pending, time⟩ then
        some (r.idleSince.getD time)
      else none := by
  rw [← isIdle_reportActivity]
  rfl

/-! ## All reports -/

/-- The record after reports, the earliest first. -/
def heard (r : NodeRecord) (reports : List ActivityReport) : NodeRecord :=
  reports.foldl (fun r a => r.reportActivity a.busy a.pending a.time) r

theorem heard_concat (r : NodeRecord) (reports : List ActivityReport) (a : ActivityReport) :
    r.heard (reports ++ [a]) = (r.heard reports).reportActivity a.busy a.pending a.time := by
  rw [heard, List.foldl_append]
  rfl

/-- Reports leave alone what they do not count. -/
theorem heard_recounts (r : NodeRecord) (reports : List ActivityReport) :
    r.heard reports = { r with
      busyExecutors := (r.heard reports).busyExecutors
      pendingTasks := (r.heard reports).pendingTasks
      hasRunWork := (r.heard reports).hasRunWork
      idleSince := (r.heard reports).idleSince } := by
  induction reports using List.reverseRecOn with
  | nil => rfl
  | append_singleton reports a ih =>
    rw [heard_concat, reportActivity, ih]

theorem executors_heard (r : NodeRecord) (reports : List ActivityReport) :
    (r.heard reports).executors = r.executors := by
  rw [heard_recounts]

theorem idleSince_heard {start : UInt64} (h : r.idleSince = some start)
    (reports : List ActivityReport) :
    (r.heard reports).idleSince = idleStart r.executors start reports := by
  induction reports using List.reverseRecOn with
  | nil => exact h
  | append_singleton reports a ih =>
    rw [heard_concat, idleSince_reportActivity, executors_heard, ih]
    by_cases hidle : a.isIdle r.executors = true
    · rw [if_pos hidle, idleStart_of_idle hidle]
    · rw [if_neg hidle, idleStart_of_work (Bool.eq_false_iff.2 hidle)]

theorem isIdle_heard (h : r.isIdle = true) (reports : List ActivityReport) :
    (r.heard reports).isIdle = true ↔ ∀ a ∈ reports.getLast?, a.isIdle r.executors = true := by
  cases reports using List.reverseRecOn with
  | nil => simpa [heard] using h
  | append_singleton reports a =>
    rw [heard_concat, isIdle_reportActivity, executors_heard]
    simp

/-- A node is idle exactly if its clock runs. -/
theorem isSome_idleSince_heard {start : UInt64} (hr : r.isIdle = true)
    (h : r.idleSince = some start) (reports : List ActivityReport) :
    (r.heard reports).idleSince.isSome = (r.heard reports).isIdle := by
  cases reports using List.reverseRecOn with
  | nil =>
    rw [heard, List.foldl_nil, hr, h]
    rfl
  | append_singleton reports a =>
    rw [heard_concat, idleSince_reportActivity, isIdle_reportActivity]
    split
    · rename_i hidle
      rw [hidle]
      rfl
    · rename_i hidle
      rw [Bool.eq_false_iff.2 hidle]
      rfl

theorem hasRunWork_heard (r : NodeRecord) (reports : List ActivityReport) :
    (r.heard reports).hasRunWork = true ↔
      r.hasRunWork = true ∨ ∃ a ∈ reports, 0 < a.busy := by
  induction reports using List.reverseRecOn with
  | nil => simp [heard]
  | append_singleton reports a ih =>
    have hstep : (r.heard (reports ++ [a])).hasRunWork =
        ((r.heard reports).hasRunWork || a.busy > 0) := by
      rw [heard_concat]
      rfl
    rw [hstep, Bool.or_eq_true, ih, or_assoc]
    simp [or_comm]

/-- What the last report counts. -/
theorem counts_heard (r : NodeRecord) (reports : List ActivityReport) :
    (r.heard reports).busyExecutors =
        (reports.getLast?.map fun a => min a.busy r.executors).getD r.busyExecutors ∧
      (r.heard reports).pendingTasks = (reports.getLast?.map (·.pending)).getD r.pendingTasks := by
  cases reports using List.reverseRecOn with
  | nil => exact ⟨rfl, rfl⟩
  | append_singleton reports a =>
    rw [heard_concat, List.getLast?_concat, ← executors_heard r reports]
    exact ⟨rfl, rfl⟩

end NodeRecord

/-! ## Policies -/

theorem Policy.idleTimeout_removes (limit : Duration) (r : NodeRecord) (now : UInt64) :
    ((idleTimeout limit).check r now).isRemove = true ↔
      r.isIdle = true ∧ ∃ since, r.idleSince = some since ∧
        limit.seconds ≤ now.toNat - since.toNat := by
  unfold idleTimeout NodeRecord.idleFor
  cases hidle : r.isIdle with
  | false => simp [Decision.isRemove, hidle]
  | true =>
    cases hsince : r.idleSince with
    | none => simp [Decision.isRemove, hidle, hsince]
    | some since =>
      by_cases hlimit : limit.seconds ≤ now.toNat - since.toNat
      · simp [Decision.isRemove, hidle, hsince, hlimit]
      · simp [Decision.isRemove, hidle, hsince, hlimit]

theorem Policy.singleUse_removes (r : NodeRecord) (now : UInt64) :
    (singleUse.check r now).isRemove = true ↔ r.hasRunWork = true ∧ r.isIdle = true := by
  unfold singleUse
  by_cases hends : r.hasRunWork = true ∧ r.isIdle = true
  · simp [Decision.isRemove, hends]
  · simp [Decision.isRemove, hends]

/-- What reports make of a node that has been idle since `start`, and what the policies say of
it then. -/
structure FollowsActivity (old : NodeRecord) (start : UInt64) (reports : List ActivityReport)
    (r : NodeRecord) : Prop where
  clock : r.idleSince = idleStart old.executors start reports
  stopped : r.idleSince = none ↔ ∃ a ∈ reports.getLast?, a.isIdle old.executors = false
  busy : r.busyExecutors ≤ old.executors
  work : r.hasRunWork = true ↔ ∃ a ∈ reports, 0 < a.busy
  /-- Executors and tasks are counted by the last report, and nothing else changes. -/
  rest : r = { old with
    busyExecutors := (reports.getLast?.map fun a => min a.busy old.executors).getD 0
    pendingTasks := (reports.getLast?.map (·.pending)).getD 0
    hasRunWork := r.hasRunWork
    idleSince := r.idleSince }
  idleTimeout : ∀ limit now, ((Policy.idleTimeout limit).check r now).isRemove = true ↔
    ∃ since, idleStart old.executors start reports = some since ∧
      limit.seconds ≤ now.toNat - since.toNat
  singleUse : ∀ now, (Policy.singleUse.check r now).isRemove = true ↔
    (∃ a ∈ reports, 0 < a.busy) ∧ ∀ a ∈ reports.getLast?, a.isIdle old.executors = true
  always : ∀ now, (Policy.always.check r now).isRemove = false

/-- A fresh node follows its reports, however many there are and whatever their clocks say. -/
theorem fresh_followsActivity (id : NodeId) (source : String) (label : Option String)
    (executors : UInt32) (start : UInt64) (description : String)
    (reports : List ActivityReport) :
    let fresh := NodeRecord.fresh id source label executors start description
    FollowsActivity fresh start reports (fresh.heard reports) := by
  intro fresh
  have hclock := NodeRecord.idleSince_heard (r := fresh) rfl reports
  have hidle := NodeRecord.isIdle_heard (r := fresh) rfl reports
  have hruns := NodeRecord.isSome_idleSince_heard (r := fresh) rfl rfl reports
  have hwork : (fresh.heard reports).hasRunWork = true ↔ ∃ a ∈ reports, 0 < a.busy := by
    rw [NodeRecord.hasRunWork_heard]
    exact or_iff_right Bool.false_ne_true
  obtain ⟨hbusy, hpending⟩ := NodeRecord.counts_heard fresh reports
  constructor
  case clock => exact hclock
  case stopped =>
    rw [← Option.isNone_iff_eq_none, ← Option.not_isSome, hruns, Bool.not_eq_true',
      ← Bool.not_eq_true, hidle]
    simp
  case busy =>
    rw [hbusy]
    cases reports.getLast? with
    | none => exact UInt32.zero_le
    | some a => exact Std.min_le_right
  case work => exact hwork
  case rest =>
    rw [NodeRecord.heard_recounts, hbusy, hpending]
    rfl
  case idleTimeout =>
    intro limit now
    rw [Policy.idleTimeout_removes, ← hclock, ← hruns]
    constructor
    · exact fun h => h.2
    · rintro ⟨since, hsince, hlimit⟩
      exact ⟨by rw [hsince]; rfl, since, hsince, hlimit⟩
  case singleUse =>
    intro now
    rw [Policy.singleUse_removes, hwork, hidle]
  case always => exact fun _ => rfl

/-- Reports do change the number of tasks that wait for a node. -/
theorem pending_not_kept :
    ¬ ∀ (id : NodeId) (source : String) (label : Option String) (executors : UInt32)
      (start : UInt64) (description : String) (reports : List ActivityReport),
      let fresh := NodeRecord.fresh id source label executors start description
      let r := fresh.heard reports
      r = { fresh with
        busyExecutors := r.busyExecutors
        hasRunWork := r.hasRunWork
        idleSince := r.idleSince } := by
  intro h
  have hsame := congrArg NodeRecord.pendingTasks (h "n-1" "sim" none 2 1000 "" [⟨0, 3, 1010⟩])
  exact absurd hsame (by decide)

end Fleet
