import Fleet.Event
import Mathlib.Data.List.DropRight
import Mathlib.Data.List.Induction

/-!
# The latest events

A history forgets an event only when it holds exactly as many as it may, so all rests on that it
never holds more.  As long as it does not, what it holds after more events are the latest of these
and of those it held before (`History.emitAll_eq`).  Since clearing leaves nothing of the past, a
history holds the latest of the events since then (`History.keeps_latest`).
-/

namespace Fleet

/-- What is not among the last items is not missed when more items follow. -/
theorem rtake_rtake_append {α : Type} (n : Nat) (xs ys : List α) :
    (xs.rtake n ++ ys).rtake n = (xs ++ ys).rtake n := by
  simp only [List.rtake_eq_reverse_take_reverse, List.reverse_append, List.reverse_reverse,
    List.take_append, List.take_take]
  rw [Nat.min_eq_left (Nat.sub_le _ _)]

theorem rtake_of_length_le {α : Type} {n : Nat} {xs : List α} (h : xs.length ≤ n) :
    xs.rtake n = xs := by
  rw [List.rtake, Nat.sub_eq_zero_of_le h, List.drop_zero]

theorem length_rtake {α : Type} (n : Nat) (xs : List α) :
    (xs.rtake n).length = min n xs.length := by
  rw [List.rtake, List.length_drop]
  omega

namespace History

/-! ## Emitting -/

variable {h : History}

theorem emit_eq (hle : h.events.length ≤ h.capacity) (e : Event) :
    h.emit e = { h with events := (h.events ++ [e]).rtake h.capacity } := by
  obtain ⟨capacity, events⟩ := h
  cases capacity with
  | zero =>
    obtain rfl := List.eq_nil_of_length_eq_zero (Nat.le_zero.1 hle)
    rfl
  | succ c =>
    rw [List.rtake_concat_succ, emit, if_neg c.succ_ne_zero]
    split
    case isTrue hfull => rw [List.rtake, hfull, Nat.add_sub_cancel_left]
    case isFalse hfree =>
      rw [rtake_of_length_le (Nat.le_of_lt_succ (Nat.lt_of_le_of_ne hle hfree))]

theorem emitAll_eq (hle : h.events.length ≤ h.capacity) (es : List Event) :
    h.emitAll es = { h with events := (h.events ++ es).rtake h.capacity } := by
  induction es generalizing h with
  | nil => rw [List.append_nil, rtake_of_length_le hle]; rfl
  | cons e es ih =>
    have hbound : ((h.events ++ [e]).rtake h.capacity).length ≤ h.capacity :=
      (length_rtake _ _).trans_le (Nat.min_le_left _ _)
    rw [emitAll, List.foldl_cons, ← emitAll, emit_eq hle, ih hbound, rtake_rtake_append,
      List.append_assoc, List.singleton_append]

/-! ## Emitting and clearing -/

inductive Act where
  | emit (e : Event)
  | clear

def Act.event? : Act → Option Event
  | emit e => some e
  | clear => none

def act (h : History) : Act → History
  | .emit e => h.emit e
  | .clear => h.clear

/-- Acts in turn. -/
def run (h : History) (acts : List Act) : History := acts.foldl act h

/-- The events that were emitted since the history was last cleared, all if it never was. -/
def told (acts : List Act) : List Event :=
  (acts.rtakeWhile (·.event?.isSome)).filterMap Act.event?

theorem told_concat_emit (acts : List Act) (e : Event) :
    told (acts ++ [.emit e]) = told acts ++ [e] := by
  rw [told, List.rtakeWhile_concat_pos _ _ _ rfl, List.filterMap_append]
  rfl

theorem told_concat_clear (acts : List Act) : told (acts ++ [.clear]) = [] := by
  rw [told, List.rtakeWhile_concat_neg _ _ _ (by decide)]
  rfl

theorem run_concat (h : History) (acts : List Act) (a : Act) :
    h.run (acts ++ [a]) = (h.run acts).act a :=
  List.foldl_concat _ _ _ _

/-- Nothing is left of the time before a history was last cleared. -/
theorem run_empty (capacity : Nat) (acts : List Act) :
    (empty capacity).run acts = (empty capacity).emitAll (told acts) := by
  have hcapacity (es : List Event) : ((empty capacity).emitAll es).capacity = capacity := by
    rw [emitAll_eq (Nat.zero_le _)]
    rfl
  induction acts using List.reverseRecOn with
  | nil => rfl
  | append_singleton acts a ih =>
    rw [run_concat, ih]
    cases a with
    | emit e =>
      rw [told_concat_emit, emitAll, emitAll, List.foldl_append]
      rfl
    | clear =>
      rw [told_concat_clear, act, clear, hcapacity]
      rfl

/-- After any events and clearings a history holds the latest events since it was last cleared, as
many as it may hold or all there are, in the order in which they were emitted. -/
theorem keeps_latest (capacity : Nat) (acts : List Act) :
    let events := ((empty capacity).run acts).events
    events = (told acts).rtake (min capacity (told acts).length) ∧
      events.length = min capacity (told acts).length ∧
      events.length ≤ capacity ∧
      events <:+ told acts := by
  intro events
  have hevents : events = (told acts).rtake capacity := by
    show ((empty capacity).run acts).events = _
    rw [run_empty, emitAll_eq (Nat.zero_le _)]
    rfl
  have hlength : events.length = min capacity (told acts).length := by
    rw [hevents, length_rtake]
  refine ⟨?_, hlength, hlength.trans_le (Nat.min_le_left _ _), hevents ▸ List.drop_suffix _ _⟩
  rw [hevents, List.rtake, List.rtake]
  congr 1
  omega

end History

end Fleet
