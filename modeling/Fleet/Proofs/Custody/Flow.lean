import Fleet.Proofs.Custody.Moment
import Fleet.Proofs.Registry

/-!
# Where release handles are

A release handle that has been handed over lies in one of four places (`Place`): in a
completion that has not been read, with a registered node, in a task that will free it, or it
has been freed.  It only ever moves on, from a completion to the registry or to a task, from
the registry to a task, and by running a task (`Place.Move`).  `Flow` accounts for all handles
at once, given what has arrived in between: flows can be put together (`Flow.trans`), lose
nothing (`Flow.total`), and leave each handle where it was or further on (`Flow.origin`).
-/

namespace Fleet

/-! ## Places -/

inductive Place where
  /-- The unread completion of the capacity with this id, in flight or abandoned. -/
  | completion (id : PlannedId)
  /-- With the registered node of this id. -/
  | registry (id : NodeId)
  /-- In a task that has been started. -/
  | task
  | released

namespace Place

/-- The ways that a handle may go. -/
inductive Move : Place → Place → Prop where
  | register (id : PlannedId) (node : NodeId) : Move (completion id) (registry node)
  | turnAway (id : PlannedId) : Move (completion id) task
  | detach (node : NodeId) : Move (registry node) task
  | free : Move task released

abbrev LeadsTo : Place → Place → Prop := Relation.ReflTransGen Move

end Place

/-- The handles by the place where they are. -/
structure Places (ρ : Type) where
  unread : Multiset (PlannedId × ρ)
  held : Multiset (NodeId × ρ)
  tasked : Multiset ρ
  released : Multiset ρ

namespace Places

variable {ρ : Type}

/-- All handles, each with its place. -/
def inventory (p : Places ρ) : Multiset (Place × ρ) :=
  p.unread.map (fun e => (.completion e.1, e.2)) + p.held.map (fun e => (.registry e.1, e.2)) +
    p.tasked.map (fun h => (.task, h)) + p.released.map fun h => (.released, h)

/-- All handles, wherever they are. -/
def total (p : Places ρ) : Multiset ρ := p.inventory.map Prod.snd

theorem total_eq (p : Places ρ) :
    p.total = p.unread.map Prod.snd + p.held.map Prod.snd + p.tasked + p.released := by
  simp only [total, inventory, Multiset.map_add, Multiset.map_map, Function.comp_def,
    Multiset.map_id']

variable {p : Places ρ} {h : ρ}

theorem mem_completion {id : PlannedId} :
    (Place.completion id, h) ∈ p.inventory ↔ (id, h) ∈ p.unread := by
  simp [inventory]

theorem mem_registry {id : NodeId} :
    (Place.registry id, h) ∈ p.inventory ↔ (id, h) ∈ p.held := by
  simp [inventory]

theorem mem_task : (Place.task, h) ∈ p.inventory ↔ h ∈ p.tasked := by
  simp [inventory]

theorem mem_released : (Place.released, h) ∈ p.inventory ↔ h ∈ p.released := by
  simp [inventory]

end Places

/-! ## Flows -/

/-- Handles have moved on from `p` to `q`, where `arrived` have come to completions.
`returned` are those freed by their creators, for whom nobody waited. -/
def Flow {ρ : Type} (p q : Places ρ) (arrived : Multiset (PlannedId × ρ))
    (returned : Multiset ρ) : Prop :=
  ∃ (read : Multiset (PlannedId × ρ)) (registered detached : Multiset (NodeId × ρ))
    (turnedAway freed : Multiset ρ),
    q.unread + read = p.unread + arrived ∧
      read.map Prod.snd = registered.map Prod.snd + turnedAway ∧
      q.held + detached = p.held + registered ∧
      q.tasked + freed = p.tasked + turnedAway + detached.map Prod.snd ∧
      q.released = p.released + freed + returned

namespace Flow

variable {ρ : Type} {p q s : Places ρ} {arrived arrived' : Multiset (PlannedId × ρ)}
  {returned returned' : Multiset ρ}

theorem refl (p : Places ρ) : Flow p p 0 0 :=
  ⟨0, 0, 0, 0, 0, rfl, rfl, rfl, by simp, by simp⟩

/-- Handles come to completions. -/
theorem arrive (hu : q.unread = p.unread + arrived) (hh : q.held = p.held)
    (ht : q.tasked = p.tasked) (hr : q.released = p.released) : Flow p q arrived 0 := by
  refine ⟨0, 0, 0, 0, 0, ?_, rfl, ?_, ?_, ?_⟩
  · rw [hu, add_zero]
  · rw [hh]
  · rw [ht, Multiset.map_zero, add_zero, add_zero]
  · rw [hr, add_zero, add_zero]

/-- Completions are read. -/
theorem read {read : Multiset (PlannedId × ρ)} {registered : Multiset (NodeId × ρ)}
    {turnedAway : Multiset ρ} (hu : q.unread + read = p.unread)
    (hread : read.map Prod.snd = registered.map Prod.snd + turnedAway)
    (hh : q.held = p.held + registered) (ht : q.tasked = p.tasked + turnedAway)
    (hr : q.released = p.released) : Flow p q 0 0 := by
  refine ⟨read, registered, 0, turnedAway, 0, ?_, hread, ?_, ?_, ?_⟩
  · rw [hu, add_zero]
  · rw [hh, add_zero]
  · rw [ht, Multiset.map_zero, add_zero]
  · rw [hr, add_zero, add_zero]

/-- Nodes are taken out. -/
theorem detach {detached : Multiset (NodeId × ρ)} (hu : q.unread = p.unread)
    (hh : p.held = detached + q.held) (ht : q.tasked = p.tasked + detached.map Prod.snd)
    (hr : q.released = p.released) : Flow p q 0 0 := by
  refine ⟨0, 0, detached, 0, 0, ?_, rfl, ?_, ?_, ?_⟩
  · rw [hu]
  · rw [hh, add_zero, add_comm]
  · rw [ht, add_zero, add_zero]
  · rw [hr, add_zero, add_zero]

/-- Handles are freed. -/
theorem free (freed : Multiset ρ) (hu : q.unread = p.unread) (hh : q.held = p.held)
    (ht : p.tasked = freed + q.tasked) (hr : q.released = p.released + (freed + returned)) :
    Flow p q 0 returned := by
  refine ⟨0, 0, 0, 0, freed, ?_, rfl, ?_, ?_, ?_⟩
  · rw [hu]
  · rw [hh]
  · rw [ht, Multiset.map_zero, add_zero, add_zero, add_comm]
  · rw [hr, add_assoc]

theorem trans (h : Flow p q arrived returned) (h' : Flow q s arrived' returned') :
    Flow p s (arrived + arrived') (returned + returned') := by
  obtain ⟨l, r, d, t, f, hu, hl, hh, ht, hr⟩ := h
  obtain ⟨l', r', d', t', f', hu', hl', hh', ht', hr'⟩ := h'
  refine ⟨l + l', r + r', d + d', t + t', f + f', ?_, ?_, ?_, ?_, ?_⟩
  · calc s.unread + (l + l') = s.unread + l' + l := by abel
      _ = q.unread + l + arrived' := by rw [hu']; abel
      _ = p.unread + (arrived + arrived') := by rw [hu]; abel
  · rw [Multiset.map_add, Multiset.map_add, hl, hl']
    abel
  · calc s.held + (d + d') = s.held + d' + d := by abel
      _ = q.held + d + r' := by rw [hh']; abel
      _ = p.held + (r + r') := by rw [hh]; abel
  · rw [Multiset.map_add]
    calc s.tasked + (f + f') = s.tasked + f' + f := by abel
      _ = q.tasked + f + t' + d'.map Prod.snd := by rw [ht']; abel
      _ = p.tasked + (t + t') + (d.map Prod.snd + d'.map Prod.snd) := by rw [ht]; abel
  · rw [hr', hr]
    abel

/-- No handle is lost, and none is there twice. -/
theorem total (h : Flow p q arrived returned) :
    q.total = p.total + arrived.map Prod.snd + returned := by
  obtain ⟨l, r, d, t, f, hu, hl, hh, ht, hr⟩ := h
  have hu' := congrArg (Multiset.map Prod.snd) hu
  have hh' := congrArg (Multiset.map Prod.snd) hh
  rw [Multiset.map_add, Multiset.map_add] at hu' hh'
  -- what is on the way is on both sides
  refine add_right_cancel (b := l.map Prod.snd + d.map Prod.snd + f) ?_
  rw [Places.total_eq, Places.total_eq]
  calc q.unread.map Prod.snd + q.held.map Prod.snd + q.tasked + q.released +
        (l.map Prod.snd + d.map Prod.snd + f)
      = q.unread.map Prod.snd + l.map Prod.snd + (q.held.map Prod.snd + d.map Prod.snd) +
          (q.tasked + f) + q.released := by abel
    _ = p.unread.map Prod.snd + p.held.map Prod.snd + p.tasked + p.released +
          arrived.map Prod.snd + returned + (l.map Prod.snd + d.map Prod.snd + f) := by
        rw [hu', hh', ht, hr, hl]
        abel

/-- Where a handle is that has not arrived in between, it has been or has come from. -/
theorem origin (hf : Flow p q arrived returned) {h : ρ} (ha : h ∉ arrived.map Prod.snd)
    (hr : h ∉ returned) {next : Place} (hq : (next, h) ∈ q.inventory) :
    ∃ place : Place, place.LeadsTo next ∧ (place, h) ∈ p.inventory := by
  obtain ⟨l, r, d, t, f, hu, hl, hh, ht, hf⟩ := hf
  have hcompletion {id : PlannedId} (hid : (id, h) ∈ q.unread + l) :
      (Place.completion id, h) ∈ p.inventory := by
    rw [hu, Multiset.mem_add] at hid
    rcases hid with hid | hid
    · exact Places.mem_completion.2 hid
    · exact absurd (Multiset.mem_map_of_mem Prod.snd hid) ha
  have hread (hread : h ∈ l.map Prod.snd) :
      ∃ id : PlannedId, (Place.completion id, h) ∈ p.inventory := by
    obtain ⟨⟨id, _⟩, hid, rfl⟩ := Multiset.mem_map.1 hread
    exact ⟨id, hcompletion (Multiset.mem_add.2 (.inr hid))⟩
  have hregistry {node : NodeId} (hnode : (node, h) ∈ q.held + d) :
      ∃ place : Place, place.LeadsTo (.registry node) ∧ (place, h) ∈ p.inventory := by
    rw [hh, Multiset.mem_add] at hnode
    rcases hnode with hnode | hnode
    · exact ⟨_, .refl, Places.mem_registry.2 hnode⟩
    · have hsnd : h ∈ r.map Prod.snd + t :=
        Multiset.mem_add.2 (.inl (Multiset.mem_map_of_mem Prod.snd hnode))
      obtain ⟨id, hid⟩ := hread (hl ▸ hsnd)
      exact ⟨_, .single (.register id node), hid⟩
  have htask (htask : h ∈ q.tasked + f) :
      ∃ place : Place, place.LeadsTo .task ∧ (place, h) ∈ p.inventory := by
    rw [ht, Multiset.mem_add, Multiset.mem_add] at htask
    rcases htask with (htask | htask) | htask
    · exact ⟨_, .refl, Places.mem_task.2 htask⟩
    · obtain ⟨id, hid⟩ := hread (hl ▸ Multiset.mem_add.2 (.inr htask))
      exact ⟨_, .single (.turnAway id), hid⟩
    · obtain ⟨⟨node, _⟩, hnode, rfl⟩ := Multiset.mem_map.1 htask
      obtain ⟨place, hlead, hplace⟩ := hregistry (Multiset.mem_add.2 (.inr hnode))
      exact ⟨place, hlead.tail (.detach node), hplace⟩
  cases next with
  | completion id =>
    exact ⟨_, .refl, hcompletion (Multiset.mem_add.2 (.inl (Places.mem_completion.1 hq)))⟩
  | registry node => exact hregistry (Multiset.mem_add.2 (.inl (Places.mem_registry.1 hq)))
  | task => exact htask (Multiset.mem_add.2 (.inl (Places.mem_task.1 hq)))
  | released =>
    have hq' := Places.mem_released.1 hq
    rw [hf, Multiset.mem_add, Multiset.mem_add] at hq'
    rcases hq' with (hq' | hq') | hq'
    · exact ⟨_, .refl, Places.mem_released.2 hq'⟩
    · obtain ⟨place, hlead, hplace⟩ := htask (Multiset.mem_add.2 (.inr hq'))
      exact ⟨place, hlead.tail .free, hplace⟩
    · exact absurd hq' hr

end Flow

/-! ## Handles of a moment -/

section Handles

variable {ρ : Type}

/-- The handle that an unread completion carries. -/
def Completion.handle? : Completion ρ → Option ρ
  | unread (.ok node) => node.release
  | _ => none

/-- The handle that a task will free; one that is booting has not been handed over. -/
def Task.handle? : Task ρ → Option ρ
  | boot _ _ => none
  | reclaim node => node.release
  | removal _ r => r.node.release

/-- The handles in unread completions, each with the id of its capacity. -/
def handlesOf (cs : List (PlannedId × Completion ρ)) : Multiset (PlannedId × ρ) :=
  ((cs.filterMap fun c => c.2.handle?.map (c.1, ·) : List (PlannedId × ρ)) :
    Multiset (PlannedId × ρ))

theorem handlesOf_append (cs cs' : List (PlannedId × Completion ρ)) :
    handlesOf (cs ++ cs') = handlesOf cs + handlesOf cs' := by
  rw [handlesOf, List.filterMap_append, ← Multiset.coe_add]
  rfl

theorem handlesOf_cons (c : PlannedId × Completion ρ) (cs : List (PlannedId × Completion ρ)) :
    handlesOf (c :: cs) = tagged c.1 c.2.handle? + handlesOf cs := by
  rw [← List.singleton_append, handlesOf_append]
  cases hc : c.2.handle? <;> simp [handlesOf, tagged, hc]

theorem handlesOf_singleton (c : PlannedId × Completion ρ) :
    handlesOf [c] = tagged c.1 c.2.handle? :=
  (handlesOf_cons c []).trans (add_zero _)

theorem handlesOf_perm {cs cs' : List (PlannedId × Completion ρ)} (h : cs.Perm cs') :
    handlesOf cs = handlesOf cs' :=
  Multiset.coe_eq_coe.2 (h.filterMap _)

/-- The handles that tasks will free. -/
def Scheduled.handlesOf (ts : List (Scheduled ρ)) : Multiset ρ :=
  ((ts.filterMap (·.task.handle?) : List ρ) : Multiset ρ)

theorem Scheduled.handlesOf_append (ts ts' : List (Scheduled ρ)) :
    handlesOf (ts ++ ts') = handlesOf ts + handlesOf ts' := by
  rw [handlesOf, List.filterMap_append, ← Multiset.coe_add]
  rfl

end Handles

namespace Moment

variable {σ ρ : Type} [CapacitySource σ ρ]

def places (m : Moment σ) : Places ρ where
  unread := handlesOf m.watched
  held := m.daemon.registry.held
  tasked := Scheduled.handlesOf m.daemon.tasks
  released := (m.daemon.journal.released : Multiset ρ)

/-! ## Arrivals -/

/-- The handle that a result hands over if somebody waits for it. -/
def accepted (m : Moment σ) (id : PlannedId) (result : CompletionResult ρ) :
    Multiset (PlannedId × ρ) :=
  if m.awaits id then tagged id (Completion.unread result).handle? else 0

/-- The handles that an act hands over to capacity that is polled. -/
def delivered (m : Moment σ) : Act σ → Multiset (PlannedId × ρ)
  | .deliver id result => m.accepted id result
  | .perform now place =>
    match m.daemon.tasks[place]?.map Scheduled.task with
    | some (.boot id node) => m.accepted id (.ok (booted now node))
    | _ => 0
  | _ => 0

/-- The handle of a node that came up when nobody waited for it any more. -/
def returned (m : Moment σ) : Act σ → Multiset ρ
  | .perform _ place =>
    match m.daemon.tasks[place]?.map Scheduled.task with
    | some (.boot id node) => if m.awaits id then 0 else (node.release.toList : Multiset ρ)
    | _ => 0
  | _ => 0

variable [Freeing σ ρ]

/-- The handles of new capacity that sources gave away already resolved. -/
def prompt (m : Moment σ) (a : Act σ) : Multiset (PlannedId × ρ) :=
  handlesOf ((m.step a).watched.filter fun c => decide (m.daemon.loop.nextId ≤ c.1))

/-- The handles that come to capacity that is polled in the course of a run. -/
def arrivals (m : Moment σ) : List (Act σ) → Multiset (PlannedId × ρ)
  | [] => 0
  | a :: as => m.delivered a + m.prompt a + (m.step a).arrivals as

/-- The handles that are freed by their creators in the course of a run. -/
def returns (m : Moment σ) : List (Act σ) → Multiset ρ
  | [] => 0
  | a :: as => m.returned a + (m.step a).returns as

end Moment

end Fleet
