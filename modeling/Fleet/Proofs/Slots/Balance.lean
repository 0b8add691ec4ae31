import Fleet.Proofs.Slots.Acts

/-!
# Slots in balance

A slot that a simulated source counts is that of a node which is booting, which has come up and
is unread, which is registered, or whose handle is yet to be freed.  `Moment.Balanced` says so
in a form that each deed keeps (`Deed.balanced`): together with the handles that have been
freed, the slots are as many as the nodes that boot and the handles there are.  Since a handle
that is freed is one of these, its source counts one slot at least, and no release fails
(`Balanced.freed?_task`).
-/

namespace Fleet

/-! ## Counting slots -/

/-- How many of the handles give back a slot of this source. -/
def slotsOf (n : SourceName) (handles : Multiset ReleaseHandle) : Nat :=
  handles.countP fun h => h.isSlotOf n = true

section Counting

variable (n : SourceName)

theorem slotsOf_add (hs hs' : Multiset ReleaseHandle) :
    slotsOf n (hs + hs') = slotsOf n hs + slotsOf n hs' := Multiset.countP_add ..

theorem slotsOf_toList (release : Option ReleaseHandle) :
    slotsOf n (release.toList : Multiset ReleaseHandle) =
      if release.any (·.isSlotOf n) then 1 else 0 := by
  cases release with
  | none => rfl
  | some h =>
    have hone := Multiset.countP_cons (fun h : ReleaseHandle => h.isSlotOf n = true) h 0
    rwa [Multiset.countP_zero, zero_add] at hone

end Counting

/-- How many of the nodes that boot hold a slot of this source. -/
def bootsOf (n : SourceName) (bs : List (PlannedId × RealizedNode ReleaseHandle)) : Nat :=
  bs.countP fun b => b.2.holdsSlotOf n

theorem bootsOf_toList (n : SourceName)
    (woken : Option (PlannedId × RealizedNode ReleaseHandle)) :
    bootsOf n woken.toList =
      slotsOf n ((woken.bind (·.2.release)).toList : Multiset ReleaseHandle) := by
  rw [slotsOf_toList]
  cases woken with
  | none => rfl
  | some b => simp only [bootsOf, Option.toList_some, List.countP_singleton, Option.bind_some,
      RealizedNode.holdsSlotOf]

/-- A handle that gives back a slot of a source in the set. -/
def SourceSet.Issues (set : SourceSet Source) (h : ReleaseHandle) : Prop :=
  ∃ n ∈ set.names, ∃ node, h = .slot n node

/-- A node of a source in the set. -/
def SourceSet.Owns (set : SourceSet Source) (node : RealizedNode ReleaseHandle) : Prop :=
  ∃ n ∈ set.names, node.Of n

theorem SourceSet.Owns.issues {set : SourceSet Source} {node : RealizedNode ReleaseHandle}
    (h : set.Owns node) {handle : ReleaseHandle} (hr : handle ∈ node.release) :
    set.Issues handle := by
  obtain ⟨n, hn, hof⟩ := h
  rw [hof.release] at hr
  cases hr
  exact ⟨n, hn, _, rfl⟩

namespace SourceSet.Continues

variable {set set' : SourceSet Source}

theorem issues (h : set.Continues set') {handle : ReleaseHandle} (hh : set.Issues handle) :
    set'.Issues handle := by
  rwa [Issues, h.names]

theorem owns (h : set.Continues set') {node : RealizedNode ReleaseHandle} (hn : set.Owns node) :
    set'.Owns node := by
  rwa [Owns, h.names]

end SourceSet.Continues

/-! ## Balanced moments -/

namespace Moment

/-- How many slots of this source are held by nodes that are booting. -/
def sleeping (m : Moment Source) (n : SourceName) : Nat := bootsOf n m.booting

/-- Every slot that is counted is held by a node or by a handle that is yet to be freed. -/
structure Balanced (m : Moment Source) : Prop where
  booting : ∀ b ∈ m.booting, m.daemon.loop.sources.Owns b.2
  handles : ∀ h ∈ m.places.total, m.daemon.loop.sources.Issues h
  counted : ∀ n s, m.daemon.loop.sources.simulated? n = some s →
    s.nodeCount + slotsOf n m.places.released = m.sleeping n + slotsOf n m.places.total
  limit : ∀ n s, m.daemon.loop.sources.simulated? n = some s → s.nodeCount ≤ s.maxNodes

theorem released_moves {m m' : Moment Source} {came freed : Option ReleaseHandle}
    (h : m.Moves m' came freed) (n : SourceName) :
    slotsOf n m'.places.released =
      slotsOf n m.places.released + if freed.any (·.isSlotOf n) then 1 else 0 := by
  rw [← slotsOf_toList, ← slotsOf_add]
  show slotsOf n (m'.daemon.journal.released : Multiset ReleaseHandle) =
    slotsOf n ((m.daemon.journal.released : Multiset ReleaseHandle) + _)
  rw [h.released, ← Multiset.coe_add]

theorem slotsOf_released_le (m : Moment Source) (n : SourceName) :
    slotsOf n m.places.released ≤ slotsOf n m.places.total := by
  rw [Places.total_eq, slotsOf_add]
  exact Nat.le_add_left _ _

namespace Balanced

variable {m : Moment Source}

/-- The slots of a source by where they are. -/
theorem split (h : m.Balanced) {n : SourceName} {s : SimulatedSource}
    (hs : m.daemon.loop.sources.simulated? n = some s) :
    s.nodeCount = m.sleeping n + slotsOf n (m.places.unread.map Prod.snd) +
      slotsOf n (m.places.held.map Prod.snd) + slotsOf n m.places.tasked := by
  have hcounted := h.counted n s hs
  rw [Places.total_eq, slotsOf_add, slotsOf_add, slotsOf_add] at hcounted
  omega

end Balanced

/-! ## Deeds keep the balance -/

namespace Deed

variable {m m' : Moment Source} {entered created : List NodeId}

theorem booting_owned (hd : Deed m m' entered created) (h : m.Balanced) :
    ∀ b ∈ m'.booting, m'.daemon.loop.sources.Owns b.2 := by
  intro b hb
  refine hd.continues.owns ?_
  cases hd with
  | looks _ _ _ _ _ _ _ booting _ _ => exact h.booting b (booting ▸ hb)
  | @hires new boots _ booting awaits known _ _ _ =>
    rw [booting] at hb
    rcases List.mem_append.1 hb with hb | hb
    · exact h.booting b hb
    · obtain ⟨started, hstarted, rfl⟩ := List.mem_map.1 hb
      exact of_awaits awaits known _ (List.mem_map_of_mem hstarted)
  | wakes _ booting _ _ _ _ => exact h.booting b (booting.mem_iff.2 (List.mem_cons_of_mem _ hb))
  | frees _ _ booting _ _ _ _ =>
    exact h.booting b (booting.mem_iff.2 (List.mem_append_right _ hb))

/-- A handle that comes is that of a node which was booting. -/
theorem handles_issued (hd : Deed m m' entered created) (h : m.Balanced) :
    ∀ handle ∈ m'.places.total, m'.daemon.loop.sources.Issues handle := by
  intro handle hh
  refine hd.continues.issues ?_
  cases hd with
  | looks _ _ _ _ _ _ _ _ _ moves => exact h.handles handle (moves.total_eq ▸ hh)
  | hires _ _ _ _ _ _ moves => exact h.handles handle (moves.total_eq ▸ hh)
  | @wakes id node _ booting _ _ _ moves =>
    rw [moves.total, Multiset.mem_add, Multiset.mem_coe, Option.mem_toList] at hh
    have hnode : (id, node) ∈ m.booting := booting.mem_iff.2 List.mem_cons_self
    exact hh.elim (h.handles handle) (h.booting _ hnode).issues
  | frees _ woken booting _ _ _ moves =>
    rw [moves.total, Multiset.mem_add, Multiset.mem_coe, Option.mem_toList,
      Option.bind_eq_some_iff] at hh
    rcases hh with hh | ⟨b, hb, hr⟩
    · exact h.handles handle hh
    · have hmem : b ∈ m.booting :=
        booting.mem_iff.2 (List.mem_append_left _ (Option.mem_toList.2 hb))
      exact (h.booting b hmem).issues hr

theorem counted (hd : Deed m m' entered created) (hsim : m.daemon.loop.sources.Simulated)
    (h : m.Balanced) {n : SourceName} {s' : SimulatedSource}
    (hs' : m'.daemon.loop.sources.simulated? n = some s') :
    s'.nodeCount + slotsOf n m'.places.released = m'.sleeping n + slotsOf n m'.places.total := by
  cases hd with
  | looks _ _ _ _ _ _ _ booting sources moves =>
    rw [sources] at hs'
    rw [released_moves moves, moves.total_eq, sleeping, booting]
    exact h.counted n s' hs'
  | @hires new boots _ booting _ _ _ grants moves =>
    obtain ⟨s, hs, hg⟩ := grants.exists_before hsim hs'
    have hcounted := h.counted n s hs
    have hsleeping : m'.sleeping n = m.sleeping n +
        ((boots.map (·.2.node)).filter (·.holdsSlotOf n)).length := by
      rw [sleeping, booting, bootsOf, List.countP_append, List.countP_map,
        ← List.countP_eq_length_filter, List.countP_map]
      rfl
    rw [released_moves moves, moves.total_eq, hsleeping, hg.counted]
    simp only [Option.any_none, Bool.false_eq_true, if_false]
    omega
  | @wakes id node _ booting _ _ sources moves =>
    rw [sources] at hs'
    have hcounted := h.counted n s' hs'
    have hsleeping : m.sleeping n =
        m'.sleeping n + slotsOf n (node.release.toList : Multiset ReleaseHandle) := by
      rw [sleeping, bootsOf, booting.countP_eq, List.countP_cons, slotsOf_toList]
      rfl
    rw [released_moves moves, moves.total, slotsOf_add]
    simp only [Option.any_none, Bool.false_eq_true, if_false]
    omega
  | frees release woken booting _ _ sources moves =>
    rw [sources] at hs'
    obtain ⟨s, hs, rfl⟩ := SourceSet.exists_before_freeing hsim hs'
    have hcounted := h.counted n s hs
    have hsleeping : m.sleeping n = m'.sleeping n +
        slotsOf n ((woken.bind (·.2.release)).toList : Multiset ReleaseHandle) := by
      rw [sleeping, bootsOf, booting.countP_eq, List.countP_append, ← bootsOf_toList, add_comm]
      rfl
    -- the handle is one of those there are, so the source counts a slot for it
    have hle := m'.slotsOf_released_le n
    rw [released_moves moves, moves.total, slotsOf_add] at hle ⊢
    dsimp only
    omega

theorem limit (hd : Deed m m' entered created) (hsim : m.daemon.loop.sources.Simulated)
    (h : m.Balanced) {n : SourceName} {s' : SimulatedSource}
    (hs' : m'.daemon.loop.sources.simulated? n = some s') : s'.nodeCount ≤ s'.maxNodes := by
  cases hd with
  | looks _ _ _ _ _ _ _ _ sources _ => exact h.limit n s' (sources ▸ hs')
  | hires _ _ _ _ _ grants _ =>
    obtain ⟨s, hs, hg⟩ := grants.exists_before hsim hs'
    have hlimit := hg.limit (h.limit n s hs)
    rw [hg.counted] at hlimit ⊢
    exact hlimit
  | wakes _ _ _ _ sources _ => exact h.limit n s' (sources ▸ hs')
  | frees release _ _ _ _ sources _ =>
    rw [sources] at hs'
    obtain ⟨s, hs, rfl⟩ := SourceSet.exists_before_freeing hsim hs'
    exact (Nat.sub_le _ _).trans (h.limit n s hs)

theorem balanced (hd : Deed m m' entered created) (hsim : m.daemon.loop.sources.Simulated)
    (h : m.Balanced) : m'.Balanced where
  booting := hd.booting_owned h
  handles := hd.handles_issued h
  counted _ _ hs := hd.counted hsim h hs
  limit _ _ hs := hd.limit hsim h hs

end Deed

/-! ## Releases -/

namespace Balanced

variable {m : Moment Source}

/-- A handle that is with a task, or of a node that is booting, can be freed. -/
theorem freed?_of_pos (h : m.Balanced) (hsim : m.daemon.loop.sources.Simulated)
    {handle : ReleaseHandle} (hissues : m.daemon.loop.sources.Issues handle)
    (hpos : ∀ n, handle.isSlotOf n = true → 0 < m.sleeping n + slotsOf n m.places.tasked) :
    m.daemon.loop.sources.freed? (some handle) = some (.ok ()) := by
  obtain ⟨n, hn, node, rfl⟩ := hissues
  obtain ⟨s, hs, -⟩ := hsim n hn
  have hsplit := h.split hs
  have hone := hpos n (decide_eq_true rfl)
  exact SourceSet.freed?_slot hs (by omega) node

theorem freed?_task (h : m.Balanced) (hsim : m.daemon.loop.sources.Simulated)
    {t : Scheduled ReleaseHandle} (ht : t ∈ m.daemon.tasks) {handle : ReleaseHandle}
    (hh : t.task.handle? = some handle) :
    m.daemon.loop.sources.freed? (some handle) = some (.ok ()) := by
  have htasked : handle ∈ m.places.tasked := Multiset.mem_coe.2 (List.mem_filterMap.2 ⟨t, ht, hh⟩)
  have htotal : handle ∈ m.places.total := by
    rw [Places.total_eq]
    exact Multiset.mem_add.2 (.inl (Multiset.mem_add.2 (.inr htasked)))
  refine h.freed?_of_pos hsim (h.handles handle htotal) fun n hn => ?_
  exact Nat.add_pos_right _ (Multiset.countP_pos.2 ⟨handle, htasked, hn⟩)

theorem freed?_booting (h : m.Balanced) (hsim : m.daemon.loop.sources.Simulated)
    {b : PlannedId × RealizedNode ReleaseHandle} (hb : b ∈ m.booting) :
    m.daemon.loop.sources.freed? b.2.release = some (.ok ()) := by
  obtain ⟨n, hn, hof⟩ := h.booting b hb
  rw [hof.release]
  refine h.freed?_of_pos hsim ⟨n, hn, _, rfl⟩ fun n' hn' => ?_
  refine Nat.add_pos_left (List.countP_pos_iff.2 ⟨b, hb, ?_⟩) _
  rw [RealizedNode.holdsSlotOf, hof.release]
  exact hn'

end Balanced

end Moment

end Fleet
