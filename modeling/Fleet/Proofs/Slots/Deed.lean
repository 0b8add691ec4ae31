import Fleet.Proofs.Node.Course
import Fleet.Proofs.Slots.Hiring

/-!
# Deeds

What an act of a daemon can do to the capacity that is polled, the nodes that boot, the accounts
of simulated sources and the handles is one of four deeds (`Moment.Deed`): it looks at capacity,
asks sources for more, lets a node come up that is awaited, or frees a handle.  What is to be
shown of slots and of node ids is shown of the deeds.  None of them changes a source but in what
it counts (`Deed.continues`).
-/

namespace Fleet

variable {σ ρ : Type} [CapacitySource σ ρ]

/-! ## Charges -/

/-- Capacity that is polled: the source that it is charged to, its id and its completion. -/
abbrev Charge (ρ : Type) := SourceName × PlannedId × Completion ρ

/-- The node that has come up and has not been read. -/
def Completion.node? : Completion ρ → Option (RealizedNode ρ)
  | unread (.ok node) => some node
  | _ => none

theorem Completion.node?_eq_some_iff {c : Completion ρ} {node : RealizedNode ρ} :
    c.node? = some node ↔ c = .unread (.ok node) := by
  cases c with
  | unread result => cases result <;> simp [node?]
  | _ => simp [node?]

namespace Charge

/-- The nodes of charges that have come up. -/
def nodes (cs : List (Charge ρ)) : List (RealizedNode ρ) := cs.filterMap (·.2.2.node?)

def resolved (id : PlannedId) (result : CompletionResult ρ) (c : Charge ρ) : Charge ρ :=
  (c.1, resolveAt id result c.2)

theorem resolved_of_eq {id : PlannedId} {c : Charge ρ} (h : c.2.1 = id)
    (result : CompletionResult ρ) : resolved id result c = (c.1, c.2.1, c.2.2.resolved result) := by
  rw [resolved, resolveAt, if_pos h]

theorem resolved_of_ne {id : PlannedId} {c : Charge ρ} (h : c.2.1 ≠ id)
    (result : CompletionResult ρ) : resolved id result c = c := by
  rw [resolved, resolveAt, if_neg h]

end Charge

def Outstanding.charge (o : Outstanding ρ) : Charge ρ := (o.account.source, o.watched)

def Abandoned.charge (a : Abandoned ρ) : Charge ρ := (a.source, a.watched)

def Ahead.charges : Ahead ρ → List (Charge ρ)
  | inFlight rest => rest.map Outstanding.charge
  | late rest => rest.map Abandoned.charge

def Provisioner.charges (p : Provisioner σ) : List (Charge ρ) :=
  p.outstanding.map Outstanding.charge ++ p.abandoned.map Abandoned.charge

/-- All capacity that is polled, wherever the tick has come to. -/
def Moment.charges (m : Moment σ) : List (Charge ρ) :=
  (m.ticking.map fun t => t.ahead.charges).getD [] ++ m.daemon.loop.charges

theorem map_snd_charges_outstanding (os : List (Outstanding ρ)) :
    (os.map Outstanding.charge).map Prod.snd = os.map Outstanding.watched := by
  rw [List.map_map]
  rfl

theorem map_snd_charges_abandoned (as : List (Abandoned ρ)) :
    (as.map Abandoned.charge).map Prod.snd = as.map Abandoned.watched := by
  rw [List.map_map]
  rfl

theorem Moment.map_snd_charges (m : Moment σ) : m.charges.map Prod.snd = m.watched := by
  obtain ⟨d, ticking⟩ := m
  simp only [charges, watched, Provisioner.charges, Provisioner.watched, List.map_append,
    map_snd_charges_outstanding, map_snd_charges_abandoned]
  cases ticking with
  | none => rfl
  | some t =>
    refine congrArg (· ++ _) ?_
    show t.ahead.charges.map Prod.snd = t.ahead.watched
    cases t.ahead with
    | inFlight rest => exact map_snd_charges_outstanding rest
    | late rest => exact map_snd_charges_abandoned rest

/-- The ids of what is polled, charge by charge. -/
theorem Moment.map_id_charges (m : Moment σ) :
    m.charges.map (·.2.1) = m.watched.map Prod.fst := by
  rw [← map_snd_charges, List.map_map]
  rfl

theorem Moment.Sound.distinct_charges {m : Moment σ} (h : m.Sound) :
    (m.charges.map (·.2.1)).Nodup := by
  rw [map_id_charges]
  exact h.distinct

/-- The entries that a look leaves stay with the source that they were charged to. -/
theorem Fate.charges_leaves (o : Outstanding ρ) (f : Fate ρ) :
    (f.keeps o).map Outstanding.charge ++ (f.abandons o).map Abandoned.charge =
      (f.leaves o).map (o.account.source, ·) := by
  cases f <;> rfl

/-- The node that enters by a look has come up before, and its entry goes. -/
theorem Fate.of_nodes (now : Time) (timeout : Option Duration) (r : Registry ρ)
    (o : Outstanding ρ) :
    ((Fate.of now timeout r o).1.change.entered ++
      ((Charge.nodes (((Fate.of now timeout r o).1.leaves o).map (o.account.source, ·))).map
        (·.record.id))).Sublist ((Charge.nodes [o.charge]).map (·.record.id)) := by
  have hkept (f : Fate ρ) (hf : f.change.entered = []) :
      (f.change.entered ++
        ((Charge.nodes ((f.leaves o).map (o.account.source, ·))).map (·.record.id))).Sublist
          ((Charge.nodes [o.charge]).map (·.record.id)) := by
    rw [hf, List.nil_append]
    exact (((f.leaves_sublist o).map (o.account.source, ·)).filterMap _).map _
  have hmeets := Fate.of_meets now timeout r o
  generalize (Fate.of now timeout r o).1 = f at hmeets
  cases hmeets with
  | @registered node ready =>
    have hnodes : Charge.nodes [o.charge] = [node] := by
      rw [Charge.nodes, Outstanding.charge, Outstanding.watched, ready]
      rfl
    rw [hnodes]
    exact .refl _
  | _ => exact hkept _ rfl

theorem Moment.charges_deliver (id : PlannedId) (result : CompletionResult ρ) (m : Moment σ) :
    (m.deliver id result).charges = m.charges.map (Charge.resolved id result) := by
  have hloop : (m.deliver id result).daemon.loop = (m.daemon.loop.deliver id result).2 := rfl
  have hout (os : List (Outstanding ρ)) :
      (os.map (·.resolved id result)).map Outstanding.charge =
        (os.map Outstanding.charge).map (Charge.resolved id result) := by
    rw [List.map_map, List.map_map]
    refine List.map_congr_left fun o _ => Prod.ext ?_ (o.watched_resolved id result)
    simp only [Function.comp_apply, Outstanding.charge, Outstanding.resolved, Charge.resolved]
    split <;> rfl
  have hab (as : List (Abandoned ρ)) :
      (as.map (·.resolved id result)).map Abandoned.charge =
        (as.map Abandoned.charge).map (Charge.resolved id result) := by
    rw [List.map_map, List.map_map]
    refine List.map_congr_left fun a _ => Prod.ext ?_ (a.watched_resolved id result)
    simp only [Function.comp_apply, Abandoned.charge, Abandoned.resolved, Charge.resolved]
    split <;> rfl
  rw [charges, charges, List.map_append, hloop, Provisioner.deliver_eq, Provisioner.charges,
    Provisioner.charges, List.map_append, hout, hab]
  congr 1
  obtain ⟨d, ticking⟩ := m
  cases ticking with
  | none => rfl
  | some t =>
    show (t.ahead.resolved id result).charges = t.ahead.charges.map (Charge.resolved id result)
    cases t.ahead with
    | inFlight rest => exact hout rest
    | late rest => exact hab rest

/-! ## Boots -/

/-- The node that a task brings up, with the id of its capacity. -/
def Task.boot? : Task ρ → Option (PlannedId × RealizedNode ρ)
  | boot id node => some (id, node)
  | _ => none

/-- The nodes that are booting. -/
def Scheduled.boots (ts : List (Scheduled ρ)) : List (PlannedId × RealizedNode ρ) :=
  ts.filterMap (·.task.boot?)

theorem Scheduled.boots_append (ts ts' : List (Scheduled ρ)) :
    boots (ts ++ ts') = boots ts ++ boots ts' := List.filterMap_append

/-- The tasks go on from `ts` to `ts'` with such as boot no node. -/
def Scheduled.Bootless (ts ts' : List (Scheduled ρ)) : Prop :=
  ∃ started, ts' = ts ++ started ∧ boots started = []

theorem Scheduled.Bootless.refl (ts : List (Scheduled ρ)) : Bootless ts ts :=
  ⟨[], (List.append_nil ts).symm, rfl⟩

theorem Scheduled.Bootless.boots_eq {ts ts' : List (Scheduled ρ)} (h : Bootless ts ts') :
    boots ts' = boots ts := by
  obtain ⟨started, rfl, hnone⟩ := h
  rw [boots_append, hnone, List.append_nil]

namespace Moment

def booting (m : Moment σ) : List (PlannedId × RealizedNode ρ) :=
  Scheduled.boots m.daemon.tasks

/-- The ids of the nodes whose boots an act has started. -/
def created [Freeing σ ρ] (m : Moment σ) (a : Act σ) : List NodeId :=
  (Scheduled.boots ((m.step a).daemon.tasks.drop m.daemon.tasks.length)).map (·.2.record.id)

theorem created_of_append [Freeing σ ρ] {m : Moment σ} {a : Act σ} {started : List (Scheduled ρ)}
    (h : (m.step a).daemon.tasks = m.daemon.tasks ++ started) :
    m.created a = (Scheduled.boots started).map (·.2.record.id) := by
  rw [created, h, List.drop_left]

theorem created_of_length_le [Freeing σ ρ] {m : Moment σ} {a : Act σ}
    (h : (m.step a).daemon.tasks.length ≤ m.daemon.tasks.length) : m.created a = [] := by
  rw [created, List.drop_eq_nil_of_le h]
  rfl

theorem created_of_bootless [Freeing σ ρ] {m : Moment σ} {a : Act σ}
    (h : Scheduled.Bootless m.daemon.tasks (m.step a).daemon.tasks) : m.created a = [] := by
  obtain ⟨started, htasks, hnone⟩ := h
  rw [created_of_append htasks, hnone]
  rfl

end Moment

/-- The boots that the work has started become tasks. -/
theorem Work.boots_tasks (now : Time) (bs : List (PlannedId × Boot ρ)) :
    Scheduled.boots (bs.map fun b => (⟨now.after b.2.delay, .boot b.1 b.2.node⟩ : Scheduled ρ)) =
      bs.map fun b => (b.1, b.2.node) := by
  rw [Scheduled.boots, List.filterMap_map]
  show bs.filterMap (some ∘ fun b => (b.1, b.2.node)) = _
  rw [List.filterMap_eq_map]

/-! ## Accounts -/

/-- The sources after a handle has been freed, if there is one. -/
def SourceSet.freeing [Freeing σ ρ] (sources : SourceSet σ) (release : Option ρ) : SourceSet σ :=
  (release.map fun handle => (Freeing.free handle sources).2).getD sources

namespace SourceSet

/-- From `set` to `set'` no source has changed but in what it counts. -/
structure Continues (set set' : SourceSet Source) : Prop where
  names : set'.names = set.names
  each : ∀ n s, set.simulated? n = some s →
    ∃ count next, set'.simulated? n = some { s with nodeCount := count, nextNode := next }

namespace Continues

variable {set set' set'' : SourceSet Source}

theorem refl (set : SourceSet Source) : set.Continues set :=
  ⟨rfl, fun _ s hs => ⟨s.nodeCount, s.nextNode, hs⟩⟩

theorem trans (h : set.Continues set') (h' : set'.Continues set'') : set.Continues set'' where
  names := h'.names.trans h.names
  each n s hs := by
    obtain ⟨_, _, hs'⟩ := h.each n s hs
    obtain ⟨count, next, hs''⟩ := h'.each n _ hs'
    exact ⟨count, next, hs''⟩

theorem simulated (h : set.Continues set') (hs : set.Simulated) : set'.Simulated := by
  intro n hn
  rw [h.names] at hn
  obtain ⟨s, hget, hhosted⟩ := hs n hn
  obtain ⟨_, _, hget'⟩ := h.each n s hget
  exact ⟨_, hget', hhosted⟩

end Continues

theorem Grants.continues {set set' : SourceSet Source}
    {nodes : List (RealizedNode ReleaseHandle)} (h : set.Grants set' nodes) :
    set.Continues set' := by
  refine ⟨h.names, fun n s hs => ?_⟩
  obtain ⟨s', hs', hg⟩ := h.each n s hs
  exact ⟨_, _, hg.counted ▸ hs'⟩

variable {set : SourceSet Source}

/-- A handle that is freed gives back a slot, if there is one. -/
theorem simulated?_freeing {n : SourceName} {s : SimulatedSource}
    (h : set.simulated? n = some s) (release : Option ReleaseHandle) :
    (set.freeing release).simulated? n = some { s with
      nodeCount := s.nodeCount - if release.any (·.isSlotOf n) then 1 else 0 } := by
  rcases release with _ | ⟨source, node⟩ | ⟨_, _, _ | _⟩
  · exact h
  · rw [simulated?_eq_some_iff] at h ⊢
    have hfree : set.freeing (some (.slot source node)) =
        set.update source (fun s => (s.releaseSlot node).2) (Source.name_releaseSlot node) := rfl
    rw [hfree, get?_update, h, Option.map_some]
    by_cases hn : n = source
    · subst hn
      have hslot : (some (ReleaseHandle.slot n node)).any (·.isSlotOf n) = true :=
        decide_eq_true rfl
      rw [if_pos rfl, hslot, if_pos rfl, Source.releaseSlot, SimulatedSource.releaseSlot]
      split
      · -- a source that counts none keeps counting none
        obtain ⟨name, labels, untagged, executors, limit, delay, retention, outage, count,
          next⟩ := s
        obtain rfl : count = 0 := by assumption
        rfl
      · rfl
    · have hslot : (some (ReleaseHandle.slot source node)).any (·.isSlotOf n) = false :=
        decide_eq_false fun he => hn he.symm
      rw [if_neg hn, hslot]
      rfl
  · exact h
  · exact h

theorem freeing_continues (set : SourceSet Source) (release : Option ReleaseHandle) :
    set.Continues (set.freeing release) := by
  refine ⟨?_, fun n s hs => ⟨_, _, simulated?_freeing hs release⟩⟩
  cases release with
  | none => rfl
  | some handle => exact Freeing.names_free handle set

/-- What a source has come to when a handle has been freed. -/
theorem exists_before_freeing (hsim : set.Simulated) {release : Option ReleaseHandle}
    {n : SourceName} {s' : SimulatedSource}
    (hs' : (set.freeing release).simulated? n = some s') :
    ∃ s, set.simulated? n = some s ∧ s' = { s with
      nodeCount := s.nodeCount - if release.any (·.isSlotOf n) then 1 else 0 } := by
  have hn := mem_names_of_simulated? hs'
  rw [(set.freeing_continues release).names] at hn
  obtain ⟨s, hs, -⟩ := hsim n hn
  rw [simulated?_freeing hs] at hs'
  exact ⟨s, hs, (Option.some.inj hs').symm⟩

/-- A slot is given back without fail as long as its source counts one at least. -/
theorem freed?_slot {n : SourceName} {s : SimulatedSource} (h : set.simulated? n = some s)
    (hcount : s.nodeCount ≠ 0) (node : NodeId) :
    set.freed? (some (.slot n node)) = some (.ok ()) := by
  rw [simulated?_eq_some_iff] at h
  have hfree : set.freed? (some (.slot n node)) =
      some (((set.get? n).map fun s => (s.releaseSlot node).1).getD (.ok ())) := rfl
  rw [hfree, h, Option.map_some, Option.getD_some, Source.releaseSlot,
    SimulatedSource.releaseSlot, if_neg hcount]

end SourceSet

namespace Daemon

variable [Freeing σ ρ]

theorem freeNode_loop (release : Option ρ) (d : Daemon σ (Registry ρ)) :
    (d.freeNode release).2.loop = { d.loop with sources := d.loop.sources.freeing release } := by
  cases release <;> rfl

theorem runReclaim_loop (now : Time) (node : RealizedNode ρ) (d : Daemon σ (Registry ρ)) :
    (d.runReclaim now node).loop =
      { d.loop with sources := d.loop.sources.freeing node.release } := by
  have h := d.freeNode_loop node.release
  unfold runReclaim
  cases hf : d.freeNode node.release with
  | mk result d' =>
    rw [hf] at h
    rcases result with _ | _ | _ <;> exact h

theorem runRemoval_loop (now : Time) (ticket : Nat) (removal : Removal ρ)
    (d : Daemon σ (Registry ρ)) :
    (d.runRemoval now ticket removal).loop =
      { d.loop with sources := d.loop.sources.freeing removal.node.release } :=
  d.freeNode_loop removal.node.release

end Daemon

/-! ## Deeds -/

namespace Moment

/-- From `m` to `m'` handles have come to capacity or straight back, and `freed` are freed. -/
structure Moves (m m' : Moment σ) (came : Option ρ) (freed : Option ρ) : Prop where
  total : m'.places.total = m.places.total + (came.toList : Multiset ρ)
  released : m'.daemon.journal.released = m.daemon.journal.released ++ freed.toList

theorem Moves.total_eq {m m' : Moment σ} {freed : Option ρ} (h : m.Moves m' none freed) :
    m'.places.total = m.places.total := h.total.trans (add_zero _)

/-- What an act does that lets nodes with the ids `entered` enter and starts the boots of nodes
with the ids `created`. -/
inductive Deed (m m' : Moment Source) : (entered created : List NodeId) → Prop where
  /-- Of what was `seen`, some is `kept`; one node at most has entered. -/
  | looks {entered : List NodeId} (seen kept rest : List (Charge ReleaseHandle))
      (before : m.charges.Perm (seen ++ rest)) (after : m'.charges.Perm (kept ++ rest))
      (less : kept.Sublist seen)
      (nodes : (entered ++ (Charge.nodes kept).map (·.record.id)).Sublist
        ((Charge.nodes seen).map (·.record.id)))
      (booting : m'.booting = m.booting)
      (sources : m'.daemon.loop.sources = m.daemon.loop.sources)
      (moves : m.Moves m' none none) : Deed m m' entered []
  | hires {new : List (Outstanding ReleaseHandle)}
      {boots : List (PlannedId × Boot ReleaseHandle)}
      (charges : m'.charges.Perm (m.charges ++ new.map Outstanding.charge))
      (booting : m'.booting = m.booting ++ boots.map fun b => (b.1, b.2.node))
      (awaits : List.Forall₂ Outstanding.Awaits new boots)
      (known : ∀ o ∈ new, o.account.source ∈ m.daemon.loop.sources.names)
      (ids : ∀ o ∈ new, m.daemon.loop.nextId ≤ o.planned.id)
      (grants : m.daemon.loop.sources.Grants m'.daemon.loop.sources (boots.map (·.2.node)))
      (moves : m.Moves m' none none) : Deed m m' [] (boots.map (·.2.node.record.id))
  | wakes {id : PlannedId} {node : RealizedNode ReleaseHandle} (now : Time)
      (booting : m.booting.Perm ((id, node) :: m'.booting)) (awaited : m.awaits id = true)
      (charges : m'.charges = m.charges.map (Charge.resolved id (.ok (booted now node))))
      (sources : m'.daemon.loop.sources = m.daemon.loop.sources)
      (moves : m.Moves m' node.release none) : Deed m m' [] []
  /-- A handle is freed by a task; it may be that of a node which has come up too late. -/
  | frees (release : Option ReleaseHandle)
      (woken : Option (PlannedId × RealizedNode ReleaseHandle))
      (booting : m.booting.Perm (woken.toList ++ m'.booting))
      (unawaited : ∀ b ∈ woken, m.awaits b.1 = false)
      (charges : m'.charges = m.charges)
      (sources : m'.daemon.loop.sources = m.daemon.loop.sources.freeing release)
      (moves : m.Moves m' (woken.bind (·.2.release)) release) : Deed m m' [] []

theorem moves_of_flow {m m' : Moment σ} (hf : Flow m.places m'.places (0 + handlesOf []) 0)
    (hr : m'.daemon.journal.released = m.daemon.journal.released) : m.Moves m' none none where
  total := by
    have hnone : handlesOf ([] : List (PlannedId × Completion ρ)) = 0 := rfl
    simp [hf.total, hnone]
  released := hr.trans (List.append_nil _).symm

/-- An act that does nothing to capacity and sources. -/
theorem Deed.rests {m m' : Moment Source} (hc : m'.charges.Perm m.charges)
    (hb : m'.booting = m.booting)
    (hs : m'.daemon.loop.sources = m.daemon.loop.sources) (hm : m.Moves m' none none) :
    Deed m m' [] [] :=
  .looks [] [] m.charges .rfl hc .slnil .slnil hb hs hm

theorem Deed.continues {m m' : Moment Source} {entered created : List NodeId}
    (h : Deed m m' entered created) :
    m.daemon.loop.sources.Continues m'.daemon.loop.sources := by
  cases h with
  | looks _ _ _ _ _ _ _ _ sources _ => exact sources ▸ .refl _
  | hires _ _ _ _ _ grants _ => exact grants.continues
  | wakes _ _ _ _ sources _ => exact sources ▸ .refl _
  | frees release _ _ _ _ sources _ => exact sources ▸ SourceSet.freeing_continues _ release

end Moment

end Fleet
