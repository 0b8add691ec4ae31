import Fleet.Proofs.Json.RoundTrip
import Fleet.Proofs.Provisioner.Course
import Fleet.Source.Kind
import Mathlib

/-!
# Asking simulated sources

A simulated source answers a call for capacity with nodes that begin to boot, for each of which
it takes up one more slot and one more number, and never more slots than it has
(`SimulatedSource.Grants`).  `Work.Hires` says what a course of asking comes to when all sources
are simulated: each new capacity waits for one new boot, of a node of the source that it is
charged to, and every source has granted the nodes that are its own.
-/

namespace Fleet

/-! ## Nodes of simulated sources -/

/-- Whether a handle gives back a slot of this source. -/
def ReleaseHandle.isSlotOf (n : SourceName) : ReleaseHandle → Bool
  | .slot source _ => source = n
  | .drill _ _ _ => false

namespace RealizedNode

/-- A node of a simulated source: its record names the source, and its handle gives back the
slot that it takes up there. -/
structure Of (node : RealizedNode ReleaseHandle) (n : SourceName) : Prop where
  source : node.record.source = n.text
  release : node.release = some (.slot n node.record.id)

def holdsSlotOf (n : SourceName) (node : RealizedNode ReleaseHandle) : Bool :=
  node.release.any (·.isSlotOf n)

theorem Of.holdsSlotOf_iff {node : RealizedNode ReleaseHandle} {n : SourceName} (h : node.Of n)
    (m : SourceName) : node.holdsSlotOf m = true ↔ n = m := by
  rw [holdsSlotOf, h.release]
  exact decide_eq_true_iff

end RealizedNode

/-! ## Sets of simulated sources -/

def Source.simulated? : Source → Option SimulatedSource
  | scripted _ => none
  | simulated s => some s

namespace SourceSet

/-- The simulated source of a name. -/
def simulated? (set : SourceSet Source) (n : SourceName) : Option SimulatedSource :=
  (set.get? n).bind Source.simulated?

/-- Every member is a simulated source that has a scheduler. -/
def Simulated (set : SourceSet Source) : Prop :=
  ∀ n ∈ set.names, ∃ s, set.simulated? n = some s ∧ s.outage = none

variable {set : SourceSet Source} {n : SourceName} {s : SimulatedSource}

theorem simulated?_eq_some_iff :
    set.simulated? n = some s ↔ set.get? n = some (.simulated s) := by
  rw [simulated?, Option.bind_eq_some_iff]
  constructor
  · rintro ⟨source, hget, hs⟩
    cases source with
    | scripted _ => cases hs
    | simulated s' =>
      cases hs
      exact hget
  · exact fun h => ⟨_, h, rfl⟩

theorem name_of_simulated? (h : set.simulated? n = some s) : s.name = n :=
  name_of_get? (simulated?_eq_some_iff.1 h)

theorem mem_names_of_simulated? (h : set.simulated? n = some s) : n ∈ set.names :=
  mem_names_of_get? (simulated?_eq_some_iff.1 h)

end SourceSet

/-! ## Grants -/

namespace SimulatedSource

/-- From `s` to `s'` a source has granted nodes, each under the next number. -/
structure Grants (s s' : SimulatedSource) (nodes : List (RealizedNode ReleaseHandle)) : Prop where
  counted : s' = { s with
    nodeCount := s.nodeCount + nodes.length
    nextNode := s.nextNode + UInt64.ofNat nodes.length }
  limit : s.nodeCount ≤ s.maxNodes → s'.nodeCount ≤ s.maxNodes
  ids : (nodes.map (·.record.id) : List NodeId) =
    (List.range nodes.length).map fun i => s.nodeId (s.nextNode + UInt64.ofNat i)

namespace Grants

variable {s s' s'' : SimulatedSource} {nodes nodes' : List (RealizedNode ReleaseHandle)}

theorem refl (s : SimulatedSource) : s.Grants s [] where
  counted := by simp
  limit := id
  ids := rfl

theorem trans (h : s.Grants s' nodes) (h' : s'.Grants s'' nodes') :
    s.Grants s'' (nodes ++ nodes') where
  counted := by
    rw [h'.counted, h.counted, List.length_append, UInt64.ofNat_add]
    simp only [Nat.add_assoc, UInt64.add_assoc]
  limit hs := by
    have hlimit := h'.limit
    rw [h.counted] at hlimit
    refine hlimit ?_
    have := h.limit hs
    rwa [h.counted] at this
  ids := by
    rw [List.map_append, h.ids, h'.ids, List.length_append, List.range_add, List.map_append,
      List.map_map, h.counted]
    congr 1
    refine List.map_congr_left fun i _ => ?_
    rw [Function.comp_apply, UInt64.ofNat_add, UInt64.add_assoc]
    rfl

end Grants

/-- The node that is offered under a number. -/
def newNode (s : SimulatedSource) (label : Option Label) (k : UInt64) :
    RealizedNode ReleaseHandle where
  record := NodeRecord.fresh (s.nodeId k) s.name.text (label.map (·.text)) s.executorsPerNode 0
    ("simulated node of " ++ s.name.text)
  retention := s.retention
  release := some (.slot s.name (s.nodeId k))

theorem newNode_of (s : SimulatedSource) (label : Option Label) (k : UInt64) :
    (s.newNode label k).Of s.name := ⟨rfl, rfl⟩

/-- All nodes of a source hold its slots. -/
theorem filter_newNode (s : SimulatedSource) (label : Option Label) (numbers : List UInt64) :
    (numbers.map (s.newNode label)).filter (·.holdsSlotOf s.name) =
      numbers.map (s.newNode label) := by
  refine List.filter_eq_self.2 fun node hnode => ?_
  obtain ⟨k, -, rfl⟩ := List.mem_map.1 hnode
  exact ((s.newNode_of label k).holdsSlotOf_iff s.name).2 rfl

/-- A call for capacity grants the nodes that are offered. -/
theorem provision_grants (label : Option Label) (excess : Nat) {s : SimulatedSource}
    (h : s.outage = none) :
    ∃ numbers : List UInt64, numbers.length = s.granted excess ∧
      (s.provision label excess).1 = .ok (numbers.map (s.offer label)) ∧
      s.Grants (s.provision label excess).2 (numbers.map (s.newNode label)) := by
  refine ⟨(List.range (s.granted excess)).map fun i => s.nextNode + UInt64.ofNat i, ?_, ?_, ?_⟩
  · rw [List.length_map, List.length_range]
  · rw [provision_of_running h, List.map_map]
    rfl
  · rw [provision_of_running h]
    refine ⟨?_, fun hs => ?_, ?_⟩
    · simp only [List.length_map, List.length_range]
    · show s.nodeCount + s.granted excess ≤ s.maxNodes
      rw [granted]
      omega
    · simp only [List.length_map, List.length_range, List.map_map]
      rfl

end SimulatedSource

namespace SourceSet

/-- From `set` to `set'` every source has granted the nodes that hold its slots. -/
structure Grants (set set' : SourceSet Source) (nodes : List (RealizedNode ReleaseHandle)) :
    Prop where
  names : set'.names = set.names
  each : ∀ n s, set.simulated? n = some s →
    ∃ s', set'.simulated? n = some s' ∧ s.Grants s' (nodes.filter (·.holdsSlotOf n))

namespace Grants

variable {set set' set'' : SourceSet Source} {nodes nodes' : List (RealizedNode ReleaseHandle)}

theorem refl (set : SourceSet Source) : set.Grants set [] :=
  ⟨rfl, fun _ s hs => ⟨s, hs, .refl s⟩⟩

theorem trans (h : set.Grants set' nodes) (h' : set'.Grants set'' nodes') :
    set.Grants set'' (nodes ++ nodes') where
  names := h'.names.trans h.names
  each n s hs := by
    obtain ⟨s', hs', hg⟩ := h.each n s hs
    obtain ⟨s'', hs'', hg'⟩ := h'.each n s' hs'
    rw [List.filter_append]
    exact ⟨s'', hs'', hg.trans hg'⟩

theorem simulated (h : set.Grants set' nodes) (hs : set.Simulated) : set'.Simulated := by
  intro n hn
  rw [h.names] at hn
  obtain ⟨s, hget, hhosted⟩ := hs n hn
  obtain ⟨s', hget', hg⟩ := h.each n s hget
  refine ⟨s', hget', ?_⟩
  rw [hg.counted]
  exact hhosted

/-- What a source has come to is what it has granted. -/
theorem exists_before (h : set.Grants set' nodes) (hs : set.Simulated) {n : SourceName}
    {s' : SimulatedSource} (hs' : set'.simulated? n = some s') :
    ∃ s, set.simulated? n = some s ∧ s.Grants s' (nodes.filter (·.holdsSlotOf n)) := by
  obtain ⟨s, hget, -⟩ := hs n (h.names ▸ mem_names_of_simulated? hs')
  obtain ⟨s'', hs'', hg⟩ := h.each n s hget
  rw [hs'] at hs''
  cases hs''
  exact ⟨s, hget, hg⟩

end Grants

/-- Asking whether a label is served changes no simulated source. -/
theorem canProvision_grants (set : SourceSet Source) (n : SourceName) (label : Option Label) :
    set.Grants (set.canProvision n label).2 [] := by
  refine ⟨names_canProvision set n label,
    fun m s hs => ⟨s, ?_, .refl s⟩⟩
  have hget := simulated?_eq_some_iff.1 hs
  rw [simulated?_eq_some_iff, canProvision, get?_update, hget, Option.map_some]
  split <;> rfl

/-- Asking a source for capacity makes it grant what it offers. -/
theorem provision_grants {set : SourceSet Source} {n : SourceName} {s : SimulatedSource}
    (label : Option Label) (excess : Nat) (hget : set.simulated? n = some s)
    (hhosted : s.outage = none) :
    ∃ numbers : List UInt64, numbers.length = s.granted excess ∧
      (set.provision n label excess).1 = some (.ok (numbers.map (s.offer label))) ∧
      set.Grants (set.provision n label excess).2 (numbers.map (s.newNode label)) := by
  obtain ⟨numbers, hcount, hoffers, hgrants⟩ := s.provision_grants label excess hhosted
  have hname : s.name = n := name_of_simulated? hget
  rw [simulated?_eq_some_iff] at hget
  refine ⟨numbers, hcount, ?_, names_provision set n label excess,
    fun m s' hs' => ?_⟩
  · rw [provision, hget, Option.map_some]
    exact congrArg some hoffers
  · rw [simulated?_eq_some_iff] at hs'
    rw [provision]
    simp only [simulated?_eq_some_iff, get?_update, hs', Option.map_some]
    by_cases hm : m = n
    · subst hm
      rw [hget] at hs'
      cases hs'
      have hall := s.filter_newNode label numbers
      rw [hname] at hall
      rw [if_pos rfl, hall]
      exact ⟨(s.provision label excess).2, rfl, hgrants⟩
    · have hnone : (numbers.map (s.newNode label)).filter (·.holdsSlotOf m) = [] := by
        refine List.filter_eq_nil_iff.2 fun node hnode hslot => ?_
        obtain ⟨k, -, rfl⟩ := List.mem_map.1 hnode
        exact hm (((s.newNode_of label k).holdsSlotOf_iff m).1 hslot ▸ hname)
      rw [if_neg hm, hnone]
      exact ⟨s', rfl, .refl s'⟩

end SourceSet

/-! ## Capacity and its boots -/

/-- New capacity waits for a boot, of a node of the source that it is charged to. -/
structure Outstanding.Awaits (o : Outstanding ReleaseHandle)
    (b : PlannedId × Boot ReleaseHandle) : Prop where
  id : b.1 = o.planned.id
  waiting : o.planned.completion = .waiting
  node : b.2.node.Of o.account.source

/-- The nodes of boots that are awaited are of the sources that the capacity is charged to. -/
theorem of_awaits {new : List (Outstanding ReleaseHandle)}
    {boots : List (PlannedId × Boot ReleaseHandle)}
    (h : List.Forall₂ Outstanding.Awaits new boots) {names : List SourceName}
    (known : ∀ o ∈ new, o.account.source ∈ names) :
    ∀ node ∈ boots.map (·.2.node), ∃ n ∈ names, node.Of n := by
  intro node hnode
  obtain ⟨b, hb, rfl⟩ := List.mem_map.1 hnode
  obtain ⟨o, ho, hawaits⟩ := Json.exists_of_forall₂ h hb
  exact ⟨_, known o ho, hawaits.node⟩

theorem taken_awaits (now : Time) (account : Account) {s : SimulatedSource}
    (h : s.name = account.source) (label : Option Label) (id : PlannedId)
    (numbers : List UInt64) :
    List.Forall₂ Outstanding.Awaits (taken now account id (numbers.map (s.offer label)))
      (started id (numbers.map (s.offer label))) := by
  induction numbers generalizing id with
  | nil => exact .nil
  | cons k ks ih => exact .cons ⟨rfl, rfl, h ▸ s.newNode_of label k⟩ (ih (id + 1))

theorem map_node_started (s : SimulatedSource) (label : Option Label) (id : PlannedId)
    (numbers : List UInt64) :
    (started id (numbers.map (s.offer label))).map (·.2.node) =
      numbers.map (s.newNode label) := by
  induction numbers generalizing id with
  | nil => rfl
  | cons k ks ih => exact congrArg (s.newNode label k :: ·) (ih (id + 1))

namespace Work

/-- The work has gone on from `w` to `w'` with `new` capacity, which waits for `boots`. -/
structure Hires (w w' : Work Source) (new : List (Outstanding ReleaseHandle))
    (boots : List (PlannedId × Boot ReleaseHandle)) : Prop where
  outstanding : w'.loop.outstanding = w.loop.outstanding ++ new
  abandoned : w'.loop.abandoned = w.loop.abandoned
  next : w'.loop.nextId = w.loop.nextId + new.length
  ids : new.map (·.planned.id) = List.range' w.loop.nextId new.length
  started : w'.boots = w.boots ++ boots
  awaits : List.Forall₂ Outstanding.Awaits new boots
  known : ∀ o ∈ new, o.account.source ∈ w.loop.sources.names
  grants : w.loop.sources.Grants w'.loop.sources (boots.map (·.2.node))

namespace Hires

variable {w w' w'' : Work Source} {new new' : List (Outstanding ReleaseHandle)}
  {boots boots' : List (PlannedId × Boot ReleaseHandle)}

/-- Nothing has been offered. -/
theorem of_grants (hloop : w'.loop = { w.loop with sources := w'.loop.sources })
    (hboots : w'.boots = w.boots) (hgrants : w.loop.sources.Grants w'.loop.sources []) :
    w.Hires w' [] [] where
  outstanding := by rw [hloop, List.append_nil]
  abandoned := by rw [hloop]
  next := by rw [hloop]; rfl
  ids := rfl
  started := by rw [hboots, List.append_nil]
  awaits := .nil
  known := nofun
  grants := hgrants

theorem refl (w : Work Source) : w.Hires w [] [] := of_grants rfl rfl (.refl _)

theorem trans (h : w.Hires w' new boots) (h' : w'.Hires w'' new' boots') :
    w.Hires w'' (new ++ new') (boots ++ boots') where
  outstanding := by rw [h'.outstanding, h.outstanding, List.append_assoc]
  abandoned := h'.abandoned.trans h.abandoned
  next := by rw [h'.next, h.next, List.length_append, Nat.add_assoc]
  ids := by
    rw [List.map_append, h.ids, h'.ids, h.next, List.length_append, List.range'_append_1]
  started := by rw [h'.started, h.started, List.append_assoc]
  awaits := List.rel_append h.awaits h'.awaits
  known o ho := by
    rcases List.mem_append.1 ho with ho | ho
    · exact h.known o ho
    · exact h.grants.names ▸ h'.known o ho
  grants := by
    rw [List.map_append]
    exact h.grants.trans h'.grants

end Hires

variable {w w' : Work Source}

theorem askCan_hires (w : Work Source) (account : Account) :
    w.Hires (w.askCan account).2 [] [] := by
  have hgrants := SourceSet.canProvision_grants w.loop.sources account.source account.label
  unfold askCan
  cases hc : w.loop.sources.canProvision account.source account.label with
  | mk answer sources =>
    rw [hc] at hgrants
    cases answer with
    | none => exact .refl w
    | some answer => exact .of_grants rfl rfl hgrants

theorem askFor_hires (now : Time) (account : Account) (workload : Nat)
    (h : w.loop.sources.Simulated) :
    ∃ new boots, w.Hires (w.askFor now account workload).2 new boots := by
  by_cases hn : account.source ∈ w.loop.sources.names
  · obtain ⟨s, hget, hhosted⟩ := h _ hn
    obtain ⟨numbers, -, hoffers, hgrants⟩ :=
      SourceSet.provision_grants account.label workload hget hhosted
    refine ⟨taken now account w.loop.nextId (numbers.map (s.offer account.label)),
      started w.loop.nextId (numbers.map (s.offer account.label)), ?_⟩
    have hcall : w.loop.sources.provision account.source account.label workload =
        (some (.ok (numbers.map (s.offer account.label))),
          (w.loop.sources.provision account.source account.label workload).2) :=
      Prod.ext hoffers rfl
    rw [askFor, hcall]
    dsimp only
    rw [accept_eq]
    exact {
      outstanding := rfl
      abandoned := rfl
      next := by rw [length_taken]
      ids := by rw [map_id_taken, length_taken]
      started := rfl
      awaits := taken_awaits now account (SourceSet.name_of_simulated? hget) account.label _ numbers
      known := fun o ho => (account_of_mem_taken now account ho) ▸ hn
      grants := by
        rw [map_node_started]
        exact hgrants }
  · have hnone : w.loop.sources.get? account.source = none := by
      rw [SourceSet.get?, List.find?_eq_none]
      intro s hs he
      exact hn (List.mem_map.2 ⟨s, hs, of_decide_eq_true he⟩)
    refine ⟨[], [], ?_⟩
    rw [askFor, SourceSet.provision, hnone]
    exact .refl w

/-- A course of asking simulated sources. -/
theorem Course.hires {now : Time} (hc : Course now w w') (h : w.loop.sources.Simulated) :
    ∃ new boots, w.Hires w' new boots := by
  induction hc with
  | refl => exact ⟨[], [], .refl w⟩
  | tail _ hstep ih =>
    obtain ⟨new, boots, hhires⟩ := ih
    have hsimulated := hhires.grants.simulated h
    cases hstep with
    | remark w' about => exact ⟨_, _, hhires.trans (.of_grants rfl rfl (.refl _))⟩
    | can account w' => exact ⟨_, _, hhires.trans (askCan_hires _ account)⟩
    | capacity account workload w' =>
      obtain ⟨new', boots', hhires'⟩ := askFor_hires now account workload hsimulated
      exact ⟨_, _, hhires.trans hhires'⟩

end Work

end Fleet
