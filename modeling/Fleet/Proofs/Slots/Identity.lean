import Fleet.Proofs.Node.Authority
import Fleet.Proofs.Node.Duplicate
import Fleet.Proofs.Slots.Numbering
import Fleet.Proofs.Slots.Succession

/-!
# Fresh ids

Nodes that boot or have come up, and nodes on record, all have different ids, which are below
the next numbers of their sources (`Moment.Identified`).  Every deed keeps this, and a daemon that
is built on the store that others have left begins with it.  So the ids of the nodes that are
created are new throughout (`fresh_identities`), and the registry turns no node away.
-/

namespace Fleet

/-! ## Numbers that have been passed -/

namespace SourceSet

/-- The number in the id, if it is one of a source in the set, is below the next one. -/
def Passed (set : SourceSet Source) (id : NodeId) : Prop :=
  ∀ n s, set.simulated? n = some s → ∀ k, id = n.nodeId k → k < s.nextNode.toNat

/-- From `set` to `set'` no source has gone back in its numbers. -/
def Advances (set set' : SourceSet Source) : Prop :=
  ∀ n s', set'.simulated? n = some s' →
    ∃ s, set.simulated? n = some s ∧ s.nextNode.toNat ≤ s'.nextNode.toNat

variable {set set' : SourceSet Source} {id : NodeId}

theorem Passed.mono (h : set.Passed id) (hset : set.Advances set') : set'.Passed id := by
  intro n s' hs' k hid
  obtain ⟨s, hs, hle⟩ := hset n s' hs'
  exact Nat.lt_of_lt_of_le (h n s hs k hid) hle

theorem Advances.refl (set : SourceSet Source) : set.Advances set :=
  fun _ s hs => ⟨s, hs, Nat.le_refl _⟩

theorem freeing_advances (hsim : set.Simulated) (release : Option ReleaseHandle) :
    set.Advances (set.freeing release) := by
  intro n s' hs'
  obtain ⟨s, hs, rfl⟩ := exists_before_freeing hsim hs'
  exact ⟨s, hs, Nat.le_refl _⟩

namespace Grants

variable {nodes : List (RealizedNode ReleaseHandle)}

theorem advances (h : set.Grants set' nodes) (hsim : set.Simulated)
    (hcounted : ∀ node ∈ nodes, NodeId.Counted node.record.id) : set.Advances set' := by
  intro n s' hs'
  obtain ⟨s, hs, hg⟩ := h.exists_before hsim hs'
  have hnext := (hg.numbers fun node hm => hcounted node (List.mem_filter.1 hm).1).2
  exact ⟨s, hs, hnext ▸ Nat.le_add_right _ _⟩

/-- The id of a node that is granted had not been passed before, and is so now. -/
theorem passes (h : set.Grants set' nodes) (hsim : set.Simulated)
    (hcounted : ∀ node ∈ nodes, NodeId.Counted node.record.id)
    (hof : ∀ node ∈ nodes, ∃ n ∈ set.names, node.Of n)
    {node : RealizedNode ReleaseHandle} (hnode : node ∈ nodes) :
    node.record.Numbered ∧ ¬set.Passed node.record.id ∧ set'.Passed node.record.id := by
  obtain ⟨n, hn, hof⟩ := hof node hnode
  obtain ⟨s, s', k, hs, hs', hid, hle, hlt⟩ := h.number hsim hcounted hnode hn hof
  refine ⟨⟨n, k, hid, hof.source, hcounted node hnode n k hid⟩, fun hpassed => ?_, ?_⟩
  · exact absurd (hpassed n s hs k hid) (Nat.not_lt.2 hle)
  · intro n' s'' hs'' k' hid'
    obtain ⟨rfl, rfl⟩ := SourceName.nodeId_injective (hid.symm.trans hid')
    rw [hs'] at hs''
    cases hs''
    exact hlt

end Grants

end SourceSet

/-! ## Nodes to come -/

namespace Charge

/-- The ids of nodes that have come up. -/
def ids (cs : List (Charge ReleaseHandle)) : Multiset NodeId :=
  ((nodes cs).map (·.record.id) : List NodeId)

theorem ids_append (cs cs' : List (Charge ReleaseHandle)) : ids (cs ++ cs') = ids cs + ids cs' := by
  rw [ids, nodes, List.filterMap_append, List.map_append]
  exact (Multiset.coe_add _ _).symm

theorem ids_perm {cs cs' : List (Charge ReleaseHandle)} (h : cs.Perm cs') : ids cs = ids cs' :=
  Multiset.coe_eq_coe.2 ((h.filterMap _).map _)

/-- New capacity has no node yet. -/
theorem nodes_of_awaits {new : List (Outstanding ReleaseHandle)}
    {boots : List (PlannedId × Boot ReleaseHandle)}
    (h : List.Forall₂ Outstanding.Awaits new boots) : nodes (new.map Outstanding.charge) = [] := by
  rw [nodes, List.filterMap_map]
  refine List.filterMap_eq_nil_iff.2 fun o ho => ?_
  obtain ⟨b, -, hawaits⟩ := Json.exists_of_forall₂ h.flip ho
  show o.planned.completion.node? = none
  rw [hawaits.waiting]
  rfl

theorem nodes_cons (c : Charge ReleaseHandle) (cs : List (Charge ReleaseHandle)) :
    nodes (c :: cs) = c.2.2.node?.toList ++ nodes cs := by
  rw [nodes, nodes, List.filterMap_cons]
  cases c.2.2.node? <;> rfl

/-- A node that comes up is that of one charge at most. -/
theorem nodes_resolved {cs : List (Charge ReleaseHandle)} (h : (cs.map (·.2.1)).Nodup)
    (id : PlannedId) (node : RealizedNode ReleaseHandle) :
    (nodes (cs.map (resolved id (.ok node)))).Subperm (node :: nodes cs) := by
  induction cs with
  | nil => exact List.nil_subperm
  | cons c cs ih =>
    rw [List.map_cons, List.nodup_cons] at h
    rw [List.map_cons, nodes_cons, nodes_cons]
    by_cases hid : c.2.1 = id
    · have hothers : ∀ c' ∈ cs, resolved id (.ok node) c' = c' := fun c' hc' =>
        resolved_of_ne (fun he => h.1 (List.mem_map.2 ⟨c', hc', he.trans hid.symm⟩)) _
      rw [List.map_congr_left hothers, List.map_id', resolved_of_eq hid]
      cases hc : c.2.2 with
      | waiting => exact List.Subperm.refl _
      | _ => exact (List.sublist_cons_self _ _).subperm
    · rw [resolved_of_ne hid]
      refine ((List.subperm_append_left c.2.2.node?.toList).2 (ih h.2)).trans ?_
      exact List.perm_middle.subperm

end Charge

/-- Every record is that of a node which its source has numbered. -/
def Store.Numbered (s : Store) : Prop :=
  ∀ id record, s.record? id = some record → record.Numbered

theorem NodeRecord.Numbered.recounts {record r : NodeRecord} (h : r.Numbered)
    (hcounts : record.Recounts r) : record.Numbered := by
  obtain ⟨n, k, hid, hsource, hk⟩ := h
  exact ⟨n, k, hcounts.id.trans hid, hcounts.source.trans hsource, hk⟩

theorem Registry.Undergoes.numbered {r r' : Registry ReleaseHandle} {c : Change ReleaseHandle}
    (h : r.Undergoes r' c) (hnode : ∀ node, c = .enters node → node.record.Numbered)
    (hr : r.store.Numbered) : r'.store.Numbered := by
  intro id record hrecord
  cases h.fares id with
  | @entered node enters _ record' _ =>
    rw [record'] at hrecord
    cases hrecord
    exact hnode node enters
  | left gone _ =>
    rw [gone] at hrecord
    cases hrecord
  | kept row _ =>
    rw [hrecord] at row
    generalize hbefore : r.store.record? id = before at row
    cases row with
    | some hcounts => exact (hr id _ hbefore).recounts hcounts

namespace Moment

/-- The ids of the nodes that boot or have come up unread. -/
def coming (m : Moment Source) : Multiset NodeId :=
  (m.booting.map (·.2.record.id) : List NodeId) + Charge.ids m.charges

/-- Nodes to come and nodes on record go by different ids, all of which their sources have passed,
as they have the ids `past` of all nodes so far. -/
structure Identified (m : Moment Source) (past : List NodeId) : Prop where
  booting : ∀ b ∈ m.booting, b.2.record.Numbered
  ready : ∀ node ∈ Charge.nodes m.charges, node.record.Numbered
  rows : m.daemon.registry.store.Numbered
  distinct : (m.coming + m.daemon.registry.ids).Nodup
  created : past.Nodup
  passed : ∀ id, id ∈ past ∨ id ∈ m.coming + m.daemon.registry.ids →
    m.daemon.loop.sources.Passed id

variable {m m' : Moment Source} {entered created past : List NodeId}

/-- Ids come with the nodes that are created, and go with those that enter. -/
theorem Deed.coming_le (hd : Deed m m' entered created) (hm : m.Sound) :
    m'.coming + (entered : Multiset NodeId) ≤ m.coming + (created : Multiset NodeId) := by
  cases hd with
  | looks seen kept rest before after less nodes booting sources moves =>
    have hnodes : (entered : Multiset NodeId) + Charge.ids kept ≤ Charge.ids seen := by
      rw [Charge.ids, Multiset.coe_add]
      exact Multiset.coe_le.2 nodes.subperm
    rw [coming, coming, booting, Charge.ids_perm before, Charge.ids_perm after,
      Charge.ids_append, Charge.ids_append]
    calc _ = ((entered : Multiset NodeId) + Charge.ids kept) +
          (((m.booting.map (·.2.record.id) : List NodeId) : Multiset NodeId) +
            Charge.ids rest) := by abel
      _ ≤ Charge.ids seen + (((m.booting.map (·.2.record.id) : List NodeId) : Multiset NodeId) +
            Charge.ids rest) := by gcongr
      _ = _ := by
        rw [Multiset.coe_nil]
        abel
  | @hires new boots charges booting awaits known ids grants moves =>
    have hnone : Charge.ids (new.map Outstanding.charge) = 0 := by
      rw [Charge.ids, Charge.nodes_of_awaits awaits]
      rfl
    rw [coming, coming, booting, Charge.ids_perm charges, Charge.ids_append, hnone,
      List.map_append, List.map_map, ← Multiset.coe_add, Multiset.coe_nil]
    refine le_of_eq ?_
    show _ + ((boots.map (·.2.node.record.id) : List NodeId) : Multiset NodeId) + _ + 0 = _
    abel
  | @wakes id node now booting awaited charges sources moves =>
    have hids : Charge.ids m'.charges ≤
        ([node.record.id] : List NodeId) + Charge.ids m.charges := by
      rw [charges]
      exact Multiset.map_le_map (f := fun node : RealizedNode ReleaseHandle => node.record.id)
        (Multiset.coe_le.2 (Charge.nodes_resolved hm.distinct_charges id (booted now node)))
    have hboots : ((m.booting.map (·.2.record.id) : List NodeId) : Multiset NodeId) =
        ([node.record.id] : List NodeId) +
          ((m'.booting.map (·.2.record.id) : List NodeId) : Multiset NodeId) :=
      Multiset.coe_eq_coe.2 (booting.map _)
    rw [coming, coming, hboots, Multiset.coe_nil, add_zero, add_zero]
    calc _ ≤ ((m'.booting.map (·.2.record.id) : List NodeId) : Multiset NodeId) +
          (([node.record.id] : List NodeId) + Charge.ids m.charges) := by gcongr
      _ = _ := by abel
  | frees release woken booting unawaited charges sources moves =>
    rw [coming, coming, charges, Multiset.coe_nil, add_zero, add_zero]
    have hboots : ((m'.booting.map (·.2.record.id) : List NodeId) : Multiset NodeId) ≤
        (m.booting.map (·.2.record.id) : List NodeId) :=
      Multiset.map_le_map
        (f := fun b : PlannedId × RealizedNode ReleaseHandle => b.2.record.id)
        (Multiset.coe_le.2
          ((List.sublist_append_right woken.toList _).subperm.trans booting.symm.subperm))
    gcongr

theorem counted_of_created {boots : List (PlannedId × Boot ReleaseHandle)}
    (h : ∀ id ∈ boots.map (·.2.node.record.id), NodeId.Counted id) :
    ∀ node ∈ boots.map (·.2.node), NodeId.Counted node.record.id := by
  intro node hnode
  obtain ⟨b, hb, rfl⟩ := List.mem_map.1 hnode
  exact h _ (List.mem_map.2 ⟨b, hb, rfl⟩)

theorem Deed.advances (hd : Deed m m' entered created) (hsim : m.daemon.loop.sources.Simulated)
    (hcounted : ∀ id ∈ created, NodeId.Counted id) :
    m.daemon.loop.sources.Advances m'.daemon.loop.sources := by
  cases hd with
  | looks _ _ _ _ _ _ _ _ sources _ => exact sources ▸ .refl _
  | hires _ _ _ _ _ grants _ => exact grants.advances hsim (counted_of_created hcounted)
  | wakes _ _ _ _ sources _ => exact sources ▸ .refl _
  | frees release _ _ _ _ sources _ => exact sources ▸ SourceSet.freeing_advances hsim release

/-- Nodes that are created have ids that no source had passed. -/
theorem Deed.creates (hd : Deed m m' entered created) (hsim : m.daemon.loop.sources.Simulated)
    (hcounted : ∀ id ∈ created, NodeId.Counted id) :
    created.Nodup ∧ ∀ id ∈ created, ¬m.daemon.loop.sources.Passed id ∧
      m'.daemon.loop.sources.Passed id := by
  cases hd with
  | @hires new boots charges booting awaits known ids grants moves =>
    have hcounted' := counted_of_created hcounted
    have hof := of_awaits awaits known
    have hnodup := grants.nodup_ids hsim hcounted' hof
    rw [List.map_map] at hnodup
    refine ⟨hnodup, fun id hid => ?_⟩
    obtain ⟨b, hb, rfl⟩ := List.mem_map.1 hid
    exact (grants.passes hsim hcounted' hof (List.mem_map.2 ⟨b, hb, rfl⟩)).2
  | _ => exact ⟨.nil, nofun⟩

/-- Nodes that boot have been numbered. -/
theorem Deed.booting_numbered (hd : Deed m m' entered created)
    (hsim : m.daemon.loop.sources.Simulated) (hcounted : ∀ id ∈ created, NodeId.Counted id)
    (h : ∀ b ∈ m.booting, b.2.record.Numbered) : ∀ b ∈ m'.booting, b.2.record.Numbered := by
  cases hd with
  | looks _ _ _ _ _ _ _ booting _ _ => exact booting ▸ h
  | @hires new boots charges booting awaits known ids grants moves =>
    intro b hb
    rw [booting] at hb
    rcases List.mem_append.1 hb with hb | hb
    · exact h b hb
    · obtain ⟨started, hstarted, rfl⟩ := List.mem_map.1 hb
      exact (grants.passes hsim (counted_of_created hcounted) (of_awaits awaits known)
        (List.mem_map_of_mem hstarted)).1
  | wakes _ booting _ _ _ _ =>
    exact fun b hb => h b (booting.mem_iff.2 (List.mem_cons_of_mem _ hb))
  | frees _ _ booting _ _ _ _ =>
    exact fun b hb => h b (booting.mem_iff.2 (List.mem_append_right _ hb))

/-- Nodes that have come up have been numbered. -/
theorem Deed.ready_numbered (hd : Deed m m' entered created) (hm : m.Sound)
    (hbooting : ∀ b ∈ m.booting, b.2.record.Numbered)
    (h : ∀ node ∈ Charge.nodes m.charges, node.record.Numbered) :
    ∀ node ∈ Charge.nodes m'.charges, node.record.Numbered := by
  cases hd with
  | looks seen kept rest before after less _ _ _ _ =>
    intro node hnode
    refine h node (((before.filterMap _).mem_iff).2 ?_)
    exact ((less.append (.refl rest)).filterMap _).subset (((after.filterMap _).mem_iff).1 hnode)
  | @hires new boots charges booting awaits known ids grants moves =>
    intro node hnode
    have hnode' := ((charges.filterMap (·.2.2.node?)).mem_iff).1 hnode
    have hnone := Charge.nodes_of_awaits awaits
    rw [Charge.nodes] at hnone
    rw [List.filterMap_append, hnone, List.append_nil] at hnode'
    exact h node hnode'
  | @wakes id node now booting awaited charges sources moves =>
    intro node' hnode'
    rw [charges] at hnode'
    rcases List.mem_cons.1 ((Charge.nodes_resolved hm.distinct_charges id _).subset hnode') with
      rfl | hold
    · exact hbooting _ (booting.mem_iff.2 List.mem_cons_self)
    · exact h node' hold
  | frees _ _ _ _ charges _ _ =>
    rw [charges]
    exact h

theorem Identified.of_deed {c : Change ReleaseHandle} (h : m.Identified past)
    (hd : Deed m m' c.entered created)
    (hr : m.daemon.registry.Undergoes m'.daemon.registry c) (hm : m.Fit)
    (hnode : ∀ node, c = .enters node → node ∈ Charge.nodes m.charges)
    (hcounted : ∀ id ∈ created, NodeId.Counted id) : m'.Identified (past ++ created) := by
  obtain ⟨hnodup, hcreates⟩ := hd.creates hm.simulated hcounted
  have hadvances := hd.advances hm.simulated hcounted
  -- what is to come or on record was so before, or is created
  have hle : m'.coming + m'.daemon.registry.ids ≤
      m.coming + m.daemon.registry.ids + (created : Multiset NodeId) :=
    calc m'.coming + m'.daemon.registry.ids
      _ ≤ m'.coming + (m'.daemon.registry.ids +
          (c.departed.map (·.node.record.id) : List NodeId)) := by
        gcongr
        exact Multiset.le_add_right _ _
      _ = m'.coming + (c.entered : Multiset NodeId) + m.daemon.registry.ids := by
        rw [hr.ids]
        abel
      _ ≤ m.coming + (created : Multiset NodeId) + m.daemon.registry.ids :=
        add_le_add (hd.coming_le hm.sound) (le_refl _)
      _ = _ := by abel
  have hold {id : NodeId} (hid : id ∈ past ∨ id ∈ m.coming + m.daemon.registry.ids) :
      id ∉ created := fun hnew => (hcreates id hnew).1 (h.passed id hid)
  refine ⟨hd.booting_numbered hm.simulated hcounted h.booting,
    hd.ready_numbered hm.sound h.booting h.ready,
    hr.numbered (fun node he => h.ready node (hnode node he)) h.rows, ?_, ?_, fun id hid => ?_⟩
  · refine Multiset.nodup_of_le hle (Multiset.nodup_add.2 ⟨h.distinct, hnodup, ?_⟩)
    exact Multiset.disjoint_left.2 fun hid => hold (.inr hid)
  · exact List.nodup_append'.2 ⟨h.created, hnodup, fun id hid => hold (.inl hid)⟩
  · have hsome : (id ∈ past ∨ id ∈ m.coming + m.daemon.registry.ids) ∨ id ∈ created := by
      rcases hid with hid | hid
      · exact (List.mem_append.1 hid).imp_left .inl
      · exact (Multiset.mem_add.1 (Multiset.mem_of_le hle hid)).imp_left .inr
    exact hsome.elim (fun hid => (h.passed id hid).mono hadvances) fun hid => (hcreates id hid).2

/-! ## Runs -/

variable {acts : List (Act Source)}

theorem Identified.step (h : m.Identified past) (hsteady : m.Steady) (hfit : m.Fit)
    {a : Act Source} (ha : a.isInner = true) (hcounted : ∀ id ∈ m.created a, NodeId.Counted id) :
    (m.step a).Identified (past ++ m.created a) := by
  refine h.of_deed (step_deed hfit ha) (step_undergoes hsteady a) hfit (fun node he => ?_) hcounted
  obtain ⟨c, hc, hready⟩ := charge_of_enters he
  exact List.mem_filterMap.2 ⟨c, hc, Completion.node?_eq_some_iff.2 hready⟩

theorem Identified.run (h : m.Identified past) (hsteady : m.Steady) (hfit : m.Fit)
    (hacts : ∀ a ∈ acts, a.isInner = true)
    (hcounted : ∀ id ∈ m.creations acts, NodeId.Counted id) :
    (m.run acts).Identified (past ++ m.creations acts) := by
  induction acts generalizing m past with
  | nil =>
    rw [creations, along, List.append_nil]
    exact h
  | cons a acts ih =>
    rw [List.forall_mem_cons] at hacts
    rw [creations, along, List.forall_mem_append] at hcounted
    have hrun := ih (h.step hsteady hfit hacts.1 hcounted.1) (hsteady.step a) (hfit.step hacts.1)
      hacts.2 hcounted.2
    rw [List.append_assoc] at hrun
    exact hrun

/-- No node is turned away: none on record has its id. -/
theorem Identified.not_turnsAway (h : m.Identified past) (a : Act Source) : ¬m.TurnsAway a := by
  rintro ⟨-, t, o, os, node, back, ht, hahead, hready, hduplicate⟩
  have hcharge : o.charge ∈ m.charges := by
    refine List.mem_append_left _ ?_
    rw [ht, Option.map_some, Option.getD_some, hahead]
    exact List.mem_cons_self
  have hnode : node ∈ Charge.nodes m.charges :=
    List.mem_filterMap.2 ⟨o.charge, hcharge, Completion.node?_eq_some_iff.2 hready⟩
  have hcoming : node.record.id ∈ m.coming :=
    Multiset.mem_add.2 (.inr (Multiset.mem_coe.2 (List.mem_map_of_mem hnode)))
  exact Multiset.disjoint_left.1 (Multiset.nodup_add.1 h.distinct).2.2 hcoming
    (Registry.mem_ids.2 (Registry.contains_of_duplicate hduplicate))

theorem Identified.run_told (h : m.Identified past) (hsteady : m.Steady) (hfit : m.Fit)
    (hacts : ∀ a ∈ acts, a.isInner = true)
    (hcounted : ∀ id ∈ m.creations acts, NodeId.Counted id) : m.NoDouble (m.run acts) := by
  induction acts generalizing m past with
  | nil => exact .of_eq rfl
  | cons a acts ih =>
    rw [List.forall_mem_cons] at hacts
    rw [creations, along, List.forall_mem_append] at hcounted
    have hstep := step_duplicates (h.not_turnsAway a)
    have hrest := ih (h.step hsteady hfit hacts.1 hcounted.1) (hsteady.step a) (hfit.step hacts.1)
      hacts.2 hcounted.2
    exact fun e he hd => hstep e (hrest e he hd) hd

end Moment

/-! ## Starts -/

theorem Config.build_identified {c : Config} {room : Nat} {store : Store} {nextId : PlannedId}
    {d : Daemon Source (Registry ReleaseHandle)} (h : c.build room store nextId = .ok d)
    (hintact : store.Intact) (hnumbered : store.Numbered) :
    (⟨d, none⟩ : Moment Source).Identified [] := by
  obtain ⟨existing, sources, hmem, hstarts, hstart⟩ := build_intact h hintact
  have hexisting : ∀ r ∈ existing, r.Numbered := fun r hr => hnumbered r.id r ((hmem r).1 hr)
  rw [hstart]
  refine ⟨nofun, nofun, hnumbered, ?_, .nil, fun id hid => ?_⟩
  · show (0 + 0 + _ : Multiset NodeId).Nodup
    rw [zero_add, zero_add]
    exact Registry.nodup_ids _
  · -- only what is on record is there, and sources number on after that
    have hon : id ∈ (Registry.ofStore store (some .always) : Registry ReleaseHandle).ids := by
      rcases hid with hid | hid
      · cases hid
      · rcases Multiset.mem_add.1 hid with hid | hid
        · cases hid
        · exact hid
    obtain ⟨record, hrecord, rfl⟩ := hintact.nodes id (Registry.mem_ids.1 hon)
    intro n s hs k hk
    obtain ⟨settings, hsettings, s', hs', hget⟩ :=
      settings_of_mem_names hstarts (SourceSet.mem_names_of_simulated? hs)
    change sources.simulated? n = some s at hs
    obtain rfl : n = s'.name := by
      rw [← SourceSet.name_of_simulated? hget, s'.resumeAfter_eq existing]
    rw [hs] at hget
    cases hget
    exact SimulatedSource.lt_resumeAfter hexisting ((hmem record).2 hrecord) hk

theorem Store.LeftBy.numbered {P : Config → List NodeId → Prop} {store : Store}
    (h : store.LeftBy P) (hP : ∀ c ids, P c ids → ∀ id ∈ ids, NodeId.Counted id) :
    store.Numbered := by
  induction h with
  | empty => exact nofun
  | @run c room store nextId d acts left built inner allowed ih =>
    exact ((Config.build_identified built left.intact ih).run
      (Config.build_steady built left.intact) (Config.build_fit built) inner
      (hP c _ allowed)).rows

/-- Through any number of starts of whatever configurations, on the store that the runs before
have left, and at every moment of any run, as long as numbers stay below the last of a machine
word: the ids of the nodes that have been created since the start are all different, and those of
the nodes that the next act creates are different from these, from each other and from all that
are on record.  No node is turned away at its registration, and no duplicate is reported. -/
theorem fresh_identities (store : Store)
    (hstore : store.LeftBy fun _ ids => ∀ id ∈ ids, NodeId.Counted id) (c : Config)
    {room : Nat} (nextId : PlannedId) (d : Daemon Source (Registry ReleaseHandle))
    (hbuilt : c.build room store nextId = .ok d) (acts : List (Moment.Act Source))
    (hacts : ∀ a ∈ acts, a.isInner = true)
    (hcounted : ∀ id ∈ (⟨d, none⟩ : Moment Source).creations acts, NodeId.Counted id) :
    let start : Moment Source := ⟨d, none⟩
    let m := start.run acts
    (start.creations acts).Nodup ∧
    (∀ a : Moment.Act Source, a.isInner = true → (∀ id ∈ m.created a, NodeId.Counted id) →
      (start.creations acts ++ m.created a).Nodup ∧
        ∀ id ∈ m.created a, id ∉ m.daemon.registry.ids) ∧
    (∀ a : Moment.Act Source, ¬m.TurnsAway a) ∧
    ∀ e ∈ m.told, e.isDuplicate = false := by
  intro start m
  have hintact := hstore.intact
  have hsteady : start.Steady := Config.build_steady hbuilt hintact
  have hfit : start.Fit := Config.build_fit hbuilt
  have hstart : start.Identified [] :=
    Config.build_identified hbuilt hintact (hstore.numbered fun _ _ h => h)
  have hm : m.Identified (start.creations acts) := hstart.run hsteady hfit hacts hcounted
  refine ⟨hm.created, fun a ha hnew => ⟨?_, fun id hid hrecord => ?_⟩, hm.not_turnsAway,
    fun e he => ?_⟩
  · exact (hm.step (hsteady.run acts) (hfit.run hacts) ha hnew).created
  · have hcreates := (Moment.step_deed (hfit.run hacts) ha).creates (hfit.run hacts).simulated hnew
    exact (hcreates.2 id hid).1
      (hm.passed id (.inr (Multiset.mem_add.2 (.inr hrecord))))
  · rw [← Bool.not_eq_true]
    intro hduplicate
    have hold := hstart.run_told hsteady hfit hacts hcounted e he hduplicate
    obtain ⟨_, sources, -, -, hidle⟩ := Config.build_intact hbuilt hintact
    change e ∈ (⟨d, none⟩ : Moment Source).told at hold
    rw [hidle] at hold
    cases hold

theorem Solo.counted (k : Nat) (h : k + 1 < wordLimit) : NodeId.Counted (Solo.name.nodeId k) := by
  intro n k' hid
  obtain ⟨-, rfl⟩ := SourceName.nodeId_injective hid
  exact h

theorem fresh_identities_filled :
    Solo.config.build 16 Solo.filled 2 = .ok (Solo.daemon Solo.filled 2 2) ∧
      (⟨Solo.daemon Solo.filled 2 2, none⟩ : Moment Source).creations Solo.filling = ["sim-2"] ∧
      ∀ e ∈ ((⟨Solo.daemon Solo.filled 2 2, none⟩ : Moment Source).run Solo.filling).told,
        e.isDuplicate = false := by
  have hfirst : (⟨Solo.daemon .empty 1 1, none⟩ : Moment Source).creations Solo.filling =
      [Solo.name.nodeId 1] := by decide +kernel
  have hsecond : (⟨Solo.daemon Solo.filled 2 2, none⟩ : Moment Source).creations Solo.filling =
      [Solo.name.nodeId 2] := by decide +kernel
  have hcounted {k : Nat} (hk : k + 1 < wordLimit) :
      ∀ id ∈ [Solo.name.nodeId k], NodeId.Counted id :=
    List.forall_mem_singleton.2 (Solo.counted k hk)
  obtain ⟨-, -, -, htold⟩ := fresh_identities Solo.filled
    (Solo.leftBy_filled (by rw [hfirst]; exact hcounted (by decide))) Solo.config 2 _
    Solo.build_filled Solo.filling Solo.filling_isInner
    (by rw [hsecond]; exact hcounted (by decide))
  exact ⟨Solo.build_filled, hsecond, htold⟩

end Fleet
