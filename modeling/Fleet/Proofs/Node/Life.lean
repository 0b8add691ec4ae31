import Fleet.Proofs.Node.Sweep

/-!
# The life of a registered node

On a store whose calls succeed, the ids on record are those of the start, with the nodes that
were told to be registered and without those that were taken out; a node is taken out once at
most for each time that it enters.  Reports, duplicates and tasks leave the set of nodes alone
(`Registry.Reports`, `Registry.SameNodes`).  When all releases have run, every removal has had
its one event, with an outcome that says what became of the handle (`life_of_node`).
-/

namespace Fleet

variable {σ ρ : Type} [CapacitySource σ ρ]

namespace Registry

omit [CapacitySource σ ρ] in
/-- The ids that are listed are those on record. -/
theorem list_ids {r : Registry ρ} (h : r.store.Intact) :
    ∃ records, r.list = (.ok records, r) ∧ (records.map (·.id) : List NodeId) = r.ids := by
  obtain ⟨records, hlist, hkeys, -⟩ := h.listNodes
  refine ⟨records, ?_, congrArg _ hkeys⟩
  simp only [list, onStore, hlist]

/-- The same nodes, with the same records and handles. -/
structure SameNodes (r r' : Registry ρ) : Prop where
  nodes : r'.store.nodes = r.store.nodes
  handles : r'.handles = r.handles

/-- The same nodes with the same handles, of which at most `id` has its record rewritten, and
there only what reports count. -/
structure Reports (r : Registry ρ) (id : NodeId) (r' : Registry ρ) : Prop where
  ids : r'.ids = r.ids
  handles : r'.handles = r.handles
  others : ∀ other, other ≠ id → r'.store.record? other = r.store.record? other
  recounts : ∀ record, r'.store.record? id = some record →
    ∃ old, r.store.record? id = some old ∧ record.Recounts old

/-- A report rewrites what it counts in the record of its node. -/
theorem updateActivity_reports (id : NodeId) (busy pending : UInt32) (second : UInt64)
    {r : Registry ρ} (hkeyed : r.store.Keyed) :
    r.Reports id (r.updateActivity id busy pending second).2 := by
  have hout := updateActivity_undergoes id busy pending second hkeyed
  have hids := hout.ids
  rw [Change.entered_ofReport, Change.departed_ofReport] at hids
  have hrecord := hout.record?
  cases ha : (r.updateActivity id busy pending second).1 with
  | error e =>
    rw [ha] at hout hrecord
    refine ⟨by simpa using hids, hout.handles, fun other _ => congrFun hrecord other, ?_⟩
    intro record hnew
    exact ⟨record, (congrFun hrecord id).symm.trans hnew, NodeRecord.Recounts.refl record⟩
  | ok record =>
    rw [ha] at hout hrecord
    have hid : record.id = id := updateActivity_ok hkeyed ha
    obtain ⟨old, hold, hcounts⟩ := hout.admits
    rw [hid] at hold
    refine ⟨by simpa using hids, hout.handles, fun other hne => ?_, fun new hnew => ?_⟩
    · rw [hrecord]
      exact Function.update_of_ne (hid ▸ hne) _ _
    · rw [hrecord, Change.ofReport, Change.records, hid, Function.update_self] at hnew
      cases hnew
      exact ⟨old, hold, hcounts⟩

/-- A leak that is noted changes no node. -/
theorem left_sameNodes {r r' : Registry ρ} {leak : Option LeakRecord}
    (h : r.Undergoes r' (r.left leak)) : r.SameNodes r' := by
  cases leak with
  | none => exact ⟨h.nodes, h.handles⟩
  | some leak =>
    have hleft : r.left (some leak) = .ofRecording leak (r.recordLeak leak).1 := rfl
    rw [hleft] at h
    cases ha : (r.recordLeak leak).1 <;> rw [ha] at h <;> exact ⟨h.nodes, h.handles⟩

end Registry

section Release

variable [Freeing σ ρ]

namespace Moment

variable {m : Moment σ}

/-- A node that is handed over under an id on record changes nothing. -/
theorem duplicate_sameNodes (h : m.Steady) {t : Ticking σ} {o : Outstanding ρ}
    {os : List (Outstanding ρ)} {node : RealizedNode ρ} (hticking : m.ticking = some t)
    (hahead : t.ahead = .inFlight (o :: os)) (hready : o.planned.completion = .unread (.ok node))
    (hthere : node.record.id ∈ m.daemon.registry.ids) :
    m.daemon.registry.SameNodes (m.step .advance).daemon.registry := by
  have hstep := step_undergoes h .advance
  have hchange : m.change .advance =
      (Fate.of t.now m.daemon.loop.timeout m.daemon.registry o).1.change := by
    simp only [change, hticking, Ticking.change, hahead, Option.map_some, Option.getD_some]
  have hmeets := Fate.of_meets t.now m.daemon.loop.timeout m.daemon.registry o
  rw [hchange] at hstep
  revert hmeets hstep
  cases (Fate.of t.now m.daemon.loop.timeout m.daemon.registry o).1 with
  | registered node' =>
    intro hstep hmeets
    cases hmeets with
    | registered ready =>
      rw [hready] at ready
      cases ready
      have habsent : m.daemon.registry.store.nodes.contains node.record.id = false := hstep.admits
      rw [Registry.mem_ids, habsent] at hthere
      cases hthere
  | _ => exact fun hstep _ => ⟨hstep.nodes, hstep.handles⟩

/-- A node enters only under an id that is not on record. -/
theorem not_mem_ids_of_entered (h : m.Steady) {a : Act σ} {id : NodeId}
    (hid : id ∈ (m.change a).entered) : id ∉ m.daemon.registry.ids := by
  have hadmits := (step_undergoes h a).admits
  cases hc : m.change a with
  | enters node =>
    rw [hc] at hadmits hid
    obtain rfl := List.mem_singleton.1 hid
    have habsent : m.daemon.registry.store.nodes.contains node.record.id = false := hadmits
    rw [Registry.mem_ids, habsent]
    exact Bool.false_ne_true
  | _ =>
    rw [hc] at hid
    cases hid

/-- A node that does not enter anew leaves once at most, and not if it is off record. -/
theorem count_departures_le (h : m.Steady) {acts : List (Act σ)} {id : NodeId}
    (hid : id ∉ m.entries acts) :
    ((m.departures acts).map (·.node.record.id)).count id ≤ m.daemon.registry.ids.count id := by
  have hcount := congrArg (Multiset.count id) (run_ids h acts)
  rw [Multiset.count_add, Multiset.count_add, Multiset.coe_count, Multiset.coe_count,
    List.count_eq_zero.2 hid] at hcount
  omega

theorem leaks_of_conclude (h : m.Steady) (hcalls : m.daemon.registry.store.faults = [])
    {now : Time} {place : Nat} {c : Conclusion σ} (hc : c ∈ m.conclude (.perform now place)) :
    (m.step (.perform now place)).daemon.registry.store.leaks = match c.leak? with
      | none => m.daemon.registry.store.leaks
      | some leak => m.daemon.registry.store.leaks.insert leak.nodeId leak.toJson.compact := by
  have hleaks := (step_undergoes h (.perform now place)).leaks
  have hleak : m.leak? now place = c.leak? := by
    simp only [conclude] at hc
    unfold leak?
    cases ht : m.daemon.tasks[place]? with
    | none =>
      rw [ht] at hc
      cases hc
    | some t =>
      obtain ⟨due, task⟩ := t
      rw [ht] at hc
      cases task with
      | removal ticket removal =>
        obtain rfl := List.mem_singleton.1 hc
        rfl
      | _ => cases hc
  have hchange : m.change (.perform now place) = (c.leak?.map .leaks).getD .still := by
    rw [← hleak]
    exact Registry.left_of_calls hcalls _
  rw [hleaks, hchange]
  cases c.leak? <;> rfl

end Moment

/-- At any moment of any run on a store whose calls succeed, the ids that are listed are those
of the start, with those that were told to be registered and without those of the nodes that
have left.  It is told that a node was registered only when its id was not on record just
before, and a node that does not enter anew leaves once at most, whatever sweeps and removals
come to it.  A report changes what it counts in the record of its node, and neither a node that
is turned away as a duplicate nor a task changes any.  Each removal that comes to its end has an
outcome that says what became of its handle, and leaves a leak just if that has failed; once
none is under way, all nodes that have left have had one event each. -/
theorem life_of_node (sources : SourceSet σ) (guard : Guard) (timeout : Option Duration)
    (nextId : PlannedId) (store : Store) (orphanPolicy : Option Policy) (signal : Demand.Signal)
    (history : Nat) (hintact : store.Intact) (acts more : List (Moment.Act σ)) :
    let start : Moment σ := .start sources guard timeout nextId store orphanPolicy signal history
    let m := start.run acts
    let r := m.daemon.registry
    ((∃ records, r.list = (.ok records, r) ∧ (records.map (·.id) : List NodeId) = r.ids) ∧
      r.ids + ((start.departures acts).map (·.node.record.id) : List NodeId) =
        (store.nodes.keys : Multiset NodeId) +
          (m.told.filterMap Event.registered? : List NodeId)) ∧
    (∀ a, m.Tells (m.step a) (m.change a).entered ((m.conclude a).map Conclusion.event) ∧
      ∀ id ∈ (m.change a).entered, id ∉ r.ids) ∧
    (r.ids.Nodup ∧ ∀ id, id ∉ m.entries more →
      ((m.departures more).map (·.node.record.id)).count id ≤ r.ids.count id) ∧
    (∀ id busy pending second,
      r.Reports id (m.step (.consult (.report id busy pending second))).daemon.registry) ∧
    (∀ t o os node, m.ticking = some t → t.ahead = .inFlight (o :: os) →
      o.planned.completion = .unread (.ok node) → node.record.id ∈ r.ids →
        r.SameNodes (m.step .advance).daemon.registry) ∧
    (∀ now place, r.SameNodes (m.step (.perform now place)).daemon.registry ∧
      ∀ c ∈ m.conclude (.perform now place),
        (m.step (.perform now place)).daemon.registry.store.leaks = match c.leak? with
          | none => r.store.leaks
          | some leak => r.store.leaks.insert leak.nodeId leak.toJson.compact) ∧
    (∀ c ∈ start.conclusions acts,
      (c.outcome = .nothingToRelease ↔ c.removal.node.release = none) ∧
      (c.outcome = .released ↔ ∃ handle, c.removal.node.release = some handle ∧
        (Freeing.free handle c.sources).1 = .ok ()) ∧
      (∀ error, c.outcome = .leaked error ↔ ∃ handle e, c.removal.node.release = some handle ∧
        (Freeing.free handle c.sources).1 = .error e ∧
        error = (e.about c.removal.node.record.id).message) ∧
      c.leak? = match c.outcome with
        | .leaked error => some ⟨c.removal.node.record.id, c.removal.node.record.source, error,
            c.now.seconds⟩
        | _ => none) ∧
    (m.pending = 0 →
      ((start.conclusions acts).map fun c => (c.ticket, c.removal)).Perm
        (ticketed 0 (start.departures acts)) ∧
      ((start.conclusions acts).map Conclusion.ticket).Nodup ∧
      (m.told.filter Event.isRemoval).Perm ((start.conclusions acts).map Conclusion.event) ∧
      m.daemon.journal.outcomes =
        (start.conclusions acts).map fun c => (c.ticket, c.outcome)) := by
  intro start m r
  have hstart : start.Steady :=
    Moment.steady_start hintact.keyed sources guard timeout nextId orphanPolicy signal history
  have hm : m.Steady := hstart.run acts
  have hmintact : r.store.Intact := Moment.run_intact hstart hintact acts
  have htells := Moment.run_tells start acts
  have hsettles := Moment.run_settles start acts
  refine ⟨⟨Registry.list_ids hmintact, ?_⟩, ?_, ?_, ?_, ?_, ?_, ?_, ?_⟩
  · have hregistered : (m.told.filterMap Event.registered?).Perm (start.entries acts) :=
      htells.registered
    rw [Multiset.coe_eq_coe.2 hregistered]
    exact Moment.run_ids hstart acts
  · intro a
    exact ⟨Moment.step_tells m a, fun id => Moment.not_mem_ids_of_entered hm⟩
  · exact ⟨r.nodup_ids, fun id => Moment.count_departures_le hm⟩
  · intro id busy pending second
    exact Registry.updateActivity_reports id busy pending second hm.keyed
  · intro t o os node
    exact Moment.duplicate_sameNodes hm
  · intro now place
    refine ⟨?_, fun c => Moment.leaks_of_conclude hm hmintact.calls⟩
    exact Registry.left_sameNodes (Moment.step_undergoes hm (.perform now place))
  · intro c _
    exact ⟨c.outcome_eq_nothingToRelease_iff, c.outcome_eq_released_iff, c.outcome_eq_leaked_iff,
      c.leak?_eq⟩
  · intro hdone
    have hpending := hsettles.pending
    have hnone : (start.run acts).pending = 0 := hdone
    rw [hnone, zero_add] at hpending
    have hone : ((start.conclusions acts).map fun c => (c.ticket, c.removal)).Perm
        (ticketed 0 (start.departures acts)) :=
      Multiset.coe_eq_coe.1 (hpending.trans (zero_add _))
    refine ⟨hone, ?_, htells.removals, hsettles.outcomes⟩
    have htickets := (hone.map Prod.fst).nodup_iff.2 (nodup_ticketed 0 _)
    rwa [List.map_map] at htickets

theorem Retirement.departures_expire :
    start.departures [.expire ⟨0⟩ 2000 "n-1"] = [removal] := by
  have hanswer := Registry.detachExpired_of_condemns intact_store.keyed rfl condemned
  show (Change.ofExpiry (start.daemon.registry.detachExpired "n-1" 2000).1).departed ++ [] = _
  rw [hanswer]
  rfl

theorem Retirement.told_expire : (start.run [.expire ⟨0⟩ 2000 "n-1"]).told = [] := by
  have hjournal : (start.run [.expire ⟨0⟩ 2000 "n-1"]).daemon.journal = start.daemon.journal :=
    Moment.expire_journal ⟨0⟩ 2000 "n-1" start.daemon
  rw [Moment.told, hjournal]
  rfl

theorem life_of_node_retired :
    Retirement.store.Intact ∧
      (Retirement.start.run [.expire ⟨0⟩ 2000 "n-1"]).daemon.registry.ids = 0 := by
  obtain ⟨⟨-, hids⟩, -⟩ := life_of_node (σ := Source) ⟨[], by decide⟩ .allowAll none 0
    Retirement.store (some (.condemn "retired")) .board 16 Retirement.intact_store
    [.expire ⟨0⟩ 2000 "n-1"] []
  have hbalance : (Retirement.start.run [.expire ⟨0⟩ 2000 "n-1"]).daemon.registry.ids +
      ((Retirement.start.departures [.expire ⟨0⟩ 2000 "n-1"]).map (·.node.record.id) :
        List NodeId) = (Retirement.store.nodes.keys : Multiset NodeId) +
          ((Retirement.start.run [.expire ⟨0⟩ 2000 "n-1"]).told.filterMap Event.registered? :
            List NodeId) := hids
  have hkeys : Retirement.store.nodes.keys = ["n-1"] := rfl
  rw [Retirement.departures_expire, Retirement.told_expire, hkeys, List.filterMap_nil,
    Multiset.coe_nil, add_zero] at hbalance
  exact ⟨Retirement.intact_store, add_eq_right.1 hbalance⟩

end Release

end Fleet
