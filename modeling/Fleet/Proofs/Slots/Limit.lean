import Fleet.Proofs.Node.Authority
import Fleet.Proofs.Node.Life
import Fleet.Proofs.Slots.Succession

/-!
# The limit of a source

The nodes that a daemon has registered and the capacity that it has in flight are within the
limit of their source (`nodes_within_limit`), since each of them holds a slot.  Nodes that were
restored from the store hold none (`Registry.Restores`), so after a restart a source may have
more than its limit, by as many (`limit_exceeded`).
-/

namespace Fleet

namespace Registry

variable {r r' : Registry ReleaseHandle} {c : Change ReleaseHandle}

/-! ## Handles and records -/

/-- Every handle is that of a node on record and gives back a slot of its source. -/
def Housed (r : Registry ReleaseHandle) : Prop :=
  ∀ id handles, r.handles.get? id = some handles →
    ∃ n, handles.release = some (.slot n id) ∧
      ∃ record, r.store.record? id = some record ∧ record.source = n.text

/-- Every record without a handle comes from the store `s`. -/
def Restores (s : Store) (r : Registry ReleaseHandle) : Prop :=
  ∀ id record, r.store.record? id = some record → r.handles.contains id = false →
    ∃ old, s.record? id = some old ∧ record.source = old.source

theorem restores_ofStore (s : Store) (orphanPolicy : Option Policy) :
    Restores s (.ofStore s orphanPolicy) := fun _ record h _ => ⟨record, h, rfl⟩

theorem housed_ofStore (s : Store) (orphanPolicy : Option Policy) :
    Housed (.ofStore s orphanPolicy) := nofun

theorem Undergoes.housed (h : r.Undergoes r' c) (hnode : ∀ node, c = .enters node → ∃ n, node.Of n)
    (hr : r.Housed) : r'.Housed := by
  intro id handles hget
  cases h.fares id with
  | @entered node enters own record handles' =>
    obtain ⟨n, hof⟩ := hnode node enters
    rw [handles'] at hget
    cases hget
    exact ⟨n, own ▸ hof.release, node.record, record, hof.source⟩
  | left _ handles' =>
    rw [handles'] at hget
    cases hget
  | kept record handles' =>
    rw [handles'] at hget
    obtain ⟨n, hrelease, old, hold, hsource⟩ := hr id handles hget
    rw [hold] at record
    generalize r'.store.record? id = now at record
    cases record with
    | some hcounts => exact ⟨n, hrelease, _, rfl, hcounts.source.trans hsource⟩

theorem Undergoes.restores {s : Store} (h : r.Undergoes r' c) (hr : r.Restores s) :
    r'.Restores s := by
  intro id record hrecord hnone
  rw [SortedMap.contains] at hnone
  cases h.fares id with
  | entered _ _ _ handles =>
    rw [handles] at hnone
    cases hnone
  | left gone _ =>
    rw [gone] at hrecord
    cases hrecord
  | kept row handles =>
    rw [hrecord] at row
    generalize hbefore : r.store.record? id = before at row
    cases row with
    | some hcounts =>
      rw [handles] at hnone
      obtain ⟨first, hfirst, hsource⟩ := hr id _ hbefore hnone
      exact ⟨first, hfirst, hcounts.source.trans hsource⟩

/-! ## Counting -/

variable {records : List NodeRecord}

/-- The nodes of a source that have handles hold slots of it. -/
theorem Housed.countP_le (h : r.Housed) (hnodup : (records.map (·.id)).Nodup)
    (hmem : ∀ record ∈ records, r.store.record? record.id = some record) (n : SourceName) :
    records.countP (fun record => record.source = n.text && r.handles.contains record.id) ≤
      slotsOf n (r.held.map Prod.snd) := by
  have hslots : slotsOf n (r.held.map Prod.snd) =
      ((r.handles.entries.filterMap fun e => e.2.release.map (e.1, ·)).filter
        fun e => e.2.isSlotOf n).length := by
    rw [slotsOf, held, Multiset.map_coe, Multiset.coe_countP, List.countP_map,
      List.countP_eq_length_filter]
    simp only [Function.comp_def, Bool.decide_eq_true]
  have hsubset : (records.filter fun record =>
        record.source = n.text && r.handles.contains record.id).map (·.id) ⊆
      ((r.handles.entries.filterMap fun e => e.2.release.map (e.1, ·)).filter
        fun e => e.2.isSlotOf n).map Prod.fst := by
    intro id hid
    obtain ⟨record, hrecord, rfl⟩ := List.mem_map.1 hid
    rw [List.mem_filter, Bool.and_eq_true, decide_eq_true_iff, SortedMap.contains_iff] at hrecord
    obtain ⟨hrecord, hsource, handles, hhandles⟩ := hrecord
    obtain ⟨n', hrelease, record', hrecord', hsource'⟩ := h record.id handles hhandles
    rw [hmem record hrecord] at hrecord'
    cases hrecord'
    obtain rfl : n' = n := SourceName.ext (hsource'.symm.trans hsource)
    refine List.mem_map.2 ⟨(record.id, .slot n' record.id), List.mem_filter.2 ⟨?_, ?_⟩, rfl⟩
    · refine List.mem_filterMap.2 ⟨(record.id, handles), SortedMap.get?_eq_some_iff.1 hhandles, ?_⟩
      rw [hrelease]
      rfl
    · exact decide_eq_true rfl
  have hle := ((List.filter_sublist.map _).nodup hnodup).subperm hsubset |>.length_le
  rwa [List.length_map, List.length_map, ← List.countP_eq_length_filter, ← hslots] at hle

end Registry

/-- Nodes of a source that have handles, and capacity in flight, have no more slots together
than the source counts. -/
theorem Moment.Balanced.length_live_le {m : Moment Source} (h : m.Balanced) (hm : m.Sound)
    (hattended : m.Attended) (hhoused : m.daemon.registry.Housed) {records : List NodeRecord}
    (hnodup : (records.map (·.id)).Nodup)
    (hmem : ∀ record ∈ records, m.daemon.registry.store.record? record.id = some record)
    {n : SourceName} {s : SimulatedSource}
    (hs : m.daemon.loop.sources.simulated? n = some s) :
    records.countP (fun record => record.source = n.text &&
      m.daemon.registry.handles.contains record.id) + m.inFlight n ≤ s.maxNodes := by
  have hlive := hhoused.countP_le hnodup hmem n
  have hflight := hattended.inFlight_le hm n
  have hcount := h.split hs
  have hlimit := h.limit n s hs
  have hheld : m.places.held = m.daemon.registry.held := rfl
  rw [hheld] at hcount
  omega

/-- Through any number of starts of one configuration, on the store that the runs before have
left, and at every moment of any run: the nodes of a source that are registered and the
capacity that is in flight for it are no more than its limit and the nodes of it that were
restored, that is, those without handles.  These were on record when the daemon started, so
where the store held no node of the source the limit is kept. -/
theorem nodes_within_limit (c : Config) {room : Nat} (store : Store)
    (hstore : store.LeftBy fun c' _ => c' = c) (nextId : PlannedId)
    (d : Daemon Source (Registry ReleaseHandle)) (hbuilt : c.build room store nextId = .ok d)
    (acts : List (Moment.Act Source)) (hacts : ∀ a ∈ acts, a.isInner = true) :
    let m := (⟨d, none⟩ : Moment Source).run acts
    let r := m.daemon.registry
    ∃ records, r.list = (.ok records, r) ∧
      (∀ settings ∈ c.sources, ∀ n : SourceName, n.text = settings.name →
        records.countP (fun record => record.source = n.text) + m.inFlight n ≤
            settings.maxNodes + records.countP (fun record =>
              record.source = n.text && !r.handles.contains record.id) ∧
          ((∀ id old, store.record? id = some old → old.source ≠ n.text) →
            records.countP (fun record => record.source = n.text) + m.inFlight n ≤
              settings.maxNodes)) ∧
      ∀ record ∈ records, r.handles.contains record.id = false →
        ∃ old, store.record? record.id = some old ∧ record.source = old.source := by
  intro m r
  have hintact := hstore.intact
  have hsteady := Config.build_steady hbuilt hintact
  have hfit := Config.build_fit hbuilt
  have hattended := Config.build_attended hbuilt
  have hregistry := Config.build_registry hbuilt hintact
  have hmfit : m.Fit := hfit.run hacts
  have hmintact : r.store.Intact :=
    Moment.run_intact hsteady (by show d.registry.store.Intact; rwa [hregistry]) acts
  have hhoused : r.Housed := Moment.run_registry (P := Registry.Housed)
    (fun h hnode hr => h.housed hnode hr) hsteady hfit hattended hacts
    (by show d.registry.Housed; rw [hregistry]; exact Registry.housed_ofStore _ _)
  have hrestores : r.Restores store := Moment.run_registry (P := Registry.Restores store)
    (fun h _ hr => h.restores hr) hsteady hfit hattended hacts
    (by show d.registry.Restores store; rw [hregistry]; exact Registry.restores_ofStore _ _)
  obtain ⟨records, hlist, hkeys, hmem⟩ := hmintact.listNodes
  have hnodup : (records.map (·.id)).Nodup := by
    have hids := r.nodup_ids
    rwa [Registry.ids, ← hkeys] at hids
  refine ⟨records, Registry.list_of_listNodes hlist, ?_, ?_⟩
  · intro settings hsettings n hn
    obtain ⟨s, hs, hmax⟩ := Moment.simulated?_run hbuilt hacts hsettings hn
    have hlive : records.countP (fun record => record.source = n.text &&
        r.handles.contains record.id) + m.inFlight n ≤ settings.maxNodes := hmax ▸
      ((Config.build_balanced hbuilt).run hfit hacts).length_live_le hmfit.sound
        (hattended.run hfit hacts) hhoused hnodup (fun record hr => (hmem record).1 hr) hs
    have hsplit := List.countP_eq_countP_filter_add records (fun record => record.source = n.text)
      (fun record => r.handles.contains record.id)
    rw [List.countP_filter, List.countP_filter] at hsplit
    refine ⟨by omega, fun hnew => ?_⟩
    have hnone : records.countP (fun record =>
        record.source = n.text && !r.handles.contains record.id) = 0 := by
      refine List.countP_eq_zero.2 fun record hrecord hrestored => ?_
      rw [Bool.and_eq_true, decide_eq_true_iff, Bool.not_eq_true'] at hrestored
      obtain ⟨old, hold, hsource⟩ := hrestores record.id record ((hmem record).1 hrecord)
        hrestored.2
      exact hnew record.id old hold (hsource.symm.trans hrestored.1)
    omega
  · exact fun record hrecord => hrestores record.id record ((hmem record).1 hrecord)

theorem nodes_within_limit_filled :
    Solo.config.build 16 Solo.filled 2 = .ok (Solo.daemon Solo.filled 2 2) ∧
      ∃ records, ((⟨Solo.daemon Solo.filled 2 2, none⟩ : Moment Source).run
          Solo.filling).daemon.registry.list.1 = .ok records ∧
        records.countP (fun record => record.source = "sim") +
            ((⟨Solo.daemon Solo.filled 2 2, none⟩ : Moment Source).run Solo.filling).inFlight
              Solo.name ≤
          1 + records.countP (fun record => record.source = "sim" &&
            !((⟨Solo.daemon Solo.filled 2 2, none⟩ : Moment Source).run
              Solo.filling).daemon.registry.handles.contains record.id) := by
  obtain ⟨records, hlist, hlimit, -⟩ := nodes_within_limit Solo.config Solo.filled
    (Solo.leftBy_filled rfl) 2 _ Solo.build_filled Solo.filling
    Solo.filling_isInner
  exact ⟨Solo.build_filled, records, congrArg Prod.fst hlist,
    (hlimit Solo.settings List.mem_cons_self Solo.name rfl).1⟩

/-- The limit itself is not kept: a source with one slot whose node has been restored grants
the slot once more. -/
theorem limit_exceeded :
    ¬∀ (c : Config) (store : Store), (store.LeftBy fun c' _ => c' = c) →
      ∀ (room : Nat) (nextId : PlannedId) (d : Daemon Source (Registry ReleaseHandle)),
        c.build room store nextId = .ok d →
        ∀ acts : List (Moment.Act Source), (∀ a ∈ acts, a.isInner = true) →
          ∀ records, ((⟨d, none⟩ : Moment Source).run acts).daemon.registry.list.1 = .ok records →
            ∀ settings ∈ c.sources, ∀ n : SourceName, n.text = settings.name →
              records.countP (fun record => record.source = n.text) +
                ((⟨d, none⟩ : Moment Source).run acts).inFlight n ≤ settings.maxNodes := by
  intro h
  have hlist : ((⟨Solo.daemon Solo.filled 2 2, none⟩ : Moment Source).run
      [.provision ⟨0⟩ Solo.actor "sim" none 1]).daemon.registry.list.1 =
        .ok [Solo.record] := by decide +kernel
  have hlimit := h Solo.config Solo.filled (Solo.leftBy_filled rfl) 16 2 _ Solo.build_filled
    [.provision ⟨0⟩ Solo.actor "sim" none 1] (by simp [Moment.Act.isInner]) [Solo.record]
    hlist
    Solo.settings List.mem_cons_self Solo.name rfl
  have hflight : ((⟨Solo.daemon Solo.filled 2 2, none⟩ : Moment Source).run
      [.provision ⟨0⟩ Solo.actor "sim" none 1]).inFlight Solo.name = 1 := by decide +kernel
  rw [hflight] at hlimit
  exact absurd hlimit (by decide)

end Fleet
