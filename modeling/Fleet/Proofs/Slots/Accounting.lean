import Fleet.Proofs.Node.Removal
import Fleet.Proofs.Slots.Start

/-!
# No slot is lost

Where all sources are simulated, every slot that a source counts is held by a node that boots,
by one that has come up and is unread, by one that is registered, or by a release under way
(`slots_accounted`).  So no release fails, no leak is noted (`step_leaks`), and every node that
leaves with a handle ends as released.
-/

namespace Fleet

/-! ## Calls that note no leak -/

theorem Store.attempt_leaks {α : Type} {call : Store → Except StateError α × Store} (s : Store)
    (h : ∀ s, (call s).2.leaks = s.leaks) : (s.attempt call).2.leaks = s.leaks := by
  rcases s.attempt_cases call with ⟨e, he⟩ | he
  · rw [he]
  · rw [he]
    exact h _

theorem Store.deleteNode_leaks (id : NodeId) (s : Store) : (s.deleteNode id).2.leaks = s.leaks := by
  unfold deleteNode
  exact s.attempt_leaks fun _ => rfl

theorem Store.putNode_leaks (record : NodeRecord) (s : Store) :
    (s.putNode record).2.leaks = s.leaks := by
  unfold putNode
  exact s.attempt_leaks fun _ => rfl

namespace Registry

variable {ρ : Type} (r : Registry ρ)

theorem detachRecord_leaks (record : NodeRecord) :
    (r.detachRecord record).2.store.leaks = r.store.leaks := by
  have hdelete : (r.onStore (Store.deleteNode record.id)).2.store.leaks = r.store.leaks :=
    r.store.deleteNode_leaks record.id
  unfold detachRecord
  split <;> rename_i he <;> rw [he] at hdelete <;> exact hdelete

theorem detach_leaks (id : NodeId) : (r.detach id).2.store.leaks = r.store.leaks := by
  have hget : (r.onStore (Store.getNode id)).2.store.leaks = r.store.leaks :=
    (r.store.getNode_stays id).leaks
  unfold detach
  rcases hg : r.onStore (Store.getNode id) with ⟨_ | _ | record, r'⟩ <;> rw [hg] at hget
  · exact hget
  · exact hget
  · have hout := r'.detachRecord_leaks record
    dsimp only
    rcases hr : r'.detachRecord record with ⟨_ | _, r''⟩ <;> rw [hr] at hout <;>
      exact hout.trans hget

theorem detachExpired_leaks (id : NodeId) (now : UInt64) :
    (r.detachExpired id now).2.store.leaks = r.store.leaks := by
  have hget : (r.onStore (Store.getNode id)).2.store.leaks = r.store.leaks :=
    (r.store.getNode_stays id).leaks
  unfold detachExpired
  rcases hg : r.onStore (Store.getNode id) with ⟨_ | _ | record, r'⟩ <;> rw [hg] at hget
  · exact hget
  · exact hget
  · dsimp only
    cases r'.decide record now with
    | keep => exact hget
    | remove reason =>
      have hout := r'.detachRecord_leaks record
      dsimp only
      rcases hr : r'.detachRecord record with ⟨_ | _, r''⟩ <;> rw [hr] at hout <;>
        exact hout.trans hget

theorem updateActivity_leaks (id : NodeId) (busy pending : UInt32) (now : UInt64) :
    (r.updateActivity id busy pending now).2.store.leaks = r.store.leaks := by
  have hget : (r.onStore (Store.getNode id)).2.store.leaks = r.store.leaks :=
    (r.store.getNode_stays id).leaks
  unfold updateActivity
  rcases hg : r.onStore (Store.getNode id) with ⟨_ | _ | record, r'⟩ <;> rw [hg] at hget
  · exact hget
  · exact hget
  · have hput : (r'.onStore
        (Store.putNode (record.reportActivity busy pending now))).2.store.leaks =
          r'.store.leaks := r'.store.putNode_leaks _
    dsimp only
    split <;> rename_i he <;> rw [he] at hput <;> exact hput.trans hget

/-- No leak has been noted between `r` and `r'`; some may have been resolved. -/
def AddsNoLeak (r r' : Registry ρ) : Prop :=
  ∀ id row, r'.store.leaks.get? id = some row → r.store.leaks.get? id = some row

theorem AddsNoLeak.of_eq {r r' : Registry ρ} (h : r'.store.leaks = r.store.leaks) :
    r.AddsNoLeak r' := fun _ _ hrow => h ▸ hrow

theorem AddsNoLeak.trans {r r' r'' : Registry ρ} (h : r.AddsNoLeak r') (h' : r'.AddsNoLeak r'') :
    r.AddsNoLeak r'' := fun id row hrow => h id row (h' id row hrow)

theorem consult_addsNoLeak (c : Consultation) : r.AddsNoLeak (r.consult c) := by
  cases c with
  | get id => exact .of_eq (r.get_undergoes id).leaks
  | list => exact .of_eq r.list_undergoes.leaks
  | evaluate second => exact .of_eq (r.evaluateRetention_undergoes second).leaks
  | report id busy pending second => exact .of_eq (r.updateActivity_leaks id busy pending second)
  | listLeaks => exact .of_eq (undergoes_onStore r r.store.listLeaks_stays).leaks
  | resolveLeak id =>
    intro id' row hrow
    have hleaks := (r.deleteLeak_undergoes id).leaks
    change (r.onStore (Store.deleteLeak id)).2.store.leaks.get? id' = some row at hrow
    rw [hleaks] at hrow
    cases hanswer : (r.onStore (Store.deleteLeak id)).1 with
    | error e =>
      rw [hanswer] at hrow
      exact hrow
    | ok found =>
      rw [hanswer] at hrow
      change (r.store.leaks.erase id).get? id' = some row at hrow
      rw [SortedMap.get?_erase] at hrow
      split at hrow
      · cases hrow
      · exact hrow

end Registry

namespace Moment

variable {m : Moment Source}

/-! ## Releases that do not fail -/

namespace Balanced

/-- No task leaves a leak. -/
theorem leak?_eq_none (h : m.Balanced) (hfit : m.Fit) (now : Time) (place : Nat) :
    m.leak? now place = none := by
  have hnone {record : NodeRecord} {release : Option ReleaseHandle}
      (hrelease : ∀ handle ∈ release,
        m.daemon.loop.sources.freed? (some handle) = some (.ok ())) :
      m.daemon.loop.sources.leak? now record release = none := by
    cases release with
    | none => rfl
    | some handle => rw [SourceSet.leak?, hrelease handle rfl]
  rw [leak?, Option.bind_eq_none_iff]
  intro t ht
  have hfreed : ∀ handle ∈ t.task.handle?,
      m.daemon.loop.sources.freed? (some handle) = some (.ok ()) :=
    fun _ => h.freed?_task hfit.simulated (List.mem_of_getElem? ht)
  obtain ⟨due, task⟩ := t
  cases task with
  | boot id node => rfl
  | reclaim node => exact hnone hfreed
  | removal ticket removal => exact hnone hfreed

/-- A removal of a node that has a handle ends as released. -/
theorem outcome_of_conclude (h : m.Balanced) (hfit : m.Fit) {a : Act Source}
    {c : Conclusion Source} (hc : c ∈ m.conclude a) {handle : ReleaseHandle}
    (hhandle : c.removal.node.release = some handle) : c.outcome = .released := by
  cases a with
  | perform now place =>
    unfold conclude at hc
    dsimp only at hc
    split at hc
    · rename_i ticket removal ht
      rw [List.mem_singleton] at hc
      subst hc
      obtain ⟨t, ht, htask⟩ := Option.map_eq_some_iff.1 ht
      have hhandle? : t.task.handle? = some handle := by rw [htask]; exact hhandle
      have hfreed := h.freed?_task hfit.simulated (List.mem_of_getElem? ht) hhandle?
      refine (Conclusion.outcome_eq_released_iff _).2 ⟨handle, hhandle, ?_⟩
      exact Option.some.inj hfreed
    · cases hc
  | _ => cases hc

end Balanced

/-- An act notes no leak. -/
theorem step_leaks (hfit : m.Fit) (h : m.Balanced) (a : Act Source) :
    m.daemon.registry.AddsNoLeak (m.step a).daemon.registry := by
  cases a with
  | begin now =>
    simp only [step, begin]
    split <;> exact .of_eq rfl
  | advance =>
    obtain ⟨d, ticking⟩ := m
    cases ticking with
    | none => exact .of_eq rfl
    | some t =>
      have hleaks := (t.advance_undergoes d).leaks
      refine .of_eq (hleaks.trans ?_)
      unfold Ticking.change
      split
      · cases (Fate.of t.now d.loop.timeout d.registry _).1 <;> rfl
      · rfl
  | provision now actor source label workload =>
    simp only [step]
    split <;> exact .of_eq rfl
  | deliver id result => exact .of_eq rfl
  | changeSources sources => exact .of_eq rfl
  | changeDemand board => exact .of_eq rfl
  | consult c => exact m.daemon.registry.consult_addsNoLeak c
  | expire now second id =>
    have hleaks := m.daemon.registry.detachExpired_leaks id second
    simp only [step, expire_eq]
    rcases hr : m.daemon.registry.detachExpired id second with ⟨_ | (_ | _), _⟩ <;>
      rw [hr] at hleaks <;> exact .of_eq hleaks
  | remove now actor id reason =>
    have hleaks := m.daemon.registry.detach_leaks id
    have hinstance : NodeRegistry.detach id m.daemon.registry = m.daemon.registry.detach id := rfl
    simp only [step, remove, detachFor, hinstance]
    rcases hr : m.daemon.registry.detach id with ⟨_ | (_ | _), _⟩ <;>
      rw [hr] at hleaks <;> exact .of_eq hleaks
  | perform now place =>
    have hundergoes := m.perform_undergoes now place
    rw [h.leak?_eq_none hfit now place] at hundergoes
    exact .of_eq hundergoes.leaks

/-! ## Runs -/

variable {acts : List (Act Source)}

theorem run_leaks (hfit : m.Fit) (h : m.Balanced) (hacts : ∀ a ∈ acts, a.isInner = true) :
    m.daemon.registry.AddsNoLeak (m.run acts).daemon.registry := by
  have hkept := hfit.run_keeps
    (P := fun m' => m'.Balanced ∧ m.daemon.registry.AddsNoLeak m'.daemon.registry)
    (fun hfit ha h => ⟨h.1.step hfit ha, h.2.trans (step_leaks hfit h.1 _)⟩) hacts ⟨h, .of_eq rfl⟩
  exact hkept.2

theorem outcome_of_conclusions (hfit : m.Fit) (h : m.Balanced)
    (hacts : ∀ a ∈ acts, a.isInner = true) {c : Conclusion Source} (hc : c ∈ m.conclusions acts)
    {handle : ReleaseHandle} (hhandle : c.removal.node.release = some handle) :
    c.outcome = .released := by
  induction acts generalizing m with
  | nil => cases hc
  | cons a acts ih =>
    rw [List.forall_mem_cons] at hacts
    rcases List.mem_append.1 hc with hc | hc
    · exact h.outcome_of_conclude hfit hc hhandle
    · exact ih (hfit.step hacts.1) (h.step hfit hacts.1) hacts.2 hc

end Moment

/-- At every moment of any run of a daemon that a configuration builds, on whatever store it
does so and whichever calls to the store fail, each source counts as many slots as its nodes
hold that are booting, have come up and are unread, are registered with a handle, or are being
released, and never more than it has.  What is there to be freed can be freed: no leak has been
noted, and the removal of a node that had a handle is under way or has ended as released.
Wherever operations of the daemon lead, such a run does. -/
theorem slots_accounted (c : Config) {room : Nat} (store : Store) (nextId : PlannedId)
    (d : Daemon Source (Registry ReleaseHandle)) (hbuilt : c.build room store nextId = .ok d)
    (acts : List (Moment.Act Source)) (hacts : ∀ a ∈ acts, a.isInner = true) :
    let start : Moment Source := ⟨d, none⟩
    let m := start.run acts
    (∀ settings ∈ c.sources, ∀ n : SourceName, n.text = settings.name →
      ∃ s, m.daemon.loop.sources.simulated? n = some s ∧ s.maxNodes = settings.maxNodes ∧
        s.nodeCount = m.sleeping n + slotsOf n (m.places.unread.map Prod.snd) +
          slotsOf n (m.places.held.map Prod.snd) + slotsOf n m.places.tasked ∧
        s.nodeCount ≤ settings.maxNodes) ∧
    (∀ t ∈ m.daemon.tasks, ∀ handle, t.task.handle? = some handle →
      m.daemon.loop.sources.freed? (some handle) = some (.ok ())) ∧
    (∀ b ∈ m.booting, m.daemon.loop.sources.freed? b.2.release = some (.ok ())) ∧
    (∀ id row, m.daemon.registry.store.leaks.get? id = some row →
      store.leaks.get? id = some row) ∧
    (∀ entry ∈ ticketed 0 (start.departures acts), ∀ handle,
      entry.2.node.release = some handle →
        entry ∈ m.pending ∨ (entry.1, .released) ∈ m.daemon.journal.outcomes) ∧
    ∀ ops : List (Daemon.Operation Source), (∀ op ∈ ops, op.isInner = true) →
      ∃ run : List (Moment.Act Source), (∀ a ∈ run, a.isInner = true) ∧
        start.run run = ⟨ops.foldl Daemon.operate d, none⟩ := by
  intro start m
  have hfit : start.Fit := Config.build_fit hbuilt
  have hbalanced : start.Balanced := Config.build_balanced hbuilt
  have hmfit : m.Fit := hfit.run hacts
  have hm : m.Balanced := hbalanced.run hfit hacts
  obtain ⟨existing, sources, -, -, hstart⟩ := Config.build_ok hbuilt
  refine ⟨fun settings hsettings n hn => ?_, fun t ht handle => hm.freed?_task hmfit.simulated ht,
    fun b => hm.freed?_booting hmfit.simulated, fun id row hrow => ?_,
    fun entry hentry handle hhandle => ?_, fun ops hops => ?_⟩
  · obtain ⟨s, hs, hlimit⟩ := Moment.simulated?_run hbuilt hacts hsettings hn
    exact ⟨s, hs, hlimit, hm.split hs, hlimit ▸ hm.limit n s hs⟩
  · have hleaks := Moment.run_leaks hfit hbalanced hacts id row hrow
    change (⟨d, none⟩ : Moment Source).daemon.registry.store.leaks.get? id = _ at hleaks
    rw [hstart] at hleaks
    have hsame : store.listNodes.2.leaks = store.leaks := store.listNodes_stays.leaks
    exact hsame ▸ hleaks
  · have hsettles := Moment.run_settles start acts
    have hticket : start.daemon.nextTicket = 0 := by
      show (⟨d, none⟩ : Moment Source).daemon.nextTicket = 0
      rw [hstart]
      rfl
    have hmem : entry ∈ m.pending + Conclusion.entries (start.conclusions acts) := by
      rw [hsettles.pending, hticket]
      exact Multiset.mem_add.2 (.inr (Multiset.mem_coe.2 hentry))
    refine (Multiset.mem_add.1 hmem).imp_right fun hmem => ?_
    obtain ⟨c, hc, rfl⟩ := List.mem_map.1 (Multiset.mem_coe.1 hmem)
    have houtcome := Moment.outcome_of_conclusions hfit hbalanced hacts hc hhandle
    rw [hsettles.outcomes]
    exact List.mem_append_right _ (List.mem_map.2 ⟨c, hc, congrArg (c.ticket, ·) houtcome⟩)
  · obtain ⟨run, hrun, hinner⟩ := Moment.run_innerOperations ops d
    exact ⟨run, hinner hops, hrun⟩

theorem slots_accounted_solo :
    Solo.config.build 16 .empty 1 = .ok (Solo.daemon .empty 1 1) ∧
      ∃ s, ((⟨Solo.daemon .empty 1 1, none⟩ : Moment Source).run
          [.provision ⟨0⟩ Solo.actor "sim" none 3]).daemon.loop.sources.simulated? Solo.name =
            some s ∧ s.nodeCount ≤ 1 := by
  obtain ⟨hsources, -⟩ := slots_accounted Solo.config .empty 1 _ Solo.build_empty
    [.provision ⟨0⟩ Solo.actor "sim" none 3] (by simp [Moment.Act.isInner])
  obtain ⟨s, hs, -, -, hlimit⟩ := hsources Solo.settings List.mem_cons_self Solo.name rfl
  exact ⟨Solo.build_empty, s, hs, hlimit⟩

end Fleet
