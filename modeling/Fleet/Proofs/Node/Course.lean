import Fleet.Proofs.Custody.Conservation
import Fleet.Proofs.Node.Change

/-!
# The course of the registry

Each act of the daemon makes the change to the registry that the answer of its one call tells
(`Moment.change`, `step_undergoes`), on a moment that is `Steady`: sound, and with every record
under its own id.  Acts keep a moment steady, so along a run the ids on record are always those
it began with, with those that have entered and without those that have left (`run_ids`).
-/

namespace Fleet

variable {σ ρ : Type} [CapacitySource σ ρ]

/-! ## The change that an act makes -/

/-- The change that a consultation makes. -/
def Registry.consulted (r : Registry ρ) : Consultation → Change ρ
  | .report id busy pending second => .ofReport (r.updateActivity id busy pending second).1
  | .resolveLeak id => .ofResolution id (r.onStore (Store.deleteLeak id)).1
  | _ => .still

theorem Registry.entered_consulted (r : Registry ρ) (c : Consultation) :
    (r.consulted c).entered = [] := by
  cases c with
  | report id busy pending second => exact Change.entered_ofReport _
  | resolveLeak id => exact Change.entered_ofResolution id _
  | _ => rfl

theorem Registry.departed_consulted (r : Registry ρ) (c : Consultation) :
    (r.consulted c).departed = [] := by
  cases c with
  | report id busy pending second => exact Change.departed_ofReport _
  | resolveLeak id => exact Change.departed_ofResolution id _
  | _ => rfl

theorem Registry.consult_undergoes (c : Consultation) {r : Registry ρ}
    (hkeyed : r.store.Keyed) : r.Undergoes (r.consult c) (r.consulted c) := by
  cases c with
  | get id => exact r.get_undergoes id
  | list => exact r.list_undergoes
  | evaluate second => exact r.evaluateRetention_undergoes second
  | report id busy pending second =>
    exact updateActivity_undergoes id busy pending second hkeyed
  | listLeaks => exact undergoes_onStore r r.store.listLeaks_stays
  | resolveLeak id => exact r.deleteLeak_undergoes id

/-- A node enters if the look at its capacity registers it. -/
def Fate.change : Fate ρ → Change ρ
  | registered node => .enters node
  | _ => .still

theorem Fate.of_undergoes (now : Time) (timeout : Option Duration) (r : Registry ρ)
    (o : Outstanding ρ) :
    r.Undergoes (Fate.of now timeout r o).2 (Fate.of now timeout r o).1.change := by
  unfold Fate.of
  cases o.planned.completion with
  | waiting =>
    dsimp only
    split <;> exact .refl r
  | unread result =>
    cases result with
    | error e => exact .refl r
    | ok node =>
      have h := r.register_undergoes node
      have hinstance : NodeRegistry.register node r = r.register node := rfl
      dsimp only
      rw [hinstance]
      cases hr : (r.register node).1 <;> rw [hr] at h <;> exact h
  | spent => exact .refl r

/-- The change that the next step of a tick makes. -/
def Ticking.change (d : Daemon σ (Registry ρ)) (t : Ticking σ) : Change ρ :=
  match t.ahead with
  | .inFlight (o :: _) => (Fate.of t.now d.loop.timeout d.registry o).1.change
  | _ => .still

/-- A tick takes no node out. -/
theorem Ticking.departed_change (d : Daemon σ (Registry ρ)) (t : Ticking σ) :
    (t.change d).departed = [] := by
  unfold change
  split
  · cases (Fate.of t.now d.loop.timeout d.registry _).1 <;> rfl
  · rfl

section Steps

variable [Freeing σ ρ]

/-- What the release of a node comes to at the sources; `none` if it has no handle. -/
def SourceSet.freed? (sources : SourceSet σ) (release : Option ρ) :
    Option (Except ReleaseError Unit) :=
  release.map fun handle => (Freeing.free handle sources).1

/-- The leak that is left of a node when its handle fails. -/
def SourceSet.leak? (sources : SourceSet σ) (now : Time) (record : NodeRecord)
    (release : Option ρ) : Option LeakRecord :=
  match sources.freed? release with
  | some (.error e) => some (record.leak now.seconds e)
  | _ => none

/-- The leak that is left by a task that runs. -/
def Task.leak? (sources : SourceSet σ) (now : Time) : Task ρ → Option LeakRecord
  | boot _ _ => none
  | reclaim node => sources.leak? now node.record node.release
  | removal _ r => sources.leak? now r.node.record r.node.release

/-- The change that is made when a task has left a leak, if it has. -/
def Registry.left (r : Registry ρ) : Option LeakRecord → Change ρ
  | none => .still
  | some leak => .ofRecording leak (r.recordLeak leak).1

omit [CapacitySource σ ρ] [Freeing σ ρ] in
/-- Where no call fails, a leak is noted. -/
theorem Registry.left_of_calls {r : Registry ρ} (h : r.store.faults = [])
    (leak : Option LeakRecord) : r.left leak = (leak.map .leaks).getD .still := by
  cases leak with
  | none => rfl
  | some leak =>
    have hput : r.store.putLeak leak = (.ok (), { r.store with
        leaks := r.store.leaks.insert leak.nodeId leak.toJson.compact }) :=
      Store.attempt_of_calls h _
    simp only [left, recordLeak, onStore, hput]
    rfl

omit [CapacitySource σ ρ] [Freeing σ ρ] in
theorem Registry.entered_left (r : Registry ρ) (leak : Option LeakRecord) :
    (r.left leak).entered = [] := by
  cases leak with
  | none => rfl
  | some leak => exact Change.entered_ofRecording leak _

omit [CapacitySource σ ρ] [Freeing σ ρ] in
theorem Registry.departed_left (r : Registry ρ) (leak : Option LeakRecord) :
    (r.left leak).departed = [] := by
  cases leak with
  | none => rfl
  | some leak => exact Change.departed_ofRecording leak _

namespace Moment

/-- The leak that is left when the task at a place runs. -/
def leak? (m : Moment σ) (now : Time) (place : Nat) : Option LeakRecord :=
  m.daemon.tasks[place]?.bind fun t => t.task.leak? m.daemon.loop.sources now

/-- The change that an act makes to the registry. -/
def change (m : Moment σ) : Act σ → Change ρ
  | .advance => (m.ticking.map fun t => t.change m.daemon).getD .still
  | .consult c => m.daemon.registry.consulted c
  | .expire _ second id => .ofExpiry (m.daemon.registry.detachExpired id second).1
  | .remove _ actor id reason => .ofRemoval (detachFor actor id reason m.daemon.registry).1
  | .perform now place => m.daemon.registry.left (m.leak? now place)
  | _ => .still

end Moment

theorem Ticking.advance_undergoes (d : Daemon σ (Registry ρ)) (t : Ticking σ) :
    d.registry.Undergoes (t.advance d).daemon.registry (t.change d) := by
  unfold advance change
  cases t.ahead with
  | inFlight rest =>
    cases rest with
    | nil => exact .refl _
    | cons o os =>
      dsimp only
      rw [Round.pollEntry_eq]
      exact Fate.of_undergoes t.now d.loop.timeout d.registry o
  | late rest =>
    cases rest with
    | nil =>
      obtain ⟨_, _, -, hregistry, -⟩ := Round.evaluateAll_asks t.now t.demands (t.current d)
      have hsame : (((t.current d).evaluateAll t.now t.demands).finish).registry = d.registry :=
        hregistry
      dsimp only [Daemon.absorb, Daemon.emitAll]
      rw [hsame]
      exact .refl _
    | cons a as =>
      dsimp only
      rw [Round.pollLate_eq]
      exact .refl _

theorem Daemon.freeNode_fst (release : Option ρ) (d : Daemon σ (Registry ρ)) :
    (d.freeNode release).1 = d.loop.sources.freed? release := by
  cases release <;> rfl

theorem Daemon.freeNode_registry (release : Option ρ) (d : Daemon σ (Registry ρ)) :
    (d.freeNode release).2.registry = d.registry := by
  cases release <;> rfl

theorem Daemon.runReclaim_registry (now : Time) (node : RealizedNode ρ)
    (d : Daemon σ (Registry ρ)) :
    (d.runReclaim now node).registry =
      match d.loop.sources.leak? now node.record node.release with
      | none => d.registry
      | some leak => (d.registry.recordLeak leak).2 := by
  have hresult := d.freeNode_fst node.release
  have hregistry := d.freeNode_registry node.release
  unfold runReclaim SourceSet.leak?
  rw [← hresult]
  cases hf : d.freeNode node.release with
  | mk result d' =>
    rw [hf] at hregistry
    rcases result with _ | _ | _
    · exact hregistry
    · exact congrArg (fun r : Registry ρ => (r.recordLeak _).2) hregistry
    · exact hregistry

theorem Daemon.runRemoval_registry (now : Time) (ticket : Nat) (removal : Removal ρ)
    (d : Daemon σ (Registry ρ)) :
    (d.runRemoval now ticket removal).registry =
      match d.loop.sources.leak? now removal.node.record removal.node.release with
      | none => d.registry
      | some leak => (d.registry.recordLeak leak).2 := by
  have hresult := d.freeNode_fst removal.node.release
  have hregistry := d.freeNode_registry removal.node.release
  unfold SourceSet.leak?
  rw [← hresult]
  show (removal.conclude now.seconds (d.freeNode removal.node.release).1
    (d.freeNode removal.node.release).2.registry).2 = _
  rw [hregistry]
  unfold Removal.conclude
  rcases (d.freeNode removal.node.release).1 with _ | _ | _ <;> rfl

theorem Registry.left_undergoes (leak : Option LeakRecord) (r : Registry ρ) :
    r.Undergoes (match leak with
      | none => r
      | some leak => (r.recordLeak leak).2) (r.left leak) := by
  cases leak with
  | none => exact .refl r
  | some leak => exact r.recordLeak_undergoes leak

namespace Moment

/-- A task changes no more than the leaks. -/
theorem perform_undergoes (now : Time) (place : Nat) (m : Moment σ) :
    m.daemon.registry.Undergoes (m.perform now place).daemon.registry
      (m.daemon.registry.left (m.leak? now place)) := by
  have h := m.daemon.registry.left_undergoes (m.leak? now place)
  unfold leak? at h ⊢
  unfold perform
  cases ht : m.daemon.tasks[place]? with
  | none => exact .refl _
  | some t =>
    rw [ht] at h
    obtain ⟨due, task⟩ := t
    show m.daemon.registry.Undergoes ((m.picked place).runTask now task).daemon.registry _
    cases task with
    | boot id node =>
      dsimp only [runTask]
      split
      · exact .refl _
      · have hfree := (m.picked place).daemon.freeNode_registry node.release
        exact hfree ▸ .refl _
    | reclaim node =>
      exact ((m.picked place).daemon.runReclaim_registry now node).symm ▸ h
    | removal ticket removal =>
      exact ((m.picked place).daemon.runRemoval_registry now ticket removal).symm ▸ h

/-- A sweep that comes to a node starts its release if the registry gives it away. -/
theorem expire_eq (now : Time) (second : UInt64) (id : NodeId) (d : Daemon σ (Registry ρ)) :
    expire now second id d = match d.registry.detachExpired id second with
      | (.ok (some (node, reason)), registry) =>
        ({ d with registry }.beginRelease now ⟨node, reason⟩).2
      | (_, registry) => { d with registry } := by
  have hinstance : NodeRegistry.detachExpired id second d.registry =
      d.registry.detachExpired id second := rfl
  unfold expire Sweep.expire
  rw [hinstance]
  rcases d.registry.detachExpired id second with ⟨_ | (_ | _), _⟩ <;> rfl

theorem expire_undergoes (now : Time) (second : UInt64) (id : NodeId)
    {d : Daemon σ (Registry ρ)} (hkeyed : d.registry.store.Keyed) :
    d.registry.Undergoes (expire now second id d).registry
      (.ofExpiry (d.registry.detachExpired id second).1) := by
  have h := Registry.detachExpired_undergoes id second hkeyed
  rw [expire_eq]
  revert h
  rcases d.registry.detachExpired id second with ⟨_ | (_ | _), _⟩ <;> exact fun h => h

theorem remove_undergoes (now : Time) (actor : Actor) (id : NodeId) (reason : String)
    {d : Daemon σ (Registry ρ)} (hkeyed : d.registry.store.Keyed)
    (horderly : d.registry.Orderly) :
    d.registry.Undergoes (remove now actor id reason d).registry
      (.ofRemoval (detachFor actor id reason d.registry).1) := by
  have h := Registry.detach_undergoes id hkeyed horderly
    ("removed by " ++ actor.name ++ ": " ++ reason)
  have hinstance : NodeRegistry.detach id d.registry = d.registry.detach id := rfl
  unfold remove detachFor
  rw [hinstance]
  revert h
  rcases d.registry.detach id with ⟨_ | (_ | _), _⟩ <;> exact fun h => h

/-! ## Steady moments -/

omit [Freeing σ ρ] in
/-- A sound moment whose records go by their own ids. -/
structure Steady (m : Moment σ) : Prop where
  sound : m.Sound
  keyed : m.daemon.registry.store.Keyed

variable {m : Moment σ}

/-- An act changes the registered nodes by what its call was answered. -/
theorem step_undergoes (h : m.Steady) (a : Act σ) :
    m.daemon.registry.Undergoes (m.step a).daemon.registry (m.change a) := by
  cases a with
  | begin now =>
    simp only [step, begin]
    split <;> exact .refl _
  | advance =>
    obtain ⟨d, ticking⟩ := m
    cases ticking with
    | none => exact .refl _
    | some t => exact t.advance_undergoes d
  | provision now actor source label workload =>
    simp only [step]
    split <;> exact .refl _
  | deliver id result => exact .refl _
  | changeSources sources => exact .refl _
  | changeDemand board => exact .refl _
  | consult c => exact Registry.consult_undergoes c h.keyed
  | expire now second id => exact expire_undergoes now second id h.keyed
  | remove now actor id reason => exact remove_undergoes now actor id reason h.keyed h.sound.orderly
  | perform now place => exact m.perform_undergoes now place

theorem Steady.step (h : m.Steady) (a : Act σ) : (m.step a).Steady :=
  ⟨h.sound.step a, (step_undergoes h a).keyed h.keyed⟩

theorem Steady.run (h : m.Steady) (acts : List (Act σ)) : (m.run acts).Steady := by
  induction acts generalizing m with
  | nil => exact h
  | cons a acts ih => exact ih (h.step a)

/-- What every change of the registry keeps is so at every moment. -/
theorem Steady.run_kept (h : m.Steady) {P : Registry ρ → Prop}
    (hkept : ∀ {r r' : Registry ρ} {c : Change ρ}, r.Undergoes r' c → P r → P r')
    (hm : P m.daemon.registry) (acts : List (Act σ)) : P (m.run acts).daemon.registry := by
  induction acts generalizing m with
  | nil => exact hm
  | cons a acts ih => exact ih (h.step a) (hkept (step_undergoes h a) hm)

theorem run_orphanPolicy (h : m.Steady) (acts : List (Act σ)) :
    (m.run acts).daemon.registry.orphanPolicy = m.daemon.registry.orphanPolicy :=
  h.run_kept (P := fun r => r.orphanPolicy = m.daemon.registry.orphanPolicy)
    (fun hundergoes hsame => hundergoes.orphanPolicy.trans hsame) rfl acts

/-- Where no call has failed, none does. -/
theorem run_intact (h : m.Steady) (hintact : m.daemon.registry.store.Intact)
    (acts : List (Act σ)) : (m.run acts).daemon.registry.store.Intact :=
  h.run_kept (P := (·.store.Intact)) (fun hundergoes => hundergoes.intact) hintact acts

omit [Freeing σ ρ] in
theorem steady_start {store : Store} (hkeyed : store.Keyed) (sources : SourceSet σ)
    (guard : Guard) (timeout : Option Duration) (nextId : PlannedId)
    (orphanPolicy : Option Policy) (signal : Demand.Signal) (history : Nat) :
    (start sources guard timeout nextId store orphanPolicy signal history).Steady :=
  ⟨sound_start sources guard timeout nextId store orphanPolicy signal history, hkeyed⟩

/-! ## Along a run -/

/-- What acts bring about, one after the other. -/
def along {α : Type} (f : Moment σ → Act σ → List α) (m : Moment σ) : List (Act σ) → List α
  | [] => []
  | a :: as => f m a ++ (m.step a).along f as

/-- The changes that acts make to the registry, in order. -/
def changes (m : Moment σ) (acts : List (Act σ)) : List (Change ρ) :=
  m.along (fun m a => [m.change a]) acts

/-- The ids of the nodes that enter in the course of a run. -/
def entries (m : Moment σ) (acts : List (Act σ)) : List NodeId :=
  m.along (fun m a => (m.change a).entered) acts

/-- The removals of the nodes that leave in the course of a run. -/
def departures (m : Moment σ) (acts : List (Act σ)) : List (Removal ρ) :=
  m.along (fun m a => (m.change a).departed) acts

/-- What is so of the record under an id and does not depend on what reports count stays so, as
long as it is so of the nodes that enter under this id. -/
theorem run_record {P : NodeRecord → Prop}
    (hcounts : ∀ record old : NodeRecord, record.Recounts old → P old → P record) (h : m.Steady)
    (acts : List (Act σ)) {id : NodeId}
    (hnow : ∀ record, m.daemon.registry.store.record? id = some record → P record)
    (henters : ∀ node, .enters node ∈ m.changes acts → node.record.id = id → P node.record) :
    ∀ record, (m.run acts).daemon.registry.store.record? id = some record → P record := by
  induction acts generalizing m with
  | nil => exact hnow
  | cons a acts ih =>
    refine ih (h.step a) (fun record hrecord => ?_) fun node hnode =>
      henters node (List.mem_cons_of_mem _ hnode)
    have hstep := step_undergoes h a
    rw [hstep.record?] at hrecord
    have hadmits := hstep.admits
    cases hc : m.change a with
    | enters node =>
      rw [hc, Change.records, Function.update_apply] at hrecord
      split at hrecord
      · rename_i hid
        cases hrecord
        exact henters node (hc ▸ List.mem_cons_self) hid.symm
      · exact hnow record hrecord
    | leaves removal =>
      rw [hc, Change.records, Function.update_apply] at hrecord
      split at hrecord
      · cases hrecord
      · exact hnow record hrecord
    | updates new =>
      rw [hc, Change.records, Function.update_apply] at hrecord
      split at hrecord
      · rename_i hid
        cases hrecord
        rw [hc] at hadmits
        obtain ⟨old, hold, hcount⟩ := hadmits
        exact hcounts _ old hcount (hnow old (hid ▸ hold))
      · exact hnow record hrecord
    | _ =>
      rw [hc] at hrecord
      exact hnow record hrecord

theorem run_ids (h : m.Steady) (acts : List (Act σ)) :
    (m.run acts).daemon.registry.ids +
        ((m.departures acts).map (·.node.record.id) : List NodeId) =
      m.daemon.registry.ids + (m.entries acts : Multiset NodeId) := by
  induction acts generalizing m with
  | nil => rfl
  | cons a acts ih =>
    have hstep := (step_undergoes h a).ids
    have hrest := ih (h.step a)
    have hdepartures : m.departures (a :: acts) =
        (m.change a).departed ++ (m.step a).departures acts := rfl
    have hentries : m.entries (a :: acts) = (m.change a).entered ++ (m.step a).entries acts := rfl
    have hrun : m.run (a :: acts) = (m.step a).run acts := rfl
    rw [hrun, hdepartures, hentries, List.map_append, ← Multiset.coe_add, ← Multiset.coe_add]
    calc ((m.step a).run acts).daemon.registry.ids +
          (((m.change a).departed.map (·.node.record.id) : List NodeId) +
            (((m.step a).departures acts).map (·.node.record.id) : List NodeId))
        = ((m.step a).run acts).daemon.registry.ids +
            (((m.step a).departures acts).map (·.node.record.id) : List NodeId) +
              ((m.change a).departed.map (·.node.record.id) : List NodeId) := by abel
      _ = (m.step a).daemon.registry.ids +
            ((m.change a).departed.map (·.node.record.id) : List NodeId) +
              ((m.step a).entries acts : Multiset NodeId) := by rw [hrest, add_right_comm]
      _ = m.daemon.registry.ids + ((m.change a).entered + (m.step a).entries acts) := by
          rw [hstep, add_assoc]

end Moment

end Steps

end Fleet
