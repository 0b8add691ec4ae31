import Fleet.Config.Build
import Fleet.Proofs.Slots.Balance

/-!
# The daemon of a configuration

The sources of a daemon that is built from a configuration are those of its settings, one by
one, with no slot taken and numbered on after the records that it found (`Config.build_ok`).
What is true of such a start and kept by every act is true all along (`Moment.Fit.run_keeps`).
-/

namespace Fleet

namespace SourceSet

variable {σ ρ : Type} [CapacitySource σ ρ]

theorem members_insert {set set' : SourceSet σ} {s : σ} (h : set.insert s = .ok set') :
    set'.members = set.members ++ [s] := by
  unfold insert at h
  split at h
  · cases h
  · cases h
    rfl

end SourceSet

theorem Registry.list_of_listNodes {ρ : Type} {r : Registry ρ} {records : List NodeRecord}
    (h : r.store.listNodes = (.ok records, r.store)) : r.list = (.ok records, r) := by
  simp only [list, onStore, h]

/-! ## Settings -/

/-- The source that the settings come to where these records have been found. -/
def SourceSettings.StartsAs (existing : List NodeRecord) (settings : SourceSettings)
    (source : Source) : Prop :=
  ∃ s, settings.source = .ok s ∧ source = .simulated (s.resumeAfter existing)

/-- What a source starts with. -/
theorem SourceSettings.source_ok {settings : SourceSettings} {s : SimulatedSource}
    (h : settings.source = .ok s) : s.name.text = settings.name ∧ s.maxNodes = settings.maxNodes ∧
      s.outage = none ∧ s.nodeCount = 0 ∧
        s.executorsPerNode = max settings.executorsPerNode 1 := by
  unfold source at h
  cases hlabels : settings.labels.mapM Label.ofString with
  | error e =>
    rw [hlabels] at h
    cases h
  | ok labels =>
    cases hname : SourceName.ofString settings.name with
    | error e =>
      rw [hlabels, hname] at h
      cases h
    | ok name =>
      rw [hlabels, hname] at h
      cases h
      exact ⟨SourceName.ofString_eq_ok_iff.1 hname, rfl, rfl, rfl, rfl⟩

/-- A node has executors, whatever the settings say. -/
theorem SourceSettings.sized_of_source {settings : SourceSettings} {s : SimulatedSource}
    (h : settings.source = .ok s) : 0 < s.executorsPerNode.toNat := by
  rw [(source_ok h).2.2.2.2, UInt32.toNat_max]
  exact Nat.lt_of_lt_of_le Nat.one_pos (Nat.le_max_right ..)

/-- Numbering on changes nothing but the next number. -/
theorem SimulatedSource.resumeAfter_eq (s : SimulatedSource) (existing : List NodeRecord) :
    s.resumeAfter existing = { s with nextNode := (s.resumeAfter existing).nextNode } := by
  unfold resumeAfter
  dsimp only
  split <;> rfl

namespace Config

theorem addSources_ok {existing : List NodeRecord} {ss : List SourceSettings}
    {set set' : SourceSet Source} (h : addSources existing ss set = .ok set') :
    ∃ added, set'.members = set.members ++ added ∧
      List.Forall₂ (SourceSettings.StartsAs existing) ss added := by
  induction ss generalizing set with
  | nil =>
    cases h
    exact ⟨[], (List.append_nil _).symm, .nil⟩
  | cons settings ss ih =>
    unfold addSources at h
    cases hsource : settings.source with
    | error e =>
      rw [hsource] at h
      cases h
    | ok s =>
      cases hinsert : set.insert (.simulated (s.resumeAfter existing)) with
      | error e =>
        rw [hsource] at h
        change (set.insert (.simulated (s.resumeAfter existing)) >>= _) = _ at h
        rw [hinsert] at h
        cases h
      | ok set'' =>
        rw [hsource] at h
        change (set.insert (.simulated (s.resumeAfter existing)) >>= _) = _ at h
        rw [hinsert] at h
        obtain ⟨added, hmembers, hstarts⟩ := ih h
        refine ⟨.simulated (s.resumeAfter existing) :: added, ?_, .cons ⟨s, hsource, rfl⟩ hstarts⟩
        rw [hmembers, SourceSet.members_insert hinsert, List.append_assoc]
        rfl

section Sources

variable {existing : List NodeRecord} {ss : List SourceSettings} {set : SourceSet Source}
  {n : SourceName}

/-- The source that settings have come to is found under their name. -/
theorem simulated?_of_settings
    (h : List.Forall₂ (SourceSettings.StartsAs existing) ss set.members)
    {settings : SourceSettings} (hmem : settings ∈ ss) (hn : n.text = settings.name) :
    ∃ s, settings.source = .ok s ∧ set.simulated? n = some (s.resumeAfter existing) := by
  obtain ⟨source, hsource, s, hs, rfl⟩ := Json.exists_of_forall₂ h.flip hmem
  refine ⟨s, hs, SourceSet.simulated?_eq_some_iff.2 ?_⟩
  have hname : (s.resumeAfter existing).name = n := by
    rw [s.resumeAfter_eq existing]
    exact SourceName.ext ((SourceSettings.source_ok hs).1.trans hn.symm)
  exact hname ▸ SourceSet.get?_of_mem hsource

/-- Every source is one that settings have come to. -/
theorem settings_of_mem_names
    (h : List.Forall₂ (SourceSettings.StartsAs existing) ss set.members) (hn : n ∈ set.names) :
    ∃ settings ∈ ss, ∃ s, settings.source = .ok s ∧
      set.simulated? n = some (s.resumeAfter existing) := by
  obtain ⟨source, hsource, rfl⟩ := List.mem_map.1 hn
  obtain ⟨settings, hsettings, s, hs, rfl⟩ := Json.exists_of_forall₂ h hsource
  refine ⟨settings, hsettings, s, hs, SourceSet.simulated?_eq_some_iff.2 ?_⟩
  exact SourceSet.get?_of_mem hsource

theorem simulated_of_startsAs
    (h : List.Forall₂ (SourceSettings.StartsAs existing) ss set.members) : set.Simulated := by
  intro n hn
  obtain ⟨_, _, s, hs, hget⟩ := settings_of_mem_names h hn
  refine ⟨_, hget, ?_⟩
  rw [s.resumeAfter_eq existing]
  exact (SourceSettings.source_ok hs).2.2.1

/-- No slot is taken at the start. -/
theorem nodeCount_of_startsAs
    (h : List.Forall₂ (SourceSettings.StartsAs existing) ss set.members) {s : SimulatedSource}
    (hs : set.simulated? n = some s) : s.nodeCount = 0 := by
  obtain ⟨_, _, s', hs', hget⟩ := settings_of_mem_names h (SourceSet.mem_names_of_simulated? hs)
  rw [hs] at hget
  cases hget
  rw [s'.resumeAfter_eq existing]
  exact (SourceSettings.source_ok hs').2.2.2.1

theorem sized_of_startsAs
    (h : List.Forall₂ (SourceSettings.StartsAs existing) ss set.members) {s : SimulatedSource}
    (hs : set.simulated? n = some s) : 0 < s.executorsPerNode.toNat := by
  obtain ⟨settings, _, s', hs', hget⟩ :=
    settings_of_mem_names h (SourceSet.mem_names_of_simulated? hs)
  rw [hs] at hget
  cases hget
  rw [s'.resumeAfter_eq existing]
  show 0 < s'.executorsPerNode.toNat
  exact SourceSettings.sized_of_source hs'

end Sources

variable {c : Config} {room : Nat} {store : Store} {nextId : PlannedId}
  {d : Daemon Source (Registry ReleaseHandle)}

/-- A daemon that is built has found memory for its history. -/
theorem le_of_build_ok (h : c.build room store nextId = .ok d) :
    c.daemon.eventHistory ≤ room := by
  refine Nat.not_lt.1 fun hlt => ?_
  simp only [build, History.allocate?, if_neg (Nat.not_le.2 hlt)] at h
  split at h
  · cases h
  · split at h <;> cases h

/-- A daemon that is built has listed the records and starts with the sources of the settings. -/
theorem build_ok (h : c.build room store nextId = .ok d) :
    ∃ existing sources, store.listNodes.1 = .ok existing ∧
      List.Forall₂ (SourceSettings.StartsAs existing) c.sources sources.members ∧
      (⟨d, none⟩ : Moment Source) = .start sources c.guard c.completionTimeout nextId
        store.listNodes.2 (some .always) c.signal c.daemon.eventHistory := by
  have hroom := le_of_build_ok h
  unfold build Registry.list Registry.onStore at h
  simp only [History.allocate?, if_pos hroom] at h
  cases hlist :
    (Registry.ofStore store (some .always) : Registry ReleaseHandle).store.listNodes with
  | mk answer store' =>
    rw [hlist] at h
    have hlist' : store.listNodes = (answer, store') := hlist
    cases answer with
    | error e => cases h
    | ok existing =>
      dsimp only at h
      cases hsources : c.sourceSet existing with
      | error e =>
        rw [hsources] at h
        cases h
      | ok sources =>
        rw [hsources] at h
        cases h
        obtain ⟨added, hmembers, hstarts⟩ := addSources_ok hsources
        refine ⟨existing, sources, by rw [hlist'], ?_, by rw [hlist']; rfl⟩
        rw [hmembers]
        exact hstarts

/-- A daemon is built where the records can be listed, the sources set up after them and the
history allocated. -/
theorem build_of_listed {existing : List NodeRecord} {sources : SourceSet Source}
    (hlist : store.listNodes = (.ok existing, store))
    (hsources : c.sourceSet existing = .ok sources) (hroom : c.daemon.eventHistory ≤ room)
    (nextId : PlannedId) :
    c.build room store nextId = .ok (.start (.start sources c.guard c.completionTimeout nextId)
      (.ofStore store (some .always)) c.signal (.empty c.daemon.eventHistory)) := by
  have hregistry : (Registry.ofStore store (some .always) : Registry ReleaseHandle).list =
      (.ok existing, .ofStore store (some .always)) := Registry.list_of_listNodes hlist
  simp only [build, hregistry, hsources, History.allocate?, if_pos hroom]

theorem build_fit (h : c.build room store nextId = .ok d) : (⟨d, none⟩ : Moment Source).Fit := by
  obtain ⟨_, sources, -, hstarts, hstart⟩ := build_ok h
  rw [hstart]
  exact ⟨Moment.sound_start .., simulated_of_startsAs hstarts, nofun⟩

theorem build_balanced (h : c.build room store nextId = .ok d) :
    (⟨d, none⟩ : Moment Source).Balanced := by
  obtain ⟨_, sources, -, hstarts, hstart⟩ := build_ok h
  have hnone := Moment.total_start sources c.guard c.completionTimeout nextId store.listNodes.2
    (some .always) c.signal c.daemon.eventHistory
  rw [hstart]
  refine ⟨nofun, ?_, fun n s hs => ?_, fun n s hs => ?_⟩
  · rw [hnone]
    exact nofun
  · rw [hnone, nodeCount_of_startsAs hstarts hs]
    rfl
  · rw [nodeCount_of_startsAs hstarts hs]
    exact Nat.zero_le _

end Config

/-! ## Runs -/

namespace Moment

variable {m : Moment Source} {acts : List (Act Source)}

theorem Fit.run (h : m.Fit) (hacts : ∀ a ∈ acts, a.isInner = true) : (m.run acts).Fit := by
  induction acts generalizing m with
  | nil => exact h
  | cons a acts ih =>
    rw [List.forall_mem_cons] at hacts
    exact ih (h.step hacts.1) hacts.2

/-- What every act keeps of a moment that is fit is kept along a run. -/
theorem Fit.run_keeps (hfit : m.Fit) {P : Moment Source → Prop}
    (hstep : ∀ {m : Moment Source} {a : Act Source}, m.Fit → a.isInner = true → P m → P (m.step a))
    (hacts : ∀ a ∈ acts, a.isInner = true) (h : P m) : P (m.run acts) := by
  induction acts generalizing m with
  | nil => exact h
  | cons a acts ih =>
    rw [List.forall_mem_cons] at hacts
    exact ih (hfit.step hacts.1) hacts.2 (hstep hfit hacts.1 h)

theorem Balanced.step (h : m.Balanced) (hfit : m.Fit) {a : Act Source} (ha : a.isInner = true) :
    (m.step a).Balanced := (step_deed hfit ha).balanced hfit.simulated h

theorem Balanced.run (h : m.Balanced) (hfit : m.Fit) (hacts : ∀ a ∈ acts, a.isInner = true) :
    (m.run acts).Balanced :=
  hfit.run_keeps (fun hfit ha h => h.step hfit ha) hacts h

theorem run_continues (hfit : m.Fit) (hacts : ∀ a ∈ acts, a.isInner = true) :
    m.daemon.loop.sources.Continues (m.run acts).daemon.loop.sources :=
  hfit.run_keeps (P := fun m' => m.daemon.loop.sources.Continues m'.daemon.loop.sources)
    (fun hfit ha h => h.trans (step_deed hfit ha).continues) hacts (.refl _)

/-- A source that settings have come to is there all along, with the limit that they set. -/
theorem simulated?_run {c : Config} {room : Nat} {store : Store} {nextId : PlannedId}
    {d : Daemon Source (Registry ReleaseHandle)} (hbuilt : c.build room store nextId = .ok d)
    (hacts : ∀ a ∈ acts, a.isInner = true) {settings : SourceSettings}
    (hsettings : settings ∈ c.sources) {n : SourceName} (hn : n.text = settings.name) :
    ∃ s, ((⟨d, none⟩ : Moment Source).run acts).daemon.loop.sources.simulated? n = some s ∧
      s.maxNodes = settings.maxNodes := by
  obtain ⟨existing, sources, -, hstarts, hstart⟩ := Config.build_ok hbuilt
  obtain ⟨s, hs, hget⟩ := Config.simulated?_of_settings hstarts hsettings hn
  have hfirst : (⟨d, none⟩ : Moment Source).daemon.loop.sources.simulated? n =
      some (s.resumeAfter existing) := by
    rw [hstart]
    exact hget
  obtain ⟨count, next, hnow⟩ := (run_continues (Config.build_fit hbuilt) hacts).each n _ hfirst
  refine ⟨_, hnow, ?_⟩
  rw [s.resumeAfter_eq existing]
  exact (SourceSettings.source_ok hs).2.1

end Moment

/-! ## A source with one slot -/

namespace Solo

theorem isSourceName_sim : isSourceName "sim" = true := by decide

def name : SourceName := ⟨"sim", isSourceName_sim⟩

def actor : Actor := ⟨"anonymous"⟩

def settings : SourceSettings := ⟨"sim", [], true, 1, 1, "0s", .idle, "10m"⟩

def config : Config := ⟨⟨8480, "", "10s", "30s", none, 16⟩, 0.0, [settings], none⟩

/-- The source with its next number, when no slot of it is taken. -/
def source (next : UInt64) : SimulatedSource where
  name
  labels := []
  untagged := true
  executorsPerNode := 1
  maxNodes := 1
  bootDelay := settings.bootDuration
  retention := settings.policy
  outage := none
  nodeCount := 0
  nextNode := next

/-- The daemon on a store, numbering its nodes from `next` on. -/
def daemon (store : Store) (next : UInt64) (nextId : PlannedId) :
    Daemon Source (Registry ReleaseHandle) :=
  .start (.start ⟨[.simulated (source next)], by simp⟩ .allowAll none nextId)
    (.ofStore store (some .always)) config.signal (.empty 16)

theorem build_empty : config.build 16 .empty 1 = .ok (daemon .empty 1 1) := rfl

end Solo

end Fleet
