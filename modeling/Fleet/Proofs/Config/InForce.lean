import Fleet.CommandLine
import Fleet.Proofs.Config.Valid
import Fleet.Proofs.Running
import Fleet.Proofs.Slots.Start
import Fleet.Proofs.Slots.Terms
import Fleet.Proofs.Store

/-!
# A validated configuration is in force

Where a configuration is valid, setting it up falls back on nothing: each source comes to what
its settings say (`SourceSettings.Valid.source`), and the set holds them in their order
(`Config.addSources_of_valid`).  On a store that can be read only a lack of memory for the history
keeps a daemon from being built (`Config.Valid.build_iff`), and validation does not ask for how
much memory that is (`Config.validated_beyond_room`).  `Config.InForce` says of a daemon that it
goes by the configuration; it does so when it is built, and at every moment from then on, and it
ticks and sweeps when the configuration says (`Config.validated_in_force`).
-/

namespace Fleet

/-! ## Single sources -/

/-- The policy of settings whose idle timeout is `limit`. -/
def RetentionMode.policy (limit : Duration) : RetentionMode → Policy
  | idle => .idleTimeout limit
  | always => .always
  | once => .singleUse

/-- A source does what its settings say, whatever it counts. -/
structure SourceSettings.InForce (settings : SourceSettings) (s : SimulatedSource) : Prop where
  name : s.name.text = settings.name
  labelled : ∀ label : Label, s.serves (some label) = true ↔ label.text ∈ settings.labels
  untagged : s.serves none = settings.untagged
  executors : s.executorsPerNode = settings.executorsPerNode
  limit : s.maxNodes = settings.maxNodes
  bootDelay : Duration.parse? settings.bootDelay = some s.bootDelay
  retention : ∃ limit, Duration.parse? settings.idleTimeout = some limit ∧
    s.retention = settings.retention.policy limit
  /-- Every node that it offers has what the settings say. -/
  offers : ∀ label excess, ∃ offers, (s.provision label excess).1 = .ok offers ∧ ∀ o ∈ offers,
    o.promised = settings.executorsPerNode.toNat ∧ ∃ boot, o.boot = some boot ∧
      boot.delay = s.bootDelay ∧ boot.node.retention = s.retention ∧
        boot.node.record.executors = settings.executorsPerNode

namespace SourceSettings

theorem labels_ofString {texts : List String} (h : ∀ text ∈ texts, Text.isBlankText text = false) :
    ∃ labels, texts.mapM Label.ofString = .ok labels ∧ labels.map (·.text) = texts := by
  induction texts with
  | nil => exact ⟨[], rfl, rfl⟩
  | cons text texts ih =>
    rw [List.forall_mem_cons] at h
    obtain ⟨labels, hlabels, hmap⟩ := ih h.2
    have hlabel : Label.ofString text = .ok ⟨text, h.1⟩ := dif_pos h.1
    refine ⟨⟨text, h.1⟩ :: labels, ?_, congrArg (text :: ·) hmap⟩
    rw [List.mapM_cons, hlabel, hlabels]
    rfl

theorem max_one_of_ne_zero {n : UInt32} (h : n ≠ 0) : max n 1 = n := by
  have hpos : n.toNat ≠ 0 := fun hz => h (UInt32.toNat_inj.1 hz)
  refine UInt32.toNat_inj.1 ?_
  rw [UInt32.toNat_max]
  exact Nat.max_eq_left (Nat.one_le_iff_ne_zero.2 hpos)

/-- A source that can be run offers nodes of its own kind. -/
theorem offers_of_running {s : SimulatedSource} (h : s.outage = none) (label : Option Label)
    (excess : Nat) : ∃ offers, (s.provision label excess).1 = .ok offers ∧ ∀ o ∈ offers,
      ∃ n, o = s.offer label n := by
  refine ⟨_, by rw [SimulatedSource.provision_of_running h], fun o ho => ?_⟩
  obtain ⟨i, -, rfl⟩ := List.mem_map.1 ho
  exact ⟨_, rfl⟩

/-- Valid settings come to a source, and nothing of them is replaced. -/
theorem Valid.source {settings : SourceSettings} (h : settings.Valid) :
    ∃ s, settings.source = .ok s ∧ ∀ count next,
      settings.InForce { s with nodeCount := count, nextNode := next } := by
  obtain ⟨labels, hlabels, hmap⟩ := labels_ofString h.labels
  have hname : SourceName.ofString settings.name = .ok ⟨settings.name, h.name⟩ := dif_pos h.name
  obtain ⟨delay, hdelay⟩ := h.bootDelay
  obtain ⟨limit, hlimit⟩ := h.idleTimeout
  have hboot : settings.bootDuration = delay := by rw [bootDuration, hdelay, Option.getD_some]
  have hpolicy : settings.policy = settings.retention.policy limit := by
    rw [SourceSettings.policy, idleDuration, hlimit, Option.getD_some]
    cases settings.retention <;> rfl
  have hexecutors := max_one_of_ne_zero h.executors
  refine ⟨_, by rw [SourceSettings.source, hlabels, hname]; rfl, fun count next => ?_⟩
  constructor
  case name => rfl
  case labelled =>
    intro label
    show labels.contains label = true ↔ _
    rw [List.contains_iff_mem, ← hmap]
    refine ⟨List.mem_map_of_mem, fun hmem => ?_⟩
    obtain ⟨label', hlabel', htext⟩ := List.mem_map.1 hmem
    exact Label.ext htext ▸ hlabel'
  case untagged => rfl
  case executors => exact hexecutors
  case limit => rfl
  case bootDelay => exact hboot ▸ hdelay
  case retention => exact ⟨limit, hlimit, hpolicy⟩
  case offers =>
    intro label excess
    refine (offers_of_running ?_ label excess).imp fun offers hoffers =>
      ⟨hoffers.1, fun o ho => ?_⟩
    · rfl
    obtain ⟨n, rfl⟩ := hoffers.2 o ho
    exact ⟨congrArg UInt32.toNat hexecutors, _, rfl, rfl, rfl, hexecutors⟩

end SourceSettings

/-! ## The set of sources -/

namespace Config

theorem addSources_of_valid (existing : List NodeRecord) {ss : List SourceSettings}
    {set : SourceSet Source} (hvalid : ∀ s ∈ ss, s.Valid) (hdistinct : (ss.map (·.name)).Nodup)
    (hfresh : ∀ s ∈ ss, ∀ n ∈ set.names, n.text ≠ s.name) :
    ∃ set', addSources existing ss set = .ok set' := by
  induction ss generalizing set with
  | nil => exact ⟨set, rfl⟩
  | cons settings ss ih =>
    rw [List.forall_mem_cons] at hvalid hfresh
    rw [List.map_cons, List.nodup_cons] at hdistinct
    obtain ⟨s, hs, -⟩ := hvalid.1.source
    have hname : (s.resumeAfter existing).name.text = settings.name := by
      rw [s.resumeAfter_eq existing]
      exact (SourceSettings.source_ok hs).1
    have hnew : (s.resumeAfter existing).name ∉ set.members.map CapacitySource.name :=
      fun hmem => hfresh.1 _ hmem hname
    obtain ⟨set', hinsert⟩ : ∃ set', set.insert (.simulated (s.resumeAfter existing)) = .ok set' :=
      ⟨_, dif_neg hnew⟩
    have hrest : ∀ s' ∈ ss, ∀ n ∈ set'.names, n.text ≠ s'.name := by
      intro s' hs' n hn
      rw [SourceSet.names, SourceSet.members_insert hinsert, List.map_append, List.mem_append] at hn
      rcases hn with hn | hn
      · exact hfresh.2 s' hs' n hn
      · cases List.mem_singleton.1 hn
        intro he
        exact hdistinct.1 (List.mem_map.2 ⟨s', hs', he.symm.trans hname⟩)
    obtain ⟨set'', hadded⟩ := ih hvalid.2 hdistinct.2 hrest
    refine ⟨set'', ?_⟩
    rw [addSources, hs]
    show (set.insert (.simulated (s.resumeAfter existing)) >>= _) = _
    rw [hinsert]
    exact hadded

/-- Sources that go by the names of the settings, in their order, are theirs one by one. -/
theorem forall₂_of_names {R : SourceSettings → Source → Prop} {ss : List SourceSettings}
    {set : SourceSet Source} (hnames : set.names.map (·.text) = ss.map (·.name))
    (h : ∀ settings ∈ ss, ∀ source ∈ set.members,
      (CapacitySource.name source).text = settings.name → R settings source) :
    List.Forall₂ R ss set.members := by
  rw [SourceSet.names, List.map_map, ← List.forall₂_eq_eq_eq, List.forall₂_map_left_iff,
    List.forall₂_map_right_iff] at hnames
  have hsame := hnames.flip
  rw [List.forall₂_iff_zip] at hsame ⊢
  refine ⟨hsame.1, fun hmem => ?_⟩
  exact h _ (List.of_mem_zip hmem).1 _ (List.of_mem_zip hmem).2 (hsame.2 hmem)

theorem names_of_startsAs {existing : List NodeRecord} {ss : List SourceSettings}
    {set : SourceSet Source}
    (h : List.Forall₂ (SourceSettings.StartsAs existing) ss set.members) :
    set.names.map (·.text) = ss.map (·.name) := by
  rw [SourceSet.names, List.map_map, ← List.forall₂_eq_eq_eq, List.forall₂_map_left_iff,
    List.forall₂_map_right_iff]
  refine h.flip.imp fun source settings hstarts => ?_
  obtain ⟨s, hs, rfl⟩ := hstarts
  show (s.resumeAfter existing).name.text = settings.name
  rw [s.resumeAfter_eq existing]
  exact (SourceSettings.source_ok hs).1

/-- What valid settings have come to stays so while the sources only count on. -/
theorem inForce_of_continues {existing : List NodeRecord} {ss : List SourceSettings}
    {set set' : SourceSet Source} (hvalid : ∀ s ∈ ss, s.Valid)
    (hstarts : List.Forall₂ (SourceSettings.StartsAs existing) ss set.members)
    (hcontinues : set.Continues set') :
    List.Forall₂ (fun settings source => ∃ s, source = .simulated s ∧ settings.InForce s) ss
      set'.members := by
  refine forall₂_of_names (hcontinues.names ▸ names_of_startsAs hstarts)
    fun settings hsettings source hsource hname => ?_
  obtain ⟨s, hs, hget⟩ := simulated?_of_settings hstarts hsettings hname
  obtain ⟨s', hs', hinForce⟩ := (hvalid settings hsettings).source
  rw [hs] at hs'
  cases hs'
  obtain ⟨count, next, hnow⟩ := hcontinues.each _ _ hget
  have hmember := SourceSet.simulated?_eq_some_iff.1 hnow
  rw [SourceSet.get?_of_mem hsource, s.resumeAfter_eq existing] at hmember
  exact ⟨_, Option.some.inj hmember, hinForce count next⟩

/-- A daemon goes by the configuration: by its sources in their order, and by its timeout. -/
structure InForce (c : Config) (d : Daemon Source (Registry ReleaseHandle)) : Prop where
  names : d.loop.sources.names.map (·.text) = c.sources.map (·.name)
  sources : List.Forall₂ (fun settings source => ∃ s, source = .simulated s ∧ settings.InForce s)
    c.sources d.loop.sources.members
  timeout : ∀ text, c.daemon.completionTimeout = some text →
    ∃ limit, Duration.parse? text = some limit ∧ d.loop.timeout = some limit
  unlimited : c.daemon.completionTimeout = none → d.loop.timeout = none

/-- Valid settings are in force at every moment of a daemon that they have built. -/
theorem Valid.inForce {c : Config} (hvalid : c.Valid) {room : Nat} {store : Store}
    {nextId : PlannedId}
    {d : Daemon Source (Registry ReleaseHandle)} (hbuilt : c.build room store nextId = .ok d)
    {acts : List (Moment.Act Source)} (hacts : ∀ a ∈ acts, a.isInner = true) :
    c.InForce ((⟨d, none⟩ : Moment Source).run acts).daemon := by
  obtain ⟨existing, sources, -, hstarts, hstart⟩ := build_ok hbuilt
  have hcontinues := Moment.run_continues (build_fit hbuilt) hacts
  have htimeout : ((⟨d, none⟩ : Moment Source).run acts).daemon.loop.timeout =
      c.completionTimeout := by
    rw [Moment.run_timeout, hstart]
    rfl
  have hfirst : (⟨d, none⟩ : Moment Source).daemon.loop.sources = sources := by
    rw [hstart]
    rfl
  rw [hfirst] at hcontinues
  constructor
  case names => rw [hcontinues.names, names_of_startsAs hstarts]
  case sources => exact inForce_of_continues hvalid.sources hstarts hcontinues
  case timeout =>
    intro text htext
    obtain ⟨limit, hlimit⟩ := hvalid.daemon.completion text htext
    refine ⟨limit, hlimit, ?_⟩
    rw [htimeout, completionTimeout, htext, Option.bind_some, hlimit]
  case unlimited =>
    intro hnone
    rw [htimeout, completionTimeout, hnone, Option.bind_none]

theorem Valid.sourceSet {c : Config} (hvalid : c.Valid) (existing : List NodeRecord) :
    ∃ sources, c.sourceSet existing = .ok sources := by
  have hnone : ∀ s ∈ c.sources, ∀ n ∈ (.empty : SourceSet Source).names, n.text ≠ s.name :=
    fun _ _ => nofun
  exact addSources_of_valid existing hvalid.sources hvalid.distinct hnone

/-- Only a lack of memory for the history keeps a valid configuration from building a daemon. -/
theorem Valid.build_noRoom {c : Config} (hvalid : c.Valid) {room : Nat} {store : Store}
    (hstore : store.Intact) (hroom : ¬ c.daemon.eventHistory ≤ room) (nextId : PlannedId) :
    c.build room store nextId = .error (.noRoom c.daemon.eventHistory) := by
  obtain ⟨existing, hlist, -, -⟩ := hstore.listNodes
  obtain ⟨sources, hsources⟩ := hvalid.sourceSet existing
  have hregistry : (Registry.ofStore store (some .always) : Registry ReleaseHandle).list =
      (.ok existing, .ofStore store (some .always)) := Registry.list_of_listNodes hlist
  simp only [build, hregistry, hsources, History.allocate?, if_neg hroom]

theorem Valid.build_iff {c : Config} (hvalid : c.Valid) (room : Nat) {store : Store}
    (hstore : store.Intact) (nextId : PlannedId) :
    (∃ d, c.build room store nextId = .ok d) ↔ c.daemon.eventHistory ≤ room := by
  refine ⟨fun ⟨d, hbuilt⟩ => le_of_build_ok hbuilt, fun hroom => ?_⟩
  obtain ⟨existing, hlist, -, -⟩ := hstore.listNodes
  obtain ⟨sources, hsources⟩ := hvalid.sourceSet existing
  exact ⟨_, build_of_listed hlist hsources hroom nextId⟩

theorem tasks_of_build {c : Config} {room : Nat} {store : Store} {nextId : PlannedId}
    {d : Daemon Source (Registry ReleaseHandle)} (hbuilt : c.build room store nextId = .ok d) :
    d.tasks = [] := by
  obtain ⟨_, _, -, -, hstart⟩ := build_ok hbuilt
  exact congrArg (·.daemon.tasks) hstart

end Config

/-! ## Validated configurations -/

/-- Validation accepts the valid configurations and no others.  On every store that can be read a
configuration that it accepts builds a daemon if there is memory for its history.  At every moment
then each source serves the labels that are set, with the executors that are set, and every
duration is the one that its text says; and whatever is done to the daemon once its alarms are
set, it does in each millisecond what is due by the two intervals that the texts say. -/
theorem Config.validated_in_force (c : Config) :
    (c.validate = .ok () ↔ c.Valid) ∧
    (c.validate = .ok () → ∀ (room : Nat) (store : Store) (nextId : PlannedId), store.Intact →
      ((∃ d, c.build room store nextId = .ok d) ↔ c.daemon.eventHistory ≤ room) ∧
      ∀ d, c.build room store nextId = .ok d →
        (∀ acts : List (Moment.Act Source), (∀ a ∈ acts, a.isInner = true) →
          c.InForce ((⟨d, none⟩ : Moment Source).run acts).daemon) ∧
        ∃ tick sweep, Duration.parse? c.daemon.tickInterval = some tick ∧
          Duration.parse? c.daemon.retentionInterval = some sweep ∧
          ∀ (start : Time) (turns : List (Running.Turn Source (Registry ReleaseHandle))),
            let r := turns.foldl Running.play
              ((⟨start, d, none⟩ : Running Source (Registry ReleaseHandle)).start
                c.tickInterval c.retentionInterval)
            let past := turns.foldl (Daemon.live tick sweep start) (0, d)
            r.now = start.after ⟨past.1⟩ ∧ r.daemon = past.2) := by
  refine ⟨validate_eq_ok_iff, fun hvalidated room store nextId hstore => ?_⟩
  have hvalid := validate_eq_ok_iff.1 hvalidated
  refine ⟨hvalid.build_iff room hstore nextId, fun d hbuilt => ?_⟩
  obtain ⟨tick, htick⟩ := hvalid.daemon.tick
  obtain ⟨sweep, hsweep⟩ := hvalid.daemon.retention
  refine ⟨fun acts hacts => hvalid.inForce hbuilt hacts, tick, sweep, htick, hsweep,
    fun start turns => ?_⟩
  have htick' : c.tickInterval = tick := by rw [tickInterval, htick, Option.getD_some]
  have hsweep' : c.retentionInterval = sweep := by rw [retentionInterval, hsweep, Option.getD_some]
  rw [htick', hsweep']
  refine Running.foldl_play tick sweep start ?_ turns
  rw [tasks_of_build hbuilt]
  exact nofun

/-! ## A general source and one for bursts -/

namespace Duo

def config : Config where
  daemon := ⟨9000, "/tmp/flotilla", "2s", "1m", some "15m", 32⟩
  smoothing := 0.5
  sources := [⟨"sim-general", ["linux", "gpu"], true, 2, 4, "500ms", .idle, "10m"⟩,
    ⟨"sim-burst", ["gpu"], false, 1, 10, "5s", .once, "10m"⟩]
  grants := none

theorem valid_config : config.Valid where
  daemon := ⟨⟨⟨2000⟩, by decide⟩, ⟨⟨60000⟩, by decide⟩, fun _ h => by
    cases h
    exact ⟨⟨900000⟩, by decide⟩⟩
  smoothing := by decide
  sources := by
    rw [config, List.forall_mem_cons, List.forall_mem_singleton]
    exact ⟨⟨by decide, by decide, by decide, ⟨⟨500⟩, by decide⟩, ⟨⟨600000⟩, by decide⟩⟩,
      ⟨by decide, by decide, by decide, ⟨⟨5000⟩, by decide⟩, ⟨⟨600000⟩, by decide⟩⟩⟩
  distinct := by decide

end Duo

theorem Config.validated_in_force_duo :
    Duo.config.validate = .ok () ∧ ∃ d, Duo.config.build 32 .empty 1 = .ok d ∧
      d.loop.sources.names.map (·.text) = ["sim-general", "sim-burst"] ∧
      d.loop.timeout = some (.ofSeconds 900) ∧
      (((⟨⟨0⟩, d, none⟩ : Running Source (Registry ReleaseHandle)).start Duo.config.tickInterval
        Duo.config.retentionInterval).advance (.ofSeconds 3)).daemon =
          d.beats (.ofSeconds 2) (.ofSeconds 60) ⟨0⟩ 0 (Duration.ofSeconds 3).millis := by
  obtain ⟨hiff, hruns⟩ := Config.validated_in_force Duo.config
  have hvalidated := hiff.2 Duo.valid_config
  obtain ⟨hroom, hdaemon⟩ := hruns hvalidated 32 .empty 1 Store.intact_empty
  obtain ⟨d, hbuilt⟩ := hroom.2 (Nat.le_refl 32)
  obtain ⟨hinForce, tick, sweep, htick, hsweep, hlive⟩ := hdaemon d hbuilt
  have hnow : Duo.config.InForce d := hinForce [] nofun
  obtain ⟨limit, hlimit, htimeout⟩ := hnow.timeout "15m" rfl
  obtain rfl : tick = .ofSeconds 2 := Option.some.inj (htick.symm.trans (by decide))
  obtain rfl : sweep = .ofSeconds 60 := Option.some.inj (hsweep.symm.trans (by decide))
  have hpass (t : Duration) :
      (((⟨⟨0⟩, d, none⟩ : Running Source (Registry ReleaseHandle)).start Duo.config.tickInterval
        Duo.config.retentionInterval).advance t).daemon =
          d.beats (.ofSeconds 2) (.ofSeconds 60) ⟨0⟩ 0 t.millis := (hlive ⟨0⟩ [.pass t]).2
  refine ⟨hvalidated, d, hbuilt, hnow.names, htimeout.trans ?_, hpass _⟩
  exact hlimit.symm.trans (by decide)

/-! ## A history that no machine has memory for -/

namespace Vast

/-- All is left out but the capacity of the history, the largest that a document can set. -/
def config : Config :=
  ⟨⟨8480, "/var/lib/flotilla", "10s", "30s", none, 2 ^ 63 - 1⟩, 0.0, [], none⟩

theorem valid_config : config.Valid where
  daemon := ⟨⟨⟨10000⟩, by decide⟩, ⟨⟨30000⟩, by decide⟩, nofun⟩
  smoothing := by decide
  sources := nofun
  distinct := .nil

end Vast

/-- Validation accepts a configuration that builds no daemon on any machine, since an allocation
is of less than 2 ^ 63 bytes; to run it ends the program. -/
theorem Config.validated_beyond_room :
    Vast.config.validate = .ok () ∧ Store.empty.Intact ∧
      ∀ room < 2 ^ 63 - 1, (∀ nextId, ¬∃ d, Vast.config.build room .empty nextId = .ok d) ∧
        ∀ (text : String → Option String) (listens : Nat → Bool)
          (options : CommandLine.RunOptions),
          options.outcome ⟨text, fun _ => .other "", room, listens⟩ Vast.config = .panic := by
  refine ⟨Config.validate_eq_ok_iff.2 Vast.valid_config, Store.intact_empty, fun room hroom => ?_⟩
  have hnone : ¬ Vast.config.daemon.eventHistory ≤ room := Nat.not_le.2 hroom
  refine ⟨fun nextId => mt (Vast.valid_config.build_iff room Store.intact_empty nextId).1 hnone,
    fun text listens options => ?_⟩
  have hbuild := Vast.valid_config.build_noRoom Store.intact_empty hnone 1
  have hopen : (DatabaseFile.other "").openStore = .ok .empty := rfl
  simp only [CommandLine.RunOptions.outcome, hopen, hbuild]

end Fleet
