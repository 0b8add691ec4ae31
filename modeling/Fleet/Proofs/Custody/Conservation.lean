import Fleet.Proofs.Custody.Operations
import Fleet.Proofs.Custody.Release
import Fleet.Proofs.Custody.Tick

/-!
# No release handle is lost or freed twice

Every act is a passage (`step_passage`), so a run of any acts in any order keeps a moment sound
(`Sound.run`) and makes handles flow on (`run_flow`).  From the start of a daemon on any store,
a handle that was handed over once is therefore at every moment in exactly one place, and it
goes from there only along `Place.Move` (`custody_of_handles`).
-/

namespace Fleet

theorem Registry.consult_keeps {ρ : Type} (c : Consultation) (r : Registry ρ) :
    r.Keeps (r.consult c) := by
  cases c with
  | get id => exact r.get_keeps id
  | list => exact r.list_keeps
  | evaluate second => exact r.evaluateRetention_keeps second
  | report id busy pending second => exact r.updateActivity_keeps id busy pending second
  | listLeaks => exact .onStore r r.store.listLeaks_keepsRows
  | resolveLeak id => exact .onStore r (r.store.deleteLeak_keepsRows id)

namespace Moment

variable {σ ρ : Type} [CapacitySource σ ρ]

/-! ## Steps -/

section Steps

variable [Freeing σ ρ] {m : Moment σ}

theorem step_passage (h : m.Sound) (a : Act σ) :
    ∃ new, Passage m (m.step a) new (m.delivered a) (m.returned a) := by
  cases a with
  | begin now => exact ⟨[], begin_passage h now⟩
  | advance =>
    obtain ⟨d, ticking⟩ := m
    cases ticking with
    | none => exact ⟨[], .quiet h .rfl (.refl _) rfl rfl rfl⟩
    | some t => exact advance_passage h
  | provision now actor source label workload =>
    simp only [step]
    split
    · exact ⟨[], .quiet h .rfl (.refl _) rfl rfl rfl⟩
    · exact provision_passage h (by assumption) now actor source label workload
  | deliver id result => exact ⟨[], deliver_passage h id result⟩
  | changeSources sources => exact ⟨[], .quiet h .rfl (.refl _) rfl rfl rfl⟩
  | changeDemand board => exact ⟨[], .quiet h .rfl (.refl _) rfl rfl rfl⟩
  | consult c => exact ⟨[], .quiet h .rfl (m.daemon.registry.consult_keeps c) rfl rfl rfl⟩
  | expire now second id => exact ⟨[], expire_passage h now second id⟩
  | remove now actor id reason => exact ⟨[], remove_passage h now actor id reason⟩
  | perform now place => exact ⟨[], perform_passage h now place⟩

theorem Sound.step (h : m.Sound) (a : Act σ) : (m.step a).Sound := by
  obtain ⟨new, hp⟩ := step_passage h a
  exact hp.sound h

theorem step_flow (h : m.Sound) (a : Act σ) :
    Flow m.places (m.step a).places (m.delivered a + m.prompt a) (m.returned a) := by
  obtain ⟨new, hp⟩ := step_passage h a
  rw [prompt, hp.handlesOf_new h]
  exact hp.flow

theorem step_unlisted (h : m.Sound) (a : Act σ) : Unlisted m (m.step a) := by
  obtain ⟨new, hp⟩ := step_passage h a
  exact hp.unlisted

/-! ## Runs -/

theorem Sound.run (h : m.Sound) (as : List (Act σ)) : (m.run as).Sound := by
  induction as generalizing m with
  | nil => exact h
  | cons a as ih => exact ih (h.step a)

theorem run_flow (h : m.Sound) (as : List (Act σ)) :
    Flow m.places (m.run as).places (m.arrivals as) (m.returns as) := by
  induction as generalizing m with
  | nil => exact .refl _
  | cons a as ih => exact (step_flow h a).trans (ih (h.step a))

end Steps

/-! ## From the start -/

/-- A daemon that starts on a store, with no capacity in flight and no handle. -/
def start (sources : SourceSet σ) (guard : Guard) (timeout : Option Duration)
    (nextId : PlannedId) (store : Store) (orphanPolicy : Option Policy) (signal : Demand.Signal)
    (history : Nat) : Moment σ :=
  ⟨.start (.start sources guard timeout nextId) (.ofStore store orphanPolicy) signal
    (.empty history), none⟩

variable (sources : SourceSet σ) (guard : Guard) (timeout : Option Duration) (nextId : PlannedId)
  (store : Store) (orphanPolicy : Option Policy) (signal : Demand.Signal) (history : Nat)

theorem sound_start :
    (start sources guard timeout nextId store orphanPolicy signal history).Sound where
  orderly := nofun
  distinct := .nil
  numbered := nofun

theorem total_start :
    (start sources guard timeout nextId store orphanPolicy signal history).places.total = 0 := by
  rw [Places.total_eq]
  rfl

end Moment

/-! ## One place -/

/-- The handle is in this place and in no other, nor in this one twice. -/
def Places.OnlyAt {ρ : Type} [DecidableEq ρ] (p : Places ρ) (place : Place) (h : ρ) : Prop :=
  p.inventory.filter (·.2 = h) = {(place, h)}

namespace Places.OnlyAt

variable {ρ : Type} [DecidableEq ρ] {p : Places ρ} {place : Place} {h : ρ}

theorem mem (ho : p.OnlyAt place h) : (place, h) ∈ p.inventory := by
  have hmem : (place, h) ∈ p.inventory.filter (·.2 = h) := by
    rw [ho]
    exact Multiset.mem_singleton_self _
  exact Multiset.mem_of_mem_filter hmem

theorem unique (ho : p.OnlyAt place h) {place' : Place} (hmem : (place', h) ∈ p.inventory) :
    place' = place := by
  have hmem' : (place', h) ∈ p.inventory.filter (·.2 = h) := Multiset.mem_filter.2 ⟨hmem, rfl⟩
  rw [ho, Multiset.mem_singleton] at hmem'
  exact congrArg Prod.fst hmem'

theorem count_total (ho : p.OnlyAt place h) : p.total.count h = 1 := by
  have hfilter : p.inventory.filter (fun e => h = e.2) = {(place, h)} := by
    simp only [eq_comm (a := h)]
    exact ho
  rw [Places.total, Multiset.count_map, hfilter, Multiset.card_singleton]

theorem exists_of_count (hc : p.total.count h = 1) : ∃ place, p.OnlyAt place h := by
  rw [Places.total, Multiset.count_map, Multiset.card_eq_one] at hc
  obtain ⟨⟨place, h'⟩, hone⟩ := hc
  simp only [eq_comm (a := h)] at hone
  have hmem : (place, h') ∈ p.inventory.filter (·.2 = h) := by
    rw [hone]
    exact Multiset.mem_singleton_self _
  obtain rfl : h' = h := (Multiset.mem_filter.1 hmem).2
  exact ⟨place, hone⟩

end Places.OnlyAt

/-- A handle that is in one place and does not come up anew goes on to one place. -/
theorem Flow.onlyAt {ρ : Type} [DecidableEq ρ] {p q : Places ρ}
    {arrived : Multiset (PlannedId × ρ)} {returned : Multiset ρ} (hf : Flow p q arrived returned)
    {place : Place} {h : ρ} (ho : p.OnlyAt place h) (ha : h ∉ arrived.map Prod.snd)
    (hr : h ∉ returned) : ∃ next, place.LeadsTo next ∧ q.OnlyAt next h := by
  have hcount : q.total.count h = 1 := by
    rw [hf.total, Multiset.count_add, Multiset.count_add, ho.count_total,
      Multiset.count_eq_zero.2 ha, Multiset.count_eq_zero.2 hr]
  obtain ⟨next, hnext⟩ := Places.OnlyAt.exists_of_count hcount
  obtain ⟨from', hlead, hfrom⟩ := hf.origin ha hr hnext.mem
  rw [ho.unique hfrom] at hlead
  exact ⟨next, hlead, hnext⟩

/-- At every moment of a run, whatever acts have come before it in whatever order and whichever
calls to the store have failed, the handles that are anywhere are those that have been handed
over to capacity, and those that their creators have freed.  So one that was handed over once
is in exactly one place, and as the run goes on it leaves that place only on its way from a
completion to the registry or a task, from the registry to a task, and by being freed there.
All along, the registry keeps handles for nodes on record only, and a node is off record when
its removal is started.  Wherever operations of the daemon lead, such a run does. -/
theorem custody_of_handles {σ ρ : Type} [CapacitySource σ ρ] [Freeing σ ρ] [DecidableEq ρ]
    (sources : SourceSet σ) (guard : Guard) (timeout : Option Duration) (nextId : PlannedId)
    (store : Store) (orphanPolicy : Option Policy) (signal : Demand.Signal) (history : Nat)
    (acts more : List (Moment.Act σ)) :
    let start : Moment σ := .start sources guard timeout nextId store orphanPolicy signal history
    let m := start.run acts
    m.places.total = (start.arrivals acts).map Prod.snd + start.returns acts ∧
      (∀ h, ((start.arrivals acts).map Prod.snd).count h = 1 → h ∉ start.returns acts →
        ∃ place, m.places.OnlyAt place h) ∧
      (∀ h place, m.places.OnlyAt place h →
        h ∉ (m.arrivals more).map Prod.snd → h ∉ m.returns more →
          ∃ next, place.LeadsTo next ∧ (m.run more).places.OnlyAt next h) ∧
      m.daemon.registry.Orderly ∧
      (∀ a, m.Unlisted (m.step a)) ∧
      ∀ ops : List (Daemon.Operation σ), ∃ run : List (Moment.Act σ),
        start.run run = ⟨ops.foldl Daemon.operate start.daemon, none⟩ := by
  intro start m
  have hstart : start.Sound :=
    Moment.sound_start sources guard timeout nextId store orphanPolicy signal history
  have hm : m.Sound := hstart.run acts
  have htotal : m.places.total = (start.arrivals acts).map Prod.snd + start.returns acts := by
    rw [(Moment.run_flow hstart acts).total, Moment.total_start, zero_add]
  refine ⟨htotal, ?_, ?_, hm.orderly, Moment.step_unlisted hm,
    fun ops => Moment.run_operations ops start.daemon⟩
  · intro h hc hr
    refine Places.OnlyAt.exists_of_count ?_
    rw [htotal, Multiset.count_add, hc, Multiset.count_eq_zero.2 hr]
  · intro h place ho ha hr
    exact (Moment.run_flow hm more).onlyAt ho ha hr

end Fleet
