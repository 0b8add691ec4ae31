import Fleet.Api.Handlers
import Fleet.Proofs.Access
import Fleet.Proofs.Node.Change
import Fleet.Proofs.Slots.Succession
import Fleet.Proofs.Slots.Terms

/-!
# Every mutation is checked

A request that would mutate a source which its actor is not granted (`Request.Mutates`) is
answered by the denial alone, whatever else is in the request and in the daemon, and nothing
moves (`respond_denied`).  All other requests leave capacity, sources and nodes alone
(`respond_spares`).  Since no act of a daemon changes its guard (`Moment.run_guard`), this is so
at every moment (`complete_mediation`).
-/

namespace Fleet

namespace Api

variable {σ ρ : Type} [CapacitySource σ ρ]

/-! ## Mutations -/

/-- A request that asks to mutate a source: to provision from one that is there, or to remove a
node that is on record. -/
inductive Request.Mutates (r : Request) (d : Daemon σ (Registry ρ)) : Action → SourceName → Prop
  | provision {segment : String} {source : SourceName} {workload : Workload}
      {label : Option Label} (method : r.method = .post)
      (route : Route.ofPath? r.path = some (.provision segment))
      (decoded : decodeSegment? segment = some source.text)
      (known : source ∈ d.loop.sources.names)
      (body : r.decode Workload.shape Workload.ofJson? = .ok workload)
      (labelled : Label.ofOption workload.label = .ok label) : Mutates r d .provision source
  | remove {segment : String} {id : NodeId} {record : NodeRecord} {source : SourceName}
      (method : r.method = .delete) (route : Route.ofPath? r.path = some (.node segment))
      (decoded : decodeSegment? segment = some id)
      (found : (d.registry.get id).1 = .ok (some record))
      (owner : record.source = source.text) : Mutates r d .remove source

theorem absorb_begin (now : Time) (d : Daemon σ (Registry ρ)) :
    d.absorb now (.begin d.loop) = d := by
  obtain ⟨loop, registry, board, signal, history, tasks, nextTicket, journal⟩ := d
  simp [Daemon.absorb, Daemon.emitAll, Work.begin, History.emitAll]

theorem provisionManually_denied {d : Daemon σ (Registry ρ)} {actor : Actor}
    {source : SourceName} (hknown : source ∈ d.loop.sources.names)
    (hdenied : d.loop.guard.permits actor .provision source = false) (now : Time)
    (label : Option Label) (workload : Nat) :
    d.provisionManually now actor source.text label workload =
      (.error (.denied ⟨actor, .provision, source⟩), d) := by
  obtain ⟨s, hs, rfl⟩ := SourceSet.named?_of_mem hknown
  have hasked : d.loop.provisionManually now actor (CapacitySource.name s).text label workload =
      (.error (.denied ⟨actor, .provision, CapacitySource.name s⟩), .begin d.loop) := by
    simp only [Provisioner.provisionManually, hs, Guard.check, hdenied, Bool.false_eq_true,
      if_false]
  rw [Daemon.provisionManually, hasked]
  dsimp only
  rw [absorb_begin]

theorem removeNode_denied {r : Registry ρ} {guard : Guard} {actor : Actor} {id : NodeId}
    {record : NodeRecord} {source : SourceName} (hfound : (r.get id).1 = .ok (some record))
    (howner : record.source = source.text) (hdenied : guard.permits actor .remove source = false)
    (reason : String) :
    Fleet.removeNode guard actor id reason r =
      (.error (.denied ⟨actor, .remove, source⟩), (r.get id).2) := by
  have hget : NodeRegistry.get id r = (.ok (some record), (r.get id).2) := Prod.ext hfound rfl
  have hname : SourceName.ofString record.source = .ok source :=
    SourceName.ofString_eq_ok_iff.2 howner.symm
  simp only [Fleet.removeNode, authorizeRemoval, hget, hname, Guard.check, hdenied,
    Bool.false_eq_true, if_false]

section Respond

variable [Freeing σ ρ] {r : Request} {d : Daemon σ (Registry ρ)}

theorem respond_of_handler {route : Route} {handler : Handler σ (Registry ρ)}
    (hroute : Route.ofPath? r.path = some route) (hmethod : r.method ≠ .head) (now : Time)
    (hhandler : handler? now r route r.method = some handler) : respond now r d = handler d := by
  simp only [respond, hroute, if_neg hmethod, hhandler]

/-- What is not permitted is denied in words that are about the actor, the action and the source
only, and all stays as it is. -/
theorem respond_denied {action : Action} {source : SourceName}
    (h : r.Mutates d action source)
    (hdenied : d.loop.guard.permits r.acting action source = false) (now : Time) :
    (respond now r d).1 =
        .failure (PermissionDenied.message ⟨r.acting, action, source⟩) .forbidden ∧
      ∃ registry, d.registry.Undergoes registry .still ∧
        (respond now r d).2 = { d with registry } := by
  cases h with
  | @provision segment _ workload label method route decoded known body labelled =>
    have hmanual := provisionManually_denied known hdenied now label workload.excess
    have hhandler : handler? now r (.provision segment) r.method =
        some (provision (σ := σ) (R := Registry ρ) now r.acting source.text workload) := by
      rw [method]
      simp only [handler?, withName, decoded, withBody, body]
    have hrespond : respond now r d =
        (mutationFailure (.denied ⟨r.acting, .provision, source⟩), d) := by
      rw [respond_of_handler route (by rw [method]; decide) now hhandler, provision, labelled]
      dsimp only
      rw [hmanual]
    rw [hrespond]
    exact ⟨rfl, d.registry, .refl _, rfl⟩
  | @remove segment id record _ method route decoded found owner =>
    have hremove := removeNode_denied found owner hdenied "requested via api"
    have hhandler : handler? now r (.node segment) r.method =
        some (removeNode (σ := σ) (R := Registry ρ) now r.acting id) := by
      rw [method]
      simp only [handler?, withName, decoded]
    have hrespond : respond now r d = (mutationFailure (.denied ⟨r.acting, .remove, source⟩),
        { d with registry := (d.registry.get id).2 }) := by
      rw [respond_of_handler route (by rw [method]; decide) now hhandler, removeNode,
        Daemon.removeNode, hremove]
    rw [hrespond]
    exact ⟨rfl, _, Registry.get_undergoes id d.registry, rfl⟩

/-! ## All other requests -/

/-- The mutation that a request asks for, by its route and its method. -/
def Request.action? (r : Request) : Option Action :=
  match Route.ofPath? r.path, r.method with
  | some (.provision _), .post => some .provision
  | some (.node _), .delete => some .remove
  | _, _ => none

omit [Freeing σ ρ] in
/-- From `d` to `d'` no source has been called, capacity is as it was, and no node has left. -/
structure Spares (d d' : Daemon σ (Registry ρ)) : Prop where
  loop : d'.loop = d.loop
  tasks : d'.tasks = d.tasks
  journal : d'.journal = d.journal
  registry : d.registry.Keeps d'.registry

omit [Freeing σ ρ] in
theorem Spares.refl (d : Daemon σ (Registry ρ)) : Spares d d := ⟨rfl, rfl, rfl, .refl _⟩

omit [Freeing σ ρ] in
theorem Spares.of_registry {registry : Registry ρ} (h : d.registry.Keeps registry) :
    Spares d { d with registry } := ⟨rfl, rfl, rfl, h⟩

/-- A handler that leaves capacity, sources and nodes alone. -/
def Sparing (handler : Handler σ (Registry ρ)) : Prop := ∀ d, Spares d (handler d).2

omit [Freeing σ ρ] in
theorem withName_sparing {segment : String} {handler : String → Handler σ (Registry ρ)}
    (h : ∀ name, Sparing (handler name)) : Sparing (withName segment handler) := by
  unfold withName
  split
  · exact Spares.refl
  · exact h _

omit [Freeing σ ρ] in
theorem withBody_sparing {α : Type} {shape : Shape} {ofJson? : Json → Option α}
    {handler : α → Handler σ (Registry ρ)} (h : ∀ a, Sparing (handler a)) :
    Sparing (withBody r shape ofJson? handler) := by
  unfold withBody
  split
  · exact Spares.refl
  · exact h _

omit [Freeing σ ρ] in
theorem getSource_sparing (name : String) :
    Sparing (getSource name : Handler σ (Registry ρ)) := by
  intro d
  unfold getSource
  split <;> exact .refl d

omit [Freeing σ ρ] in
theorem setDemand_sparing (workload : Workload) :
    Sparing (setDemand workload : Handler σ (Registry ρ)) := by
  intro d
  unfold setDemand
  split
  · exact .refl d
  · exact ⟨rfl, rfl, rfl, .refl _⟩

/-- A handler that does no more to the daemon than call the registry once. -/
def Consults (handler : Handler σ (Registry ρ)) (c : Consultation) : Prop :=
  ∀ d, (handler d).2 = { d with registry := d.registry.consult c }

omit [Freeing σ ρ] in
theorem Consults.sparing {handler : Handler σ (Registry ρ)} {c : Consultation}
    (h : Consults handler c) : Sparing handler := by
  intro d
  rw [h d]
  exact .of_registry (d.registry.consult_keeps c)

omit [Freeing σ ρ] in
theorem listNodes_consults : Consults (listNodes : Handler σ (Registry ρ)) .list := by
  intro d
  have hinstance : NodeRegistry.list d.registry = d.registry.list := rfl
  unfold listNodes
  rw [hinstance, Registry.consult]
  rcases d.registry.list with ⟨_ | _, registry⟩ <;> rfl

omit [Freeing σ ρ] in
theorem reportActivity_consults (now : Time) (id : NodeId) (activity : Activity) :
    Consults (reportActivity now id activity : Handler σ (Registry ρ))
      (.report id activity.busy activity.pending now.seconds) := by
  intro d
  have hinstance : NodeRegistry.updateActivity id activity.busy activity.pending now.seconds
    d.registry = d.registry.updateActivity id activity.busy activity.pending now.seconds := rfl
  unfold reportActivity
  rw [hinstance, Registry.consult]
  rcases d.registry.updateActivity id activity.busy activity.pending now.seconds with
    ⟨(_ | _) | _, registry⟩ <;> rfl

omit [Freeing σ ρ] in
theorem listLeaks_consults : Consults (listLeaks : Handler σ (Registry ρ)) .listLeaks := by
  intro d
  have hinstance : NodeRegistry.withStore Store.listLeaks d.registry =
    d.registry.onStore Store.listLeaks := rfl
  unfold listLeaks
  rw [hinstance, Registry.consult]
  rcases d.registry.onStore Store.listLeaks with ⟨_ | _, registry⟩ <;> rfl

omit [Freeing σ ρ] in
theorem resolveLeak_consults (id : NodeId) :
    Consults (resolveLeak id : Handler σ (Registry ρ)) (.resolveLeak id) := by
  intro d
  have hinstance : NodeRegistry.withStore (Store.deleteLeak id) d.registry =
    d.registry.onStore (Store.deleteLeak id) := rfl
  unfold resolveLeak
  rw [hinstance, Registry.consult]
  rcases d.registry.onStore (Store.deleteLeak id) with ⟨_ | _ | _, registry⟩ <;> rfl

/-- Of the handlers, only the two that mutate are not sparing. -/
theorem handler?_sparing (now : Time) {route : Route} {method : Method}
    {handler : Handler σ (Registry ρ)} (h : handler? now r route method = some handler)
    (hprovision : ∀ segment, route = .provision segment → method ≠ .post)
    (hremove : ∀ segment, route = .node segment → method ≠ .delete) : Sparing handler := by
  unfold handler? at h
  split at h
  case h_1 => cases h; exact Spares.refl
  case h_2 => cases h; exact withName_sparing getSource_sparing
  case h_3 segment => exact absurd rfl (hprovision segment rfl)
  case h_4 => cases h; exact listNodes_consults.sparing
  case h_5 segment => exact absurd rfl (hremove segment rfl)
  case h_6 =>
    cases h
    exact withName_sparing fun id => withBody_sparing fun activity =>
      (reportActivity_consults now id activity).sparing
  case h_7 => cases h; exact Spares.refl
  case h_8 => cases h; exact Spares.refl
  case h_9 => cases h; exact Spares.refl
  case h_10 => cases h; exact withBody_sparing setDemand_sparing
  case h_11 => cases h; exact Spares.refl
  case h_12 => cases h; exact listLeaks_consults.sparing
  case h_13 => cases h; exact withName_sparing fun id => (resolveLeak_consults id).sparing
  case h_14 => cases h

theorem respond_spares (h : r.action? = none) (now : Time) (d : Daemon σ (Registry ρ)) :
    Spares d (respond now r d).2 := by
  unfold respond
  split
  · exact .refl d
  · rename_i route hroute
    dsimp only
    split
    · exact .refl d
    · rename_i handler hhandler
      refine handler?_sparing now hhandler ?_ ?_ d
      · rintro segment rfl hmethod
        split at hmethod
        · cases hmethod
        · rw [Request.action?, hroute, hmethod] at h
          cases h
      · rintro segment rfl hmethod
        split at hmethod
        · cases hmethod
        · rw [Request.action?, hroute, hmethod] at h
          cases h

end Respond

end Api

namespace Api

/-- At every moment of any run of a daemon that a configuration builds, a request that would
mutate a source which the configuration does not grant to its actor is answered by a denial that
depends on the actor, the action and the source alone; no source is called, and all stays as it
is.  A request that asks for no mutation calls no source either, leaves all capacity and all
accounts as they are, and takes out no node. -/
theorem complete_mediation (c : Config) {room : Nat} (store : Store) (nextId : PlannedId)
    (d₀ : Daemon Source (Registry ReleaseHandle)) (hbuilt : c.build room store nextId = .ok d₀)
    (acts : List (Moment.Act Source)) (now : Time) (r : Request) :
    let d := ((⟨d₀, none⟩ : Moment Source).run acts).daemon
    (∀ action source, r.Mutates d action source → ¬c.Grants r.acting source →
      (respond now r d).1 =
          .failure (PermissionDenied.message ⟨r.acting, action, source⟩) .forbidden ∧
        ∃ registry, d.registry.Undergoes registry .still ∧
          (respond now r d).2 = { d with registry }) ∧
    (r.action? = none → Spares d (respond now r d).2) := by
  intro d
  have hguard : d.loop.guard = c.guard := by
    obtain ⟨_, sources, -, -, hstart⟩ := Config.build_ok hbuilt
    show ((⟨d₀, none⟩ : Moment Source).run acts).daemon.loop.guard = c.guard
    rw [Moment.run_guard, hstart]
    rfl
  refine ⟨fun action source hmutates hnot => ?_, fun h => respond_spares h now d⟩
  refine respond_denied hmutates ?_ now
  rw [hguard, ← Bool.not_eq_true]
  exact fun hpermits => hnot ((c.permits_guard_iff r.acting action source).1 hpermits)

end Api

/-! ## A source that only one actor is granted -/

namespace Solo

def guarded : Config := { config with grants := some (SortedMap.empty.insert "alice" ["sim"]) }

def guardedDaemon : Daemon Source (Registry ReleaseHandle) :=
  { daemon filled 2 2 with
    loop := .start ⟨[.simulated (source 2)], by simp⟩ guarded.guard none 2 }

theorem build_guarded : guarded.build 16 filled 2 = .ok guardedDaemon :=
  Config.build_of_listed listNodes_filled rfl (Nat.le_refl 16) 2

/-- Somebody who is not named asks for a node. -/
def asking : Api.Request :=
  ⟨.post, "/api/v1/sources/sim/provision", none, some "application/json", "\x7b\"excess\": 1\x7d"⟩

/-- Somebody else wants the node gone that is on record. -/
def removing : Api.Request := ⟨.delete, "/api/v1/nodes/sim-1", some " eve ", none, ""⟩

theorem asking_mutates : asking.Mutates guardedDaemon .provision name := by
  have hbody : (asking.decode Api.Workload.shape Api.Workload.ofJson?).toOption.map (·.label) =
      some none := by decide +kernel
  cases hw : asking.decode Api.Workload.shape Api.Workload.ofJson? with
  | error status =>
    rw [hw] at hbody
    cases hbody
  | ok workload =>
    rw [hw] at hbody
    have hlabel : workload.label = none := Option.some.inj hbody
    have hlabelled : Label.ofOption workload.label = .ok none := by rw [hlabel]; rfl
    have hroute : Api.Route.ofPath? asking.path = some (.provision "sim") := by decide +kernel
    exact .provision rfl hroute (by decide +kernel) List.mem_cons_self hw hlabelled

theorem removing_mutates : removing.Mutates guardedDaemon .remove name := by
  have hroute : Api.Route.ofPath? removing.path = some (.node "sim-1") := by decide +kernel
  have hdecoded : Api.decodeSegment? "sim-1" = some "sim-1" := by decide +kernel
  have hfound : (guardedDaemon.registry.get "sim-1").1 = .ok (some record) := by decide +kernel
  exact .remove rfl hroute hdecoded hfound rfl

theorem not_granted {actor : Actor} (h : guarded.guard.permits actor .provision name = false) :
    ¬guarded.Grants actor name := by
  rw [← guarded.permits_guard_iff actor .provision name, h]
  exact Bool.false_ne_true

end Solo

theorem Api.complete_mediation_guarded :
    Solo.guarded.build 16 Solo.filled 2 = .ok Solo.guardedDaemon ∧
      (respond ⟨0⟩ Solo.asking Solo.guardedDaemon).1 = .failure
        "actor anonymous may not provision on source sim" .forbidden ∧
      (respond ⟨0⟩ Solo.removing Solo.guardedDaemon).1 = .failure
        "actor eve may not remove on source sim" .forbidden := by
  have hasking := complete_mediation Solo.guarded Solo.filled 2 _ Solo.build_guarded [] ⟨0⟩
    Solo.asking
  have hremoving := complete_mediation Solo.guarded Solo.filled 2 _ Solo.build_guarded [] ⟨0⟩
    Solo.removing
  refine ⟨Solo.build_guarded, ?_, ?_⟩
  · have hdenied := (hasking.1 _ _ Solo.asking_mutates
      (Solo.not_granted (by decide +kernel))).1
    have hmessage : PermissionDenied.message ⟨Solo.asking.acting, .provision, Solo.name⟩ =
        "actor anonymous may not provision on source sim" := by decide +kernel
    exact hmessage ▸ hdenied
  · have hdenied := (hremoving.1 _ _ Solo.removing_mutates
      (Solo.not_granted (by decide +kernel))).1
    have hmessage : PermissionDenied.message ⟨Solo.removing.acting, .remove, Solo.name⟩ =
        "actor eve may not remove on source sim" := by decide +kernel
    exact hmessage ▸ hdenied

end Fleet
