import Fleet.Proofs.Api.Service
import Fleet.Proofs.Node.Authority
import Fleet.Proofs.Node.Removal

/-!
# Nodes that were restored

A record that the store holds when a daemon is built has no handles, and the policy for such
nodes keeps them all.  So no act of the daemon itself takes its node out or puts another in its
place (`Moment.Standing.step`), and only a removal that its actor was permitted on this very
record does (`Service.Standing.step`): the node stands until somebody whom its source is granted
has it removed, and then there is nothing to release (`restored_until_removed`).
-/

namespace Fleet

namespace Registry

variable {ρ : Type} {r r' : Registry ρ} {c : Change ρ} {old : NodeRecord}

/-- The node of `old` is on record, with all but what reports count as it was, and has no
handles. -/
structure Restored (r : Registry ρ) (old : NodeRecord) : Prop where
  record : ∃ record, r.store.record? old.id = some record ∧ record.Recounts old
  handles : r.handles.get? old.id = none

/-- A restored node stays unless it is taken out. -/
theorem Undergoes.restored (h : r.Undergoes r' c) (hr : r.Restored old)
    (hstays : ∀ removal, c = .leaves removal → removal.node.record.id ≠ old.id) :
    r'.Restored old := by
  obtain ⟨⟨record, hrecord, hcounts⟩, hnone⟩ := hr
  have hadmits := h.admits
  have hafter := congrFun h.record? old.id
  have hhandles := congrArg (·.get? old.id) h.handles
  cases c with
  | enters node =>
    -- a node enters only under an id that is free
    have hne : old.id ≠ node.record.id := by
      intro he
      rw [Admits, ← he, Table.contains_of_read? hrecord] at hadmits
      cases hadmits
    rw [Change.records, Function.update_of_ne hne] at hafter
    refine ⟨⟨record, hafter.trans hrecord, hcounts⟩, hhandles.trans ?_⟩
    rw [handlesAfter, SortedMap.get?_insert, if_neg hne]
    exact hnone
  | leaves removal =>
    have hne := (hstays removal rfl).symm
    rw [Change.records, Function.update_of_ne hne] at hafter
    refine ⟨⟨record, hafter.trans hrecord, hcounts⟩, hhandles.trans ?_⟩
    rw [handlesAfter, SortedMap.get?_erase, if_neg hne]
    exact hnone
  | updates new =>
    rw [Change.records, Function.update_apply] at hafter
    refine ⟨?_, hhandles.trans hnone⟩
    by_cases hid : old.id = new.id
    · obtain ⟨before, hbefore, hreport⟩ := hadmits
      rw [← hid, hrecord] at hbefore
      cases hbefore
      rw [if_pos hid] at hafter
      exact ⟨new, hafter, hreport.trans hcounts⟩
    · rw [if_neg hid] at hafter
      exact ⟨record, hafter.trans hrecord, hcounts⟩
  | _ => exact ⟨⟨record, hafter.trans hrecord, hcounts⟩, hhandles.trans hnone⟩

/-- A restored node that is taken out brings no handle. -/
theorem Undergoes.restored_leaves {removal : Removal ρ} (h : r.Undergoes r' (.leaves removal))
    (hr : r.Restored old) (hid : removal.node.record.id = old.id) :
    removal.node.record.Recounts old ∧ removal.node.release = none ∧
      r'.store.record? old.id = none := by
  obtain ⟨⟨record, hrecord, hcounts⟩, hnone⟩ := hr
  obtain ⟨hout, hrelease⟩ := h.admits
  rw [hid] at hout hrelease
  rw [hrecord] at hout
  refine ⟨Option.some.inj hout ▸ hcounts, ?_, ?_⟩
  · rw [hrelease, release?, hnone]
    rfl
  · rw [h.record?, Change.records, hid, Function.update_self]

end Registry

namespace Moment

variable {σ ρ : Type} [CapacitySource σ ρ] {m : Moment σ} {old : NodeRecord}

/-- The node of `old` stands as it was restored, and nodes like it are kept. -/
structure Standing (m : Moment σ) (old : NodeRecord) : Prop where
  steady : m.Steady
  orphanPolicy : m.daemon.registry.orphanPolicy = some .always
  restored : m.daemon.registry.Restored old

variable [Freeing σ ρ]

/-- No act of the daemon itself takes out a restored node. -/
theorem Standing.stays (h : m.Standing old) {a : Act σ} (own : a.isOwn = true)
    {removal : Removal ρ} (hleaves : m.change a = .leaves removal) :
    removal.node.record.id ≠ old.id := by
  cases a with
  | advance =>
    obtain ⟨d, ticking⟩ := m
    cases ticking with
    | none => cases hleaves
    | some t => exact absurd hleaves (Change.ne_leaves (t.departed_change d) removal)
  | consult c =>
    exact absurd hleaves (Change.ne_leaves (m.daemon.registry.departed_consulted c) removal)
  | perform now place =>
    exact absurd hleaves (Change.ne_leaves (m.daemon.registry.departed_left _) removal)
  | expire now second id =>
    rcases hanswer : (m.daemon.registry.detachExpired id second).1 with _ | _ | ⟨node, reason⟩
    all_goals rw [change, hanswer] at hleaves; cases hleaves
    obtain ⟨-, hid, policy, hforce, hcheck⟩ :=
      Registry.detachExpired_some h.steady.keyed hanswer
    intro he
    -- the policy in force is the one for nodes without handles, and it removes none
    rw [Registry.inForce, ← hid, he, h.restored.handles, h.orphanPolicy] at hforce
    cases hforce
    cases hcheck
  | remove now actor id reason => cases own
  | begin | provision | deliver | changeSources | changeDemand => cases hleaves

theorem Standing.step_of_stays (h : m.Standing old) {a : Act σ}
    (hstays : ∀ removal, m.change a = .leaves removal → removal.node.record.id ≠ old.id) :
    (m.step a).Standing old :=
  have hstep := step_undergoes h.steady a
  ⟨h.steady.step a, hstep.orphanPolicy.trans h.orphanPolicy, hstep.restored h.restored hstays⟩

theorem Standing.step (h : m.Standing old) {a : Act σ} (own : a.isOwn = true) :
    (m.step a).Standing old :=
  h.step_of_stays fun _ => h.stays own

theorem Standing.run (h : m.Standing old) {acts : List (Act σ)}
    (own : ∀ a ∈ acts, a.isOwn = true) : (m.run acts).Standing old := by
  induction acts generalizing m with
  | nil => exact h
  | cons a acts ih =>
    rw [List.forall_mem_cons] at own
    exact ih (h.step own.1) own.2

/-! ## Removals with nothing to release -/

/-- Nothing is released for the removal with this ticket: no other outcome is noted for it, and it
has been told so unless its task is still to run. -/
structure ReleasesNothing (m : Moment σ) (ticket : Nat) (removal : Removal ρ) : Prop where
  outcome : ∀ outcome, (ticket, outcome) ∈ m.daemon.journal.outcomes → outcome = .nothingToRelease
  told : (ticket, .nothingToRelease) ∈ m.daemon.journal.outcomes ∧
      removal.event .nothingToRelease ∈ m.told ∨
    (ticket, removal) ∈ m.pending
  /-- When its task runs it frees nothing and leaves the nodes alone. -/
  idle : ∀ now place due, m.daemon.tasks[place]? = some ⟨due, .removal ticket removal⟩ →
    let d := (m.step (.perform now place)).daemon
    d.loop = m.daemon.loop ∧ d.registry = m.daemon.registry ∧
      d.journal.released = m.daemon.journal.released ∧
      (ticket, .nothingToRelease) ∈ d.journal.outcomes

/-- A task that has no handle to free only notes that there was none. -/
theorem perform_of_handleless {ticket : Nat} {removal : Removal ρ} {place : Nat} {due : Time}
    (ht : m.daemon.tasks[place]? = some ⟨due, .removal ticket removal⟩)
    (hrelease : removal.node.release = none) (now : Time) :
    let d := (m.step (.perform now place)).daemon
    d.loop = m.daemon.loop ∧ d.registry = m.daemon.registry ∧
      d.journal.released = m.daemon.journal.released ∧
      (ticket, .nothingToRelease) ∈ d.journal.outcomes := by
  simp [Moment.step, perform, ht, runTask, Daemon.runRemoval, Daemon.freeNode, hrelease,
    Removal.conclude, Daemon.emitAll]

theorem releasesNothing_run {start : Moment σ} {departed : List (Removal ρ)}
    {concluded : List (Conclusion σ)} (hnone : start.pending = 0)
    (hunheard : start.daemon.journal.outcomes = []) (h : start.Settles m departed concluded)
    {ticket : Nat} {removal : Removal ρ} (hpending : (ticket, removal) ∈ m.pending)
    (hrelease : removal.node.release = none) (acts : List (Act σ)) :
    (m.run acts).ReleasesNothing ticket removal := by
  have houtcome {outcome : ReleaseOutcome}
      (hnoted : (ticket, outcome) ∈ (m.run acts).daemon.journal.outcomes) :
      outcome = .nothingToRelease := by
    obtain ⟨c, rfl, rfl⟩ := outcome_of_pending hnone hunheard h hpending acts hnoted
    exact c.outcome_eq_nothingToRelease_iff.2 hrelease
  refine ⟨fun _ => houtcome, ?_, fun now place due ht => perform_of_handleless ht hrelease now⟩
  refine (pending_or_told hpending acts).symm.imp_left ?_
  rintro ⟨outcome, hnoted, htold⟩
  obtain rfl := houtcome hnoted
  exact ⟨hnoted, htold⟩

end Moment

/-! ## Requests -/

namespace Api

namespace Service

variable {σ ρ : Type} [CapacitySource σ ρ] {s : Service σ} {guard : Guard} {old : NodeRecord}

/-- The node of `old` stands, and who has been permitted to remove it is one whom the guard lets
have it. -/
structure Standing (s : Service σ) (guard : Guard) (old : NodeRecord) : Prop where
  moment : s.moment.Standing old
  guard_eq : s.moment.daemon.loop.guard = guard
  permits : ∀ p ∈ s.permits, p.node = old.id → guard.Lets p.request.acting old

variable [Freeing σ ρ]

/-- A removal that was permitted is carried out and accepted, and takes out the node of `old`. -/
structure TakesOut (s : Service σ) (old : NodeRecord) (now : Time) (place : Nat) (p : Permit)
    (removal : Removal ρ) : Prop where
  permitted : s.permits[place]? = some p
  node : p.node = old.id
  accepted : (s.step (.carryOut now place)).1 =
    some (.success (.object [("node", .text old.id), ("status", .text "removing")]) .accepted)
  record : removal.node.record.Recounts old
  handleless : removal.node.release = none
  gone : (s.step (.carryOut now place)).2.moment.daemon.registry.store.record? old.id = none
  begun : (s.moment.daemon.nextTicket, removal) ∈
    (s.step (.carryOut now place)).2.moment.pending

theorem Standing.receive (h : s.Standing guard old) (now : Time) (r : Request) :
    (s.receive now r).2.Standing guard old := by
  obtain ⟨acts, own, hacts⟩ := receive_moment now r s
  refine ⟨hacts ▸ h.moment.run own, ?_, fun p hp hnode => ?_⟩
  · rw [hacts, Moment.run_guard, h.guard_eq]
  · rcases mem_permits_receive hp with hp | ⟨rfl, hpermitted⟩
    · exact h.permits p hp hnode
    · -- the permission was given on the record of `old`
      obtain ⟨checked, hchecked, hlets⟩ := authorizeRemoval_ok hpermitted
      obtain ⟨record, hrecord, hcounts⟩ := h.moment.restored.record
      rw [hnode, hrecord] at hchecked
      cases hchecked
      rw [h.guard_eq] at hlets
      exact hlets.of_source hcounts.source.symm

/-- A removal that comes to the node of `old` takes it out. -/
theorem Standing.takesOut (h : s.Standing guard old) {now : Time} {place : Nat} {p : Permit}
    (hp : s.permits[place]? = some p) {removal : Removal ρ}
    (hleaves : s.moment.change (p.act now) = .leaves removal)
    (hid : removal.node.record.id = old.id) : s.TakesOut old now place p removal := by
  have hout := carryOut_of_permit hp now
  have hnode : p.node = old.id := (detachFor_ok h.moment.steady.keyed hleaves).2.symm.trans hid
  have hstep := Moment.step_undergoes h.moment.steady (p.act now)
  rw [hleaves] at hstep
  obtain ⟨hcounts, hnone, hgone⟩ := hstep.restored_leaves h.moment.restored hid
  have hbegun : (s.moment.step (p.act now)).pending + 0 = s.moment.pending +
      {(s.moment.daemon.nextTicket, removal)} := by
    have hsettles := (Moment.step_settles s.moment (p.act now)).pending
    rw [hleaves] at hsettles
    exact hsettles
  refine ⟨hp, hnode, ?_, hcounts, hnone, ?_, ?_⟩
  · rw [Service.step, hout, Change.ofRemoval_eq_leaves hleaves, hnode]
    rfl
  · rw [Service.step, hout]
    exact hgone
  · rw [Service.step, hout, ← add_zero (Moment.pending _), hbegun]
    exact Multiset.mem_add.2 (.inr (Multiset.mem_singleton_self _))

/-- A step leaves the node of `old` standing, unless it carries out a removal that takes it
out. -/
theorem Standing.step (h : s.Standing guard old) (x : Step σ) :
    (s.step x).2.Standing guard old ∨
      ∃ now place p removal, x = .carryOut now place ∧ s.TakesOut old now place p removal := by
  cases x with
  | act a own =>
    exact .inl ⟨h.moment.step own, (Moment.run_guard s.moment [a]).trans h.guard_eq, h.permits⟩
  | receive now r => exact .inl (h.receive now r)
  | carryOut now place =>
    cases hp : s.permits[place]? with
    | none =>
      refine .inl ?_
      rw [Service.step, Service.carryOut, hp]
      exact h
    | some p =>
      by_cases htaken : ∃ removal, s.moment.change (p.act now) = .leaves removal ∧
          removal.node.record.id = old.id
      · obtain ⟨removal, hleaves, hid⟩ := htaken
        exact .inr ⟨now, place, p, removal, rfl, h.takesOut hp hleaves hid⟩
      · refine .inl ?_
        rw [Service.step, carryOut_of_permit hp now]
        refine ⟨h.moment.step_of_stays fun removal hleaves hid => htaken ⟨removal, hleaves, hid⟩,
          ?_, fun q hq => h.permits q (List.mem_of_mem_eraseIdx hq)⟩
        exact (Moment.run_guard s.moment [p.act now]).trans h.guard_eq

/-- Along a run the node of `old` stands until a removal takes it out. -/
theorem Standing.run (h : s.Standing guard old) (steps : List (Step σ)) :
    (s.run steps).Standing guard old ∨
      ∃ before now place after p removal, steps = before ++ .carryOut now place :: after ∧
        (s.run before).Standing guard old ∧ (s.run before).TakesOut old now place p removal := by
  induction steps generalizing s with
  | nil => exact .inl h
  | cons x steps ih =>
    rcases h.step x with hstep | ⟨now, place, p, removal, rfl, hout⟩
    · refine (ih hstep).imp_right ?_
      rintro ⟨before, now, place, after, p, removal, rfl, hbefore, hout⟩
      exact ⟨x :: before, now, place, after, p, removal, rfl, hbefore, hout⟩
    · exact .inr ⟨[], now, place, steps, p, removal, rfl, h, hout⟩

end Service

end Api

/-! ## The daemon of a configuration -/

namespace Config

/-- The source that a record names is granted to an actor. -/
def GrantsNode (c : Config) (actor : Actor) (record : NodeRecord) : Prop :=
  ∃ source : SourceName, source.text = record.source ∧ c.Grants actor source

theorem lets_guard_iff (c : Config) (actor : Actor) (record : NodeRecord) :
    c.guard.Lets actor record ↔ c.GrantsNode actor record := by
  refine exists_congr fun source => and_congr SourceName.ofString_eq_ok_iff ?_
  exact c.permits_guard_iff actor .remove source

/-- A record that the store held stands when the daemon is built. -/
theorem build_standing {c : Config} {room : Nat} {store : Store} {nextId : PlannedId}
    {d : Daemon Source (Registry ReleaseHandle)} (hkeyed : store.Keyed)
    (hbuilt : c.build room store nextId = .ok d) {old : NodeRecord}
    (hold : store.record? old.id = some old) :
    (Api.Service.start d).Standing c.guard old := by
  obtain ⟨_, sources, -, -, hstart⟩ := build_ok hbuilt
  have hnodes : store.listNodes.2.nodes = store.nodes := store.listNodes_stays.nodes
  have hkeyed' : store.listNodes.2.Keyed := by
    rw [Store.Keyed, hnodes]
    exact hkeyed
  have hold' : store.listNodes.2.record? old.id = some old := by
    rw [Store.record?, hnodes]
    exact hold
  have hmoment : (⟨d, none⟩ : Moment Source).Standing old := by
    rw [hstart]
    exact ⟨Moment.steady_start hkeyed' .., rfl, ⟨old, hold', .refl old⟩, rfl⟩
  have hguard : (⟨d, none⟩ : Moment Source).daemon.loop.guard = c.guard := by
    rw [hstart]
    rfl
  exact ⟨hmoment, hguard, fun _ hp => absurd hp List.not_mem_nil⟩

end Config

namespace Api

/-- In any run of a daemon that a configuration builds, with ticks and sweeps and any requests,
each record that the store held stays on record as it was, but for what reports count and with no
handles, unless a removal of its node that was requested by an actor whom its source is granted is
carried out and accepted.  Up to then it stands; it comes out with no handle, and its removal
releases nothing and ends so. -/
theorem restored_until_removed (c : Config) {room : Nat} (store : Store) (nextId : PlannedId)
    (d₀ : Daemon Source (Registry ReleaseHandle)) (hkeyed : store.Keyed)
    (hbuilt : c.build room store nextId = .ok d₀) (id : NodeId) (old : NodeRecord)
    (hold : store.record? id = some old) (steps : List (Service.Step Source)) :
    let start : Service Source := .start d₀
    old.id = id ∧ ((start.run steps).moment.daemon.registry.Restored old ∨
      ∃ before now place after p removal, steps = before ++ .carryOut now place :: after ∧
        (start.run before).moment.daemon.registry.Restored old ∧
        (start.run before).TakesOut old now place p removal ∧
        (∃ earlier, .receive earlier p.request ∈ before) ∧
        c.GrantsNode p.request.acting old ∧
        (start.run steps).moment.ReleasesNothing (start.run before).moment.daemon.nextTicket
          removal) := by
  intro start
  obtain rfl : old.id = id := hkeyed id old hold
  have hstanding : start.Standing c.guard old := Config.build_standing hkeyed hbuilt hold
  refine ⟨rfl, (hstanding.run steps).imp (·.moment.restored) ?_⟩
  rintro ⟨before, now, place, after, p, removal, rfl, hbefore, hout⟩
  have hmem : p ∈ (start.run before).permits := List.mem_of_getElem? hout.permitted
  refine ⟨before, now, place, after, p, removal, rfl, hbefore.moment.restored, hout,
    (Service.mem_permits_run hmem).resolve_left List.not_mem_nil,
    (c.lets_guard_iff _ _).1 (hbefore.permits p hmem hout.node), ?_⟩
  -- the removal is under way after its step, and what follows comes to acts
  have hbegun := hout.begun
  obtain ⟨acts, hacts⟩ := Service.run_moment start (before ++ [.carryOut now place])
  obtain ⟨rest, hrest⟩ :=
    Service.run_moment ((start.run before).step (.carryOut now place)).2 after
  have hafter : start.run (before ++ [.carryOut now place]) =
      ((start.run before).step (.carryOut now place)).2 := List.foldl_append
  have hall : start.run (before ++ .carryOut now place :: after) =
      ((start.run before).step (.carryOut now place)).2.run after := List.foldl_append
  rw [hafter] at hacts
  rw [hacts] at hbegun
  rw [hall, hrest, hacts]
  obtain ⟨_, sources, -, -, hstart⟩ := Config.build_ok hbuilt
  have hnone : start.moment.pending = 0 := by
    show (⟨d₀, none⟩ : Moment Source).pending = 0
    rw [hstart]
    rfl
  have hunheard : start.moment.daemon.journal.outcomes = [] := by
    show (⟨d₀, none⟩ : Moment Source).daemon.journal.outcomes = []
    rw [hstart]
    rfl
  exact Moment.releasesNothing_run hnone hunheard (Moment.run_settles _ acts) hbegun
    hout.handleless rest

end Api

/-! ## A node that one actor may remove -/

namespace Solo

/-- Somebody to whom the source is granted wants the node gone. -/
def cleaning : Api.Request := ⟨.delete, "/api/v1/nodes/sim-1", some "alice", none, ""⟩

/-- Somebody else asks first and a sweep comes to the node, before it is taken out. -/
def waiting : List (Api.Service.Step Source) :=
  [.receive ⟨0⟩ removing, .act (.expire ⟨0⟩ 5000 "sim-1") rfl, .receive ⟨0⟩ cleaning]

theorem keyed_filled : filled.Keyed :=
  (leftBy_filled (P := fun _ _ => True) trivial).intact.keyed

theorem record_filled : filled.record? "sim-1" = some record := by
  obtain ⟨records, hlist, -, hmem⟩ :=
    (leftBy_filled (P := fun _ _ => True) trivial).intact.listNodes
  rw [listNodes_filled] at hlist
  cases hlist
  exact (hmem record).1 List.mem_cons_self

end Solo

theorem Api.restored_until_removed_waiting :
    Solo.filled.Keyed ∧ Solo.guarded.build 16 Solo.filled 2 = .ok Solo.guardedDaemon ∧
      Solo.filled.record? "sim-1" = some Solo.record ∧
      ((Service.start Solo.guardedDaemon).run
        Solo.waiting).moment.daemon.registry.Restored Solo.record ∧
      ∃ (s : Service Source) (now : Time) (place : Nat) (p : Permit)
        (removal : Removal ReleaseHandle),
        s.TakesOut Solo.record now place p removal ∧
          Solo.guarded.GrantsNode p.request.acting Solo.record := by
  have hrun := restored_until_removed Solo.guarded Solo.filled 2 Solo.guardedDaemon
    Solo.keyed_filled Solo.build_guarded "sim-1" Solo.record Solo.record_filled
  refine ⟨Solo.keyed_filled, Solo.build_guarded, Solo.record_filled, ?_, ?_⟩
  · refine (hrun Solo.waiting).2.resolve_right ?_
    rintro ⟨before, now, place, after, -, -, hsteps, -⟩
    have hmem : Service.Step.carryOut now place ∈ Solo.waiting := by simp [hsteps]
    simp [Solo.waiting] at hmem
  · have hgone : ((Service.start Solo.guardedDaemon).run (Solo.waiting ++
        [.carryOut ⟨0⟩ 0])).moment.daemon.registry.store.nodes.contains "sim-1" = false := by
      decide +kernel
    obtain ⟨_, hrestored | ⟨before, now, place, -, p, removal, -, -, hout, -, hgrants, -⟩⟩ :=
      hrun (Solo.waiting ++ [.carryOut ⟨0⟩ 0])
    · obtain ⟨record, hrecord, -⟩ := hrestored.record
      exact absurd (Table.contains_of_read? hrecord) (Bool.eq_false_iff.1 hgone)
    · exact ⟨_, now, place, p, removal, hout, hgrants⟩

end Fleet
