import Fleet.Proofs.Node.Course

/-!
# What is told of the nodes

Two kinds of events are about the nodes on record: that a node was registered and that one was
removed.  `Moment.told` is all that has been told, by the journal and by the tick under way.
Asking sources tells of neither (`Work.Quiet`); an act tells of the node that enters by it and
of the removal that it brings to its end (`Moment.conclude`, `step_tells`), so a run tells of
just those (`run_tells`).
-/

namespace Fleet

variable {σ ρ : Type} [CapacitySource σ ρ]

namespace Event

/-- The node that an event reports as registered. -/
def registered? : Event → Option NodeId
  | provisionSucceeded _ _ _ node => some node
  | _ => none

def isRemoval : Event → Bool
  | nodeRemoved .. => true
  | _ => false

end Event

/-- Events that are about no node on record. -/
def OffRecord (es : List Event) : Prop :=
  es.filterMap Event.registered? = [] ∧ es.filter Event.isRemoval = []

theorem OffRecord.nil : OffRecord [] := ⟨rfl, rfl⟩

theorem OffRecord.append {es es' : List Event} (h : OffRecord es) (h' : OffRecord es') :
    OffRecord (es ++ es') := by
  refine ⟨?_, ?_⟩
  · rw [List.filterMap_append, h.1, h'.1, List.append_nil]
  · rw [List.filter_append, h.2, h'.2, List.append_nil]

theorem offRecord_requested (os : List (Outstanding ρ)) :
    OffRecord (os.map Outstanding.requested) := by
  refine ⟨List.filterMap_eq_nil_iff.2 fun e he => ?_, List.filter_eq_nil_iff.2 fun e he => ?_⟩ <;>
  · obtain ⟨o, -, rfl⟩ := List.mem_map.1 he
    simp [Event.registered?, Event.isRemoval, Outstanding.requested]

theorem offRecord_late (a : Abandoned ρ) : OffRecord a.events := by
  unfold Abandoned.events
  cases a.lateNode? with
  | none => exact .nil
  | some node => exact ⟨rfl, rfl⟩

/-- The look at an entry tells of the node that it registers. -/
theorem Fate.events_told (now : Time) (o : Outstanding ρ) (f : Fate ρ) :
    (f.events now o).filterMap Event.registered? = f.change.entered ∧
      (f.events now o).filter Event.isRemoval = [] := by
  cases f <;> exact ⟨rfl, rfl⟩

/-! ## Asking sources -/

namespace Work

/-- Work that has gone on from `w` to `w'` with events about no node on record. -/
def Quiet (w w' : Work σ) : Prop := ∃ es, w'.events = w.events ++ es ∧ OffRecord es

theorem Quiet.refl (w : Work σ) : w.Quiet w := ⟨[], (List.append_nil _).symm, .nil⟩

theorem Quiet.of_events {w w' : Work σ} (h : w'.events = w.events) : w.Quiet w' :=
  ⟨[], h.trans (List.append_nil _).symm, .nil⟩

theorem Quiet.trans {w w' w'' : Work σ} (h : w.Quiet w') (h' : w'.Quiet w'') :
    w.Quiet w'' := by
  obtain ⟨es, he, ho⟩ := h
  obtain ⟨es', he', ho'⟩ := h'
  exact ⟨es ++ es', by rw [he', he, List.append_assoc], ho.append ho'⟩

theorem emit_quiet (w : Work σ) {e : Event} (h : OffRecord [e]) : w.Quiet (w.emit e) :=
  ⟨[e], rfl, h⟩

theorem askCan_quiet (account : Account) (w : Work σ) : w.Quiet (w.askCan account).2 := by
  unfold askCan
  split <;> exact .of_events rfl

theorem askFor_quiet (now : Time) (account : Account) (workload : Nat) (w : Work σ) :
    w.Quiet (w.askFor now account workload).2 := by
  unfold askFor
  split
  · exact .refl w
  · exact ⟨[.requestFailed _ _ _], rfl, rfl, rfl⟩
  · dsimp only
    rw [accept_eq]
    exact ⟨_, rfl, offRecord_requested _⟩

theorem provisionFrom_quiet (now : Time) (account : Account) (workload : Nat) (w : Work σ) :
    w.Quiet (w.provisionFrom now account workload).2 := by
  have hcan := w.askCan_quiet account
  unfold provisionFrom
  split
  · exact .refl w
  · cases hc : w.askCan account with
    | mk answer w' =>
      rw [hc] at hcan
      have hfor := w'.askFor_quiet now account workload
      rcases answer with e | _ | _
      · exact hcan
      · exact hcan
      · dsimp only
        cases hf : w'.askFor now account workload with
        | mk answer w'' =>
          rw [hf] at hfor
          cases answer <;> exact hcan.trans hfor

end Work

theorem Provisioner.provisionManually_quiet (now : Time) (actor : Actor) (source : String)
    (label : Option Label) (workload : Nat) (p : Provisioner σ) :
    (Work.begin p).Quiet (p.provisionManually now actor source label workload).2 := by
  unfold provisionManually
  split
  · exact .refl _
  · dsimp only
    split
    · exact .refl _
    · exact Work.provisionFrom_quiet now _ workload _

namespace Round

variable {R : Type}

theorem askSource_quiet (now : Time) (label : Option Label) (remaining : Nat) (n : SourceName)
    (a : Asking σ R) :
    a.round.toWork.Quiet (askSource now label remaining n a).round.toWork := by
  have hcan := a.round.toWork.askCan_quiet ⟨n, label⟩
  unfold askSource
  dsimp only
  split
  · exact .refl _
  · cases hc : a.round.toWork.askCan ⟨n, label⟩ with
    | mk answer w =>
      rw [hc] at hcan
      have hfor := w.askFor_quiet now ⟨n, label⟩ (remaining - a.granted)
      rcases answer with e | _ | _
      · exact hcan.trans (w.emit_quiet ⟨rfl, rfl⟩)
      · exact hcan
      · dsimp only
        cases hf : w.askFor now ⟨n, label⟩ (remaining - a.granted) with
        | mk answer w' =>
          rw [hf] at hfor
          cases answer <;> exact hcan.trans hfor

theorem askSources_quiet (now : Time) (label : Option Label) (remaining : Nat)
    (ns : List SourceName) (a : Asking σ R) :
    a.round.toWork.Quiet (askSources now label remaining ns a).round.toWork := by
  induction ns generalizing a with
  | nil => exact .refl _
  | cons n ns ih =>
    unfold askSources
    split
    · exact .refl _
    · exact (askSource_quiet now label remaining n a).trans (ih _)

theorem evaluate_quiet (now : Time) (r : Round σ R) (d : Demand) :
    r.toWork.Quiet (r.evaluate now d).toWork := by
  have h := askSources_quiet now d.label (d.excess - r.loop.ledger.promisedForLabel d.label)
    r.loop.sources.names (⟨r, 0, false, false⟩ : Asking σ R)
  unfold evaluate
  dsimp only
  split
  · exact .refl _
  · split
    · exact h.trans ⟨[.demandUnmet d.label d.excess], rfl, rfl, rfl⟩
    · exact h

theorem evaluateAll_quiet (now : Time) (demands : List Demand) (r : Round σ R) :
    r.toWork.Quiet (r.evaluateAll now demands).toWork := by
  induction demands generalizing r with
  | nil => exact .refl _
  | cons d ds ih => exact (evaluate_quiet now r d).trans (ih _)

theorem finish_quiet (r : Round σ R) : r.toWork.Quiet r.finish.toWork :=
  ⟨[.tickFinished _ _ _ _], rfl, rfl, rfl⟩

end Round

/-! ## The end of a removal -/

section Release

variable [Freeing σ ρ]

omit [Freeing σ ρ] in
/-- The same tasks, tickets, events and outcomes. -/
structure Daemon.SameBooks (d d' : Daemon σ (Registry ρ)) : Prop where
  tasks : d'.tasks = d.tasks
  nextTicket : d'.nextTicket = d.nextTicket
  events : d'.journal.events = d.journal.events
  outcomes : d'.journal.outcomes = d.journal.outcomes

theorem Daemon.freeNode_sameBooks (release : Option ρ) (d : Daemon σ (Registry ρ)) :
    d.SameBooks (d.freeNode release).2 := by
  cases release <;> exact ⟨rfl, rfl, rfl, rfl⟩

theorem Daemon.runReclaim_sameBooks (now : Time) (node : RealizedNode ρ)
    (d : Daemon σ (Registry ρ)) : d.SameBooks (d.runReclaim now node) := by
  have hfree := d.freeNode_sameBooks node.release
  unfold runReclaim
  cases hf : d.freeNode node.release with
  | mk result d' =>
    rw [hf] at hfree
    split <;> rename_i he <;> cases he <;>
      exact ⟨hfree.tasks, hfree.nextTicket, hfree.events, hfree.outcomes⟩

variable (σ) in
/-- A removal that has come to its end: its release ran at `now`, with the sources as they were
then. -/
structure Conclusion where
  ticket : Nat
  removal : Removal ρ
  now : Time
  sources : SourceSet σ

namespace Conclusion

def result? (c : Conclusion σ) : Option (Except ReleaseError Unit) :=
  c.sources.freed? c.removal.node.release

/-- The leak that the end of a removal leaves if the handle has failed. -/
def leak? (c : Conclusion σ) : Option LeakRecord :=
  c.sources.leak? c.now c.removal.node.record c.removal.node.release

def outcome (c : Conclusion σ) : ReleaseOutcome :=
  match c.result? with
  | none => .nothingToRelease
  | some (.ok ()) => .released
  | some (.error e) => .leaked (c.removal.node.record.leak c.now.seconds e).error

/-- The event that reports the end of a removal. -/
def event (c : Conclusion σ) : Event := c.removal.event c.outcome

theorem outcome_eq_nothingToRelease_iff (c : Conclusion σ) :
    c.outcome = .nothingToRelease ↔ c.removal.node.release = none := by
  unfold outcome result? SourceSet.freed?
  cases c.removal.node.release with
  | none => simp
  | some handle =>
    rcases hf : (Freeing.free handle c.sources).1 with e | _ <;> simp [hf]

theorem outcome_eq_released_iff (c : Conclusion σ) :
    c.outcome = .released ↔ ∃ handle, c.removal.node.release = some handle ∧
      (Freeing.free handle c.sources).1 = .ok () := by
  unfold outcome result? SourceSet.freed?
  cases c.removal.node.release with
  | none => simp
  | some handle =>
    rcases hf : (Freeing.free handle c.sources).1 with e | _ <;> simp [hf]

theorem outcome_eq_leaked_iff (c : Conclusion σ) (error : String) :
    c.outcome = .leaked error ↔ ∃ handle e, c.removal.node.release = some handle ∧
      (Freeing.free handle c.sources).1 = .error e ∧
      error = (e.about c.removal.node.record.id).message := by
  unfold outcome result? SourceSet.freed?
  cases c.removal.node.release with
  | none => simp
  | some handle =>
    rcases hf : (Freeing.free handle c.sources).1 with e | _ <;>
      simp [hf, NodeRecord.leak, eq_comm]

/-- A leak is left of the node just if the outcome tells of it. -/
theorem leak?_eq (c : Conclusion σ) :
    c.leak? = match c.outcome with
      | .leaked error => some ⟨c.removal.node.record.id, c.removal.node.record.source, error,
          c.now.seconds⟩
      | _ => none := by
  unfold outcome leak? SourceSet.leak? result?
  rcases c.sources.freed? c.removal.node.release with _ | _ | _ <;> rfl

theorem conclude_fst (c : Conclusion σ) (r : Registry ρ) :
    (c.removal.conclude c.now.seconds c.result? r).1 = c.outcome := by
  unfold outcome Removal.conclude
  rcases c.result? with _ | _ | _ <;> rfl

end Conclusion

namespace Moment

/-! ## Steps -/

omit [Freeing σ ρ] in
/-- All that has been told so far, by the journal and by the tick under way. -/
def told (m : Moment σ) : List Event :=
  m.daemon.journal.events ++ (m.ticking.map fun t => t.round.events).getD []

/-- The removal that an act brings to its end. -/
def conclude (m : Moment σ) : Act σ → List (Conclusion σ)
  | .perform now place =>
    match m.daemon.tasks[place]?.map Scheduled.task with
    | some (.removal ticket removal) => [⟨ticket, removal, now, m.daemon.loop.sources⟩]
    | _ => []
  | _ => []

omit [Freeing σ ρ] in
/-- From `m` to `m'` it has been told that nodes were registered, and of removals. -/
def Tells (m m' : Moment σ) (registered : List NodeId) (removals : List Event) : Prop :=
  ∃ es, m'.told.Perm (m.told ++ es) ∧ es.filterMap Event.registered? = registered ∧
    es.filter Event.isRemoval = removals

omit [Freeing σ ρ] in
theorem Tells.of_quiet {m m' : Moment σ} (es : List Event) (h : m'.told = m.told ++ es)
    (ho : OffRecord es) : m.Tells m' [] [] := ⟨es, by rw [h], ho.1, ho.2⟩

omit [Freeing σ ρ] in
theorem Tells.of_eq {m m' : Moment σ} (h : m'.told = m.told) : m.Tells m' [] [] :=
  .of_quiet [] (h.trans (List.append_nil _).symm) .nil

theorem advance_tells (d : Daemon σ (Registry ρ)) (t : Ticking σ) :
    Tells ⟨d, some t⟩ (t.advance d) (t.change d).entered [] := by
  unfold Ticking.advance Ticking.change
  cases ht : t.ahead with
  | inFlight rest =>
    cases rest with
    | nil => exact .of_eq rfl
    | cons o os =>
      obtain ⟨hregistered, hremovals⟩ :=
        Fate.events_told t.now o (Fate.of t.now d.loop.timeout d.registry o).1
      dsimp only
      rw [Round.pollEntry_eq]
      refine ⟨_, ?_, hregistered, hremovals⟩
      simp [told, Ticking.proceed, Round.settle, Ticking.current]
  | late rest =>
    cases rest with
    | nil =>
      obtain ⟨es, hes, ho⟩ := (Round.evaluateAll_quiet t.now t.demands (t.current d)).trans
        (Round.finish_quiet _)
      refine .of_quiet es ?_ ho
      show d.journal.events ++ ((t.current d).evaluateAll t.now t.demands).finish.events ++ [] =
        d.journal.events ++ t.round.events ++ es
      rw [hes, List.append_nil, List.append_assoc]
      rfl
    | cons a as =>
      dsimp only
      rw [Round.pollLate_eq]
      refine .of_quiet _ ?_ (offRecord_late a)
      simp [told, Ticking.proceed, Ticking.current]

omit [Freeing σ ρ] in
theorem provision_tells (now : Time) (actor : Actor) (source : String) (label : Option Label)
    (workload : Nat) (d : Daemon σ (Registry ρ)) :
    Tells ⟨d, none⟩ ⟨(d.provisionManually now actor source label workload).2, none⟩ [] [] := by
  obtain ⟨es, hes, ho⟩ := d.loop.provisionManually_quiet now actor source label workload
  refine .of_quiet es ?_ ho
  show d.journal.events ++ (d.loop.provisionManually now actor source label workload).2.events ++
    [] = d.journal.events ++ [] ++ es
  rw [hes, List.append_nil, List.append_nil]
  rfl

theorem expire_journal (now : Time) (second : UInt64) (id : NodeId) (d : Daemon σ (Registry ρ)) :
    (expire now second id d).journal = d.journal := by
  rw [expire_eq]
  split <;> rfl

theorem remove_journal (now : Time) (actor : Actor) (id : NodeId) (reason : String)
    (d : Daemon σ (Registry ρ)) : (remove now actor id reason d).journal = d.journal := by
  unfold remove
  split <;> rfl

theorem runRemoval_events (ticket : Nat) (removal : Removal ρ) (now : Time)
    (d : Daemon σ (Registry ρ)) :
    (d.runRemoval now ticket removal).journal.events =
      d.journal.events ++ [(⟨ticket, removal, now, d.loop.sources⟩ : Conclusion σ).event] := by
  have hfree := (d.freeNode_sameBooks removal.node.release).events
  have houtcome := (⟨ticket, removal, now, d.loop.sources⟩ : Conclusion σ).conclude_fst
    (d.freeNode removal.node.release).2.registry
  rw [Conclusion.result?, ← Daemon.freeNode_fst] at houtcome
  show (d.freeNode removal.node.release).2.journal.events ++
    [removal.event (removal.conclude now.seconds (d.freeNode removal.node.release).1
      (d.freeNode removal.node.release).2.registry).1] = _
  rw [hfree]
  exact congrArg (fun outcome => d.journal.events ++ [removal.event outcome]) houtcome

theorem perform_tells (now : Time) (place : Nat) (m : Moment σ) :
    m.Tells (m.perform now place) [] ((m.conclude (.perform now place)).map Conclusion.event) := by
  simp only [perform, conclude]
  cases m.daemon.tasks[place]? with
  | none => exact .of_eq rfl
  | some t =>
    obtain ⟨due, task⟩ := t
    show m.Tells ((m.picked place).runTask now task) _ _
    cases task with
    | boot id node =>
      dsimp only [runTask, Option.map_some]
      split
      · refine .of_eq ?_
        obtain ⟨d, ticking⟩ := m
        cases ticking <;> rfl
      · refine .of_eq (congrArg (· ++ _) ?_)
        exact ((m.picked place).daemon.freeNode_sameBooks node.release).events
    | reclaim node =>
      refine .of_eq (congrArg (· ++ _) ?_)
      exact ((m.picked place).daemon.runReclaim_sameBooks now node).events
    | removal ticket removal =>
      have hevents := runRemoval_events ticket removal now (m.picked place).daemon
      refine ⟨[(⟨ticket, removal, now, m.daemon.loop.sources⟩ : Conclusion σ).event], ?_, rfl, rfl⟩
      show (((m.picked place).daemon.runRemoval now ticket removal).journal.events ++ _).Perm _
      rw [hevents]
      exact (List.append_assoc _ _ _).symm ▸ (List.perm_append_comm.append_left _).trans
        (List.append_assoc _ _ _ ▸ .refl _)

/-- An act tells of the node that enters by it and of the removal that it concludes. -/
theorem step_tells (m : Moment σ) (a : Act σ) :
    m.Tells (m.step a) (m.change a).entered ((m.conclude a).map Conclusion.event) := by
  cases a with
  | begin now =>
    simp only [step, begin]
    split
    · exact .of_eq rfl
    · rename_i hnone
      refine .of_quiet [.tickStarted (m.daemon.loop.ticks + 1)] ?_ ⟨rfl, rfl⟩
      rw [told, told, hnone]
      simp [Round.start]
  | advance =>
    obtain ⟨d, ticking⟩ := m
    cases ticking with
    | none => exact .of_eq rfl
    | some t => exact advance_tells d t
  | provision now actor source label workload =>
    obtain ⟨d, ticking⟩ := m
    cases ticking with
    | some t => exact .of_eq rfl
    | none => exact provision_tells now actor source label workload d
  | deliver id result =>
    obtain ⟨d, ticking⟩ := m
    cases ticking <;> exact .of_eq rfl
  | changeSources sources => exact .of_eq rfl
  | changeDemand board => exact .of_eq rfl
  | consult c =>
    have hentered : (m.change (.consult c)).entered = [] := m.daemon.registry.entered_consulted c
    exact hentered ▸ .of_eq rfl
  | expire now second id =>
    have hentered : (m.change (.expire now second id)).entered = [] := Change.entered_ofExpiry _
    refine hentered ▸ .of_eq (congrArg (fun j : Journal ρ => j.events ++ _) ?_)
    exact expire_journal now second id m.daemon
  | remove now actor id reason =>
    have hentered : (m.change (.remove now actor id reason)).entered = [] :=
      Change.entered_ofRemoval _
    refine hentered ▸ .of_eq (congrArg (fun j : Journal ρ => j.events ++ _) ?_)
    exact remove_journal now actor id reason m.daemon
  | perform now place =>
    have hentered : (m.change (.perform now place)).entered = [] :=
      m.daemon.registry.entered_left _
    exact hentered ▸ perform_tells now place m

/-! ## Runs -/

/-- The removals that acts bring to their end, in order. -/
def conclusions (m : Moment σ) (acts : List (Act σ)) : List (Conclusion σ) :=
  m.along conclude acts

omit [Freeing σ ρ] in
theorem Tells.trans {m m' m'' : Moment σ} {registered registered' : List NodeId}
    {removals removals' : List Event} (h : m.Tells m' registered removals)
    (h' : m'.Tells m'' registered' removals') :
    m.Tells m'' (registered ++ registered') (removals ++ removals') := by
  obtain ⟨es, hperm, rfl, rfl⟩ := h
  obtain ⟨es', hperm', rfl, rfl⟩ := h'
  refine ⟨es ++ es', ?_, List.filterMap_append, List.filter_append _ _⟩
  rw [← List.append_assoc]
  exact hperm'.trans (hperm.append_right es')

/-- A run tells of the nodes that enter in its course and of the removals that it concludes. -/
theorem run_tells (m : Moment σ) (acts : List (Act σ)) :
    m.Tells (m.run acts) (m.entries acts) ((m.conclusions acts).map Conclusion.event) := by
  induction acts generalizing m with
  | nil => exact .of_eq rfl
  | cons a acts ih =>
    have h := (step_tells m a).trans (ih (m.step a))
    rw [← List.map_append] at h
    exact h

omit [Freeing σ ρ] in
theorem Tells.registered {m m' : Moment σ} {registered : List NodeId} {removals : List Event}
    (h : m.Tells m' registered removals) :
    (m'.told.filterMap Event.registered?).Perm
      (m.told.filterMap Event.registered? ++ registered) := by
  obtain ⟨es, hperm, rfl, -⟩ := h
  rw [← List.filterMap_append]
  exact hperm.filterMap _

omit [Freeing σ ρ] in
theorem Tells.removals {m m' : Moment σ} {registered : List NodeId} {removals : List Event}
    (h : m.Tells m' registered removals) :
    (m'.told.filter Event.isRemoval).Perm (m.told.filter Event.isRemoval ++ removals) := by
  obtain ⟨es, hperm, -, rfl⟩ := h
  rw [← List.filter_append]
  exact hperm.filter _

end Moment

end Release

end Fleet
