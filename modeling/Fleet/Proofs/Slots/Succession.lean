import Fleet.Proofs.Slots.Attendance

/-!
# One run after the other

A daemon is built on the store that another has left at some moment, so records of one run are
found by the next (`Store.LeftBy`).  No call fails on such a store (`LeftBy.intact`).  Whatever
is kept by every change of the registry that only lets nodes of the sources enter is kept along
a run (`Moment.run_registry`).
-/

namespace Fleet

namespace Moment

/-- The ids of the nodes whose boots are started in the course of a run. -/
def creations (m : Moment Source) (acts : List (Act Source)) : List NodeId :=
  m.along created acts

end Moment

/-- A store that is left by a succession of daemons, the first of which began on the empty
store; `P` is so of the configuration of each and of the ids of the nodes that it created. -/
inductive Store.LeftBy (P : Config → List NodeId → Prop) : Store → Prop
  | empty : LeftBy P .empty
  | run {c : Config} {room : Nat} {store : Store} {nextId : PlannedId}
      {d : Daemon Source (Registry ReleaseHandle)} {acts : List (Moment.Act Source)}
      (left : LeftBy P store) (built : c.build room store nextId = .ok d)
      (inner : ∀ a ∈ acts, a.isInner = true)
      (allowed : P c ((⟨d, none⟩ : Moment Source).creations acts)) :
      LeftBy P ((⟨d, none⟩ : Moment Source).run acts).daemon.registry.store

namespace Config

variable {c : Config} {room : Nat} {store : Store} {nextId : PlannedId}
  {d : Daemon Source (Registry ReleaseHandle)}

/-- On a store whose calls succeed a daemon starts with the store as it is, and its sources are
numbered on after the records in it. -/
theorem build_intact (h : c.build room store nextId = .ok d) (hintact : store.Intact) :
    ∃ existing sources, (∀ r, r ∈ existing ↔ store.record? r.id = some r) ∧
      List.Forall₂ (SourceSettings.StartsAs existing) c.sources sources.members ∧
      (⟨d, none⟩ : Moment Source) = .start sources c.guard c.completionTimeout nextId
        store (some .always) c.signal c.daemon.eventHistory := by
  obtain ⟨existing, sources, hlist, hstarts, hstart⟩ := build_ok h
  obtain ⟨records, hrecords, -, hmem⟩ := hintact.listNodes
  rw [hrecords] at hlist hstart
  cases hlist
  exact ⟨existing, sources, hmem, hstarts, hstart⟩

theorem build_steady (h : c.build room store nextId = .ok d) (hintact : store.Intact) :
    (⟨d, none⟩ : Moment Source).Steady := by
  obtain ⟨_, sources, -, -, hstart⟩ := build_intact h hintact
  rw [hstart]
  exact Moment.steady_start hintact.keyed ..

theorem build_registry (h : c.build room store nextId = .ok d) (hintact : store.Intact) :
    d.registry = .ofStore store (some .always) := by
  obtain ⟨_, sources, -, -, hstart⟩ := build_intact h hintact
  exact congrArg (·.daemon.registry) hstart

theorem build_attended (h : c.build room store nextId = .ok d) :
    (⟨d, none⟩ : Moment Source).Attended := by
  obtain ⟨_, sources, -, -, hstart⟩ := build_ok h
  have hd := congrArg Moment.daemon hstart
  dsimp only at hd
  rw [hd]
  exact Moment.attended_of_idle rfl rfl rfl

end Config

theorem Store.LeftBy.intact {P : Config → List NodeId → Prop} {store : Store}
    (h : LeftBy P store) : store.Intact := by
  induction h with
  | empty => exact intact_empty
  | @run c room store nextId d acts left built inner _ ih =>
    have hstart : d.registry.store.Intact := by
      rw [Config.build_registry built ih]
      exact ih
    exact Moment.run_intact (Config.build_steady built ih) hstart acts

/-! ## Nodes that enter -/

namespace Moment

variable {m : Moment Source}

/-- A node that enters has come up before for capacity that was polled. -/
theorem charge_of_enters {a : Act Source} {node : RealizedNode ReleaseHandle}
    (h : m.change a = .enters node) : ∃ c ∈ m.charges, c.2.2 = .unread (.ok node) := by
  have hentered : (m.change a).entered = [node.record.id] := by
    rw [h]
    rfl
  cases a with
  | advance =>
    obtain ⟨d, ticking⟩ := m
    cases ticking with
    | none => cases h
    | some t =>
      change t.change d = .enters node at h
      unfold Ticking.change at h
      split at h
      · rename_i o os ht
        have hmeets := Fate.of_meets t.now d.loop.timeout d.registry o
        generalize (Fate.of t.now d.loop.timeout d.registry o).1 = f at h hmeets
        cases hmeets with
        | registered ready =>
          cases h
          refine ⟨o.charge, List.mem_append_left _ ?_, ready⟩
          show o.charge ∈ t.ahead.charges
          rw [ht]
          exact List.mem_cons_self
        | _ => cases h
      · cases h
  | consult c =>
    rw [change, Registry.entered_consulted] at hentered
    cases hentered
  | expire now second id =>
    rw [change, Change.entered_ofExpiry] at hentered
    cases hentered
  | remove now actor id reason =>
    rw [change, Change.entered_ofRemoval] at hentered
    cases hentered
  | perform now place =>
    rw [change, Registry.entered_left] at hentered
    cases hentered
  | _ => cases h

/-- It is a node of the source that the capacity was charged to. -/
theorem Attended.of_enters (h : m.Attended) {a : Act Source}
    {node : RealizedNode ReleaseHandle} (ha : m.change a = .enters node) : ∃ n, node.Of n := by
  obtain ⟨c, hc, hready⟩ := charge_of_enters ha
  rcases h.charges c hc with ⟨hwaits, -⟩ | ⟨node', hnode', hof⟩
  · rw [hready] at hwaits
    cases hwaits
  · rw [hready] at hnode'
    cases hnode'
    exact ⟨_, hof⟩

/-- What every change keeps that lets only nodes of simulated sources enter. -/
theorem run_registry {P : Registry ReleaseHandle → Prop}
    (hchange : ∀ {r r' : Registry ReleaseHandle} {c : Change ReleaseHandle}, r.Undergoes r' c →
      (∀ node, c = .enters node → ∃ n, node.Of n) → P r → P r')
    (hsteady : m.Steady) (hfit : m.Fit) (hattended : m.Attended) {acts : List (Act Source)}
    (hacts : ∀ a ∈ acts, a.isInner = true) (h : P m.daemon.registry) :
    P (m.run acts).daemon.registry := by
  induction acts generalizing m with
  | nil => exact h
  | cons a acts ih =>
    rw [List.forall_mem_cons] at hacts
    exact ih (hsteady.step a) (hfit.step hacts.1) (hattended.step hfit hacts.1) hacts.2
      (hchange (step_undergoes hsteady a) (fun _ => hattended.of_enters) h)

end Moment

/-! ## The source with one slot, after a restart -/

namespace Solo

/-- One node is asked for, comes up and is registered. -/
def filling : List (Moment.Act Source) :=
  [.provision ⟨0⟩ actor "sim" none 1, .perform ⟨0⟩ 0, .begin ⟨0⟩, .advance]

theorem filling_isInner : ∀ a ∈ filling, a.isInner = true := by simp [filling, Moment.Act.isInner]

/-- The store with this node. -/
def filled : Store :=
  ((⟨daemon .empty 1 1, none⟩ : Moment Source).run filling).daemon.registry.store

def record : NodeRecord :=
  ⟨"sim-1", "sim", none, "simulated node of sim", 1, 0, 0, false, some 0, 0⟩

theorem leftBy_filled {P : Config → List NodeId → Prop}
    (h : P config ((⟨daemon .empty 1 1, none⟩ : Moment Source).creations filling)) :
    filled.LeftBy P :=
  .run .empty build_empty filling_isInner h

theorem listNodes_filled : filled.listNodes = (.ok [record], filled) := by
  obtain ⟨records, hlist, -⟩ := (leftBy_filled (P := fun _ _ => True) trivial).intact.listNodes
  have hrecords : filled.listNodes.1 = .ok [record] := by decide +kernel
  rw [hlist] at hrecords ⊢
  exact congrArg (·, filled) hrecords

/-- The source is numbered on after the node, but counts no slot for it. -/
theorem build_filled : config.build 16 filled 2 = .ok (daemon filled 2 2) :=
  Config.build_of_listed listNodes_filled rfl (Nat.le_refl 16) 2

end Solo

end Fleet
