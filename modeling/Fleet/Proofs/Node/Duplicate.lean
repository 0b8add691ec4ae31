import Fleet.Proofs.Node.Telling

/-!
# What is told of duplicates

A node is reported as a duplicate only where the registry has turned it away because there is a
node of its id (`Moment.TurnsAway`, `step_duplicates`).
-/

namespace Fleet

variable {σ ρ : Type} [CapacitySource σ ρ]

def Event.isDuplicate : Event → Bool
  | duplicateNodeIgnored .. => true
  | _ => false

/-- Events none of which is of a duplicate. -/
def Undoubled (es : List Event) : Prop := ∀ e ∈ es, e.isDuplicate = false

/-- Asking sources tells of no duplicate. -/
theorem Work.Grows.undoubled {w w' : Work σ} {new : List (Outstanding ρ)} {es : List Event}
    (h : w.Grows w' new es) : Undoubled es := by
  intro e he
  rw [← Bool.not_eq_true]
  intro hduplicate
  -- the event is about capacity, but such events are requests only
  have hplanned : e.planned?.isSome = true := by
    cases e <;> first | rfl | cases hduplicate
  have hmem : e ∈ es.filter (·.planned?.isSome) := List.mem_filter.2 ⟨he, hplanned⟩
  rw [h.requests] at hmem
  obtain ⟨o, -, rfl⟩ := List.mem_map.1 hmem
  cases hduplicate

theorem Abandoned.undoubled (a : Abandoned ρ) : Undoubled a.events := by
  intro e he
  obtain ⟨node, -, rfl⟩ := List.mem_map.1 he
  rfl

theorem Fate.undoubled (now : Time) (o : Outstanding ρ) {f : Fate ρ}
    (h : ∀ node back, f ≠ .duplicate node back) : Undoubled (f.events now o) := by
  cases f with
  | duplicate node back => exact absurd rfl (h node back)
  | kept => exact nofun
  | spent => exact nofun
  | _ => exact List.forall_mem_singleton.2 rfl

omit [CapacitySource σ ρ] in
theorem Registry.contains_of_duplicate {r : Registry ρ} {node back : RealizedNode ρ}
    (h : (r.register node).1 = .duplicate back) :
    r.store.nodes.contains node.record.id = true := by
  rcases r.store.insertNodeIfAbsent_cases node.record with ⟨e, he⟩ | ⟨hc, -⟩ | ⟨-, he⟩
  · simp only [register, onStore, he] at h
    cases h
  · exact hc
  · simp only [register, onStore, he] at h
    cases h

/-- Capacity is found a duplicate where the registry has turned its node away. -/
theorem Fate.of_duplicate {now : Time} {timeout : Option Duration} {r : Registry ρ}
    {o : Outstanding ρ} {node back : RealizedNode ρ}
    (h : (Fate.of now timeout r o).1 = .duplicate node back) :
    o.planned.completion = .unread (.ok node) ∧ (r.register node).1 = .duplicate back := by
  have hmeets := Fate.of_meets now timeout r o
  rw [h] at hmeets
  cases hmeets with
  | duplicate ready =>
    refine ⟨ready, ?_⟩
    have hinstance : NodeRegistry.register node r = r.register node := rfl
    unfold Fate.of at h
    rw [ready] at h
    dsimp only at h
    rw [hinstance] at h
    cases hr : (r.register node).1 with
    | duplicate back' =>
      rw [hr] at h
      exact congrArg Registration.duplicate (Fate.duplicate.inj h).2
    | _ =>
      rw [hr] at h
      cases h

namespace Moment

/-- The node that the act would register is turned away, since one of its id is on record. -/
def TurnsAway (m : Moment σ) (a : Act σ) : Prop :=
  a = .advance ∧ ∃ t o os node back, m.ticking = some t ∧ t.ahead = .inFlight (o :: os) ∧
    o.planned.completion = .unread (.ok node) ∧
    (m.daemon.registry.register node).1 = .duplicate back

variable [Freeing σ ρ]

omit [Freeing σ ρ] in
/-- From `m` to `m'` no duplicate has been told of. -/
def NoDouble (m m' : Moment σ) : Prop :=
  ∀ e ∈ m'.told, e.isDuplicate = true → e ∈ m.told

omit [Freeing σ ρ] in
theorem NoDouble.of_undoubled {m m' : Moment σ} (es : List Event)
    (h : m'.told.Perm (m.told ++ es)) (hes : Undoubled es) : m.NoDouble m' := by
  intro e he hduplicate
  refine (List.mem_append.1 (h.mem_iff.1 he)).resolve_right fun hnew => ?_
  rw [hes e hnew] at hduplicate
  cases hduplicate

omit [Freeing σ ρ] in
theorem NoDouble.of_eq {m m' : Moment σ} (h : m'.told = m.told) : m.NoDouble m' :=
  fun _ he _ => h ▸ he

theorem advance_noDouble {d : Daemon σ (Registry ρ)} {t : Ticking σ}
    (h : ¬(⟨d, some t⟩ : Moment σ).TurnsAway .advance) : NoDouble ⟨d, some t⟩ (t.advance d) := by
  unfold Ticking.advance
  cases ht : t.ahead with
  | inFlight rest =>
    cases rest with
    | nil => exact .of_eq rfl
    | cons o os =>
      have hfate (node back : RealizedNode ρ) :
          (Fate.of t.now d.loop.timeout d.registry o).1 ≠ .duplicate node back := by
        intro hduplicate
        obtain ⟨hready, hback⟩ := Fate.of_duplicate hduplicate
        exact h ⟨rfl, t, o, os, node, back, rfl, ht, hready, hback⟩
      dsimp only
      rw [Round.pollEntry_eq]
      refine .of_undoubled _ ?_ (Fate.undoubled t.now o hfate)
      simp [told, Ticking.proceed, Round.settle, Ticking.current]
  | late rest =>
    cases rest with
    | nil =>
      obtain ⟨new, es, hgrows, -⟩ := Round.evaluateAll_asks t.now t.demands (t.current d)
      have hfinish : Work.Grows (t.current d).toWork
          ((t.current d).evaluateAll t.now t.demands).finish.toWork _ _ :=
        hgrows.trans (.remark _ rfl)
      refine .of_undoubled _ (.of_eq ?_) hfinish.undoubled
      show d.journal.events ++ ((t.current d).evaluateAll t.now t.demands).finish.events ++ [] =
        d.journal.events ++ t.round.events ++ _
      rw [hfinish.events, List.append_nil, List.append_assoc]
      rfl
    | cons a as =>
      dsimp only
      rw [Round.pollLate_eq]
      refine .of_undoubled _ ?_ a.undoubled
      simp [told, Ticking.proceed, Ticking.current]

omit [Freeing σ ρ] in
theorem provision_noDouble (now : Time) (actor : Actor) (source : String) (label : Option Label)
    (workload : Nat) (d : Daemon σ (Registry ρ)) :
    NoDouble ⟨d, none⟩ ⟨(d.provisionManually now actor source label workload).2, none⟩ := by
  obtain ⟨new, es, hgrows⟩ := d.loop.provisionManually_grows now actor source label workload
  refine .of_undoubled es (.of_eq ?_) hgrows.undoubled
  show d.journal.events ++ (d.loop.provisionManually now actor source label workload).2.events ++
    [] = d.journal.events ++ [] ++ es
  rw [hgrows.events, List.append_nil, List.append_nil]
  rfl

theorem perform_noDouble (now : Time) (place : Nat) (m : Moment σ) :
    m.NoDouble (m.perform now place) := by
  unfold perform
  cases m.daemon.tasks[place]? with
  | none => exact .of_eq rfl
  | some t =>
    obtain ⟨due, task⟩ := t
    show m.NoDouble ((m.picked place).runTask now task)
    cases task with
    | boot id node =>
      dsimp only [runTask]
      split
      · refine .of_eq ?_
        obtain ⟨d, ticking⟩ := m
        cases ticking <;> rfl
      · refine .of_eq (congrArg (· ++ _) ?_)
        exact ((m.picked place).daemon.freeNode_sameBooks node.release).events
    | reclaim node =>
      refine .of_eq (congrArg (· ++ _) ?_)
      exact ((m.picked place).daemon.runReclaim_sameBooks now node).events
    | removal ticket removal =>
      have hevents := runRemoval_events ticket removal now (m.picked place).daemon
      refine .of_undoubled [Conclusion.event ⟨ticket, removal, now, m.daemon.loop.sources⟩] ?_
        (List.forall_mem_singleton.2 rfl)
      show (((m.picked place).daemon.runRemoval now ticket removal).journal.events ++ _).Perm _
      rw [hevents]
      exact (List.append_assoc _ _ _).symm ▸ (List.perm_append_comm.append_left _).trans
        (List.append_assoc _ _ _ ▸ .refl _)

/-- An act tells of a duplicate only if a node is turned away by it. -/
theorem step_duplicates {m : Moment σ} {a : Act σ} (h : ¬m.TurnsAway a) :
    m.NoDouble (m.step a) := by
  cases a with
  | begin now =>
    simp only [step, begin]
    split
    · exact .of_eq rfl
    · rename_i hnone
      refine .of_undoubled [.tickStarted (m.daemon.loop.ticks + 1)] ?_
        (List.forall_mem_singleton.2 rfl)
      rw [told, told, hnone]
      simp [Round.start]
  | advance =>
    obtain ⟨d, ticking⟩ := m
    cases ticking with
    | none => exact .of_eq rfl
    | some t => exact advance_noDouble h
  | provision now actor source label workload =>
    obtain ⟨d, ticking⟩ := m
    cases ticking with
    | some t => exact .of_eq rfl
    | none => exact provision_noDouble now actor source label workload d
  | deliver id result =>
    obtain ⟨d, ticking⟩ := m
    cases ticking <;> exact .of_eq rfl
  | changeSources sources => exact .of_eq rfl
  | changeDemand board => exact .of_eq rfl
  | consult c => exact .of_eq rfl
  | expire now second id =>
    exact .of_eq (congrArg (fun j : Journal ρ => j.events ++ _)
      (expire_journal now second id m.daemon))
  | remove now actor id reason =>
    exact .of_eq (congrArg (fun j : Journal ρ => j.events ++ _)
      (remove_journal now actor id reason m.daemon))
  | perform now place => exact perform_noDouble now place m

end Moment

end Fleet
