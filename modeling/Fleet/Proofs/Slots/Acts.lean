import Fleet.Proofs.Slots.Deed

/-!
# Acts and their deeds

A daemon that is left to itself changes no sources and gets no results from outside
(`Moment.Act.isInner`).  Where its sources are simulated, each of its acts does one deed
(`step_deed`), and the moment that it leads to is again fit for the next (`Fit.step`).
-/

namespace Fleet

variable {σ ρ : Type} [CapacitySource σ ρ]

namespace Moment

/-- Sources that are all simulated, and no boot that a tick under way has yet to report. -/
structure Fit (m : Moment Source) : Prop where
  sound : m.Sound
  simulated : m.daemon.loop.sources.Simulated
  unasked : ∀ t ∈ m.ticking, t.round.boots = []

/-! ## Ticks -/

theorem begin_deed {m : Moment Source} (h : m.Sound) (now : Time) :
    Deed m (m.begin now) [] [] := by
  have hflow := (begin_passage h now).flow
  unfold begin at hflow ⊢
  split at hflow
  · exact .rests .rfl rfl rfl (moves_of_flow hflow rfl)
  · rename_i hnone
    refine .rests ?_ rfl rfl (moves_of_flow hflow rfl)
    rw [charges, charges, hnone]
    exact .rfl

variable {d : Daemon Source (Registry ReleaseHandle)} {t : Ticking Source}

theorem boots_reclaims (nodes : List (RealizedNode ρ)) (due : RealizedNode ρ → Time) :
    Scheduled.boots (nodes.map fun node => (⟨due node, .reclaim node⟩ : Scheduled ρ)) = [] := by
  rw [Scheduled.boots, List.filterMap_map]
  exact List.filterMap_eq_nil_iff.2 fun _ _ => rfl

theorem booting_proceed (r : Round Source (Registry ReleaseHandle)) (ahead : Ahead ReleaseHandle) :
    (t.proceed r ahead d).booting = Scheduled.boots d.tasks := by
  rw [booting, Ticking.proceed]
  dsimp only
  rw [Scheduled.boots_append, boots_reclaims, List.append_nil]

theorem pollEntry_deed {o : Outstanding ReleaseHandle} {os : List (Outstanding ReleaseHandle)}
    (h : (⟨d, some t⟩ : Moment Source).Sound) (ht : t.ahead = .inFlight (o :: os)) :
    Deed ⟨d, some t⟩ (t.proceed (Round.pollEntry t.now (t.current d) o) (.inFlight os) d)
      (Fate.of t.now d.loop.timeout d.registry o).1.change.entered [] := by
  have hflow := (pollEntry_passage h ht).flow
  rw [Round.pollEntry_eq] at hflow ⊢
  refine .looks [o.charge] ((Fate.leaves o _).map (o.account.source, ·))
    (os.map Outstanding.charge ++ d.loop.charges) ?_ ?_ ((Fate.leaves_sublist o _).map _)
    (Fate.of_nodes t.now d.loop.timeout d.registry o) (booting_proceed _ _) rfl
    (moves_of_flow hflow rfl)
  · rw [charges, Option.map_some, ht]
    exact .rfl
  · rw [← Fate.charges_leaves]
    simp only [Ticking.proceed, charges, Option.map_some, Option.getD_some, Ahead.charges,
      Provisioner.charges, Round.settle, Ticking.current, List.flatMap_cons, List.flatMap_nil,
      List.append_nil, List.map_append]
    refine Multiset.coe_eq_coe.1 ?_
    simp only [← Multiset.coe_add]
    abel

theorem pollLate_deed {a : Abandoned ReleaseHandle} {as : List (Abandoned ReleaseHandle)}
    (h : (⟨d, some t⟩ : Moment Source).Sound) (ht : t.ahead = .late (a :: as)) :
    Deed ⟨d, some t⟩ (t.proceed (Round.pollLate (t.current d) a) (.late as) d) [] [] := by
  have hflow := (pollLate_passage h ht).flow
  have hless : (([a].filter (·.completion.isWaiting)).map Abandoned.charge).Sublist
      ([a].map Abandoned.charge) := List.filter_sublist.map _
  rw [Round.pollLate_eq] at hflow ⊢
  refine .looks [a.charge] _ (as.map Abandoned.charge ++ d.loop.charges) ?_ ?_ hless
    ((hless.filterMap _).map _) (booting_proceed _ _) rfl (moves_of_flow hflow rfl)
  · rw [charges, Option.map_some, ht]
    exact .rfl
  · simp only [Ticking.proceed, charges, Option.map_some, Option.getD_some, Ahead.charges,
      Provisioner.charges, Ticking.current, List.map_append]
    refine Multiset.coe_eq_coe.1 ?_
    simp only [← Multiset.coe_add]
    abel

theorem turn_deed (h : (⟨d, some t⟩ : Moment Source).Sound) (ht : t.ahead = .inFlight []) :
    Deed ⟨d, some t⟩
      (t.proceed { t.current d with loop := { d.loop with abandoned := [] } }
        (.late d.loop.abandoned) d) [] [] := by
  refine .rests ?_ (booting_proceed _ _) rfl (moves_of_flow (turn_passage h ht).flow rfl)
  simp only [Ticking.proceed, charges, Option.map_some, Option.getD_some, ht, Ahead.charges,
    Provisioner.charges, List.map_nil, List.append_nil, List.nil_append]
  exact List.perm_append_comm

/-! ## Asking -/

theorem handlesOf_awaits {new : List (Outstanding ReleaseHandle)}
    {boots : List (PlannedId × Boot ReleaseHandle)}
    (h : List.Forall₂ Outstanding.Awaits new boots) :
    handlesOf (new.map Outstanding.watched) = 0 := by
  induction h with
  | nil => rfl
  | @cons o b new boots ho _ ih =>
    rw [List.map_cons, handlesOf_cons, ih, Outstanding.watched, ho.waiting]
    rfl

/-- What has been started becomes tasks. -/
theorem tasks_absorb {w w' : Work Source} {new : List (Outstanding ReleaseHandle)}
    {boots : List (PlannedId × Boot ReleaseHandle)} (h : w.Hires w' new boots)
    (hunasked : w.boots = []) (now : Time) (d : Daemon Source (Registry ReleaseHandle)) :
    (d.absorb now w').tasks =
      d.tasks ++ boots.map fun b => ⟨now.after b.2.delay, .boot b.1 b.2.node⟩ := by
  have hboots : w'.boots = boots := by
    rw [h.started, hunasked, List.nil_append]
  rw [← hboots]
  rfl

/-- Taking over work that has asked simulated sources. -/
theorem absorb_deed {ticking : Option (Ticking Source)} {w w' : Work Source}
    {new : List (Outstanding ReleaseHandle)} {boots : List (PlannedId × Boot ReleaseHandle)}
    (h : w.Hires w' new boots) (hw : w.loop = d.loop) (hunasked : w.boots = [])
    (hidle : (⟨d, ticking⟩ : Moment Source).charges = d.loop.charges) (now : Time) :
    Deed ⟨d, ticking⟩ ⟨d.absorb now w', none⟩ [] (boots.map (·.2.node.record.id)) := by
  have hcharges : (⟨d.absorb now w', none⟩ : Moment Source).charges.Perm
      (d.loop.charges ++ new.map Outstanding.charge) := by
    show w'.loop.charges.Perm _
    rw [Provisioner.charges, h.outstanding, h.abandoned, hw, Provisioner.charges, List.map_append]
    refine Multiset.coe_eq_coe.1 ?_
    simp only [← Multiset.coe_add]
    abel
  have hids : ∀ o ∈ new, d.loop.nextId ≤ o.planned.id := by
    intro o ho
    have hmem : o.planned.id ∈ new.map (·.planned.id) := List.mem_map_of_mem ho
    rw [h.ids, hw, List.mem_range'_1] at hmem
    exact hmem.1
  refine .hires (hidle ▸ hcharges) ?_ h.awaits (hw ▸ h.known) hids (hw ▸ h.grants) ⟨?_, ?_⟩
  · show Scheduled.boots (d.absorb now w').tasks = Scheduled.boots d.tasks ++ _
    rw [tasks_absorb h hunasked, Scheduled.boots_append, Work.boots_tasks]
  · have hunread : handlesOf (⟨d.absorb now w', none⟩ : Moment Source).watched =
        handlesOf (⟨d, ticking⟩ : Moment Source).watched := by
      rw [← map_snd_charges, ← map_snd_charges, handlesOf_perm (hcharges.map _), List.map_append,
        handlesOf_append, hidle, map_snd_charges_outstanding, handlesOf_awaits h.awaits, add_zero]
    have hplaces : (⟨d.absorb now w', none⟩ : Moment Source).places =
        (⟨d, ticking⟩ : Moment Source).places := by
      rw [places, places, hunread]
      exact congrArg (Places.mk _ _ · _) (tasked_absorb now w' d)
    rw [hplaces]
    exact (add_zero _).symm
  · exact (List.append_nil _).symm

theorem finish_deed (hm : (⟨d, some t⟩ : Moment Source).Fit) (ht : t.ahead = .late []) :
    ∃ boots : List (PlannedId × Boot ReleaseHandle),
      Deed ⟨d, some t⟩ (t.advance d) [] (boots.map (·.2.node.record.id)) ∧
      (t.advance d).daemon.tasks =
        d.tasks ++ boots.map fun b => ⟨t.now.after b.2.delay, .boot b.1 b.2.node⟩ := by
  obtain ⟨new, boots, hhires⟩ := Work.Course.hires
    ((Round.evaluateAll_course t.now t.demands (t.current d)).trans (Round.finish_course t.now _))
    hm.simulated
  have hunasked : (t.current d).boots = [] := hm.unasked t rfl
  have hidle : (⟨d, some t⟩ : Moment Source).charges = d.loop.charges := by
    show t.ahead.charges ++ d.loop.charges = d.loop.charges
    rw [ht]
    rfl
  have hend : t.advance d =
      ⟨d.absorb t.now ((t.current d).evaluateAll t.now t.demands).finish.toWork, none⟩ := by
    obtain ⟨_, _, -, hregistry, -⟩ := Round.evaluateAll_asks t.now t.demands (t.current d)
    have hsame : ((t.current d).evaluateAll t.now t.demands).finish.registry = d.registry :=
      hregistry
    rw [Ticking.advance, ht]
    dsimp only
    rw [hsame]
  rw [hend]
  exact ⟨boots, absorb_deed hhires rfl hunasked hidle t.now, tasks_absorb hhires hunasked t.now d⟩

theorem provision_deed {m : Moment Source} (hm : m.Fit) (hidle : m.ticking = none) (now : Time)
    (actor : Actor) (source : String) (label : Option Label) (workload : Nat) :
    ∃ boots : List (PlannedId × Boot ReleaseHandle), Deed m
      { m with daemon := (m.daemon.provisionManually now actor source label workload).2 } []
      (boots.map (·.2.node.record.id)) ∧
      (m.daemon.provisionManually now actor source label workload).2.tasks = m.daemon.tasks ++
        boots.map fun b => ⟨now.after b.2.delay, .boot b.1 b.2.node⟩ := by
  obtain ⟨d, ticking⟩ := m
  obtain rfl : ticking = none := hidle
  obtain ⟨new, boots, hhires⟩ :=
    (d.loop.provisionManually_course now actor source label workload).hires hm.simulated
  exact ⟨boots, absorb_deed hhires rfl rfl rfl now, tasks_absorb hhires rfl now d⟩

/-! ## Nodes that leave, and tasks -/

theorem beginRelease_bootless [Freeing σ ρ] (now : Time) (removal : Removal ρ)
    (d : Daemon σ (Registry ρ)) :
    Scheduled.Bootless d.tasks (d.beginRelease now removal).2.tasks := ⟨[_], rfl, rfl⟩

theorem expire_bootless [Freeing σ ρ] (now : Time) (second : UInt64) (id : NodeId)
    (d : Daemon σ (Registry ρ)) :
    Scheduled.Bootless d.tasks (expire now second id d).tasks := by
  rw [expire_eq]
  rcases d.registry.detachExpired id second with ⟨_ | (_ | ⟨node, reason⟩), r⟩
  · exact .refl _
  · exact .refl _
  · exact beginRelease_bootless now _ { d with registry := r }

theorem remove_bootless [Freeing σ ρ] (now : Time) (actor : Actor) (id : NodeId) (reason : String)
    (d : Daemon σ (Registry ρ)) :
    Scheduled.Bootless d.tasks (remove now actor id reason d).tasks := by
  unfold remove
  rcases detachFor actor id reason d.registry with ⟨_ | removal, r⟩
  · exact .refl _
  · exact beginRelease_bootless now _ { d with registry := r }

/-- Taking out a node does nothing to capacity and sources. -/
theorem detach_deed {m : Moment Source} {d : Daemon Source (Registry ReleaseHandle)}
    (hflow : Flow m.places ({ m with daemon := d } : Moment Source).places (0 + handlesOf []) 0)
    (hloop : d.loop = m.daemon.loop) (hjournal : d.journal = m.daemon.journal)
    (htasks : Scheduled.Bootless m.daemon.tasks d.tasks) :
    Deed m { m with daemon := d } [] [] := by
  refine .rests ?_ htasks.boots_eq (congrArg _ hloop) (moves_of_flow hflow (congrArg _ hjournal))
  rw [charges, charges, hloop]

theorem expire_deed {m : Moment Source} (h : m.Sound) (now : Time) (second : UInt64)
    (id : NodeId) : Deed m { m with daemon := expire now second id m.daemon } [] [] := by
  refine detach_deed (expire_passage h now second id).flow ?_ ?_
    (expire_bootless now second id m.daemon) <;>
  · rw [expire_eq]
    rcases m.daemon.registry.detachExpired id second with ⟨_ | (_ | _), _⟩ <;> rfl

theorem remove_deed {m : Moment Source} (h : m.Sound) (now : Time) (actor : Actor) (id : NodeId)
    (reason : String) : Deed m { m with daemon := remove now actor id reason m.daemon } [] [] := by
  refine detach_deed (remove_passage h now actor id reason).flow ?_ ?_
    (remove_bootless now actor id reason m.daemon) <;>
  · unfold remove
    rcases detachFor actor id reason m.daemon.registry with ⟨_ | _, _⟩ <;> rfl

theorem booting_picked {m : Moment σ} {place : Nat} {t : Scheduled ρ}
    (ht : m.daemon.tasks[place]? = some t) :
    m.booting.Perm (t.task.boot?.toList ++ (m.picked place).booting) := by
  obtain ⟨hlt, rfl⟩ := List.getElem?_eq_some_iff.1 ht
  have hperm := ((List.getElem_cons_eraseIdx_perm hlt).filterMap
    fun t : Scheduled ρ => t.task.boot?)
  refine hperm.symm.trans ?_
  cases hb : m.daemon.tasks[place].task.boot? <;> simp [hb, picked, booting, Scheduled.boots]

/-- A task that runs leaves the list, and no other one does. -/
theorem tasks_perform [Freeing σ ρ] (m : Moment σ) (now : Time) (place : Nat) :
    (m.perform now place).daemon.tasks = m.daemon.tasks.eraseIdx place := by
  unfold perform
  cases ht : m.daemon.tasks[place]? with
  | none => exact (List.eraseIdx_of_length_le (List.getElem?_eq_none_iff.1 ht)).symm
  | some t =>
    obtain ⟨due, task⟩ := t
    show ((m.picked place).runTask now task).daemon.tasks = (m.picked place).daemon.tasks
    cases task with
    | boot id node =>
      dsimp only [runTask]
      split
      · rfl
      · exact (Daemon.freeNode_frees node.release _).tasks
    | reclaim node => exact (Daemon.runReclaim_frees now node _).tasks
    | removal ticket removal => exact (Daemon.runRemoval_frees now ticket removal _).tasks

/-- A task that only frees a handle. -/
theorem free_deed {m : Moment Source} {place : Nat} {s : Scheduled ReleaseHandle}
    (ht : m.daemon.tasks[place]? = some s) {d : Daemon Source (Registry ReleaseHandle)}
    {release : Option ReleaseHandle}
    (hboot : ∀ b ∈ s.task.boot?, m.awaits b.1 = false ∧ b.2.release = release)
    (hloop : d.loop =
      { m.daemon.loop with sources := m.daemon.loop.sources.freeing release })
    (hfrees : (m.picked place).daemon.Frees d release)
    (htotal : ({ m with daemon := d } : Moment Source).places.total = m.places.total +
      ((s.task.boot?.bind (·.2.release)).toList : Multiset ReleaseHandle)) :
    Deed m { m with daemon := d } [] [] := by
  have hbooting : ({ m with daemon := d } : Moment Source).booting = (m.picked place).booting :=
    congrArg Scheduled.boots hfrees.tasks
  refine .frees release s.task.boot? ?_ (fun b hb => (hboot b hb).1) ?_ (congrArg _ hloop)
    ⟨htotal, hfrees.released⟩
  · rw [hbooting]
    exact booting_picked ht
  · rw [charges, charges, hloop]
    rfl

theorem perform_deed {m : Moment Source} (h : m.Sound) (now : Time) (place : Nat) :
    Deed m (m.perform now place) [] [] := by
  have htotal := (perform_passage h now place).flow.total
  simp only [delivered, returned] at htotal
  unfold perform at htotal ⊢
  cases ht : m.daemon.tasks[place]? with
  | none =>
    exact .rests .rfl rfl rfl ⟨(add_zero _).symm, (List.append_nil _).symm⟩
  | some s =>
    have hnone : handlesOf ([] : List (PlannedId × Completion ReleaseHandle)) = 0 := rfl
    obtain ⟨due, task⟩ := s
    simp only [ht, Option.map_some, hnone, add_zero] at htotal ⊢
    change ((m.picked place).runTask now task).places.total = _ at htotal
    show Deed m ((m.picked place).runTask now task) [] []
    cases task with
    | boot id node =>
      have hawaits : (m.picked place).awaits id = m.awaits id := rfl
      cases ha : m.awaits id with
      | true =>
        simp only [runTask, hawaits, ha, if_true, accepted, map_snd_tagged, add_zero] at htotal ⊢
        refine .wakes now (booting_picked ht) ha (charges_deliver _ _ _) ?_
          ⟨htotal, (List.append_nil _).symm⟩
        show (m.daemon.loop.deliver id _).2.sources = _
        rw [Provisioner.deliver_eq]
      | false =>
        simp only [runTask, hawaits, ha, if_false, accepted, Bool.false_eq_true,
          Multiset.map_zero, add_zero] at htotal ⊢
        refine free_deed ht ?_ (Daemon.freeNode_loop node.release _)
          (Daemon.freeNode_frees node.release _) htotal
        rintro b ⟨⟩
        exact ⟨ha, rfl⟩
    | reclaim node =>
      simp only [Multiset.map_zero, add_zero] at htotal
      exact free_deed ht (by rintro b ⟨⟩) (Daemon.runReclaim_loop now node _)
        (Daemon.runReclaim_frees now node _) (htotal.trans (add_zero _).symm)
    | removal ticket removal =>
      simp only [Multiset.map_zero, add_zero] at htotal
      exact free_deed ht (by rintro b ⟨⟩) (Daemon.runRemoval_loop now ticket removal _)
        (Daemon.runRemoval_frees now ticket removal _) (htotal.trans (add_zero _).symm)

/-! ## All acts -/

theorem advance_deed (hm : (⟨d, some t⟩ : Moment Source).Fit) :
    Deed ⟨d, some t⟩ (t.advance d) (t.change d).entered
      ((⟨d, some t⟩ : Moment Source).created .advance) := by
  have hproceed {r : Round Source (Registry ReleaseHandle)} {ahead : Ahead ReleaseHandle}
      (h : t.advance d = t.proceed r ahead d) :
      (⟨d, some t⟩ : Moment Source).created .advance = [] := by
    refine created_of_bootless ⟨_, congrArg (·.daemon.tasks) h, boots_reclaims _ _⟩
  cases ht : t.ahead with
  | inFlight rest =>
    cases rest with
    | nil =>
      have hadvance : t.advance d = t.proceed { t.current d with
          loop := { d.loop with abandoned := [] } } (.late d.loop.abandoned) d := by
        rw [Ticking.advance, ht]
        rfl
      rw [hproceed hadvance, hadvance, Ticking.change, ht]
      exact turn_deed hm.sound ht
    | cons o os =>
      have hadvance : t.advance d =
          t.proceed (Round.pollEntry t.now (t.current d) o) (.inFlight os) d := by
        rw [Ticking.advance, ht]
      rw [hproceed hadvance, hadvance, Ticking.change, ht]
      exact pollEntry_deed hm.sound ht
  | late rest =>
    cases rest with
    | nil =>
      obtain ⟨boots, hdeed, htasks⟩ := finish_deed hm ht
      have hcreated : (⟨d, some t⟩ : Moment Source).created .advance =
          boots.map (·.2.node.record.id) := by
        rw [created_of_append (m := ⟨d, some t⟩) (a := .advance) htasks, Work.boots_tasks,
          List.map_map]
        rfl
      rw [hcreated, Ticking.change, ht]
      exact hdeed
    | cons a as =>
      have hadvance : t.advance d =
          t.proceed (Round.pollLate (t.current d) a) (.late as) d := by
        rw [Ticking.advance, ht]
      rw [hproceed hadvance, hadvance, Ticking.change, ht]
      exact pollLate_deed hm.sound ht

/-- Each act does one of the four deeds. -/
theorem step_deed {m : Moment Source} (hm : m.Fit) {a : Act Source} (ha : a.isInner = true) :
    Deed m (m.step a) (m.change a).entered (m.created a) := by
  have hrests (hpassage : Passage m (m.step a) [] 0 0) (hc : (m.step a).charges = m.charges)
      (ht : (m.step a).daemon.tasks = m.daemon.tasks)
      (hs : (m.step a).daemon.loop.sources = m.daemon.loop.sources)
      (hj : (m.step a).daemon.journal.released = m.daemon.journal.released) :
      Deed m (m.step a) [] (m.created a) := by
    rw [created_of_bootless (ht ▸ .refl _)]
    exact .rests (hc ▸ .rfl) (congrArg Scheduled.boots ht) hs (moves_of_flow hpassage.flow hj)
  cases a with
  | begin now =>
    have htasks : (m.begin now).daemon.tasks = m.daemon.tasks := by
      unfold begin
      split <;> rfl
    have hcreated : m.created (.begin now) = [] := created_of_bootless (htasks ▸ .refl _)
    rw [hcreated]
    exact begin_deed hm.sound now
  | advance =>
    obtain ⟨d, ticking⟩ := m
    cases ticking with
    | none => exact hrests (.quiet hm.sound .rfl (.refl _) rfl rfl rfl) rfl rfl rfl rfl
    | some t => exact advance_deed hm
  | provision now actor source label workload =>
    cases ht : m.ticking with
    | some t =>
      have hstep : m.step (.provision now actor source label workload) = m := by
        rw [step, ht]
      have hcreated : m.created (.provision now actor source label workload) = [] :=
        created_of_bootless (hstep.symm ▸ .refl _)
      rw [hcreated, hstep]
      exact .rests .rfl rfl rfl ⟨(add_zero _).symm, (List.append_nil _).symm⟩
    | none =>
      obtain ⟨boots, hdeed, htasks⟩ := provision_deed hm ht now actor source label workload
      have hstep : m.step (.provision now actor source label workload) =
          { m with daemon := (m.daemon.provisionManually now actor source label workload).2 } := by
        rw [step, ht]
      have hcreated : m.created (.provision now actor source label workload) =
          boots.map (·.2.node.record.id) := by
        rw [created_of_append ((congrArg (·.daemon.tasks) hstep).trans htasks), Work.boots_tasks,
          List.map_map]
        rfl
      rw [hcreated, hstep]
      exact hdeed
  | deliver id result => cases ha
  | changeSources sources => cases ha
  | changeDemand board => exact hrests (.quiet hm.sound .rfl (.refl _) rfl rfl rfl) rfl rfl rfl rfl
  | consult c =>
    have hkeeps := m.daemon.registry.consult_keeps c
    show Deed m _ (m.daemon.registry.consulted c).entered _
    rw [Registry.entered_consulted]
    exact hrests (.quiet hm.sound .rfl hkeeps rfl rfl rfl) rfl rfl rfl rfl
  | expire now second id =>
    have hcreated : m.created (.expire now second id) = [] :=
      created_of_bootless (expire_bootless now second id m.daemon)
    rw [hcreated, change, Change.entered_ofExpiry]
    exact expire_deed hm.sound now second id
  | remove now actor id reason =>
    have hcreated : m.created (.remove now actor id reason) = [] :=
      created_of_bootless (remove_bootless now actor id reason m.daemon)
    rw [hcreated, change, Change.entered_ofRemoval]
    exact remove_deed hm.sound now actor id reason
  | perform now place =>
    have hcreated : m.created (.perform now place) = [] := by
      refine created_of_length_le ?_
      show (m.perform now place).daemon.tasks.length ≤ _
      rw [tasks_perform]
      exact List.length_eraseIdx_le _ _
    rw [hcreated, change, Registry.entered_left]
    exact perform_deed hm.sound now place

/-- What every round starts with and every look keeps is true of the round of a tick under
way. -/
theorem step_round [Freeing σ ρ] {P : Round σ (Registry ρ) → Prop}
    (hstart : ∀ loop registry, P (Round.start loop registry))
    (hcurrent : ∀ (r : Round σ (Registry ρ)) loop registry, P r → P { r with loop, registry })
    (hentry : ∀ now r o, P r → P (Round.pollEntry now r o))
    (hlate : ∀ r a, P r → P (Round.pollLate r a)) {m : Moment σ}
    (hm : ∀ t ∈ m.ticking, P t.round) (a : Act σ) : ∀ t ∈ (m.step a).ticking, P t.round := by
  cases a with
  | begin now =>
    simp only [step, begin]
    split
    · exact hm
    · rintro t ht
      cases ht
      exact hstart _ _
  | advance =>
    obtain ⟨d, ticking⟩ := m
    cases ticking with
    | none => exact hm
    | some t =>
      have hround : P (t.current d) := hcurrent t.round d.loop d.registry (hm t rfl)
      show ∀ t' ∈ (t.advance d).ticking, P t'.round
      rw [Ticking.advance]
      rcases t.ahead with (_ | ⟨o, os⟩) | (_ | ⟨a, as⟩) <;> rintro t' ht' <;> cases ht'
      · exact hcurrent t.round _ _ (hm t rfl)
      · exact hentry t.now _ o hround
      · exact hlate _ a hround
  | provision now actor source label workload =>
    simp only [step]
    split
    · exact hm
    · exact hm
  | deliver id result =>
    rintro t ht
    obtain ⟨t', ht', rfl⟩ := Option.mem_map.1 ht
    exact hm t' ht'
  | perform now place =>
    simp only [step, perform]
    split
    · exact hm
    · rename_i s hs
      obtain ⟨due, task⟩ := s
      cases task with
      | boot id node =>
        dsimp only [runTask]
        split
        · rintro t ht
          obtain ⟨t', ht', rfl⟩ := Option.mem_map.1 ht
          exact hm t' ht'
        · exact hm
      | _ => exact hm
  | _ => exact hm

/-- Only the last step of a tick asks sources. -/
theorem step_unasked {m : Moment Source} (hm : ∀ t ∈ m.ticking, t.round.boots = [])
    (a : Act Source) : ∀ t ∈ (m.step a).ticking, t.round.boots = [] := by
  refine step_round (P := fun r => r.boots = []) (fun _ _ => rfl) (fun _ _ _ h => h)
    (fun now r o h => ?_) (fun r a h => ?_) hm a
  · rw [Round.pollEntry_eq]
    exact h
  · rw [Round.pollLate_eq]
    exact h

theorem Fit.step {m : Moment Source} (hm : m.Fit) {a : Act Source} (ha : a.isInner = true) :
    (m.step a).Fit :=
  ⟨hm.sound.step a, (step_deed hm ha).continues.simulated hm.simulated,
    step_unasked hm.unasked a⟩

end Moment

end Fleet
