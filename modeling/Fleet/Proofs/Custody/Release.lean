import Fleet.Proofs.Custody.Passage

/-!
# Custody of nodes that leave

A node that is taken out of the registry, by a sweep or by hand, hands its handle to the task
that is started for it (`expire_passage`, `remove_passage`), and a task that runs frees the
handle it has, once (`perform_passage`).
-/

namespace Fleet

variable {σ ρ : Type} [CapacitySource σ ρ]

namespace Moment

/-! ## Taking nodes out -/

/-- What comes out of the registry goes to the task that is started for it. -/
theorem detach_passage {m : Moment σ} {d : Daemon σ (Registry ρ)}
    {out : Option (DetachedNode ρ)} {started : List (Scheduled ρ)}
    (hd : m.daemon.registry.Detaches d.registry out) (hloop : d.loop = m.daemon.loop)
    (hjournal : d.journal = m.daemon.journal) (htasks : d.tasks = m.daemon.tasks ++ started)
    (hnodes : ∀ s ∈ started, ∀ ticket removal, s.task = .removal ticket removal →
      removal.node ∈ out)
    (hhandles : Scheduled.handlesOf started = (Registry.handleOut out).map Prod.snd) :
    Passage m { m with daemon := d } [] 0 0 where
  orderly := hd.orderly
  known := by
    refine ⟨m.watched, ?_, .refl _⟩
    rw [List.append_nil, watched, watched, hloop]
  ids := rfl
  next := congrArg _ hloop
  flow := by
    refine .detach ?_ hd.held ?_ ?_
    · show handlesOf ({ m with daemon := d } : Moment σ).watched = handlesOf m.watched
      rw [watched, hloop]
      rfl
    · show Scheduled.handlesOf d.tasks = Scheduled.handlesOf m.daemon.tasks + _
      rw [htasks, Scheduled.handlesOf_append, hhandles]
    · show (d.journal.released : Multiset ρ) = (m.daemon.journal.released : Multiset ρ)
      rw [hjournal]
  unlisted := by
    intro s hs
    rcases List.mem_append.1 (htasks ▸ hs) with hs | hs
    · exact .inl hs
    · exact .inr fun ticket removal he => hd.gone _ (hnodes s hs ticket removal he)

/-- Nothing has come out. -/
theorem attempt_passage {m : Moment σ} {r : Registry ρ}
    (hd : m.daemon.registry.Detaches r none) :
    Passage m { m with daemon := { m.daemon with registry := r } } [] 0 0 :=
  detach_passage hd rfl rfl (List.append_nil _).symm nofun rfl

variable [Freeing σ ρ]

theorem beginRelease_passage {m : Moment σ} {r : Registry ρ}
    {removal : Removal ρ} (hd : m.daemon.registry.Detaches r (some removal.node)) (now : Time) :
    Passage m
      { m with daemon := ({ m.daemon with registry := r }.beginRelease now removal).2 } [] 0 0 := by
  refine detach_passage hd rfl rfl rfl ?_ ?_
  · intro s hs ticket removal' he
    rw [List.mem_singleton] at hs
    subst hs
    cases he
    exact rfl
  · rw [Registry.handleOut, Option.elim_some, map_snd_tagged]
    cases hr : removal.node.release <;> simp [Scheduled.handlesOf, Task.handle?, hr]

theorem expire_passage {m : Moment σ} (h : m.Sound) (now : Time) (second : UInt64)
    (id : NodeId) : Passage m { m with daemon := expire now second id m.daemon } [] 0 0 := by
  have hd := Registry.detachExpired_detaches id second h.orderly
  have hinstance : NodeRegistry.detachExpired id second m.daemon.registry =
      m.daemon.registry.detachExpired id second := rfl
  unfold expire Sweep.expire
  rw [hinstance]
  cases hr : m.daemon.registry.detachExpired id second with
  | mk answer r =>
    rw [hr] at hd
    cases answer with
    | error e => exact attempt_passage hd
    | ok out =>
      cases out with
      | none => exact attempt_passage hd
      | some removed => exact beginRelease_passage hd now

theorem remove_passage {m : Moment σ} (h : m.Sound) (now : Time) (actor : Actor) (id : NodeId)
    (reason : String) :
    Passage m { m with daemon := remove now actor id reason m.daemon } [] 0 0 := by
  have hd := Registry.detach_detaches id h.orderly
  have hinstance : NodeRegistry.detach id m.daemon.registry = m.daemon.registry.detach id := rfl
  unfold remove detachFor
  rw [hinstance]
  cases hr : m.daemon.registry.detach id with
  | mk answer r =>
    rw [hr] at hd
    cases answer with
    | error e => exact attempt_passage hd
    | ok out =>
      cases out with
      | none => exact attempt_passage hd
      | some node => exact beginRelease_passage hd now

end Moment

/-! ## Tasks -/

namespace Daemon

/-- From `d` to `d'` the handle `release` has been freed, if there is one. -/
structure Frees (d d' : Daemon σ (Registry ρ)) (release : Option ρ) : Prop where
  watched : d'.loop.watched = d.loop.watched
  next : d'.loop.nextId = d.loop.nextId
  registry : d.registry.Keeps d'.registry
  tasks : d'.tasks = d.tasks
  released : d'.journal.released = d.journal.released ++ release.toList

theorem Frees.recordLeak {d d' : Daemon σ (Registry ρ)} {release : Option ρ}
    (h : d.Frees d' release) (leak : LeakRecord) :
    d.Frees { d' with registry := (d'.registry.recordLeak leak).2 } release :=
  ⟨h.watched, h.next, h.registry.trans (d'.registry.recordLeak_keeps leak), h.tasks, h.released⟩

variable [Freeing σ ρ]

theorem freeNode_frees (release : Option ρ) (d : Daemon σ (Registry ρ)) :
    d.Frees (d.freeNode release).2 release := by
  cases release with
  | none => exact ⟨rfl, rfl, .refl _, rfl, (List.append_nil _).symm⟩
  | some handle => exact ⟨rfl, rfl, .refl _, rfl, rfl⟩

theorem runReclaim_frees (now : Time) (node : RealizedNode ρ) (d : Daemon σ (Registry ρ)) :
    d.Frees (d.runReclaim now node) node.release := by
  have h := freeNode_frees node.release d
  unfold runReclaim
  cases hf : d.freeNode node.release with
  | mk result d' =>
    rw [hf] at h
    cases result with
    | none => exact h
    | some result =>
      cases result with
      | error e => exact h.recordLeak _
      | ok _ => exact h

theorem runRemoval_frees (now : Time) (ticket : Nat) (removal : Removal ρ)
    (d : Daemon σ (Registry ρ)) :
    d.Frees (d.runRemoval now ticket removal) removal.node.release := by
  have h := freeNode_frees removal.node.release d
  unfold runRemoval
  cases hf : d.freeNode removal.node.release with
  | mk result d' =>
    rw [hf] at h
    cases result with
    | none => exact ⟨h.watched, h.next, h.registry, h.tasks, h.released⟩
    | some result =>
      cases result with
      | error e =>
        have hleak := h.recordLeak (removal.node.record.leak now.seconds e)
        exact ⟨hleak.watched, hleak.next, hleak.registry, hleak.tasks, hleak.released⟩
      | ok _ => exact ⟨h.watched, h.next, h.registry, h.tasks, h.released⟩

end Daemon

namespace Moment

/-- The moment in which the task at a place has been taken from the list. -/
def picked (m : Moment σ) (place : Nat) : Moment σ :=
  { m with daemon := { m.daemon with tasks := m.daemon.tasks.eraseIdx place } }

theorem tasked_picked {m : Moment σ} {place : Nat} {t : Scheduled ρ}
    (ht : m.daemon.tasks[place]? = some t) :
    Scheduled.handlesOf m.daemon.tasks =
      (t.task.handle?.toList : Multiset ρ) +
        Scheduled.handlesOf (m.picked place).daemon.tasks := by
  obtain ⟨hlt, rfl⟩ := List.getElem?_eq_some_iff.1 ht
  have hperm := ((List.getElem_cons_eraseIdx_perm hlt).filterMap
    fun t : Scheduled ρ => t.task.handle?)
  rw [Scheduled.handlesOf, Scheduled.handlesOf, Multiset.coe_add, Multiset.coe_eq_coe]
  refine hperm.symm.trans ?_
  cases hh : m.daemon.tasks[place].task.handle? <;> simp [hh, picked]

theorem frees_passage {m : Moment σ} (h : m.Sound) {place : Nat} {t : Scheduled ρ}
    (ht : m.daemon.tasks[place]? = some t) {d : Daemon σ (Registry ρ)} {release : Option ρ}
    (hf : (m.picked place).daemon.Frees d release) {returned : Multiset ρ}
    (hsum : (release.toList : Multiset ρ) = (t.task.handle?.toList : Multiset ρ) + returned) :
    Passage m { m with daemon := d } [] 0 returned where
  orderly := hf.registry.orderly h.orderly
  known := by
    refine ⟨m.watched, ?_, .refl _⟩
    rw [List.append_nil, watched, watched, hf.watched]
    exact .rfl
  ids := rfl
  next := hf.next
  flow := by
    refine .free (t.task.handle?.toList : Multiset ρ) ?_ hf.registry.held ?_ ?_
    · show handlesOf ({ m with daemon := d } : Moment σ).watched = handlesOf m.watched
      rw [watched, hf.watched]
      rfl
    · show Scheduled.handlesOf m.daemon.tasks = _ + Scheduled.handlesOf d.tasks
      rw [hf.tasks]
      exact tasked_picked ht
    · show (d.journal.released : Multiset ρ) = (m.daemon.journal.released : Multiset ρ) + _
      rw [hf.released, ← Multiset.coe_add, hsum]
      rfl
  unlisted := fun s hs => .inl (List.mem_of_mem_eraseIdx (hf.tasks ▸ hs))

/-- A task that runs frees its handle; a node that comes up hands its handle over. -/
theorem perform_passage [Freeing σ ρ] {m : Moment σ} (h : m.Sound) (now : Time) (place : Nat) :
    Passage m (m.perform now place) [] (m.delivered (.perform now place))
      (m.returned (.perform now place)) := by
  simp only [perform, delivered, returned]
  cases ht : m.daemon.tasks[place]? with
  | none => exact .quiet h .rfl (.refl _) rfl rfl rfl
  | some t =>
    obtain ⟨due, task⟩ := t
    show Passage m ((m.picked place).runTask now task) _ _ _
    cases task with
    | boot id node =>
      have hpicked : (m.picked place).Sound := ⟨h.orderly, h.distinct, h.numbered⟩
      have hplaces : (m.picked place).places = m.places := by
        rw [places, places, tasked_picked ht]
        exact congrArg _ (zero_add _).symm
      have hawaits : (m.picked place).awaits id = m.awaits id := rfl
      simp only [runTask, accepted, Option.map_some]
      cases ha : m.awaits id with
      | true =>
        have hp := deliver_passage hpicked id (.ok (booted now node))
        rw [hawaits, ha, if_pos rfl]
        rw [accepted, hawaits, ha] at hp
        exact ⟨hp.orderly, hp.known, hp.ids, hp.next, hplaces ▸ hp.flow,
          fun s hs => .inl (List.mem_of_mem_eraseIdx hs)⟩
      | false =>
        rw [hawaits, ha, if_neg Bool.false_ne_true]
        exact frees_passage h ht (Daemon.freeNode_frees node.release _) (zero_add _).symm
    | reclaim node =>
      exact frees_passage h ht (Daemon.runReclaim_frees now node _) (add_zero _).symm
    | removal ticket removal =>
      exact frees_passage h ht (Daemon.runRemoval_frees now ticket removal _) (add_zero _).symm

end Moment

end Fleet
