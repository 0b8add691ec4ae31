import Fleet.Proofs.Provisioner.Request
import Fleet.Proofs.Slots.Attendance

/-!
# The ledger from moment to moment

While a tick is under way, some of the capacity in flight is in its hands.  The ledger tracks
all of it all the same, at every moment (`Moment.Tracked`), and every act keeps this
(`Tracked.step`).  When nothing is in the hands of a tick, the provisioner is therefore sound
as it stands (`Tracked.sound`).
-/

namespace Fleet

variable {σ ρ : Type} [CapacitySource σ ρ]

namespace Moment

/-- The ledger holds the promises of the capacity in flight and no others. -/
def Tracked (m : Moment σ) : Prop := m.daemon.loop.ledger.Tracks m.outstanding

/-- No tick has anything in its hands. -/
def Still (m : Moment σ) : Prop := ∀ t ∈ m.ticking, t.ahead = .late []

variable {m m' : Moment σ}

theorem still_of_idle (h : m.ticking = none) : m.Still := by
  intro t ht
  rw [h] at ht
  cases ht

theorem Still.watched (h : m.Still) : m.watched = m.daemon.loop.watched := by
  obtain ⟨d, ticking⟩ := m
  cases ticking with
  | none => rfl
  | some t =>
    show t.ahead.watched ++ d.loop.watched = d.loop.watched
    rw [h t rfl]
    rfl

theorem Still.outstanding (h : m.Still) : m.outstanding = m.daemon.loop.outstanding := by
  obtain ⟨d, ticking⟩ := m
  cases ticking with
  | none => rfl
  | some t =>
    show t.ahead.outstanding ++ d.loop.outstanding = d.loop.outstanding
    rw [h t rfl]
    rfl

namespace Tracked

theorem sound (h : m.Tracked) (hm : m.Sound) (hstill : m.Still) : m.daemon.loop.Sound := by
  have hids : m.watched.map Prod.fst = m.daemon.loop.ids := by
    rw [hstill.watched, Provisioner.watched, List.map_append, List.map_map, List.map_map]
    rfl
  refine ⟨?_, ?_, ?_⟩
  · rw [← hstill.outstanding]
    exact h
  · rw [← hids]
    exact hm.distinct
  · rw [← hids]
    exact hm.numbered

/-- Only the promises matter. -/
theorem of_eq (h : m.Tracked) (hl : m'.daemon.loop.ledger = m.daemon.loop.ledger)
    (ho : (m'.outstanding.map Outstanding.promise).Perm
      (m.outstanding.map Outstanding.promise)) : m'.Tracked :=
  ⟨hl ▸ h.coherent, hl ▸ h.flat.trans ho.symm⟩

/-- The provisioner has the same capacity in flight, and so has the tick under way. -/
theorem of_loop (h : m.Tracked) {d : Daemon σ (Registry ρ)}
    (hl : d.loop.ledger = m.daemon.loop.ledger)
    (ho : d.loop.outstanding = m.daemon.loop.outstanding) :
    ({ m with daemon := d } : Moment σ).Tracked := by
  refine h.of_eq hl (.of_eq ?_)
  rw [Moment.outstanding, Moment.outstanding, ho]

/-! ## Ticks -/

theorem begin (h : m.Tracked) (now : Time) : (m.begin now).Tracked := by
  unfold Moment.begin
  split
  · exact h
  · rename_i hnone
    refine h.of_eq rfl (.of_eq ?_)
    rw [Moment.outstanding, Moment.outstanding, hnone]
    exact congrArg (List.map Outstanding.promise) (List.append_nil _)

/-- An entry that a look takes away takes its promise with it. -/
theorem pollEntry [Freeing σ ρ] {d : Daemon σ (Registry ρ)} {t : Ticking σ} {o : Outstanding ρ}
    {os : List (Outstanding ρ)} (h : (⟨d, some t⟩ : Moment σ).Tracked)
    (ht : t.ahead = .inFlight (o :: os)) :
    (t.proceed (Round.pollEntry t.now (t.current d) o) (.inFlight os) d).Tracked := by
  have hbefore : d.loop.ledger.Tracks (o :: (os ++ d.loop.outstanding)) := by
    have hall : (⟨d, some t⟩ : Moment σ).outstanding = o :: (os ++ d.loop.outstanding) := by
      show t.ahead.outstanding ++ d.loop.outstanding = _
      rw [ht]
      rfl
    rw [← hall]
    exact h
  rw [Round.pollEntry_eq]
  generalize (Fate.of t.now (t.current d).loop.timeout (t.current d).registry o).1 = f
  show (f.clear o d.loop.ledger).Tracks
    (os ++ (d.loop.outstanding ++ [(o, f)].flatMap fun f => f.2.keeps f.1))
  cases f with
  | kept =>
    refine hbefore.perm ?_
    show (o :: (os ++ d.loop.outstanding)).Perm (os ++ (d.loop.outstanding ++ [o]))
    rw [← List.append_assoc]
    exact (List.perm_append_singleton o _).symm
  | _ => exact hbefore.resolve.perm (.of_eq (by rw [List.flatMap_singleton]; simp))

/-- Work that asks for more tracks what is offered. -/
theorem grows {w w' : Work σ} {new : List (Outstanding ρ)} {es : List Event} (h : m.Tracked)
    (hm : m.Sound) (hstill : m.Still) (hg : w.Grows w' new es) (hw : w.loop = m.daemon.loop)
    (now : Time) (d : Daemon σ (Registry ρ)) : (⟨d.absorb now w', none⟩ : Moment σ).Tracked := by
  have hsound : w.loop.Sound := hw ▸ h.sound hm hstill
  exact (hsound.grows hg).tracks

theorem advance [Freeing σ ρ] {d : Daemon σ (Registry ρ)} {t : Ticking σ}
    (h : (⟨d, some t⟩ : Moment σ).Tracked) (hm : (⟨d, some t⟩ : Moment σ).Sound) :
    (t.advance d).Tracked := by
  have hall : (⟨d, some t⟩ : Moment σ).outstanding =
      t.ahead.outstanding ++ d.loop.outstanding := rfl
  rw [Ticking.advance]
  cases ht : t.ahead with
  | inFlight rest =>
    cases rest with
    | nil =>
      refine h.of_eq rfl (.of_eq ?_)
      rw [hall, ht]
      rfl
    | cons o os => exact h.pollEntry ht
  | late rest =>
    cases rest with
    | nil =>
      obtain ⟨_, _, hg, -, -⟩ := Round.evaluateAll_asks t.now t.demands (t.current d)
      have hstill : (⟨d, some t⟩ : Moment σ).Still := by
        rintro _ ⟨⟩
        exact ht
      exact h.grows hm hstill (hg.trans (.remark _ rfl)) rfl t.now _
    | cons a as =>
      dsimp only
      rw [Round.pollLate_eq]
      refine h.of_eq rfl (.of_eq ?_)
      rw [hall, ht]
      rfl

/-! ## All acts -/

theorem deliver (h : m.Tracked) (id : PlannedId) (result : CompletionResult ρ) :
    (m.deliver id result).Tracked := by
  have hkept (os : List (Outstanding ρ)) :
      (os.map (·.resolved id result)).map Outstanding.promise = os.map Outstanding.promise := by
    rw [List.map_map]
    exact List.map_congr_left fun o _ => o.promise_resolved id result
  have hloop : (m.deliver id result).daemon.loop = (m.daemon.loop.deliver id result).2 := rfl
  refine h.of_eq (by rw [hloop, Provisioner.deliver_eq]) (.of_eq ?_)
  rw [Moment.outstanding, Moment.outstanding, hloop, Provisioner.deliver_eq, List.map_append,
    List.map_append, hkept]
  congr 1
  obtain ⟨d, ticking⟩ := m
  cases ticking with
  | none => rfl
  | some t =>
    show (t.ahead.resolved id result).outstanding.map _ = t.ahead.outstanding.map _
    cases t.ahead with
    | inFlight rest => exact hkept rest
    | late rest => rfl

variable [Freeing σ ρ]

theorem perform (h : m.Tracked) (now : Time) (place : Nat) : (m.perform now place).Tracked := by
  -- freeing a handle changes no more than the sources
  have hfreed {d : Daemon σ (Registry ρ)} {sources : SourceSet σ}
      (hd : d.loop = { m.daemon.loop with sources }) :
      ({ m with daemon := d } : Moment σ).Tracked :=
    h.of_loop (by rw [hd]) (by rw [hd])
  unfold Moment.perform
  cases m.daemon.tasks[place]? with
  | none => exact h
  | some s =>
    have hpicked : (m.picked place).Tracked := h
    show ((m.picked place).runTask now s.task).Tracked
    cases s.task with
    | boot id node =>
      dsimp only [runTask]
      split
      · exact hpicked.deliver id _
      · exact hfreed (Daemon.freeNode_loop node.release (m.picked place).daemon)
    | reclaim node => exact hfreed (Daemon.runReclaim_loop now node (m.picked place).daemon)
    | removal ticket removal =>
      exact hfreed (Daemon.runRemoval_loop now ticket removal (m.picked place).daemon)

theorem step (h : m.Tracked) (hm : m.Sound) (a : Act σ) : (m.step a).Tracked := by
  cases a with
  | begin now => exact h.begin now
  | advance =>
    obtain ⟨d, ticking⟩ := m
    cases ticking with
    | none => exact h
    | some t => exact h.advance hm
  | provision now actor source label workload =>
    cases ht : m.ticking with
    | some t =>
      rw [Moment.step, ht]
      exact h
    | none =>
      obtain ⟨_, _, hg⟩ :=
        m.daemon.loop.provisionManually_grows now actor source label workload
      rw [Moment.step, ht]
      exact h.grows hm (still_of_idle ht) hg rfl now m.daemon
  | deliver id result => exact h.deliver id result
  | changeSources sources => exact h
  | changeDemand board => exact h
  | consult c => exact h
  | expire now second id =>
    have hloop : (expire now second id m.daemon).loop = m.daemon.loop := by
      rw [expire_eq]
      rcases m.daemon.registry.detachExpired id second with ⟨_ | (_ | _), _⟩ <;> rfl
    exact h.of_loop (by rw [hloop]) (by rw [hloop])
  | remove now actor id reason =>
    have hloop : (remove now actor id reason m.daemon).loop = m.daemon.loop := by
      unfold remove
      rcases detachFor actor id reason m.daemon.registry with ⟨_ | _, _⟩ <;> rfl
    exact h.of_loop (by rw [hloop]) (by rw [hloop])
  | perform now place => exact h.perform now place

theorem run (h : m.Tracked) (hm : m.Sound) (acts : List (Act σ)) : (m.run acts).Tracked := by
  induction acts generalizing m with
  | nil => exact h
  | cons a acts ih => exact ih (h.step hm a) (hm.step a)

end Tracked

theorem tracked_of_built {c : Config} {room : Nat} {store : Store} {nextId : PlannedId}
    {d : Daemon Source (Registry ReleaseHandle)} (h : c.build room store nextId = .ok d) :
    (⟨d, none⟩ : Moment Source).Tracked := by
  obtain ⟨_, sources, -, -, hstart⟩ := Config.build_ok h
  rw [hstart]
  exact (Provisioner.sound_start sources c.guard c.completionTimeout nextId).tracks

/-! ## The round of a tick under way -/

/-- Until its last step a tick has called no source, and so none has failed in it. -/
theorem run_uncalled [Freeing σ ρ]
    (hm : ∀ t ∈ m.ticking, t.round.calls = [] ∧ t.round.failed = []) (acts : List (Act σ)) :
    ∀ t ∈ (m.run acts).ticking, t.round.calls = [] ∧ t.round.failed = [] := by
  induction acts generalizing m with
  | nil => exact hm
  | cons a acts ih =>
    refine ih (step_round (P := fun r => r.calls = [] ∧ r.failed = [])
      (fun _ _ => ⟨rfl, rfl⟩) (fun _ _ _ h => h) (fun now r o h => ?_) (fun r a h => ?_) hm a)
    · rw [Round.pollEntry_eq]
      exact h
    · rw [Round.pollLate_eq]
      exact h

/-- A tick that has looked at all there is asks fairly. -/
theorem Tracked.fair {d : Daemon σ (Registry ρ)} {t : Ticking σ}
    (h : (⟨d, some t⟩ : Moment σ).Tracked) (hm : (⟨d, some t⟩ : Moment σ).Sound)
    (ht : t.ahead = .late []) (hcalls : t.round.calls = []) (hfailed : t.round.failed = []) :
    (t.current d).Fair where
  sound := by
    refine h.sound hm ?_
    rintro _ ⟨⟩
    exact ht
  failed n := by
    show n ∈ t.round.failed ↔ FailedIn n t.round.calls
    rw [hcalls, hfailed]
    simp [FailedIn]

end Moment

end Fleet
