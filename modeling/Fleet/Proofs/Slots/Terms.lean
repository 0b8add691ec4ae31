import Fleet.Proofs.Slots.Deed

/-!
# The terms of a daemon

What a provisioner is set up with besides its sources, and no act changes (`Moment.run_terms`):
its guard and its timeout.
-/

namespace Fleet

/-- What a provisioner is set up with for good. -/
def Provisioner.terms {σ ρ : Type} [CapacitySource σ ρ] (p : Provisioner σ) :
    Guard × Option Duration := (p.guard, p.timeout)

namespace Moment

variable {σ ρ : Type} [CapacitySource σ ρ]

theorem terms_of_grows {w w' : Work σ} {new : List (Outstanding ρ)} {es : List Event}
    (h : w.Grows w' new es) : w'.loop.terms = w.loop.terms := by
  rw [h.loop]
  rfl

variable [Freeing σ ρ]

theorem advance_terms (d : Daemon σ (Registry ρ)) (t : Ticking σ) :
    (t.advance d).daemon.loop.terms = d.loop.terms := by
  unfold Ticking.advance
  cases t.ahead with
  | inFlight rest =>
    cases rest with
    | nil => rfl
    | cons o os =>
      dsimp only
      rw [Round.pollEntry_eq]
      rfl
  | late rest =>
    cases rest with
    | nil =>
      obtain ⟨new, es, hgrows, -⟩ := Round.evaluateAll_asks t.now t.demands (t.current d)
      exact terms_of_grows hgrows
    | cons a as =>
      dsimp only
      rw [Round.pollLate_eq]
      rfl

theorem runTask_terms (now : Time) (m : Moment σ) (task : Task ρ) :
    (m.runTask now task).daemon.loop.terms = m.daemon.loop.terms := by
  cases task with
  | boot id node =>
    dsimp only [runTask]
    split
    · show (m.daemon.loop.deliver id _).2.terms = _
      rw [Provisioner.deliver_eq]
      rfl
    · rw [Daemon.freeNode_loop]
      rfl
  | reclaim node =>
    show (m.daemon.runReclaim now node).loop.terms = _
    rw [Daemon.runReclaim_loop]
    rfl
  | removal ticket removal =>
    show (m.daemon.runRemoval now ticket removal).loop.terms = _
    rw [Daemon.runRemoval_loop]
    rfl

theorem step_terms (m : Moment σ) (a : Act σ) :
    (m.step a).daemon.loop.terms = m.daemon.loop.terms := by
  cases a with
  | begin now =>
    simp only [step, begin]
    split <;> rfl
  | advance =>
    obtain ⟨d, ticking⟩ := m
    cases ticking with
    | none => rfl
    | some t => exact advance_terms d t
  | provision now actor source label workload =>
    obtain ⟨d, ticking⟩ := m
    cases ticking with
    | some t => rfl
    | none =>
      obtain ⟨new, es, hgrows⟩ := d.loop.provisionManually_grows now actor source label workload
      exact terms_of_grows hgrows
  | deliver id result =>
    show (m.daemon.loop.deliver id result).2.terms = _
    rw [Provisioner.deliver_eq]
    rfl
  | changeSources sources => rfl
  | changeDemand board => rfl
  | consult c => rfl
  | expire now second id =>
    simp only [step, expire_eq]
    split <;> rfl
  | remove now actor id reason =>
    simp only [step, remove]
    split <;> rfl
  | perform now place =>
    simp only [step, perform]
    split
    · rfl
    · exact runTask_terms now _ _

theorem run_terms (m : Moment σ) (acts : List (Act σ)) :
    (m.run acts).daemon.loop.terms = m.daemon.loop.terms := by
  induction acts generalizing m with
  | nil => rfl
  | cons a acts ih => exact (ih (m.step a)).trans (step_terms m a)

theorem run_guard (m : Moment σ) (acts : List (Act σ)) :
    (m.run acts).daemon.loop.guard = m.daemon.loop.guard :=
  congrArg Prod.fst (m.run_terms acts)

theorem run_timeout (m : Moment σ) (acts : List (Act σ)) :
    (m.run acts).daemon.loop.timeout = m.daemon.loop.timeout :=
  congrArg Prod.snd (m.run_terms acts)

end Moment

end Fleet
