import Fleet.Proofs.Node.Telling

/-!
# Removals from their start to their end

A node that leaves is given the next ticket and a task that will free its handle; when that
task runs, the removal comes to its end and its outcome is noted under the ticket.  `Settles`
balances the tasks of removals between two moments against those that were started and those
that were concluded, and every run does so (`run_settles`): a removal in the tasks stays there
until it is concluded under its own ticket (`pending_or_concluded`), and then its outcome is
told (`pending_or_told`).
-/

namespace Fleet

variable {σ ρ : Type} [CapacitySource σ ρ]

/-- A task that is the second phase of a removal, by its ticket. -/
def Task.removal? : Task ρ → Option (Nat × Removal ρ)
  | removal ticket r => some (ticket, r)
  | _ => none

/-- The removals in a list of tasks. -/
def Scheduled.removals (ts : List (Scheduled ρ)) : List (Nat × Removal ρ) :=
  ts.filterMap (·.task.removal?)

theorem Scheduled.removals_append (ts ts' : List (Scheduled ρ)) :
    removals (ts ++ ts') = removals ts ++ removals ts' := List.filterMap_append

/-- New tasks that are no removals add none. -/
theorem Scheduled.removals_append_map {α : Type} (ts : List (Scheduled ρ)) (xs : List α)
    {f : α → Scheduled ρ} (h : ∀ x, (f x).task.removal? = none) :
    removals (ts ++ xs.map f) = removals ts := by
  have hnone : removals (xs.map f) = [] := by
    rw [removals, List.filterMap_map]
    exact List.filterMap_eq_nil_iff.2 fun x _ => h x
  rw [removals_append, hnone, List.append_nil]

/-- Removals with their tickets, given out one by one. -/
def ticketed (ticket : Nat) (removals : List (Removal ρ)) : List (Nat × Removal ρ) :=
  (removals.zipIdx ticket).map Prod.swap

theorem ticketed_append (ticket : Nat) (xs ys : List (Removal ρ)) :
    ticketed ticket (xs ++ ys) = ticketed ticket xs ++ ticketed (ticket + xs.length) ys := by
  rw [ticketed, List.zipIdx_append, List.map_append]
  rfl

theorem nodup_ticketed (ticket : Nat) (xs : List (Removal ρ)) :
    ((ticketed ticket xs).map Prod.fst).Nodup := by
  rw [ticketed, List.map_map]
  have hsnd : (Prod.fst ∘ Prod.swap : Removal ρ × Nat → Nat) = Prod.snd := rfl
  rw [hsnd, List.zipIdx_map_snd]
  exact List.nodup_range'

section Release

variable [Freeing σ ρ]

/-- The removals that have come to their ends, by their tickets. -/
def Conclusion.entries (cs : List (Conclusion σ)) : Multiset (Nat × Removal ρ) :=
  (cs.map fun c => (c.ticket, c.removal) : List (Nat × Removal ρ))

omit [Freeing σ ρ] in
theorem Conclusion.entries_append (cs cs' : List (Conclusion σ)) :
    entries (cs ++ cs') = entries cs + entries cs' := by
  rw [entries, List.map_append, ← Multiset.coe_add]
  rfl

namespace Moment

omit [Freeing σ ρ] in
/-- The removals under way, by their tickets. -/
def pending (m : Moment σ) : Multiset (Nat × Removal ρ) :=
  (Scheduled.removals m.daemon.tasks : Multiset (Nat × Removal ρ))

/-- From `m` to `m'` the removals in `departed` were started and those in `concluded` have come
to their ends. -/
structure Settles (m m' : Moment σ) (departed : List (Removal ρ))
    (concluded : List (Conclusion σ)) : Prop where
  next : m'.daemon.nextTicket = m.daemon.nextTicket + departed.length
  pending : m'.pending + Conclusion.entries concluded =
    m.pending + (ticketed m.daemon.nextTicket departed : Multiset (Nat × Removal ρ))
  outcomes : m'.daemon.journal.outcomes =
    m.daemon.journal.outcomes ++ concluded.map fun c => (c.ticket, c.outcome)

namespace Settles

variable {m m' m'' : Moment σ} {departed departed' : List (Removal ρ)}
  {concluded concluded' : List (Conclusion σ)}

/-- No removal is started and none comes to its end. -/
theorem of_eq (hpending : Scheduled.removals m'.daemon.tasks = Scheduled.removals m.daemon.tasks)
    (hnext : m'.daemon.nextTicket = m.daemon.nextTicket)
    (houtcomes : m'.daemon.journal.outcomes = m.daemon.journal.outcomes) :
    m.Settles m' [] [] where
  next := hnext
  pending := by
    rw [Moment.pending, hpending]
    rfl
  outcomes := houtcomes.trans (List.append_nil _).symm

theorem trans (h : m.Settles m' departed concluded) (h' : m'.Settles m'' departed' concluded') :
    m.Settles m'' (departed ++ departed') (concluded ++ concluded') where
  next := by rw [h'.next, h.next, List.length_append, Nat.add_assoc]
  pending := by
    have hfirst := h.pending
    have hsecond := h'.pending
    rw [h.next] at hsecond
    rw [Conclusion.entries_append, ticketed_append, ← Multiset.coe_add]
    calc m''.pending + (Conclusion.entries concluded + Conclusion.entries concluded')
        = m''.pending + Conclusion.entries concluded' + Conclusion.entries concluded := by abel
      _ = m'.pending + Conclusion.entries concluded +
            (ticketed (m.daemon.nextTicket + departed.length) departed' : Multiset _) := by
          rw [hsecond, add_right_comm]
      _ = m.pending + ((ticketed m.daemon.nextTicket departed : Multiset (Nat × Removal ρ)) +
            (ticketed (m.daemon.nextTicket + departed.length) departed' : Multiset _)) := by
          rw [hfirst, add_assoc]
  outcomes := by rw [h'.outcomes, h.outcomes, List.map_append, List.append_assoc]

end Settles

/-! ## Steps -/

/-- A node that leaves is given a ticket and a task. -/
theorem beginRelease_settles (now : Time) (removal : Removal ρ) (r : Registry ρ) (m : Moment σ) :
    m.Settles { m with daemon := ({ m.daemon with registry := r }.beginRelease now removal).2 }
      [removal] [] where
  next := rfl
  pending := by
    show (Scheduled.removals (m.daemon.tasks ++ [_]) : Multiset (Nat × Removal ρ)) + 0 = _
    rw [Scheduled.removals_append, ← Multiset.coe_add, add_zero]
    rfl
  outcomes := (List.append_nil _).symm

theorem expire_settles (now : Time) (second : UInt64) (id : NodeId) (m : Moment σ) :
    m.Settles { m with daemon := expire now second id m.daemon }
      (Change.ofExpiry (m.daemon.registry.detachExpired id second).1).departed [] := by
  rw [expire_eq]
  rcases m.daemon.registry.detachExpired id second with ⟨_ | _ | ⟨node, reason⟩, r⟩
  · exact .of_eq rfl rfl rfl
  · exact .of_eq rfl rfl rfl
  · exact beginRelease_settles now ⟨node, reason⟩ r m

theorem remove_settles (now : Time) (actor : Actor) (id : NodeId) (reason : String)
    (m : Moment σ) :
    m.Settles { m with daemon := remove now actor id reason m.daemon }
      (Change.ofRemoval (detachFor actor id reason m.daemon.registry).1).departed [] := by
  unfold remove
  rcases detachFor actor id reason m.daemon.registry with ⟨_ | removal, r⟩
  · exact .of_eq rfl rfl rfl
  · exact beginRelease_settles now removal r m

theorem advance_settles (d : Daemon σ (Registry ρ)) (t : Ticking σ) :
    Settles ⟨d, some t⟩ (t.advance d) [] [] := by
  -- the tasks that a tick starts are no removals
  have hproceed (r : Round σ (Registry ρ)) (ahead : Ahead ρ) :
      Settles ⟨d, some t⟩ (t.proceed r ahead d) [] [] := by
    exact .of_eq (Scheduled.removals_append_map d.tasks _ fun _ => rfl) rfl rfl
  unfold Ticking.advance
  cases t.ahead with
  | inFlight rest => cases rest <;> exact hproceed _ _
  | late rest =>
    cases rest with
    | cons a as => exact hproceed _ _
    | nil => exact .of_eq (Scheduled.removals_append_map d.tasks _ fun _ => rfl) rfl rfl

omit [Freeing σ ρ] in
theorem removals_absorb (now : Time) (w : Work σ) (d : Daemon σ (Registry ρ)) :
    Scheduled.removals (d.absorb now w).tasks = Scheduled.removals d.tasks :=
  Scheduled.removals_append_map d.tasks _ fun _ => rfl

omit [Freeing σ ρ] in
theorem pending_picked {m : Moment σ} {place : Nat} {t : Scheduled ρ}
    (ht : m.daemon.tasks[place]? = some t) :
    m.pending = (m.picked place).pending + (t.task.removal?.toList : Multiset _) := by
  obtain ⟨hlt, rfl⟩ := List.getElem?_eq_some_iff.1 ht
  have hperm := (List.getElem_cons_eraseIdx_perm hlt).filterMap
    fun t : Scheduled ρ => t.task.removal?
  rw [pending, pending, Multiset.coe_add, Multiset.coe_eq_coe]
  refine hperm.symm.trans ?_
  rw [List.filterMap_cons]
  cases m.daemon.tasks[place].task.removal? with
  | none => exact (List.append_nil _).symm ▸ .refl _
  | some entry => exact (List.perm_append_singleton entry _).symm

/-- A task that is no removal starts none and concludes none. -/
theorem picked_settles {m m' : Moment σ} {place : Nat} {t : Scheduled ρ}
    (ht : m.daemon.tasks[place]? = some t) (hnone : t.task.removal? = none)
    (hbooks : (m.picked place).daemon.SameBooks m'.daemon) : m.Settles m' [] [] where
  next := hbooks.nextTicket
  pending := by
    have hpicked := pending_picked ht
    rw [hnone, Option.toList_none, Multiset.coe_nil, add_zero] at hpicked
    rw [pending, hbooks.tasks, hpicked]
    rfl
  outcomes := hbooks.outcomes.trans (List.append_nil _).symm

theorem perform_settles (now : Time) (place : Nat) (m : Moment σ) :
    m.Settles (m.perform now place) [] (m.conclude (.perform now place)) := by
  simp only [perform, conclude]
  cases ht : m.daemon.tasks[place]? with
  | none => exact .of_eq rfl rfl rfl
  | some t =>
    obtain ⟨due, task⟩ := t
    show m.Settles ((m.picked place).runTask now task) [] _
    cases task with
    | boot id node =>
      refine picked_settles ht rfl ?_
      dsimp only [runTask]
      split
      · exact ⟨rfl, rfl, rfl, rfl⟩
      · exact (m.picked place).daemon.freeNode_sameBooks node.release
    | reclaim node =>
      exact picked_settles ht rfl ((m.picked place).daemon.runReclaim_sameBooks now node)
    | removal ticket removal =>
      have hfree := (m.picked place).daemon.freeNode_sameBooks removal.node.release
      have houtcome := (⟨ticket, removal, now, m.daemon.loop.sources⟩ : Conclusion σ).conclude_fst
        ((m.picked place).daemon.freeNode removal.node.release).2.registry
      rw [Conclusion.result?] at houtcome
      refine ⟨hfree.nextTicket, ?_, ?_⟩
      · rw [pending_picked ht]
        refine Eq.trans ?_ (add_zero _).symm
        refine congrArg₂ (· + ·) ?_ rfl
        exact congrArg (fun ts => (Scheduled.removals ts : Multiset (Nat × Removal ρ))) hfree.tasks
      · show ((m.picked place).daemon.freeNode removal.node.release).2.journal.outcomes ++
          [(ticket, (removal.conclude now.seconds
            ((m.picked place).daemon.freeNode removal.node.release).1
            ((m.picked place).daemon.freeNode removal.node.release).2.registry).1)] = _
        rw [hfree.outcomes, Daemon.freeNode_fst]
        exact congrArg (fun o => m.daemon.journal.outcomes ++ [(ticket, o)]) houtcome

theorem step_settles (m : Moment σ) (a : Act σ) :
    m.Settles (m.step a) (m.change a).departed (m.conclude a) := by
  cases a with
  | begin now =>
    simp only [step, begin]
    split <;> exact .of_eq rfl rfl rfl
  | advance =>
    obtain ⟨d, ticking⟩ := m
    cases ticking with
    | none => exact .of_eq rfl rfl rfl
    | some t =>
      have hdeparted : (t.change d).departed = [] := t.departed_change d
      show Settles _ _ (t.change d).departed []
      rw [hdeparted]
      exact advance_settles d t
  | provision now actor source label workload =>
    simp only [step]
    split
    · exact .of_eq rfl rfl rfl
    · exact .of_eq (removals_absorb now _ m.daemon) rfl rfl
  | deliver id result => exact .of_eq rfl rfl rfl
  | changeSources sources => exact .of_eq rfl rfl rfl
  | changeDemand board => exact .of_eq rfl rfl rfl
  | consult c =>
    have hdeparted : (m.daemon.registry.consulted c).departed = [] :=
      m.daemon.registry.departed_consulted c
    show Settles _ _ (m.daemon.registry.consulted c).departed []
    rw [hdeparted]
    exact .of_eq rfl rfl rfl
  | expire now second id => exact expire_settles now second id m
  | remove now actor id reason => exact remove_settles now actor id reason m
  | perform now place =>
    have hdeparted : (m.change (.perform now place)).departed = [] :=
      m.daemon.registry.departed_left _
    rw [hdeparted]
    exact perform_settles now place m

/-! ## Runs -/

/-- A run settles the removals that it starts and those that it concludes. -/
theorem run_settles (m : Moment σ) (acts : List (Act σ)) :
    m.Settles (m.run acts) (m.departures acts) (m.conclusions acts) := by
  induction acts generalizing m with
  | nil => exact .of_eq rfl rfl rfl
  | cons a acts ih => exact (step_settles m a).trans (ih (m.step a))

/-- A removal under way stays so until it comes to its end. -/
theorem pending_or_concluded {m : Moment σ} {entry : Nat × Removal ρ} (h : entry ∈ m.pending)
    (acts : List (Act σ)) : entry ∈ (m.run acts).pending ∨
      ∃ c ∈ m.conclusions acts, (c.ticket, c.removal) = entry := by
  have hmem : entry ∈ (m.run acts).pending + Conclusion.entries (m.conclusions acts) := by
    rw [(run_settles m acts).pending]
    exact Multiset.mem_add.2 (.inl h)
  refine (Multiset.mem_add.1 hmem).imp_right fun hmem => ?_
  obtain ⟨c, hc, he⟩ := List.mem_map.1 (Multiset.mem_coe.1 hmem)
  exact ⟨c, hc, he⟩

/-- A removal under way stays so until its outcome is noted under its ticket and told. -/
theorem pending_or_told {m : Moment σ} {ticket : Nat} {removal : Removal ρ}
    (h : (ticket, removal) ∈ m.pending) (acts : List (Act σ)) :
    (ticket, removal) ∈ (m.run acts).pending ∨
      ∃ outcome, (ticket, outcome) ∈ (m.run acts).daemon.journal.outcomes ∧
        removal.event outcome ∈ (m.run acts).told := by
  refine (pending_or_concluded h acts).imp_right ?_
  rintro ⟨c, hc, he⟩
  cases he
  refine ⟨c.outcome, ?_, ?_⟩
  · rw [(run_settles m acts).outcomes]
    exact List.mem_append_right _ (List.mem_map_of_mem hc)
  · have hmem : c.event ∈ (m.run acts).told.filter Event.isRemoval :=
      (run_tells m acts).removals.mem_iff.2 (List.mem_append_right _ (List.mem_map_of_mem hc))
    exact List.mem_of_mem_filter hmem

/-- Only what its own removal comes to is noted under a ticket. -/
theorem outcome_of_pending {start m : Moment σ} {departed : List (Removal ρ)}
    {concluded : List (Conclusion σ)} (hnone : start.pending = 0)
    (hunheard : start.daemon.journal.outcomes = []) (h : start.Settles m departed concluded)
    {ticket : Nat} {removal : Removal ρ} (hpending : (ticket, removal) ∈ m.pending)
    (acts : List (Act σ)) {outcome : ReleaseOutcome}
    (hnoted : (ticket, outcome) ∈ (m.run acts).daemon.journal.outcomes) :
    ∃ c : Conclusion σ, c.removal = removal ∧ c.outcome = outcome := by
  have hall := h.trans (run_settles m acts)
  have hbalance := hall.pending
  rw [hnone, zero_add] at hbalance
  have houtcomes := hall.outcomes
  rw [hunheard, List.nil_append] at houtcomes
  rw [houtcomes] at hnoted
  obtain ⟨c, hc, he⟩ := List.mem_map.1 hnoted
  cases he
  have hstarted {entry : Nat × Removal ρ} (hentry : entry ∈ (m.run acts).pending +
      Conclusion.entries (concluded ++ m.conclusions acts)) :
      entry ∈ ticketed start.daemon.nextTicket (departed ++ m.departures acts) :=
    Multiset.mem_coe.1 (hbalance ▸ hentry)
  have hconcluded {c : Conclusion σ} (hc : c ∈ concluded ++ m.conclusions acts) :
      (c.ticket, c.removal) ∈
        ticketed start.daemon.nextTicket (departed ++ m.departures acts) :=
    hstarted (Multiset.mem_add.2 (.inr (Multiset.mem_coe.2 (List.mem_map.2 ⟨c, hc, rfl⟩))))
  have hmine : (c.ticket, removal) ∈
      ticketed start.daemon.nextTicket (departed ++ m.departures acts) := by
    rcases pending_or_concluded hpending acts with hstill | ⟨c', hc', he⟩
    · exact hstarted (Multiset.mem_add.2 (.inl hstill))
    · exact he ▸ hconcluded (List.mem_append_right _ hc')
  -- no two removals have the same ticket
  have hsame := List.inj_on_of_nodup_map (nodup_ticketed _ _) (hconcluded hc) hmine rfl
  exact ⟨c, congrArg Prod.snd hsame, rfl⟩

end Moment

end Release

end Fleet
