import Fleet.Proofs.Custody.Moment

/-!
# The operations of the daemon as runs of acts

Left alone, the acts of a `Moment` add up to the operations of the daemon.  Those that take
more than one act are a tick (`run_begin_advance`), a sweep (`run_sweep`), a removal by hand
(`run_remove`) and the tasks that are due (`run_perform`); `run_operations` is about all of
them, one after the other.  Such as do not exchange the sources or bring results from outside
come to acts that do not, either (`run_innerOperations`).
-/

namespace Fleet

variable {σ ρ : Type} [CapacitySource σ ρ] [Freeing σ ρ]

/-! ## Ticks -/

namespace Ticking

theorem proceed_proceed {r r' : Round σ (Registry ρ)} (ahead ahead' : Ahead ρ)
    (d : Daemon σ (Registry ρ)) {t : Ticking σ} (h : t.round.discarded <+: r.discarded)
    (h' : r.discarded <+: r'.discarded) :
    proceed r' ahead' (t.proceed r ahead d).daemon { t with round := r, ahead } =
      t.proceed r' ahead' d := by
  obtain ⟨xs, hx⟩ := h
  obtain ⟨ys, hy⟩ := h'
  have hsplit : r.discarded.drop t.round.discarded.length ++
      r'.discarded.drop r.discarded.length = r'.discarded.drop t.round.discarded.length := by
    rw [← hy, ← hx, List.drop_left, List.drop_left, List.append_assoc, List.drop_left]
  simp only [proceed, List.append_assoc, ← List.map_append, hsplit]

omit [Freeing σ ρ] in
theorem discarded_foldl_pollEntry (now : Time) (os : List (Outstanding ρ))
    (r : Round σ (Registry ρ)) :
    r.discarded <+: (os.foldl (Round.pollEntry now) r).discarded := by
  rw [Round.foldl_pollEntry]
  exact List.prefix_append _ _

omit [Freeing σ ρ] in
theorem discarded_foldl_pollLate (as : List (Abandoned ρ)) (r : Round σ (Registry ρ)) :
    r.discarded <+: (as.foldl Round.pollLate r).discarded := by
  rw [Round.foldl_pollLate]
  exact List.prefix_append _ _

/-- Nothing but the tick has happened since it last went on. -/
def InStep (d : Daemon σ (Registry ρ)) (t : Ticking σ) : Prop := t.current d = t.round

theorem proceed_round {d : Daemon σ (Registry ρ)} {t : Ticking σ} (h : t.InStep d) :
    t.proceed t.round t.ahead d = ⟨d, some t⟩ := by
  have hloop : t.round.loop = d.loop := by rw [← h]; rfl
  have hregistry : t.round.registry = d.registry := by rw [← h]; rfl
  simp [proceed, hloop, hregistry]

end Ticking

namespace Moment

/-- An act that neither exchanges the sources nor brings a result from outside. -/
def Act.isInner : Act σ → Bool
  | .deliver _ _ => false
  | .changeSources _ => false
  | _ => true

theorem run_append (m : Moment σ) (as bs : List (Act σ)) :
    m.run (as ++ bs) = (m.run as).run bs := List.foldl_append

theorem run_inFlight (os : List (Outstanding ρ)) {d : Daemon σ (Registry ρ)} {t : Ticking σ}
    (h : t.InStep d) (ht : t.ahead = .inFlight os) :
    (⟨d, some t⟩ : Moment σ).run (List.replicate os.length .advance) =
      t.proceed (os.foldl (Round.pollEntry t.now) t.round) (.inFlight []) d := by
  induction os generalizing d t with
  | nil => rw [← ht]; exact (Ticking.proceed_round h).symm
  | cons o os ih =>
    have hstep : t.advance d =
        t.proceed (Round.pollEntry t.now t.round o) (.inFlight os) d := by
      rw [Ticking.advance, ht, h]
    have hrest := @ih (t.proceed (Round.pollEntry t.now t.round o) (.inFlight os) d).daemon
      { t with round := Round.pollEntry t.now t.round o, ahead := .inFlight os } rfl rfl
    rw [List.length_cons, List.replicate_succ, run, List.foldl_cons, ← run, step, Option.map_some,
      Option.getD_some, hstep]
    refine hrest.trans ?_
    exact Ticking.proceed_proceed _ _ d (Ticking.discarded_foldl_pollEntry t.now [o] t.round)
      (Ticking.discarded_foldl_pollEntry t.now os _)

theorem run_late (as : List (Abandoned ρ)) {d : Daemon σ (Registry ρ)} {t : Ticking σ}
    (h : t.InStep d) (ht : t.ahead = .late as) :
    (⟨d, some t⟩ : Moment σ).run (List.replicate as.length .advance) =
      t.proceed (as.foldl Round.pollLate t.round) (.late []) d := by
  induction as generalizing d t with
  | nil => rw [← ht]; exact (Ticking.proceed_round h).symm
  | cons a as ih =>
    have hstep : t.advance d = t.proceed (Round.pollLate t.round a) (.late as) d := by
      rw [Ticking.advance, ht, h]
    have hrest := @ih (t.proceed (Round.pollLate t.round a) (.late as) d).daemon
      { t with round := Round.pollLate t.round a, ahead := .late as } rfl rfl
    rw [List.length_cons, List.replicate_succ, run, List.foldl_cons, ← run, step, Option.map_some,
      Option.getD_some, hstep]
    refine hrest.trans ?_
    exact Ticking.proceed_proceed _ _ d (Ticking.discarded_foldl_pollLate [a] t.round)
      (Ticking.discarded_foldl_pollLate as _)

/-- A tick that nothing comes between is the daemon's tick. -/
theorem run_begin_advance (now : Time) (d : Daemon σ (Registry ρ)) :
    ∃ n, (⟨d, none⟩ : Moment σ).run (.begin now :: List.replicate n .advance) =
      ⟨(d.tick now).2, none⟩ := by
  let demands := (d.signal.sample d.board).1
  let start := Round.start { d.loop with outstanding := [] } d.registry
  let looked := d.loop.outstanding.foldl (Round.pollEntry now) start
  let turned := { looked with loop := { looked.loop with abandoned := [] } }
  let polled := looked.loop.abandoned.foldl Round.pollLate turned
  let d₀ := { d with signal := (d.signal.sample d.board).2, loop := start.loop }
  let t₀ : Ticking σ := ⟨now, demands, start, .inFlight d.loop.outstanding⟩
  have hlooked : start.discarded <+: looked.discarded :=
    Ticking.discarded_foldl_pollEntry now d.loop.outstanding start
  have hpolled : turned.discarded <+: polled.discarded :=
    Ticking.discarded_foldl_pollLate looked.loop.abandoned turned
  -- the two looks, each of which goes on from what the steps before it came to
  have hfirst : (⟨d₀, some t₀⟩ : Moment σ).run
      (List.replicate d.loop.outstanding.length .advance) =
        t₀.proceed looked (.inFlight []) d₀ := run_inFlight _ rfl rfl
  have hturn : (t₀.proceed looked (.inFlight []) d₀).run [.advance] =
      t₀.proceed turned (.late looked.loop.abandoned) d₀ :=
    Ticking.proceed_proceed (.inFlight []) _ d₀ hlooked List.prefix_rfl
  have hsecond : (t₀.proceed turned (.late looked.loop.abandoned) d₀).run
      (List.replicate looked.loop.abandoned.length .advance) =
        t₀.proceed polled (.late []) d₀ := by
    refine (run_late looked.loop.abandoned ?_ rfl).trans ?_
    · rfl
    · exact Ticking.proceed_proceed _ _ d₀ hlooked hpolled
  have hend : (t₀.proceed polled (.late []) d₀).run [.advance] = ⟨(d.tick now).2, none⟩ := by
    obtain ⟨_, _, -, -, hdiscarded⟩ := Round.evaluateAll_asks now demands polled
    have hfinish : (d.loop.tick now (d.signal.sample d.board).1 d.registry).discarded =
        polled.discarded := hdiscarded
    unfold Daemon.tick
    dsimp only
    rw [hfinish]
    rfl
  refine ⟨d.loop.outstanding.length + (1 + (looked.loop.abandoned.length + 1)), ?_⟩
  have hbegin : (⟨d, none⟩ : Moment σ).step (.begin now) = ⟨d₀, some t₀⟩ := rfl
  rw [run, List.foldl_cons, hbegin, ← run, List.replicate_add, List.replicate_add,
    List.replicate_add, run_append, hfirst, run_append, List.replicate_one, hturn, run_append,
    hsecond, hend]

end Moment

/-! ## Sweeps and removals -/

namespace Daemon

theorem beginReleases_append (now : Time) (xs ys : List (Removal ρ))
    (d : Daemon σ (Registry ρ)) :
    (d.beginReleases now (xs ++ ys)).2 = ((d.beginReleases now xs).2.beginReleases now ys).2 := by
  induction xs generalizing d with
  | nil => rfl
  | cons x xs ih => exact ih (d.beginRelease now x).2

theorem beginReleases_registry (now : Time) (xs : List (Removal ρ)) (r : Registry ρ)
    (d : Daemon σ (Registry ρ)) :
    ({ d with registry := r }.beginReleases now xs).2 =
      { (d.beginReleases now xs).2 with registry := r } := by
  induction xs generalizing d with
  | nil => rfl
  | cons x xs ih => exact ih (d.beginRelease now x).2

theorem registry_beginReleases (now : Time) (xs : List (Removal ρ))
    (d : Daemon σ (Registry ρ)) : (d.beginReleases now xs).2.registry = d.registry := by
  induction xs generalizing d with
  | nil => rfl
  | cons x xs ih => exact ih (d.beginRelease now x).2

/-- The daemon that has begun the releases of a sweep under way. -/
def swept (now : Time) (s : Sweep (Registry ρ)) (d : Daemon σ (Registry ρ)) :
    Daemon σ (Registry ρ) :=
  ({ d with registry := s.registry }.beginReleases now (s.removals.map Prod.snd)).2

theorem swept_expire (now : Time) (second : UInt64) (id : NodeId) (s : Sweep (Registry ρ))
    (d : Daemon σ (Registry ρ)) :
    d.swept now (s.expire second id) = Moment.expire now second id (d.swept now s) := by
  have hregistry : (d.swept now s).registry = s.registry := registry_beginReleases now _ _
  unfold Moment.expire
  rw [hregistry]
  unfold Sweep.expire
  dsimp only
  cases NodeRegistry.detachExpired id second s.registry with
  | mk answer r =>
    have hkept : ({ d with registry := r }.beginReleases now (s.removals.map Prod.snd)).2 =
        { d.swept now s with registry := r } := by
      rw [swept, beginReleases_registry now _ r d, beginReleases_registry now _ s.registry d]
    cases answer with
    | error e => exact hkept
    | ok out =>
      cases out with
      | none => exact hkept
      | some removed =>
        simp only [swept, List.map_append, beginReleases_append]
        rw [hkept]
        rfl

end Daemon

/-- The nodes that a look found due to go, in its order. -/
def Decision.due (entries : List (NodeRecord × Decision)) : List NodeId :=
  (entries.filter fun entry => entry.2.isRemove).map fun entry => entry.1.id

/-- The nodes that a sweep comes to if it looks now. -/
def Registry.due (second : UInt64) (r : Registry ρ) : List NodeId :=
  match (r.evaluateRetention second).1 with
  | .error _ => []
  | .ok entries => Decision.due entries

omit [CapacitySource σ ρ] [Freeing σ ρ] in
/-- To check a permission is to look the node up. -/
theorem authorizeRemoval_snd (guard : Guard) (actor : Actor) (id : NodeId) (r : Registry ρ) :
    (authorizeRemoval guard actor id r).2 = (r.get id).2 := by
  unfold authorizeRemoval
  have hinstance : NodeRegistry.get id r = r.get id := rfl
  rw [hinstance]
  split
  · rename_i h; rw [h]
  · rename_i h; rw [h]
  · rename_i h
    rw [h]
    split
    · rfl
    · split <;> rfl

namespace Moment

theorem run_rechecks (now : Time) (second : UInt64) (entries : List (NodeRecord × Decision))
    (s : Sweep (Registry ρ)) (d : Daemon σ (Registry ρ)) :
    (⟨d.swept now s, none⟩ : Moment σ).run
      ((Decision.due entries).map fun id => .expire now second id) =
        ⟨d.swept now (entries.foldl (Sweep.recheck second) s), none⟩ := by
  induction entries generalizing s with
  | nil => rfl
  | cons entry entries ih =>
    have hrest := ih (s.recheck second entry)
    unfold Decision.due at hrest ⊢
    rw [List.foldl_cons]
    by_cases hremove : entry.2.isRemove = true
    · have hrecheck : s.recheck second entry = s.expire second entry.1.id := if_pos hremove
      rw [hrecheck, Daemon.swept_expire] at hrest
      rw [hrecheck, List.filter_cons, if_pos hremove]
      exact hrest
    · have hrecheck : s.recheck second entry = s := if_neg hremove
      rw [hrecheck] at hrest
      rw [hrecheck, List.filter_cons, if_neg hremove]
      exact hrest

/-- A sweep that nothing comes between is the daemon's sweep. -/
theorem run_sweep (now : Time) (second : UInt64) (d : Daemon σ (Registry ρ)) :
    (⟨d, none⟩ : Moment σ).run (.consult (.evaluate second) ::
      (d.registry.due second).map fun id => .expire now second id) =
        ⟨(d.sweep now second).2, none⟩ := by
  unfold Daemon.sweep sweep Registry.due
  have hconsult : (⟨d, none⟩ : Moment σ).step (.consult (.evaluate second)) =
      ⟨{ d with registry := (d.registry.evaluateRetention second).2 }, none⟩ := rfl
  cases he : NodeRegistry.evaluateRetention second d.registry with
  | mk answer r =>
    have he' : d.registry.evaluateRetention second = (answer, r) := he
    rw [he'] at hconsult ⊢
    rw [run, List.foldl_cons, hconsult]
    cases answer with
    | error e => rfl
    | ok entries => exact run_rechecks now second entries ⟨r, entries.length, []⟩ d

/-- A removal by hand that nothing comes between is the daemon's removal. -/
theorem run_remove (now : Time) (actor : Actor) (id : NodeId) (reason : String)
    (d : Daemon σ (Registry ρ)) :
    ∃ acts, (⟨d, none⟩ : Moment σ).run acts = ⟨(d.removeNode now actor id reason).2, none⟩ ∧
      ∀ a ∈ acts, a.isInner = true := by
  have hget := authorizeRemoval_snd d.loop.guard actor id d.registry
  have hconsult : (⟨d, none⟩ : Moment σ).step (.consult (.get id)) =
      ⟨{ d with registry := (d.registry.get id).2 }, none⟩ := rfl
  unfold Daemon.removeNode removeNode
  cases hauth : authorizeRemoval d.loop.guard actor id d.registry with
  | mk answer r =>
    rw [hauth] at hget
    dsimp only at hget
    subst hget
    cases answer with
    | error e => exact ⟨[.consult (.get id)], hconsult, by simp [Act.isInner]⟩
    | ok _ =>
      refine ⟨[.consult (.get id), .remove now actor id reason], ?_, by simp [Act.isInner]⟩
      rw [run, List.foldl_cons, hconsult, List.foldl_cons, List.foldl_nil, step, remove]
      dsimp only
      cases hdetach : detachFor actor id reason (d.registry.get id).2 with
      | mk answer r => cases answer <;> rfl

end Moment

/-! ## Tasks -/

/-- No task looks at the others. -/
theorem Daemon.run_tasks (now : Time) (t : Task ρ) (ts : List (Scheduled ρ))
    (d : Daemon σ (Registry ρ)) :
    { d with tasks := ts }.run now t = { d.run now t with tasks := ts } := by
  have hfree (release : Option ρ) (d : Daemon σ (Registry ρ)) :
      { d with tasks := ts }.freeNode release =
        ((d.freeNode release).1, { (d.freeNode release).2 with tasks := ts }) := by
    cases release <;> rfl
  cases t with
  | boot id node =>
    simp only [run, runBoot, deliver]
    cases d.loop.deliver id (.ok { node with record := node.record.bootedAt now.seconds }) with
    | mk delivery loop =>
      cases delivery with
      | accepted => rfl
      | returned result => exact congrArg Prod.snd (hfree node.release { d with loop })
  | reclaim node =>
    simp only [run, runReclaim, hfree]
    cases d.freeNode node.release with
    | mk result d' =>
      cases result with
      | none => rfl
      | some result => cases result <;> rfl
  | removal ticket removal =>
    simp only [run, runRemoval, hfree]
    rfl

namespace Moment

theorem runTask_eq (now : Time) (t : Task ρ) (d : Daemon σ (Registry ρ)) :
    (⟨d, none⟩ : Moment σ).runTask now t = ⟨d.run now t, none⟩ := by
  cases t with
  | boot id node =>
    have hawaits : (⟨d, none⟩ : Moment σ).awaits id = d.loop.awaits id := by
      simp only [awaits, watched, Provisioner.watched, Provisioner.awaits, Option.map_none,
        Option.getD_none, List.nil_append, List.any_append, List.any_map]
      rfl
    simp only [runTask, hawaits, Daemon.run, Daemon.runBoot, Daemon.deliver, Provisioner.deliver]
    cases ha : d.loop.awaits id with
    | true =>
      rw [if_pos rfl, if_pos rfl]
      simp only [deliver, Daemon.deliver, Provisioner.deliver, ha, if_true]
      rfl
    | false => rfl
  | reclaim node => rfl
  | removal ticket removal => rfl

/-- The tasks that are due run in their order; `waited` are those that have been passed by. -/
theorem run_due (now : Time) (ts waited : List (Scheduled ρ)) (d : Daemon σ (Registry ρ)) :
    ∃ places : List Nat, (⟨{ d with tasks := waited ++ ts }, none⟩ : Moment σ).run
      (places.map fun place => .perform now place) =
        ⟨(ts.filter fun t => t.due ≤ now).foldl (fun d t => d.run now t.task)
          { d with tasks := waited ++ ts.filter fun t => !decide (t.due ≤ now) }, none⟩ := by
  induction ts generalizing waited d with
  | nil => exact ⟨[], rfl⟩
  | cons t ts ih =>
    by_cases hdue : t.due ≤ now
    · obtain ⟨places, hplaces⟩ := ih waited (d.run now t.task)
      refine ⟨waited.length :: places, ?_⟩
      have hstep : (⟨{ d with tasks := waited ++ t :: ts }, none⟩ : Moment σ).step
          (.perform now waited.length) =
            ⟨{ d.run now t.task with tasks := waited ++ ts }, none⟩ := by
        rw [step, perform, List.getElem?_append_right (Nat.le_refl _), Nat.sub_self,
          List.getElem?_cons_zero]
        dsimp only
        rw [List.eraseIdx_append_of_length_le (Nat.le_refl _), Nat.sub_self,
          List.eraseIdx_cons_zero, runTask_eq, Daemon.run_tasks]
      have hrun := Daemon.run_tasks now t.task
        (waited ++ ts.filter fun t => !decide (t.due ≤ now)) d
      have hruns : (t :: ts).filter (fun t => decide (t.due ≤ now)) =
          t :: ts.filter fun t => decide (t.due ≤ now) :=
        List.filter_cons_of_pos (by simpa using hdue)
      have hleaves : (t :: ts).filter (fun t => !decide (t.due ≤ now)) =
          ts.filter fun t => !decide (t.due ≤ now) :=
        List.filter_cons_of_neg (by simpa using hdue)
      rw [List.map_cons, run, List.foldl_cons, hstep, ← run, hplaces, hruns, hleaves,
        List.foldl_cons, hrun]
    · obtain ⟨places, hplaces⟩ := ih (waited ++ [t]) d
      have hruns : (t :: ts).filter (fun t => decide (t.due ≤ now)) =
          ts.filter fun t => decide (t.due ≤ now) :=
        List.filter_cons_of_neg (by simpa using hdue)
      have hleaves : (t :: ts).filter (fun t => !decide (t.due ≤ now)) =
          t :: ts.filter fun t => !decide (t.due ≤ now) :=
        List.filter_cons_of_pos (by simpa using hdue)
      rw [List.append_assoc, List.append_assoc] at hplaces
      rw [hruns, hleaves]
      exact ⟨places, hplaces⟩

/-- Running the tasks that are due is settling. -/
theorem run_perform (now : Time) (d : Daemon σ (Registry ρ)) :
    ∃ places : List Nat, (⟨d, none⟩ : Moment σ).run (places.map fun place => .perform now place) =
      ⟨d.settle now, none⟩ := by
  obtain ⟨places, hplaces⟩ := run_due now d.tasks [] d
  refine ⟨places, hplaces.trans ?_⟩
  rw [Daemon.settle, List.partition_eq_filter_filter]
  rfl

end Moment

/-! ## All operations -/

/-- What the daemon may be made to do at a time. -/
inductive Daemon.Operation (σ : Type) {ρ : Type} [CapacitySource σ ρ] where
  | tick (now : Time)
  | provision (now : Time) (actor : Actor) (source : String) (label : Option Label)
      (workload : Nat)
  | deliver (id : PlannedId) (result : CompletionResult ρ)
  | sweep (now : Time) (second : UInt64)
  | remove (now : Time) (actor : Actor) (id : NodeId) (reason : String)
  | settle (now : Time)
  | changeSources (sources : SourceSet σ)
  | changeDemand (board : Demand.Board)
  | consult (c : Consultation)

def Daemon.operate (d : Daemon σ (Registry ρ)) : Operation σ → Daemon σ (Registry ρ)
  | .tick now => (d.tick now).2
  | .provision now actor source label workload =>
    (d.provisionManually now actor source label workload).2
  | .deliver id result => (d.deliver id result).2
  | .sweep now second => (d.sweep now second).2
  | .remove now actor id reason => (d.removeNode now actor id reason).2
  | .settle now => d.settle now
  | .changeSources sources => { d with loop := { d.loop with sources } }
  | .changeDemand board => { d with board }
  | .consult c => { d with registry := d.registry.consult c }

/-- An operation that neither exchanges the sources nor brings a result from outside. -/
def Daemon.Operation.isInner : Operation σ → Bool
  | .deliver _ _ => false
  | .changeSources _ => false
  | _ => true

namespace Moment

theorem run_operate (op : Daemon.Operation σ) (d : Daemon σ (Registry ρ)) :
    ∃ acts, (⟨d, none⟩ : Moment σ).run acts = ⟨d.operate op, none⟩ ∧
      (op.isInner = true → ∀ a ∈ acts, a.isInner = true) := by
  cases op with
  | tick now =>
    obtain ⟨n, hn⟩ := run_begin_advance now d
    exact ⟨_, hn, fun _ => by simp [Act.isInner]⟩
  | provision now actor source label workload =>
    exact ⟨[.provision now actor source label workload], rfl, fun _ => by simp [Act.isInner]⟩
  | deliver id result => exact ⟨[.deliver id result], rfl, nofun⟩
  | sweep now second => exact ⟨_, run_sweep now second d, fun _ => by simp [Act.isInner]⟩
  | remove now actor id reason =>
    obtain ⟨acts, hacts, hinner⟩ := run_remove now actor id reason d
    exact ⟨acts, hacts, fun _ => hinner⟩
  | settle now =>
    obtain ⟨places, hplaces⟩ := run_perform now d
    exact ⟨_, hplaces, fun _ => by simp [Act.isInner]⟩
  | changeSources sources => exact ⟨[.changeSources sources], rfl, nofun⟩
  | changeDemand board => exact ⟨[.changeDemand board], rfl, fun _ => by simp [Act.isInner]⟩
  | consult c => exact ⟨[.consult c], rfl, fun _ => by simp [Act.isInner]⟩

/-- Where inner operations lead, inner acts do. -/
theorem run_innerOperations (ops : List (Daemon.Operation σ)) (d : Daemon σ (Registry ρ)) :
    ∃ acts, (⟨d, none⟩ : Moment σ).run acts = ⟨ops.foldl Daemon.operate d, none⟩ ∧
      ((∀ op ∈ ops, op.isInner = true) → ∀ a ∈ acts, a.isInner = true) := by
  induction ops generalizing d with
  | nil => exact ⟨[], rfl, fun _ => nofun⟩
  | cons op ops ih =>
    obtain ⟨acts, hacts, hinner⟩ := run_operate op d
    obtain ⟨rest, hrest, hrestinner⟩ := ih (d.operate op)
    refine ⟨acts ++ rest, by rw [run_append, hacts, hrest, List.foldl_cons], fun h a ha => ?_⟩
    rw [List.forall_mem_cons] at h
    rcases List.mem_append.1 ha with ha | ha
    · exact hinner h.1 a ha
    · exact hrestinner h.2 a ha

/-- Where operations lead, acts do. -/
theorem run_operations (ops : List (Daemon.Operation σ)) (d : Daemon σ (Registry ρ)) :
    ∃ acts, (⟨d, none⟩ : Moment σ).run acts = ⟨ops.foldl Daemon.operate d, none⟩ := by
  obtain ⟨acts, hacts, -⟩ := run_innerOperations ops d
  exact ⟨acts, hacts⟩

end Moment

end Fleet
