import Fleet.Proofs.Provisioner.Life
import Fleet.Proofs.Provisioner.Request

/-!
# The accounts of a tick

The report of a tick is counted while the tick goes on, in many places; `TickReport.ofEvents`
reads the same numbers off the events.  `Round.Tallied` says that a round under way agrees with
its events so far, and every step of a tick that reports something counts it too: the look at an
entry in flight (`Tallied.pollEntry`), that at an abandoned one (`Tallied.pollLate`) and the turn
of a source (`Tallied.receive`).  Since a source that has failed is passed over, the failures
name each source once.  What was in flight before a tick stays or is reported to have come to an
end (`length_fates`), which balances the list (`accounts_of_tick`).
-/

namespace Fleet

namespace Event

/-- The event says this of some planned capacity. -/
def isMarked (m : Mark) (e : Event) : Bool := e.mark?.any fun mark => mark.2 = m

/-- The executors that a request is reported to promise. -/
def executors? : Event → Option Nat
  | provisionRequested _ _ _ executors _ => some executors
  | _ => none

/-- The source of a request that has failed. -/
def failing? : Event → Option SourceName
  | requestFailed source _ _ => some source
  | _ => none

/-- The label of demand that nobody serves. -/
def unmet? : Event → Option (Option Label)
  | demandUnmet label _ => some label
  | _ => none

end Event

/-- How often the events say this of planned capacity. -/
def markCount (m : Mark) (es : List Event) : Nat := es.countP (·.isMarked m)

@[simp] theorem markCount_append (m : Mark) (es es' : List Event) :
    markCount m (es ++ es') = markCount m es + markCount m es' := List.countP_append

/-- The report of a tick as its events have it; executors are counted up to the largest count. -/
def TickReport.ofEvents (tick : Nat) (es : List Event) : TickReport where
  tick
  requested := markCount .requested es
  promisedExecutors := min (es.filterMap Event.executors?).sum (countLimit - 1)
  registered := markCount .succeeded es
  failed := markCount .failed es
  timedOut := markCount .timedOut es
  lateDiscarded := markCount .late es
  sourceFailures := (es.filterMap Event.failing?).length
  unmet := es.filterMap Event.unmet?

/-- The report before the sources that have failed are counted. -/
def TickReport.uncounted (report : TickReport) : TickReport := { report with sourceFailures := 0 }

/-- The report after a look at capacity that reports `seen`. -/
def TickReport.look (report : TickReport) (seen : List Event) : TickReport := { report with
  registered := report.registered + markCount .succeeded seen
  failed := report.failed + markCount .failed seen
  timedOut := report.timedOut + markCount .timedOut seen
  lateDiscarded := report.lateDiscarded + markCount .late seen }

/-! ## Looks -/

/-- The event says of planned capacity what became of it. -/
def Event.IsLook (e : Event) : Prop := e.mark?.isSome = true ∧ e.isMarked .requested = false

namespace Event.IsLook

variable {e : Event} (h : e.IsLook)

include h

theorem marked : e.mark?.isSome = true := h.1

theorem not_requested : ¬ e.isMarked .requested = true := by simp [h.2]

theorem executors : e.executors? = none := by
  cases e <;> first | rfl | cases h.2

theorem failing : e.failing? = none := by
  cases e <;> first | rfl | cases h.1

theorem unmet : e.unmet? = none := by
  cases e <;> first | rfl | cases h.1

end Event.IsLook

section Looks

variable {ρ : Type}

theorem Fate.isLook_of_mem_events (now : Time) (o : Outstanding ρ) (f : Fate ρ) :
    ∀ e ∈ f.events now o, e.IsLook := by
  cases f <;> simp [Event.IsLook, Event.mark?, Event.isMarked]

theorem Fate.count_eq (report : TickReport) (now : Time) (o : Outstanding ρ) (f : Fate ρ) :
    f.count report = report.look (f.events now o) := by
  cases f <;> rfl

theorem Abandoned.isLook_of_mem_events (a : Abandoned ρ) : ∀ e ∈ a.events, e.IsLook := by
  rw [Abandoned.events]
  cases a.lateNode? <;> simp [Event.IsLook, Event.mark?, Event.isMarked]

theorem Abandoned.count_eq (report : TickReport) (a : Abandoned ρ) :
    { report with lateDiscarded := report.lateDiscarded + a.lateNode?.toList.length } =
      report.look a.events := by
  rw [Abandoned.events]
  cases a.lateNode? <;> rfl

end Looks

/-- The event is one that a tick counts, or says that a node came a second time. -/
def Event.IsTold (e : Event) : Prop :=
  e.mark?.isSome = true ∨ e.failing?.isSome = true ∨ e.unmet?.isSome = true

/-! ## Requests -/

section Requests

variable {ρ : Type} (os : List (Outstanding ρ))

theorem markCount_requested (m : Mark) :
    markCount m (os.map Outstanding.requested) = if m = .requested then os.length else 0 := by
  induction os with
  | nil => exact (ite_self 0).symm
  | cons o os ih =>
    rw [List.map_cons, ← List.singleton_append, markCount_append, ih]
    cases m <;> simp [markCount, Event.isMarked, Event.mark?, Outstanding.requested, Nat.add_comm]

@[simp] theorem executors_requested :
    (os.map Outstanding.requested).filterMap Event.executors? = os.map (·.planned.promised) := by
  rw [List.filterMap_map]
  exact List.filterMap_eq_map_iff_forall_eq_some.2 fun o _ => rfl

@[simp] theorem failing_requested :
    (os.map Outstanding.requested).filterMap Event.failing? = [] := by
  rw [List.filterMap_map]
  exact List.filterMap_eq_nil_iff.2 fun o _ => rfl

@[simp] theorem unmet_requested : (os.map Outstanding.requested).filterMap Event.unmet? = [] := by
  rw [List.filterMap_map]
  exact List.filterMap_eq_nil_iff.2 fun o _ => rfl

end Requests

namespace Reply

variable {ρ : Type} (now : Time) (account : Account) (id : PlannedId) (reply : Reply ρ)

theorem isTold_of_mem_events {e : Event} (h : e ∈ reply.events now account id) : e.IsTold := by
  rcases List.mem_append.1 h with h | h
  · obtain ⟨_, _, rfl⟩ := List.mem_map.1 h
    exact .inr (.inl rfl)
  · obtain ⟨_, _, rfl⟩ := List.mem_map.1 h
    exact .inl rfl

theorem failing_events : (reply.events now account id).filterMap Event.failing? =
    reply.error?.toList.map fun _ => account.source := by
  rw [Reply.events, List.filterMap_append, failing_requested, List.append_nil]
  cases reply.error? <;> rfl

theorem unmet_events : (reply.events now account id).filterMap Event.unmet? = [] := by
  rw [Reply.events, List.filterMap_append, unmet_requested, List.append_nil]
  cases reply.error? <;> rfl

/-- A reply adds its offers to the requests and what they promise to the executors. -/
theorem ofEvents_append (tick : Nat) (es : List Event) :
    (TickReport.ofEvents tick (es ++ reply.events now account id)).uncounted =
      { (TickReport.ofEvents tick es).uncounted with
        requested := markCount .requested es + reply.offers.length
        promisedExecutors := reply.addTo (TickReport.ofEvents tick es).promisedExecutors } := by
  let failures : List Event :=
    reply.error?.toList.map fun e => .requestFailed account.source account.label e.message
  have hnone : (∀ m, markCount m failures = 0) ∧ failures.filterMap Event.executors? = [] := by
    cases reply <;> exact ⟨fun _ => rfl, rfl⟩
  obtain ⟨hcount, hexecutors⟩ := hnone
  have hmarks (m : Mark) : markCount m (reply.events now account id) =
      if m = .requested then reply.offers.length else 0 := by
    rw [Reply.events, markCount_append, hcount, markCount_requested, Reply.entries, length_taken,
      Nat.zero_add]
  have hpromised : (reply.events now account id).filterMap Event.executors? =
      reply.offers.map (·.promised) := by
    rw [Reply.events, List.filterMap_append, hexecutors, executors_requested, Reply.entries,
      map_promised_taken, List.nil_append]
  simp only [TickReport.ofEvents, TickReport.uncounted, markCount_append, hmarks,
    List.filterMap_append, hpromised, unmet_events, List.sum_append, addTo_min]
  simp

end Reply

/-- The requests among the events of asking are those of the new entries. -/
theorem Work.Grows.filter_requested {σ ρ : Type} [CapacitySource σ ρ] {w w' : Work σ}
    {new : List (Outstanding ρ)} {es : List Event} (h : w.Grows w' new es) :
    es.filter (·.isMarked .requested) = new.map Outstanding.requested := by
  have hsub : es.filter (·.isMarked .requested) =
      (es.filter (·.planned?.isSome)).filter (·.isMarked .requested) := by
    rw [List.filter_filter]
    refine List.filter_congr fun e _ => ?_
    rw [Event.isSome_planned?, Event.isMarked]
    cases e.mark? <;> simp
  rw [hsub, h.requests]
  refine List.filter_eq_self.2 fun e he => ?_
  obtain ⟨o, -, rfl⟩ := List.mem_map.1 he
  rfl

/-- Of planned capacity, asking for more says only that it is requested. -/
theorem Work.Grows.markCount_eq {σ ρ : Type} [CapacitySource σ ρ] {w w' : Work σ}
    {new : List (Outstanding ρ)} {es : List Event} (h : w.Grows w' new es) (m : Mark) :
    markCount m es = if m = .requested then new.length else 0 := by
  rw [← markCount_requested, ← h.requests, markCount, markCount, List.countP_filter]
  refine List.countP_congr fun e _ => ?_
  rw [Event.isSome_planned?, Event.isMarked]
  cases e.mark? <;> simp

/-! ## Rounds that agree with their events -/

namespace Round

variable {σ R ρ : Type} [CapacitySource σ ρ]

/-- A round that has reported `es` since it began, and counts what they say. -/
structure Tallied (tick : Nat) (r : Round σ R) (es : List Event) : Prop where
  events : r.events = .tickStarted tick :: es
  told : ∀ e ∈ es, e.IsTold
  report : r.report = (TickReport.ofEvents tick es).uncounted
  failed : r.failed = es.filterMap Event.failing?
  once : r.failed.Nodup

theorem tallied_start (loop : Provisioner σ) (registry : R) :
    (start loop registry).Tallied (loop.ticks + 1) [] :=
  ⟨rfl, by simp, rfl, rfl, .nil⟩

namespace Tallied

variable {tick : Nat} {r : Round σ R} {es : List Event}

/-- Only what is reported, counted and noted as failed matters. -/
theorem of_eq {r' : Round σ R} (h : r.Tallied tick es) (hevents : r'.events = r.events)
    (hreport : r'.report = r.report) (hfailed : r'.failed = r.failed) : r'.Tallied tick es :=
  ⟨hevents.trans h.events, h.told, hreport.trans h.report, hfailed.trans h.failed,
    hfailed ▸ h.once⟩

/-! ### Looks -/

/-- What a look reports is added to the counts. -/
theorem look (h : r.Tallied tick es) {r' : Round σ R} {seen : List Event}
    (hseen : ∀ e ∈ seen, e.IsLook) (hevents : r'.events = r.events ++ seen)
    (hreport : r'.report = r.report.look seen) (hfailed : r'.failed = r.failed) :
    r'.Tallied tick (es ++ seen) := by
  have hexecutors : seen.filterMap Event.executors? = [] :=
    List.filterMap_eq_nil_iff.2 fun e he => (hseen e he).executors
  have hfailing : seen.filterMap Event.failing? = [] :=
    List.filterMap_eq_nil_iff.2 fun e he => (hseen e he).failing
  have hunmet : seen.filterMap Event.unmet? = [] :=
    List.filterMap_eq_nil_iff.2 fun e he => (hseen e he).unmet
  have hrequested : markCount .requested seen = 0 :=
    List.countP_eq_zero.2 fun e he => (hseen e he).not_requested
  constructor
  case events => rw [hevents, h.events, List.cons_append]
  case told =>
    intro e he
    exact (List.mem_append.1 he).elim (h.told e) fun he => .inl (hseen e he).marked
  case report =>
    rw [hreport, h.report]
    simp [TickReport.look, TickReport.ofEvents, TickReport.uncounted, hexecutors, hunmet,
      hrequested]
  case failed => rw [hfailed, h.failed, List.filterMap_append, hfailing, List.append_nil]
  case once => exact hfailed ▸ h.once

theorem pollEntry [NodeRegistry R ρ] (h : r.Tallied tick es) (now : Time) (o : Outstanding ρ) :
    ∃ es', (Round.pollEntry now r o).Tallied tick es' := by
  rw [pollEntry_eq]
  exact ⟨_, h.look (Fate.isLook_of_mem_events now o _) (by simp [settle])
    (Fate.count_eq _ now o _) rfl⟩

theorem pollLate (h : r.Tallied tick es) (a : Abandoned ρ) :
    ∃ es', (Round.pollLate r a).Tallied tick es' := by
  rw [pollLate_eq]
  refine ⟨_, h.look a.isLook_of_mem_events rfl ?_ rfl⟩
  rw [Abandoned.count_eq]

theorem foldl (h : r.Tallied tick es) {α : Type} {f : Round σ R → α → Round σ R}
    (hf : ∀ r es x, r.Tallied tick es → ∃ es', (f r x).Tallied tick es') (xs : List α) :
    ∃ es', (xs.foldl f r).Tallied tick es' := by
  induction xs generalizing r es with
  | nil => exact ⟨es, h⟩
  | cons x xs ih =>
    obtain ⟨es', h'⟩ := hf r es x h
    exact ih h'

theorem pollOutstanding [NodeRegistry R ρ] (h : r.Tallied tick es) (now : Time) :
    ∃ es', (r.pollOutstanding now).Tallied tick es' := by
  have hbegun : ({ r with loop := { r.loop with outstanding := [] } } : Round σ R).Tallied tick
      es := h.of_eq rfl rfl rfl
  exact hbegun.foldl (fun _ _ o h => h.pollEntry now o) r.loop.outstanding

theorem pollAbandoned (h : r.Tallied tick es) : ∃ es', r.pollAbandoned.Tallied tick es' := by
  have hbegun : ({ r with loop := { r.loop with abandoned := [] } } : Round σ R).Tallied tick
      es := h.of_eq rfl rfl rfl
  exact hbegun.foldl (fun _ _ a h => h.pollLate a) r.loop.abandoned

/-- A tick that has looked at all there is. -/
theorem polled [NodeRegistry R ρ] (now : Time) (registry : R) (p : Provisioner σ) :
    ∃ es, (p.polled now registry).Tallied (p.ticks + 1) es := by
  obtain ⟨_, h⟩ := (tallied_start p registry).pollOutstanding now
  exact h.pollAbandoned

/-! ### Turns of sources -/

/-- What a reply brings is added to the counts.  A source that has failed is passed over, so it
does not fail again. -/
theorem receive {a : Asking σ R} (h : a.round.Tallied tick es) (now : Time) (account : Account)
    (workload : Nat) (sources : SourceSet σ) {reply : Reply ρ}
    (hpassed : reply = .passedOver ↔ account.source ∈ a.round.failed) :
    (a.receive now account workload sources reply).round.Tallied tick
      (es ++ reply.events now account a.round.loop.nextId) := by
  constructor
  case events => rw [Asking.receive, h.events, List.cons_append]
  case told =>
    intro e he
    exact (List.mem_append.1 he).elim (h.told e) (reply.isTold_of_mem_events now account _)
  case report =>
    rw [Asking.receive, h.report]
    exact (reply.ofEvents_append now account _ tick es).symm
  case failed => rw [List.filterMap_append, Reply.failing_events, ← h.failed]; rfl
  case once =>
    have hfirst (hne : reply ≠ .passedOver) : (a.round.failed ++ [account.source]).Nodup := by
      rw [← List.concat_eq_append]
      exact h.once.concat (mt hpassed.2 hne)
    cases reply with
    | unsure e => exact hfirst (by simp)
    | failed e => exact hfirst (by simp)
    | _ => simpa [Asking.receive] using h.once

theorem askSources {a : Asking σ R} (h : a.round.Tallied tick es) (now : Time)
    (label : Option Label) (remaining : Nat) {ns : List SourceName}
    (hns : ∀ n ∈ ns, n ∈ a.round.loop.sources.names) :
    ∃ es', (Round.askSources now label remaining ns a).round.Tallied tick es' := by
  refine askSources_kept (P := fun a => ∃ es', a.round.Tallied tick es') ?_ hns ⟨es, h⟩
  rintro a n sources reply hears ⟨es', h'⟩
  exact ⟨_, h'.receive now _ _ sources hears.passed⟩

theorem demandUnmet (h : r.Tallied tick es) (label : Option Label) (excess : Nat) :
    ({ r with
      events := r.events ++ [.demandUnmet label excess]
      report := { r.report with unmet := r.report.unmet ++ [label] } } : Round σ R).Tallied tick
        (es ++ [.demandUnmet label excess]) where
  events := by rw [h.events, List.cons_append]
  told e he := (List.mem_append.1 he).elim (h.told e) fun he =>
    List.mem_singleton.1 he ▸ .inr (.inr rfl)
  report := by
    have hexecutors : [Event.demandUnmet label excess].filterMap Event.executors? = [] := rfl
    rw [h.report]
    simp [TickReport.ofEvents, TickReport.uncounted, markCount, Event.isMarked, Event.mark?,
      hexecutors, Event.unmet?]
  failed := by rw [List.filterMap_append, ← h.failed]; exact (List.append_nil _).symm
  once := h.once

theorem evaluate (h : r.Tallied tick es) (now : Time) (d : Demand) :
    ∃ es', (r.evaluate now d).Tallied tick es' := by
  obtain ⟨es', h'⟩ := askSources (a := ⟨r, 0, false, false⟩) h now d.label
    (d.excess - r.loop.ledger.promisedForLabel d.label) fun n hn => hn
  unfold Round.evaluate
  dsimp only
  split
  · exact ⟨es, h⟩
  · split
    · exact ⟨es' ++ [.demandUnmet d.label d.excess], h'.demandUnmet d.label d.excess⟩
    · exact ⟨es', h'⟩

theorem evaluateAll (h : r.Tallied tick es) (now : Time) (demands : List Demand) :
    ∃ es', (r.evaluateAll now demands).Tallied tick es' :=
  h.foldl (fun _ _ d h => h.evaluate now d) demands

end Tallied

end Round

/-! ## The balance of the list -/

/-- The completion has been read before. -/
def Completion.isSpent {ρ : Type} : Completion ρ → Bool
  | spent => true
  | _ => false

/-- How many ends of capacity in flight the events report. -/
def endCount (es : List Event) : Nat :=
  markCount .succeeded es + markCount .failed es + markCount .timedOut es + markCount .duplicate es

theorem endCount_append (es es' : List Event) :
    endCount (es ++ es') = endCount es + endCount es' := by
  simp only [endCount, markCount_append]
  omega

theorem Work.Grows.endCount_eq {σ ρ : Type} [CapacitySource σ ρ] {w w' : Work σ}
    {new : List (Outstanding ρ)} {es : List Event} (h : w.Grows w' new es) : endCount es = 0 := by
  simp [endCount, h.markCount_eq]

/-- The entry still waits and its time is not up. -/
def Outstanding.survives {ρ : Type} (now : Time) (timeout : Option Duration)
    (o : Outstanding ρ) : Bool :=
  o.planned.completion.isWaiting && !Round.timedOut now timeout o.planned

section Balance

variable {ρ : Type} {now : Time} {timeout : Option Duration} {fs : List (Outstanding ρ × Fate ρ)}

theorem Outstanding.Meets.keeps_eq {o : Outstanding ρ} {f : Fate ρ} (h : o.Meets now timeout f) :
    f.keeps o = [o].filter (·.survives now timeout) := by
  rw [List.filter_cons, List.filter_nil, survives]
  cases h with
  | kept state time | lapsed state time => rw [state, time]; rfl
  | registered state | duplicate state | refused state | failed state | spent state =>
    rw [state]
    rfl

/-- An entry stays, or an event says how it came to an end, or it was spent. -/
theorem Outstanding.Meets.length_eq {o : Outstanding ρ} {f : Fate ρ} (h : o.Meets now timeout f) :
    1 = (f.keeps o).length + endCount (f.events now o) +
      [o].countP (·.planned.completion.isSpent) := by
  rw [List.countP_singleton]
  cases h with
  | kept state _ | lapsed state _ => rw [state]; rfl
  | registered state | duplicate state | refused state | failed state | spent state =>
    rw [state]
    rfl

theorem keeps_fates (h : ∀ f ∈ fs, f.1.Meets now timeout f.2) :
    (fs.flatMap fun f => f.2.keeps f.1) = (fs.map Prod.fst).filter (·.survives now timeout) := by
  induction fs with
  | nil => rfl
  | cons f fs ih =>
    rw [List.flatMap_cons, (h f List.mem_cons_self).keeps_eq,
      ih fun f hf => h f (List.mem_cons_of_mem _ hf), List.map_cons, ← List.filter_append,
      List.singleton_append]

theorem length_fates (h : ∀ f ∈ fs, f.1.Meets now timeout f.2) :
    (fs.map Prod.fst).length = (fs.flatMap fun f => f.2.keeps f.1).length +
      endCount (fs.flatMap fun f => f.2.events now f.1) +
      (fs.map Prod.fst).countP (·.planned.completion.isSpent) := by
  induction fs with
  | nil => rfl
  | cons f fs ih =>
    have hone := (h f List.mem_cons_self).length_eq
    have hrest := ih fun f hf => h f (List.mem_cons_of_mem _ hf)
    rw [List.map_cons, ← List.singleton_append, List.length_append, List.countP_append,
      List.flatMap_cons, List.length_append, List.flatMap_cons, endCount_append,
      List.length_singleton]
    omega

end Balance

theorem Abandoned.endCount_events {ρ : Type} (as : List (Abandoned ρ)) :
    endCount (as.flatMap Abandoned.events) = 0 := by
  induction as with
  | nil => rfl
  | cons a as ih =>
    rw [List.flatMap_cons, endCount_append, ih, Abandoned.events]
    cases a.lateNode? <;> rfl

namespace Provisioner

variable {σ R ρ : Type} [CapacitySource σ ρ] [NodeRegistry R ρ]

theorem keptAt_eq (now : Time) (registry : R) (p : Provisioner σ) :
    p.keptAt now registry = p.outstanding.filter (·.survives now p.timeout) := by
  have h := keeps_fates fun f (hf : f ∈ p.fatesAt now registry) => (meets_of_mem_fates hf).2
  rwa [← keptAt, fatesAt, map_fst_fates] at h

theorem length_outstanding (now : Time) (registry : R) (p : Provisioner σ) :
    p.outstanding.length = (p.keptAt now registry).length + endCount (p.eventsAt now registry) +
      p.outstanding.countP (·.planned.completion.isSpent) := by
  have h := length_fates fun f (hf : f ∈ p.fatesAt now registry) => (meets_of_mem_fates hf).2
  rwa [← keptAt, fatesAt, map_fst_fates, ← fatesAt, ← Nat.add_zero (endCount _),
    ← Abandoned.endCount_events (p.abandonedAt now registry), ← endCount_append] at h

theorem isLook_of_mem_eventsAt {now : Time} {registry : R} {p : Provisioner σ} {e : Event}
    (h : e ∈ p.eventsAt now registry) : e.IsLook := by
  rcases List.mem_append.1 h with h | h
  · obtain ⟨f, -, he⟩ := List.mem_flatMap.1 h
    exact f.2.isLook_of_mem_events now f.1 e he
  · obtain ⟨a, -, he⟩ := List.mem_flatMap.1 h
    exact a.isLook_of_mem_events e he

theorem ticks_act (p : Provisioner σ) (a : Act σ R) :
    (p.act a).2.ticks = p.ticks + if a.isTick then 1 else 0 := by
  cases a with
  | tick now demands registry =>
    obtain ⟨_, _, hg, -, -⟩ := Round.evaluateAll_asks now demands (p.polled now registry)
    rw [act, tick_eq, Round.finish, hg.loop, loop_polled]
    rfl
  | provision now actor source label workload =>
    obtain ⟨_, _, hg⟩ := provisionManually_grows now actor source label workload p
    rw [act, hg.loop]
    rfl
  | deliver id result => rw [act, deliver_eq]; rfl
  | addSource s =>
    simp only [act]
    split <;> rfl
  | removeSource name => rfl
  | changeSources sources => rfl

/-- Ticks are numbered in their order. -/
theorem ticks_run (p : Provisioner σ) (as : List (Act σ R)) :
    (p.run as).2.ticks = p.ticks + as.countP Act.isTick := by
  induction as generalizing p with
  | nil => rfl
  | cons a as ih =>
    rw [run, ih, ticks_act, List.countP_cons, Nat.add_assoc, Nat.add_comm (ite _ _ _)]

/-- What the events of a tick say between the first and the last of them, the report, and the
list of capacity in flight, which was that of `p` before and has `accepted` on top. -/
structure TickAccounts (p : Provisioner σ) (now : Time) (number : Nat) (round : Round σ R)
    (between : List Event) (accepted : List (Outstanding ρ)) : Prop where
  events : round.events = .tickStarted number :: between ++ [.tickFinished number
    round.report.requested round.report.registered (round.report.failed + round.report.timedOut)]
  told : ∀ e ∈ between, e.IsTold
  report : round.report = .ofEvents number between
  promised : (between.filterMap Event.executors?).sum < countLimit →
    round.report.promisedExecutors = (between.filterMap Event.executors?).sum
  failing : (between.filterMap Event.failing?).Nodup
  requested : between.filter (·.isMarked .requested) = accepted.map Outstanding.requested
  outstanding : round.loop.outstanding =
    p.outstanding.filter (·.survives now p.timeout) ++ accepted
  /-- A completion that has been read before leaves the list, and nothing is said of it. -/
  balance : round.loop.outstanding.length + round.report.registered + round.report.failed +
    round.report.timedOut + markCount .duplicate between +
    p.outstanding.countP (·.planned.completion.isSpent) =
      p.outstanding.length + round.report.requested

end Provisioner

open Provisioner

/-- The accounts of every tick that can follow a run: its report, its events and the list of
capacity in flight agree. -/
theorem accounts_of_tick {σ R ρ : Type} [CapacitySource σ ρ] [NodeRegistry R ρ]
    (sources : SourceSet σ) (guard : Guard) (timeout : Option Duration) (first : PlannedId)
    (acts : List (Act σ R)) (now : Time) (demands : List Demand) (registry : R) :
    let p := ((start sources guard timeout first).run acts).2
    ∃ between accepted, p.TickAccounts now (acts.countP Act.isTick + 1)
      (p.tick now demands registry) between accepted := by
  intro p
  have hticks : p.ticks = acts.countP Act.isTick :=
    (ticks_run _ acts).trans (Nat.zero_add _)
  rw [← hticks]
  obtain ⟨es, htally⟩ := Round.Tallied.polled now registry p
  obtain ⟨between, hall⟩ := htally.evaluateAll now demands
  obtain ⟨accepted, asked, hgrows, -, -⟩ :=
    Round.evaluateAll_asks now demands (p.polled now registry)
  -- the events of the looks, and then those of asking
  have hbetween : between = p.eventsAt now registry ++ asked := by
    have h := hgrows.events
    rw [hall.events, events_polled, List.cons_append] at h
    exact List.tail_eq_of_cons_eq h
  have hreport : (p.tick now demands registry).report = .ofEvents (p.ticks + 1) between := by
    rw [tick_eq, Round.finish, hall.report, hall.failed]
    rfl
  have hlooked : (p.eventsAt now registry).filter (·.isMarked .requested) = [] :=
    List.filter_eq_nil_iff.2 fun e he => (isLook_of_mem_eventsAt he).not_requested
  have hrequested :
      between.filter (·.isMarked .requested) = accepted.map Outstanding.requested := by
    rw [hbetween, List.filter_append, hlooked, hgrows.filter_requested, List.nil_append]
  have houtstanding : (p.tick now demands registry).loop.outstanding =
      p.keptAt now registry ++ accepted := by
    rw [tick_eq, Round.finish, hgrows.loop, loop_polled]
  refine ⟨between, accepted, ?_⟩
  constructor
  case events =>
    have htick : ((p.polled now registry).evaluateAll now demands).report.tick = p.ticks + 1 := by
      rw [hall.report]
      rfl
    rw [tick_eq, Round.finish, hall.events, htick]
  case told => exact hall.told
  case report => exact hreport
  case promised =>
    intro h
    rw [hreport]
    exact Nat.min_eq_left (Nat.le_sub_one_of_lt h)
  case failing => exact hall.failed ▸ hall.once
  case requested => exact hrequested
  case outstanding => rw [houtstanding, keptAt_eq]
  case balance =>
    have hends : endCount between = endCount (p.eventsAt now registry) := by
      rw [hbetween, endCount_append, hgrows.endCount_eq, Nat.add_zero]
    have hcount : markCount .requested between = accepted.length := by
      rw [markCount, List.countP_eq_length_filter, hrequested, List.length_map]
    have hbefore := p.length_outstanding now registry
    rw [← hends, endCount] at hbefore
    rw [houtstanding, List.length_append, hreport, hbefore]
    simp only [TickReport.ofEvents, hcount]
    omega

end Fleet
