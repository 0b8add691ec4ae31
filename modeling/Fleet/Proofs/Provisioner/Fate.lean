import Fleet.Provisioner.Tick

/-!
# What becomes of capacity at a tick

A tick looks at each capacity in flight once, and then at each abandoned one.  What the look
at an entry in flight comes to is its `Fate`: `Fate.of` reads it off the completion, the age
and the answer of the registry, and `fates` goes through the entries in order, handing the
registry on.  With the fates at hand the two looks are plain updates of the round
(`pollOutstanding_eq`, `pollAbandoned_eq`): every list in it grows by what each entry
contributes, and nothing else changes.
-/

namespace Fleet

/-- What looking at an entry in flight comes to. -/
inductive Fate (ρ : Type) where
  | kept
  /-- It took too long and is given up. -/
  | lapsed
  | registered (node : RealizedNode ρ)
  | duplicate (node back : RealizedNode ρ)
  /-- The registry could not take the node. -/
  | refused (error : RegistryError) (back : RealizedNode ρ)
  | failed (error : CompletionError)
  /-- The completion had been read before. -/
  | spent

/-- A node that is turned away is to be freed if it has a handle. -/
def RealizedNode.reclaims {ρ : Type} (node : RealizedNode ρ) : List (RealizedNode ρ) :=
  match node.release with
  | none => []
  | some _ => [node]

namespace Fate

variable {ρ : Type}

/-- The entry, if it stays in flight. -/
@[simp] def keeps (o : Outstanding ρ) : Fate ρ → List (Outstanding ρ)
  | kept => [o]
  | _ => []

@[simp] def abandons (o : Outstanding ρ) : Fate ρ → List (Abandoned ρ)
  | lapsed => [⟨o.planned.id, o.account.source, o.planned.completion⟩]
  | _ => []

@[simp] def events (now : Time) (o : Outstanding ρ) : Fate ρ → List Event
  | kept => []
  | lapsed => [.provisionTimedOut o.account.source o.account.label o.planned.id
      (timeoutMessage o.planned.id (o.planned.age now))]
  | registered node =>
    [.provisionSucceeded o.account.source o.account.label o.planned.id node.record.id]
  | duplicate node _ => [.duplicateNodeIgnored o.account.source o.planned.id node.record.id]
  | refused e _ => [.provisionFailed o.account.source o.account.label o.planned.id
      (CompletionError.rejected e.message).message]
  | failed e => [.provisionFailed o.account.source o.account.label o.planned.id e.message]
  | spent => []

/-- Only an entry that stays keeps its promise. -/
@[simp] def clear (o : Outstanding ρ) (l : Ledger) : Fate ρ → Ledger
  | kept => l
  | _ => (l.resolve o.planned.id).2

@[simp] def turnedAway : Fate ρ → List (RealizedNode ρ)
  | duplicate _ back => back.reclaims
  | refused _ back => back.reclaims
  | _ => []

@[simp] def count (report : TickReport) : Fate ρ → TickReport
  | kept => report
  | lapsed => { report with timedOut := report.timedOut + 1 }
  | registered _ => { report with registered := report.registered + 1 }
  | duplicate _ _ => report
  | refused _ _ => { report with failed := report.failed + 1 }
  | failed _ => { report with failed := report.failed + 1 }
  | spent => report

variable {R : Type} [NodeRegistry R ρ]

@[simp] def ofRegistration (node : RealizedNode ρ) : Registration ρ → Fate ρ
  | .added => registered node
  | .duplicate back => duplicate node back
  | .failed e back => refused e back

/-- The fate of an entry at `now`, and the registry after it. -/
def of (now : Time) (timeout : Option Duration) (registry : R) (o : Outstanding ρ) :
    Fate ρ × R :=
  match o.planned.completion with
  | .waiting => (if Round.timedOut now timeout o.planned then lapsed else kept, registry)
  | .unread (.ok node) =>
    (ofRegistration node (NodeRegistry.register node registry).1,
      (NodeRegistry.register node registry).2)
  | .unread (.error e) => (failed e, registry)
  | .spent => (spent, registry)

end Fate

/-- Which fates an entry can meet, by the state of its completion. -/
inductive Outstanding.Meets {ρ : Type} (now : Time) (timeout : Option Duration)
    (o : Outstanding ρ) : Fate ρ → Prop where
  | kept (waiting : o.planned.completion = .waiting)
      (early : Round.timedOut now timeout o.planned = false) : o.Meets now timeout .kept
  | lapsed (waiting : o.planned.completion = .waiting)
      (late : Round.timedOut now timeout o.planned = true) : o.Meets now timeout .lapsed
  | registered {node : RealizedNode ρ} (ready : o.planned.completion = .unread (.ok node)) :
      o.Meets now timeout (.registered node)
  | duplicate {node back : RealizedNode ρ} (ready : o.planned.completion = .unread (.ok node)) :
      o.Meets now timeout (.duplicate node back)
  | refused {node back : RealizedNode ρ} {e : RegistryError}
      (ready : o.planned.completion = .unread (.ok node)) : o.Meets now timeout (.refused e back)
  | failed {e : CompletionError} (ready : o.planned.completion = .unread (.error e)) :
      o.Meets now timeout (.failed e)
  | spent (spent : o.planned.completion = .spent) : o.Meets now timeout .spent

theorem Fate.of_meets {R ρ : Type} [NodeRegistry R ρ] (now : Time) (timeout : Option Duration)
    (registry : R) (o : Outstanding ρ) :
    o.Meets now timeout (Fate.of now timeout registry o).1 := by
  unfold Fate.of
  cases hc : o.planned.completion with
  | waiting =>
    cases ht : Round.timedOut now timeout o.planned with
    | true => exact .lapsed hc ht
    | false => exact .kept hc ht
  | unread result =>
    cases result with
    | error e => exact .failed hc
    | ok node =>
      dsimp only
      cases (NodeRegistry.register node registry).1 with
      | added => exact .registered hc
      | duplicate back => exact .duplicate hc
      | failed e back => exact .refused hc
  | spent => exact .spent hc

/-- The fates of entries in their order, and the registry after them. -/
def fates {R ρ : Type} [NodeRegistry R ρ] (now : Time) (timeout : Option Duration) :
    R → List (Outstanding ρ) → List (Outstanding ρ × Fate ρ) × R
  | registry, [] => ([], registry)
  | registry, o :: os =>
    let (f, registry) := Fate.of now timeout registry o
    let (fs, registry) := fates now timeout registry os
    ((o, f) :: fs, registry)

theorem meets_of_mem_fates {R ρ : Type} [NodeRegistry R ρ] {now : Time}
    {timeout : Option Duration} {registry : R} {os : List (Outstanding ρ)} {o : Outstanding ρ}
    {f : Fate ρ} (h : (o, f) ∈ (fates now timeout registry os).1) :
    o ∈ os ∧ o.Meets now timeout f := by
  induction os generalizing registry with
  | nil => cases h
  | cons o' os ih =>
    rcases List.mem_cons.1 h with he | h
    · cases he
      exact ⟨List.mem_cons_self, Fate.of_meets now timeout registry o⟩
    · exact (ih h).imp_left (List.mem_cons_of_mem o')

theorem map_fst_fates {R ρ : Type} [NodeRegistry R ρ] (now : Time) (timeout : Option Duration)
    (registry : R) (os : List (Outstanding ρ)) :
    (fates now timeout registry os).1.map Prod.fst = os := by
  induction os generalizing registry with
  | nil => rfl
  | cons o os ih => exact congrArg (o :: ·) (ih _)

namespace Round

variable {σ R ρ : Type} [CapacitySource σ ρ]

/-- The round after its entries have met their fates. -/
def settle (now : Time) (fs : List (Outstanding ρ × Fate ρ)) (registry : R) (r : Round σ R) :
    Round σ R where
  loop := { r.loop with
    ledger := fs.foldl (fun l f => f.2.clear f.1 l) r.loop.ledger
    outstanding := r.loop.outstanding ++ fs.flatMap fun f => f.2.keeps f.1
    abandoned := r.loop.abandoned ++ fs.flatMap fun f => f.2.abandons f.1 }
  events := r.events ++ fs.flatMap fun f => f.2.events now f.1
  calls := r.calls
  boots := r.boots
  registry
  report := fs.foldl (fun report f => f.2.count report) r.report
  failed := r.failed
  discarded := r.discarded ++ fs.flatMap fun f => f.2.turnedAway

theorem settle_append (now : Time) (fs fs' : List (Outstanding ρ × Fate ρ)) (registry registry' : R)
    (r : Round σ R) :
    (r.settle now fs registry).settle now fs' registry' = r.settle now (fs ++ fs') registry' := by
  simp [settle, List.append_assoc]

theorem discard_eq (node : RealizedNode ρ) (r : Round σ R) :
    r.discard node = { r with discarded := r.discarded ++ node.reclaims } := by
  unfold discard RealizedNode.reclaims
  cases node.release with
  | none => simp
  | some _ => rfl

variable [NodeRegistry R ρ]

theorem pollEntry_eq (now : Time) (r : Round σ R) (o : Outstanding ρ) :
    pollEntry now r o = r.settle now [(o, (Fate.of now r.loop.timeout r.registry o).1)]
      (Fate.of now r.loop.timeout r.registry o).2 := by
  unfold pollEntry Fate.of
  cases hc : o.planned.completion with
  | waiting =>
    simp only [Completion.poll]
    cases timedOut now r.loop.timeout o.planned with
    | true => simp [settle, abandon, clearPromise, hc]
    | false => simp [settle, keep]
  | unread result =>
    cases result with
    | error e => simp [settle, Completion.poll, clearPromise, completionFailed]
    | ok node =>
      simp only [Completion.poll, merge, clearPromise]
      cases hr : NodeRegistry.register node r.registry with
      | mk answer registry =>
        cases answer with
        | added => simp [settle]
        | duplicate back => simp [settle, discard_eq, Round.emit, Work.emit]
        | failed e back => simp [settle, discard_eq, completionFailed]
  | spent => simp [settle, Completion.poll, clearPromise]

theorem foldl_pollEntry (now : Time) (os : List (Outstanding ρ)) (r : Round σ R) :
    os.foldl (pollEntry now) r =
      r.settle now (fates now r.loop.timeout r.registry os).1
        (fates now r.loop.timeout r.registry os).2 := by
  induction os generalizing r with
  | nil => simp [settle, fates]
  | cons o os ih =>
    rw [List.foldl_cons, pollEntry_eq, ih, settle_append]
    rfl

theorem pollOutstanding_eq (now : Time) (r : Round σ R) :
    r.pollOutstanding now =
      settle now (fates now r.loop.timeout r.registry r.loop.outstanding).1
        (fates now r.loop.timeout r.registry r.loop.outstanding).2
        { r with loop := { r.loop with outstanding := [] } } :=
  foldl_pollEntry now r.loop.outstanding { r with loop := { r.loop with outstanding := [] } }

end Round

/-! ## Abandoned capacity -/

namespace Abandoned

variable {ρ : Type}

/-- The node that arrived for abandoned capacity. -/
def lateNode? (a : Abandoned ρ) : Option (RealizedNode ρ) :=
  match a.completion with
  | .unread (.ok node) => some node
  | _ => none

def events (a : Abandoned ρ) : List Event :=
  a.lateNode?.toList.map fun node => .lateCompletionDiscarded a.source a.planned node.record.id

def turnedAway (a : Abandoned ρ) : List (RealizedNode ρ) :=
  a.lateNode?.toList.flatMap RealizedNode.reclaims

end Abandoned

namespace Round

variable {σ R ρ : Type} [CapacitySource σ ρ]

theorem pollLate_eq (r : Round σ R) (a : Abandoned ρ) :
    pollLate r a = { r with
      loop := { r.loop with
        abandoned := r.loop.abandoned ++ [a].filter (·.completion.isWaiting) }
      events := r.events ++ a.events
      report := { r.report with
        lateDiscarded := r.report.lateDiscarded + a.lateNode?.toList.length }
      discarded := r.discarded ++ a.turnedAway } := by
  unfold pollLate Abandoned.turnedAway Abandoned.events Abandoned.lateNode?
  cases hc : a.completion with
  | waiting => simp [Completion.poll, Completion.isWaiting, hc]
  | unread result =>
    cases result with
    | error e => simp [Completion.poll, Completion.isWaiting, hc]
    | ok node =>
      simp [Completion.poll, Completion.isWaiting, hc, discard_eq, Round.emit, Work.emit]
  | spent => simp [Completion.poll, Completion.isWaiting, hc]

theorem foldl_pollLate (as : List (Abandoned ρ)) (r : Round σ R) :
    as.foldl pollLate r = { r with
      loop := { r.loop with
        abandoned := r.loop.abandoned ++ as.filter (·.completion.isWaiting) }
      events := r.events ++ as.flatMap Abandoned.events
      report := { r.report with
        lateDiscarded := r.report.lateDiscarded + (as.flatMap (·.lateNode?.toList)).length }
      discarded := r.discarded ++ as.flatMap Abandoned.turnedAway } := by
  induction as generalizing r with
  | nil => simp
  | cons a as ih =>
    rw [List.foldl_cons, ih, pollLate_eq]
    simp only [List.append_assoc, List.flatMap_cons, ← List.filter_append, List.singleton_append,
      List.length_append, Nat.add_assoc]

theorem pollAbandoned_eq (r : Round σ R) :
    r.pollAbandoned = { r with
      loop := { r.loop with abandoned := r.loop.abandoned.filter (·.completion.isWaiting) }
      events := r.events ++ r.loop.abandoned.flatMap Abandoned.events
      report := { r.report with
        lateDiscarded := r.report.lateDiscarded +
          (r.loop.abandoned.flatMap (·.lateNode?.toList)).length }
      discarded := r.discarded ++ r.loop.abandoned.flatMap Abandoned.turnedAway } := by
  rw [pollAbandoned, foldl_pollLate]
  simp

end Round

/-! ## Both looks -/

namespace Provisioner

variable {σ R ρ : Type} [CapacitySource σ ρ] [NodeRegistry R ρ]

/-- What becomes of the capacity in flight at a tick. -/
def fatesAt (now : Time) (registry : R) (p : Provisioner σ) : List (Outstanding ρ × Fate ρ) :=
  (fates now p.timeout registry p.outstanding).1

/-- The entries that stay in flight. -/
def keptAt (now : Time) (registry : R) (p : Provisioner σ) : List (Outstanding ρ) :=
  (p.fatesAt now registry).flatMap fun f => f.2.keeps f.1

/-- What counts as abandoned once a tick has looked at the capacity in flight. -/
def abandonedAt (now : Time) (registry : R) (p : Provisioner σ) : List (Abandoned ρ) :=
  p.abandoned ++ (p.fatesAt now registry).flatMap fun f => f.2.abandons f.1

/-- The events of both looks. -/
def eventsAt (now : Time) (registry : R) (p : Provisioner σ) : List Event :=
  ((p.fatesAt now registry).flatMap fun f => f.2.events now f.1) ++
    (p.abandonedAt now registry).flatMap Abandoned.events

/-- A tick that has looked at all there is and has not yet asked for more. -/
def polled (now : Time) (registry : R) (p : Provisioner σ) : Round σ R :=
  ((Round.start p registry).pollOutstanding now).pollAbandoned

theorem tick_eq (now : Time) (demands : List Demand) (registry : R) (p : Provisioner σ) :
    p.tick now demands registry = ((p.polled now registry).evaluateAll now demands).finish := rfl

theorem loop_polled (now : Time) (registry : R) (p : Provisioner σ) :
    (p.polled now registry).loop = { p with
      ledger := (p.fatesAt now registry).foldl (fun l f => f.2.clear f.1 l) p.ledger
      outstanding := p.keptAt now registry
      abandoned := (p.abandonedAt now registry).filter (·.completion.isWaiting)
      ticks := p.ticks + 1 } := by
  rw [polled, Round.pollAbandoned_eq, Round.pollOutstanding_eq]
  rfl

theorem events_polled (now : Time) (registry : R) (p : Provisioner σ) :
    (p.polled now registry).events = .tickStarted (p.ticks + 1) :: p.eventsAt now registry := by
  rw [polled, Round.pollAbandoned_eq, Round.pollOutstanding_eq]
  rfl

theorem registry_polled (now : Time) (registry : R) (p : Provisioner σ) :
    (p.polled now registry).registry = (fates now p.timeout registry p.outstanding).2 := by
  rw [polled, Round.pollAbandoned_eq, Round.pollOutstanding_eq]
  rfl

theorem calls_polled (now : Time) (registry : R) (p : Provisioner σ) :
    (p.polled now registry).calls = [] := by
  rw [polled, Round.pollAbandoned_eq, Round.pollOutstanding_eq]
  rfl

theorem failed_polled (now : Time) (registry : R) (p : Provisioner σ) :
    (p.polled now registry).failed = [] := by
  rw [polled, Round.pollAbandoned_eq, Round.pollOutstanding_eq]
  rfl

end Provisioner

end Fleet
