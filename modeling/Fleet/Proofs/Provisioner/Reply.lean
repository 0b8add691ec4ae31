import Fleet.Proofs.Ledger
import Fleet.Proofs.Source
import Fleet.Provisioner.Manual
import Fleet.Provisioner.Tick

/-!
# What a source replies

Asking a source for one demand comes to a `Reply`: it is passed over, or it fails, declines
or grants offers.  `Round.askSource_eq` says that the whole of asking is one update by the
reply (`Round.Asking.receive`): the calls are logged, a failure is reported and remembered,
and what is granted is tracked under the next ids (`taken`).  What this update keeps, all the
turns of a demand keep (`Round.askSources_kept`).
-/

namespace Fleet

namespace Outstanding

variable {ρ : Type}

def promise (o : Outstanding ρ) : Promise := ⟨o.planned.id, o.account, o.planned.promised⟩

/-- The event that reports an entry when it is tracked. -/
def requested (o : Outstanding ρ) : Event :=
  .provisionRequested o.account.source o.account.label o.planned.id o.planned.promised
    o.planned.description

end Outstanding

/-- The ledger after the promises of new entries. -/
def Ledger.recordAll {ρ : Type} (l : Ledger) (os : List (Outstanding ρ)) : Ledger :=
  os.foldl (fun l o => l.record o.account o.planned.id o.planned.promised) l

/-! ## Offers taken -/

section Taken

variable {ρ : Type}

/-- The entries that offers become, numbered from `id`. -/
def taken (now : Time) (account : Account) :
    PlannedId → List (Offer ρ) → List (Outstanding ρ)
  | _, [] => []
  | id, o :: os =>
    ⟨⟨id, o.description, o.promised, o.completion, now.before o.age⟩, account⟩ ::
      taken now account (id + 1) os

/-- The boots that come with offers. -/
def started : PlannedId → List (Offer ρ) → List (PlannedId × Boot ρ)
  | _, [] => []
  | id, o :: os => (o.boot.map fun b => (id, b)).toList ++ started (id + 1) os

variable (now : Time) (account : Account)

theorem length_taken (id : PlannedId) (offers : List (Offer ρ)) :
    (taken now account id offers).length = offers.length := by
  induction offers generalizing id with
  | nil => rfl
  | cons o os ih => exact congrArg (· + 1) (ih (id + 1))

theorem map_id_taken (id : PlannedId) (offers : List (Offer ρ)) :
    (taken now account id offers).map (·.planned.id) = List.range' id offers.length := by
  induction offers generalizing id with
  | nil => rfl
  | cons o os ih =>
    rw [List.length_cons, List.range'_succ, ← ih]
    rfl

theorem taken_eq_zipWith (id : PlannedId) (offers : List (Offer ρ)) :
    taken now account id offers = List.zipWith (fun id o =>
      ⟨⟨id, o.description, o.promised, o.completion, now.before o.age⟩, account⟩)
        (List.range' id offers.length) offers := by
  induction offers generalizing id with
  | nil => rfl
  | cons o os ih =>
    rw [List.length_cons, List.range'_succ, List.zipWith_cons_cons, ← ih]
    rfl

theorem map_promised_taken (id : PlannedId) (offers : List (Offer ρ)) :
    (taken now account id offers).map (·.planned.promised) = offers.map (·.promised) := by
  induction offers generalizing id with
  | nil => rfl
  | cons o os ih => exact congrArg (o.promised :: ·) (ih (id + 1))

theorem account_of_mem_taken {id : PlannedId} {offers : List (Offer ρ)} {o : Outstanding ρ}
    (h : o ∈ taken now account id offers) : o.account = account := by
  induction offers generalizing id with
  | nil => cases h
  | cons _ _ ih =>
    rcases List.mem_cons.1 h with rfl | h
    · rfl
    · exact ih h

end Taken

namespace Work

variable {σ ρ : Type} [CapacitySource σ ρ]

theorem accept_eq (now : Time) (account : Account) (offers : List (Offer ρ)) (w : Work σ) :
    w.accept now account offers = {
      loop := { w.loop with
        ledger := w.loop.ledger.recordAll (taken now account w.loop.nextId offers)
        outstanding := w.loop.outstanding ++ taken now account w.loop.nextId offers
        nextId := w.loop.nextId + offers.length }
      events := w.events ++ (taken now account w.loop.nextId offers).map Outstanding.requested
      calls := w.calls
      boots := w.boots ++ started w.loop.nextId offers } := by
  induction offers generalizing w with
  | nil => simp [accept, taken, started, Ledger.recordAll]
  | cons o os ih =>
    rw [accept, List.foldl_cons, ← accept, ih]
    simp only [acceptOffer, taken, started, Ledger.recordAll, List.foldl_cons, List.map_cons,
      List.length_cons, List.append_assoc, List.singleton_append, Nat.add_assoc,
      Nat.add_comm 1, Outstanding.requested]

/-! ## Single calls -/

/-- The work after calls that left the sources as `sources`. -/
def called (sources : SourceSet σ) (calls : List SourceCall) (w : Work σ) : Work σ :=
  { w with loop := { w.loop with sources }, calls := w.calls ++ calls }

theorem askCan_of_answer {account : Account} {w : Work σ} {answer : Except RequestError Bool}
    {sources : SourceSet σ} (h : w.loop.sources.canProvision account.source account.label =
      (some answer, sources)) :
    w.askCan account =
      (answer, w.called sources [.canProvision account.source account.label answer]) := by
  rw [askCan, h]
  rfl

theorem askFor_of_offers (now : Time) {account : Account} {workload : Nat} {w : Work σ}
    {offers : List (Offer ρ)} {sources : SourceSet σ}
    (h : w.loop.sources.provision account.source account.label workload =
      (some (.ok offers), sources)) :
    w.askFor now account workload =
      (.ok (List.range' w.loop.nextId offers.length,
          offers.foldl (fun n o => addCounts n o.promised) 0),
        (w.called sources [.provision account.source account.label workload
          (.ok (List.range' w.loop.nextId offers.length))]).accept now account offers) := by
  rw [askFor, h]
  rfl

theorem askFor_of_error (now : Time) {account : Account} {workload : Nat} {w : Work σ}
    {e : RequestError} {sources : SourceSet σ}
    (h : w.loop.sources.provision account.source account.label workload =
      (some (.error e), sources)) :
    w.askFor now account workload = (.error e, requestFailed account e
      (w.called sources [.provision account.source account.label workload (.error e)])) := by
  rw [askFor, h]
  rfl

theorem askCan_eq {account : Account} {w : Work σ} {s : σ}
    (h : w.loop.sources.get? account.source = some s) :
    w.askCan account = ((CapacitySource.canProvision account.label s).1,
      w.called (w.loop.sources.canProvision account.source account.label).2
        [.canProvision account.source account.label
          (CapacitySource.canProvision account.label s).1]) :=
  askCan_of_answer (SourceSet.canProvision_of_get? h account.label)

/-- Asking for capacity either fails, which is reported, or tracks what is offered. -/
theorem askFor_eq (now : Time) {account : Account} (workload : Nat) {w : Work σ} {s : σ}
    (h : w.loop.sources.get? account.source = some s) :
    let sources := (w.loop.sources.provision account.source account.label workload).2
    (∃ e, (CapacitySource.provision account.label workload s).1 = .error e ∧
      w.askFor now account workload = (.error e, requestFailed account e
        (w.called sources [.provision account.source account.label workload (.error e)]))) ∨
    ∃ offers, (CapacitySource.provision account.label workload s).1 = .ok offers ∧
      w.askFor now account workload =
        (.ok (List.range' w.loop.nextId offers.length,
            offers.foldl (fun n o => addCounts n o.promised) 0),
          (w.called sources [.provision account.source account.label workload
            (.ok (List.range' w.loop.nextId offers.length))]).accept now account offers) := by
  intro sources
  have hcall := SourceSet.provision_of_get? h account.label workload
  cases ha : (CapacitySource.provision account.label workload s).1 with
  | error e =>
    rw [ha] at hcall
    exact .inl ⟨e, rfl, askFor_of_error now hcall⟩
  | ok offers =>
    rw [ha] at hcall
    exact .inr ⟨offers, rfl, askFor_of_offers now hcall⟩

end Work

/-! ## Replies -/

/-- What asking a source for one demand comes to. -/
inductive Reply (ρ : Type) where
  /-- It had failed before and is not asked. -/
  | passedOver
  /-- It failed when asked whether it serves the label. -/
  | unsure (e : RequestError)
  | declined
  /-- It failed when asked for capacity. -/
  | failed (e : RequestError)
  | granted (offers : List (Offer ρ))

namespace Reply

variable {ρ : Type}

/-- The reply is what a source answers when it is asked for `workload` of a label. -/
def IsOf {σ : Type} [CapacitySource σ ρ] (label : Option Label) (workload : Nat) (s : σ) :
    Reply ρ → Prop
  | passedOver => True
  | unsure e => (CapacitySource.canProvision label s).1 = .error e
  | declined => (CapacitySource.canProvision label s).1 = .ok false
  | failed e => (CapacitySource.canProvision label s).1 = .ok true ∧
      (CapacitySource.provision label workload (CapacitySource.canProvision label s).2).1 =
        .error e
  | granted offers => (CapacitySource.canProvision label s).1 = .ok true ∧
      (CapacitySource.provision label workload (CapacitySource.canProvision label s).2).1 =
        .ok offers

@[simp] def offers : Reply ρ → List (Offer ρ)
  | granted offers => offers
  | _ => []

@[simp] def error? : Reply ρ → Option RequestError
  | unsure e => some e
  | failed e => some e
  | _ => none

/-- The calls behind a reply; what is granted is numbered from `id`. -/
@[simp] def calls (account : Account) (workload : Nat) (id : PlannedId) : Reply ρ → List SourceCall
  | passedOver => []
  | unsure e => [.canProvision account.source account.label (.error e)]
  | declined => [.canProvision account.source account.label (.ok false)]
  | failed e => [.canProvision account.source account.label (.ok true),
      .provision account.source account.label workload (.error e)]
  | granted offers => [.canProvision account.source account.label (.ok true),
      .provision account.source account.label workload (.ok (List.range' id offers.length))]

/-- A count of executors that goes on by what is granted. -/
@[simp] def addTo (n : Nat) : Reply ρ → Nat
  | granted offers => addCounts n (offers.foldl (fun n o => addCounts n o.promised) 0)
  | _ => n

@[simp] def isCapable : Reply ρ → Bool
  | failed _ => true
  | granted _ => true
  | _ => false

@[simp] def isSkipped : Reply ρ → Bool
  | passedOver => true
  | unsure _ => true
  | _ => false

/-- The entries that a reply adds. -/
@[simp] def entries (now : Time) (account : Account) (id : PlannedId) (reply : Reply ρ) :
    List (Outstanding ρ) :=
  taken now account id reply.offers

@[simp] def events (now : Time) (account : Account) (id : PlannedId) (reply : Reply ρ) :
    List Event :=
  (reply.error?.toList.map fun e => .requestFailed account.source account.label e.message) ++
    (reply.entries now account id).map Outstanding.requested

end Reply

namespace Round

variable {σ R ρ : Type} [CapacitySource σ ρ]

/-- The asking after a reply that left the sources as `sources`. -/
def Asking.receive (now : Time) (account : Account) (workload : Nat) (sources : SourceSet σ)
    (reply : Reply ρ) (a : Asking σ R) : Asking σ R where
  round := { a.round with
    loop := { a.round.loop with
      sources
      ledger := a.round.loop.ledger.recordAll (reply.entries now account a.round.loop.nextId)
      outstanding := a.round.loop.outstanding ++ reply.entries now account a.round.loop.nextId
      nextId := a.round.loop.nextId + reply.offers.length }
    events := a.round.events ++ reply.events now account a.round.loop.nextId
    calls := a.round.calls ++ reply.calls account workload a.round.loop.nextId
    boots := a.round.boots ++ started a.round.loop.nextId reply.offers
    report := { a.round.report with
      requested := a.round.report.requested + reply.offers.length
      promisedExecutors := reply.addTo a.round.report.promisedExecutors }
    failed := a.round.failed ++ reply.error?.toList.map fun _ => account.source }
  granted := reply.addTo a.granted
  capable := a.capable || reply.isCapable
  skipped := a.skipped || reply.isSkipped

/-- A source replies to an asking, and its calls leave the set as `sources`. -/
structure Asking.Hears (label : Option Label) (workload : Nat) (n : SourceName) (a : Asking σ R)
    (reply : Reply ρ) (sources : SourceSet σ) : Prop where
  passed : reply = .passedOver ↔ n ∈ a.round.failed
  own : ∃ s, a.round.loop.sources.get? n = some s ∧ reply.IsOf label workload s
  names : sources.names = a.round.loop.sources.names
  others : ∀ m, m ≠ n → sources.get? m = a.round.loop.sources.get? m

section Answers

variable {label : Option Label} {remaining : Nat} {n : SourceName} {a : Asking σ R}
  {sources sources' : SourceSet σ}

theorem askSource_of_unsure (now : Time) (hf : n ∉ a.round.failed) {e : RequestError}
    (hcan : a.round.toWork.askCan ⟨n, label⟩ =
      (.error e, a.round.toWork.called sources [.canProvision n label (.error e)])) :
    askSource now label remaining n a =
      a.receive now ⟨n, label⟩ (remaining - a.granted) sources (.unsure e) := by
  have hc : a.round.failed.contains n = false := by simpa using hf
  simp only [askSource, hc, hcan]
  simp [Work.called, Work.requestFailed, Work.emit, markFailed, Asking.receive, taken, started,
    Ledger.recordAll]

theorem askSource_of_declined (now : Time) (hf : n ∉ a.round.failed)
    (hcan : a.round.toWork.askCan ⟨n, label⟩ =
      (.ok false, a.round.toWork.called sources [.canProvision n label (.ok false)])) :
    askSource now label remaining n a =
      a.receive now ⟨n, label⟩ (remaining - a.granted) sources .declined := by
  have hc : a.round.failed.contains n = false := by simpa using hf
  simp only [askSource, hc, hcan]
  simp [Work.called, Asking.receive, taken, started, Ledger.recordAll]

theorem askSource_of_failed (now : Time) (hf : n ∉ a.round.failed) {e : RequestError}
    (hcan : a.round.toWork.askCan ⟨n, label⟩ =
      (.ok true, a.round.toWork.called sources [.canProvision n label (.ok true)]))
    (hfor : (a.round.toWork.called sources [.canProvision n label (.ok true)]).askFor now
        ⟨n, label⟩ (remaining - a.granted) =
      (.error e, Work.requestFailed ⟨n, label⟩ e
        ((a.round.toWork.called sources [.canProvision n label (.ok true)]).called sources'
          [.provision n label (remaining - a.granted) (.error e)]))) :
    askSource now label remaining n a =
      a.receive now ⟨n, label⟩ (remaining - a.granted) sources' (.failed e) := by
  have hc : a.round.failed.contains n = false := by simpa using hf
  simp only [askSource, hc, hcan, hfor]
  simp [Work.called, Work.requestFailed, Work.emit, markFailed, Asking.receive, taken, started,
    Ledger.recordAll]

theorem askSource_of_granted (now : Time) (hf : n ∉ a.round.failed) {offers : List (Offer ρ)}
    (hcan : a.round.toWork.askCan ⟨n, label⟩ =
      (.ok true, a.round.toWork.called sources [.canProvision n label (.ok true)]))
    (hfor : (a.round.toWork.called sources [.canProvision n label (.ok true)]).askFor now
        ⟨n, label⟩ (remaining - a.granted) =
      (.ok (List.range' a.round.loop.nextId offers.length,
          offers.foldl (fun n o => addCounts n o.promised) 0),
        ((a.round.toWork.called sources [.canProvision n label (.ok true)]).called sources'
          [.provision n label (remaining - a.granted)
            (.ok (List.range' a.round.loop.nextId offers.length))]).accept now ⟨n, label⟩
          offers)) :
    askSource now label remaining n a =
      a.receive now ⟨n, label⟩ (remaining - a.granted) sources' (.granted offers) := by
  have hc : a.round.failed.contains n = false := by simpa using hf
  simp only [askSource, hc, hcan, hfor]
  simp [Work.called, Work.accept_eq, Asking.receive]

end Answers

theorem askSource_eq (now : Time) (label : Option Label) (remaining : Nat) {n : SourceName}
    {a : Asking σ R} (h : n ∈ a.round.loop.sources.names) :
    ∃ reply sources, a.Hears label (remaining - a.granted) n reply sources ∧
      askSource now label remaining n a =
        a.receive now ⟨n, label⟩ (remaining - a.granted) sources reply := by
  obtain ⟨s, hs⟩ := SourceSet.get?_eq_some_of_mem h
  by_cases hf : n ∈ a.round.failed
  · refine ⟨.passedOver, a.round.loop.sources,
      ⟨by simp [hf], ⟨s, hs, trivial⟩, rfl, fun _ _ => rfl⟩, ?_⟩
    simp [askSource, hf, Asking.receive, taken, started, Ledger.recordAll]
  have hnames := SourceSet.names_canProvision a.round.loop.sources n label
  have hothers (m : SourceName) (hm : m ≠ n) :=
    SourceSet.get?_canProvision_of_ne a.round.loop.sources hm label
  have hw : a.round.toWork.askCan ⟨n, label⟩ = _ := Work.askCan_eq hs
  cases hcan : (CapacitySource.canProvision label s).1 with
  | error e =>
    rw [hcan] at hw
    exact ⟨.unsure e, _, ⟨by simp [hf], ⟨s, hs, hcan⟩, hnames, hothers⟩,
      askSource_of_unsure now hf hw⟩
  | ok serves =>
    rw [hcan] at hw
    cases serves with
    | false =>
      exact ⟨.declined, _, ⟨by simp [hf], ⟨s, hs, hcan⟩, hnames, hothers⟩,
        askSource_of_declined now hf hw⟩
    | true =>
      -- the source has answered once, and is asked for capacity as that has left it
      let w := a.round.toWork.called (a.round.loop.sources.canProvision n label).2
        [.canProvision n label (.ok true)]
      have hs' : w.loop.sources.get? (Account.mk n label).source = _ :=
        SourceSet.get?_canProvision hs label
      have hnames' := (SourceSet.names_provision w.loop.sources n label
        (remaining - a.granted)).trans hnames
      have hothers' (m : SourceName) (hm : m ≠ n) :=
        (SourceSet.get?_provision_of_ne w.loop.sources hm label (remaining - a.granted)).trans
          (hothers m hm)
      rcases Work.askFor_eq now (remaining - a.granted) hs' with
        ⟨e, hfor, he⟩ | ⟨offers, hfor, ho⟩
      · exact ⟨.failed e, _, ⟨by simp [hf], ⟨s, hs, hcan, hfor⟩, hnames', hothers'⟩,
          askSource_of_failed now hf hw he⟩
      · exact ⟨.granted offers, _, ⟨by simp [hf], ⟨s, hs, hcan, hfor⟩, hnames', hothers'⟩,
          askSource_of_granted now hf hw ho⟩

/-- What the update by each reply keeps is so when all sources have had their turn. -/
theorem askSources_kept {P : Asking σ R → Prop} {now : Time} {label : Option Label}
    {remaining : Nat}
    (hkept : ∀ {a : Asking σ R} {n : SourceName} {sources : SourceSet σ} {reply : Reply ρ},
      a.Hears label (remaining - a.granted) n reply sources →
        P a → P (a.receive now ⟨n, label⟩ (remaining - a.granted) sources reply))
    {ns : List SourceName} {a : Asking σ R} (hns : ∀ n ∈ ns, n ∈ a.round.loop.sources.names)
    (h : P a) : P (askSources now label remaining ns a) := by
  induction ns generalizing a with
  | nil => exact h
  | cons n ns ih =>
    unfold askSources
    split
    · exact h
    · obtain ⟨reply, sources, hears, ha⟩ :=
        askSource_eq now label remaining (hns n List.mem_cons_self)
      rw [ha]
      refine ih (fun m hm => ?_) (hkept hears h)
      exact hears.names ▸ hns m (List.mem_cons_of_mem n hm)

end Round

end Fleet
