import Fleet.Daemon
import Fleet.Proofs.Provisioner.Run

/-!
# Provisioning by hand is all or nothing

What an actor asks for by hand passes six checks.  `ByHand.failure?` says of each of them how it
fails, whatever the others do: it reads the guard, the workload and what the source answers, and
not the order in which the provisioner looks at them.  The answer is the failure of the first
check that has one (`ByHand.refusal?`), and a request that is refused leaves nothing but the calls
that its checks have made (`ByHand.Asked`).  If all checks pass, the source's offers are tracked
in their order and the answer is their ids.  `provision_by_hand` says so of a daemon whose
provisioner any run has reached.
-/

namespace Fleet

/-- Something asked for by hand. -/
structure ByHand where
  actor : Actor
  source : String
  label : Option Label
  workload : Nat

namespace ByHand

/-- What is checked of it. -/
inductive Check where
  /-- There is such a source. -/
  | known
  /-- The actor may provision from it. -/
  | permitted
  /-- Something is asked for. -/
  | positive
  /-- The source can say whether it serves the label. -/
  | answers
  /-- It serves the label. -/
  | serves
  /-- It can be asked for capacity. -/
  | provides
  deriving DecidableEq

def Check.inOrder : List Check := [.known, .permitted, .positive, .answers, .serves, .provides]

variable {σ ρ : Type} [CapacitySource σ ρ] (q : ByHand)

/-- Whether a source serves the label. -/
def serves (s : σ) : Except RequestError Bool := (CapacitySource.canProvision q.label s).1

/-- What a source offers once it has been asked whether it serves the label. -/
def offers (s : σ) : Except RequestError (List (Offer ρ)) :=
  (CapacitySource.provision q.label q.workload (CapacitySource.canProvision q.label s).2).1

/-- How one check fails; those after the first need a source. -/
def failure? (p : Provisioner σ) : Check → Option MutationError
  | .known => if (p.sources.named? q.source).isNone then some (.unknownSource q.source) else none
  | .permitted => (p.sources.named? q.source).bind fun s =>
      if p.guard.permits q.actor .provision (CapacitySource.name s) then none
      else some (.denied ⟨q.actor, .provision, CapacitySource.name s⟩)
  | .positive => if q.workload = 0 then some .zeroWorkload else none
  | .answers => (p.sources.named? q.source).bind fun s =>
      match q.serves s with
      | .error e => some (.request e)
      | .ok _ => none
  | .serves => (p.sources.named? q.source).bind fun s =>
      match q.serves s with
      | .ok false => some (.unsupportedLabel (CapacitySource.name s) q.label)
      | _ => none
  | .provides => (p.sources.named? q.source).bind fun s =>
      match q.offers s with
      | .error e => some (.request e)
      | .ok _ => none

/-- The first check that fails, and how. -/
def refusal? (p : Provisioner σ) : Option (Check × MutationError) :=
  Check.inOrder.findSome? fun c => (q.failure? p c).map fun e => (c, e)

theorem failure?_of_refusal? {p : Provisioner σ} {c : Check} {e : MutationError}
    (h : q.refusal? p = some (c, e)) : q.failure? p c = some e := by
  obtain ⟨c', -, hc⟩ := List.exists_of_findSome?_eq_some h
  obtain ⟨e', he, heq⟩ := Option.map_eq_some_iff.1 hc
  cases heq
  exact he

/-- What is asked of the sources up to the first check that fails, how that leaves them, and what
is reported of it. -/
inductive Asked (p : Provisioner σ) : Check → SourceSet σ → List SourceCall → List Event → Prop
  | unasked {c : Check} (early : c = .known ∨ c = .permitted ∨ c = .positive) :
      Asked p c p.sources [] []
  | whether {c : Check} {s : σ} (late : c = .answers ∨ c = .serves)
      (member : p.sources.named? q.source = some s) :
      Asked p c (p.sources.canProvision (CapacitySource.name s) q.label).2
        [.canProvision (CapacitySource.name s) q.label (q.serves s)] []
  | capacity {s : σ} {e : RequestError} (member : p.sources.named? q.source = some s)
      (served : q.serves s = .ok true) (failed : q.offers s = .error e) :
      Asked p .provides ((p.sources.canProvision (CapacitySource.name s) q.label).2.provision
          (CapacitySource.name s) q.label q.workload).2
        [.canProvision (CapacitySource.name s) q.label (.ok true),
          .provision (CapacitySource.name s) q.label q.workload (.error e)]
        [.requestFailed (CapacitySource.name s) q.label e.message]

/-- The work that has tracked what a source has offered. -/
def grantedWork (now : Time) (p : Provisioner σ) (s : σ) (offers : List (Offer ρ)) : Work σ :=
  let account : Account := ⟨CapacitySource.name s, q.label⟩
  let entries := taken now account p.nextId offers
  { loop := { p with
      sources := ((p.sources.canProvision account.source q.label).2.provision account.source
        q.label q.workload).2
      ledger := p.ledger.recordAll entries
      outstanding := p.outstanding ++ entries
      nextId := p.nextId + offers.length }
    events := entries.map Outstanding.requested
    calls := [.canProvision account.source q.label (.ok true),
      .provision account.source q.label q.workload
        (.ok (List.range' p.nextId offers.length))]
    boots := started p.nextId offers }

/-- How asking comes out. -/
inductive Outcome (now : Time) (p : Provisioner σ) :
    Except MutationError (List PlannedId) → Work σ → Prop
  | refused {c : Check} {e : MutationError} {sources : SourceSet σ} {calls : List SourceCall}
      {events : List Event} (first : q.refusal? p = some (c, e))
      (asked : q.Asked p c sources calls events) :
      Outcome now p (.error e) ⟨{ p with sources }, events, calls, []⟩
  | granted {s : σ} {offers : List (Offer ρ)} (passed : q.refusal? p = none)
      (member : p.sources.named? q.source = some s) (served : q.serves s = .ok true)
      (offered : q.offers s = .ok offers) :
      Outcome now p (.ok (List.range' p.nextId offers.length)) (q.grantedWork now p s offers)

section Work

variable {q} {p : Provisioner σ} {s : σ}

theorem canProvision_named (h : p.sources.named? q.source = some s) :
    p.sources.canProvision (CapacitySource.name s) q.label =
      (some (q.serves s), (p.sources.canProvision (CapacitySource.name s) q.label).2) :=
  SourceSet.canProvision_of_get? (SourceSet.get?_of_named? h) q.label

theorem provision_named (h : p.sources.named? q.source = some s) :
    (p.sources.canProvision (CapacitySource.name s) q.label).2.provision (CapacitySource.name s)
        q.label q.workload =
      (some (q.offers s), ((p.sources.canProvision (CapacitySource.name s) q.label).2.provision
        (CapacitySource.name s) q.label q.workload).2) :=
  SourceSet.provision_of_get? (SourceSet.get?_canProvision (SourceSet.get?_of_named? h) q.label) q.label
    q.workload

theorem Asked.names {c : Check} {sources : SourceSet σ} {calls : List SourceCall}
    {events : List Event} (h : q.Asked p c sources calls events) :
    sources.names = p.sources.names := by
  cases h with
  | unasked => rfl
  | whether => exact SourceSet.names_canProvision _ _ _
  | capacity =>
    exact (SourceSet.names_provision _ _ _ _).trans (SourceSet.names_canProvision _ _ _)

theorem grantedWork_grows (now : Time) (p : Provisioner σ) (s : σ) (offers : List (Offer ρ)) :
    Work.Grows (.begin p) (q.grantedWork now p s offers)
      (taken now ⟨CapacitySource.name s, q.label⟩ p.nextId offers)
      ((taken now ⟨CapacitySource.name s, q.label⟩ p.nextId offers).map Outstanding.requested)
      where
  loop := by
    rw [length_taken]
    rfl
  names := (SourceSet.names_provision _ _ _ _).trans (SourceSet.names_canProvision _ _ _)
  ids := by
    rw [map_id_taken, length_taken]
    rfl
  events := rfl
  requests := filter_planned?_requested _

/-- What follows once a source has been found, the actor may provision from it and something is
asked for. -/
theorem outcome_from (now : Time) (hs : p.sources.named? q.source = some s)
    (hpermits : p.guard.permits q.actor .provision (CapacitySource.name s) = true)
    (hpositive : q.workload ≠ 0) :
    q.Outcome now p
      ((Work.begin p).provisionFrom now ⟨CapacitySource.name s, q.label⟩ q.workload).1
      ((Work.begin p).provisionFrom now ⟨CapacitySource.name s, q.label⟩ q.workload).2 := by
  have hcan : (Work.begin p).askCan ⟨CapacitySource.name s, q.label⟩ = (q.serves s, _) :=
    Work.askCan_of_answer (canProvision_named hs)
  rw [Work.provisionFrom, if_neg hpositive, hcan]
  cases hserves : q.serves s with
  | error e =>
    refine .refused (c := .answers) (e := .request e) ?_ (hserves ▸ .whether (.inl rfl) hs)
    simp [refusal?, Check.inOrder, failure?, hs, hpermits, hpositive, hserves]
  | ok served =>
    cases served with
    | false =>
      refine .refused (c := .serves) (e := .unsupportedLabel (CapacitySource.name s) q.label) ?_
        (hserves ▸ .whether (.inr rfl) hs)
      simp [refusal?, Check.inOrder, failure?, hs, hpermits, hpositive, hserves]
    | true =>
      have hprovision := provision_named hs
      dsimp only
      cases hoffers : q.offers s with
      | error e =>
        rw [hoffers] at hprovision
        rw [Work.askFor_of_error now hprovision]
        refine .refused (c := .provides) (e := .request e) ?_ (.capacity hs hserves hoffers)
        simp [refusal?, Check.inOrder, failure?, hs, hpermits, hpositive, hserves, hoffers]
      | ok offers =>
        rw [hoffers] at hprovision
        rw [Work.askFor_of_offers now hprovision, Work.accept_eq]
        refine .granted ?_ hs hserves hoffers
        simp [refusal?, Check.inOrder, failure?, hs, hpermits, hpositive, hserves, hoffers]

end Work

/-- The provisioner makes these checks in this order. -/
theorem outcome (now : Time) (p : Provisioner σ) :
    q.Outcome now p (p.provisionManually now q.actor q.source q.label q.workload).1
      (p.provisionManually now q.actor q.source q.label q.workload).2 := by
  unfold Provisioner.provisionManually
  cases hs : p.sources.named? q.source with
  | none =>
    refine .refused (c := .known) ?_ (.unasked (.inl rfl))
    simp [refusal?, Check.inOrder, failure?, hs]
  | some s =>
    dsimp only
    by_cases hpermits : p.guard.permits q.actor .provision (CapacitySource.name s) = true
    · rw [Guard.check, if_pos hpermits]
      by_cases hpositive : q.workload = 0
      · rw [Work.provisionFrom, if_pos hpositive]
        refine .refused (c := .positive) ?_ (.unasked (.inr (.inr rfl)))
        simp [refusal?, Check.inOrder, failure?, hs, hpermits, hpositive]
      · exact outcome_from now hs hpermits hpositive
    · rw [Guard.check, if_neg hpermits]
      refine .refused (c := .permitted) ?_ (.unasked (.inr (.inl rfl)))
      simp [refusal?, Check.inOrder, failure?, hs, hpermits]

/-! ## What is left of a request -/

section Daemons

variable {q} {R : Type} {d : Daemon σ R}

/-- What a request that fails a check leaves of a daemon. -/
structure Refused (q : ByHand) (now : Time) (d d' : Daemon σ R) (c : Check)
    (calls : List SourceCall) (events : List Event) : Prop where
  asked : q.Asked d.loop c d'.loop.sources calls events
  /-- Nothing has changed but the sources, and what is noted of them. -/
  daemon : d' = d.absorb now ⟨{ d.loop with sources := d'.loop.sources }, events, calls, []⟩
  names : d'.loop.sources.names = d.loop.sources.names
  others : ∀ n, n.text ≠ q.source → d'.loop.sources.get? n = d.loop.sources.get? n
  capacity : d'.loop.ledger = d.loop.ledger ∧ d'.loop.outstanding = d.loop.outstanding ∧
    d'.loop.abandoned = d.loop.abandoned ∧ d'.loop.ticks = d.loop.ticks
  registry : d'.registry = d.registry ∧ d'.tasks = d.tasks
  provided : (∃ n label workload answer, .provision n label workload answer ∈ calls) ↔
    c = .provides
  told : match c with
    | .provides => ∃ n e, n.text = q.source ∧ q.failure? d.loop .provides = some (.request e) ∧
        events = [.requestFailed n q.label e.message]
    | _ => events = []

/-- What a request that passes all checks leaves of a daemon: the source has granted `offers`,
which are tracked as `entries`. -/
structure Granted (q : ByHand) (now : Time) (d d' : Daemon σ R) (ids : List PlannedId)
    (n : SourceName) (offers : List (Offer ρ)) (entries : List (Outstanding ρ)) : Prop where
  offered : ∃ s, d.loop.sources.named? q.source = some s ∧ CapacitySource.name s = n ∧
    q.serves s = .ok true ∧ q.offers s = .ok offers
  numbered : ids = List.range' d.loop.nextId offers.length
  tracked : entries = List.zipWith (fun id o =>
    ⟨⟨id, o.description, o.promised, o.completion, now.before o.age⟩, ⟨n, q.label⟩⟩) ids offers
  /-- Nothing else has changed; the source was asked for the workload as it stands. -/
  daemon : d' = d.absorb now {
    loop := { d.loop with
      sources := d'.loop.sources
      ledger := d'.loop.ledger
      outstanding := d.loop.outstanding ++ entries
      nextId := d.loop.nextId + offers.length }
    events := entries.map Outstanding.requested
    calls := [.canProvision n q.label (.ok true), .provision n q.label q.workload (.ok ids)]
    boots := started d.loop.nextId offers }
  names : d'.loop.sources.names = d.loop.sources.names
  others : ∀ m, m ≠ n → d'.loop.sources.get? m = d.loop.sources.get? m
  ledger : d'.loop.ledger.Coherent ∧
    d'.loop.ledger.flat.Perm (d.loop.ledger.flat ++ entries.map Outstanding.promise)
  registry : d'.registry = d.registry

theorem others_provision (p : Provisioner σ) {n m : SourceName} (hm : m ≠ n) :
    ((p.sources.canProvision n q.label).2.provision n q.label q.workload).2.get? m =
      p.sources.get? m :=
  (SourceSet.get?_provision_of_ne _ hm q.label q.workload).trans
    (SourceSet.get?_canProvision_of_ne p.sources hm q.label)

theorem Asked.others {p : Provisioner σ} {c : Check} {sources : SourceSet σ}
    {calls : List SourceCall} {events : List Event} (h : q.Asked p c sources calls events)
    {m : SourceName} (hm : m.text ≠ q.source) : sources.get? m = p.sources.get? m := by
  have hne {s : σ} (hs : p.sources.named? q.source = some s) : m ≠ CapacitySource.name s := by
    rintro rfl
    exact hm (SourceSet.text_of_named? hs)
  cases h with
  | unasked => rfl
  | whether late hs => exact SourceSet.get?_canProvision_of_ne p.sources (hne hs) q.label
  | capacity hs => exact others_provision p (hne hs)

theorem refused (now : Time) {c : Check} {sources : SourceSet σ} {calls : List SourceCall}
    {events : List Event} (h : q.Asked d.loop c sources calls events) :
    q.Refused now d (d.absorb now ⟨{ d.loop with sources }, events, calls, []⟩) c calls
      events where
  asked := h
  daemon := rfl
  names := h.names
  others _ hm := h.others hm
  capacity := ⟨rfl, rfl, rfl, rfl⟩
  registry := ⟨rfl, List.append_nil _⟩
  provided := by
    cases h with
    | unasked early => rcases early with rfl | rfl | rfl <;> simp
    | whether late => rcases late with rfl | rfl <;> simp
    | capacity => simp
  told := by
    cases h with
    | unasked early => rcases early with rfl | rfl | rfl <;> simp
    | whether late => rcases late with rfl | rfl <;> simp
    | @capacity s e hs served failed =>
      refine ⟨_, e, SourceSet.text_of_named? hs, ?_, rfl⟩
      simp [failure?, hs, failed]

theorem granted (now : Time) (h : d.loop.Sound) {s : σ} {offers : List (Offer ρ)}
    (hs : d.loop.sources.named? q.source = some s) (hserves : q.serves s = .ok true)
    (hoffers : q.offers s = .ok offers) :
    q.Granted now d (d.absorb now (q.grantedWork now d.loop s offers))
      (List.range' d.loop.nextId offers.length) (CapacitySource.name s) offers
      (taken now ⟨CapacitySource.name s, q.label⟩ d.loop.nextId offers) where
  offered := ⟨s, hs, rfl, hserves, hoffers⟩
  numbered := rfl
  tracked := taken_eq_zipWith now _ _ offers
  daemon := rfl
  names := (grantedWork_grows now d.loop s offers).names
  others _ hm := others_provision d.loop hm
  ledger := by
    have hafter : (q.grantedWork now d.loop s offers).loop.Sound :=
      Provisioner.Sound.grows (w := .begin d.loop) h (grantedWork_grows now d.loop s offers)
    refine ⟨hafter.tracks.coherent, hafter.tracks.flat.trans ?_⟩
    rw [grantedWork, List.map_append]
    exact h.tracks.flat.symm.append_right _
  registry := rfl

end Daemons

end ByHand

open Provisioner

/-- Whatever a run has come to, provisioning by hand answers the first check that fails and has
then asked its way up to it and done nothing else; or all checks pass, and exactly what the
source offers is tracked. -/
theorem provision_by_hand {σ R ρ : Type} [CapacitySource σ ρ] [NodeRegistry R ρ]
    (sources : SourceSet σ) (guard : Guard) (timeout : Option Duration) (first : PlannedId)
    (acts : List (Act σ R)) (daemon : Daemon σ R) (now : Time) (q : ByHand) :
    let p := ((start sources guard timeout first).run acts).2
    let d : Daemon σ R := { daemon with loop := p }
    let done := d.provisionManually now q.actor q.source q.label q.workload
    match q.refusal? p with
    | some (c, e) => ∃ calls events, done.1 = .error e ∧ q.Refused now d done.2 c calls events
    | none => ∃ ids n offers entries, done.1 = .ok ids ∧
        q.Granted now d done.2 ids n offers entries := by
  intro p d done
  have hsound : p.Sound := (sound_start sources guard timeout first).run acts
  have houtcome := q.outcome now p
  have hdone : done = ((p.provisionManually now q.actor q.source q.label q.workload).1,
      d.absorb now (p.provisionManually now q.actor q.source q.label q.workload).2) := rfl
  rw [hdone]
  generalize p.provisionManually now q.actor q.source q.label q.workload = answered at houtcome
  obtain ⟨answer, work⟩ := answered
  cases houtcome with
  | @refused c e sources calls events first asked =>
    rw [first]
    exact ⟨calls, events, rfl, ByHand.refused now asked⟩
  | granted passed member served offered =>
    rw [passed]
    exact ⟨_, _, _, _, rfl, ByHand.granted now hsound member served offered⟩

end Fleet
