import Fleet.Proofs.Api.Mediation
import Fleet.Proofs.Node.Calls
import Fleet.Proofs.Provisioner.ByHand

/-!
# A request that is refused changes nothing

A response that is no success leaves all as it was (`Unmoved`), but for what a source was asked
in vain (`Vain`): a source that cannot say whether it serves a label, or that fails when it is
asked for capacity, is the cause of a bad gateway, and only the second is reported.  This is
shown for one handler after the other (`Conducts`), together with the envelope that the
response of a handler comes in; `reached?` tells which requests reach a handler at all, and a
response to any other is bare.
-/

namespace Fleet

namespace Api

/-! ## Envelopes -/

/-- A response in the envelope of the interface: a success has data and no error, and any other
has an error text and no data. -/
inductive Response.Enveloped (response : Response) : Prop
  | data (data : Json) (success : response.status.isSuccess = true)
      (body : response.body = some (.object [("success", .flag true), ("data", data)]))
  | error (error : String) (failure : response.status.isSuccess = false)
      (body : response.body = some (.object [("success", .flag false), ("error", .text error)]))

theorem isSuccess_mutationStatus (e : MutationError) : (mutationStatus e).isSuccess = false := by
  rcases e with _ | _ | _ | _ | _ | _ | _ <;> rfl

section Sources

variable {σ ρ : Type} [CapacitySource σ ρ]

/-! ## What is asked in vain -/

/-- What a request that is refused with a status has asked of the sources, how that has left
them, and what is reported of it. -/
inductive Vain (sources : SourceSet σ) :
    Status → SourceSet σ → List SourceCall → List Event → Prop
  /-- No source was asked. -/
  | unasked {status : Status} (other : status ≠ .badGateway) : Vain sources status sources [] []
  /-- A source does not serve the label. -/
  | declined {n : SourceName} {label : Option Label}
      (can : (sources.canProvision n label).1 = some (.ok false)) :
      Vain sources .badRequest (sources.canProvision n label).2
        [.canProvision n label (.ok false)] []
  /-- A source cannot say whether it serves the label. -/
  | unsure {n : SourceName} {label : Option Label} {e : RequestError}
      (can : (sources.canProvision n label).1 = some (.error e)) :
      Vain sources .badGateway (sources.canProvision n label).2
        [.canProvision n label (.error e)] []
  /-- A source fails when it is asked for capacity. -/
  | failed {n : SourceName} {label : Option Label} {workload : Nat} {e : RequestError}
      (can : (sources.canProvision n label).1 = some (.ok true))
      (capacity : ((sources.canProvision n label).2.provision n label workload).1 =
        some (.error e)) :
      Vain sources .badGateway ((sources.canProvision n label).2.provision n label workload).2
        [.canProvision n label (.ok true), .provision n label workload (.error e)]
        [.requestFailed n label e.message]

theorem Vain.names {sources sources' : SourceSet σ} {status : Status} {calls : List SourceCall}
    {events : List Event} (h : Vain sources status sources' calls events) :
    sources'.names = sources.names := by
  cases h with
  | unasked => rfl
  | declined can => exact SourceSet.names_canProvision _ _ _
  | unsure can => exact SourceSet.names_canProvision _ _ _
  | failed can capacity =>
    exact (SourceSet.names_provision _ _ _ _).trans (SourceSet.names_canProvision _ _ _)

/-- Of the checks of a request by hand, only those that a source fails are answered as a bad
gateway. -/
theorem ByHand.vain {q : ByHand} {p : Provisioner σ} {c : ByHand.Check} {e : MutationError}
    {sources : SourceSet σ} {calls : List SourceCall} {events : List Event}
    (hfirst : q.refusal? p = some (c, e)) (h : q.Asked p c sources calls events) :
    Vain p.sources (mutationStatus e) sources calls events := by
  have hfails := q.failure?_of_refusal? hfirst
  cases h with
  | unasked early =>
    refine .unasked ?_
    rcases early with rfl | rfl | rfl
    · cases (Option.ite_none_right_eq_some.1 hfails).2
      exact nofun
    · obtain ⟨s, -, hs⟩ := Option.bind_eq_some_iff.1 hfails
      cases (Option.ite_none_left_eq_some.1 hs).2
      exact nofun
    · cases (Option.ite_none_right_eq_some.1 hfails).2
      exact nofun
  | @whether c s late hs =>
    have hcan := congrArg Prod.fst (ByHand.canProvision_named hs)
    rcases late with rfl | rfl
    · rw [ByHand.failure?, hs, Option.bind_some] at hfails
      rcases hserves : q.serves s with e' | _ <;> rw [hserves] at hfails hcan
      · cases hfails
        exact .unsure hcan
      · cases hfails
    · rw [ByHand.failure?, hs, Option.bind_some] at hfails
      rcases hserves : q.serves s with _ | _ | _ <;> rw [hserves] at hfails hcan
      · cases hfails
      · cases hfails
        exact .declined hcan
      · cases hfails
  | @capacity s e' hs served failed =>
    have hcan := congrArg Prod.fst (ByHand.canProvision_named hs)
    have hcapacity := congrArg Prod.fst (ByHand.provision_named hs)
    rw [ByHand.failure?, hs, Option.bind_some, failed] at hfails
    cases hfails
    exact .failed (served ▸ hcan) (failed ▸ hcapacity)

/-- Provisioning by hand that comes to an error has asked in vain and done nothing else. -/
theorem provisionManually_error {now : Time} {actor : Actor} {source : String}
    {label : Option Label} {workload : Nat} {p : Provisioner σ} {w : Work σ} {e : MutationError}
    (h : p.provisionManually now actor source label workload = (.error e, w)) :
    ∃ calls events, Vain p.sources (mutationStatus e) w.loop.sources calls events ∧
      w = ⟨{ p with sources := w.loop.sources }, events, calls, []⟩ := by
  have houtcome := ByHand.outcome ⟨actor, source, label, workload⟩ now p
  rw [h] at houtcome
  cases houtcome with
  | refused first asked => exact ⟨_, _, ByHand.vain first asked, rfl⟩

/-- A removal that is refused leaves rows and handles alone, and no source is to blame. -/
theorem removeNode_error {guard : Guard} {actor : Actor} {id : NodeId} {reason : String}
    {r : Registry ρ} (horderly : r.Orderly) {e : MutationError}
    (h : (Fleet.removeNode guard actor id reason r).1 = .error e) :
    r.Undergoes (Fleet.removeNode guard actor id reason r).2 .still ∧
      mutationStatus e ≠ .badGateway := by
  have hget := r.get_undergoes id
  have hkeeps := r.get_keeps id
  have hinstance : NodeRegistry.get id r = r.get id := rfl
  unfold Fleet.removeNode authorizeRemoval at h ⊢
  rw [hinstance] at h ⊢
  rcases hg : r.get id with ⟨e' | _ | record, r'⟩
  · rw [hg] at h hget
    cases h
    exact ⟨hget, by cases e' <;> nofun⟩
  · rw [hg] at h hget
    cases h
    exact ⟨hget, nofun⟩
  · rw [hg] at h hget hkeeps
    dsimp only at h ⊢
    cases hn : SourceName.ofString record.source with
    | error _ =>
      rw [hn] at h
      cases h
      exact ⟨hget, nofun⟩
    | ok source =>
      rw [hn] at h
      dsimp only at h ⊢
      cases hc : guard.check actor .remove source with
      | error _ =>
        rw [hc] at h
        cases h
        exact ⟨hget, nofun⟩
      | ok _ =>
        rw [hc] at h
        dsimp only at h ⊢
        have hdetach : (∀ node, (r'.detach id).1 ≠ .ok (some node)) →
            r'.Undergoes (r'.detach id).2 .still := Registry.detach_still (hkeeps.orderly horderly)
        have hinstance' : NodeRegistry.detach id r' = r'.detach id := rfl
        unfold detachFor at h ⊢
        rw [hinstance'] at h ⊢
        rcases hd : r'.detach id with ⟨e' | _ | node, r''⟩
        · rw [hd] at h hdetach
          cases h
          exact ⟨hget.trans (hdetach nofun), by cases e' <;> nofun⟩
        · rw [hd] at h hdetach
          cases h
          exact ⟨hget.trans (hdetach nofun), nofun⟩
        · rw [hd] at h
          cases h

end Sources

/-! ## Handlers -/

section Handlers

variable {σ ρ : Type} [CapacitySource σ ρ] {d : Daemon σ (Registry ρ)}

/-- From `d` to `d'` nothing has moved, but that sources have been called and that events have
been reported. -/
structure Unmoved (calls : List SourceCall) (events : List Event)
    (d d' : Daemon σ (Registry ρ)) : Prop where
  /-- The ledger and the capacity in flight and given up on are as they were. -/
  loop : d'.loop = { d.loop with sources := d'.loop.sources }
  names : d'.loop.sources.names = d.loop.sources.names
  /-- So are the rows of both tables and the handles. -/
  registry : d.registry.Undergoes d'.registry .still
  board : d'.board = d.board
  signal : d'.signal = d.signal
  /-- No release has been started. -/
  tasks : d'.tasks = d.tasks
  nextTicket : d'.nextTicket = d.nextTicket
  history : d'.history = d.history.emitAll events
  journal : d'.journal = { d.journal with
    events := d.journal.events ++ events
    calls := d.journal.calls ++ calls }

/-- A request has been refused with a status. -/
def Refused (status : Status) (d d' : Daemon σ (Registry ρ)) : Prop :=
  ∃ calls events, Vain d.loop.sources status d'.loop.sources calls events ∧
    Unmoved calls events d d'

theorem Refused.of_registry {status : Status} {registry : Registry ρ}
    (hstatus : status ≠ .badGateway) (h : d.registry.Undergoes registry .still) :
    Refused status d { d with registry } := by
  refine ⟨[], [], .unasked hstatus, rfl, rfl, h, rfl, rfl, rfl, rfl, rfl, ?_⟩
  simp

theorem Refused.refl {status : Status} (hstatus : status ≠ .badGateway)
    (d : Daemon σ (Registry ρ)) : Refused status d d :=
  .of_registry hstatus (.refl d.registry)

/-- What a handler has come to is answered in an envelope, and changes nothing if it is
refused. -/
def Conducted (d : Daemon σ (Registry ρ)) (out : Response × Daemon σ (Registry ρ)) : Prop :=
  out.1.Enveloped ∧ (out.1.status.isSuccess = false → Refused out.1.status d out.2)

theorem conducted_success (data : Json) {status : Status} (h : status.isSuccess = true)
    (d' : Daemon σ (Registry ρ)) : Conducted d (.success data status, d') := by
  refine ⟨.data data h rfl, fun hnot => ?_⟩
  have hstatus : status.isSuccess = false := hnot
  rw [h] at hstatus
  cases hstatus

theorem conducted_failure (error : String) {status : Status} (h : status.isSuccess = false)
    {d' : Daemon σ (Registry ρ)} (hrefused : Refused status d d') :
    Conducted d (.failure error status, d') :=
  ⟨.error _ h rfl, fun _ => hrefused⟩

def Conducts (handler : Handler σ (Registry ρ)) : Prop :=
  ∀ d : Daemon σ (Registry ρ), d.registry.Orderly → Conducted d (handler d)

theorem getSource_conducts (name : String) :
    Conducts (getSource name : Handler σ (Registry ρ)) := by
  intro d _
  unfold getSource
  cases d.loop.sources.named? name with
  | none => exact conducted_failure _ rfl (.refl (by decide) d)
  | some s => exact conducted_success _ rfl d

theorem provision_conducts (now : Time) (actor : Actor) (name : String) (workload : Workload) :
    Conducts (provision now actor name workload : Handler σ (Registry ρ)) := by
  intro d _
  unfold provision
  cases Label.ofOption workload.label with
  | error e => exact conducted_failure _ rfl (.refl (by decide) d)
  | ok label =>
    dsimp only
    unfold Daemon.provisionManually
    rcases hp : d.loop.provisionManually now actor name label workload.excess with ⟨e | ids, w⟩
    · obtain ⟨calls, events, hvain, hw⟩ := provisionManually_error hp
      refine conducted_failure _ (isSuccess_mutationStatus e) ⟨calls, events, hvain, ?_⟩
      have hnames := hvain.names
      rw [hw]
      refine ⟨rfl, hnames, .refl _, rfl, rfl, ?_, rfl, rfl, rfl⟩
      show d.tasks ++ [] = d.tasks
      rw [List.append_nil]
    · exact conducted_success _ rfl _

theorem listNodes_conducts : Conducts (listNodes : Handler σ (Registry ρ)) := by
  intro d _
  have hstill := d.registry.list_undergoes
  have hinstance : NodeRegistry.list d.registry = d.registry.list := rfl
  unfold listNodes
  rw [hinstance]
  rcases hl : d.registry.list with ⟨e | records, registry⟩
  · rw [hl] at hstill
    exact conducted_failure _ rfl (.of_registry (by decide) hstill)
  · exact conducted_success _ rfl _

theorem removeNode_conducts [Freeing σ ρ] (now : Time) (actor : Actor) (id : NodeId) :
    Conducts (removeNode now actor id : Handler σ (Registry ρ)) := by
  intro d horderly
  unfold removeNode Daemon.removeNode
  rcases hr : Fleet.removeNode d.loop.guard actor id "requested via api" d.registry with
    ⟨e | removal, registry⟩
  · obtain ⟨hstill, hstatus⟩ := removeNode_error horderly (congrArg Prod.fst hr)
    rw [hr] at hstill
    exact conducted_failure _ (isSuccess_mutationStatus e) (.of_registry hstatus hstill)
  · exact conducted_success _ rfl _

theorem reportActivity_conducts (now : Time) (id : NodeId) (activity : Activity) :
    Conducts (reportActivity now id activity : Handler σ (Registry ρ)) := by
  intro d _
  have hinstance : NodeRegistry.updateActivity id activity.busy activity.pending now.seconds
    d.registry = d.registry.updateActivity id activity.busy activity.pending now.seconds := rfl
  unfold reportActivity
  rw [hinstance]
  rcases hu : d.registry.updateActivity id activity.busy activity.pending now.seconds with
    ⟨e | record, registry⟩
  · have hstill := Registry.updateActivity_still (congrArg Prod.fst hu)
    rw [hu] at hstill
    cases e with
    | nodeNotFound _ => exact conducted_failure _ rfl (.of_registry (by decide) hstill)
    | state _ => exact conducted_failure _ rfl (.of_registry (by decide) hstill)
  · exact conducted_success _ rfl _

theorem setDemand_conducts (workload : Workload) :
    Conducts (setDemand workload : Handler σ (Registry ρ)) := by
  intro d _
  unfold setDemand
  cases Label.ofOption workload.label with
  | error e => exact conducted_failure _ rfl (.refl (by decide) d)
  | ok label => exact conducted_success _ rfl _

theorem listLeaks_conducts : Conducts (listLeaks : Handler σ (Registry ρ)) := by
  intro d _
  have hstill := Registry.undergoes_onStore d.registry d.registry.store.listLeaks_stays
  have hinstance : NodeRegistry.withStore Store.listLeaks d.registry =
    d.registry.onStore Store.listLeaks := rfl
  unfold listLeaks
  rw [hinstance]
  rcases hl : d.registry.onStore Store.listLeaks with ⟨e | leaks, registry⟩
  · rw [hl] at hstill
    exact conducted_failure _ rfl (.of_registry (by decide) hstill)
  · exact conducted_success _ rfl _

/-- A leak that is not there is not forgotten. -/
theorem deleteLeak_still {r : Registry ρ} {id : NodeId}
    (h : (r.onStore (Store.deleteLeak id)).1 ≠ .ok true) :
    r.Undergoes (r.onStore (Store.deleteLeak id)).2 .still := by
  rcases r.store.attempt_cases fun s : Store =>
    (Except.ok (s.leaks.contains id), { s with leaks := s.leaks.erase id }) with ⟨e, he⟩ | he
  · have he' : r.store.deleteLeak id = _ := he
    simp only [Registry.onStore, he']
    exact Registry.undergoes_store (.tail _)
  · have he' : r.store.deleteLeak id = _ := he
    simp only [Registry.onStore, he', ne_eq, Except.ok.injEq, SortedMap.contains,
      Option.not_isSome_iff_eq_none] at h ⊢
    rw [SortedMap.erase_of_get?_eq_none h]
    exact Registry.undergoes_store (.tail _)

theorem resolveLeak_conducts (id : NodeId) :
    Conducts (resolveLeak id : Handler σ (Registry ρ)) := by
  intro d _
  have hstill := @deleteLeak_still ρ d.registry id
  have hinstance : NodeRegistry.withStore (Store.deleteLeak id) d.registry =
    d.registry.onStore (Store.deleteLeak id) := rfl
  unfold resolveLeak
  rw [hinstance]
  rcases hl : d.registry.onStore (Store.deleteLeak id) with ⟨e | there, registry⟩
  · rw [hl] at hstill
    exact conducted_failure _ rfl (.of_registry (by decide) (hstill nofun))
  · rw [hl] at hstill
    cases there with
    | true => exact conducted_success _ rfl _
    | false => exact conducted_failure _ rfl (.of_registry (by decide) (hstill nofun))

end Handlers

/-! ## Requests that reach a handler -/

/-- The method that a request is answered by; who asks for the head alone is answered as if all
were asked for. -/
def Request.asked (r : Request) : Method := if r.method = .head then .get else r.method

/-- A request is turned away before it reaches a handler only with a status that is no success. -/
theorem Request.decode_error {α : Type} {r : Request} {shape : Shape} {ofJson? : Json → Option α}
    {status : Status} (h : r.decode shape ofJson? = .error status) :
    status.isSuccess = false ∧ status ≠ .badGateway := by
  have hread {status : Status} (h : r.read shape = .error status) :
      status.isSuccess = false ∧ status ≠ .badGateway := by
    unfold Request.read at h
    split at h
    · split at h <;> cases h <;> exact ⟨rfl, by decide⟩
    · cases h
      exact ⟨rfl, by decide⟩
  unfold Request.decode at h
  cases hr : r.read shape with
  | error status' =>
    rw [hr] at h
    cases h
    exact hread hr
  | ok v =>
    rw [hr] at h
    dsimp only at h
    split at h <;> cases h
    exact ⟨rfl, by decide⟩

section Reached

variable {σ ρ : Type} [CapacitySource σ ρ] [Freeing σ ρ]

/-- The handler that a request reaches, with what its name and its body say. -/
def reached? (now : Time) (r : Request) : Option (Handler σ (Registry ρ)) :=
  match Route.ofPath? r.path, r.asked with
  | some .sources, .get => some listSources
  | some (.source segment), .get => do
    let name ← decodeSegment? segment
    some (getSource name)
  | some (.provision segment), .post => do
    let name ← decodeSegment? segment
    let workload ← (r.decode Workload.shape Workload.ofJson?).toOption
    some (provision now r.acting name workload)
  | some .nodes, .get => some listNodes
  | some (.node segment), .delete => do
    let id ← decodeSegment? segment
    some (removeNode now r.acting id)
  | some (.activity segment), .put => do
    let id ← decodeSegment? segment
    let activity ← (r.decode Activity.shape Activity.ofJson?).toOption
    some (reportActivity now id activity)
  | some .ledger, .get => some getLedger
  | some .planned, .get => some (listPlanned now)
  | some .demand, .get => some getDemand
  | some .demand, .put => do
    let workload ← (r.decode Workload.shape Workload.ofJson?).toOption
    some (setDemand workload)
  | some .events, .get => some listEvents
  | some .leaks, .get => some listLeaks
  | some (.leak segment), .delete => do
    let id ← decodeSegment? segment
    some (resolveLeak id)
  | _, _ => none

theorem conducts_of_reached {now : Time} {r : Request} {handler : Handler σ (Registry ρ)}
    (h : reached? now r = some handler) : Conducts handler := by
  have hok {handler : Handler σ (Registry ρ)} {data : Daemon σ (Registry ρ) → Json}
      (h : ∀ d, handler d = (.ok (data d), d)) : Conducts handler := by
    intro d _
    rw [h d]
    exact conducted_success _ rfl d
  unfold reached? at h
  split at h
  case h_1 => cases h; exact hok fun _ => rfl
  case h_2 =>
    obtain ⟨name, -, h⟩ := Option.bind_eq_some_iff.1 h
    cases h
    exact getSource_conducts name
  case h_3 =>
    obtain ⟨name, -, h⟩ := Option.bind_eq_some_iff.1 h
    obtain ⟨workload, -, h⟩ := Option.bind_eq_some_iff.1 h
    cases h
    exact provision_conducts now r.acting name workload
  case h_4 => cases h; exact listNodes_conducts
  case h_5 =>
    obtain ⟨id, -, h⟩ := Option.bind_eq_some_iff.1 h
    cases h
    exact removeNode_conducts now r.acting id
  case h_6 =>
    obtain ⟨id, -, h⟩ := Option.bind_eq_some_iff.1 h
    obtain ⟨activity, -, h⟩ := Option.bind_eq_some_iff.1 h
    cases h
    exact reportActivity_conducts now id activity
  case h_7 => cases h; exact hok fun _ => rfl
  case h_8 => cases h; exact hok fun _ => rfl
  case h_9 => cases h; exact hok fun _ => rfl
  case h_10 =>
    obtain ⟨workload, -, h⟩ := Option.bind_eq_some_iff.1 h
    cases h
    exact setDemand_conducts workload
  case h_11 => cases h; exact hok fun _ => rfl
  case h_12 => cases h; exact listLeaks_conducts
  case h_13 =>
    obtain ⟨id, -, h⟩ := Option.bind_eq_some_iff.1 h
    cases h
    exact resolveLeak_conducts id
  case h_14 => cases h

/-- What is made of a request by the handler that it reaches, or without one. -/
inductive Handled (d : Daemon σ (Registry ρ)) (out : Response × Daemon σ (Registry ρ)) :
    Option (Handler σ (Registry ρ)) → Prop
  | reached {handler : Handler σ (Registry ρ)} (run : out = handler d) : Handled d out handler
  | stopped {status : Status} (failure : status.isSuccess = false)
      (other : status ≠ .badGateway) (bare : out = (.bare status, d)) : Handled d out none

omit [Freeing σ ρ] in
theorem withName_handled {d : Daemon σ (Registry ρ)} {segment : String}
    {handler : String → Handler σ (Registry ρ)} {f : String → Option (Handler σ (Registry ρ))}
    (h : ∀ name, Handled d (handler name d) (f name)) :
    Handled d (withName segment handler d) ((decodeSegment? segment).bind f) := by
  unfold withName
  cases decodeSegment? segment with
  | none => exact .stopped rfl (by decide) rfl
  | some name => exact h name

omit [Freeing σ ρ] in
theorem withBody_handled {α : Type} {r : Request} {shape : Shape} {ofJson? : Json → Option α}
    (handler : α → Handler σ (Registry ρ)) (d : Daemon σ (Registry ρ)) :
    Handled d (withBody r shape ofJson? handler d)
      ((r.decode shape ofJson?).toOption.bind fun a => some (handler a)) := by
  unfold withBody
  cases hr : r.decode shape ofJson? with
  | error status =>
    obtain ⟨hfailure, hother⟩ := Request.decode_error hr
    exact .stopped hfailure hother rfl
  | ok a => exact .reached rfl

/-- A route and a method lead to the handler that is reached, or to none. -/
theorem handler?_handled (now : Time) {r : Request} {route : Route}
    (hroute : Route.ofPath? r.path = some route) (d : Daemon σ (Registry ρ)) :
    Handled d (match handler? now r route r.asked with
      | none => (.bare .methodNotAllowed, d)
      | some handler => handler d) (reached? now r) := by
  unfold reached?
  rw [hroute]
  generalize r.asked = method
  cases route with
  | sources => cases method with
    | get => exact .reached rfl
    | _ => exact .stopped rfl (by decide) rfl
  | source segment => cases method with
    | get => exact withName_handled fun _ => .reached rfl
    | _ => exact .stopped rfl (by decide) rfl
  | provision segment => cases method with
    | post => exact withName_handled fun name => withBody_handled (provision now r.acting name) d
    | _ => exact .stopped rfl (by decide) rfl
  | nodes => cases method with
    | get => exact .reached rfl
    | _ => exact .stopped rfl (by decide) rfl
  | node segment => cases method with
    | delete => exact withName_handled fun _ => .reached rfl
    | _ => exact .stopped rfl (by decide) rfl
  | activity segment => cases method with
    | put => exact withName_handled fun id => withBody_handled (reportActivity now id) d
    | _ => exact .stopped rfl (by decide) rfl
  | ledger => cases method with
    | get => exact .reached rfl
    | _ => exact .stopped rfl (by decide) rfl
  | planned => cases method with
    | get => exact .reached rfl
    | _ => exact .stopped rfl (by decide) rfl
  | demand => cases method with
    | get => exact .reached rfl
    | put => exact withBody_handled setDemand d
    | _ => exact .stopped rfl (by decide) rfl
  | events => cases method with
    | get => exact .reached rfl
    | _ => exact .stopped rfl (by decide) rfl
  | leaks => cases method with
    | get => exact .reached rfl
    | _ => exact .stopped rfl (by decide) rfl
  | leak segment => cases method with
    | delete => exact withName_handled fun _ => .reached rfl
    | _ => exact .stopped rfl (by decide) rfl

/-- A request is answered by what is made of it; who asks for the head alone gets no more. -/
theorem respond_handled (now : Time) (r : Request) (d : Daemon σ (Registry ρ)) :
    ∃ out, Handled d out (reached? now r) ∧ respond now r d =
      (if r.method = .head then .bare out.1.status else out.1, out.2) := by
  have hbare (status : Status) :
      (if r.method = .head then Response.bare (Response.bare status).status else .bare status) =
        .bare status := ite_self _
  cases hroute : Route.ofPath? r.path with
  | none =>
    have hreached : (reached? now r : Option (Handler σ (Registry ρ))) = none := by
      unfold reached?
      rw [hroute]
    have hrespond : respond now r d = (.bare .notFound, d) := by
      unfold respond
      rw [hroute]
    refine ⟨(.bare .notFound, d), ?_, ?_⟩
    · rw [hreached]
      exact .stopped rfl (by decide) rfl
    · rw [hrespond, hbare]
  | some route =>
    have hrespond : respond now r d = match handler? now r route r.asked with
        | none => (.bare .methodNotAllowed, d)
        | some handler =>
          (if r.method = .head then .bare (handler d).1.status else (handler d).1,
            (handler d).2) := by
      unfold respond Request.asked
      rw [hroute]
      dsimp only
      generalize (handler? now r route _ : Option (Handler σ (Registry ρ))) = handler
      cases handler <;> rfl
    refine ⟨_, handler?_handled now hroute d, ?_⟩
    rw [hrespond]
    generalize (handler? now r route _ : Option (Handler σ (Registry ρ))) = handler
    cases handler with
    | none =>
      dsimp only
      rw [hbare]
    | some handler => rfl

/-- A request that is refused has changed nothing but what it has asked of a source in vain; the
response of a handler is in its envelope, and any other is bare. -/
theorem refusal_changes_nothing (sources : SourceSet σ) (guard : Guard)
    (timeout : Option Duration) (nextId : PlannedId) (store : Store)
    (orphanPolicy : Option Policy) (signal : Demand.Signal) (history : Nat)
    (acts : List (Moment.Act σ)) (now : Time) (r : Request) :
    let d := ((Moment.start sources guard timeout nextId store orphanPolicy signal
      history).run acts).daemon
    ((respond now r d).1.status.isSuccess = false →
      Refused (respond now r d).1.status d (respond now r d).2) ∧
    (∀ handler, reached? now r = some handler → (handler d).1.Enveloped ∧
      respond now r d =
        (if r.method = .head then .bare (handler d).1.status else (handler d).1, (handler d).2)) ∧
    (reached? (σ := σ) now r = none →
      ∃ status, status.isSuccess = false ∧ respond now r d = (.bare status, d)) := by
  intro d
  have horderly : d.registry.Orderly := ((Moment.sound_start sources guard timeout nextId store
    orphanPolicy signal history).run acts).orderly
  obtain ⟨out, hhandled, hrespond⟩ := respond_handled now r d
  have hstatus : (respond now r d).1.status = out.1.status := by
    rw [hrespond]
    dsimp only
    split <;> rfl
  have hstate : (respond now r d).2 = out.2 := by rw [hrespond]
  rw [hstatus, hstate]
  generalize hreached : (reached? now r : Option (Handler σ (Registry ρ))) = reached at hhandled
  cases hhandled with
  | reached run =>
    obtain ⟨henveloped, hrefused⟩ := conducts_of_reached hreached d horderly
    subst run
    refine ⟨hrefused, fun handler h => ?_, nofun⟩
    cases h
    exact ⟨henveloped, hrespond⟩
  | stopped failure other bare =>
    subst bare
    refine ⟨fun _ => .refl other d, nofun, fun _ => ⟨_, failure, hrespond.trans ?_⟩⟩
    split <;> rfl

end Reached

end Api

namespace Solo

/-- A source that would serve any label-less demand, but whose provider is down. -/
def failing : SourceSet Source :=
  ⟨[.scripted ⟨name, [none], [], ⟨[.error (.unavailable "down")]⟩⟩], by simp⟩

end Solo

theorem Api.refusal_changes_nothing_failing :
    let d := (Moment.start Solo.failing .allowAll none 0 .empty none .board 8).daemon
    (respond ⟨0⟩ Solo.asking d).1.status = .badGateway ∧
      Refused .badGateway d (respond ⟨0⟩ Solo.asking d).2 := by
  intro d
  have hstatus : (respond ⟨0⟩ Solo.asking d).1.status = .badGateway := by decide +kernel
  have hrefused := (refusal_changes_nothing Solo.failing .allowAll none 0 .empty none .board 8 []
    ⟨0⟩ Solo.asking).1
  refine ⟨hstatus, hstatus ▸ hrefused ?_⟩
  show (respond ⟨0⟩ Solo.asking d).1.status.isSuccess = false
  rw [hstatus]
  rfl

end Fleet
