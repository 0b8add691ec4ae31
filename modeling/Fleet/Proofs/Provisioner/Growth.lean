import Fleet.Proofs.Provisioner.Reply

/-!
# What asking adds

All that asking sources for capacity does to a provisioner, apart from the sources
themselves, is to track new entries: they are appended in order under the next ids, promised
in the ledger and each reported by one event.  `Work.Grows` says so of two states of the
work; it is reflexive and transitive, and every operation that asks keeps it, up to the
evaluation of all demand (`Round.evaluateAll_asks`) and to provisioning by hand
(`Provisioner.provisionManually_grows`).
-/

namespace Fleet

/-- The planned capacity that an event is about. -/
def Event.planned? : Event → Option PlannedId
  | .provisionRequested _ _ id _ _ => some id
  | .provisionSucceeded _ _ id _ => some id
  | .provisionFailed _ _ id _ => some id
  | .provisionTimedOut _ _ id _ => some id
  | .lateCompletionDiscarded _ id _ => some id
  | .duplicateNodeIgnored _ id _ => some id
  | _ => none

theorem filter_planned?_requested {ρ : Type} (os : List (Outstanding ρ)) :
    (os.map Outstanding.requested).filter (·.planned?.isSome) = os.map Outstanding.requested := by
  refine List.filter_eq_self.2 fun e he => ?_
  obtain ⟨o, _, rfl⟩ := List.mem_map.1 he
  rfl

namespace Work

variable {σ ρ : Type} [CapacitySource σ ρ]

/-- The work has gone on from `w` to `w'` by tracking `new`, with the events `es`. -/
structure Grows (w w' : Work σ) (new : List (Outstanding ρ)) (es : List Event) : Prop where
  loop : w'.loop = { w.loop with
    sources := w'.loop.sources
    ledger := w.loop.ledger.recordAll new
    outstanding := w.loop.outstanding ++ new
    nextId := w.loop.nextId + new.length }
  names : w'.loop.sources.names = w.loop.sources.names
  ids : new.map (·.planned.id) = List.range' w.loop.nextId new.length
  events : w'.events = w.events ++ es
  requests : es.filter (·.planned?.isSome) = new.map Outstanding.requested

namespace Grows

variable {w w' w'' : Work σ} {new new' : List (Outstanding ρ)} {es es' : List Event}

theorem refl (w : Work σ) : Grows w w [] [] where
  loop := by simp [Ledger.recordAll]
  names := rfl
  ids := rfl
  events := by simp
  requests := rfl

theorem trans (h : Grows w w' new es) (h' : Grows w' w'' new' es') :
    Grows w w'' (new ++ new') (es ++ es') where
  loop := by
    rw [h'.loop, h.loop]
    simp [Ledger.recordAll, List.append_assoc, Nat.add_assoc]
  names := h'.names.trans h.names
  ids := by
    rw [List.map_append, h.ids, h'.ids, h.loop, List.length_append, List.range'_append_1]
  events := by rw [h'.events, h.events, List.append_assoc]
  requests := by rw [List.filter_append, h.requests, h'.requests, List.map_append]

/-- An event about no capacity. -/
theorem remark (w : Work σ) {e : Event} (he : e.planned? = none) : Grows w (w.emit e) [] [e] where
  loop := by simp [emit, Ledger.recordAll]
  names := rfl
  ids := rfl
  events := rfl
  requests := by rw [List.filter_cons_of_neg (by simp [he])]; rfl

end Grows

theorem called_grows {sources : SourceSet σ} {w : Work σ}
    (h : sources.names = w.loop.sources.names) (calls : List SourceCall) :
    Grows w (w.called sources calls) [] [] where
  loop := by simp [called, Ledger.recordAll]
  names := h
  ids := rfl
  events := by simp [called]
  requests := rfl

theorem accept_grows (now : Time) (account : Account) (offers : List (Offer ρ)) (w : Work σ) :
    Grows w (w.accept now account offers) (taken now account w.loop.nextId offers)
      ((taken now account w.loop.nextId offers).map Outstanding.requested) := by
  rw [accept_eq]
  exact {
    loop := by rw [length_taken]
    names := rfl
    ids := by rw [map_id_taken, length_taken]
    events := rfl
    requests := filter_planned?_requested _ }

theorem askFor_grows (now : Time) {account : Account} (workload : Nat) {w : Work σ}
    (h : account.source ∈ w.loop.sources.names) :
    ∃ new es, Grows w (w.askFor now account workload).2 new es := by
  obtain ⟨s, hget⟩ := SourceSet.get?_eq_some_of_mem h
  have hs := SourceSet.names_provision w.loop.sources account.source account.label workload
  rcases askFor_eq now workload hget with ⟨e, -, he⟩ | ⟨offers, -, ho⟩
  · rw [he]
    exact ⟨_, _, (called_grows hs _).trans (.remark _ rfl)⟩
  · rw [ho]
    exact ⟨_, _, (called_grows hs _).trans (accept_grows now account offers _)⟩

theorem provisionFrom_grows (now : Time) {account : Account} (workload : Nat) {w : Work σ}
    (h : account.source ∈ w.loop.sources.names) :
    ∃ new es, Grows w (w.provisionFrom now account workload).2 new es := by
  unfold provisionFrom
  split
  · exact ⟨_, _, .refl w⟩
  obtain ⟨s, hget⟩ := SourceSet.get?_eq_some_of_mem h
  have hs := SourceSet.names_canProvision w.loop.sources account.source account.label
  rw [askCan_eq hget]
  generalize (w.loop.sources.canProvision account.source account.label).2 = sources at hs ⊢
  generalize (CapacitySource.canProvision account.label s).1 = answer
  have hc := called_grows hs [.canProvision account.source account.label answer]
  cases answer with
  | error e => exact ⟨_, _, hc⟩
  | ok serves =>
    cases serves with
    | false => exact ⟨_, _, hc⟩
    | true =>
      obtain ⟨new, es, hf⟩ := askFor_grows now workload (hc.names ▸ h)
      dsimp only
      cases hr : (w.called sources [.canProvision account.source account.label
          (.ok true)]).askFor now account workload with
      | mk answer w' =>
        rw [hr] at hf
        cases answer <;> exact ⟨_, _, hc.trans hf⟩

end Work

namespace Round

variable {σ R ρ : Type} [CapacitySource σ ρ]

/-- The round has gone on from `r` to `r'` by asking sources. -/
def Asks (r r' : Round σ R) : Prop :=
  ∃ new es, Work.Grows r.toWork r'.toWork new es ∧ r'.registry = r.registry ∧
    r'.discarded = r.discarded

namespace Asks

theorem refl (r : Round σ R) : Asks r r := ⟨[], [], .refl _, rfl, rfl⟩

theorem trans {r r' r'' : Round σ R} (h : Asks r r') (h' : Asks r' r'') : Asks r r'' := by
  obtain ⟨new, es, hg, hr, hd⟩ := h
  obtain ⟨new', es', hg', hr', hd'⟩ := h'
  exact ⟨new ++ new', es ++ es', hg.trans hg', hr'.trans hr, hd'.trans hd⟩

theorem names {r r' : Round σ R} (h : Asks r r') :
    r'.loop.sources.names = r.loop.sources.names := by
  obtain ⟨_, _, hg, _, _⟩ := h
  exact hg.names

end Asks

theorem Asking.receive_grows (now : Time) (account : Account) (workload : Nat)
    {sources : SourceSet σ} (reply : Reply ρ) {a : Asking σ R}
    (h : sources.names = a.round.loop.sources.names) :
    Work.Grows a.round.toWork (a.receive now account workload sources reply).round.toWork
      (reply.entries now account a.round.loop.nextId)
      (reply.events now account a.round.loop.nextId) where
  loop := by
    rw [Reply.entries, length_taken]
    rfl
  names := h
  ids := by rw [Reply.entries, map_id_taken, length_taken]
  events := rfl
  requests := by
    rw [Reply.events, List.filter_append, filter_planned?_requested]
    cases reply.error? <;> rfl

theorem Asking.receive_asks (now : Time) (account : Account) (workload : Nat)
    {sources : SourceSet σ} (reply : Reply ρ) {a : Asking σ R}
    (h : sources.names = a.round.loop.sources.names) :
    Asks a.round (a.receive now account workload sources reply).round :=
  ⟨_, _, Asking.receive_grows now account workload reply h, rfl, rfl⟩

theorem askSource_asks (now : Time) (label : Option Label) (remaining : Nat) {n : SourceName}
    {a : Asking σ R} (h : n ∈ a.round.loop.sources.names) :
    Asks a.round (askSource now label remaining n a).round := by
  obtain ⟨reply, sources, hears, he⟩ := askSource_eq now label remaining h
  rw [he]
  exact Asking.receive_asks now _ _ reply hears.names

theorem askSources_asks (now : Time) (label : Option Label) (remaining : Nat)
    {ns : List SourceName} {a : Asking σ R} (h : ∀ n ∈ ns, n ∈ a.round.loop.sources.names) :
    Asks a.round (askSources now label remaining ns a).round := by
  refine askSources_kept (P := fun a' => Asks a.round a'.round) ?_ h (.refl _)
  intro a' n sources reply hears hasks
  exact hasks.trans (Asking.receive_asks now _ _ reply hears.names)

theorem evaluate_asks (now : Time) (r : Round σ R) (d : Demand) : Asks r (r.evaluate now d) := by
  unfold evaluate
  dsimp only
  split
  · exact .refl r
  · have h : Asks r _ := askSources_asks now d.label
      (d.excess - r.loop.ledger.promisedForLabel d.label)
      (a := (⟨r, 0, false, false⟩ : Asking σ R)) fun n hn => hn
    split
    · obtain ⟨new, es, hg, hr, hd⟩ := h
      exact ⟨_, _, hg.trans (.remark _ rfl), hr, hd⟩
    · exact h

theorem evaluateAll_asks (now : Time) (demands : List Demand) (r : Round σ R) :
    Asks r (r.evaluateAll now demands) := by
  induction demands generalizing r with
  | nil => exact .refl r
  | cons d ds ih => exact (evaluate_asks now r d).trans (ih _)

end Round

theorem Provisioner.provisionManually_grows {σ ρ : Type} [CapacitySource σ ρ] (now : Time)
    (actor : Actor) (source : String) (label : Option Label) (workload : Nat)
    (p : Provisioner σ) :
    ∃ new es, Work.Grows (.begin p) (p.provisionManually now actor source label workload).2
      new es := by
  unfold provisionManually
  split
  · exact ⟨_, _, .refl _⟩
  · rename_i s hs
    dsimp only
    split
    · exact ⟨_, _, .refl _⟩
    · exact Work.provisionFrom_grows now workload (SourceSet.name_mem_of_named? hs)

end Fleet
