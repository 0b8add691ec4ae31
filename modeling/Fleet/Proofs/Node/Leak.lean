import Fleet.Proofs.Node.Course
import Fleet.Source.Kind

/-!
# Leaks until they are resolved

A release that fails leaves a leak, and leaks are noted by the id of their node.  What is noted
for an id at the end of a run is the last word that was said on it, a failure or a resolution
(`run_leak?`), so a failure is listed until the leak of its node is resolved or another node of
the same id fails to be released (`leak_until_last_word`); then the earlier one is forgotten,
though nobody has resolved it (`leak_forgotten`).
-/

namespace Fleet

namespace Change

variable {ρ : Type}

/-- What a change says on the leak of a node. -/
def word? (id : NodeId) : Change ρ → Option (Option LeakRecord)
  | leaks leak => if leak.nodeId = id then some (some leak) else none
  | resolves j => if j = id then some none else none
  | _ => none

theorem noted_eq (noted : NodeId → Option LeakRecord) (c : Change ρ) (id : NodeId) :
    c.noted noted id = (c.word? id).getD (noted id) := by
  cases c with
  | leaks leak =>
    rw [Change.noted, word?, Function.update_apply]
    by_cases h : leak.nodeId = id
    · rw [if_pos h.symm, if_pos h]
      rfl
    · rw [if_neg (Ne.symm h), if_neg h]
      rfl
  | resolves j =>
    rw [Change.noted, word?, Function.update_apply]
    by_cases h : j = id
    · rw [if_pos h.symm, if_pos h]
      rfl
    · rw [if_neg (Ne.symm h), if_neg h]
      rfl
  | _ => rfl

end Change

/-- The record and the handle of the node that a task is to free. -/
def Task.toFree? {ρ : Type} : Task ρ → Option (NodeRecord × ρ)
  | boot _ _ => none
  | reclaim node => node.release.map (node.record, ·)
  | removal _ r => r.node.release.map (r.node.record, ·)

variable {σ ρ : Type} [CapacitySource σ ρ] [Freeing σ ρ]

theorem Task.leak?_of_error {sources : SourceSet σ} {now : Time} {task : Task ρ}
    {record : NodeRecord} {handle : ρ} {e : ReleaseError} (h : task.toFree? = some (record, handle))
    (hfree : (Freeing.free handle sources).1 = .error e) :
    task.leak? sources now = some (record.leak now.seconds e) := by
  have hleak : sources.leak? now record (some handle) = some (record.leak now.seconds e) := by
    simp only [SourceSet.leak?, SourceSet.freed?, Option.map_some, hfree]
  cases task with
  | boot id node => cases h
  | reclaim node =>
    obtain ⟨handle', hrelease, he⟩ := Option.map_eq_some_iff.1 h
    cases he
    rw [Task.leak?, hrelease, hleak]
  | removal ticket removal =>
    obtain ⟨handle', hrelease, he⟩ := Option.map_eq_some_iff.1 h
    cases he
    rw [Task.leak?, hrelease, hleak]

namespace Moment

/-- What an act says on the leak of a node: a call resolves it, or a task fails. -/
def word? (m : Moment σ) (id : NodeId) : Act σ → Option (Option LeakRecord)
  | .consult (.resolveLeak j) => if j = id then some none else none
  | .perform now place => (m.leak? now place).bind fun leak =>
      if leak.nodeId = id then some (some leak) else none
  | _ => none

/-- What acts say on the leak of a node, in order. -/
def words (m : Moment σ) (id : NodeId) (acts : List (Act σ)) : List (Option LeakRecord) :=
  m.along (fun m a => (m.word? id a).toList) acts

variable {m : Moment σ}

/-- Where no call fails, an act changes what is noted on a leak by what it says. -/
theorem word?_change (hcalls : m.daemon.registry.store.faults = []) (a : Act σ) (id : NodeId) :
    (m.change a).word? id = m.word? id a := by
  cases a with
  | advance =>
    obtain ⟨d, ticking⟩ := m
    cases ticking with
    | none => rfl
    | some t =>
      show (t.change d).word? id = none
      unfold Ticking.change
      split
      · cases (Fate.of t.now d.loop.timeout d.registry _).1 <;> rfl
      · rfl
  | consult c =>
    cases c with
    | report node busy pending second =>
      show (Change.ofReport (m.daemon.registry.updateActivity node busy pending second).1).word?
        id = none
      cases (m.daemon.registry.updateActivity node busy pending second).1 <;> rfl
    | resolveLeak j =>
      have hresolve : m.daemon.registry.store.deleteLeak j =
          (.ok (m.daemon.registry.store.leaks.contains j), { m.daemon.registry.store with
            leaks := m.daemon.registry.store.leaks.erase j }) :=
        Store.attempt_of_calls hcalls _
      show (Change.ofResolution j (m.daemon.registry.onStore (Store.deleteLeak j)).1).word? id = _
      simp only [Registry.onStore, hresolve]
      rfl
    | _ => rfl
  | expire now second node =>
    show (Change.ofExpiry (m.daemon.registry.detachExpired node second).1).word? id = none
    rcases (m.daemon.registry.detachExpired node second).1 with _ | _ | _ <;> rfl
  | remove now actor node reason =>
    show (Change.ofRemoval (detachFor actor node reason m.daemon.registry).1).word? id = none
    cases (detachFor actor node reason m.daemon.registry).1 <;> rfl
  | perform now place =>
    show (m.daemon.registry.left (m.leak? now place)).word? id =
      (m.leak? now place).bind fun leak => if leak.nodeId = id then some (some leak) else none
    rw [Registry.left_of_calls hcalls]
    cases m.leak? now place <;> rfl
  | _ => rfl

theorem step_leak? (h : m.Steady) (hcalls : m.daemon.registry.store.faults = []) (a : Act σ)
    (id : NodeId) : (m.step a).daemon.registry.store.leak? id =
      (m.word? id a).getD (m.daemon.registry.store.leak? id) := by
  rw [(step_undergoes h a).leak?, Change.noted_eq, word?_change hcalls]

/-- What is noted for a node at the end of a run is the last word on its leak. -/
theorem run_leak? (h : m.Steady) (hintact : m.daemon.registry.store.Intact) (acts : List (Act σ))
    (id : NodeId) : (m.run acts).daemon.registry.store.leak? id =
      (m.words id acts).getLast?.getD (m.daemon.registry.store.leak? id) := by
  induction acts generalizing m with
  | nil => rfl
  | cons a acts ih =>
    have hrun : m.run (a :: acts) = (m.step a).run acts := rfl
    have hwords : m.words id (a :: acts) = (m.word? id a).toList ++ (m.step a).words id acts := rfl
    rw [hrun, hwords, ih (h.step a) ((step_undergoes h a).intact hintact),
      step_leak? h hintact.calls]
    cases m.word? id a with
    | none => rfl
    | some word =>
      rw [Option.toList_some, List.singleton_append, List.getLast?_cons]
      rfl

/-- The node that the task at a place is to free. -/
def toFree? (m : Moment σ) (place : Nat) : Option (NodeRecord × ρ) :=
  m.daemon.tasks[place]?.bind fun t => t.task.toFree?

theorem leak?_of_error {now : Time} {place : Nat} {record : NodeRecord} {handle : ρ}
    {e : ReleaseError} (h : m.toFree? place = some (record, handle))
    (hfree : (Freeing.free handle m.daemon.loop.sources).1 = .error e) :
    m.leak? now place = some (record.leak now.seconds e) := by
  obtain ⟨t, ht, htask⟩ := Option.bind_eq_some_iff.1 h
  rw [leak?, ht]
  exact Task.leak?_of_error htask hfree

/-- A failure is in the list of leaks as long as it has the last word on its node. -/
theorem listed_iff_last_word (h : m.Steady) (hintact : m.daemon.registry.store.Intact)
    {now : Time} {place : Nat} {leak : LeakRecord} (hleak : m.leak? now place = some leak)
    (more : List (Act σ)) :
    ∃ leaks, ((m.step (.perform now place)).run more).daemon.registry.store.listLeaks =
        (.ok leaks, ((m.step (.perform now place)).run more).daemon.registry.store) ∧
      (leak ∈ leaks ↔ ∀ word,
        ((m.step (.perform now place)).words leak.nodeId more).getLast? = some word →
          word = some leak) := by
  have hstep := h.step (.perform now place)
  have hstepintact := (step_undergoes h (.perform now place)).intact hintact
  obtain ⟨leaks, hlist, -, hmem⟩ := (run_intact hstep hstepintact more).listLeaks
  refine ⟨leaks, hlist, (hmem leak).trans ?_⟩
  have hword : m.word? leak.nodeId (.perform now place) = some (some leak) := by
    rw [word?, hleak]
    exact if_pos rfl
  rw [run_leak? hstep hstepintact, step_leak? h hintact.calls, hword]
  cases ((m.step (.perform now place)).words leak.nodeId more).getLast? with
  | none => simp
  | some word => simp

/-- A failure is forgotten when another one on a node of the same id follows it. -/
theorem not_listed_of_another (h : m.Steady) (hintact : m.daemon.registry.store.Intact)
    {now now' : Time} {place place' : Nat} {leak leak' : LeakRecord}
    (hleak : m.leak? now place = some leak)
    (hleak' : (m.step (.perform now place)).leak? now' place' = some leak')
    (hid : leak'.nodeId = leak.nodeId) (hne : leak' ≠ leak) {leaks : List LeakRecord} {s : Store}
    (hlist : ((m.step (.perform now place)).run
      [.perform now' place']).daemon.registry.store.listLeaks = (.ok leaks, s)) :
    leak ∉ leaks := by
  obtain ⟨leaks', hlist', hiff⟩ := listed_iff_last_word h hintact hleak [.perform now' place']
  rw [hlist] at hlist'
  cases hlist'
  have hwords : (m.step (.perform now place)).words leak.nodeId [.perform now' place'] =
      [some leak'] := by
    simp only [words, along, word?, hleak', Option.bind_some, hid, if_true, Option.toList_some,
      List.append_nil]
  intro hmem
  have hsame := hiff.1 hmem (some leak') (by rw [hwords]; rfl)
  exact hne (Option.some.inj hsame)

end Moment

/-! ## Failures -/

/-- At any moment of any run on a store whose calls succeed, a task fails to free the node that
it was given, one that was turned away or removed.  From then on the failure is listed, with
the node, its source and the error, exactly as long as no other word is the last on a node of
this id: that its leak has been resolved, or that its release has failed for another reason or
at another time. -/
theorem leak_until_last_word (sources : SourceSet σ) (guard : Guard) (timeout : Option Duration)
    (nextId : PlannedId) (store : Store) (orphanPolicy : Option Policy) (signal : Demand.Signal)
    (history : Nat) (hintact : store.Intact) (acts more : List (Moment.Act σ)) (now : Time)
    (place : Nat) (record : NodeRecord) (handle : ρ) (e : ReleaseError) :
    let start : Moment σ := .start sources guard timeout nextId store orphanPolicy signal history
    let m := start.run acts
    let m' := m.step (.perform now place)
    let leak : LeakRecord := ⟨record.id, record.source, (e.about record.id).message, now.seconds⟩
    m.toFree? place = some (record, handle) →
      (Freeing.free handle m.daemon.loop.sources).1 = .error e →
        ∃ leaks, (m'.run more).daemon.registry.store.listLeaks =
            (.ok leaks, (m'.run more).daemon.registry.store) ∧
          (leak ∈ leaks ↔ ∀ word, (m'.words record.id more).getLast? = some word →
            word = some leak) := by
  intro start m m' leak htask hfree
  have hstart : start.Steady :=
    Moment.steady_start hintact.keyed sources guard timeout nextId orphanPolicy signal history
  exact Moment.listed_iff_last_word (hstart.run acts) (Moment.run_intact hstart hintact acts)
    (Moment.leak?_of_error htask hfree) more

namespace Namesakes

def sim : SourceName := ⟨"sim", by decide⟩

def node (release : Option ReleaseHandle) : RealizedNode ReleaseHandle :=
  ⟨.fresh "n-1" "sim" none 1 1000 "", .always, release⟩

def failing (reason : String) : ReleaseHandle := .drill ⟨0⟩ "n-1" (some ⟨"", reason⟩)

def first : ReleaseHandle := failing "first still runs"

def second : ReleaseHandle := failing "second still runs"

/-- A source that offers three nodes of one id, of which it fails to free two. -/
def source : Source := .scripted ⟨sim, [none], [], ⟨[.ok
  ([none, some first, some second].map fun release =>
    ⟨"", 1, .unread (.ok (node release)), ⟨0⟩, none⟩)]⟩⟩

def sources : SourceSet Source := ⟨[source], by decide⟩

def start : Moment Source :=
  .start sources .allowAll none 0 .empty (some .always) .board 16

/-- One node is registered, and the other two are turned away. -/
def acts : List (Moment.Act Source) :=
  [.provision ⟨0⟩ .anonymous "sim" none 3, .begin ⟨0⟩, .advance, .advance, .advance]

def record : NodeRecord := (node none).record

def leak (reason : String) : LeakRecord := record.leak (Time.seconds ⟨0⟩) ⟨"", reason⟩

theorem toFree_first : (start.run acts).toFree? 0 = some (record, first) := by
  decide +kernel

theorem toFree_second :
    ((start.run acts).step (.perform ⟨0⟩ 0)).toFree? 0 = some (record, second) := by
  decide +kernel

end Namesakes

theorem leak_until_last_word_first :
    Store.empty.Intact ∧ (Namesakes.start.run Namesakes.acts).toFree? 0 =
        some (Namesakes.record, Namesakes.first) ∧
      (Freeing.free Namesakes.first (Namesakes.start.run Namesakes.acts).daemon.loop.sources).1 =
        .error ⟨"", "first still runs"⟩ ∧
      ∃ leaks, ((Namesakes.start.run Namesakes.acts).step
          (.perform ⟨0⟩ 0)).daemon.registry.store.listLeaks = (.ok leaks, ((Namesakes.start.run
            Namesakes.acts).step (.perform ⟨0⟩ 0)).daemon.registry.store) ∧
        Namesakes.leak "first still runs" ∈ leaks := by
  obtain ⟨leaks, hlist, hiff⟩ := leak_until_last_word Namesakes.sources .allowAll none 0 .empty
    (some .always) .board 16 Store.intact_empty Namesakes.acts [] ⟨0⟩ 0 Namesakes.record
    Namesakes.first ⟨"", "first still runs"⟩ Namesakes.toFree_first rfl
  exact ⟨Store.intact_empty, Namesakes.toFree_first, rfl, leaks, hlist, hiff.2 nofun⟩

/-- A failure may be forgotten though nobody has resolved it: another node of the same id has
failed to be released since. -/
theorem leak_forgotten :
    ¬∀ (acts more : List (Moment.Act Source)) (now : Time) (place : Nat) (record : NodeRecord)
      (handle : ReleaseHandle) (e : ReleaseError),
      (Namesakes.start.run acts).toFree? place = some (record, handle) →
        (Freeing.free handle (Namesakes.start.run acts).daemon.loop.sources).1 = .error e →
          (∀ a ∈ more, a ≠ .consult (.resolveLeak record.id)) →
            ∃ leaks, (((Namesakes.start.run acts).step
                (.perform now place)).run more).daemon.registry.store.listLeaks =
                  (.ok leaks, (((Namesakes.start.run acts).step
                    (.perform now place)).run more).daemon.registry.store) ∧
              ⟨record.id, record.source, (e.about record.id).message, now.seconds⟩ ∈ leaks := by
  intro h
  obtain ⟨leaks, hlist, hmem⟩ := h Namesakes.acts [.perform ⟨0⟩ 0] ⟨0⟩ 0 Namesakes.record
    Namesakes.first ⟨"", "first still runs"⟩ Namesakes.toFree_first rfl (by simp)
  have hstart : Namesakes.start.Steady :=
    Moment.steady_start Store.intact_empty.keyed _ _ _ _ _ _ _
  have hfirst : (Namesakes.start.run Namesakes.acts).leak? ⟨0⟩ 0 =
      some (Namesakes.leak "first still runs") :=
    Moment.leak?_of_error Namesakes.toFree_first rfl
  have hsecond : ((Namesakes.start.run Namesakes.acts).step (.perform ⟨0⟩ 0)).leak? ⟨0⟩ 0 =
      some (Namesakes.leak "second still runs") :=
    Moment.leak?_of_error Namesakes.toFree_second rfl
  have hne : Namesakes.leak "second still runs" ≠ Namesakes.leak "first still runs" := by
    decide +kernel
  exact Moment.not_listed_of_another (hstart.run Namesakes.acts)
    (Moment.run_intact hstart Store.intact_empty Namesakes.acts) hfirst hsecond rfl hne hlist hmem

end Fleet
