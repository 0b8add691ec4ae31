import Fleet.Proofs.Registry
import Fleet.Reaper
import Mathlib

/-!
# Changes of the registry

A call to the registry makes at most one `Change`: a node enters, one leaves, the record of one
is rewritten by a report, a leak is noted, or one is resolved.  Which change it is can be read
off the answer of the call, and `Registry.Undergoes` says what it does to the rows and the
handles; a call that is answered otherwise leaves all as it was.  The records that the rows
hold change in one place (`Undergoes.record?`), and so do the leaks (`Undergoes.leak?`); rows
stay under the ids of their records (`Undergoes.keyed`), and the ids balance (`Undergoes.ids`).
-/

namespace Fleet

inductive Change (ρ : Type) where
  /-- All stays as it is. -/
  | still
  | enters (node : RealizedNode ρ)
  | leaves (removal : Removal ρ)
  /-- The record of a node is rewritten by a report of its activity. -/
  | updates (record : NodeRecord)
  | leaks (leak : LeakRecord)
  /-- The leak noted for a node is forgotten. -/
  | resolves (id : NodeId)

/-- A record that differs from `r` in what a report counts, and in nothing else. -/
def NodeRecord.Recounts (record r : NodeRecord) : Prop :=
  record = { r with
    busyExecutors := record.busyExecutors
    pendingTasks := record.pendingTasks
    hasRunWork := record.hasRunWork
    idleSince := record.idleSince }

theorem NodeRecord.recounts_reportActivity (r : NodeRecord) (busy pending : UInt32)
    (now : UInt64) : (r.reportActivity busy pending now).Recounts r := rfl

theorem NodeRecord.Recounts.refl (record : NodeRecord) : record.Recounts record := rfl

theorem NodeRecord.Recounts.trans {record r old : NodeRecord} (h : record.Recounts r)
    (h' : r.Recounts old) : record.Recounts old := by
  unfold Recounts at h
  rw [h'] at h
  exact h

theorem NodeRecord.Recounts.id {record r : NodeRecord} (h : record.Recounts r) :
    record.id = r.id := by
  rw [h]

namespace Change

variable {ρ : Type}

/-- The id of a node that comes on record. -/
def entered : Change ρ → List NodeId
  | enters node => [node.record.id]
  | _ => []

def departed : Change ρ → List (Removal ρ)
  | leaves removal => [removal]
  | _ => []

theorem eq_leaves_of_departed {c : Change ρ} {α : Type} {f : Removal ρ → α} {y : α}
    (h : c.departed.map f = [y]) : ∃ removal, c = leaves removal ∧ f removal = y := by
  cases c with
  | leaves removal => exact ⟨removal, rfl, (List.cons.inj h).1⟩
  | _ => cases h

theorem ne_leaves {c : Change ρ} (h : c.departed = []) (removal : Removal ρ) :
    c ≠ leaves removal := by
  rintro rfl
  cases h

/-- The records of nodes by id after a change. -/
def records (records : NodeId → Option NodeRecord) : Change ρ → NodeId → Option NodeRecord
  | enters node => Function.update records node.record.id (some node.record)
  | leaves removal => Function.update records removal.node.record.id none
  | updates record => Function.update records record.id (some record)
  | _ => records

/-- The leaks by id of the node after a change. -/
def noted (noted : NodeId → Option LeakRecord) : Change ρ → NodeId → Option LeakRecord
  | leaks leak => Function.update noted leak.nodeId (some leak)
  | resolves id => Function.update noted id none
  | _ => noted

/-! ## Answers -/

/-- The change behind an answer to a registration. -/
def ofRegistration (node : RealizedNode ρ) : Registration ρ → Change ρ
  | .added => enters node
  | _ => still

/-- The change behind an answer to a removal by hand. -/
def ofRemoval {ε : Type} : Except ε (Removal ρ) → Change ρ
  | .ok removal => leaves removal
  | .error _ => still

/-- The change behind an answer to a second look of a sweep. -/
def ofExpiry : Except RegistryError (Option (DetachedNode ρ × String)) → Change ρ
  | .ok (some (node, reason)) => leaves ⟨node, reason⟩
  | _ => still

def ofReport : Except RegistryError NodeRecord → Change ρ
  | .ok record => updates record
  | .error _ => still

/-- The change behind an answer to a failure that was to be noted. -/
def ofRecording (leak : LeakRecord) : Except RegistryError Unit → Change ρ
  | .ok () => leaks leak
  | .error _ => still

def ofResolution (id : NodeId) : Except StateError Bool → Change ρ
  | .ok _ => resolves id
  | .error _ => still

theorem ofRemoval_eq_leaves {ε : Type} {answer : Except ε (Removal ρ)} {removal : Removal ρ}
    (h : ofRemoval answer = leaves removal) : answer = .ok removal := by
  cases answer with
  | error e => cases h
  | ok out =>
    cases h
    rfl

theorem entered_ofRemoval {ε : Type} (answer : Except ε (Removal ρ)) :
    (ofRemoval answer).entered = [] := by
  cases answer <;> rfl

theorem entered_ofExpiry (answer : Except RegistryError (Option (DetachedNode ρ × String))) :
    (ofExpiry answer).entered = [] := by
  rcases answer with _ | _ | _ <;> rfl

theorem entered_ofReport (answer : Except RegistryError NodeRecord) :
    (ofReport answer : Change ρ).entered = [] := by
  cases answer <;> rfl

theorem departed_ofReport (answer : Except RegistryError NodeRecord) :
    (ofReport answer : Change ρ).departed = [] := by
  cases answer <;> rfl

theorem entered_ofRecording (leak : LeakRecord) (answer : Except RegistryError Unit) :
    (ofRecording leak answer : Change ρ).entered = [] := by
  cases answer <;> rfl

theorem departed_ofRecording (leak : LeakRecord) (answer : Except RegistryError Unit) :
    (ofRecording leak answer : Change ρ).departed = [] := by
  cases answer <;> rfl

theorem entered_ofResolution (id : NodeId) (answer : Except StateError Bool) :
    (ofResolution id answer : Change ρ).entered = [] := by
  cases answer <;> rfl

theorem departed_ofResolution (id : NodeId) (answer : Except StateError Bool) :
    (ofResolution id answer : Change ρ).departed = [] := by
  cases answer <;> rfl

end Change

namespace Store

/-- Both tables stay as they are, and no failure comes to be due. -/
structure Stays (s s' : Store) : Prop where
  nodes : s'.nodes = s.nodes
  leaks : s'.leaks = s.leaks
  faults : s'.faults <:+ s.faults

theorem Stays.refl (s : Store) : s.Stays s := ⟨rfl, rfl, List.suffix_rfl⟩

theorem Stays.tail (s : Store) : s.Stays { s with faults := s.faults.tail } :=
  ⟨rfl, rfl, List.tail_suffix _⟩

theorem attempt_stays {α : Type} (s : Store) {call : Store → Except StateError α × Store}
    (h : ∀ s : Store, s.Stays (call s).2) : s.Stays (s.attempt call).2 := by
  rcases s.attempt_cases call with ⟨e, he⟩ | he
  · rw [he]
    exact .tail s
  · rw [he]
    have hcall := h { s with faults := s.faults.tail }
    exact ⟨hcall.nodes, hcall.leaks, hcall.faults.trans (List.tail_suffix _)⟩

theorem getNode_stays (id : NodeId) (s : Store) : s.Stays (s.getNode id).2 :=
  s.attempt_stays fun s => by split <;> exact .refl s

theorem listNodes_stays (s : Store) : s.Stays s.listNodes.2 := s.attempt_stays .refl

theorem listLeaks_stays (s : Store) : s.Stays s.listLeaks.2 := s.attempt_stays .refl

/-- The record that a look-up answers is the one on record. -/
theorem getNode_some {id : NodeId} {s : Store} {record : NodeRecord}
    (h : (s.getNode id).1 = .ok (some record)) : s.record? id = some record := by
  have hcall := attempt_of_ok h
  dsimp only at hcall
  split at hcall
  · cases hcall
  · rename_i row hrow
    refine Table.read?_eq_some_iff.2 ⟨row, hrow, ?_⟩
    cases hd : decodeNode row with
    | error e =>
      rw [hd] at hcall
      cases hcall
    | ok r =>
      rw [hd] at hcall
      cases hcall
      rfl

/-- A look-up that is not due to fail finds a record that can be read. -/
theorem getNode_of_due {s : Store} {id : NodeId} {record : NodeRecord}
    (hdue : s.faults.head?.join = none) (hrecord : s.record? id = some record) :
    s.getNode id = (.ok (some record), { s with faults := s.faults.tail }) := by
  obtain ⟨row, hrow, hdecode⟩ := Table.read?_eq_some_iff.1 hrecord
  rw [getNode, attempt_of_due hdue]
  dsimp only
  rw [hrow]
  dsimp only
  rw [hdecode]
  rfl

theorem getNode_of_record {s : Store} {id : NodeId} {record : NodeRecord} (hcalls : s.faults = [])
    (hrecord : s.record? id = some record) : s.getNode id = (.ok (some record), s) := by
  obtain ⟨nodes, leaks, faults⟩ := s
  cases hcalls
  exact getNode_of_due rfl hrecord

end Store

namespace Registry

variable {ρ : Type}

/-- The release handle of a node. -/
def release? (r : Registry ρ) (id : NodeId) : Option ρ := (r.handles.get? id).bind (·.release)

/-- What must be so for a change to happen. -/
def Admits (r : Registry ρ) : Change ρ → Prop
  | .enters node => r.store.nodes.contains node.record.id = false
  | .leaves removal => r.store.record? removal.node.record.id = some removal.node.record ∧
      removal.node.release = r.release? removal.node.record.id
  | .updates record => ∃ old, r.store.record? record.id = some old ∧ record.Recounts old
  | _ => True

def nodesAfter (r : Registry ρ) : Change ρ → Table
  | .enters node => r.store.nodes.insert node.record.id node.record.toJson.compact
  | .leaves removal => r.store.nodes.erase removal.node.record.id
  | .updates record => r.store.nodes.insert record.id record.toJson.compact
  | _ => r.store.nodes

def leaksAfter (r : Registry ρ) : Change ρ → Table
  | .leaks leak => r.store.leaks.insert leak.nodeId leak.toJson.compact
  | .resolves id => r.store.leaks.erase id
  | _ => r.store.leaks

def handlesAfter (r : Registry ρ) : Change ρ → SortedMap NodeId (Handles ρ)
  | .enters node => r.handles.insert node.record.id ⟨node.retention, node.release⟩
  | .leaves removal => r.handles.erase removal.node.record.id
  | _ => r.handles

/-- A call has led from `r` to `r'` by a change; others may have failed before it. -/
structure Undergoes (r r' : Registry ρ) (c : Change ρ) : Prop where
  admits : r.Admits c
  nodes : r'.store.nodes = r.nodesAfter c
  leaks : r'.store.leaks = r.leaksAfter c
  handles : r'.handles = r.handlesAfter c
  orphanPolicy : r'.orphanPolicy = r.orphanPolicy
  faults : r'.store.faults <:+ r.store.faults

theorem undergoes_store {r : Registry ρ} {s : Store} (h : r.store.Stays s) :
    r.Undergoes { r with store := s } .still :=
  ⟨trivial, h.nodes, h.leaks, rfl, rfl, h.faults⟩

theorem Undergoes.refl (r : Registry ρ) : r.Undergoes r .still := undergoes_store (.refl _)

theorem undergoes_onStore {α : Type} {call : Store → α × Store} (r : Registry ρ)
    (h : r.store.Stays (call r.store).2) : r.Undergoes (r.onStore call).2 .still :=
  undergoes_store h

/-- Calls that change nothing may come before one that does. -/
theorem Undergoes.trans {r r' r'' : Registry ρ} {c : Change ρ} (h : r.Undergoes r' .still)
    (h' : r'.Undergoes r'' c) : r.Undergoes r'' c := by
  have hnodes : r'.store.nodes = r.store.nodes := h.nodes
  have hleaks : r'.store.leaks = r.store.leaks := h.leaks
  have hhandles : r'.handles = r.handles := h.handles
  have hrecord (id : NodeId) : r'.store.record? id = r.store.record? id := by
    rw [Store.record?, hnodes]
    rfl
  refine ⟨?_, ?_, ?_, ?_, h'.orphanPolicy.trans h.orphanPolicy, h'.faults.trans h.faults⟩
  · have hadmits := h'.admits
    cases c with
    | enters node => rwa [Admits, hnodes] at hadmits
    | leaves removal => rwa [Admits, hrecord, release?, hhandles] at hadmits
    | updates record => rwa [Admits, hrecord] at hadmits
    | _ => exact trivial
  · rw [h'.nodes]
    cases c <;> simp only [nodesAfter, hnodes]
  · rw [h'.leaks]
    cases c <;> simp only [leaksAfter, hleaks]
  · rw [h'.handles]
    cases c <;> simp only [handlesAfter, hhandles]

/-! ## Calls -/

theorem get_undergoes (id : NodeId) (r : Registry ρ) : r.Undergoes (r.get id).2 .still := by
  have h := undergoes_onStore r (r.store.getNode_stays id)
  unfold get
  split <;> rename_i he <;> exact congrArg Prod.snd he ▸ h

theorem list_undergoes (r : Registry ρ) : r.Undergoes r.list.2 .still := by
  have h := undergoes_onStore r r.store.listNodes_stays
  unfold list
  split <;> rename_i he <;> exact congrArg Prod.snd he ▸ h

theorem evaluateRetention_undergoes (now : UInt64) (r : Registry ρ) :
    r.Undergoes (r.evaluateRetention now).2 .still := by
  have h := r.list_undergoes
  unfold evaluateRetention
  split <;> rename_i he <;> exact congrArg Prod.snd he ▸ h

theorem recordLeak_undergoes (leak : LeakRecord) (r : Registry ρ) :
    r.Undergoes (r.recordLeak leak).2 (.ofRecording leak (r.recordLeak leak).1) := by
  rcases r.store.attempt_cases fun s : Store =>
    (Except.ok (), { s with leaks := s.leaks.insert leak.nodeId leak.toJson.compact })
    with ⟨e, he⟩ | he
  · have he' : r.store.putLeak leak = _ := he
    simp only [recordLeak, onStore, he']
    exact undergoes_store (.tail _)
  · have he' : r.store.putLeak leak = _ := he
    simp only [recordLeak, onStore, he']
    exact ⟨trivial, rfl, rfl, rfl, rfl, List.tail_suffix _⟩

theorem deleteLeak_undergoes (id : NodeId) (r : Registry ρ) :
    r.Undergoes (r.onStore (Store.deleteLeak id)).2
      (.ofResolution id (r.onStore (Store.deleteLeak id)).1) := by
  rcases r.store.attempt_cases fun s : Store =>
    (Except.ok (s.leaks.contains id), { s with leaks := s.leaks.erase id }) with ⟨e, he⟩ | he
  · have he' : r.store.deleteLeak id = _ := he
    simp only [onStore, he']
    exact undergoes_store (.tail _)
  · have he' : r.store.deleteLeak id = _ := he
    simp only [onStore, he']
    exact ⟨trivial, rfl, rfl, rfl, rfl, List.tail_suffix _⟩

theorem register_undergoes (node : RealizedNode ρ) (r : Registry ρ) :
    r.Undergoes (r.register node).2 (.ofRegistration node (r.register node).1) := by
  rcases r.store.insertNodeIfAbsent_cases node.record with ⟨e, he⟩ | ⟨_, he⟩ | ⟨hc, he⟩
  · simp only [register, onStore, he]
    exact undergoes_store (.tail _)
  · simp only [register, onStore, he]
    exact undergoes_store (.tail _)
  · simp only [register, onStore, he]
    exact ⟨hc, rfl, rfl, rfl, rfl, List.tail_suffix _⟩

/-- A record on record is taken out, with its handle, or stays. -/
theorem detachRecord_undergoes {record : NodeRecord} {r : Registry ρ}
    (h : r.store.record? record.id = some record) (reason : String) :
    r.Undergoes (r.detachRecord record).2
      (.ofRemoval ((r.detachRecord record).1.map fun node => ⟨node, reason⟩)) := by
  rcases r.store.attempt_cases fun s : Store =>
    (Except.ok (s.nodes.contains record.id), { s with nodes := s.nodes.erase record.id })
    with ⟨e, he⟩ | he
  · have he' : r.store.deleteNode record.id = _ := he
    simp only [detachRecord, onStore, he']
    exact undergoes_store (.tail _)
  · have he' : r.store.deleteNode record.id = _ := he
    simp only [detachRecord, onStore, he']
    exact ⟨⟨h, rfl⟩, rfl, rfl, rfl, rfl, List.tail_suffix _⟩

/-- What a look-up finds, and that it changes nothing. -/
theorem getNode_undergoes {r r' : Registry ρ} {id : NodeId} {record : NodeRecord}
    (hkeyed : r.store.Keyed) (h : r.onStore (Store.getNode id) = (.ok (some record), r')) :
    r.Undergoes r' .still ∧ r.store.record? id = some record ∧ record.id = id ∧
      r'.store.record? record.id = some record := by
  have hstill := undergoes_onStore r (r.store.getNode_stays id)
  rw [h] at hstill
  have hfound : r.store.record? id = some record :=
    Store.getNode_some (congrArg Prod.fst h)
  have hid : record.id = id := hkeyed id record hfound
  refine ⟨hstill, hfound, hid, ?_⟩
  have hnodes : r'.store.nodes = r.store.nodes := hstill.nodes
  rw [Store.record?, hnodes, hid]
  exact hfound

theorem detach_undergoes (id : NodeId) {r : Registry ρ} (hkeyed : r.store.Keyed)
    (horderly : r.Orderly) (reason : String) :
    r.Undergoes (r.detach id).2 (match (r.detach id).1 with
      | .ok (some node) => .leaves ⟨node, reason⟩
      | _ => .still) := by
  have hstill := undergoes_onStore r (r.store.getNode_stays id)
  unfold detach
  cases hg : r.onStore (Store.getNode id) with
  | mk answer r' =>
    rw [hg] at hstill
    cases answer with
    | error e => exact hstill
    | ok found =>
      cases found with
      | none =>
        -- where there is no row, there are no handles to drop
        have hfree : r'.handles.get? id = none := by
          have hhandles : r'.handles = r.handles := hstill.handles
          have habsent := Store.getNode_none (congrArg Prod.fst hg)
          rw [hhandles, ← Option.not_isSome_iff_eq_none]
          intro hsome
          rw [horderly id hsome] at habsent
          cases habsent
        dsimp only
        rw [SortedMap.erase_of_get?_eq_none hfree]
        exact hstill
      | some record =>
        obtain ⟨-, -, -, hfound⟩ := getNode_undergoes hkeyed hg
        have hout := detachRecord_undergoes hfound reason
        dsimp only
        cases hr : r'.detachRecord record with
        | mk answer r'' =>
          rw [hr] at hout
          cases answer <;> exact hstill.trans hout

theorem detachExpired_undergoes (id : NodeId) (now : UInt64) {r : Registry ρ}
    (hkeyed : r.store.Keyed) :
    r.Undergoes (r.detachExpired id now).2 (.ofExpiry (r.detachExpired id now).1) := by
  have hstill := undergoes_onStore r (r.store.getNode_stays id)
  unfold detachExpired
  cases hg : r.onStore (Store.getNode id) with
  | mk answer r' =>
    rw [hg] at hstill
    cases answer with
    | error e => exact hstill
    | ok found =>
      cases found with
      | none => exact hstill
      | some record =>
        dsimp only
        cases r'.decide record now with
        | keep => exact hstill
        | remove reason =>
          obtain ⟨-, -, -, hfound⟩ := getNode_undergoes hkeyed hg
          have hout := detachRecord_undergoes hfound reason
          dsimp only
          cases hr : r'.detachRecord record with
          | mk answer r'' =>
            rw [hr] at hout
            cases answer <;> exact hstill.trans hout

theorem updateActivity_undergoes (id : NodeId) (busy pending : UInt32) (now : UInt64)
    {r : Registry ρ} (hkeyed : r.store.Keyed) :
    r.Undergoes (r.updateActivity id busy pending now).2
      (.ofReport (r.updateActivity id busy pending now).1) := by
  have hstill := undergoes_onStore r (r.store.getNode_stays id)
  unfold updateActivity
  cases hg : r.onStore (Store.getNode id) with
  | mk answer r' =>
    rw [hg] at hstill
    cases answer with
    | error e => exact hstill
    | ok found =>
      cases found with
      | none => exact hstill
      | some record =>
        obtain ⟨-, -, -, hfound⟩ := getNode_undergoes hkeyed hg
        refine hstill.trans ?_
        rcases r'.store.attempt_cases fun s : Store => (Except.ok (), { s with
          nodes := s.nodes.insert (record.reportActivity busy pending now).id
            (record.reportActivity busy pending now).toJson.compact }) with ⟨e, he⟩ | he
        · have he' : r'.store.putNode (record.reportActivity busy pending now) = _ := he
          simp only [onStore, he']
          exact undergoes_store (.tail _)
        · have he' : r'.store.putNode (record.reportActivity busy pending now) = _ := he
          simp only [onStore, he']
          exact ⟨⟨record, hfound, record.recounts_reportActivity busy pending now⟩, rfl, rfl, rfl,
            rfl, List.tail_suffix _⟩

/-! ## Nodes that come out -/

/-- What comes out is the record that was to go, with its handle. -/
theorem detachRecord_ok {record : NodeRecord} {r : Registry ρ} {node : DetachedNode ρ}
    (h : (r.detachRecord record).1 = .ok node) : node = ⟨record, r.release? record.id⟩ := by
  rcases r.store.attempt_cases fun s : Store =>
    (Except.ok (s.nodes.contains record.id), { s with nodes := s.nodes.erase record.id })
    with ⟨e, he⟩ | he
  · have he' : r.store.deleteNode record.id = _ := he
    simp only [detachRecord, onStore, he'] at h
    cases h
  · have he' : r.store.deleteNode record.id = _ := he
    simp only [detachRecord, onStore, he'] at h
    cases h
    rfl

/-- Where the call is not due to fail, a record goes when it is to go. -/
theorem detachRecord_of_due {r : Registry ρ} (hdue : r.store.faults.head?.join = none)
    (record : NodeRecord) : (r.detachRecord record).1 = .ok ⟨record, r.release? record.id⟩ := by
  unfold detachRecord onStore Store.deleteNode
  rw [Store.attempt_of_due hdue]
  rfl

/-- Where neither of its calls is due to fail, a removal takes out a record that can be read. -/
theorem detach_of_due {r : Registry ρ} {id : NodeId} {record : NodeRecord}
    (hdue : ∀ fault ∈ r.store.faults.take 2, fault = none)
    (hrecord : r.store.record? id = some record) (hid : record.id = id) :
    (r.detach id).1 = .ok (some ⟨record, r.release? id⟩) := by
  obtain ⟨⟨nodes, leaks, faults⟩, handles, orphanPolicy⟩ := r
  have hlook : faults.head?.join = none := by
    rcases faults with _ | ⟨fault, faults⟩
    · rfl
    · exact hdue fault List.mem_cons_self
  have hdelete : faults.tail.head?.join = none := by
    rcases faults with _ | ⟨_, _ | ⟨fault, faults⟩⟩
    · rfl
    · rfl
    · exact hdue fault (List.mem_cons_of_mem _ List.mem_cons_self)
  subst hid
  have hout := detachRecord_of_due
    (r := ⟨⟨nodes, leaks, faults.tail⟩, handles, orphanPolicy⟩) hdelete record
  unfold detach onStore
  rw [Store.getNode_of_due hlook hrecord]
  dsimp only
  cases hr : detachRecord record _ with
  | mk answer r' =>
    rw [hr] at hout
    cases hout
    rfl

/-- A removal takes out the record that is there when it comes to it. -/
theorem detach_some {id : NodeId} {r : Registry ρ} {node : DetachedNode ρ}
    (hkeyed : r.store.Keyed) (h : (r.detach id).1 = .ok (some node)) :
    r.store.record? id = some node.record ∧ node.record.id = id := by
  unfold detach at h
  cases hg : r.onStore (Store.getNode id) with
  | mk answer r' =>
    rw [hg] at h
    rcases answer with e | _ | record
    · cases h
    · cases h
    · obtain ⟨-, hfound, hid, -⟩ := getNode_undergoes hkeyed hg
      dsimp only at h
      cases hr : r'.detachRecord record with
      | mk answer r'' =>
        rw [hr] at h
        cases answer with
        | error e => cases h
        | ok out =>
          cases h
          rw [detachRecord_ok (congrArg Prod.fst hr)]
          exact ⟨hfound, hid⟩

/-- The record that a report answers goes by the id of the node that was reported. -/
theorem updateActivity_ok {id : NodeId} {busy pending : UInt32} {now : UInt64} {r : Registry ρ}
    {record : NodeRecord} (hkeyed : r.store.Keyed)
    (h : (r.updateActivity id busy pending now).1 = .ok record) : record.id = id := by
  unfold updateActivity at h
  cases hg : r.onStore (Store.getNode id) with
  | mk answer r' =>
    rw [hg] at h
    rcases answer with e | _ | old
    · cases h
    · cases h
    · obtain ⟨-, -, hid, -⟩ := getNode_undergoes hkeyed hg
      dsimp only at h
      split at h
      · cases h
      · cases h
        exact hid

/-- The policy in force for a node: its own, or the one for orphans. -/
def inForce (r : Registry ρ) (id : NodeId) : Option Policy :=
  ((r.handles.get? id).map (·.retention)).or r.orphanPolicy

theorem decide_eq (r : Registry ρ) (record : NodeRecord) (now : UInt64) :
    r.decide record now =
      ((r.inForce record.id).map fun policy => policy.check record now).getD .keep := by
  unfold decide inForce
  cases r.handles.get? record.id with
  | some handles => rfl
  | none => cases r.orphanPolicy <;> rfl

theorem decide_eq_remove {r : Registry ρ} {record : NodeRecord} {now : UInt64} {reason : String}
    (h : r.decide record now = .remove reason) :
    ∃ policy, r.inForce record.id = some policy ∧ policy.check record now = .remove reason := by
  rw [decide_eq] at h
  cases hp : r.inForce record.id with
  | none =>
    rw [hp] at h
    cases h
  | some policy =>
    rw [hp] at h
    exact ⟨policy, rfl, h⟩

/-- A sweep takes out the record that is there when it comes to it, if the policy in force by
then says so of that record. -/
theorem detachExpired_some {id : NodeId} {now : UInt64} {r : Registry ρ} {node : DetachedNode ρ}
    {reason : String} (hkeyed : r.store.Keyed)
    (h : (r.detachExpired id now).1 = .ok (some (node, reason))) :
    r.store.record? id = some node.record ∧ node.record.id = id ∧
      ∃ policy, r.inForce id = some policy ∧ policy.check node.record now = .remove reason := by
  unfold detachExpired at h
  cases hg : r.onStore (Store.getNode id) with
  | mk answer r' =>
    rw [hg] at h
    rcases answer with e | _ | record
    · cases h
    · cases h
    · obtain ⟨hstill, hfound, hid, -⟩ := getNode_undergoes hkeyed hg
      dsimp only at h
      cases hd : r'.decide record now with
      | keep =>
        rw [hd] at h
        cases h
      | remove why =>
        rw [hd] at h
        obtain ⟨policy, hforce, hcheck⟩ := decide_eq_remove hd
        have hsame : r'.inForce record.id = r.inForce id := by
          have hhandles : r'.handles = r.handles := hstill.handles
          rw [inForce, hhandles, hstill.orphanPolicy, hid]
          rfl
        dsimp only at h
        cases hr : r'.detachRecord record with
        | mk answer r'' =>
          rw [hr] at h
          cases answer with
          | error e => cases h
          | ok out =>
            cases h
            rw [detachRecord_ok (congrArg Prod.fst hr)]
            exact ⟨hfound, hid, policy, hsame ▸ hforce, hcheck⟩

/-! ## Records -/

namespace Undergoes

variable {r r' : Registry ρ} {c : Change ρ}

/-- The records that the rows hold change in one place. -/
theorem record? (h : r.Undergoes r' c) : r'.store.record? = c.records r.store.record? := by
  funext id
  rw [Store.record?, h.nodes]
  cases c with
  | enters node =>
    rw [nodesAfter, Table.read?_insert (Store.decodeNode_compact _), Change.records,
      Function.update_apply]
    rfl
  | leaves removal =>
    rw [nodesAfter, Table.read?_erase, Change.records, Function.update_apply]
    rfl
  | updates record =>
    rw [nodesAfter, Table.read?_insert (Store.decodeNode_compact _), Change.records,
      Function.update_apply]
    rfl
  | _ => rfl

theorem leak? (h : r.Undergoes r' c) : r'.store.leak? = c.noted r.store.leak? := by
  funext id
  rw [Store.leak?, h.leaks]
  cases c with
  | leaks leak =>
    rw [leaksAfter, Table.read?_insert (Store.decodeLeak_compact _), Change.noted,
      Function.update_apply]
    rfl
  | resolves id =>
    rw [leaksAfter, Table.read?_erase, Change.noted, Function.update_apply]
    rfl
  | _ => rfl

theorem keyed (h : r.Undergoes r' c) (hkeyed : r.store.Keyed) : r'.store.Keyed := by
  rw [Store.Keyed, h.nodes]
  cases c with
  | enters node => exact Table.Keyed.insert hkeyed (Store.decodeNode_compact _)
  | leaves removal => exact Table.Keyed.erase hkeyed _
  | updates record => exact Table.Keyed.insert hkeyed (Store.decodeNode_compact _)
  | _ => exact hkeyed

/-- All that is written can be read. -/
theorem readable (h : r.Undergoes r' c)
    (hrows : r.store.nodes.Readable Store.decodeNode (·.id)) :
    r'.store.nodes.Readable Store.decodeNode (·.id) := by
  rw [h.nodes]
  cases c with
  | enters node => exact hrows.insert (Store.decodeNode_compact _)
  | leaves removal => exact hrows.erase _
  | updates record => exact hrows.insert (Store.decodeNode_compact _)
  | _ => exact hrows

/-- Where no call has failed none does. -/
theorem intact (h : r.Undergoes r' c) (hintact : r.store.Intact) : r'.store.Intact := by
  refine ⟨?_, h.readable hintact.nodes, ?_⟩
  · have hfaults := h.faults
    rw [hintact.calls] at hfaults
    exact List.suffix_nil.1 hfaults
  · rw [h.leaks]
    cases c with
    | leaks leak => exact hintact.leaks.insert (Store.decodeLeak_compact _)
    | resolves id => exact hintact.leaks.erase _
    | _ => exact hintact.leaks

end Undergoes

/-- What becomes of the record and of the handles of one id by a change. -/
inductive Fares (r r' : Registry ρ) (c : Change ρ) (id : NodeId) : Prop
  | entered {node : RealizedNode ρ} (enters : c = .enters node) (own : node.record.id = id)
      (record : r'.store.record? id = some node.record)
      (handles : r'.handles.get? id = some ⟨node.retention, node.release⟩) : Fares r r' c id
  | left (record : r'.store.record? id = none) (handles : r'.handles.get? id = none) :
      Fares r r' c id
  | kept (record : Option.Rel NodeRecord.Recounts (r'.store.record? id) (r.store.record? id))
      (handles : r'.handles.get? id = r.handles.get? id) : Fares r r' c id

theorem Undergoes.fares {r r' : Registry ρ} {c : Change ρ} (h : r.Undergoes r' c)
    (id : NodeId) : Fares r r' c id := by
  have hrecord := congrFun h.record? id
  have hhandles := congrArg (·.get? id) h.handles
  have hadmits := h.admits
  have hsame (record : Option NodeRecord) : Option.Rel NodeRecord.Recounts record record := by
    cases record with
    | none => exact .none
    | some record => exact .some (.refl record)
  cases c with
  | enters node =>
    rw [Change.records, Function.update_apply] at hrecord
    rw [handlesAfter, SortedMap.get?_insert] at hhandles
    by_cases hid : id = node.record.id
    · rw [if_pos hid] at hrecord hhandles
      exact .entered rfl hid.symm hrecord hhandles
    · rw [if_neg hid] at hrecord hhandles
      exact .kept (hrecord ▸ hsame _) hhandles
  | leaves removal =>
    rw [Change.records, Function.update_apply] at hrecord
    rw [handlesAfter, SortedMap.get?_erase] at hhandles
    by_cases hid : id = removal.node.record.id
    · rw [if_pos hid] at hrecord hhandles
      exact .left hrecord hhandles
    · rw [if_neg hid] at hrecord hhandles
      exact .kept (hrecord ▸ hsame _) hhandles
  | updates record =>
    rw [Change.records, Function.update_apply] at hrecord
    refine .kept ?_ hhandles
    by_cases hid : id = record.id
    · obtain ⟨old, hold, hcounts⟩ := hadmits
      rw [hrecord, if_pos hid, hid, hold]
      exact .some hcounts
    · rw [hrecord, if_neg hid]
      exact hsame _
  | _ => exact .kept (hrecord ▸ hsame _) hhandles

/-! ## Ids -/

/-- The ids of the nodes on record. -/
def ids (r : Registry ρ) : Multiset NodeId := (r.store.nodes.keys : Multiset NodeId)

theorem mem_ids {r : Registry ρ} {id : NodeId} :
    id ∈ r.ids ↔ r.store.nodes.contains id = true := by
  rw [ids, Multiset.mem_coe, SortedMap.mem_keys]

theorem nodup_ids (r : Registry ρ) : r.ids.Nodup :=
  Multiset.coe_nodup.2 r.store.nodes.nodup_keys

/-- The ids on record are those from before, with the one that has entered and without the one
that has left. -/
theorem Undergoes.ids {r r' : Registry ρ} {c : Change ρ} (h : r.Undergoes r' c) :
    r'.ids + (c.departed.map (·.node.record.id) : List NodeId) =
      r.ids + (c.entered : Multiset NodeId) := by
  have hkeys {m m' : Table} {k : String} {row : String}
      (hperm : m'.entries.Perm ((k, row) :: m.entries)) :
      (m'.keys : Multiset NodeId) = (m.keys : Multiset NodeId) + ([k] : List NodeId) := by
    rw [Multiset.coe_add, Multiset.coe_eq_coe]
    exact (hperm.map Prod.fst).trans (List.perm_append_singleton k _).symm
  have hpresent {k : NodeId} {a : NodeRecord} (hk : r.store.record? k = some a) :
      ∃ row, r.store.nodes.get? k = some row := by
    obtain ⟨row, hrow, -⟩ := Table.read?_eq_some_iff.1 hk
    exact ⟨row, hrow⟩
  rw [Registry.ids, h.nodes]
  have hadmits := h.admits
  cases c with
  | enters node =>
    have habsent : r.store.nodes.get? node.record.id = none := by
      rw [← Option.not_isSome_iff_eq_none]
      exact Bool.eq_false_iff.1 hadmits
    exact (add_zero _).trans (hkeys (SortedMap.perm_insert habsent _))
  | leaves removal =>
    obtain ⟨row, hrow⟩ := hpresent hadmits.1
    exact (hkeys (SortedMap.perm_erase hrow)).symm.trans (add_zero _).symm
  | updates record =>
    obtain ⟨old, hold, -⟩ := hadmits
    obtain ⟨row, hrow⟩ := hpresent hold
    -- a row that is written anew stands where the old one stood
    have hsame : r.store.nodes.insert record.id record.toJson.compact =
        (r.store.nodes.erase record.id).insert record.id record.toJson.compact := by
      refine SortedMap.ext_get? fun k => ?_
      rw [SortedMap.get?_insert, SortedMap.get?_insert, SortedMap.get?_erase]
      split <;> rfl
    have hnone : (r.store.nodes.erase record.id).get? record.id = none := by
      rw [SortedMap.get?_erase, if_pos rfl]
    rw [nodesAfter, hsame, hkeys (SortedMap.perm_insert hnone _),
      ← hkeys (SortedMap.perm_erase hrow)]
    rfl
  | _ => rfl

end Registry

end Fleet
