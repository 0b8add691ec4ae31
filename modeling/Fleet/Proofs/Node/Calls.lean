import Fleet.Proofs.Node.Change
import Mathlib

/-!
# Calls to a registry, one after the other

A `Call` is asked of the registry with what it is given, and `Registry.run` asks some in a row
and notes what each is answered.  A call that is answered with an error changes nothing but the
failures to come (`Call.still_of_fails`); any other makes one `Change`.  So two things hold at
every time.  The registry is `Coherent`: rows are those of their own keys, and who has handles
has a record that can be read.  And the handles of an id can be read off the answers so far
(`Answered.standing`): they are those of the last registration under the id that was answered
with `added`, unless the node has been taken out since.
-/

namespace Fleet

namespace Table

variable {α : Type} {decode : String → Except StateError α} {key : α → String} {t : Table}

theorem decode_of_decodeAll {rows : List String} {xs : List α}
    (h : Store.decodeAll decode rows = .ok xs) {row : String} (hrow : row ∈ rows) :
    ∃ a, decode row = .ok a := by
  induction rows generalizing xs with
  | nil => cases hrow
  | cons first rows ih =>
    rw [Store.decodeAll] at h
    cases ha : decode first with
    | error e =>
      rw [ha] at h
      cases h
    | ok a =>
      rcases List.mem_cons.1 hrow with rfl | hrow
      · exact ⟨a, ha⟩
      · cases hrest : Store.decodeAll decode rows with
        | error e =>
          rw [ha, hrest] at h
          cases h
        | ok rest => exact ih hrest hrow

/-- A table that has been listed could be read. -/
theorem Keyed.readable {xs : List α} (hkeyed : t.Keyed decode key)
    (h : Store.decodeAll decode t.values = .ok xs) : t.Readable decode key := by
  intro k hk
  obtain ⟨row, hrow⟩ := SortedMap.contains_iff.1 hk
  have hvalue : row ∈ t.values :=
    List.mem_map.2 ⟨(k, row), SortedMap.get?_eq_some_iff.1 hrow, rfl⟩
  obtain ⟨a, ha⟩ := decode_of_decodeAll h hvalue
  have hread : t.read? decode k = some a := read?_eq_some_iff.2 ⟨row, hrow, ha⟩
  exact ⟨a, hread, hkeyed k a hread⟩

end Table

namespace Registry

variable {ρ : Type}

/-! ## Answers that say that nothing has changed -/

theorem detachRecord_still {record : NodeRecord} {r : Registry ρ} {e : RegistryError}
    (h : (r.detachRecord record).1 = .error e) : r.Undergoes (r.detachRecord record).2 .still := by
  rcases r.store.attempt_cases fun s : Store =>
    (Except.ok (s.nodes.contains record.id), { s with nodes := s.nodes.erase record.id })
    with ⟨e, he⟩ | he
  · have he' : r.store.deleteNode record.id = _ := he
    simp only [detachRecord, onStore, he']
    exact undergoes_store (.tail _)
  · have he' : r.store.deleteNode record.id = _ := he
    simp only [detachRecord, onStore, he'] at h
    cases h

/-- A removal that takes out no node drops no handles, since there are none without a row. -/
theorem detach_still {id : NodeId} {r : Registry ρ} (horderly : r.Orderly)
    (h : ∀ node, (r.detach id).1 ≠ .ok (some node)) : r.Undergoes (r.detach id).2 .still := by
  have hstill := undergoes_onStore r (r.store.getNode_stays id)
  unfold detach at h ⊢
  cases hg : r.onStore (Store.getNode id) with
  | mk answer r' =>
    rw [hg] at hstill h
    rcases answer with e | _ | record
    · exact hstill
    · have hhandles : r'.handles = r.handles := hstill.handles
      have habsent : r.store.nodes.contains id = false :=
        Store.getNode_none (congrArg Prod.fst hg)
      have hfree : r'.handles.get? id = none := by
        rw [hhandles, ← Option.not_isSome_iff_eq_none]
        intro hsome
        rw [horderly id hsome] at habsent
        cases habsent
      show r.Undergoes { r' with handles := r'.handles.erase id } .still
      rw [SortedMap.erase_of_get?_eq_none hfree]
      exact hstill
    · dsimp only at h ⊢
      cases hr : r'.detachRecord record with
      | mk answer r'' =>
        rw [hr] at h
        cases answer with
        | error e =>
          have hout := detachRecord_still (congrArg Prod.fst hr)
          rw [hr] at hout
          exact hstill.trans hout
        | ok node => exact absurd rfl (h node)

theorem detachExpired_still {id : NodeId} {now : UInt64} {r : Registry ρ}
    (h : ∀ out, (r.detachExpired id now).1 ≠ .ok (some out)) :
    r.Undergoes (r.detachExpired id now).2 .still := by
  have hstill := undergoes_onStore r (r.store.getNode_stays id)
  unfold detachExpired at h ⊢
  cases hg : r.onStore (Store.getNode id) with
  | mk answer r' =>
    rw [hg] at hstill h
    rcases answer with e | _ | record
    · exact hstill
    · exact hstill
    · dsimp only at h ⊢
      cases hd : r'.decide record now with
      | keep => exact hstill
      | remove reason =>
        rw [hd] at h
        dsimp only at h ⊢
        cases hr : r'.detachRecord record with
        | mk answer r'' =>
          rw [hr] at h
          cases answer with
          | error e =>
            have hout := detachRecord_still (congrArg Prod.fst hr)
            rw [hr] at hout
            exact hstill.trans hout
          | ok node => exact absurd rfl (h (node, reason))

theorem updateActivity_still {id : NodeId} {busy pending : UInt32} {now : UInt64}
    {r : Registry ρ} {e : RegistryError}
    (h : (r.updateActivity id busy pending now).1 = .error e) :
    r.Undergoes (r.updateActivity id busy pending now).2 .still := by
  have hstill := undergoes_onStore r (r.store.getNode_stays id)
  unfold updateActivity at h ⊢
  cases hg : r.onStore (Store.getNode id) with
  | mk answer r' =>
    rw [hg] at hstill h
    rcases answer with e | _ | record
    · exact hstill
    · exact hstill
    · dsimp only at h ⊢
      rcases r'.store.attempt_cases fun s : Store => (Except.ok (), { s with
          nodes := s.nodes.insert (record.reportActivity busy pending now).id
            (record.reportActivity busy pending now).toJson.compact }) with ⟨e, he⟩ | he
      · have he' : r'.store.putNode (record.reportActivity busy pending now) = _ := he
        simp only [onStore, he']
        exact hstill.trans (undergoes_store (.tail _))
      · have he' : r'.store.putNode (record.reportActivity busy pending now) = _ := he
        simp only [onStore, he'] at h
        cases h

theorem orphans_undergoes (r : Registry ρ) : r.Undergoes r.orphans.2 .still := by
  have h := r.list_undergoes
  unfold orphans
  split <;> rename_i he <;> exact congrArg Prod.snd he ▸ h

/-! ## Calls and their answers -/

/-- A call with what it is given. -/
inductive Call (ρ : Type) where
  | register (node : RealizedNode ρ)
  | detach (id : NodeId)
  | detachExpired (id : NodeId) (now : UInt64)
  | get (id : NodeId)
  | list
  | updateActivity (id : NodeId) (busy pending : UInt32) (now : UInt64)
  | evaluateRetention (now : UInt64)
  | orphans
  | recordLeak (leak : LeakRecord)

namespace Call

/-- What a call can be answered. -/
def Answer : Call ρ → Type
  | register _ => Registration ρ
  | detach _ => Except RegistryError (Option (DetachedNode ρ))
  | detachExpired _ _ => Except RegistryError (Option (DetachedNode ρ × String))
  | get _ => Except RegistryError (Option NodeRecord)
  | list => Except RegistryError (List NodeRecord)
  | updateActivity _ _ _ _ => Except RegistryError NodeRecord
  | evaluateRetention _ => Except RegistryError (List (NodeRecord × Decision))
  | orphans => Except RegistryError (List NodeId)
  | recordLeak _ => Except RegistryError Unit

def perform : (call : Call ρ) → Registry ρ → call.Answer × Registry ρ
  | register node, r => r.register node
  | detach id, r => r.detach id
  | detachExpired id now, r => r.detachExpired id now
  | get id, r => r.get id
  | list, r => r.list
  | updateActivity id busy pending now, r => r.updateActivity id busy pending now
  | evaluateRetention now, r => r.evaluateRetention now
  | orphans, r => r.orphans
  | recordLeak leak, r => r.recordLeak leak

/-- Whether an answer is an error. -/
def fails : (call : Call ρ) → call.Answer → Bool
  | register _, Registration.failed _ _ => true
  | register _, Registration.added => false
  | register _, Registration.duplicate _ => false
  | detach _, answer => !Except.isOk answer
  | detachExpired _ _, answer => !Except.isOk answer
  | get _, answer => !Except.isOk answer
  | list, answer => !Except.isOk answer
  | updateActivity _ _ _ _, answer => !Except.isOk answer
  | evaluateRetention _, answer => !Except.isOk answer
  | orphans, answer => !Except.isOk answer
  | recordLeak _, answer => !Except.isOk answer

/-- What an answer says is kept in memory for an id from now on, if it says so: what a node
brings that is added under it, and nothing once its node has been taken out. -/
def sets (id : NodeId) : (call : Call ρ) → call.Answer → Option (Option (Handles ρ))
  | register node, Registration.added =>
    if node.record.id = id then some (some ⟨node.retention, node.release⟩) else none
  | detach k, Except.ok (some _) => if k = id then some none else none
  | detachExpired k _, Except.ok (some _) => if k = id then some none else none
  | _, _ => none

theorem still_of_fails {call : Call ρ} {r : Registry ρ} (horderly : r.Orderly)
    (h : call.fails (call.perform r).1 = true) : r.Undergoes (call.perform r).2 .still := by
  have hnot {α : Type} {answer : Except RegistryError α} (h : (!answer.isOk) = true) :
      ∃ e, answer = .error e := by
    cases answer with
    | error e => exact ⟨e, rfl⟩
    | ok a => cases h
  cases call with
  | register node =>
    have hregister := r.register_undergoes node
    change fails (register node) (r.register node).1 = true at h
    cases ha : (r.register node).1 with
    | failed e back =>
      rw [ha] at hregister
      exact hregister
    | added =>
      rw [ha] at h
      cases h
    | duplicate back =>
      rw [ha] at h
      cases h
  | detach id =>
    obtain ⟨e, he⟩ := hnot h
    refine detach_still horderly fun node hnode => ?_
    change (r.detach id).1 = .error e at he
    rw [he] at hnode
    cases hnode
  | detachExpired id now =>
    obtain ⟨e, he⟩ := hnot h
    refine detachExpired_still fun out hout => ?_
    change (r.detachExpired id now).1 = .error e at he
    rw [he] at hout
    cases hout
  | get id => exact r.get_undergoes id
  | list => exact r.list_undergoes
  | updateActivity id busy pending now =>
    obtain ⟨e, he⟩ := hnot h
    exact updateActivity_still he
  | evaluateRetention now => exact r.evaluateRetention_undergoes now
  | orphans => exact r.orphans_undergoes
  | recordLeak leak =>
    obtain ⟨e, he⟩ := hnot h
    have hrecord := r.recordLeak_undergoes leak
    change (r.recordLeak leak).1 = .error e at he
    rw [he] at hrecord
    exact hrecord

end Call

/-- Rows are those of their own keys, and who has handles has a record that can be read. -/
structure Coherent (r : Registry ρ) : Prop where
  keyed : r.store.Keyed
  recorded : ∀ id handles, r.handles.get? id = some handles →
    ∃ record, r.store.record? id = some record ∧ record.id = id

theorem Coherent.orderly {r : Registry ρ} (h : r.Coherent) : r.Orderly := by
  intro id hsome
  obtain ⟨handles, hhandles⟩ := Option.isSome_iff_exists.1 hsome
  obtain ⟨record, hrecord, -⟩ := h.recorded id handles hhandles
  exact Table.contains_of_read? hrecord

theorem Undergoes.coherent {r r' : Registry ρ} {c : Change ρ} (h : r.Undergoes r' c)
    (hr : r.Coherent) : r'.Coherent := by
  have hkeyed := h.keyed hr.keyed
  refine ⟨hkeyed, fun id handles hhandles => ?_⟩
  have hread : ∃ record, r'.store.record? id = some record := by
    cases h.fares id with
    | entered _ _ hrecord _ => exact ⟨_, hrecord⟩
    | left _ hnone =>
      rw [hnone] at hhandles
      cases hhandles
    | kept hrecord hsame =>
      rw [hsame] at hhandles
      obtain ⟨record, hold, -⟩ := hr.recorded id handles hhandles
      rw [hold] at hrecord
      cases hnew : r'.store.record? id with
      | none =>
        rw [hnew] at hrecord
        cases hrecord
      | some record' => exact ⟨record', rfl⟩
  obtain ⟨record, hrecord⟩ := hread
  exact ⟨record, hrecord, hkeyed id record hrecord⟩

theorem coherent_ofStore {store : Store} (h : store.Keyed) (orphanPolicy : Option Policy) :
    (ofStore store orphanPolicy : Registry ρ).Coherent :=
  ⟨h, nofun⟩

namespace Call

/-- A call makes one change, and what is kept for an id after it is what its answer says. -/
structure Told (call : Call ρ) (r : Registry ρ) : Prop where
  change : ∃ c, r.Undergoes (call.perform r).2 c
  handles : ∀ id, (call.perform r).2.handles.get? id =
    (call.sets id (call.perform r).1).getD (r.handles.get? id)

theorem Told.of_spared {call : Call ρ} {r : Registry ρ} {c : Change ρ}
    (hc : r.Undergoes (call.perform r).2 c) (hspared : r.handlesAfter c = r.handles)
    (hsets : ∀ id, call.sets id (call.perform r).1 = none) : call.Told r := by
  refine ⟨⟨c, hc⟩, fun id => ?_⟩
  rw [hsets id, Option.getD_none, hc.handles, hspared]

/-- What goes by `id` after the handles under `k` have been dropped. -/
theorem get?_leaves {r : Registry ρ} {node : DetachedNode ρ} {reason : String} {k : NodeId}
    (hid : node.record.id = k) (id : NodeId) :
    (r.handlesAfter (.leaves ⟨node, reason⟩)).get? id =
      (if k = id then some none else none : Option (Option (Handles ρ))).getD
        (r.handles.get? id) := by
  show (r.handles.erase node.record.id).get? id = _
  rw [SortedMap.get?_erase, hid]
  by_cases hk : k = id
  · rw [if_pos hk.symm, if_pos hk, Option.getD_some]
  · rw [if_neg (Ne.symm hk), if_neg hk, Option.getD_none]

theorem told_register (node : RealizedNode ρ) (r : Registry ρ) : (register node).Told r := by
  have hregister := r.register_undergoes node
  cases ha : (r.register node).1 with
  | failed e back =>
    rw [ha] at hregister
    exact .of_spared hregister rfl fun id => by rw [perform, ha]; rfl
  | duplicate back =>
    rw [ha] at hregister
    exact .of_spared hregister rfl fun id => by rw [perform, ha]; rfl
  | added =>
    rw [ha] at hregister
    refine ⟨⟨_, hregister⟩, fun id => ?_⟩
    have hsets : sets id (register node) ((register node).perform r).1 =
        if node.record.id = id then some (some ⟨node.retention, node.release⟩) else none := by
      rw [perform, ha]
      rfl
    rw [hsets]
    show (r.register node).2.handles.get? id = _
    rw [hregister.handles]
    show (r.handles.insert node.record.id ⟨node.retention, node.release⟩).get? id = _
    rw [SortedMap.get?_insert]
    by_cases hid : node.record.id = id
    · rw [if_pos hid.symm, if_pos hid, Option.getD_some]
    · rw [if_neg (Ne.symm hid), if_neg hid, Option.getD_none]

theorem told_detach (k : NodeId) {r : Registry ρ} (h : r.Coherent) : (detach k).Told r := by
  have hdetach := detach_undergoes k h.keyed h.orderly ""
  cases ha : (r.detach k).1 with
  | error e =>
    rw [ha] at hdetach
    exact .of_spared hdetach rfl fun id => by rw [perform, ha]; rfl
  | ok out =>
    rw [ha] at hdetach
    cases out with
    | none => exact .of_spared hdetach rfl fun id => by rw [perform, ha]; rfl
    | some node =>
      obtain ⟨-, hid⟩ := detach_some h.keyed ha
      refine ⟨⟨_, hdetach⟩, fun id => ?_⟩
      have hsets : sets id (detach k) ((detach k).perform r).1 =
          if k = id then some none else none := by
        rw [perform, ha]
        rfl
      rw [hsets, ← get?_leaves hid id]
      exact congrArg (SortedMap.get? · id) hdetach.handles

theorem told_detachExpired (k : NodeId) (now : UInt64) {r : Registry ρ} (h : r.Coherent) :
    (detachExpired k now).Told r := by
  have hdetach := detachExpired_undergoes k now h.keyed
  cases ha : (r.detachExpired k now).1 with
  | error e =>
    rw [ha] at hdetach
    exact .of_spared hdetach rfl fun id => by rw [perform, ha]; rfl
  | ok out =>
    rw [ha] at hdetach
    rcases out with _ | ⟨node, reason⟩
    · exact .of_spared hdetach rfl fun id => by rw [perform, ha]; rfl
    · obtain ⟨-, hid, -⟩ := detachExpired_some h.keyed ha
      refine ⟨⟨_, hdetach⟩, fun id => ?_⟩
      have hsets : sets id (detachExpired k now) ((detachExpired k now).perform r).1 =
          if k = id then some none else none := by
        rw [perform, ha]
        rfl
      rw [hsets, ← get?_leaves hid id]
      exact congrArg (SortedMap.get? · id) hdetach.handles

theorem told (call : Call ρ) {r : Registry ρ} (h : r.Coherent) : call.Told r := by
  cases call with
  | register node => exact told_register node r
  | detach id => exact told_detach id h
  | detachExpired id now => exact told_detachExpired id now h
  | get id => exact .of_spared (r.get_undergoes id) rfl fun _ => rfl
  | list => exact .of_spared r.list_undergoes rfl fun _ => rfl
  | updateActivity id busy pending now =>
    refine .of_spared (updateActivity_undergoes id busy pending now h.keyed) ?_ fun _ => rfl
    cases (r.updateActivity id busy pending now).1 <;> rfl
  | evaluateRetention now => exact .of_spared (r.evaluateRetention_undergoes now) rfl fun _ => rfl
  | orphans => exact .of_spared r.orphans_undergoes rfl fun _ => rfl
  | recordLeak leak =>
    refine .of_spared (r.recordLeak_undergoes leak) ?_ fun _ => rfl
    cases (r.recordLeak leak).1 <;> rfl

end Call

/-! ## Calls in a row -/

/-- A call with what it was answered. -/
structure Answered (ρ : Type) where
  call : Call ρ
  answer : call.Answer

namespace Answered

/-- The last thing that the answers say about what is kept for an id. -/
def last (id : NodeId) (history : List (Answered ρ)) : Option (Option (Handles ρ)) :=
  history.reverse.findSome? fun past => past.call.sets id past.answer

/-- What is kept in memory for an id by what has been answered, first to last: what the last
registration under it that was answered with `added` has brought, and nothing where there was
none or the node has been taken out since. -/
def standing (id : NodeId) (history : List (Answered ρ)) : Option (Handles ρ) :=
  (last id history).join

theorem last_cons (id : NodeId) (past : Answered ρ) (history : List (Answered ρ)) :
    last id (past :: history) = (last id history).or (past.call.sets id past.answer) := by
  rw [last, List.reverse_cons, List.findSome?_append, List.findSome?_singleton]
  rfl

end Answered

/-- Ask one call after the other. -/
def run (r : Registry ρ) : List (Call ρ) → List (Answered ρ) × Registry ρ
  | [] => ([], r)
  | call :: calls =>
    let (answer, r) := call.perform r
    let (history, r) := r.run calls
    (⟨call, answer⟩ :: history, r)

theorem run_cons (r : Registry ρ) (call : Call ρ) (calls : List (Call ρ)) :
    r.run (call :: calls) =
      (⟨call, (call.perform r).1⟩ :: ((call.perform r).2.run calls).1,
        ((call.perform r).2.run calls).2) := rfl

/-- A registry stays coherent, and what is kept for an id is what was last said about it. -/
theorem Coherent.run {r : Registry ρ} (h : r.Coherent) (calls : List (Call ρ)) :
    (r.run calls).2.Coherent ∧ (r.run calls).2.orphanPolicy = r.orphanPolicy ∧
      ∀ id, (r.run calls).2.handles.get? id =
        (Answered.last id (r.run calls).1).getD (r.handles.get? id) := by
  induction calls generalizing r with
  | nil => exact ⟨h, rfl, fun _ => rfl⟩
  | cons call calls ih =>
    have htold := call.told h
    obtain ⟨c, hc⟩ := htold.change
    obtain ⟨hcoherent, hpolicy, hrest⟩ := ih (hc.coherent h)
    rw [run_cons]
    refine ⟨hcoherent, hpolicy.trans hc.orphanPolicy, fun id => ?_⟩
    rw [hrest id, htold.handles id, Answered.last_cons]
    cases Answered.last id ((call.perform r).2.run calls).1 with
    | some kept => rfl
    | none => rw [Option.getD_none, Option.none_or]

/-! ## Answers that use what is kept -/

/-- What is decided for a record under a policy, if there is one. -/
def verdict (policy : Option Policy) (record : NodeRecord) (now : UInt64) : Decision :=
  (policy.map fun policy => policy.check record now).getD .keep

theorem detach_release {id : NodeId} {r : Registry ρ} (h : r.Coherent) {node : DetachedNode ρ}
    (hnode : (r.detach id).1 = .ok (some node)) : node.release = r.release? id := by
  have hdetach := detach_undergoes id h.keyed h.orderly ""
  rw [hnode] at hdetach
  obtain ⟨-, hid⟩ := detach_some h.keyed hnode
  have hrelease := hdetach.admits.2
  rw [← hid]
  exact hrelease

/-- Where there is no row, there is no record. -/
theorem record?_of_absent {id : NodeId} {s : Store} (h : s.nodes.contains id = false) :
    s.record? id = none := by
  rw [← Option.not_isSome_iff_eq_none]
  intro hsome
  obtain ⟨record, hrecord⟩ := Option.isSome_iff_exists.1 hsome
  rw [Table.contains_of_read? hrecord] at h
  cases h

/-- A removal that is answered goes by the record that is there and the handle that is kept. -/
theorem detach_ok {id : NodeId} {r : Registry ρ} (h : r.Coherent)
    {out : Option (DetachedNode ρ)} (hout : (r.detach id).1 = .ok out) :
    out = (r.store.record? id).map fun record => ⟨record, r.release? id⟩ := by
  cases out with
  | some node =>
    rw [(detach_some h.keyed hout).1, Option.map_some, ← detach_release h hout]
  | none =>
    unfold detach at hout
    cases hg : r.onStore (Store.getNode id) with
    | mk answer r' =>
      rw [hg] at hout
      rcases answer with e | _ | record
      · cases hout
      · rw [record?_of_absent (Store.getNode_none (congrArg Prod.fst hg))]
        rfl
      · dsimp only at hout
        cases hr : r'.detachRecord record with
        | mk answer r'' =>
          rw [hr] at hout
          cases answer <;> cases hout

/-- A second look of a sweep goes by the record that is there and the policy in force. -/
theorem detachExpired_ok {id : NodeId} {now : UInt64} {r : Registry ρ} (h : r.Coherent)
    {out : Option (DetachedNode ρ × String)} (hout : (r.detachExpired id now).1 = .ok out) :
    out = (r.store.record? id).bind fun record =>
      match verdict (r.inForce id) record now with
      | .keep => none
      | .remove reason => some (⟨record, r.release? id⟩, reason) := by
  unfold detachExpired at hout
  cases hg : r.onStore (Store.getNode id) with
  | mk answer r' =>
    rw [hg] at hout
    rcases answer with e | _ | record
    · cases hout
    · cases hout
      rw [record?_of_absent (Store.getNode_none (congrArg Prod.fst hg))]
      rfl
    · obtain ⟨hstill, hfound, hid, -⟩ := getNode_undergoes h.keyed hg
      have hhandles : r'.handles = r.handles := hstill.handles
      have hforce : r'.inForce record.id = r.inForce id := by
        rw [inForce, hhandles, hstill.orphanPolicy, hid]
        rfl
      have hverdict : r'.decide record now = verdict (r.inForce id) record now := by
        rw [decide_eq, hforce]
        rfl
      rw [hfound, Option.bind_some, ← hverdict]
      dsimp only at hout
      cases hd : r'.decide record now with
      | keep =>
        rw [hd] at hout
        cases hout
        rfl
      | remove reason =>
        rw [hd] at hout
        dsimp only at hout
        cases hr : r'.detachRecord record with
        | mk answer r'' =>
          rw [hr] at hout
          cases answer with
          | error e => cases hout
          | ok node =>
            cases hout
            rw [detachRecord_ok (congrArg Prod.fst hr), release?, hhandles, hid]
            rfl

/-- A listing that is answered has every row, in the order of the keys. -/
theorem list_ok {r : Registry ρ} (hkeyed : r.store.Keyed) {records : List NodeRecord}
    (h : r.list.1 = .ok records) : records.map (·.id) = r.store.nodes.keys ∧
      ∀ record ∈ records, r.store.record? record.id = some record := by
  have hlisted : Store.decodeAll Store.decodeNode r.store.nodes.values = .ok records := by
    unfold list at h
    cases hl : r.onStore Store.listNodes with
    | mk answer r' =>
      rw [hl] at h
      cases answer with
      | error e => cases h
      | ok listed =>
        cases h
        exact Store.attempt_of_ok (congrArg Prod.fst hl)
  obtain ⟨listed, hall, hkeys, hmem⟩ := (Table.Keyed.readable hkeyed hlisted).decodeAll
  rw [hlisted] at hall
  cases hall
  exact ⟨hkeys, fun record hrecord => (hmem record).1 hrecord⟩

/-- A listing is answered where it is not due to fail and every row can be read. -/
theorem list_of_readable {r : Registry ρ} (hdue : r.store.faults.head?.join = none)
    (hrows : r.store.nodes.Readable Store.decodeNode (·.id)) :
    ∃ records, r.list.1 = .ok records := by
  obtain ⟨records, hall, -, -⟩ := hrows.decodeAll
  have hlisted : r.store.listNodes.1 = .ok records := by
    rw [Store.listNodes, Store.attempt_of_due hdue]
    exact hall
  refine ⟨records, ?_⟩
  unfold list onStore
  cases hl : r.store.listNodes with
  | mk answer store =>
    rw [hl] at hlisted
    cases hlisted
    rfl

/-- The decisions are about all nodes, in the order of their ids, and each is that of the policy
in force. -/
theorem evaluateRetention_ok {now : UInt64} {r : Registry ρ} (h : r.Coherent)
    {decided : List (NodeRecord × Decision)}
    (hdecided : (r.evaluateRetention now).1 = .ok decided) :
    decided.map (·.1.id) = r.store.nodes.keys ∧ ∀ entry ∈ decided,
      r.store.record? entry.1.id = some entry.1 ∧
        entry.2 = verdict (r.inForce entry.1.id) entry.1 now := by
  have hstill := r.list_undergoes
  unfold evaluateRetention at hdecided
  cases hl : r.list with
  | mk answer r' =>
    rw [hl] at hdecided hstill
    cases answer with
    | error e => cases hdecided
    | ok records =>
      cases hdecided
      obtain ⟨hkeys, hmem⟩ := list_ok h.keyed (congrArg Prod.fst hl)
      have hhandles : r'.handles = r.handles := hstill.handles
      refine ⟨?_, fun entry hentry => ?_⟩
      · rw [List.map_map]
        exact hkeys
      · obtain ⟨record, hrecord, rfl⟩ := List.mem_map.1 hentry
        refine ⟨hmem record hrecord, ?_⟩
        show r'.decide record now = _
        rw [decide_eq, inForce, hhandles, hstill.orphanPolicy]
        rfl

theorem evaluateRetention_of_readable (now : UInt64) {r : Registry ρ}
    (hdue : r.store.faults.head?.join = none)
    (hrows : r.store.nodes.Readable Store.decodeNode (·.id)) :
    ∃ decided, (r.evaluateRetention now).1 = .ok decided := by
  obtain ⟨records, hrecords⟩ := list_of_readable hdue hrows
  unfold evaluateRetention
  cases hl : r.list with
  | mk answer r' =>
    rw [hl] at hrecords
    cases hrecords
    exact ⟨_, rfl⟩

/-- The orphans are the nodes on record without handles, in the order of their ids. -/
theorem orphans_ok {r : Registry ρ} (h : r.Coherent) {ids : List NodeId}
    (hids : r.orphans.1 = .ok ids) :
    ids = r.store.nodes.keys.filter fun id => !r.handles.contains id := by
  have hstill := r.list_undergoes
  unfold orphans at hids
  cases hl : r.list with
  | mk answer r' =>
    rw [hl] at hids hstill
    cases answer with
    | error e => cases hids
    | ok records =>
      cases hids
      obtain ⟨hkeys, -⟩ := list_ok h.keyed (congrArg Prod.fst hl)
      have hhandles : r'.handles = r.handles := hstill.handles
      rw [← hkeys, List.filter_map, hhandles]
      rfl

theorem orphans_of_readable {r : Registry ρ} (hdue : r.store.faults.head?.join = none)
    (hrows : r.store.nodes.Readable Store.decodeNode (·.id)) :
    ∃ ids, r.orphans.1 = .ok ids := by
  obtain ⟨records, hrecords⟩ := list_of_readable hdue hrows
  unfold orphans
  cases hl : r.list with
  | mk answer r' =>
    rw [hl] at hrecords
    cases hrecords
    exact ⟨_, rfl⟩

/-! ## Registering -/

/-- A node that is not taken is handed back as it came, and nothing else has happened. -/
theorem register_back {node back : RealizedNode ρ} {r : Registry ρ}
    (h : (r.register node).1 = .duplicate back ∨ ∃ e, (r.register node).1 = .failed e back) :
    back = node ∧ r.Undergoes (r.register node).2 .still := by
  have hregister := r.register_undergoes node
  rcases r.store.insertNodeIfAbsent_cases node.record with ⟨e, he⟩ | ⟨-, he⟩ | ⟨-, he⟩
  · have hanswer : (r.register node).1 = .failed (.state e) node := by
      simp only [register, onStore, he]
    rw [hanswer] at h hregister
    rcases h with h | ⟨_, h⟩
    · cases h
    · cases h
      exact ⟨rfl, hregister⟩
  · have hanswer : (r.register node).1 = .duplicate node := by
      simp only [register, onStore, he]
    rw [hanswer] at h hregister
    rcases h with h | ⟨_, h⟩
    · cases h
      exact ⟨rfl, hregister⟩
    · cases h
  · have hanswer : (r.register node).1 = .added := by
      simp only [register, onStore, he]
    rw [hanswer] at h
    rcases h with h | ⟨_, h⟩ <;> cases h

/-- A node is added under an id that has no row, and so none that has handles. -/
theorem register_keeps_handles (node : RealizedNode ρ) {r : Registry ρ} (horderly : r.Orderly)
    {id : NodeId} {handles : Handles ρ} (h : r.handles.get? id = some handles) :
    (r.register node).2.handles.get? id = some handles := by
  have hregister := r.register_undergoes node
  rw [hregister.handles]
  cases ha : (r.register node).1 with
  | added =>
    rw [ha] at hregister
    have hne : id ≠ node.record.id := by
      intro hid
      have hrow := horderly id (by rw [h]; rfl)
      have habsent : r.store.nodes.contains node.record.id = false := hregister.admits
      rw [hid, habsent] at hrow
      cases hrow
    show (r.handles.insert node.record.id ⟨node.retention, node.release⟩).get? id = _
    rw [SortedMap.get?_insert, if_neg hne]
    exact h
  | _ => exact h

/-! ## A registry over a store -/

/-- The policy in force for an id by what has been answered. -/
def Answered.inForce (orphanPolicy : Option Policy) (id : NodeId) (history : List (Answered ρ)) :
    Option Policy :=
  ((standing id history).map (·.retention)).or orphanPolicy

/-- How a registry stands to the answers that it has given, and what the next call comes to. -/
structure Faithful (orphanPolicy : Option Policy) (history : List (Answered ρ))
    (r : Registry ρ) : Prop where
  /-- Records go by their own ids. -/
  keyed : ∀ id record, r.store.record? id = some record → record.id = id
  /-- Who has handles is on record. -/
  recorded : ∀ id handles, r.handles.get? id = some handles →
    ∃ record, r.store.record? id = some record ∧ record.id = id
  /-- The handles are those of the last registration that was not undone. -/
  standing : ∀ id, r.handles.get? id = Answered.standing id history
  /-- A call that is answered with an error changes nothing. -/
  atomic : ∀ call : Call ρ, call.fails (call.perform r).1 = true →
    (call.perform r).2.store.nodes = r.store.nodes ∧
      (call.perform r).2.store.leaks = r.store.leaks ∧ (call.perform r).2.handles = r.handles
  /-- Handles that are there are not replaced. -/
  registering : ∀ (node : RealizedNode ρ) id handles, r.handles.get? id = some handles →
    (r.register node).2.handles.get? id = some handles
  /-- A node that is not taken comes back as it was, and all is as before. -/
  back : ∀ node back : RealizedNode ρ, (r.register node).1 = .duplicate back ∨
      (∃ e, (r.register node).1 = .failed e back) →
    back = node ∧ (r.register node).2.store.nodes = r.store.nodes ∧
      (r.register node).2.handles = r.handles
  /-- A node comes out with its own record, and the handle that comes out is the one that was given
  in; there is no node where there is no record. -/
  detaching : ∀ id out, (r.detach id).1 = .ok out →
    out = (r.store.record? id).map fun record =>
      ⟨record, (Answered.standing id history).bind (·.release)⟩
  /-- A node on record does come out where neither of the two store calls is due to fail. -/
  removing : ∀ id record, r.store.record? id = some record →
    (∀ fault ∈ r.store.faults.take 2, fault = none) →
      (r.detach id).1 =
        .ok (some ⟨record, (Answered.standing id history).bind (·.release)⟩) ∧
      (r.detach id).2.store.nodes = r.store.nodes.erase id ∧
      (r.detach id).2.handles = r.handles.erase id
  /-- A second look of a sweep goes by the policy that was given in, or that for orphans. -/
  expiring : ∀ id now out, (r.detachExpired id now).1 = .ok out →
    out = (r.store.record? id).bind fun record =>
      match verdict (Answered.inForce orphanPolicy id history) record now with
      | .keep => none
      | .remove reason =>
        some (⟨record, (Answered.standing id history).bind (·.release)⟩, reason)
  /-- So does a first look at all nodes. -/
  evaluating : ∀ now decided, (r.evaluateRetention now).1 = .ok decided →
    decided.map (·.1.id) = r.store.nodes.keys ∧ ∀ entry ∈ decided,
      r.store.record? entry.1.id = some entry.1 ∧
        entry.2 = verdict (Answered.inForce orphanPolicy entry.1.id history) entry.1 now
  /-- The orphans are listed by their ids, each once and in order. -/
  orphans : ∀ ids, r.orphans.1 = .ok ids →
    ids = (r.store.nodes.keys.filter fun id => !r.handles.contains id) ∧
      ids.Pairwise fun a b => compare a b = .lt
  /-- And they are listed where the call is not due to fail and every row can be read. -/
  listing : r.store.faults.head?.join = none →
    (∀ id, r.store.nodes.contains id = true → ∃ record, r.store.record? id = some record) →
    ∃ ids, r.orphans.1 = .ok ids

/-- Whatever is asked of a registry and whichever of its store calls fail, the records, the
handles and the answers stay in step. -/
theorem faithful_of_keyed {store : Store} (hkeyed : store.Keyed) (orphanPolicy : Option Policy)
    (calls : List (Call ρ)) :
    Faithful orphanPolicy ((ofStore store orphanPolicy).run calls).1
      ((ofStore store orphanPolicy).run calls).2 := by
  have hstart : (ofStore store orphanPolicy : Registry ρ).Coherent :=
    coherent_ofStore hkeyed orphanPolicy
  obtain ⟨hcoherent, hpolicy, hlast⟩ := hstart.run calls
  generalize ((ofStore store orphanPolicy : Registry ρ).run calls).1 = history at *
  generalize ((ofStore store orphanPolicy : Registry ρ).run calls).2 = r at *
  have hstanding (id : NodeId) : r.handles.get? id = Answered.standing id history := by
    rw [hlast id, Answered.standing]
    cases Answered.last id history <;> rfl
  have hrelease (id : NodeId) :
      r.release? id = (Answered.standing id history).bind (·.release) := by
    rw [release?, hstanding]
  have hforce (id : NodeId) : r.inForce id = Answered.inForce orphanPolicy id history := by
    rw [inForce, hstanding, hpolicy]
    rfl
  constructor
  case keyed => exact hcoherent.keyed
  case recorded => exact hcoherent.recorded
  case standing => exact hstanding
  case atomic =>
    intro call hfails
    have hstill := Call.still_of_fails hcoherent.orderly hfails
    exact ⟨hstill.nodes, hstill.leaks, hstill.handles⟩
  case registering =>
    intro node id handles hhandles
    exact register_keeps_handles node hcoherent.orderly hhandles
  case back =>
    intro node back hback
    obtain ⟨rfl, hstill⟩ := register_back hback
    exact ⟨rfl, hstill.nodes, hstill.handles⟩
  case detaching =>
    intro id out hout
    rw [detach_ok hcoherent hout, hrelease]
  case removing =>
    intro id record hrecord hdue
    have hid : record.id = id := hcoherent.keyed id record hrecord
    have hanswer := detach_of_due hdue hrecord hid
    have hdetach := detach_undergoes id hcoherent.keyed hcoherent.orderly ""
    rw [hanswer] at hdetach
    refine ⟨by rw [hanswer, hrelease], hdetach.nodes.trans ?_, hdetach.handles.trans ?_⟩
    · show r.store.nodes.erase record.id = _
      rw [hid]
    · show r.handles.erase record.id = _
      rw [hid]
  case expiring =>
    intro id now out hout
    rw [detachExpired_ok hcoherent hout, hforce, hrelease]
  case evaluating =>
    intro now decided hdecided
    obtain ⟨hkeys, hentries⟩ := evaluateRetention_ok hcoherent hdecided
    refine ⟨hkeys, fun entry hentry => ?_⟩
    rw [← hforce]
    exact hentries entry hentry
  case orphans =>
    intro ids hids
    have heq := orphans_ok hcoherent hids
    refine ⟨heq, ?_⟩
    rw [heq]
    exact r.store.nodes.ascending_keys.filter _
  case listing =>
    intro hdue hrows
    refine orphans_of_readable hdue fun id hid => ?_
    obtain ⟨record, hrecord⟩ := hrows id hid
    exact ⟨record, hrecord, hcoherent.keyed id record hrecord⟩

namespace Inherited

/-- A node is on record from an earlier run, and the third call to the store will fail. -/
def store : Store where
  nodes := .insert .empty "a" (NodeRecord.fresh "a" "east" none 1 0 "").toJson.compact
  leaks := .empty
  faults := [none, none, some (.transaction "disk full")]

def node (release : Nat) : RealizedNode Nat :=
  ⟨.fresh "b" "east" none 1 0 "", .always, some release⟩

/-- One node is registered, a second under its id is not, and the old one is not taken out. -/
def calls : List (Call Nat) := [.register (node 1), .register (node 2), .detach "a"]

theorem keyed : store.Keyed := by
  have hempty : Store.empty.nodes.Keyed Store.decodeNode (·.id) := Store.intact_empty.keyed
  exact hempty.insert (Store.decodeNode_compact (.fresh "a" "east" none 1 0 ""))

theorem faithful_inherited : store.Keyed ∧
    (((ofStore store none).run calls).2.handles.get? "b").bind (·.release) = some 1 ∧
    ((ofStore store none).run calls).2.handles.get? "a" = none := by
  have hstanding := (faithful_of_keyed keyed none calls).standing
  refine ⟨keyed, ?_, ?_⟩
  · rw [hstanding "b"]
    decide +kernel
  · rw [hstanding "a", ← Option.not_isSome_iff_eq_none]
    decide +kernel

end Inherited

end Registry

end Fleet
