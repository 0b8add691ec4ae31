import Fleet.Proofs.Store
import Fleet.Registry
import Mathlib

/-!
# What the registry keeps

A store call either fails, with both tables as they were, or does its work
(`Store.attempt_cases`), so each operation of the registry has few outcomes
(`register_cases`, `detach_detaches`, `detachExpired_detaches`); all others leave the handles
alone and lose no row (`Keeps`).  On an `Orderly` registry, where every handle belongs to a
node on record, `held` changes by exactly the handle that goes in or comes out.
-/

namespace Fleet

namespace Store

/-- A call fails, or does its work on the same tables. -/
theorem attempt_cases {α : Type} (s : Store) (call : Store → Except StateError α × Store) :
    (∃ e, s.attempt call = (.error e, { s with faults := s.faults.tail })) ∨
      s.attempt call = call { s with faults := s.faults.tail } := by
  obtain ⟨nodes, leaks, faults⟩ := s
  cases faults with
  | nil => exact .inr rfl
  | cons f fs =>
    cases f with
    | none => exact .inr rfl
    | some e => exact .inl ⟨e, rfl⟩

/-- No row of a node is lost. -/
def KeepsRows (s s' : Store) : Prop :=
  ∀ id, s.nodes.contains id = true → s'.nodes.contains id = true

theorem KeepsRows.of_eq {s s' : Store} (h : s'.nodes = s.nodes) : s.KeepsRows s' :=
  fun _ hid => h ▸ hid

theorem attempt_keepsRows {α : Type} (s : Store) {call : Store → Except StateError α × Store}
    (h : ∀ s, KeepsRows s (call s).2) : KeepsRows s (s.attempt call).2 := by
  rcases s.attempt_cases call with ⟨e, he⟩ | he
  · rw [he]
    exact .of_eq rfl
  · rw [he]
    exact h { s with faults := s.faults.tail }

theorem insertNodeIfAbsent_cases (record : NodeRecord) (s : Store) :
    (∃ e, s.insertNodeIfAbsent record = (.error e, { s with faults := s.faults.tail })) ∨
      (s.nodes.contains record.id = true ∧
        s.insertNodeIfAbsent record = (.ok false, { s with faults := s.faults.tail })) ∨
      s.nodes.contains record.id = false ∧
        s.insertNodeIfAbsent record = (.ok true, { s with
          nodes := s.nodes.insert record.id record.toJson.compact
          faults := s.faults.tail }) := by
  rcases s.attempt_cases fun s : Store =>
    if s.nodes.contains record.id then (Except.ok false, s)
    else (.ok true, { s with nodes := s.nodes.insert record.id record.toJson.compact })
    with ⟨e, he⟩ | he
  · exact .inl ⟨e, he⟩
  · refine .inr ?_
    cases hc : s.nodes.contains record.id with
    | true => exact .inl ⟨rfl, he.trans (if_pos hc)⟩
    | false => exact .inr ⟨rfl, he.trans (if_neg (by rw [hc]; decide))⟩

theorem attempt_of_ok {α : Type} {s : Store} {call : Store → Except StateError α × Store}
    {a : α} (h : (s.attempt call).1 = .ok a) :
    (call { s with faults := s.faults.tail }).1 = .ok a := by
  rcases s.attempt_cases call with ⟨e, he⟩ | he
  · rw [he] at h
    cases h
  · rwa [he] at h

theorem getNode_none {id : NodeId} {s : Store} (h : (s.getNode id).1 = .ok none) :
    s.nodes.contains id = false := by
  have hcall := attempt_of_ok h
  dsimp only at hcall
  rw [SortedMap.contains]
  split at hcall
  · rename_i hn
    rw [hn]
    rfl
  · cases hd : decodeNode _ with
    | error e => rw [hd] at hcall; cases hcall
    | ok record => rw [hd] at hcall; cases hcall

theorem getNode_keepsRows (id : NodeId) (s : Store) : KeepsRows s (getNode id s).2 :=
  s.attempt_keepsRows fun s => by split <;> exact .of_eq rfl

theorem listNodes_keepsRows (s : Store) : KeepsRows s (listNodes s).2 :=
  s.attempt_keepsRows fun _ => .of_eq rfl

theorem putNode_keepsRows (record : NodeRecord) (s : Store) : KeepsRows s (putNode record s).2 :=
  s.attempt_keepsRows fun _ _ hid => (Table.contains_insert _ _ _).2 (.inr hid)

theorem putLeak_keepsRows (leak : LeakRecord) (s : Store) : KeepsRows s (putLeak leak s).2 :=
  s.attempt_keepsRows fun _ => .of_eq rfl

theorem listLeaks_keepsRows (s : Store) : KeepsRows s (listLeaks s).2 :=
  s.attempt_keepsRows fun _ => .of_eq rfl

theorem deleteLeak_keepsRows (id : NodeId) (s : Store) : KeepsRows s (deleteLeak id s).2 :=
  s.attempt_keepsRows fun _ => .of_eq rfl

end Store

/-- A handle, if there is one, with the key it goes by. -/
def tagged {κ ρ : Type} (k : κ) (release : Option ρ) : Multiset (κ × ρ) :=
  ((release.map (k, ·)).toList : Multiset (κ × ρ))

theorem map_snd_tagged {κ ρ : Type} (k : κ) (release : Option ρ) :
    (tagged k release).map Prod.snd = (release.toList : Multiset ρ) := by
  cases release <;> rfl

namespace Registry

variable {ρ : Type}

/-- The release handles in the registry's keeping, each with the id of its node. -/
def held (r : Registry ρ) : Multiset (NodeId × ρ) :=
  ((r.handles.entries.filterMap fun e => e.2.release.map (e.1, ·) : List (NodeId × ρ)) :
    Multiset (NodeId × ρ))

/-- Handles are kept for nodes on record only. -/
def Orderly (r : Registry ρ) : Prop :=
  ∀ id, (r.handles.get? id).isSome = true → r.store.nodes.contains id = true

/-- The handles stay as they are, and no row is lost. -/
structure Keeps (r r' : Registry ρ) : Prop where
  handles : r'.handles = r.handles
  rows : r.store.KeepsRows r'.store

namespace Keeps

variable {r r' r'' : Registry ρ}

theorem refl (r : Registry ρ) : r.Keeps r := ⟨rfl, .of_eq rfl⟩

theorem trans (h : r.Keeps r') (h' : r'.Keeps r'') : r.Keeps r'' :=
  ⟨h'.handles.trans h.handles, fun id hid => h'.rows id (h.rows id hid)⟩

theorem orderly (h : r.Keeps r') (ho : r.Orderly) : r'.Orderly := by
  intro id hid
  rw [h.handles] at hid
  exact h.rows id (ho id hid)

theorem held (h : r.Keeps r') : r'.held = r.held := by
  rw [Registry.held, h.handles]
  rfl

theorem onStore {α : Type} {call : Store → α × Store} (r : Registry ρ)
    (h : r.store.KeepsRows (call r.store).2) : r.Keeps (r.onStore call).2 := ⟨rfl, h⟩

end Keeps

/-! ## Operations that keep all handles -/

theorem get_keeps (id : NodeId) (r : Registry ρ) : r.Keeps (r.get id).2 := by
  have h := Keeps.onStore r (r.store.getNode_keepsRows id)
  unfold get
  split <;> rename_i he <;> exact congrArg Prod.snd he ▸ h

theorem list_keeps (r : Registry ρ) : r.Keeps r.list.2 := by
  have h := Keeps.onStore r r.store.listNodes_keepsRows
  unfold list
  split <;> rename_i he <;> exact congrArg Prod.snd he ▸ h

theorem evaluateRetention_keeps (now : UInt64) (r : Registry ρ) :
    r.Keeps (r.evaluateRetention now).2 := by
  have h := r.list_keeps
  unfold evaluateRetention
  split <;> rename_i he <;> exact congrArg Prod.snd he ▸ h

theorem recordLeak_keeps (leak : LeakRecord) (r : Registry ρ) :
    r.Keeps (r.recordLeak leak).2 := by
  have h := Keeps.onStore r (r.store.putLeak_keepsRows leak)
  unfold recordLeak
  split <;> rename_i he <;> exact congrArg Prod.snd he ▸ h

theorem updateActivity_keeps (id : NodeId) (busy pending : UInt32) (now : UInt64)
    (r : Registry ρ) : r.Keeps (r.updateActivity id busy pending now).2 := by
  have h := Keeps.onStore r (r.store.getNode_keepsRows id)
  unfold updateActivity
  split
  · rename_i he
    exact congrArg Prod.snd he ▸ h
  · rename_i he
    exact congrArg Prod.snd he ▸ h
  · rename_i record r' he
    have hr' : (r.onStore (Store.getNode id)).2 = r' := congrArg Prod.snd he
    have h' : r.Keeps r' := hr' ▸ h
    have hput := Keeps.onStore r'
      (r'.store.putNode_keepsRows (record.reportActivity busy pending now))
    dsimp only
    split <;> rename_i he' <;> exact h'.trans (congrArg Prod.snd he' ▸ hput)

/-! ## Registering -/

theorem held_insert {r : Registry ρ} {id : NodeId} (h : r.handles.get? id = none)
    (v : Handles ρ) :
    ({ r with handles := r.handles.insert id v } : Registry ρ).held =
      tagged id v.release + r.held := by
  have hperm := (SortedMap.perm_insert h v).filterMap fun e => e.2.release.map (e.1, ·)
  rw [held, held, tagged, Multiset.coe_add, Multiset.coe_eq_coe]
  refine hperm.trans ?_
  cases hv : v.release <;> simp [hv]

/-- A node is added, with its handle, or comes back as it was. -/
theorem register_cases (node : RealizedNode ρ) {r : Registry ρ} (h : r.Orderly) :
    (r.register node).2.Orderly ∧
      ((r.register node).1 = .added ∧
          (r.register node).2.held = tagged node.record.id node.release + r.held ∨
        (r.register node).1 = .duplicate node ∧ (r.register node).2.held = r.held ∨
        ∃ e, (r.register node).1 = .failed e node ∧ (r.register node).2.held = r.held) := by
  have hkeeps (s : Store) (hs : s.nodes = r.store.nodes) : r.Keeps { r with store := s } :=
    ⟨rfl, .of_eq hs⟩
  rcases r.store.insertNodeIfAbsent_cases node.record with ⟨e, he⟩ | ⟨hc, he⟩ | ⟨hc, he⟩
  · have hr : r.register node = (.failed (.state e) node,
        { r with store := { r.store with faults := r.store.faults.tail } }) := by
      simp only [register, onStore, he]
    rw [hr]
    exact ⟨(hkeeps _ rfl).orderly h, .inr (.inr ⟨_, rfl, (hkeeps _ rfl).held⟩)⟩
  · have hr : r.register node = (.duplicate node,
        { r with store := { r.store with faults := r.store.faults.tail } }) := by
      simp only [register, onStore, he]
    rw [hr]
    exact ⟨(hkeeps _ rfl).orderly h, .inr (.inl ⟨rfl, (hkeeps _ rfl).held⟩)⟩
  · have hr : r.register node = (.added, { r with
        store := { r.store with
          nodes := r.store.nodes.insert node.record.id node.record.toJson.compact
          faults := r.store.faults.tail }
        handles := r.handles.insert node.record.id ⟨node.retention, node.release⟩ }) := by
      simp only [register, onStore, he]
    rw [hr]
    have hnew : r.handles.get? node.record.id = none := by
      cases hv : r.handles.get? node.record.id with
      | none => rfl
      | some v =>
        rw [h _ (by rw [hv]; rfl)] at hc
        cases hc
    refine ⟨fun id hid => ?_, .inl ⟨rfl, held_insert hnew _⟩⟩
    dsimp only at hid ⊢
    rw [SortedMap.get?_insert] at hid
    rw [Table.contains_insert]
    by_cases hi : id = node.record.id
    · exact .inl hi
    · rw [if_neg hi] at hid
      exact .inr (h id hid)

/-! ## Taking nodes out -/

theorem held_erase (r : Registry ρ) (id : NodeId) :
    r.held = tagged id ((r.handles.get? id).bind (·.release)) +
      ({ r with handles := r.handles.erase id } : Registry ρ).held := by
  cases hv : r.handles.get? id with
  | none =>
    rw [SortedMap.erase_of_get?_eq_none hv]
    exact (zero_add _).symm
  | some v =>
    have hperm := (SortedMap.perm_erase hv).filterMap fun e => e.2.release.map (e.1, ·)
    rw [held, held, tagged, Multiset.coe_add, Multiset.coe_eq_coe]
    refine hperm.trans ?_
    cases hr : v.release <;> simp [hr]

/-- The handle of a node that has come out, if one has. -/
def handleOut (out : Option (DetachedNode ρ)) : Multiset (NodeId × ρ) :=
  out.elim 0 fun node => tagged node.record.id node.release

/-- What an attempt to take a node out comes to; what comes out has no row any more. -/
structure Detaches (r r' : Registry ρ) (out : Option (DetachedNode ρ)) : Prop where
  orderly : r'.Orderly
  held : r.held = handleOut out + r'.held
  gone : ∀ node ∈ out, r'.store.nodes.contains node.record.id = false

theorem Keeps.detaches {r r' : Registry ρ} (h : r.Keeps r') (ho : r.Orderly) :
    r.Detaches r' none where
  orderly := h.orderly ho
  held := h.held.symm.trans (zero_add _).symm
  gone := nofun

theorem Keeps.trans_detaches {r r' r'' : Registry ρ} {out : Option (DetachedNode ρ)}
    (h : r.Keeps r') (hd : r'.Detaches r'' out) : r.Detaches r'' out :=
  ⟨hd.orderly, h.held ▸ hd.held, hd.gone⟩

/-- The record goes, and with it the handle comes out. -/
theorem detachRecord_detaches (record : NodeRecord) {r : Registry ρ} (h : r.Orderly) :
    r.Detaches (r.detachRecord record).2 (r.detachRecord record).1.toOption := by
  rcases r.store.attempt_cases fun s : Store =>
    (Except.ok (s.nodes.contains record.id), { s with nodes := s.nodes.erase record.id })
    with ⟨e, he⟩ | he
  · have he' : r.store.deleteNode record.id = _ := he
    have hr : r.detachRecord record = (.error (.state e),
        { r with store := { r.store with faults := r.store.faults.tail } }) := by
      simp only [detachRecord, onStore, he']
    have hk : r.Keeps { r with store := { r.store with faults := r.store.faults.tail } } :=
      ⟨rfl, .of_eq rfl⟩
    rw [hr]
    exact hk.detaches h
  · have he' : r.store.deleteNode record.id = _ := he
    have hr : r.detachRecord record = (.ok ⟨record, (r.handles.get? record.id).bind (·.release)⟩,
        { r with
          store := { r.store with
            nodes := r.store.nodes.erase record.id
            faults := r.store.faults.tail }
          handles := r.handles.erase record.id }) := by
      simp only [detachRecord, onStore, he']
    rw [hr]
    refine ⟨fun id hid => ?_, r.held_erase record.id, fun node hnode => ?_⟩
    · dsimp only at hid ⊢
      rw [SortedMap.get?_erase] at hid
      split at hid
      · cases hid
      · rename_i hi
        rw [SortedMap.contains, SortedMap.get?_erase, if_neg hi]
        exact h id hid
    · cases hnode
      rw [SortedMap.contains, SortedMap.get?_erase, if_pos rfl]
      rfl

theorem detach_detaches (id : NodeId) {r : Registry ρ} (h : r.Orderly) :
    r.Detaches (r.detach id).2 (r.detach id).1.toOption.join := by
  have hk := Keeps.onStore r (r.store.getNode_keepsRows id)
  have hnone := @Store.getNode_none id r.store
  unfold detach
  cases hg : r.onStore (Store.getNode id) with
  | mk answer r' =>
    rw [hg] at hk
    cases answer with
    | error e => exact hk.detaches h
    | ok found =>
      cases found with
      | none =>
        -- without a row there is no handle that could be dropped here
        have hfree : r'.handles.get? id = none := by
          rw [hk.handles]
          cases hv : r.handles.get? id with
          | none => rfl
          | some v =>
            have hrow := h id (by rw [hv]; rfl)
            rw [hnone (congrArg Prod.fst hg)] at hrow
            cases hrow
        dsimp only
        rw [SortedMap.erase_of_get?_eq_none hfree]
        exact hk.detaches h
      | some record =>
        have hd := detachRecord_detaches record (hk.orderly h)
        dsimp only
        cases hr : r'.detachRecord record with
        | mk answer r'' =>
          rw [hr] at hd
          cases answer <;> exact hk.trans_detaches hd

theorem detachExpired_detaches (id : NodeId) (now : UInt64) {r : Registry ρ} (h : r.Orderly) :
    r.Detaches (r.detachExpired id now).2
      ((r.detachExpired id now).1.toOption.join.map Prod.fst) := by
  have hk := Keeps.onStore r (r.store.getNode_keepsRows id)
  unfold detachExpired
  cases hg : r.onStore (Store.getNode id) with
  | mk answer r' =>
    rw [hg] at hk
    cases answer with
    | error e => exact hk.detaches h
    | ok found =>
      cases found with
      | none => exact hk.detaches h
      | some record =>
        dsimp only
        cases r'.decide record now with
        | keep => exact hk.detaches h
        | remove reason =>
          have hd := detachRecord_detaches record (hk.orderly h)
          dsimp only
          cases hr : r'.detachRecord record with
          | mk answer r'' =>
            rw [hr] at hd
            cases answer <;> exact hk.trans_detaches hd

end Registry

end Fleet
