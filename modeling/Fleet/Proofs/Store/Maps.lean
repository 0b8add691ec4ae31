import Fleet.Proofs.Store
import Fleet.Proofs.Text.Bytes

/-!
# The store as two maps

What a store holds is two maps by the ids of nodes, one of records and one of leaks
(`Store.maps`).  `Maps.Answers` says what each call answers of such maps and what it makes of
them; a listing has every record once, in the order of the bytes of the ids.  Each call to a
store that can be read does as its maps say (`Store.Intact.obeys`), also where the database is
closed and opened again, and so does every sequence of calls (`store_is_two_maps`).
-/

namespace Fleet

namespace Store

/-! ## Calls -/

inductive Call where
  | putNode (r : NodeRecord)
  | insertNodeIfAbsent (r : NodeRecord)
  | getNode (id : NodeId)
  | listNodes
  | deleteNode (id : NodeId)
  | putLeak (l : LeakRecord)
  | listLeaks
  | deleteLeak (id : NodeId)
  /-- Close the database and open it again. -/
  | reopen

inductive Answer where
  | done
  | flag (b : Bool)
  | node (r : Option NodeRecord)
  | nodes (rs : List NodeRecord)
  | leaks (ls : List LeakRecord)

/-- An answer of a call, as one of any call. -/
def answered {α : Type} (f : α → Answer) (r : Except StateError α × Store) :
    Except StateError Answer × Store := (r.1.map f, r.2)

/-- Carry out a call. -/
def call (s : Store) : Call → Except StateError Answer × Store
  | .putNode r => answered (fun _ => .done) (s.putNode r)
  | .insertNodeIfAbsent r => answered .flag (s.insertNodeIfAbsent r)
  | .getNode id => answered .node (s.getNode id)
  | .listNodes => answered .nodes s.listNodes
  | .deleteNode id => answered .flag (s.deleteNode id)
  | .putLeak l => answered (fun _ => .done) (s.putLeak l)
  | .listLeaks => answered .leaks s.listLeaks
  | .deleteLeak id => answered .flag (s.deleteLeak id)
  | .reopen =>
    match s.close.openStore with
    | .error e => (.error e, s)
    | .ok s => (.ok .done, s)

/-- Calls in turn: what they answer, and the store after them. -/
def play (s : Store) : List Call → List (Except StateError Answer) × Store
  | [] => ([], s)
  | c :: cs => ((s.call c).1 :: ((s.call c).2.play cs).1, ((s.call c).2.play cs).2)

end Store

/-! ## Maps -/

/-- Records and leaks by the ids of their nodes. -/
structure Maps where
  nodes : NodeId → Option NodeRecord
  leaks : NodeId → Option LeakRecord

/-- A listing of a map: each of its values stands in it under its own key, and the keys ascend
byte by byte, so none stands in it twice. -/
structure Listing {α : Type} (key : α → NodeId) (m : NodeId → Option α) (xs : List α) : Prop where
  ascending : xs.Pairwise fun x y => Text.bytes (key x) < Text.bytes (key y)
  complete : ∀ id x, m id = some x ↔ x ∈ xs ∧ key x = id

namespace Maps

def empty : Maps := ⟨fun _ => none, fun _ => none⟩

open Store (Call Answer)

/-- What a call answers of maps, and the maps after it. -/
inductive Answers (m : Maps) : Call → Answer → Maps → Prop
  | putNode (r : NodeRecord) : m.Answers (.putNode r) .done
      { m with nodes := Function.update m.nodes r.id (some r) }
  | inserted {r : NodeRecord} (absent : m.nodes r.id = none) :
      m.Answers (.insertNodeIfAbsent r) (.flag true)
        { m with nodes := Function.update m.nodes r.id (some r) }
  | occupied {r r' : NodeRecord} (present : m.nodes r.id = some r') :
      m.Answers (.insertNodeIfAbsent r) (.flag false) m
  | getNode (id : NodeId) : m.Answers (.getNode id) (.node (m.nodes id)) m
  | listNodes {rs : List NodeRecord} (listing : Listing (·.id) m.nodes rs) :
      m.Answers .listNodes (.nodes rs) m
  | deleteNode (id : NodeId) : m.Answers (.deleteNode id) (.flag (m.nodes id).isSome)
      { m with nodes := Function.update m.nodes id none }
  | putLeak (l : LeakRecord) : m.Answers (.putLeak l) .done
      { m with leaks := Function.update m.leaks l.nodeId (some l) }
  | listLeaks {ls : List LeakRecord} (listing : Listing (·.nodeId) m.leaks ls) :
      m.Answers .listLeaks (.leaks ls) m
  | deleteLeak (id : NodeId) : m.Answers (.deleteLeak id) (.flag (m.leaks id).isSome)
      { m with leaks := Function.update m.leaks id none }
  | reopen : m.Answers .reopen .done m

/-- What calls in turn answer, and the maps after them. -/
inductive Play : Maps → List Call → List Answer → Maps → Prop
  | nil (m : Maps) : m.Play [] [] m
  | cons {m m' m'' : Maps} {c : Call} {cs : List Call} {a : Answer} {as : List Answer}
      (first : m.Answers c a m') (rest : m'.Play cs as m'') : m.Play (c :: cs) (a :: as) m''

end Maps

/-! ## Tables as maps -/

namespace Table

variable {α : Type} {decode : String → Except StateError α} {key : α → String} {t : Table}

theorem read?_insert_eq {row : String} {a : α} (h : decode row = .ok a) (k : String) :
    read? decode (t.insert k row) = Function.update (t.read? decode) k (some a) := by
  funext j
  rw [read?_insert h, Function.update_apply]

theorem read?_erase_eq (k : String) :
    read? decode (t.erase k) = Function.update (t.read? decode) k none := by
  funext j
  rw [read?_erase, Function.update_apply]

/-- The keys of a table ascend byte by byte. -/
theorem keys_ascending (t : Table) : t.keys.Pairwise fun k j => Text.bytes k < Text.bytes j :=
  t.ascending_keys.imp Text.bytes_lt_of_compare

/-- What is decoded row by row is a listing of what the table says. -/
theorem Readable.listing (h : t.Readable decode key) {xs : List α} (hkeys : xs.map key = t.keys)
    (hmem : ∀ a, a ∈ xs ↔ t.read? decode (key a) = some a) :
    Listing key (t.read? decode) xs where
  ascending := by
    have := t.keys_ascending
    rwa [← hkeys, List.pairwise_map] at this
  complete id a := by
    refine ⟨fun ha => ?_, ?_⟩
    · have hid := h.keyed id a ha
      exact ⟨(hmem a).2 (hid.symm ▸ ha), hid⟩
    · rintro ⟨ha, rfl⟩
      exact (hmem a).1 ha

theorem Readable.contains_eq (h : t.Readable decode key) (k : String) :
    t.contains k = (t.read? decode k).isSome := by
  cases hk : t.read? decode k with
  | some a => exact contains_of_read? hk
  | none =>
    refine Bool.eq_false_iff.2 fun hc => ?_
    obtain ⟨a, ha, -⟩ := h k hc
    rw [hk] at ha
    cases ha

end Table

/-! ## Stores as maps -/

namespace Store

/-- What a store says of each id. -/
def maps (s : Store) : Maps := ⟨s.record?, s.leak?⟩

theorem maps_empty : empty.maps = .empty := rfl

theorem maps_putNode (s : Store) (r : NodeRecord) :
    maps { s with nodes := s.nodes.insert r.id r.toJson.compact } =
      { s.maps with nodes := Function.update s.maps.nodes r.id (some r) } :=
  congrArg (Maps.mk · s.leak?) (Table.read?_insert_eq (decodeNode_compact r) r.id)

theorem maps_deleteNode (s : Store) (id : NodeId) :
    maps { s with nodes := s.nodes.erase id } =
      { s.maps with nodes := Function.update s.maps.nodes id none } :=
  congrArg (Maps.mk · s.leak?) (Table.read?_erase_eq id)

theorem maps_putLeak (s : Store) (l : LeakRecord) :
    maps { s with leaks := s.leaks.insert l.nodeId l.toJson.compact } =
      { s.maps with leaks := Function.update s.maps.leaks l.nodeId (some l) } :=
  congrArg (Maps.mk s.record?) (Table.read?_insert_eq (decodeLeak_compact l) l.nodeId)

theorem maps_deleteLeak (s : Store) (id : NodeId) :
    maps { s with leaks := s.leaks.erase id } =
      { s.maps with leaks := Function.update s.maps.leaks id none } :=
  congrArg (Maps.mk s.record?) (Table.read?_erase_eq id)

/-! ## Calls that do as the maps say -/

/-- A call is answered as the maps say, and what it leaves can be read again. -/
structure Obeys (s : Store) (c : Call) : Prop where
  answered : ∃ a, (s.call c).1 = .ok a ∧ s.maps.Answers c a (s.call c).2.maps
  intact : (s.call c).2.Intact

theorem obeys_of_call {s s' : Store} {c : Call} {a : Answer} (hcall : s.call c = (.ok a, s'))
    (ha : s.maps.Answers c a s'.maps) (hs : s'.Intact) : s.Obeys c :=
  ⟨⟨a, by rw [hcall], hcall ▸ ha⟩, hcall ▸ hs⟩

namespace Intact

variable {s : Store} (h : s.Intact)

include h

theorem putNode_obeys (r : NodeRecord) : s.Obeys (.putNode r) := by
  have hcall : s.call (.putNode r) =
      (.ok .done, { s with nodes := s.nodes.insert r.id r.toJson.compact }) := by
    rw [call, putNode, attempt_of_calls h.calls]
    rfl
  refine obeys_of_call hcall ?_ ⟨h.calls, h.nodes.insert (decodeNode_compact r), h.leaks⟩
  rw [maps_putNode]
  exact .putNode r

theorem insertNodeIfAbsent_obeys (r : NodeRecord) : s.Obeys (.insertNodeIfAbsent r) := by
  have hcontains := h.nodes.contains_eq r.id
  cases hr : s.record? r.id with
  | some r' =>
    have hthere : s.nodes.contains r.id = true := hcontains.trans (congrArg Option.isSome hr)
    have hcall : s.call (.insertNodeIfAbsent r) = (.ok (.flag false), s) := by
      rw [call, insertNodeIfAbsent, attempt_of_calls h.calls, if_pos hthere]
      rfl
    exact obeys_of_call hcall (.occupied hr) h
  | none =>
    have hfree : ¬s.nodes.contains r.id = true := by
      rw [hcontains.trans (congrArg Option.isSome hr)]
      exact Bool.false_ne_true
    have hcall : s.call (.insertNodeIfAbsent r) =
        (.ok (.flag true), { s with nodes := s.nodes.insert r.id r.toJson.compact }) := by
      rw [call, insertNodeIfAbsent, attempt_of_calls h.calls, if_neg hfree]
      rfl
    refine obeys_of_call hcall ?_ ⟨h.calls, h.nodes.insert (decodeNode_compact r), h.leaks⟩
    rw [maps_putNode]
    exact .inserted hr

theorem getNode_obeys (id : NodeId) : s.Obeys (.getNode id) := by
  have hcall : s.call (.getNode id) = (.ok (.node (s.record? id)), s) := by
    rw [call, getNode, attempt_of_calls h.calls]
    cases hrow : s.nodes.get? id with
    | none =>
      rw [record?, Table.read?, hrow]
      rfl
    | some row =>
      -- a row that is there can be read
      obtain ⟨r, hr, -⟩ := h.nodes id (by rw [SortedMap.contains, hrow]; rfl)
      obtain ⟨row', hrow', hdecode⟩ := Table.read?_eq_some_iff.1 hr
      rw [hrow] at hrow'
      cases hrow'
      dsimp only
      rw [record?, hr, hdecode]
      rfl
  exact obeys_of_call hcall (.getNode id) h

theorem listNodes_obeys : s.Obeys .listNodes := by
  obtain ⟨rs, hlist, hkeys, hmem⟩ := h.listNodes
  have hcall : s.call .listNodes = (.ok (.nodes rs), s) := by
    rw [call, hlist]
    rfl
  exact obeys_of_call hcall (.listNodes (h.nodes.listing hkeys hmem)) h

theorem deleteNode_obeys (id : NodeId) : s.Obeys (.deleteNode id) := by
  have hcall : s.call (.deleteNode id) =
      (.ok (.flag (s.record? id).isSome), { s with nodes := s.nodes.erase id }) := by
    rw [call, deleteNode, attempt_of_calls h.calls, h.nodes.contains_eq]
    rfl
  refine obeys_of_call hcall ?_ ⟨h.calls, h.nodes.erase id, h.leaks⟩
  rw [maps_deleteNode]
  exact .deleteNode id

theorem putLeak_obeys (l : LeakRecord) : s.Obeys (.putLeak l) := by
  have hcall : s.call (.putLeak l) =
      (.ok .done, { s with leaks := s.leaks.insert l.nodeId l.toJson.compact }) := by
    rw [call, putLeak, attempt_of_calls h.calls]
    rfl
  refine obeys_of_call hcall ?_ ⟨h.calls, h.nodes, h.leaks.insert (decodeLeak_compact l)⟩
  rw [maps_putLeak]
  exact .putLeak l

theorem listLeaks_obeys : s.Obeys .listLeaks := by
  obtain ⟨ls, hlist, hkeys, hmem⟩ := h.listLeaks
  have hcall : s.call .listLeaks = (.ok (.leaks ls), s) := by
    rw [call, hlist]
    rfl
  exact obeys_of_call hcall (.listLeaks (h.leaks.listing hkeys hmem)) h

theorem deleteLeak_obeys (id : NodeId) : s.Obeys (.deleteLeak id) := by
  have hcall : s.call (.deleteLeak id) =
      (.ok (.flag (s.leak? id).isSome), { s with leaks := s.leaks.erase id }) := by
    rw [call, deleteLeak, attempt_of_calls h.calls, h.leaks.contains_eq]
    rfl
  refine obeys_of_call hcall ?_ ⟨h.calls, h.nodes, h.leaks.erase id⟩
  rw [maps_deleteLeak]
  exact .deleteLeak id

/-- A database that is opened again is as it was closed. -/
theorem reopen_obeys : s.Obeys .reopen := by
  have hcall : s.call .reopen = (.ok .done, { s with faults := [] }) := rfl
  exact obeys_of_call hcall .reopen ⟨rfl, h.nodes, h.leaks⟩

theorem obeys (c : Call) : s.Obeys c := by
  cases c with
  | putNode r => exact h.putNode_obeys r
  | insertNodeIfAbsent r => exact h.insertNodeIfAbsent_obeys r
  | getNode id => exact h.getNode_obeys id
  | listNodes => exact h.listNodes_obeys
  | deleteNode id => exact h.deleteNode_obeys id
  | putLeak l => exact h.putLeak_obeys l
  | listLeaks => exact h.listLeaks_obeys
  | deleteLeak id => exact h.deleteLeak_obeys id
  | reopen => exact h.reopen_obeys

theorem play (cs : List Call) : ∃ as, (s.play cs).1 = as.map .ok ∧
    s.maps.Play cs as (s.play cs).2.maps ∧ (s.play cs).2.Intact := by
  induction cs generalizing s with
  | nil => exact ⟨[], rfl, .nil _, h⟩
  | cons c cs ih =>
    obtain ⟨⟨a, ha, hanswers⟩, hintact⟩ := h.obeys c
    obtain ⟨as, has, hplay, hlast⟩ := ih hintact
    refine ⟨a :: as, ?_, .cons hanswers hplay, hlast⟩
    rw [Store.play, ha, has]
    rfl

end Intact

end Store

/-- A store does as two maps do: in memory or in a new database on disk, which is empty at first,
every sequence of calls is answered as the maps say, and the store holds what the maps then are.
So it is from any store on that can be read.  Every record, and every leak, is read from its row
as it was written. -/
theorem store_is_two_maps :
    (∀ (s : Store), s.Intact → ∀ cs : List Store.Call, ∃ as, (s.play cs).1 = as.map .ok ∧
      s.maps.Play cs as (s.play cs).2.maps ∧ (s.play cs).2.Intact) ∧
    (DatabaseFile.other "").openStore = .ok .empty ∧ Store.empty.Intact ∧
      Store.empty.maps = .empty ∧
    (∀ r : NodeRecord, Store.decodeNode r.toJson.compact = .ok r) ∧
    ∀ l : LeakRecord, Store.decodeLeak l.toJson.compact = .ok l :=
  ⟨fun _ h cs => h.play cs, rfl, Store.intact_empty, Store.maps_empty, Store.decodeNode_compact,
    Store.decodeLeak_compact⟩

/-- A record that is written is there after the database has been opened again, and is not written
over by a node that comes a second time. -/
theorem store_is_two_maps_reopened :
    let r := NodeRecord.fresh "sim-1" "sim" (some "gpu") 2 0 ""
    (Store.empty.play [.putNode r, .reopen, .getNode "sim-1", .insertNodeIfAbsent r]).1 =
      [.ok .done, .ok .done, .ok (.node (some r)), .ok (.flag false)] := by
  intro r
  obtain ⟨as, has, hplay, -⟩ := store_is_two_maps.1 .empty Store.intact_empty
    [.putNode r, .reopen, .getNode "sim-1", .insertNodeIfAbsent r]
  rw [has]
  generalize Store.empty.maps = m at hplay
  generalize (Store.play _ _).2.maps = m' at hplay
  obtain _ | ⟨⟨⟩, _ | ⟨⟨⟩, _ | ⟨⟨⟩, _ | ⟨hinsert, ⟨⟩⟩⟩⟩⟩ := hplay
  have hthere : Function.update m.nodes r.id (some r) "sim-1" = some r :=
    Function.update_self ..
  dsimp only
  rw [hthere]
  cases hinsert with
  | inserted absent => cases hthere.symm.trans absent
  | occupied _ => rfl

end Fleet
