import Fleet.Proofs.Json.RoundTrip
import Fleet.Proofs.SortedMap
import Fleet.Store

/-!
# What the rows of a store say

A record that is written to a row is read from it as it was (`decodeNode_compact`,
`decodeLeak_compact`), so what a table says under a key (`Table.read?`) changes with a write
as a map does.  In a store that the registry has written, every row is that of its own key
(`Keyed`), and where no call fails every row can be read (`Store.Intact`); a listing then
has exactly what the rows say.
-/

namespace Fleet

open Json

/-! ## Records -/

theorem NodeRecord.recovers_toJson (r : NodeRecord) :
    Recovers NodeRecord.shape.read r.toJson := by
  have hcount (n : UInt32) : Recovers (Shape.number countLimit).read (.number n.toNat) :=
    recovers_number n.toNat_lt (Nat.lt_trans n.toNat_lt (by decide))
  have hword (n : UInt64) : n.toNat < wordLimit ∧ n.toNat < 10 ^ 20 :=
    ⟨n.toNat_lt, Nat.lt_trans n.toNat_lt (by decide)⟩
  have hidle : Recovers (Shape.nullable (.number wordLimit)).read
      (.ofOption (fun t : UInt64 => .number t.toNat) r.idleSince) := by
    have hsome : ∀ k ∈ r.idleSince.map UInt64.toNat, k < wordLimit ∧ k < 10 ^ 20 := by
      intro k hk
      obtain ⟨t, -, rfl⟩ := Option.map_eq_some_iff.1 hk
      exact hword t
    have hrecovers := recovers_optional_number hsome
    cases hr : r.idleSince <;> rwa [hr] at hrecovers
  refine recovers_record ?_ (by show List.Nodup _; simp)
  exact .cons ⟨rfl, recovers_anyText _⟩ <| .cons ⟨rfl, recovers_anyText _⟩ <|
    .cons ⟨rfl, recovers_optional_text _⟩ <| .cons ⟨rfl, recovers_anyText _⟩ <|
    .cons ⟨rfl, hcount _⟩ <| .cons ⟨rfl, hcount _⟩ <| .cons ⟨rfl, hcount _⟩ <|
    .cons ⟨rfl, recovers_flag _⟩ <| .cons ⟨rfl, hidle⟩ <|
    .cons ⟨rfl, recovers_number (hword _).1 (hword _).2⟩ .nil

theorem NodeRecord.ofJson?_toJson (r : NodeRecord) : ofJson? r.toJson = some r := by
  obtain ⟨_, _, label, _, _, _, _, _, idleSince, _⟩ := r
  cases label <;> cases idleSince <;>
    simp [ofJson?, toJson, member?, text?, number?, flag?, optional?, Json.ofOption]

theorem LeakRecord.recovers_toJson (r : LeakRecord) :
    Recovers LeakRecord.shape.read r.toJson := by
  have hword : r.recordedAt.toNat < 10 ^ 20 := Nat.lt_trans r.recordedAt.toNat_lt (by decide)
  refine recovers_record ?_ (by show List.Nodup _; simp)
  exact .cons ⟨rfl, recovers_anyText _⟩ <| .cons ⟨rfl, recovers_anyText _⟩ <|
    .cons ⟨rfl, recovers_anyText _⟩ <|
    .cons ⟨rfl, recovers_number r.recordedAt.toNat_lt hword⟩ .nil

theorem LeakRecord.ofJson?_toJson (r : LeakRecord) : ofJson? r.toJson = some r := by
  simp [ofJson?, toJson, member?, text?, number?]

theorem Store.decodeNode_compact (r : NodeRecord) : decodeNode r.toJson.compact = .ok r := by
  rw [decodeNode, readText_compact r.recovers_toJson]
  dsimp only
  rw [r.ofJson?_toJson]

theorem Store.decodeLeak_compact (r : LeakRecord) : decodeLeak r.toJson.compact = .ok r := by
  rw [decodeLeak, readText_compact r.recovers_toJson]
  dsimp only
  rw [r.ofJson?_toJson]

/-! ## Tables -/

namespace Table

variable {α : Type} (decode : String → Except StateError α) (key : α → String)

/-- What a table says under a key, if it has a row there that can be read. -/
def read? (t : Table) (k : String) : Option α :=
  (t.get? k).bind fun row => (decode row).toOption

/-- What can be read under a key is about that key. -/
def Keyed (t : Table) : Prop := ∀ k a, t.read? decode k = some a → key a = k

/-- Every row can be read and is about its key. -/
def Readable (t : Table) : Prop :=
  ∀ k, t.contains k = true → ∃ a, t.read? decode k = some a ∧ key a = k

variable {decode key} {t : Table}

theorem read?_eq_some_iff {k : String} {a : α} :
    t.read? decode k = some a ↔ ∃ row, t.get? k = some row ∧ decode row = .ok a := by
  rw [read?, Option.bind_eq_some_iff]
  refine exists_congr fun row => and_congr_right fun _ => ?_
  cases decode row <;> simp [Except.toOption]

theorem contains_of_read? {k : String} {a : α} (h : t.read? decode k = some a) :
    t.contains k = true := by
  obtain ⟨row, hrow, -⟩ := read?_eq_some_iff.1 h
  rw [SortedMap.contains, hrow]
  rfl

theorem read?_insert {row : String} {a : α} (h : decode row = .ok a) (k j : String) :
    read? decode (t.insert k row) j = if j = k then some a else t.read? decode j := by
  rw [read?, SortedMap.get?_insert]
  split
  · rw [Option.bind_some, h]
    rfl
  · rfl

theorem read?_erase (k j : String) :
    read? decode (t.erase k) j = if j = k then none else t.read? decode j := by
  rw [read?, SortedMap.get?_erase]
  split <;> rfl

theorem contains_insert (k j row : String) :
    (t.insert k row).contains j = true ↔ j = k ∨ t.contains j = true := by
  rw [SortedMap.contains, SortedMap.contains, SortedMap.get?_insert]
  by_cases hj : j = k <;> simp [hj]

namespace Keyed

theorem insert (h : t.Keyed decode key) {row : String} {a : α} (ha : decode row = .ok a) :
    Keyed decode key (t.insert (key a) row) := by
  intro k b hb
  rw [read?_insert ha] at hb
  split at hb
  · cases hb
    symm
    assumption
  · exact h k b hb

theorem erase (h : t.Keyed decode key) (k : String) : Keyed decode key (t.erase k) := by
  intro j b hb
  rw [read?_erase] at hb
  split at hb
  · cases hb
  · exact h j b hb

end Keyed

namespace Readable

theorem empty : Readable decode key .empty := fun _ h => absurd h Bool.false_ne_true

theorem keyed (h : t.Readable decode key) : t.Keyed decode key := by
  intro k a ha
  obtain ⟨b, hb, hk⟩ := h k (contains_of_read? ha)
  rw [ha] at hb
  cases hb
  exact hk

theorem insert (h : t.Readable decode key) {row : String} {a : α} (ha : decode row = .ok a) :
    Readable decode key (t.insert (key a) row) := by
  intro k hk
  rw [read?_insert ha]
  split
  · rename_i he
    exact ⟨a, rfl, he.symm⟩
  · rename_i hne
    exact h k (((contains_insert _ _ _).1 hk).resolve_left hne)

theorem mono (h : t.Readable decode key) {t' : Table}
    (hsub : ∀ k row, t'.get? k = some row → t.get? k = some row) : t'.Readable decode key := by
  intro k hk
  obtain ⟨row, hrow⟩ := SortedMap.contains_iff.1 hk
  have hold := hsub k row hrow
  obtain ⟨a, ha, hkey⟩ := h k (SortedMap.contains_iff.2 ⟨row, hold⟩)
  rw [read?, hold, ← hrow] at ha
  exact ⟨a, ha, hkey⟩

theorem erase (h : t.Readable decode key) (k : String) : Readable decode key (t.erase k) := by
  refine h.mono fun j row hrow => ?_
  rw [SortedMap.get?_erase] at hrow
  split at hrow
  · cases hrow
  · exact hrow

end Readable

/-! ## Listings -/

theorem decodeAll_ok {es : List (String × String)}
    (h : ∀ e ∈ es, ∃ a, decode e.2 = .ok a ∧ key a = e.1) :
    ∃ xs, Store.decodeAll decode (es.map Prod.snd) = .ok xs ∧ xs.map key = es.map Prod.fst ∧
      ∀ a, a ∈ xs ↔ ∃ e ∈ es, decode e.2 = .ok a := by
  induction es with
  | nil => exact ⟨[], rfl, rfl, by simp⟩
  | cons e es ih =>
    obtain ⟨a, ha, hk⟩ := h e List.mem_cons_self
    obtain ⟨xs, hxs, hkeys, hmem⟩ := ih fun e' he' => h e' (List.mem_cons_of_mem e he')
    refine ⟨a :: xs, ?_, ?_, fun b => ?_⟩
    · rw [List.map_cons, Store.decodeAll, ha, hxs]
      rfl
    · rw [List.map_cons, List.map_cons, hkeys, hk]
    · rw [List.mem_cons, hmem b, List.exists_mem_cons_iff, ha, Except.ok.injEq]
      exact or_congr_left eq_comm

/-- A readable table is listed row by row, in the order of the keys. -/
theorem Readable.decodeAll (h : t.Readable decode key) :
    ∃ xs, Store.decodeAll decode t.values = .ok xs ∧ xs.map key = t.keys ∧
      ∀ a, a ∈ xs ↔ t.read? decode (key a) = some a := by
  have hrows : ∀ e ∈ t.entries, ∃ a, decode e.2 = .ok a ∧ key a = e.1 := by
    intro e he
    have hget := SortedMap.get?_eq_some_iff.2 he
    obtain ⟨a, ha, hk⟩ := h e.1 (by rw [SortedMap.contains, hget]; rfl)
    obtain ⟨row, hrow, hdecode⟩ := read?_eq_some_iff.1 ha
    rw [hget] at hrow
    cases hrow
    exact ⟨a, hdecode, hk⟩
  obtain ⟨xs, hxs, hkeys, hmem⟩ := decodeAll_ok hrows
  refine ⟨xs, hxs, hkeys, fun a => (hmem a).trans ⟨?_, ?_⟩⟩
  · rintro ⟨e, he, ha⟩
    obtain ⟨b, hb, hk⟩ := hrows e he
    rw [ha] at hb
    cases hb
    exact read?_eq_some_iff.2 ⟨e.2, hk ▸ SortedMap.get?_eq_some_iff.2 he, ha⟩
  · intro ha
    obtain ⟨row, hrow, hdecode⟩ := read?_eq_some_iff.1 ha
    exact ⟨(key a, row), SortedMap.get?_eq_some_iff.1 hrow, hdecode⟩

end Table

/-! ## Stores -/

namespace Store

/-- The record of a node. -/
def record? (s : Store) (id : NodeId) : Option NodeRecord := s.nodes.read? decodeNode id

/-- The leak noted for a node. -/
def leak? (s : Store) (id : NodeId) : Option LeakRecord := s.leaks.read? decodeLeak id

/-- The records of nodes go by their own ids. -/
def Keyed (s : Store) : Prop := s.nodes.Keyed decodeNode (·.id)

/-- No call fails: none is due to, and every row can be read. -/
structure Intact (s : Store) : Prop where
  calls : s.faults = []
  nodes : s.nodes.Readable decodeNode (·.id)
  leaks : s.leaks.Readable decodeLeak (·.nodeId)

theorem intact_empty : empty.Intact := ⟨rfl, .empty, .empty⟩

theorem Intact.keyed {s : Store} (h : s.Intact) : s.Keyed := h.nodes.keyed

/-- A call that is not due to fail is made. -/
theorem attempt_of_due {α : Type} {s : Store} (h : s.faults.head?.join = none)
    (call : Store → Except StateError α × Store) :
    s.attempt call = call { s with faults := s.faults.tail } := by
  obtain ⟨nodes, leaks, _ | ⟨_ | e, faults⟩⟩ := s
  · rfl
  · rfl
  · cases h

theorem attempt_of_calls {α : Type} {s : Store} (h : s.faults = [])
    (call : Store → Except StateError α × Store) : s.attempt call = call s := by
  rw [attempt, h]

theorem Intact.listNodes {s : Store} (h : s.Intact) :
    ∃ records, s.listNodes = (.ok records, s) ∧ records.map (·.id) = s.nodes.keys ∧
      ∀ r, r ∈ records ↔ s.record? r.id = some r := by
  obtain ⟨records, hall, hkeys, hmem⟩ := h.nodes.decodeAll
  refine ⟨records, ?_, hkeys, hmem⟩
  rw [Store.listNodes, attempt_of_calls h.calls, hall]

theorem Intact.listLeaks {s : Store} (h : s.Intact) :
    ∃ leaks, s.listLeaks = (.ok leaks, s) ∧ leaks.map (·.nodeId) = s.leaks.keys ∧
      ∀ l, l ∈ leaks ↔ s.leak? l.nodeId = some l := by
  obtain ⟨leaks, hall, hkeys, hmem⟩ := h.leaks.decodeAll
  refine ⟨leaks, ?_, hkeys, hmem⟩
  rw [Store.listLeaks, attempt_of_calls h.calls, hall]

end Store

end Fleet
