import Fleet.SortedMap
import Mathlib.Data.List.Induction
import Mathlib.Data.List.Nodup

/-!
# The listing of a map

`SortedMap.get?_eq_some_iff` ties look-ups to the listing.  Here is what follows for the
listing as a whole: no key stands in it twice, it is empty exactly if every look-up
fails, and a write adds or takes away the entry of its key (`perm_insert`, `perm_erase`).  A
map made of a list has the last entry that the list has for a key (`get?_ofList`).
-/

namespace Fleet.SortedMap

variable {κ α : Type} [Ord κ]

theorem nodup_entries [Std.TransOrd κ] (m : SortedMap κ α) : m.entries.Nodup := by
  refine m.ascending.imp fun {a b} h he => ?_
  subst he
  simp [Before] at h

theorem ascending_keys (m : SortedMap κ α) : m.keys.Pairwise fun a b => compare a b = .lt :=
  List.Pairwise.map Prod.fst (fun _ _ h => h) m.ascending

theorem nodup_keys [Std.TransOrd κ] (m : SortedMap κ α) : m.keys.Nodup := by
  refine m.ascending_keys.imp fun {a b} h he => ?_
  subst he
  simp at h

theorem contains_iff {m : SortedMap κ α} {k : κ} :
    m.contains k = true ↔ ∃ v, m.get? k = some v := by
  rw [contains, Option.isSome_iff_exists]

variable [Std.LawfulEqOrd κ] {m : SortedMap κ α}

theorem isEmpty_eq_false_iff : m.isEmpty = false ↔ ∃ k v, m.get? k = some v := by
  rw [isEmpty, List.isEmpty_eq_false_iff]
  constructor
  · intro h
    obtain ⟨e, es, h⟩ := List.exists_cons_of_ne_nil h
    exact ⟨e.1, e.2, get?_eq_some_iff.2 (h ▸ List.mem_cons_self)⟩
  · rintro ⟨k, v, h⟩
    exact List.ne_nil_of_mem (get?_eq_some_iff.1 h)

theorem isEmpty_iff : m.isEmpty = true ↔ ∀ k, m.get? k = none := by
  constructor
  · intro h k
    cases hv : m.get? k with
    | none => rfl
    | some v =>
      rw [isEmpty_eq_false_iff.2 ⟨k, v, hv⟩] at h
      cases h
  · intro h
    cases he : m.isEmpty with
    | true => rfl
    | false =>
      obtain ⟨k, v, hv⟩ := isEmpty_eq_false_iff.1 he
      rw [h k] at hv
      cases hv

theorem mem_keys {k : κ} : k ∈ m.keys ↔ m.contains k = true := by
  rw [keys, contains_iff]
  constructor
  · intro h
    obtain ⟨⟨k, v⟩, he, rfl⟩ := List.mem_map.1 h
    exact ⟨v, get?_eq_some_iff.2 he⟩
  · rintro ⟨v, hv⟩
    exact List.mem_map.2 ⟨(k, v), get?_eq_some_iff.1 hv, rfl⟩

variable [Std.TransOrd κ] [DecidableEq κ]

/-- What is listed under a key. -/
theorem filter_entries (m : SortedMap κ α) (k : κ) :
    m.entries.filter (·.1 = k) = ((m.get? k).map (k, ·)).toList := by
  cases hk : m.get? k with
  | none =>
    refine List.filter_eq_nil_iff.2 fun e he hek => ?_
    rw [← of_decide_eq_true hek, get?_eq_some_iff.2 he] at hk
    cases hk
  | some v =>
    refine List.perm_singleton.1 ((List.perm_ext_iff_of_nodup (m.nodup_entries.filter _)
      (List.nodup_singleton _)).2 fun ⟨j, w⟩ => ?_)
    rw [List.mem_filter, List.mem_singleton, ← get?_eq_some_iff, Prod.mk.injEq]
    constructor
    · rintro ⟨hget, hj⟩
      obtain rfl := of_decide_eq_true hj
      exact ⟨rfl, Option.some.inj (hget.symm.trans hk)⟩
    · rintro ⟨rfl, rfl⟩
      exact ⟨hk, decide_eq_true rfl⟩

/-! ## Writes -/

theorem perm_insert {k : κ} (h : m.get? k = none) (v : α) :
    (m.insert k v).entries.Perm ((k, v) :: m.entries) := by
  have hnew : (k, v) ∉ m.entries := by
    intro hm
    rw [get?_eq_some_iff.2 hm] at h
    cases h
  refine (List.perm_ext_iff_of_nodup (nodup_entries _)
    (List.nodup_cons.2 ⟨hnew, nodup_entries m⟩)).2 fun ⟨j, w⟩ => ?_
  rw [← get?_eq_some_iff, get?_insert, List.mem_cons, ← get?_eq_some_iff, Prod.mk.injEq]
  by_cases hj : j = k
  · subst hj
    simp [h, eq_comm]
  · simp [hj]

theorem perm_erase {k : κ} {v : α} (h : m.get? k = some v) :
    m.entries.Perm ((k, v) :: (m.erase k).entries) := by
  have hgone : (k, v) ∉ (m.erase k).entries := by
    intro hm
    rw [← get?_eq_some_iff, get?_erase, if_pos rfl] at hm
    cases hm
  refine (List.perm_ext_iff_of_nodup (nodup_entries m)
    (List.nodup_cons.2 ⟨hgone, nodup_entries _⟩)).2 fun ⟨j, w⟩ => ?_
  rw [← get?_eq_some_iff, List.mem_cons, ← get?_eq_some_iff, get?_erase, Prod.mk.injEq]
  by_cases hj : j = k
  · subst hj
    simp [h, eq_comm]
  · simp [hj]

theorem erase_of_get?_eq_none {k : κ} (h : m.get? k = none) : m.erase k = m := by
  refine ext_get? fun j => ?_
  rw [get?_erase]
  split
  · rename_i hj
    rw [hj, h]
  · rfl

theorem get?_ofList (es : List (κ × α)) (k : κ) :
    (ofList es).get? k = (es.filter (·.1 = k)).getLast?.map (·.2) := by
  induction es using List.reverseRecOn with
  | nil => rfl
  | append_singleton es e ih =>
    rw [ofList, List.foldl_append, List.foldl_cons, List.foldl_nil, ← ofList, get?_insert, ih]
    by_cases hk : k = e.1
    · subst hk
      simp
    · simp [hk, Ne.symm hk]

end Fleet.SortedMap
