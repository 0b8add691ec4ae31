/-!
# Finite maps in key order

A `SortedMap` is a list of entries whose keys ascend strictly, so two maps with the same
look-ups are equal (`SortedMap.ext_get?`) and `entries` is the one listing in key order.
`get?_insert` and `get?_erase` say what the two writes do to every look-up.
-/

namespace Fleet

variable {κ : Type} {α β : Type} [Ord κ]

/-- The first entry is before the second. -/
def Before (a b : κ × α) : Prop := compare a.1 b.1 = .lt

structure SortedMap (κ : Type) (α : Type) [Ord κ] where
  entries : List (κ × α)
  ascending : entries.Pairwise Before

namespace SortedMap

/-! ## Entry lists -/

def find? (k : κ) : List (κ × α) → Option α
  | [] => none
  | (k', v) :: rest => if compare k k' = .eq then some v else find? k rest

def put (k : κ) (v : α) : List (κ × α) → List (κ × α)
  | [] => [(k, v)]
  | (k', v') :: rest =>
    match compare k k' with
    | .lt => (k, v) :: (k', v') :: rest
    | .eq => (k, v) :: rest
    | .gt => (k', v') :: put k v rest

def drop (k : κ) (es : List (κ × α)) : List (κ × α) :=
  es.filter fun e => compare k e.1 != .eq

theorem before_trans [Std.TransOrd κ] {a b c : κ × α} (h : Before a b) (h' : Before b c) :
    Before a c :=
  Std.TransCmp.lt_trans h h'

theorem mem_of_mem_put {k : κ} {v : α} {es : List (κ × α)} {e : κ × α} (h : e ∈ put k v es) :
    e = (k, v) ∨ e ∈ es := by
  induction es with
  | nil => simpa [put] using h
  | cons d rest ih =>
    obtain ⟨k', v'⟩ := d
    simp only [put] at h
    split at h
    · simpa using h
    · rcases List.mem_cons.1 h with h | h
      · exact .inl h
      · exact .inr (List.mem_cons_of_mem _ h)
    · rcases List.mem_cons.1 h with h | h
      · exact .inr (h ▸ List.mem_cons_self)
      · exact (ih h).imp id (List.mem_cons_of_mem _)

variable [Std.LawfulEqOrd κ]

theorem pairwise_put [Std.TransOrd κ] {k : κ} {v : α} {es : List (κ × α)} (h : es.Pairwise Before) :
    (put k v es).Pairwise Before := by
  induction es with
  | nil => simp [put]
  | cons d rest ih =>
    obtain ⟨k', v'⟩ := d
    have hr := (List.pairwise_cons.1 h).2
    have hd := (List.pairwise_cons.1 h).1
    simp only [put]
    split
    · rename_i hk
      refine List.pairwise_cons.2 ⟨fun e he => ?_, h⟩
      rcases List.mem_cons.1 he with rfl | he
      · exact hk
      · exact before_trans (show Before (k, v) (k', v') from hk) (hd e he)
    · rename_i hk
      have hk := Std.LawfulEqOrd.eq_of_compare hk
      subst hk
      exact List.pairwise_cons.2 ⟨fun e he => hd e he, hr⟩
    · rename_i hk
      refine List.pairwise_cons.2 ⟨fun e he => ?_, ih hr⟩
      rcases mem_of_mem_put he with rfl | he
      · exact Std.OrientedCmp.gt_iff_lt.1 hk
      · exact hd e he

theorem find?_put (k j : κ) (v : α) (es : List (κ × α)) :
    find? j (put k v es) = if compare j k = .eq then some v else find? j es := by
  induction es with
  | nil => simp [put, find?]
  | cons d rest ih =>
    obtain ⟨k', v'⟩ := d
    simp only [put]
    split
    · simp [find?]
    · rename_i hk
      have hk := Std.LawfulEqOrd.eq_of_compare hk
      subst hk
      simp only [find?]
      split <;> rfl
    · rename_i hk
      simp only [find?, ih]
      by_cases h : compare j k' = .eq
      · have h' := Std.LawfulEqOrd.eq_of_compare h
        subst h'
        have : compare j k ≠ .eq := by
          intro hj
          have hj := Std.LawfulEqOrd.eq_of_compare hj
          subst hj
          simp at hk
        simp [this]
      · simp [h]

theorem find?_drop [Std.TransOrd κ] (k j : κ) (es : List (κ × α)) :
    find? j (drop k es) = if compare j k = .eq then none else find? j es := by
  induction es with
  | nil => simp [drop, find?]
  | cons d rest ih =>
    obtain ⟨k', v'⟩ := d
    rw [drop] at ih
    rw [drop, List.filter_cons]
    by_cases hk : compare k k' = .eq
    · have hk' := Std.LawfulEqOrd.eq_of_compare hk
      subst hk'
      simp only [hk, bne_self_eq_false, Bool.false_eq_true, if_false, ih, find?]
      split <;> rfl
    · simp only [bne_iff_ne, ne_eq, hk, not_false_eq_true, if_true, find?, ih]
      by_cases h : compare j k' = .eq
      · have h' := Std.LawfulEqOrd.eq_of_compare h
        subst h'
        have : compare j k ≠ .eq := fun hj => hk (Std.OrientedCmp.eq_symm hj)
        simp [this]
      · simp [h]

theorem find?_eq_some_iff {es : List (κ × α)} (h : es.Pairwise Before) {k : κ} {v : α} :
    find? k es = some v ↔ (k, v) ∈ es := by
  induction es with
  | nil => simp [find?]
  | cons d rest ih =>
    obtain ⟨k', v'⟩ := d
    have hd := (List.pairwise_cons.1 h).1
    simp only [find?, List.mem_cons, Prod.mk.injEq]
    by_cases hk : compare k k' = .eq
    · have hk' := Std.LawfulEqOrd.eq_of_compare hk
      subst hk'
      simp only [hk, if_true, Option.some.injEq, true_and]
      refine ⟨fun e => .inl e.symm, fun e => ?_⟩
      rcases e with e | e
      · exact e.symm
      · have := hd _ e
        simp [Before] at this
    · have hk' : k ≠ k' := by rintro rfl; simp at hk
      simp [hk, hk', ih (List.pairwise_cons.1 h).2]

/-! ## Maps -/

def empty : SortedMap κ α := ⟨[], .nil⟩

instance : Inhabited (SortedMap κ α) := ⟨empty⟩

def get? (m : SortedMap κ α) (k : κ) : Option α := find? k m.entries

def contains (m : SortedMap κ α) (k : κ) : Bool := (m.get? k).isSome

theorem get?_eq_some_iff {m : SortedMap κ α} {k : κ} {v : α} :
    m.get? k = some v ↔ (k, v) ∈ m.entries :=
  find?_eq_some_iff m.ascending

theorem find?_filterMap (f : κ → α → Option β) (k : κ) {es : List (κ × α)}
    (h : es.Pairwise Before) :
    find? k (es.filterMap fun e => (f e.1 e.2).map (e.1, ·)) = (find? k es).bind (f k) := by
  induction es with
  | nil => rfl
  | cons d rest ih =>
    obtain ⟨k', v'⟩ := d
    have hd := (List.pairwise_cons.1 h).1
    have hr := (List.pairwise_cons.1 h).2
    by_cases hk : compare k k' = .eq
    · have hk' := Std.LawfulEqOrd.eq_of_compare hk
      subst hk'
      have absent : find? k rest = none := by
        cases hf : find? k rest with
        | none => rfl
        | some v =>
          have := hd _ ((find?_eq_some_iff hr).1 hf)
          simp [Before] at this
      cases hv : f k v' with
      | none => simp [hv, find?, ih hr, absent]
      | some w => simp [hv, find?]
    · cases hv : f k' v' with
      | none => simp [hv, find?, ih hr, hk]
      | some w => simp [hv, find?, ih hr, hk]

/-- Every entry rewritten or left out by `f`. -/
def filterMap (f : κ → α → Option β) (m : SortedMap κ α) : SortedMap κ β :=
  ⟨m.entries.filterMap fun e => (f e.1 e.2).map (e.1, ·), by
    refine m.ascending.filterMap _ fun a a' h b hb b' hb' => ?_
    obtain ⟨_, _, rfl⟩ := Option.map_eq_some_iff.1 hb
    obtain ⟨_, _, rfl⟩ := Option.map_eq_some_iff.1 hb'
    exact h⟩

theorem get?_filterMap (f : κ → α → Option β) (m : SortedMap κ α) (k : κ) :
    (m.filterMap f).get? k = (m.get? k).bind (f k) :=
  find?_filterMap f k m.ascending

variable [Std.TransOrd κ]

def insert (m : SortedMap κ α) (k : κ) (v : α) : SortedMap κ α :=
  ⟨put k v m.entries, pairwise_put m.ascending⟩

def erase (m : SortedMap κ α) (k : κ) : SortedMap κ α :=
  ⟨drop k m.entries, m.ascending.filter _⟩

def keys (m : SortedMap κ α) : List κ := m.entries.map (·.1)

def values (m : SortedMap κ α) : List α := m.entries.map (·.2)

def size (m : SortedMap κ α) : Nat := m.entries.length

def isEmpty (m : SortedMap κ α) : Bool := m.entries.isEmpty

/-- Later entries of the list win. -/
def ofList (es : List (κ × α)) : SortedMap κ α :=
  es.foldl (fun m e => m.insert e.1 e.2) empty

omit [Std.LawfulEqOrd κ] [Std.TransOrd κ] in
@[simp] theorem get?_empty (k : κ) : (empty : SortedMap κ α).get? k = none := rfl

theorem get?_insert (m : SortedMap κ α) (k j : κ) (v : α) [DecidableEq κ] :
    (m.insert k v).get? j = if j = k then some v else m.get? j := by
  simp only [get?, insert, find?_put, Std.LawfulEqOrd.compare_eq_iff_eq]

theorem get?_erase (m : SortedMap κ α) (k j : κ) [DecidableEq κ] :
    (m.erase k).get? j = if j = k then none else m.get? j := by
  simp only [get?, erase, find?_drop, Std.LawfulEqOrd.compare_eq_iff_eq]

theorem eq_of_subset_of_pairwise : ∀ {es ds : List (κ × α)}, es.Pairwise Before →
    ds.Pairwise Before → (∀ e, e ∈ es ↔ e ∈ ds) → es = ds
  | [], [], _, _, _ => rfl
  | [], d :: _, _, _, h => absurd ((h d).2 List.mem_cons_self) (by simp)
  | e :: _, [], _, _, h => absurd ((h e).1 List.mem_cons_self) (by simp)
  | e :: es, d :: ds, he, hd, h => by
    have he' := List.pairwise_cons.1 he
    have hd' := List.pairwise_cons.1 hd
    have irrefl : ∀ a : κ × α, ¬ Before a a := fun a => by simp [Before]
    have hed : e = d := by
      rcases List.mem_cons.1 ((h e).1 List.mem_cons_self) with rfl | h1
      · rfl
      rcases List.mem_cons.1 ((h d).2 List.mem_cons_self) with rfl | h2
      · rfl
      exact absurd (before_trans (hd'.1 e h1) (he'.1 d h2)) (irrefl d)
    subst hed
    refine congrArg _ (eq_of_subset_of_pairwise he'.2 hd'.2 fun a => ⟨fun ha => ?_, fun ha => ?_⟩)
    · rcases List.mem_cons.1 ((h a).1 (List.mem_cons_of_mem _ ha)) with rfl | h1
      · exact absurd (he'.1 a ha) (irrefl a)
      · exact h1
    · rcases List.mem_cons.1 ((h a).2 (List.mem_cons_of_mem _ ha)) with rfl | h1
      · exact absurd (hd'.1 a ha) (irrefl a)
      · exact h1

/-- A map is determined by its look-ups. -/
theorem ext_get? {m n : SortedMap κ α} (h : ∀ k, m.get? k = n.get? k) : m = n := by
  obtain ⟨es, he⟩ := m
  obtain ⟨ds, hd⟩ := n
  have : es = ds := eq_of_subset_of_pairwise he hd fun ⟨k, v⟩ => by
    rw [← find?_eq_some_iff he, ← find?_eq_some_iff hd]
    exact ⟨fun e => (h k).symm.trans e, fun e => (h k).trans e⟩
  subst this
  rfl

end SortedMap

end Fleet
