import Fleet.Ledger
import Fleet.Proofs.SortedMap
import Mathlib

/-!
# The ledger read flat

The ledger groups its promises by account; `Ledger.flat` reads them one by one.  On a
`Coherent` ledger, whose index leads to the promises and which holds no empty group,
`record` adds one promise (`Coherent.flat_record`) and `resolve` takes one away
(`Coherent.flat_resolve`), and all that the ledger answers is a sum or a count over the
promises (`promised_eq`, `promisedForLabel_eq`, `contains_iff`, `entries_eq_tally`).
-/

namespace Fleet

/-- A promise that the ledger tracks. -/
structure Promise where
  id : PlannedId
  account : Account
  executors : Nat
  deriving DecidableEq

/-- Executors and promises by account. -/
def tally (ps : List Promise) : SortedMap Account (Nat × Nat) :=
  ps.foldl (fun m p =>
    let t := (m.get? p.account).getD (0, 0)
    m.insert p.account (t.1 + p.executors, t.2 + 1)) .empty

namespace Promise

/-- The promises to one account. -/
def ofAccount (a : Account) (ps : List Promise) : List Promise := ps.filter (·.account = a)

/-- The executors that promises add up to. -/
def total (ps : List Promise) : Nat := (ps.map (·.executors)).sum

theorem total_perm {ps qs : List Promise} (h : ps.Perm qs) : total ps = total qs :=
  (h.map _).sum_nat

theorem total_append (ps qs : List Promise) : total (ps ++ qs) = total ps + total qs := by
  simp [total]

theorem total_cons (p : Promise) (ps : List Promise) :
    total (p :: ps) = p.executors + total ps := by
  simp [total]

end Promise

open Promise

theorem get?_tally_foldl (a : Account) (ps : List Promise) (m : SortedMap Account (Nat × Nat)) :
    (ps.foldl (fun m p =>
      let t := (m.get? p.account).getD (0, 0)
      m.insert p.account (t.1 + p.executors, t.2 + 1)) m).get? a =
    if ofAccount a ps = [] then m.get? a
    else some (((m.get? a).getD (0, 0)).1 + total (ofAccount a ps),
      ((m.get? a).getD (0, 0)).2 + (ofAccount a ps).length) := by
  induction ps generalizing m with
  | nil => rfl
  | cons p ps ih =>
    rw [List.foldl_cons, ih, SortedMap.get?_insert]
    by_cases h : a = p.account
    · subst h
      have hp : ofAccount p.account (p :: ps) = p :: ofAccount p.account ps := by
        simp [ofAccount]
      rw [hp, if_neg (List.cons_ne_nil _ _), total_cons, List.length_cons]
      by_cases hn : ofAccount p.account ps = []
      · simp [hn, total]
      · simp only [if_true, hn, if_false, Option.getD_some]
        congr 2 <;> omega
    · have hp : ofAccount a (p :: ps) = ofAccount a ps := by
        simp [ofAccount, Ne.symm h]
      rw [hp, if_neg h]

theorem get?_tally (a : Account) (ps : List Promise) :
    (tally ps).get? a =
      if ofAccount a ps = [] then none
      else some (total (ofAccount a ps), (ofAccount a ps).length) := by
  rw [tally, get?_tally_foldl]
  simp

namespace Ledger

/-- The promises in flight, one by one. -/
def flat (l : Ledger) : List Promise :=
  l.promises.entries.flatMap fun e => e.2.entries.map fun d => ⟨d.1, e.1, d.2⟩

theorem mem_flat {l : Ledger} {p : Promise} :
    p ∈ l.flat ↔ ∃ g, l.promises.get? p.account = some g ∧ g.get? p.id = some p.executors := by
  simp only [flat, List.mem_flatMap, List.mem_map, Prod.exists, SortedMap.get?_eq_some_iff]
  constructor
  · rintro ⟨a, g, hg, id, n, hn, rfl⟩
    exact ⟨g, hg, hn⟩
  · rintro ⟨g, hg, hn⟩
    exact ⟨p.account, g, hg, p.id, p.executors, hn, rfl⟩

theorem nodup_flat (l : Ledger) : l.flat.Nodup := by
  refine List.nodup_flatMap.2 ⟨fun e _ => ?_, l.promises.ascending.imp fun {e d} h => ?_⟩
  · refine List.Nodup.map (fun x y h => ?_) (SortedMap.nodup_entries _)
    simp only [Promise.mk.injEq, true_and] at h
    exact Prod.ext h.1 h.2
  · -- two groups belong to two accounts
    intro p hp hp'
    obtain ⟨_, _, rfl⟩ := List.mem_map.1 hp
    obtain ⟨_, _, h'⟩ := List.mem_map.1 hp'
    simp only [Promise.mk.injEq] at h'
    rw [Before, h'.2.1] at h
    simp at h

/-- The index leads to the promises, and no group is empty. -/
structure Coherent (l : Ledger) : Prop where
  index_iff : ∀ id a, l.index.get? id = some a ↔ ∃ n, ⟨id, a, n⟩ ∈ l.flat
  inhabited : ∀ a g, l.promises.get? a = some g → g.isEmpty = false

theorem coherent_empty : Coherent .empty where
  index_iff id a := by simp [empty, flat, SortedMap.empty, SortedMap.get?, SortedMap.find?]
  inhabited a g h := by simp [empty] at h

namespace Coherent

variable {l : Ledger}

theorem eq_of_mem (h : l.Coherent) {p q : Promise} (hp : p ∈ l.flat) (hq : q ∈ l.flat)
    (hid : p.id = q.id) : p = q := by
  have ha : p.account = q.account := by
    have h1 := (h.index_iff p.id p.account).2 ⟨_, hp⟩
    have h2 := (h.index_iff q.id q.account).2 ⟨_, hq⟩
    rw [hid, h2] at h1
    exact (Option.some.inj h1).symm
  obtain ⟨g, hg, hn⟩ := mem_flat.1 hp
  obtain ⟨g', hg', hn'⟩ := mem_flat.1 hq
  rw [ha, hg'] at hg
  cases hg
  rw [hid, hn'] at hn
  obtain ⟨i, a, n⟩ := p
  obtain ⟨j, b, m⟩ := q
  simp only at hid ha hn
  subst hid ha
  rw [Option.some.inj hn]

theorem contains_iff (h : l.Coherent) {id : PlannedId} :
    l.contains id = true ↔ ∃ p ∈ l.flat, p.id = id := by
  rw [contains, SortedMap.contains_iff]
  constructor
  · rintro ⟨a, ha⟩
    obtain ⟨n, hn⟩ := (h.index_iff id a).1 ha
    exact ⟨_, hn, rfl⟩
  · rintro ⟨p, hp, rfl⟩
    exact ⟨p.account, (h.index_iff _ _).2 ⟨p.executors, hp⟩⟩

theorem nodup_ids (h : l.Coherent) : (l.flat.map (·.id)).Nodup :=
  l.nodup_flat.map_on fun _ hp _ hq hid => h.eq_of_mem hp hq hid

/-! ## Recording and resolving -/

theorem id_ne_of_untracked (h : l.Coherent) {id : PlannedId} (hid : l.contains id = false)
    {p : Promise} (hp : p ∈ l.flat) : p.id ≠ id := by
  intro he
  rw [h.contains_iff.2 ⟨p, hp, he⟩] at hid
  cases hid

theorem mem_flat_record (h : l.Coherent) {id : PlannedId} (hid : l.contains id = false)
    (a : Account) (n : Nat) {p : Promise} :
    p ∈ (l.record a id n).flat ↔ p = ⟨id, a, n⟩ ∨ p ∈ l.flat := by
  have untracked (g : Promises) (hg : l.promises.get? a = some g) : g.get? id = none := by
    cases hv : g.get? id with
    | none => rfl
    | some v =>
      have hmem := mem_flat (p := ⟨id, a, v⟩).2 ⟨g, hg, hv⟩
      exact absurd rfl (h.id_ne_of_untracked hid hmem)
  obtain ⟨i, b, m⟩ := p
  simp only [record, hid, Bool.false_eq_true, if_false, mem_flat, SortedMap.get?_insert,
    Promise.mk.injEq]
  by_cases hb : b = a
  · subst hb
    simp only [if_true, Option.some.injEq, exists_eq_left', SortedMap.get?_insert, true_and]
    cases hg : l.promises.get? b with
    | none => by_cases hi : i = id <;> simp [hi, eq_comm]
    | some g =>
      have := untracked g hg
      by_cases hi : i = id
      · subst hi
        simp [this, eq_comm]
      · simp [hi]
  · simp [hb]

theorem record (h : l.Coherent) {id : PlannedId} (hid : l.contains id = false)
    (a : Account) (n : Nat) : (l.record a id n).Coherent := by
  have hm := fun p => h.mem_flat_record hid a n (p := p)
  constructor
  · intro i b
    simp only [hm, Promise.mk.injEq]
    rw [Ledger.record, if_neg (by rw [hid]; decide), SortedMap.get?_insert]
    by_cases hi : i = id
    · subst hi
      have hno (m : Nat) : (⟨i, b, m⟩ : Promise) ∉ l.flat := fun hp =>
        h.id_ne_of_untracked hid hp rfl
      simp [hno, eq_comm]
    · simp [hi, h.index_iff]
  · intro b g hg
    simp only [Ledger.record, hid, Bool.false_eq_true, if_false, SortedMap.get?_insert] at hg
    by_cases hb : b = a
    · rw [if_pos hb] at hg
      cases hg
      exact SortedMap.isEmpty_eq_false_iff.2 ⟨id, n, by simp [SortedMap.get?_insert]⟩
    · rw [if_neg hb] at hg
      exact h.inhabited b g hg

theorem flat_record (h : l.Coherent) {id : PlannedId} (hid : l.contains id = false)
    (a : Account) (n : Nat) : (l.record a id n).flat.Perm (⟨id, a, n⟩ :: l.flat) := by
  have hnew : (⟨id, a, n⟩ : Promise) ∉ l.flat := fun hp => h.id_ne_of_untracked hid hp rfl
  refine (List.perm_ext_iff_of_nodup (nodup_flat _)
    (List.nodup_cons.2 ⟨hnew, l.nodup_flat⟩)).2 fun p => ?_
  rw [h.mem_flat_record hid, List.mem_cons]

theorem mem_flat_resolve (h : l.Coherent) (id : PlannedId) {p : Promise} :
    p ∈ (l.resolve id).2.flat ↔ p ∈ l.flat ∧ p.id ≠ id := by
  cases hx : l.index.get? id with
  | none =>
    have hno (hp : p ∈ l.flat) : p.id ≠ id := by
      rintro rfl
      rw [(h.index_iff p.id p.account).2 ⟨_, hp⟩] at hx
      cases hx
    simp only [Ledger.resolve, hx]
    exact ⟨fun hp => ⟨hp, hno hp⟩, And.left⟩
  | some a =>
    obtain ⟨n, hn⟩ := (h.index_iff id a).1 hx
    obtain ⟨g, hg, hv⟩ := mem_flat.1 hn
    simp only at hg hv
    -- a promise with this id can only be the one of account a
    have elsewhere (hp : p ∈ l.flat) (hid : p.id = id) : p.account = a := by
      rw [h.eq_of_mem hp hn hid]
    simp only [Ledger.resolve, hx, hg, mem_flat]
    by_cases hb : p.account = a
    · rw [hb]
      cases he : (g.erase id).isEmpty with
      | true =>
        have hz := SortedMap.isEmpty_iff.1 he p.id
        rw [SortedMap.get?_erase] at hz
        simp only [if_true, SortedMap.get?_erase, reduceCtorEq, false_and, exists_false, hg,
          Option.some.injEq, exists_eq_left', false_iff, not_and, not_not]
        intro hp
        by_contra hne
        rw [if_neg hne, hp] at hz
        cases hz
      | false =>
        simp only [Bool.false_eq_true, if_false, SortedMap.get?_insert, if_true,
          Option.some.injEq, exists_eq_left', SortedMap.get?_erase, hg]
        by_cases hid : p.id = id <;> simp [hid]
    · have hne (g' : Promises) (hg' : l.promises.get? p.account = some g')
          (hv' : g'.get? p.id = some p.executors) : p.id ≠ id := fun hid =>
        hb (elsewhere (mem_flat.2 ⟨g', hg', hv'⟩) hid)
      split
      all_goals
        simp only [SortedMap.get?_erase, SortedMap.get?_insert, hb, if_false]
        exact ⟨fun ⟨g', hg', hv'⟩ => ⟨⟨g', hg', hv'⟩, hne g' hg' hv'⟩, And.left⟩

theorem resolve (h : l.Coherent) (id : PlannedId) : (l.resolve id).2.Coherent := by
  constructor
  · intro i b
    simp only [h.mem_flat_resolve]
    have hix : (l.resolve id).2.index.get? i = if i = id then none else l.index.get? i := by
      cases hx : l.index.get? id with
      | none =>
        simp only [Ledger.resolve, hx]
        split
        · rename_i hi
          rw [hi, hx]
        · rfl
      | some a =>
        simp only [Ledger.resolve, hx]
        split <;> exact SortedMap.get?_erase _ _ _
    rw [hix]
    by_cases hi : i = id <;> simp [hi, h.index_iff]
  · intro b g' hg'
    cases hx : l.index.get? id with
    | none =>
      simp only [Ledger.resolve, hx] at hg'
      exact h.inhabited b g' hg'
    | some a =>
      simp only [Ledger.resolve, hx] at hg'
      split at hg'
      · exact h.inhabited b g' hg'
      · rename_i g hg
        simp only at hg'
        split at hg'
        · rw [SortedMap.get?_erase] at hg'
          split at hg'
          · cases hg'
          · exact h.inhabited b g' hg'
        · rename_i he
          rw [SortedMap.get?_insert] at hg'
          split at hg'
          · cases hg'
            exact Bool.not_eq_true _ ▸ he
          · exact h.inhabited b g' hg'

theorem flat_resolve (h : l.Coherent) (id : PlannedId) :
    (l.resolve id).2.flat.Perm (l.flat.filter (·.id ≠ id)) := by
  refine (List.perm_ext_iff_of_nodup (nodup_flat _) (l.nodup_flat.filter _)).2 fun p => ?_
  rw [h.mem_flat_resolve, List.mem_filter, decide_eq_true_iff]

end Coherent

/-! ## Sums and counts -/

theorem total_eq_sum_entries (a : Account) (g : Promises) :
    Promise.total (g.entries.map fun d => ⟨d.1, a, d.2⟩) = g.total := by
  rw [Promise.total, Promises.total, SortedMap.values, List.map_map]
  rfl

theorem ofAccount_flat_of_some {l : Ledger} {a : Account} {g : Promises}
    (h : l.promises.get? a = some g) :
    (ofAccount a l.flat).Perm (g.entries.map fun d => ⟨d.1, a, d.2⟩) := by
  refine (List.perm_ext_iff_of_nodup (l.nodup_flat.filter _) ?_).2 fun p => ?_
  · refine List.Nodup.map (fun x y he => ?_) g.nodup_entries
    simp only [Promise.mk.injEq, true_and] at he
    exact Prod.ext he.1 he.2
  · obtain ⟨i, b, n⟩ := p
    rw [List.mem_filter, decide_eq_true_iff, mem_flat, List.mem_map]
    constructor
    · rintro ⟨⟨g', hg', hv⟩, hb⟩
      simp only at hg' hv hb
      subst hb
      rw [h] at hg'
      cases hg'
      exact ⟨(i, n), SortedMap.get?_eq_some_iff.1 hv, rfl⟩
    · rintro ⟨d, hd, he⟩
      simp only [Promise.mk.injEq] at he
      obtain ⟨rfl, rfl, rfl⟩ := he
      exact ⟨⟨g, h, SortedMap.get?_eq_some_iff.2 hd⟩, rfl⟩

theorem ofAccount_flat_of_none {l : Ledger} {a : Account} (h : l.promises.get? a = none) :
    ofAccount a l.flat = [] := by
  refine List.filter_eq_nil_iff.2 fun p hp hb => ?_
  obtain ⟨g, hg, -⟩ := mem_flat.1 hp
  rw [of_decide_eq_true hb, h] at hg
  cases hg

theorem promised_eq (l : Ledger) (a : Account) : l.promised a = total (ofAccount a l.flat) := by
  rw [promised]
  cases h : l.promises.get? a with
  | none => rw [ofAccount_flat_of_none h]; rfl
  | some g => rw [total_perm (ofAccount_flat_of_some h), total_eq_sum_entries]; rfl

theorem promisedForLabel_eq (l : Ledger) (label : Option Label) :
    l.promisedForLabel label = total (l.flat.filter (·.account.label = label)) := by
  show ((l.promises.entries.filter fun e => e.1.label == label).map fun e => e.2.total).sum = _
  rw [flat]
  induction l.promises.entries with
  | nil => rfl
  | cons e es ih =>
    rw [List.flatMap_cons, List.filter_append, total_append, ← ih, List.filter_cons]
    by_cases h : e.1.label = label
    · have : (e.2.entries.map fun d => (⟨d.1, e.1, d.2⟩ : Promise)).filter
          (·.account.label = label) = e.2.entries.map fun d => ⟨d.1, e.1, d.2⟩ :=
        List.filter_eq_self.2 fun p hp => by
          obtain ⟨d, _, rfl⟩ := List.mem_map.1 hp
          simpa using h
      simp only [h, beq_self_eq_true, if_true, List.map_cons, List.sum_cons]
      rw [this, total_eq_sum_entries]
    · have : (e.2.entries.map fun d => (⟨d.1, e.1, d.2⟩ : Promise)).filter
          (·.account.label = label) = [] :=
        List.filter_eq_nil_iff.2 fun p hp => by
          obtain ⟨d, _, rfl⟩ := List.mem_map.1 hp
          simpa using h
      simp [h, this, total]

/-- The ledger lists what a count over its promises gives, account by account. -/
theorem Coherent.entries_eq_tally {l : Ledger} (h : l.Coherent) {ps : List Promise}
    (hps : l.flat.Perm ps) :
    l.entries = (tally ps).entries.map fun e => ⟨e.1, e.2.1, e.2.2⟩ := by
  have ht : tally ps = l.promises.filterMap fun _ g => some (g.total, g.size) := by
    refine SortedMap.ext_get? fun a => ?_
    have hp : (ofAccount a ps).Perm (ofAccount a l.flat) := (hps.filter _).symm
    rw [get?_tally, SortedMap.get?_filterMap, total_perm hp, hp.length_eq]
    cases hg : l.promises.get? a with
    | none =>
      rw [ofAccount_flat_of_none hg] at hp
      rw [hp.eq_nil]
      rfl
    | some g =>
      have hf := ofAccount_flat_of_some hg
      have hne : ofAccount a ps ≠ [] := by
        intro he
        rw [he] at hp
        rw [hp.symm.eq_nil] at hf
        have hz := hf.length_eq
        rw [List.length_map, List.length_nil] at hz
        have := h.inhabited a g hg
        rw [SortedMap.isEmpty, List.length_eq_zero_iff.1 hz.symm] at this
        cases this
      rw [if_neg hne, total_perm hf, hf.length_eq, total_eq_sum_entries, List.length_map]
      rfl
  rw [ht, entries, SortedMap.filterMap]
  simp only [Option.map_some, List.filterMap_eq_map', List.map_map]
  rfl

end Ledger

end Fleet
