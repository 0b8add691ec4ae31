import Fleet.Source
import Mathlib.Data.List.Nodup

/-!
# Members of a set of sources

A member is looked up by its name, or by the text that names it; names are distinct, so both
find the same one.  A call changes only the member that it goes to.
-/

namespace Fleet

namespace SourceSet

variable {σ ρ : Type} [CapacitySource σ ρ]

theorem name_of_get? {set : SourceSet σ} {n : SourceName} {s : σ} (h : set.get? n = some s) :
    CapacitySource.name s = n := by
  rw [get?] at h
  simpa using List.find?_some h

theorem mem_names_of_get? {set : SourceSet σ} {n : SourceName} {s : σ}
    (h : set.get? n = some s) : n ∈ set.names :=
  List.mem_map.2 ⟨s, List.mem_of_find?_eq_some h, name_of_get? h⟩

theorem get?_eq_some_of_mem {set : SourceSet σ} {n : SourceName} (h : n ∈ set.names) :
    ∃ s, set.get? n = some s := by
  obtain ⟨s, hs, rfl⟩ := List.mem_map.1 h
  exact Option.isSome_iff_exists.1 (List.find?_isSome.2 ⟨s, hs, by simp⟩)

/-- A member is found under its name. -/
theorem get?_of_mem {set : SourceSet σ} {s : σ} (h : s ∈ set.members) :
    set.get? (CapacitySource.name s) = some s := by
  cases hg : set.get? (CapacitySource.name s) with
  | none =>
    rw [get?, List.find?_eq_none] at hg
    exact absurd (decide_eq_true rfl) (hg s h)
  | some s' =>
    have hmem : s' ∈ set.members := List.mem_of_find?_eq_some hg
    exact congrArg some (List.inj_on_of_nodup_map set.distinct hmem h (name_of_get? hg))

/-- A call to one member changes what is found under its name. -/
theorem get?_update (set : SourceSet σ) (n m : SourceName) (call : σ → σ)
    (keeps : ∀ s, CapacitySource.name (call s) = CapacitySource.name s) :
    (set.update n call keeps).get? m =
      (set.get? m).map fun s => if m = n then call s else s := by
  have hsame : (fun s : σ => decide (CapacitySource.name s = m)) ∘
      (fun s => if CapacitySource.name s = n then call s else s) =
        fun s => decide (CapacitySource.name s = m) := by
    funext s
    simp only [Function.comp_apply]
    split
    · rw [keeps]
    · rfl
  rw [get?, update, List.find?_map, hsame]
  show (set.get? m).map _ = _
  refine Option.map_congr fun s hs => ?_
  rw [name_of_get? hs]

/-! ## Calls -/

section Calls

variable {set : SourceSet σ} {n m : SourceName} {s : σ}

theorem names_canProvision (set : SourceSet σ) (n : SourceName) (label : Option Label) :
    (set.canProvision n label).2.names = set.names :=
  set.names_update n _ (CapacitySource.name_canProvision label)

theorem names_provision (set : SourceSet σ) (n : SourceName) (label : Option Label)
    (workload : Nat) : (set.provision n label workload).2.names = set.names :=
  set.names_update n _ (CapacitySource.name_provision label workload)

/-- A call is answered by the member itself. -/
theorem canProvision_of_get? (h : set.get? n = some s) (label : Option Label) :
    set.canProvision n label =
      (some (CapacitySource.canProvision label s).1, (set.canProvision n label).2) := by
  rw [canProvision, h]
  rfl

theorem provision_of_get? (h : set.get? n = some s) (label : Option Label) (workload : Nat) :
    set.provision n label workload =
      (some (CapacitySource.provision label workload s).1, (set.provision n label workload).2) := by
  rw [provision, h]
  rfl

/-- The member goes on as its answer has left it. -/
theorem get?_canProvision (h : set.get? n = some s) (label : Option Label) :
    (set.canProvision n label).2.get? n = some (CapacitySource.canProvision label s).2 := by
  rw [canProvision, get?_update, h, Option.map_some, if_pos rfl]

theorem get?_canProvision_of_ne (set : SourceSet σ) (hm : m ≠ n) (label : Option Label) :
    (set.canProvision n label).2.get? m = set.get? m := by
  rw [canProvision, get?_update]
  simp [hm]

theorem get?_provision_of_ne (set : SourceSet σ) (hm : m ≠ n) (label : Option Label)
    (workload : Nat) :
    (set.provision n label workload).2.get? m = set.get? m := by
  rw [provision, get?_update]
  simp [hm]

end Calls

/-! ## Members named by a text -/

theorem name_mem_of_named? {set : SourceSet σ} {text : String} {s : σ}
    (h : set.named? text = some s) : CapacitySource.name s ∈ set.names :=
  List.mem_map_of_mem (List.mem_of_find?_eq_some h)

theorem text_of_named? {set : SourceSet σ} {text : String} {s : σ}
    (h : set.named? text = some s) : (CapacitySource.name s).text = text := by
  rw [named?] at h
  simpa using List.find?_some h

theorem get?_of_named? {set : SourceSet σ} {text : String} {s : σ}
    (h : set.named? text = some s) : set.get? (CapacitySource.name s) = some s :=
  get?_of_mem (List.mem_of_find?_eq_some h)

/-- The members that names name are there under them. -/
theorem named?_of_mem {set : SourceSet σ} {source : SourceName} (h : source ∈ set.names) :
    ∃ s, set.named? source.text = some s ∧ CapacitySource.name s = source := by
  obtain ⟨s, hs, rfl⟩ := List.mem_map.1 h
  cases hn : set.named? (CapacitySource.name s).text with
  | none =>
    have hnot := List.find?_eq_none.1 hn s hs
    exact absurd (beq_self_eq_true _) hnot
  | some s' => exact ⟨s', rfl, SourceName.ext (text_of_named? hn)⟩

end SourceSet

end Fleet
