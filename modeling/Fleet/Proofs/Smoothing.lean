import Fleet.Demand
import Fleet.Proofs.SortedMap
import Fleet.Proofs.Text.Bytes
import Mathlib.Data.Nat.Notation

/-!
# Smoothed demand

All that a sample says of a label is its last entry for it (`Demand.latest?`), and all that
smoothing keeps of a label is an average, as long as it is remembered.  Whatever happens to the
table by a sample, at each look-up it is a step of this one average (`Smoothing.get?_sample`,
`Smoothing.get?_smoothed`).  So a label comes out as its own samples do that are smoothed alone
(`Smoothing.latest?_output`), and what the other labels do is not heard
(`Demand.labels_smoothed_apart`).  Nothing is used of the arithmetic of averages.
-/

namespace Fleet

namespace Demand

/-- What a sample says of a label: of several entries for it the last one counts. -/
def latest? (raw : List Demand) (label : Option Label) : Option Nat :=
  (raw.filter (·.label = label)).getLast?.map (·.excess)

theorem get?_ofList (raw : List Demand) (label : Option Label) :
    (SortedMap.ofList (raw.map fun d => (d.label, d.excess))).get? label = latest? raw label := by
  rw [SortedMap.get?_ofList, List.filter_map, List.getLast?_map, Option.map_map]
  rfl

theorem isSome_latest? {raw : List Demand} {label : Option Label} :
    (latest? raw label).isSome = true ↔ ∃ d ∈ raw, d.label = label := by
  rw [latest?, Option.isSome_map, List.getLast?_isSome, ← List.isEmpty_eq_false_iff]
  simp

/-! ## What a board says -/

namespace Board

variable (b : Board)

theorem latest?_sample (label : Option Label) : latest? b.sample label = b.excess.get? label := by
  have hfilter : b.sample.filter (·.label = label) =
      (b.excess.entries.filter (·.1 = label)).map fun e => ⟨e.1, e.2⟩ := List.filter_map
  rw [latest?, hfilter, SortedMap.filter_entries]
  cases b.excess.get? label <;> rfl

theorem mem_sample {d : Demand} : d ∈ b.sample ↔ b.excess.get? d.label = some d.excess := by
  rw [sample, List.mem_map, SortedMap.get?_eq_some_iff]
  constructor
  · rintro ⟨e, he, rfl⟩
    exact he
  · exact fun h => ⟨_, h, rfl⟩

theorem ascending_sample : b.sample.Pairwise fun d e => Label.Precedes d.label e.label :=
  List.Pairwise.map _ (fun _ _ h => Label.precedes_of_compare h) b.excess.ascending

theorem nodup_sample : (b.sample.map (·.label)).Nodup := by
  rw [sample, List.map_map]
  exact b.excess.nodup_keys

end Board

namespace Smoothing

/-! ## One sample -/

/-- The average of one label after a sample; a label that is neither remembered nor in the sample
has none. -/
def average? (decay : Float) (remembered : Option Float) (sample : Option Nat) : Option Float :=
  if remembered.isSome ∨ sample.isSome then
    some (mix decay (remembered.getD 0.0) (sample.getD 0))
  else none

theorem isSome_average? {decay : Float} {remembered : Option Float} {sample : Option Nat} :
    (average? decay remembered sample).isSome = true ↔
      remembered.isSome = true ∨ sample.isSome = true := by
  unfold average?
  split <;> simp_all

variable (s : Smoothing) (raw : List Demand) (label : Option Label)

/-- The averages after a sample, before any is forgotten. -/
def averaged : SortedMap (Option Label) Float :=
  let current : SortedMap (Option Label) Nat := .ofList (raw.map fun d => (d.label, d.excess))
  (current.keys.foldl (fun m label => if m.contains label then m else m.insert label 0.0)
    s.averages).filterMap fun label average =>
      some (mix s.decay average ((current.get? label).getD 0))

theorem get?_foldl_insert (labels : List (Option Label)) (m : SortedMap (Option Label) Float) :
    (labels.foldl (fun m k => if m.contains k then m else m.insert k 0.0) m).get? label =
      (m.get? label).or (if label ∈ labels then some 0.0 else none) := by
  induction labels generalizing m with
  | nil => simp
  | cons k labels ih =>
    rw [List.foldl_cons, ih]
    by_cases hk : label = k
    · subst hk
      cases hm : m.get? label with
      | none => simp [SortedMap.contains, hm, SortedMap.get?_insert]
      | some _ => simp [SortedMap.contains, hm]
    · have hget : (if m.contains k then m else m.insert k 0.0).get? label = m.get? label := by
        split
        · rfl
        · rw [SortedMap.get?_insert, if_neg hk]
      rw [hget]
      simp [hk]

theorem get?_averaged :
    (s.averaged raw).get? label =
      average? s.decay (s.averages.get? label) (latest? raw label) := by
  rw [averaged, SortedMap.get?_filterMap, get?_foldl_insert, get?_ofList, average?]
  simp only [SortedMap.mem_keys, SortedMap.contains, get?_ofList]
  cases s.averages.get? label <;> cases latest? raw label <;> simp

theorem get?_sample :
    (s.sample raw).2.averages.get? label =
      (average? s.decay (s.averages.get? label) (latest? raw label)).filter isRemembered := by
  have hkept : (s.sample raw).2.averages.get? label =
      ((s.averaged raw).get? label).bind fun a => if isRemembered a then some a else none :=
    SortedMap.get?_filterMap _ (s.averaged raw) label
  rw [hkept, get?_averaged]
  cases average? s.decay (s.averages.get? label) (latest? raw label) with
  | none => rfl
  | some a => rw [Option.bind_some, Option.filter_some]

/-- The averages after a sample in whole executors. -/
def smoothed : Board :=
  ⟨(s.averaged raw).filterMap fun _ a =>
    if 0 < wholeExcess a then some (wholeExcess a) else none⟩

theorem sample_fst : (s.sample raw).1 = (s.smoothed raw).sample := by
  rw [smoothed, Board.sample, SortedMap.filterMap, List.map_filterMap]
  refine List.filterMap_congr fun e _ => ?_
  split <;> rfl

theorem get?_smoothed :
    (s.smoothed raw).excess.get? label =
      ((average? s.decay (s.averages.get? label) (latest? raw label)).map wholeExcess).filter
        (0 < ·) := by
  rw [smoothed, SortedMap.get?_filterMap, get?_averaged]
  cases average? s.decay (s.averages.get? label) (latest? raw label) with
  | none => rfl
  | some a => simp only [Option.bind_some, Option.map_some, Option.filter_some, decide_eq_true_eq]

/-! ## One sample after the other -/

/-- The smoothing when sample `n` of a history is taken. -/
def before (s : Smoothing) (history : ℕ → List Demand) : ℕ → Smoothing
  | 0 => s
  | n + 1 => ((before s history n).sample (history n)).2

def output (history : ℕ → List Demand) (n : ℕ) : List Demand :=
  ((s.before history n).sample (history n)).1

/-- What is remembered of one label when sample `n` is taken, by the samples of it alone. -/
def remembered? (decay : Float) (own : ℕ → Option Nat) : ℕ → Option Float
  | 0 => none
  | n + 1 => (average? decay (remembered? decay own n) (own n)).filter isRemembered

/-- What one label comes to at sample `n`, by the samples of it alone. -/
def excess? (decay : Float) (own : ℕ → Option Nat) (n : ℕ) : Option Nat :=
  ((average? decay (remembered? decay own n) (own n)).map wholeExcess).filter (0 < ·)

variable (decay : Float) (history : ℕ → List Demand) (n : ℕ)

theorem decay_before : (s.before history n).decay = s.decay := by
  induction n with
  | zero => rfl
  | succ n ih => exact ih

theorem get?_before :
    ((start decay).before history n).averages.get? label =
      remembered? (start decay).decay (fun i => latest? (history i) label) n := by
  induction n with
  | zero => rfl
  | succ n ih =>
    rw [before, get?_sample, decay_before, ih]
    rfl

theorem get?_smoothed_before :
    (((start decay).before history n).smoothed (history n)).excess.get? label =
      excess? (start decay).decay (fun i => latest? (history i) label) n := by
  rw [get?_smoothed, decay_before, get?_before]
  rfl

theorem latest?_output :
    latest? ((start decay).output history n) label =
      excess? (start decay).decay (fun i => latest? (history i) label) n := by
  rw [output, sample_fst, Board.latest?_sample, get?_smoothed_before]

theorem mem_output {d : Demand} :
    d ∈ (start decay).output history n ↔
      excess? (start decay).decay (fun i => latest? (history i) d.label) n = some d.excess := by
  rw [output, sample_fst, Board.mem_sample, get?_smoothed_before]

/-! ## One label -/

variable {decay n} {own own' : ℕ → Option Nat}

theorem remembered?_congr (h : ∀ i < n, own i = own' i) :
    remembered? decay own n = remembered? decay own' n := by
  induction n with
  | zero => rfl
  | succ n ih =>
    rw [remembered?, remembered?, ih fun i hi => h i (Nat.lt_succ_of_lt hi), h n n.lt_succ_self]

theorem excess?_congr (h : ∀ i ≤ n, own i = own' i) :
    excess? decay own n = excess? decay own' n := by
  rw [excess?, excess?, remembered?_congr fun i hi => h i (Nat.le_of_lt hi), h n (Nat.le_refl n)]

/-- A label that has an average was in a sample and has been remembered ever since. -/
theorem exists_sample (h : (average? decay (remembered? decay own n) (own n)).isSome = true) :
    ∃ i ≤ n, (own i).isSome = true ∧
      ∀ j, i < j → j ≤ n → (remembered? decay own j).isSome = true := by
  -- it is in this very sample, or it is remembered and the sample is an earlier one
  have hnow {m : ℕ} : ∀ j, m < j → j ≤ m → (remembered? decay own j).isSome = true :=
    fun j hj hjm => absurd hj (Nat.not_lt.2 hjm)
  induction n with
  | zero =>
    rcases isSome_average?.1 h with hremembered | hown
    · cases hremembered
    · exact ⟨0, Nat.le_refl 0, hown, hnow⟩
  | succ n ih =>
    rcases isSome_average?.1 h with hremembered | hown
    · obtain ⟨i, hi, hown, hsince⟩ := ih (Option.isSome_of_isSome_filter _ _ hremembered)
      refine ⟨i, Nat.le_succ_of_le hi, hown, fun j hij hj => ?_⟩
      rcases Nat.lt_or_eq_of_le hj with hj | rfl
      · exact hsince j hij (Nat.le_of_lt_succ hj)
      · exact hremembered
    · exact ⟨n + 1, Nat.le_refl _, hown, hnow⟩

theorem excess?_eq_some {k : Nat} (h : excess? decay own n = some k) :
    0 < k ∧ (average? decay (remembered? decay own n) (own n)).isSome = true := by
  obtain ⟨hmap, hpos⟩ := Option.filter_eq_some_iff.1 h
  obtain ⟨a, ha, -⟩ := Option.map_eq_some_iff.1 hmap
  exact ⟨of_decide_eq_true hpos, ha ▸ rfl⟩

end Smoothing

open Smoothing

/-- Each label is smoothed by itself: what comes out of it is what its own samples come to, so
histories that agree on it do so whatever else is in them.  An output lists labels in order, each
at most once, with an excess, and none that has not been in a sample and remembered since. -/
theorem labels_smoothed_apart (decay : Float) :
    (∀ (label : Option Label) (history : ℕ → List Demand) (n : ℕ),
      latest? ((start decay).output history n) label =
        excess? (start decay).decay (fun i => latest? (history i) label) n) ∧
    (∀ (label : Option Label) (history history' : ℕ → List Demand) (n : ℕ),
      (∀ i ≤ n, latest? (history i) label = latest? (history' i) label) →
        latest? ((start decay).output history n) label =
          latest? ((start decay).output history' n) label) ∧
    ∀ (history : ℕ → List Demand) (n : ℕ),
      let out := (start decay).output history n
      out.Pairwise (fun d e => Label.Precedes d.label e.label) ∧
        (out.map (·.label)).Nodup ∧
        ∀ d ∈ out, 1 ≤ d.excess ∧
          ∃ i ≤ n, (∃ e ∈ history i, e.label = d.label) ∧
            ∀ j, i < j → j ≤ n →
              ((start decay).before history j).averages.contains d.label = true := by
  refine ⟨fun label history n => latest?_output label decay history n, ?_, ?_⟩
  · intro label history history' n hagree
    rw [latest?_output, latest?_output]
    exact excess?_congr hagree
  · intro history n out
    have hout : out = (((start decay).before history n).smoothed (history n)).sample :=
      sample_fst _ _
    refine ⟨hout ▸ Board.ascending_sample _, hout ▸ Board.nodup_sample _, fun d hd => ?_⟩
    obtain ⟨hpos, haverage⟩ := excess?_eq_some ((mem_output decay history n).1 hd)
    obtain ⟨i, hi, hsample, hsince⟩ := exists_sample haverage
    refine ⟨hpos, i, hi, isSome_latest?.1 hsample, fun j hij hj => ?_⟩
    rw [SortedMap.contains, get?_before]
    exact hsince j hij hj

/-! ## A spike by itself and amid other demand -/

namespace Spike

def alone : ℕ → List Demand
  | 0 => [⟨none, 10⟩]
  | _ + 1 => []

def gpu : Option Label := some ⟨"gpu", by decide⟩

/-- Of the two entries at the start the last one counts; another label comes and goes. -/
def amid : ℕ → List Demand
  | 0 => [⟨none, 4⟩, ⟨gpu, 3⟩, ⟨none, 10⟩]
  | n + 1 => if n % 2 = 0 then [] else [⟨gpu, n⟩]

theorem agree (i : ℕ) : latest? (alone i) none = latest? (amid i) none := by
  cases i with
  | zero => decide
  | succ i =>
    rw [alone, amid]
    split <;> rfl

end Spike

theorem labels_smoothed_apart_spike :
    (∀ i ≤ 6, latest? (Spike.alone i) none = latest? (Spike.amid i) none) ∧
      latest? (Spike.alone 6) Spike.gpu ≠ latest? (Spike.amid 6) Spike.gpu ∧
      latest? ((start 0.9).output Spike.alone 6) none =
        latest? ((start 0.9).output Spike.amid 6) none :=
  ⟨fun i _ => Spike.agree i, by decide,
    (labels_smoothed_apart 0.9).2.1 none Spike.alone Spike.amid 6 fun i _ => Spike.agree i⟩

end Demand

end Fleet
