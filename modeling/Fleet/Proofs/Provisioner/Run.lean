import Fleet.Proofs.Provisioner.Fate
import Fleet.Proofs.Provisioner.Growth

/-!
# Runs of a provisioner

An `Act` is anything that may happen to a provisioner from outside: a tick at any time, with
any demand and on a registry in any state, provisioning by hand, the end of a creation, and
any change of the sources.  `Provisioner.run` performs acts in turn and collects the events.

`Provisioner.Sound` is what every run keeps (`Sound.run`): the ledger tracks exactly the
capacity in flight, and no id stands for two capacities.
-/

namespace Fleet

/-! ## Acts -/

/-- What may happen to a provisioner; that a creation is dropped is `deliver` with the result
`abandoned`. -/
inductive Provisioner.Act (σ R : Type) {ρ : Type} [CapacitySource σ ρ] where
  | tick (now : Time) (demands : List Demand) (registry : R)
  | provision (now : Time) (actor : Actor) (source : String) (label : Option Label)
      (workload : Nat)
  | deliver (id : PlannedId) (result : CompletionResult ρ)
  | addSource (s : σ)
  | removeSource (name : String)
  /-- The sources change by themselves. -/
  | changeSources (sources : SourceSet σ)

namespace Provisioner

variable {σ R ρ : Type} [CapacitySource σ ρ] [NodeRegistry R ρ]

/-- One act: its events and the provisioner after it. -/
def act (p : Provisioner σ) : Act σ R → List Event × Provisioner σ
  | .tick now demands registry =>
    ((p.tick now demands registry).events, (p.tick now demands registry).loop)
  | .provision now actor source label workload =>
    ((p.provisionManually now actor source label workload).2.events,
      (p.provisionManually now actor source label workload).2.loop)
  | .deliver id result => ([], (p.deliver id result).2)
  | .addSource s =>
    ([], match p.sources.insert s with
      | .ok sources => { p with sources }
      | .error _ => p)
  | .removeSource name => ([], { p with sources := p.sources.remove name })
  | .changeSources sources => ([], { p with sources })

def run (p : Provisioner σ) : List (Act σ R) → List Event × Provisioner σ
  | [] => ([], p)
  | a :: as => ((p.act a).1 ++ ((p.act a).2.run as).1, ((p.act a).2.run as).2)

end Provisioner

/-! ## Deliveries -/

section Deliveries

variable {ρ : Type} (id : PlannedId) (result : CompletionResult ρ)

/-- A completion takes a result only while it waits. -/
def Completion.resolved (c : Completion ρ) : Completion ρ := (c.deliver? result).getD c

theorem Completion.isWaiting_iff {c : Completion ρ} : c.isWaiting = true ↔ c = .waiting := by
  cases c <;> simp [isWaiting]

theorem Completion.resolved_of_not_waiting {c : Completion ρ} (h : c.isWaiting = false) :
    c.resolved result = c := by
  cases c with
  | waiting => cases h
  | _ => rfl

def Outstanding.resolved (o : Outstanding ρ) : Outstanding ρ :=
  if o.planned.id = id then
    { o with planned := { o.planned with completion := o.planned.completion.resolved result } }
  else o

def Abandoned.resolved (a : Abandoned ρ) : Abandoned ρ :=
  if a.planned = id then { a with completion := a.completion.resolved result } else a

@[simp] theorem Outstanding.promise_resolved (o : Outstanding ρ) :
    (o.resolved id result).promise = o.promise := by
  unfold resolved
  split <;> rfl

@[simp] theorem Outstanding.id_resolved (o : Outstanding ρ) :
    (o.resolved id result).planned.id = o.planned.id := by
  unfold resolved
  split <;> rfl

@[simp] theorem Abandoned.planned_resolved (a : Abandoned ρ) :
    (a.resolved id result).planned = a.planned := by
  unfold resolved
  split <;> rfl

theorem map_id_resolved (os : List (Outstanding ρ)) :
    (os.map (·.resolved id result)).map (·.planned.id) = os.map (·.planned.id) := by
  rw [List.map_map]
  exact List.map_congr_left fun o _ => o.id_resolved id result

theorem map_planned_resolved (as : List (Abandoned ρ)) :
    (as.map (·.resolved id result)).map (·.planned) = as.map (·.planned) := by
  rw [List.map_map]
  exact List.map_congr_left fun a _ => a.planned_resolved id result

theorem Outstanding.resolved_of_not_waiting (o : Outstanding ρ)
    (h : o.planned.completion.isWaiting = false) : o.resolved id result = o := by
  unfold resolved
  rw [Completion.resolved_of_not_waiting result h]
  exact ite_self o

theorem Abandoned.resolved_of_not_waiting (a : Abandoned ρ)
    (h : a.completion.isWaiting = false) : a.resolved id result = a := by
  unfold resolved
  rw [Completion.resolved_of_not_waiting result h]
  exact ite_self a

/-- A result changes the entries that wait for it and nothing else. -/
theorem Provisioner.deliver_eq {σ : Type} [CapacitySource σ ρ] (p : Provisioner σ) :
    (p.deliver id result).2 = { p with
      outstanding := p.outstanding.map (·.resolved id result)
      abandoned := p.abandoned.map (·.resolved id result) } := by
  unfold deliver
  split
  · rfl
  · rename_i h
    rw [awaits, Bool.not_eq_true, Bool.or_eq_false_iff, List.any_eq_false, List.any_eq_false] at h
    have hout : p.outstanding.map (·.resolved id result) = p.outstanding := by
      refine (List.map_congr_left fun o ho => ?_).trans (List.map_id _)
      by_cases hid : o.planned.id = id
      · exact o.resolved_of_not_waiting id result (by simpa [hid] using h.1 o ho)
      · exact if_neg hid
    have hab : p.abandoned.map (·.resolved id result) = p.abandoned := by
      refine (List.map_congr_left fun a ha => ?_).trans (List.map_id _)
      by_cases hid : a.planned = id
      · exact a.resolved_of_not_waiting id result (by simpa [hid] using h.2 a ha)
      · exact if_neg hid
    rw [hout, hab]

end Deliveries

/-! ## What runs keep -/

/-- The ledger holds the promises of these entries and no others. -/
structure Ledger.Tracks {ρ : Type} (l : Ledger) (os : List (Outstanding ρ)) : Prop where
  coherent : l.Coherent
  flat : l.flat.Perm (os.map Outstanding.promise)

namespace Ledger.Tracks

variable {ρ : Type} {l : Ledger} {os : List (Outstanding ρ)}

theorem perm {os' : List (Outstanding ρ)} (h : l.Tracks os) (hp : os.Perm os') : l.Tracks os' :=
  ⟨h.coherent, h.flat.trans (hp.map _)⟩

theorem contains_iff (h : l.Tracks os) {id : PlannedId} :
    l.contains id = true ↔ ∃ o ∈ os, o.planned.id = id := by
  rw [h.coherent.contains_iff]
  constructor
  · rintro ⟨p, hp, rfl⟩
    obtain ⟨o, ho, rfl⟩ := List.mem_map.1 (h.flat.mem_iff.1 hp)
    exact ⟨o, ho, rfl⟩
  · rintro ⟨o, ho, rfl⟩
    exact ⟨o.promise, h.flat.mem_iff.2 (List.mem_map_of_mem ho), rfl⟩

theorem record (h : l.Tracks os) {o : Outstanding ρ}
    (hn : ∀ o' ∈ os, o'.planned.id ≠ o.planned.id) :
    (l.record o.account o.planned.id o.planned.promised).Tracks (os ++ [o]) := by
  have hid : l.contains o.planned.id = false := by
    rw [← Bool.not_eq_true, h.contains_iff]
    rintro ⟨o', ho', he⟩
    exact hn o' ho' he
  refine ⟨h.coherent.record hid _ _, (h.coherent.flat_record hid _ _).trans ?_⟩
  rw [List.map_append]
  exact (h.flat.cons o.promise).trans (List.perm_append_singleton _ _).symm

theorem recordAll (h : l.Tracks os) {new : List (Outstanding ρ)}
    (hn : ((os ++ new).map (·.planned.id)).Nodup) : (l.recordAll new).Tracks (os ++ new) := by
  induction new generalizing l os with
  | nil => simpa [Ledger.recordAll] using h
  | cons o new ih =>
    rw [List.append_cons] at hn ⊢
    refine ih (h.record fun o' ho' he => ?_) hn
    rw [List.map_append, List.map_append, List.append_assoc] at hn
    exact (List.nodup_append.1 hn).2.2 _ (List.mem_map_of_mem ho') o.planned.id (by simp) he

theorem resolve {o : Outstanding ρ} (h : l.Tracks (o :: os)) :
    (l.resolve o.planned.id).2.Tracks os := by
  refine ⟨h.coherent.resolve _, (h.coherent.flat_resolve _).trans ?_⟩
  have hids : ((o :: os).map (·.planned.id)).Nodup := by
    have := (h.flat.map (·.id)).nodup_iff.1 h.coherent.nodup_ids
    rwa [List.map_map] at this
  rw [List.map_cons, List.nodup_cons] at hids
  refine (h.flat.filter _).trans ?_
  rw [List.map_cons, List.filter_cons_of_neg (by simp [Outstanding.promise]),
    List.filter_eq_self.2 fun p hp => ?_]
  obtain ⟨o', ho', rfl⟩ := List.mem_map.1 hp
  refine decide_eq_true fun he => hids.1 ?_
  rw [← show o'.planned.id = o.planned.id from he]
  exact List.mem_map_of_mem ho'

/-- Entries that meet their fates keep their promises exactly if they stay. -/
theorem clearAll {fs : List (Outstanding ρ × Fate ρ)} (h : l.Tracks (os ++ fs.map Prod.fst)) :
    (fs.foldl (fun l f => f.2.clear f.1 l) l).Tracks (os ++ fs.flatMap fun f => f.2.keeps f.1) := by
  induction fs generalizing l os with
  | nil => simpa using h
  | cons f fs ih =>
    obtain ⟨o, f⟩ := f
    rw [List.map_cons] at h
    have left : (l.resolve o.planned.id).2.Tracks (os ++ fs.map Prod.fst) :=
      (h.perm List.perm_middle).resolve
    cases f with
    | kept =>
      have := @ih l (os ++ [o]) (by simpa using h)
      simpa using this
    | _ => exact ih left

end Ledger.Tracks

namespace Provisioner

variable {σ R ρ : Type} [CapacitySource σ ρ]

/-- The ids of all capacity that is polled. -/
def ids (p : Provisioner σ) : List PlannedId :=
  p.outstanding.map (·.planned.id) ++ p.abandoned.map (·.planned)

/-- The ledger tracks the capacity in flight, and ids are distinct and given out. -/
structure Sound (p : Provisioner σ) : Prop where
  tracks : p.ledger.Tracks p.outstanding
  distinct : p.ids.Nodup
  numbered : ∀ id ∈ p.ids, id < p.nextId

theorem sound_start (sources : SourceSet σ) (guard : Guard) (timeout : Option Duration)
    (nextId : PlannedId) : (start sources guard timeout nextId).Sound where
  tracks := ⟨Ledger.coherent_empty, by simp [start, Ledger.flat, Ledger.empty, SortedMap.empty]⟩
  distinct := by simp [ids, start]
  numbered := by simp [ids, start]

namespace Sound

variable {p : Provisioner σ}

/-- Only what a provisioner polls and promises matters. -/
theorem of_eq {q : Provisioner σ} (h : p.Sound) (hl : q.ledger = p.ledger)
    (ho : q.outstanding.map Outstanding.promise = p.outstanding.map Outstanding.promise)
    (ha : q.abandoned.map (·.planned) = p.abandoned.map (·.planned))
    (hn : q.nextId = p.nextId) : q.Sound := by
  have hids : q.ids = p.ids := by
    have := congrArg (List.map (·.id)) ho
    rw [List.map_map, List.map_map] at this
    exact congrArg₂ (· ++ ·) this ha
  exact {
    tracks := ⟨hl ▸ h.tracks.coherent, by rw [hl, ho]; exact h.tracks.flat⟩
    distinct := hids ▸ h.distinct
    numbered := by rw [hids, hn]; exact h.numbered }

theorem perm_ids {w w' : Work σ} {new : List (Outstanding ρ)} {es : List Event}
    (hg : w.Grows w' new es) :
    w'.loop.ids.Perm (List.range' w.loop.nextId new.length ++ w.loop.ids) := by
  rw [hg.loop, ids, ids, List.map_append, hg.ids, List.append_assoc]
  exact List.perm_append_comm_assoc _ _ _

theorem grows {w w' : Work σ} {new : List (Outstanding ρ)} {es : List Event}
    (h : w.loop.Sound) (hg : w.Grows w' new es) : w'.loop.Sound := by
  have hids := perm_ids hg
  have hold : ∀ id ∈ w.loop.ids, id ∉ List.range' w.loop.nextId new.length := by
    intro id hid hr
    rw [List.mem_range'_1] at hr
    exact absurd (h.numbered id hid) (Nat.not_lt.2 hr.1)
  have hdistinct : w'.loop.ids.Nodup := by
    refine hids.nodup_iff.2 (List.nodup_append.2 ⟨List.nodup_range', h.distinct, ?_⟩)
    rintro a ha b hb rfl
    exact hold a hb ha
  constructor
  · rw [hg.loop]
    refine h.tracks.recordAll ?_
    rw [ids, hg.loop] at hdistinct
    exact (List.nodup_append.1 hdistinct).1
  · exact hdistinct
  · intro id hid
    rw [hg.loop]
    rcases List.mem_append.1 (hids.mem_iff.1 hid) with hr | hr
    · rw [List.mem_range'_1] at hr
      exact hr.2
    · exact Nat.lt_of_lt_of_le (h.numbered id hr) (Nat.le_add_right _ _)

/-! ## Ticks -/

variable [NodeRegistry R ρ]

theorem count_ids_fates (id : PlannedId) (fs : List (Outstanding ρ × Fate ρ)) :
    ((fs.flatMap fun f => f.2.keeps f.1).map (·.planned.id)).count id +
      ((fs.flatMap fun f => f.2.abandons f.1).map (·.planned)).count id ≤
        ((fs.map Prod.fst).map (·.planned.id)).count id := by
  induction fs with
  | nil => simp
  | cons f fs ih =>
    obtain ⟨o, f⟩ := f
    have hone : ((f.keeps o).map (·.planned.id)).count id +
        ((f.abandons o).map (·.planned)).count id ≤ [o.planned.id].count id := by
      cases f <;> simp [Fate.keeps, Fate.abandons]
    have hcons : ((((o, f) :: fs).map Prod.fst).map (·.planned.id)).count id =
        [o.planned.id].count id + ((fs.map Prod.fst).map (·.planned.id)).count id := by
      rw [List.map_cons, List.map_cons, ← List.singleton_append, List.count_append]
    rw [hcons]
    simp only [List.flatMap_cons, List.map_append, List.count_append]
    omega

/-- Looking at capacity gives no id a second time. -/
theorem count_ids_polled (now : Time) (registry : R) (p : Provisioner σ) (id : PlannedId) :
    (p.polled now registry).loop.ids.count id ≤ p.ids.count id := by
  have hf := count_ids_fates id (p.fatesAt now registry)
  have ha := ((List.filter_sublist (p := fun a : Abandoned ρ => a.completion.isWaiting)
    (l := p.abandonedAt now registry)).map (·.planned)).count_le id
  rw [fatesAt, map_fst_fates, ← fatesAt] at hf
  rw [abandonedAt, List.map_append, List.count_append, ← abandonedAt] at ha
  rw [loop_polled, ids, ids, List.count_append, List.count_append]
  simp only [keptAt]
  omega

theorem polled (h : p.Sound) (now : Time) (registry : R) : (p.polled now registry).loop.Sound := by
  constructor
  · rw [loop_polled]
    have ht : p.ledger.Tracks ([] ++ (p.fatesAt now registry).map Prod.fst) := by
      rw [fatesAt, map_fst_fates]
      exact h.tracks
    exact ht.clearAll
  · refine List.nodup_iff_count_le_one.2 fun id => ?_
    exact Nat.le_trans (count_ids_polled now registry p id)
      (List.nodup_iff_count_le_one.1 h.distinct id)
  · intro id hid
    rw [loop_polled]
    refine h.numbered id (List.count_pos_iff.1 ?_)
    exact Nat.lt_of_lt_of_le (List.count_pos_iff.2 hid) (count_ids_polled now registry p id)

omit [NodeRegistry R ρ] in
theorem evaluateAll {r : Round σ R} (h : r.loop.Sound) (now : Time) (demands : List Demand) :
    (r.evaluateAll now demands).loop.Sound := by
  obtain ⟨_, _, hg, _, _⟩ := Round.evaluateAll_asks now demands r
  exact grows h hg

theorem tick (h : p.Sound) (now : Time) (demands : List Demand) (registry : R) :
    (p.tick now demands registry).loop.Sound :=
  (h.polled now registry).evaluateAll now demands

theorem deliver (h : p.Sound) (id : PlannedId) (result : CompletionResult ρ) :
    (p.deliver id result).2.Sound := by
  rw [deliver_eq]
  refine h.of_eq rfl ?_ ?_ rfl
  · rw [List.map_map]
    exact List.map_congr_left fun o _ => o.promise_resolved id result
  · exact map_planned_resolved id result p.abandoned

theorem act (h : p.Sound) (a : Act σ R) : (p.act a).2.Sound := by
  cases a with
  | tick now demands registry => exact h.tick now demands registry
  | provision now actor source label workload =>
    obtain ⟨_, _, hg⟩ := provisionManually_grows now actor source label workload p
    exact grows (w := Work.begin p) h hg
  | deliver id result => exact h.deliver id result
  | addSource s =>
    simp only [Provisioner.act]
    split
    · exact h.of_eq rfl rfl rfl rfl
    · exact h
  | removeSource name => exact h.of_eq rfl rfl rfl rfl
  | changeSources sources => exact h.of_eq rfl rfl rfl rfl

theorem run (h : p.Sound) (as : List (Act σ R)) : (p.run as).2.Sound := by
  induction as generalizing p with
  | nil => exact h
  | cons a as ih => exact ih (h.act a)

end Sound

end Provisioner

end Fleet
