import Fleet.Proofs.Custody.Flow

/-!
# What single acts do to handles

`Moment.Passage` relates two moments between which handles have only moved on and capacity has
only been added under the next ids.  Each act is one (`step_passage`), given that the moment
before it is `Sound`: the registry keeps handles for nodes on record only, so that neither
registering nor taking out a node drops a handle, and no id is polled twice, so that a result
is taken by one completion.  A passage leads to a sound moment again (`Passage.sound`).
-/

namespace Fleet

namespace Moment

variable {σ ρ : Type} [CapacitySource σ ρ]

/-- Handles are kept for nodes on record, and ids of capacity are distinct and given out. -/
structure Sound (m : Moment σ) : Prop where
  orderly : m.daemon.registry.Orderly
  distinct : (m.watched.map Prod.fst).Nodup
  numbered : ∀ id ∈ m.watched.map Prod.fst, id < m.daemon.loop.nextId

/-- Every removal in the tasks of `m'` has been in those of `m`, or its node is off record. -/
def Unlisted (m m' : Moment σ) : Prop :=
  ∀ s ∈ m'.daemon.tasks, s ∈ m.daemon.tasks ∨ ∀ ticket removal, s.task = .removal ticket removal →
    m'.daemon.registry.store.nodes.contains removal.node.record.id = false

/-- From `m` to `m'` handles have moved on, `arrived` have come to capacity that was polled
before, and `new` has come to be polled. -/
structure Passage (m m' : Moment σ) (new : List (PlannedId × Completion ρ))
    (arrived : Multiset (PlannedId × ρ)) (returned : Multiset ρ) : Prop where
  orderly : m'.daemon.registry.Orderly
  known : ∃ old, m'.watched.Perm (old ++ new) ∧
    (old.map Prod.fst).Subperm (m.watched.map Prod.fst)
  ids : new.map Prod.fst = List.range' m.daemon.loop.nextId new.length
  next : m'.daemon.loop.nextId = m.daemon.loop.nextId + new.length
  flow : Flow m.places m'.places (arrived + handlesOf new) returned
  unlisted : Unlisted m m'

namespace Passage

variable {m m' : Moment σ} {new : List (PlannedId × Completion ρ)}
  {arrived : Multiset (PlannedId × ρ)} {returned : Multiset ρ}

theorem sound (h : m.Sound) (hp : Passage m m' new arrived returned) : m'.Sound := by
  obtain ⟨old, hperm, hold⟩ := hp.known
  have hids : (m'.watched.map Prod.fst).Perm (old.map Prod.fst ++ new.map Prod.fst) := by
    rw [← List.map_append]
    exact hperm.map _
  have hlow : ∀ id ∈ old.map Prod.fst, id < m.daemon.loop.nextId :=
    fun id hid => h.numbered id (hold.subset hid)
  obtain ⟨ids, hp', hsub⟩ := hold
  refine ⟨hp.orderly, ?_, fun id hid => ?_⟩
  · rw [hids.nodup_iff, hp.ids]
    refine List.nodup_append.2 ⟨hp'.nodup_iff.1 (h.distinct.sublist hsub), List.nodup_range', ?_⟩
    rintro id hid id' hid' rfl
    rw [List.mem_range'_1] at hid'
    exact absurd (hlow id hid) (Nat.not_lt.2 hid'.1)
  · rw [hp.next]
    rcases List.mem_append.1 (hids.mem_iff.1 hid) with hid | hid
    · exact Nat.lt_of_lt_of_le (hlow id hid) (Nat.le_add_right _ _)
    · rw [hp.ids, List.mem_range'_1] at hid
      exact hid.2

/-- What is new is what has an id that was not given out before. -/
theorem handlesOf_new (h : m.Sound) (hp : Passage m m' new arrived returned) :
    handlesOf (m'.watched.filter fun c => decide (m.daemon.loop.nextId ≤ c.1)) =
      handlesOf new := by
  obtain ⟨old, hperm, hold⟩ := hp.known
  rw [handlesOf_perm (hperm.filter _), List.filter_append]
  have hnone : old.filter (fun c => decide (m.daemon.loop.nextId ≤ c.1)) = [] := by
    refine List.filter_eq_nil_iff.2 fun c hc => ?_
    have hlow := h.numbered c.1 (hold.subset (List.mem_map_of_mem hc))
    rw [decide_eq_true_eq]
    exact Nat.not_le.2 hlow
  have hall : new.filter (fun c => decide (m.daemon.loop.nextId ≤ c.1)) = new := by
    refine List.filter_eq_self.2 fun c hc => ?_
    have hid : c.1 ∈ new.map Prod.fst := List.mem_map_of_mem hc
    rw [hp.ids, List.mem_range'_1] at hid
    exact decide_eq_true hid.1
  rw [hnone, hall, List.nil_append]

/-- Nothing has moved. -/
theorem quiet (h : m.Sound) (hw : m'.watched.Perm m.watched)
    (hr : m.daemon.registry.Keeps m'.daemon.registry) (ht : m'.daemon.tasks = m.daemon.tasks)
    (hj : m'.daemon.journal.released = m.daemon.journal.released)
    (hn : m'.daemon.loop.nextId = m.daemon.loop.nextId) : Passage m m' [] 0 0 where
  orderly := hr.orderly h.orderly
  known := ⟨m'.watched, by rw [List.append_nil], (hw.map _).subperm⟩
  ids := rfl
  next := hn
  flow := by
    have hplaces : m'.places = m.places := by
      rw [places, places, handlesOf_perm hw, hr.held, ht, hj]
    rw [hplaces]
    exact .refl _
  unlisted := fun _ hs => .inl (ht ▸ hs)

end Passage

end Moment

/-! ## Deliveries -/

section Deliveries

variable {ρ : Type} (id : PlannedId) (result : CompletionResult ρ)

def resolveAt (c : PlannedId × Completion ρ) : PlannedId × Completion ρ :=
  if c.1 = id then (c.1, c.2.resolved result) else c

theorem resolveAt_fst (c : PlannedId × Completion ρ) : (resolveAt id result c).1 = c.1 := by
  unfold resolveAt
  split <;> rfl

theorem Outstanding.watched_resolved (o : Outstanding ρ) :
    (o.resolved id result).watched = resolveAt id result o.watched := by
  unfold resolved resolveAt watched
  split <;> rfl

theorem Abandoned.watched_resolved (a : Abandoned ρ) :
    (a.resolved id result).watched = resolveAt id result a.watched := by
  unfold resolved resolveAt watched
  split <;> rfl

/-- With distinct ids one completion takes the result, or none does. -/
theorem handlesOf_resolveAt {cs : List (PlannedId × Completion ρ)}
    (h : (cs.map Prod.fst).Nodup) :
    handlesOf (cs.map (resolveAt id result)) = handlesOf cs +
      if cs.any (fun c => c.1 == id && c.2.isWaiting) then
        tagged id (Completion.unread result).handle? else 0 := by
  induction cs with
  | nil => rfl
  | cons c cs ih =>
    rw [List.map_cons, List.nodup_cons] at h
    rw [List.map_cons, handlesOf_cons, handlesOf_cons, List.any_cons]
    by_cases hid : c.1 = id
    · have hothers : ∀ c' ∈ cs, c'.1 ≠ id := by
        intro c' hc' he
        exact h.1 (hid ▸ he ▸ List.mem_map_of_mem hc')
      have hsame : cs.map (resolveAt id result) = cs := by
        refine (List.map_congr_left fun c' hc' => ?_).trans (List.map_id _)
        exact if_neg (hothers c' hc')
      have hnone : cs.any (fun c => c.1 == id && c.2.isWaiting) = false := by
        refine List.any_eq_false.2 fun c' hc' => ?_
        simp [hothers c' hc']
      rw [hsame, hnone, Bool.or_false, resolveAt, if_pos hid, hid, beq_self_eq_true,
        Bool.true_and]
      cases hw : c.2.isWaiting with
      | true =>
        have hc : c.2 = .waiting := by
          cases hc : c.2 with
          | waiting => rfl
          | _ => rw [hc] at hw; cases hw
        have htake : c.2.resolved result = .unread result := by rw [hc]; rfl
        rw [htake, hc, if_pos rfl]
        exact (add_comm _ _).trans (congrArg (· + _) (zero_add _).symm)
      | false =>
        rw [Completion.resolved_of_not_waiting result hw, if_neg Bool.false_ne_true, add_zero]
    · have hfalse : (c.1 == id && c.2.isWaiting) = false := by simp [hid]
      rw [ih h.2, hfalse, Bool.false_or, resolveAt, if_neg hid, add_assoc]

end Deliveries

namespace Moment

variable {σ ρ : Type} [CapacitySource σ ρ]

theorem watched_deliver (id : PlannedId) (result : CompletionResult ρ) (m : Moment σ) :
    (m.deliver id result).watched = m.watched.map (resolveAt id result) := by
  have hloop : (m.deliver id result).daemon.loop = (m.daemon.loop.deliver id result).2 := rfl
  have hout (os : List (Outstanding ρ)) :
      (os.map (·.resolved id result)).map Outstanding.watched =
        (os.map Outstanding.watched).map (resolveAt id result) := by
    rw [List.map_map, List.map_map]
    exact List.map_congr_left fun o _ => o.watched_resolved id result
  have hab (as : List (Abandoned ρ)) :
      (as.map (·.resolved id result)).map Abandoned.watched =
        (as.map Abandoned.watched).map (resolveAt id result) := by
    rw [List.map_map, List.map_map]
    exact List.map_congr_left fun a _ => a.watched_resolved id result
  rw [watched, watched, List.map_append, hloop, Provisioner.deliver_eq, Provisioner.watched,
    Provisioner.watched, List.map_append, hout, hab]
  congr 1
  obtain ⟨d, ticking⟩ := m
  cases ticking with
  | none => rfl
  | some t =>
    show (t.ahead.resolved id result).watched = t.ahead.watched.map (resolveAt id result)
    cases t.ahead with
    | inFlight rest => exact hout rest
    | late rest => exact hab rest

theorem deliver_passage {m : Moment σ} (h : m.Sound) (id : PlannedId)
    (result : CompletionResult ρ) :
    Passage m (m.deliver id result) [] (m.accepted id result) 0 where
  orderly := h.orderly
  known := by
    refine ⟨(m.deliver id result).watched, by rw [List.append_nil], ?_⟩
    rw [watched_deliver, List.map_map]
    have hids : Prod.fst ∘ resolveAt id result = Prod.fst (β := Completion ρ) :=
      funext (resolveAt_fst id result)
    rw [hids]
  ids := rfl
  next := by
    show (m.daemon.loop.deliver id result).2.nextId = _
    rw [Provisioner.deliver_eq]
    rfl
  flow := by
    refine .arrive ?_ rfl rfl rfl
    show handlesOf (m.deliver id result).watched = handlesOf m.watched + (_ + 0)
    rw [watched_deliver, handlesOf_resolveAt id result h.distinct, add_zero]
    rfl
  unlisted := fun _ hs => .inl hs

end Moment

end Fleet
