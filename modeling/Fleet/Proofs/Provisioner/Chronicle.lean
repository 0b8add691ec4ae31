import Fleet.Proofs.Provisioner.Run

/-!
# What the events say of one capacity

`marks id` reads off the events what has been said of one planned id.  An entry in flight has
been requested and no more, an abandoned one has also timed out, and of an id that is no
longer polled there is one of a few complete stories (`Mark.ends`).  `Chronicled` is this
statement, and every run keeps it (`Chronicled.run`).
-/

namespace Fleet

/-- What an event may say of a planned capacity. -/
inductive Mark where
  | requested
  | succeeded
  | failed
  | timedOut
  | late
  | duplicate
  deriving DecidableEq

/-- The stories that are at an end.  The first is that of a completion which was spent before
the loop could read it. -/
def Mark.ends : List (List Mark) := [
  [requested], [requested, succeeded], [requested, failed], [requested, duplicate],
  [requested, timedOut], [requested, timedOut, late]]

def Event.mark? : Event → Option (PlannedId × Mark)
  | .provisionRequested _ _ id _ _ => some (id, .requested)
  | .provisionSucceeded _ _ id _ => some (id, .succeeded)
  | .provisionFailed _ _ id _ => some (id, .failed)
  | .provisionTimedOut _ _ id _ => some (id, .timedOut)
  | .lateCompletionDiscarded _ id _ => some (id, .late)
  | .duplicateNodeIgnored _ id _ => some (id, .duplicate)
  | _ => none

theorem Event.isSome_planned? (e : Event) : e.planned?.isSome = e.mark?.isSome := by
  cases e <;> rfl

/-- What the events say of an id, in their order. -/
def marks (id : PlannedId) (es : List Event) : List Mark :=
  es.filterMap fun e => e.mark?.bind fun m => if m.1 = id then some m.2 else none

section Marks

variable (id : PlannedId)

@[simp] theorem marks_append (es es' : List Event) :
    marks id (es ++ es') = marks id es ++ marks id es' := List.filterMap_append

theorem marks_singleton {e : Event} {planned : PlannedId} {mark : Mark}
    (h : e.mark? = some (planned, mark)) :
    marks id [e] = if planned = id then [mark] else [] := by
  rw [marks, List.filterMap_cons, h]
  by_cases hp : planned = id <;> simp [hp]

theorem marks_flatMap {α : Type} (f : α → List Event) (xs : List α) :
    marks id (xs.flatMap f) = xs.flatMap fun x => marks id (f x) := by
  induction xs with
  | nil => rfl
  | cons x xs ih => rw [List.flatMap_cons, List.flatMap_cons, marks_append, ih]

theorem flatMap_ite {α β : Type} (q : α → Prop) [DecidablePred q] (f : α → List β) (xs : List α) :
    (xs.flatMap fun x => if q x then f x else []) = (xs.filter fun x => q x).flatMap f := by
  induction xs with
  | nil => rfl
  | cons x xs ih =>
    rw [List.flatMap_cons, ih]
    by_cases hx : q x <;> simp [hx]

/-- The only member of a list with its key. -/
theorem filter_key_eq_singleton {α : Type} {k : α → PlannedId} {xs : List α}
    (h : (xs.map k).Nodup) {x : α} (hx : x ∈ xs) :
    xs.filter (fun y => k y = k x) = [x] := by
  induction xs with
  | nil => cases hx
  | cons y ys ih =>
    rw [List.map_cons, List.nodup_cons] at h
    rcases List.mem_cons.1 hx with rfl | hx
    · have hnil : ys.filter (fun y => k y = k x) = [] := by
        refine List.filter_eq_nil_iff.2 fun z hz he => h.1 ?_
        rw [← of_decide_eq_true he]
        exact List.mem_map_of_mem hz
      rw [List.filter_cons, if_pos (decide_eq_true rfl), hnil]
    · have hne : k y ≠ k x := fun he => h.1 (he ▸ List.mem_map_of_mem hx)
      rw [List.filter_cons_of_neg (by simpa using hne), ih h.2 hx]

theorem filter_key_eq_nil {α : Type} {k : α → PlannedId} {xs : List α}
    (h : id ∉ xs.map k) : xs.filter (fun y => k y = id) = [] := by
  refine List.filter_eq_nil_iff.2 fun y hy he => h ?_
  rw [← of_decide_eq_true he]
  exact List.mem_map_of_mem hy

/-! ## New entries -/

theorem marks_requested {ρ : Type} (os : List (Outstanding ρ)) :
    marks id (os.map Outstanding.requested) =
      (os.filter (·.planned.id = id)).map fun _ => .requested := by
  induction os with
  | nil => rfl
  | cons o os ih =>
    have ho : marks id [o.requested] = if o.planned.id = id then [.requested] else [] :=
      marks_singleton id rfl
    rw [List.map_cons, ← List.singleton_append, marks_append, ih, List.filter_cons, ho]
    by_cases hid : o.planned.id = id <;> simp [hid]

theorem marks_of_requests {ρ : Type} {es : List Event} {new : List (Outstanding ρ)}
    (h : es.filter (·.planned?.isSome) = new.map Outstanding.requested) :
    marks id es = (new.filter (·.planned.id = id)).map fun _ => .requested := by
  have hfilter : marks id es = marks id (es.filter (·.planned?.isSome)) := by
    rw [marks, marks, List.filterMap_filter]
    refine List.filterMap_congr fun e _ => ?_
    rw [Event.isSome_planned?]
    cases e.mark? <;> rfl
  rw [hfilter, h, marks_requested]

end Marks

/-- Growth says of the new ids that they are requested, and nothing of others. -/
theorem Work.Grows.marks_eq {σ ρ : Type} [CapacitySource σ ρ] {w w' : Work σ}
    {new : List (Outstanding ρ)} {es : List Event} (h : w.Grows w' new es) (id : PlannedId) :
    marks id es =
      if id ∈ List.range' w.loop.nextId new.length then [.requested] else [] := by
  rw [marks_of_requests id h.requests]
  split
  · rename_i hid
    rw [← h.ids, List.mem_map] at hid
    obtain ⟨o, ho, rfl⟩ := hid
    have hnodup : (new.map (·.planned.id)).Nodup := h.ids ▸ List.nodup_range'
    rw [filter_key_eq_singleton hnodup ho]
    rfl
  · rename_i hid
    rw [← h.ids] at hid
    rw [filter_key_eq_nil id hid]
    rfl

/-! ## Looks at what is polled -/

section Looks

variable {ρ : Type}

def Fate.said : Fate ρ → List Mark
  | kept => []
  | lapsed => [.timedOut]
  | registered _ => [.succeeded]
  | duplicate _ _ => [.duplicate]
  | refused _ _ => [.failed]
  | failed _ => [.failed]
  | spent => []

def Abandoned.said (a : Abandoned ρ) : List Mark := a.lateNode?.toList.map fun _ => .late

theorem Fate.marks_events (id : PlannedId) (now : Time) (o : Outstanding ρ) (f : Fate ρ) :
    marks id (f.events now o) = if o.planned.id = id then f.said else [] := by
  cases f with
  | kept => exact (ite_self _).symm
  | spent => exact (ite_self _).symm
  | _ => exact marks_singleton id rfl

theorem Abandoned.marks_events (id : PlannedId) (a : Abandoned ρ) :
    marks id a.events = if a.planned = id then a.said else [] := by
  rw [Abandoned.events, Abandoned.said]
  cases a.lateNode? with
  | none => exact (ite_self _).symm
  | some node => exact marks_singleton id rfl

theorem Abandoned.said_of_waiting {a : Abandoned ρ} (h : a.completion = .waiting) :
    a.said = [] := by
  rw [said, lateNode?, h]
  rfl

end Looks

namespace Provisioner

variable {σ R ρ : Type} [CapacitySource σ ρ] [NodeRegistry R ρ] {p : Provisioner σ}

theorem marks_eventsAt (id : PlannedId) (now : Time) (registry : R) (p : Provisioner σ) :
    marks id (p.eventsAt now registry) =
      ((p.fatesAt now registry).filter (·.1.planned.id = id)).flatMap (·.2.said) ++
        (p.abandoned.filter (·.planned = id)).flatMap Abandoned.said := by
  -- what lapses now still waits, so no late node of it is reported
  have hlapsed : ((p.fatesAt now registry).flatMap fun f => f.2.abandons f.1).flatMap
      (fun a => marks id a.events) = [] := by
    refine List.flatMap_eq_nil_iff.2 fun a ha => ?_
    obtain ⟨⟨o, f⟩, hf, ha⟩ := List.mem_flatMap.1 ha
    have hmeets := (meets_of_mem_fates hf).2
    cases hmeets with
    | lapsed hwaiting _ =>
      cases List.mem_singleton.1 ha
      rw [Abandoned.marks_events, Abandoned.said_of_waiting hwaiting, ite_self]
    | _ => cases ha
  rw [eventsAt, marks_append, marks_flatMap, marks_flatMap, abandonedAt, List.flatMap_append,
    hlapsed, List.append_nil]
  simp only [Fate.marks_events, Abandoned.marks_events, flatMap_ite]

theorem exists_fate (now : Time) (registry : R) {o : Outstanding ρ} (ho : o ∈ p.outstanding) :
    ∃ f, (o, f) ∈ p.fatesAt now registry := by
  rw [← map_fst_fates now p.timeout registry p.outstanding] at ho
  obtain ⟨⟨o', f⟩, hf, rfl⟩ := List.mem_map.1 ho
  exact ⟨f, hf⟩

theorem mem_keptAt {now : Time} {registry : R} {o : Outstanding ρ} :
    o ∈ p.keptAt now registry ↔ (o, .kept) ∈ p.fatesAt now registry := by
  rw [keptAt, List.mem_flatMap]
  constructor
  · rintro ⟨⟨o', f⟩, hf, ho⟩
    cases f with
    | kept => exact List.mem_singleton.1 ho ▸ hf
    | _ => cases ho
  · exact fun h => ⟨_, h, List.mem_singleton_self o⟩

theorem mem_abandonedAt {now : Time} {registry : R} {a : Abandoned ρ} :
    a ∈ p.abandonedAt now registry ↔ a ∈ p.abandoned ∨
      ∃ o, (o, .lapsed) ∈ p.fatesAt now registry ∧
        a = ⟨o.planned.id, o.account.source, o.planned.completion⟩ := by
  rw [abandonedAt, List.mem_append, List.mem_flatMap]
  refine or_congr_right ⟨?_, ?_⟩
  · rintro ⟨⟨o, f⟩, hf, ha⟩
    cases f with
    | lapsed => exact ⟨o, hf, List.mem_singleton.1 ha⟩
    | _ => cases ha
  · rintro ⟨o, hf, rfl⟩
    exact ⟨_, hf, List.mem_singleton_self _⟩

theorem ids_polled_subset (now : Time) (registry : R) (p : Provisioner σ) :
    (p.polled now registry).loop.ids ⊆ p.ids := fun id hid =>
  List.count_pos_iff.1 (Nat.lt_of_lt_of_le (List.count_pos_iff.2 hid)
    (Sound.count_ids_polled now registry p id))

theorem mem_ids_of_outstanding {o : Outstanding ρ} (ho : o ∈ p.outstanding) :
    o.planned.id ∈ p.ids :=
  List.mem_append_left _ (List.mem_map_of_mem ho)

theorem mem_ids_of_abandoned {a : Abandoned ρ} (ha : a ∈ p.abandoned) : a.planned ∈ p.ids :=
  List.mem_append_right _ (List.mem_map_of_mem ha)

theorem map_id_fatesAt (now : Time) (registry : R) (p : Provisioner σ) :
    (p.fatesAt now registry).map (fun f => f.1.planned.id) =
      p.outstanding.map (·.planned.id) := by
  conv_rhs => rw [← map_fst_fates now p.timeout registry p.outstanding, List.map_map]
  rfl

theorem marks_of_absent (now : Time) (registry : R) {id : PlannedId} (hid : id ∉ p.ids) :
    marks id (p.eventsAt now registry) = [] := by
  rw [ids, List.mem_append, not_or] at hid
  rw [marks_eventsAt, filter_key_eq_nil _ hid.2,
    filter_key_eq_nil (k := fun f : Outstanding ρ × Fate ρ => f.1.planned.id) _
      (by rw [map_id_fatesAt]; exact hid.1)]
  rfl

namespace Sound

/-- What a tick says of an entry in flight is what its fate says. -/
theorem marks_of_fate (h : p.Sound) {now : Time} {registry : R} {o : Outstanding ρ} {f : Fate ρ}
    (hf : (o, f) ∈ p.fatesAt now registry) :
    marks o.planned.id (p.eventsAt now registry) = f.said := by
  have hd := List.nodup_append.1 h.distinct
  have hkeys : ((p.fatesAt now registry).map fun f => f.1.planned.id).Nodup := by
    rw [map_id_fatesAt]
    exact hd.1
  have hout : o.planned.id ∉ p.abandoned.map (·.planned) := fun hm =>
    hd.2.2 _ (List.mem_map_of_mem (meets_of_mem_fates hf).1) _ hm rfl
  rw [marks_eventsAt, filter_key_eq_nil _ hout,
    filter_key_eq_singleton (k := fun f : Outstanding ρ × Fate ρ => f.1.planned.id) hkeys hf]
  simp

theorem marks_of_abandoned (h : p.Sound) (now : Time) (registry : R) {a : Abandoned ρ}
    (ha : a ∈ p.abandoned) : marks a.planned (p.eventsAt now registry) = a.said := by
  have hd := List.nodup_append.1 h.distinct
  have hout : a.planned ∉ (p.fatesAt now registry).map fun f => f.1.planned.id := by
    rw [map_id_fatesAt]
    exact fun hm => hd.2.2 _ hm _ (List.mem_map_of_mem ha) rfl
  rw [marks_eventsAt, filter_key_eq_singleton (k := Abandoned.planned) hd.2.1 ha,
    filter_key_eq_nil (k := fun f : Outstanding ρ × Fate ρ => f.1.planned.id) _ hout]
  simp

end Sound

/-! ## The chronicle of a run -/

/-- What the events `es` of a run say of each id, when ids are given out from `first` on. -/
structure Chronicled (first : PlannedId) (p : Provisioner σ) (es : List Event) : Prop where
  first_le : first ≤ p.nextId
  accepted : ∀ id ∈ p.ids, first ≤ id ∧ id < p.nextId
  unknown : ∀ id, ¬ (first ≤ id ∧ id < p.nextId) → marks id es = []
  inFlight : ∀ o ∈ p.outstanding, marks o.planned.id es = [.requested]
  abandoned : ∀ a ∈ p.abandoned, marks a.planned es = [.requested, .timedOut]
  ended : ∀ id, first ≤ id → id < p.nextId → id ∉ p.ids → marks id es ∈ Mark.ends

namespace Chronicled

variable {first : PlannedId} {es : List Event}

omit [NodeRegistry R ρ] in
theorem of_start (sources : SourceSet σ) (guard : Guard) (timeout : Option Duration) :
    Chronicled first (start sources guard timeout first) [] where
  first_le := Nat.le_refl _
  accepted := by simp [ids, start]
  unknown _ _ := rfl
  inFlight := by simp [start]
  abandoned := by simp [start]
  ended id h h' := absurd h (Nat.not_le.2 h')

omit [NodeRegistry R ρ] in
/-- New entries are requested, and nothing is said of others. -/
theorem asked {q : Provisioner σ} {es' : List Event} {new : List (Outstanding ρ)}
    (h : Chronicled first p es) (ho : q.outstanding.Perm (p.outstanding ++ new))
    (ha : q.abandoned.Perm p.abandoned)
    (hids : new.map (·.planned.id) = List.range' p.nextId new.length)
    (hnext : q.nextId = p.nextId + new.length)
    (hmarks : ∀ id, marks id es' = marks id es ++
      if id ∈ List.range' p.nextId new.length then [.requested] else []) :
    Chronicled first q es' := by
  have hpolled (id : PlannedId) :
      id ∈ q.ids ↔ id ∈ List.range' p.nextId new.length ∨ id ∈ p.ids := by
    rw [ids, ids, List.mem_append, (ho.map _).mem_iff, (ha.map _).mem_iff, List.map_append,
      List.mem_append, List.mem_append, hids, or_comm (b := id ∈ List.range' _ _), or_assoc]
  have hold (id : PlannedId) (hid : id ∈ p.ids) : marks id es' = marks id es := by
    rw [hmarks, if_neg, List.append_nil]
    intro hr
    exact absurd (h.accepted id hid).2 (Nat.not_lt.2 (List.mem_range'_1.1 hr).1)
  have hnew (id : PlannedId) (hr : id ∈ List.range' p.nextId new.length) :
      marks id es' = [.requested] := by
    have hu := h.unknown id fun hid => absurd hid.2 (Nat.not_lt.2 (List.mem_range'_1.1 hr).1)
    rw [hmarks, if_pos hr, hu, List.nil_append]
  constructor
  case first_le => exact hnext ▸ Nat.le_add_right_of_le h.first_le
  case accepted =>
    intro id hid
    have hfirst := h.first_le
    rw [hnext]
    rcases (hpolled id).1 hid with hr | hr
    · rw [List.mem_range'_1] at hr
      exact ⟨Nat.le_trans hfirst hr.1, hr.2⟩
    · exact ⟨(h.accepted id hr).1, Nat.lt_add_right _ (h.accepted id hr).2⟩
  case unknown =>
    intro id hid
    rw [hnext] at hid
    have hfirst := h.first_le
    have hr : id ∉ List.range' p.nextId new.length := by
      rw [List.mem_range'_1]
      exact fun hr => hid ⟨Nat.le_trans hfirst hr.1, hr.2⟩
    rw [hmarks, if_neg hr, List.append_nil]
    exact h.unknown id fun hid' => hid ⟨hid'.1, Nat.lt_add_right _ hid'.2⟩
  case inFlight =>
    intro o hmem
    rcases List.mem_append.1 (ho.mem_iff.1 hmem) with hmem | hmem
    · rw [hold _ (mem_ids_of_outstanding hmem), h.inFlight o hmem]
    · exact hnew _ (hids ▸ List.mem_map_of_mem hmem)
  case abandoned =>
    intro a hmem
    have hmem := ha.mem_iff.1 hmem
    rw [hold _ (mem_ids_of_abandoned hmem), h.abandoned a hmem]
  case ended =>
    intro id hid hid' hno
    rw [hpolled, not_or] at hno
    rw [hmarks, if_neg hno.1, List.append_nil]
    refine h.ended id hid ?_ hno.2
    rw [hnext] at hid'
    rw [List.mem_range'_1, not_and, Nat.not_lt] at hno
    by_contra hle
    exact absurd (hno.1 (Nat.not_lt.1 hle)) (Nat.not_le.2 hid')

omit [NodeRegistry R ρ] in
theorem grows {w w' : Work σ} {new : List (Outstanding ρ)} {es' : List Event}
    (h : Chronicled first w.loop es) (hg : w.Grows w' new es') :
    Chronicled first w'.loop (es ++ es') := by
  refine h.asked (.of_eq ?_) (.of_eq ?_) hg.ids ?_ fun id => ?_
  · rw [hg.loop]
  · rw [hg.loop]
  · rw [hg.loop]
  · rw [marks_append, hg.marks_eq]

omit [NodeRegistry R ρ] in
/-- A look at what is polled under `id` may say something of it, and says nothing of others. -/
theorem looked {q : Provisioner σ} {es' : List Event} {id : PlannedId} {said : List Mark}
    (h : Chronicled first p es) (hid : id ∈ p.ids) (hnext : q.nextId = p.nextId)
    (hids : ∀ id', id' ≠ id → (id' ∈ q.ids ↔ id' ∈ p.ids))
    (hout : ∀ o ∈ q.outstanding, o ∈ p.outstanding ∧ (o.planned.id = id → said = []))
    (hab : ∀ a ∈ q.abandoned, a.planned ≠ id ∧ a ∈ p.abandoned ∨
      a.planned = id ∧ marks id es ++ said = [.requested, .timedOut])
    (hends : id ∉ q.ids → marks id es ++ said ∈ Mark.ends)
    (hmarks : ∀ id', marks id' es' = marks id' es ++ if id = id' then said else []) :
    Chronicled first q es' := by
  have hother {id' : PlannedId} (hne : id' ≠ id) : marks id' es' = marks id' es := by
    rw [hmarks, if_neg (Ne.symm hne), List.append_nil]
  have hself : marks id es' = marks id es ++ said := by rw [hmarks, if_pos rfl]
  constructor
  case first_le => exact hnext ▸ h.first_le
  case accepted =>
    intro id' hid'
    rw [hnext]
    by_cases hne : id' = id
    · exact hne ▸ h.accepted id hid
    · exact h.accepted id' ((hids id' hne).1 hid')
  case unknown =>
    intro id' hid'
    rw [hnext] at hid'
    rw [hother, h.unknown id' hid']
    rintro rfl
    exact hid' (h.accepted id' hid)
  case inFlight =>
    intro o ho
    obtain ⟨hmem, hsaid⟩ := hout o ho
    by_cases he : o.planned.id = id
    · rw [he, hself, hsaid he, List.append_nil, ← he]
      exact h.inFlight o hmem
    · rw [hother he]
      exact h.inFlight o hmem
  case abandoned =>
    intro a ha
    rcases hab a ha with ⟨hne, hmem⟩ | ⟨rfl, hsaid⟩
    · rw [hother hne]
      exact h.abandoned a hmem
    · rw [hself, hsaid]
  case ended =>
    intro id' hfirst hlt hno
    by_cases hne : id' = id
    · subst hne
      rw [hself]
      exact hends hno
    · rw [hnext] at hlt
      rw [hother hne]
      exact h.ended id' hfirst hlt fun hmem => hno ((hids id' hne).2 hmem)

omit [NodeRegistry R ρ] in
/-- Of what has timed out nothing more is told than that its node came late. -/
theorem of_timedOut (h : Chronicled first p es) {id : PlannedId}
    (ht : [.requested, .timedOut] <+: marks id es) :
    marks id es ∈ [[.requested, .timedOut], [.requested, .timedOut, .late]] := by
  by_cases hgiven : first ≤ id ∧ id < p.nextId
  · by_cases hid : id ∈ p.ids
    · rcases List.mem_append.1 hid with hid | hid
      · obtain ⟨o, ho, rfl⟩ := List.mem_map.1 hid
        rw [h.inFlight o ho] at ht
        exact absurd ht (by decide)
      · obtain ⟨a, ha, rfl⟩ := List.mem_map.1 hid
        rw [h.abandoned a ha]
        exact List.mem_cons_self
    · have hends := h.ended id hgiven.1 hgiven.2 hid
      generalize marks id es = said at ht hends
      revert ht
      revert said
      decide
  · rw [h.unknown id hgiven] at ht
    exact absurd ht (by decide)

omit [NodeRegistry R ρ] in
/-- Only the marks matter. -/
theorem of_marks {es' : List Event} (h : Chronicled first p es)
    (hmarks : ∀ id, marks id es' = marks id es) : Chronicled first p es' := by
  constructor
  case first_le => exact h.first_le
  case accepted => exact h.accepted
  all_goals simp only [hmarks]
  case unknown => exact h.unknown
  case inFlight => exact h.inFlight
  case abandoned => exact h.abandoned
  case ended => exact h.ended

/-- Only what is polled and the next id matter. -/
theorem of_eq {q : Provisioner σ} (h : Chronicled first p es)
    (ho : q.outstanding.map (·.planned.id) = p.outstanding.map (·.planned.id))
    (ha : q.abandoned.map (·.planned) = p.abandoned.map (·.planned))
    (hn : q.nextId = p.nextId) : Chronicled first q es := by
  have hids : q.ids = p.ids := congrArg₂ (· ++ ·) ho ha
  constructor
  case first_le => exact hn ▸ h.first_le
  case accepted => rw [hids, hn]; exact h.accepted
  case unknown => rw [hn]; exact h.unknown
  case inFlight =>
    intro o hmem
    have hm := List.mem_map_of_mem (f := fun o : Outstanding ρ => o.planned.id) hmem
    rw [ho] at hm
    obtain ⟨o', hmem', he⟩ := List.mem_map.1 hm
    rw [← he]
    exact h.inFlight o' hmem'
  case abandoned =>
    intro a hmem
    have hm := List.mem_map_of_mem (f := Abandoned.planned) hmem
    rw [ha] at hm
    obtain ⟨a', hmem', he⟩ := List.mem_map.1 hm
    rw [← he]
    exact h.abandoned a' hmem'
  case ended => rw [hids, hn]; exact h.ended

theorem polled (h : Chronicled first p es) (hs : p.Sound) (now : Time) (registry : R) :
    Chronicled first (p.polled now registry).loop (es ++ (p.polled now registry).events) := by
  have hnext : (p.polled now registry).loop.nextId = p.nextId := by rw [loop_polled]
  have hmarks (id : PlannedId) : marks id (es ++ (p.polled now registry).events) =
      marks id es ++ marks id (p.eventsAt now registry) := by
    rw [events_polled, marks_append]
    rfl
  constructor
  case first_le => exact hnext ▸ h.first_le
  case accepted =>
    intro id hid
    rw [hnext]
    exact h.accepted id (ids_polled_subset now registry p hid)
  case unknown =>
    intro id hid
    rw [hnext] at hid
    rw [hmarks, h.unknown id hid, marks_of_absent now registry fun hm => hid (h.accepted id hm)]
    rfl
  case inFlight =>
    intro o ho
    rw [loop_polled] at ho
    have hf := mem_keptAt.1 ho
    rw [hmarks, h.inFlight o (meets_of_mem_fates hf).1, hs.marks_of_fate hf]
    rfl
  case abandoned =>
    intro a ha
    rw [loop_polled, List.mem_filter, mem_abandonedAt] at ha
    obtain ⟨ha | ⟨o, hf, rfl⟩, hwaiting⟩ := ha
    · have hw : a.completion = .waiting := Completion.isWaiting_iff.1 hwaiting
      rw [hmarks, h.abandoned a ha, hs.marks_of_abandoned now registry ha,
        Abandoned.said_of_waiting hw]
      rfl
    · rw [hmarks, h.inFlight o (meets_of_mem_fates hf).1, hs.marks_of_fate hf]
      rfl
  case ended =>
    intro id hid hid' hno
    rw [hnext] at hid'
    rw [hmarks]
    by_cases hm : id ∈ p.ids
    · rw [ids, loop_polled, List.mem_append, not_or] at hno
      rcases List.mem_append.1 hm with hm | hm
      · obtain ⟨o, ho, rfl⟩ := List.mem_map.1 hm
        obtain ⟨f, hf⟩ := exists_fate now registry ho
        rw [h.inFlight o ho, hs.marks_of_fate hf]
        cases f with
        | kept => exact absurd (List.mem_map_of_mem (mem_keptAt.2 hf)) hno.1
        | _ => simp [Fate.said, Mark.ends]
      · obtain ⟨a, ha, rfl⟩ := List.mem_map.1 hm
        rw [h.abandoned a ha, hs.marks_of_abandoned now registry ha, Abandoned.said]
        cases a.lateNode? <;> simp [Mark.ends]
    · rw [marks_of_absent now registry hm, List.append_nil]
      exact h.ended id hid hid' hm

theorem tick (h : Chronicled first p es) (hs : p.Sound) (now : Time) (demands : List Demand)
    (registry : R) : Chronicled first (p.tick now demands registry).loop
      (es ++ (p.tick now demands registry).events) := by
  obtain ⟨new, es', hg, -, -⟩ := Round.evaluateAll_asks now demands (p.polled now registry)
  have hall := (h.polled hs now registry).grows hg
  rw [List.append_assoc, ← hg.events] at hall
  -- the end of the tick is about no capacity
  refine hall.of_marks fun id => ?_
  show marks id (es ++ (((p.polled now registry).evaluateAll now demands).events ++ [_])) = _
  rw [← List.append_assoc, marks_append]
  exact List.append_nil _

theorem act (h : Chronicled first p es) (hs : p.Sound) (a : Act σ R) :
    Chronicled first (p.act a).2 (es ++ (p.act a).1) := by
  cases a with
  | tick now demands registry => exact h.tick hs now demands registry
  | provision now actor source label workload =>
    obtain ⟨new, es', hg⟩ := provisionManually_grows now actor source label workload p
    have hgrows := h.grows (w := Work.begin p) hg
    have hevents : (p.provisionManually now actor source label workload).2.events = es' := hg.events
    rw [← hevents] at hgrows
    exact hgrows
  | deliver id result =>
    simp only [Provisioner.act, List.append_nil, deliver_eq]
    exact h.of_eq (map_id_resolved id result p.outstanding)
      (map_planned_resolved id result p.abandoned) rfl
  | addSource s =>
    simp only [Provisioner.act, List.append_nil]
    split
    · exact h.of_eq rfl rfl rfl
    · exact h
  | removeSource name => exact (List.append_nil es).symm ▸ h.of_eq rfl rfl rfl
  | changeSources sources => exact (List.append_nil es).symm ▸ h.of_eq rfl rfl rfl

theorem run (h : Chronicled first p es) (hs : p.Sound) (as : List (Act σ R)) :
    Chronicled first (p.run as).2 (es ++ (p.run as).1) := by
  induction as generalizing p es with
  | nil => exact (List.append_nil es).symm ▸ h
  | cons a as ih =>
    have := ih (h.act hs a) (hs.act a)
    rwa [List.append_assoc] at this

end Chronicled

end Provisioner

end Fleet
