import Fleet.Proofs.Provisioner.Chronicle

/-!
# The life of planned capacity

An entry stays in flight until a tick finds its completion read or ready, or its time up;
what is ready is read first, so a result that is there always wins over the timeout.
`Outstanding.Faces` says what one act makes of an entry in flight, and
`Abandoned.Afterlife` what becomes of one that has timed out.  Together with `Chronicled` they
follow every id from its request to its end (`life_of_planned`).
-/

namespace Fleet

open Provisioner

section Statements

variable {σ R ρ : Type} [CapacitySource σ ρ] [NodeRegistry R ρ]

/-- The age has reached the timeout, if there is one. -/
def Planned.IsLate (p : Planned ρ) (timeout : Option Duration) (now : Time) : Prop :=
  ∃ limit, timeout = some limit ∧ limit.millis ≤ (p.age now).millis

/-- What a tick makes of an entry in flight. -/
structure Outstanding.AtTick (p : Provisioner σ) (now : Time) (demands : List Demand)
    (registry : R) (o : Outstanding ρ) : Prop where
  stays_iff : o.planned.id ∈ (p.tick now demands registry).loop.outstanding.map (·.planned.id) ↔
    o.planned.completion = .waiting ∧ ¬ o.planned.IsLate p.timeout now
  timedOut_iff : marks o.planned.id (p.tick now demands registry).events = [.timedOut] ↔
    o.planned.completion = .waiting ∧ o.planned.IsLate p.timeout now
  early : o.planned.completion = .waiting → ¬ o.planned.IsLate p.timeout now →
    marks o.planned.id (p.tick now demands registry).events = []
  /-- A node is reported by what the registry says of it, however late it is. -/
  ready : ∀ node, o.planned.completion = .unread (.ok node) →
    marks o.planned.id (p.tick now demands registry).events ∈
      [[.succeeded], [.duplicate], [.failed]]
  failed : ∀ e, o.planned.completion = .unread (.error e) →
    marks o.planned.id (p.tick now demands registry).events = [.failed]
  spent : o.planned.completion = .spent →
    marks o.planned.id (p.tick now demands registry).events = []
  abandoned : o.planned.completion = .waiting → o.planned.IsLate p.timeout now →
    ⟨o.planned.id, o.account.source, .waiting⟩ ∈ (p.tick now demands registry).loop.abandoned

/-- What an act makes of an entry in flight; between ticks it stays and nothing is said. -/
def Outstanding.Faces (p : Provisioner σ) (o : Outstanding ρ) : Act σ R → Prop
  | .tick now demands registry => o.AtTick p now demands registry
  | a => o.planned.id ∈ (p.act a).2.outstanding.map (·.planned.id) ∧
      marks o.planned.id (p.act a).1 = []

def Provisioner.Act.isTick : Act σ R → Bool
  | .tick _ _ _ => true
  | _ => false

/-- The node that an entry hands to the registry at the next tick. -/
def Outstanding.arrived? (o : Outstanding ρ) : Option (RealizedNode ρ) :=
  match o.planned.completion with
  | .unread (.ok node) => some node
  | _ => none

/-- What becomes of an abandoned entry in a run that goes on with `more`. -/
structure Abandoned.Afterlife (p : Provisioner σ) (more : List (Act σ R)) (a : Abandoned ρ) :
    Prop where
  /-- Only the nodes of entries in flight reach a registry, and it is none of those. -/
  gone : a.planned ∉ (p.run more).2.outstanding.map (·.planned.id)
  said : marks a.planned (p.run more).1 = [] ∨ marks a.planned (p.run more).1 = [.late]
  late : ∀ node, a.completion = .unread (.ok node) → more.any Act.isTick = true →
    marks a.planned (p.run more).1 = [.late]
  arrives : ∀ node, a.completion = .waiting → more.any Act.isTick = true →
    marks a.planned (p.run (.deliver a.planned (.ok node) :: more)).1 = [.late]

end Statements

section Ticks

variable {σ R ρ : Type} [CapacitySource σ ρ] [NodeRegistry R ρ] {p : Provisioner σ}

theorem timedOut_iff_isLate {now : Time} {timeout : Option Duration} {p : Planned ρ} :
    Round.timedOut now timeout p = true ↔ p.IsLate timeout now := by
  rw [Round.timedOut, Option.any_eq_true, Planned.IsLate]
  simp only [decide_eq_true_iff]

namespace Provisioner

/-- A tick as its two looks leave it, and new entries on top. -/
theorem tick_grows (now : Time) (demands : List Demand) (registry : R) (p : Provisioner σ) :
    ∃ new : List (Outstanding ρ),
      (p.tick now demands registry).loop.outstanding = p.keptAt now registry ++ new ∧
      (∀ o ∈ new, p.nextId ≤ o.planned.id) ∧
      (p.tick now demands registry).loop.abandoned =
        (p.abandonedAt now registry).filter (·.completion.isWaiting) ∧
      p.nextId ≤ (p.tick now demands registry).loop.nextId ∧
      ∀ id, id < p.nextId → marks id (p.tick now demands registry).events =
        marks id (p.eventsAt now registry) := by
  obtain ⟨new, es, hg, -, -⟩ := Round.evaluateAll_asks now demands (p.polled now registry)
  have hnext : (p.polled now registry).loop.nextId = p.nextId := by rw [loop_polled]
  have hids := hg.ids
  rw [hnext] at hids
  refine ⟨new, ?_, fun o ho => ?_, ?_, ?_, fun id hid => ?_⟩
  · rw [tick_eq, Round.finish, hg.loop, loop_polled]
  · have hm : o.planned.id ∈ List.range' p.nextId new.length :=
      hids ▸ List.mem_map_of_mem ho
    exact (List.mem_range'_1.1 hm).1
  · rw [tick_eq, Round.finish, hg.loop, loop_polled]
  · rw [tick_eq, Round.finish, hg.loop, hnext]
    exact Nat.le_add_right _ _
  · have hr : id ∉ List.range' (p.polled now registry).loop.nextId new.length := by
      rw [hnext]
      exact fun hr => absurd hid (Nat.not_lt.2 (List.mem_range'_1.1 hr).1)
    rw [tick_eq, Round.finish, hg.events, events_polled, marks_append, marks_append,
      hg.marks_eq, if_neg hr, List.append_nil]
    exact List.append_nil _

namespace Sound

theorem fate_unique (h : p.Sound) {now : Time} {registry : R} {o o' : Outstanding ρ}
    {f f' : Fate ρ} (hf : (o, f) ∈ p.fatesAt now registry)
    (hf' : (o', f') ∈ p.fatesAt now registry) (hid : o.planned.id = o'.planned.id) : f = f' := by
  have hkeys : ((p.fatesAt now registry).map fun f => f.1.planned.id).Nodup := by
    rw [map_id_fatesAt]
    exact (List.nodup_append.1 h.distinct).1
  exact congrArg Prod.snd (List.inj_on_of_nodup_map hkeys hf hf' hid)

theorem mem_tick_iff (h : p.Sound) {now : Time} (demands : List Demand) {registry : R}
    {o : Outstanding ρ} {f : Fate ρ} (hf : (o, f) ∈ p.fatesAt now registry) :
    o.planned.id ∈ (p.tick now demands registry).loop.outstanding.map (·.planned.id) ↔
      f = .kept := by
  obtain ⟨new, hout, hnew, -, -, -⟩ := tick_grows now demands registry p
  rw [hout, List.map_append, List.mem_append]
  constructor
  · rintro (hm | hm)
    · obtain ⟨o', ho', hid⟩ := List.mem_map.1 hm
      exact h.fate_unique hf (mem_keptAt.1 ho') hid.symm
    · obtain ⟨o', ho', hid⟩ := List.mem_map.1 hm
      have hlt := h.numbered _ (mem_ids_of_outstanding (meets_of_mem_fates hf).1)
      rw [← hid] at hlt
      exact absurd hlt (Nat.not_lt.2 (hnew o' ho'))
  · rintro rfl
    exact .inl (List.mem_map_of_mem (mem_keptAt.2 hf))

theorem atTick (h : p.Sound) (now : Time) (demands : List Demand) (registry : R)
    {o : Outstanding ρ} (ho : o ∈ p.outstanding) : o.AtTick p now demands registry := by
  obtain ⟨f, hf⟩ := exists_fate now registry ho
  obtain ⟨new, -, -, habandoned, -, hmarks⟩ := tick_grows now demands registry p
  have hsaid : marks o.planned.id (p.tick now demands registry).events = f.said := by
    rw [hmarks _ (h.numbered _ (mem_ids_of_outstanding ho)), h.marks_of_fate hf]
  have hmeets := (meets_of_mem_fates hf).2
  constructor
  case stays_iff =>
    rw [h.mem_tick_iff demands hf, ← timedOut_iff_isLate]
    cases hmeets <;> simp [*]
  case timedOut_iff =>
    rw [hsaid, ← timedOut_iff_isLate]
    cases hmeets <;> simp [Fate.said, *]
  case early =>
    rw [hsaid, ← timedOut_iff_isLate]
    cases hmeets <;> simp [Fate.said, *]
  case ready =>
    intro node hnode
    rw [hsaid]
    cases hmeets <;> simp_all [Fate.said]
  case failed =>
    intro e he
    rw [hsaid]
    cases hmeets <;> simp_all [Fate.said]
  case spent =>
    rw [hsaid]
    cases hmeets <;> simp [Fate.said, *]
  case abandoned =>
    rw [← timedOut_iff_isLate]
    intro hwaiting hlate
    have hlapsed : f = .lapsed := by cases hmeets <;> simp_all
    subst hlapsed
    rw [habandoned, List.mem_filter]
    refine ⟨mem_abandonedAt.2 (.inr ⟨o, hf, by rw [hwaiting]⟩), rfl⟩

end Sound

end Provisioner

end Ticks

/-! ## Acts of any kind -/

namespace Provisioner

variable {σ R ρ : Type} [CapacitySource σ ρ] [NodeRegistry R ρ] {p : Provisioner σ}

/-- Between ticks nothing is said of the ids there are, and new ones only follow. -/
theorem act_grows (p : Provisioner σ) {a : Act σ R} (ha : a.isTick = false) :
    ∃ new, (p.act a).2.outstanding.map (·.planned.id) = p.outstanding.map (·.planned.id) ++ new ∧
      (∀ id ∈ new, p.nextId ≤ id) ∧
      (p.act a).2.abandoned.map (·.planned) = p.abandoned.map (·.planned) ∧
      p.nextId ≤ (p.act a).2.nextId ∧
      ∀ id, id < p.nextId → marks id (p.act a).1 = [] := by
  have still {q : Provisioner σ} (ho : q.outstanding = p.outstanding)
      (hab : q.abandoned = p.abandoned) (hn : q.nextId = p.nextId) :
      ∃ new, q.outstanding.map (·.planned.id) = p.outstanding.map (·.planned.id) ++ new ∧
        (∀ id ∈ new, p.nextId ≤ id) ∧ q.abandoned.map (·.planned) = p.abandoned.map (·.planned) ∧
        p.nextId ≤ q.nextId ∧ ∀ id, id < p.nextId → marks id [] = [] :=
    ⟨[], by rw [ho, List.append_nil], fun _ h => absurd h List.not_mem_nil, by rw [hab],
      Nat.le_of_eq hn.symm, fun _ _ => rfl⟩
  cases a with
  | tick now demands registry => cases ha
  | provision now actor source label workload =>
    obtain ⟨new, es, hg⟩ := provisionManually_grows now actor source label workload p
    have hevents : (p.provisionManually now actor source label workload).2.events = es := hg.events
    refine ⟨new.map (·.planned.id), ?_, fun id hid => ?_, ?_, ?_, fun id hid => ?_⟩
    · rw [act, hg.loop, List.map_append]
      rfl
    · rw [hg.ids] at hid
      exact (List.mem_range'_1.1 hid).1
    · rw [act, hg.loop]
      rfl
    · rw [act, hg.loop]
      exact Nat.le_add_right _ _
    · rw [act, hevents, hg.marks_eq, if_neg]
      exact fun hr => absurd hid (Nat.not_lt.2 (List.mem_range'_1.1 hr).1)
  | deliver id result =>
    refine ⟨[], ?_, fun _ h => absurd h List.not_mem_nil, ?_, ?_, fun _ _ => rfl⟩
    · rw [act, deliver_eq, List.append_nil]
      exact map_id_resolved id result p.outstanding
    · rw [act, deliver_eq]
      exact map_planned_resolved id result p.abandoned
    · have hnext : (p.deliver id result).2.nextId = p.nextId := by rw [deliver_eq]
      exact Nat.le_of_eq hnext.symm
  | addSource s =>
    simp only [act]
    split
    · exact still rfl rfl rfl
    · exact still rfl rfl rfl
  | removeSource name => exact still rfl rfl rfl
  | changeSources sources => exact still rfl rfl rfl

theorem nextId_le_act (p : Provisioner σ) (a : Act σ R) : p.nextId ≤ (p.act a).2.nextId := by
  cases ha : a.isTick with
  | false =>
    obtain ⟨_, _, _, _, hn, _⟩ := p.act_grows ha
    exact hn
  | true =>
    cases a with
    | tick now demands registry =>
      obtain ⟨_, _, _, _, hn, _⟩ := tick_grows now demands registry p
      exact hn
    | _ => cases ha

/-- An id that has been given out does not come back into flight. -/
theorem mem_outstanding_of_act {a : Act σ R} {id : PlannedId} (hid : id < p.nextId)
    (h : id ∈ (p.act a).2.outstanding.map (·.planned.id)) :
    id ∈ p.outstanding.map (·.planned.id) := by
  cases ha : a.isTick with
  | false =>
    obtain ⟨new, hout, hnew, -, -, -⟩ := p.act_grows ha
    rw [hout, List.mem_append] at h
    exact h.resolve_right fun hm => absurd hid (Nat.not_lt.2 (hnew id hm))
  | true =>
    cases a with
    | tick now demands registry =>
      obtain ⟨new, hout, hnew, -, -, -⟩ := tick_grows now demands registry p
      rw [act, hout, List.map_append, List.mem_append] at h
      rcases h with h | h
      · obtain ⟨o, ho, rfl⟩ := List.mem_map.1 h
        exact List.mem_map_of_mem (meets_of_mem_fates (mem_keptAt.1 ho)).1
      · obtain ⟨o, ho, rfl⟩ := List.mem_map.1 h
        exact absurd hid (Nat.not_lt.2 (hnew o ho))
    | _ => cases ha

theorem not_mem_outstanding_run {id : PlannedId} (hid : id < p.nextId)
    (h : id ∉ p.outstanding.map (·.planned.id)) (more : List (Act σ R)) :
    id ∉ (p.run more).2.outstanding.map (·.planned.id) := by
  induction more generalizing p with
  | nil => exact h
  | cons a more ih =>
    exact ih (Nat.lt_of_lt_of_le hid (p.nextId_le_act a)) fun hm =>
      h (mem_outstanding_of_act hid hm)

/-- What a tick leaves abandoned was abandoned or in flight before. -/
theorem mem_ids_of_abandoned_tick {now : Time} {demands : List Demand} {registry : R}
    {a : Abandoned ρ} (h : a ∈ (p.tick now demands registry).loop.abandoned) :
    a.planned ∈ p.ids := by
  obtain ⟨_, _, _, hab, _, _⟩ := tick_grows now demands registry p
  rw [hab, List.mem_filter, mem_abandonedAt] at h
  obtain ⟨h | ⟨o, hf, rfl⟩, -⟩ := h
  · exact mem_ids_of_abandoned h
  · exact mem_ids_of_outstanding (meets_of_mem_fates hf).1

/-- Nothing happens any more to an id that is no longer polled. -/
theorem absent_act {id : PlannedId} (hid : id < p.nextId) (h : id ∉ p.ids) (a : Act σ R) :
    id ∉ (p.act a).2.ids ∧ marks id (p.act a).1 = [] := by
  have hout : id ∉ (p.act a).2.outstanding.map (·.planned.id) := fun hm =>
    h (List.mem_append_left _ (mem_outstanding_of_act hid hm))
  cases ha : a.isTick with
  | false =>
    obtain ⟨_, _, _, hab, _, hsaid⟩ := p.act_grows ha
    refine ⟨?_, hsaid id hid⟩
    rw [ids, List.mem_append, not_or, hab]
    exact ⟨hout, fun hm => h (List.mem_append_right _ hm)⟩
  | true =>
    cases a with
    | tick now demands registry =>
      obtain ⟨_, _, _, _, _, hsaid⟩ := tick_grows now demands registry p
      constructor
      · rw [ids, List.mem_append, not_or]
        refine ⟨hout, fun hm => ?_⟩
        obtain ⟨b, hb, rfl⟩ := List.mem_map.1 hm
        exact h (mem_ids_of_abandoned_tick hb)
      · rw [act, hsaid id hid]
        exact marks_of_absent now registry h
    | _ => cases ha

theorem marks_run_of_absent {id : PlannedId} (hid : id < p.nextId) (h : id ∉ p.ids)
    (more : List (Act σ R)) : marks id (p.run more).1 = [] := by
  induction more generalizing p with
  | nil => rfl
  | cons a more ih =>
    obtain ⟨hno, hsaid⟩ := absent_act hid h a
    rw [run, marks_append, hsaid, ih (Nat.lt_of_lt_of_le hid (p.nextId_le_act a)) hno]
    rfl

/-! ## Abandoned entries -/

/-- Between ticks an abandoned entry stays; its completion changes only while it waits. -/
theorem abandoned_act {a : Act σ R} (ha : a.isTick = false) {b : Abandoned ρ}
    (hb : b ∈ p.abandoned) : ∃ b' ∈ (p.act a).2.abandoned, b'.planned = b.planned ∧
      (b.completion = .waiting ∨ b'.completion = b.completion) := by
  have same (h : (p.act a).2.abandoned = p.abandoned) : ∃ b' ∈ (p.act a).2.abandoned,
      b'.planned = b.planned ∧ (b.completion = .waiting ∨ b'.completion = b.completion) :=
    ⟨b, h ▸ hb, rfl, .inr rfl⟩
  cases a with
  | tick now demands registry => cases ha
  | provision now actor source label workload =>
    obtain ⟨_, _, hg⟩ := provisionManually_grows now actor source label workload p
    refine same ?_
    rw [act, hg.loop]
    rfl
  | deliver id result =>
    refine ⟨b.resolved id result, ?_, b.planned_resolved id result, ?_⟩
    · rw [act, deliver_eq]
      exact List.mem_map_of_mem hb
    · cases hc : b.completion with
      | waiting => exact .inl rfl
      | _ =>
        rw [b.resolved_of_not_waiting id result (by rw [hc]; rfl)]
        exact .inr hc
  | addSource s =>
    refine same ?_
    simp only [act]
    split <;> rfl
  | removeSource name => exact same rfl
  | changeSources sources => exact same rfl

/-- A tick keeps an abandoned entry while it waits, and drops it with its last word otherwise. -/
theorem Sound.abandoned_tick (h : p.Sound) (now : Time) (demands : List Demand) (registry : R)
    {b : Abandoned ρ} (hb : b ∈ p.abandoned) :
    marks b.planned (p.tick now demands registry).events = b.said ∧
      (b.completion = .waiting ∧ b ∈ (p.tick now demands registry).loop.abandoned ∨
        b.planned ∉ (p.tick now demands registry).loop.ids) := by
  have hd := List.nodup_append.1 h.distinct
  obtain ⟨_, _, _, hab, _, hsaid⟩ := tick_grows now demands registry p
  have hlt := h.numbered _ (mem_ids_of_abandoned hb)
  refine ⟨(hsaid _ hlt).trans (h.marks_of_abandoned now registry hb), ?_⟩
  have hout : b.planned ∉ p.outstanding.map (·.planned.id) := fun hm =>
    hd.2.2 _ hm _ (List.mem_map_of_mem hb) rfl
  by_cases hw : b.completion = .waiting
  · refine .inl ⟨hw, ?_⟩
    rw [hab, List.mem_filter, mem_abandonedAt, hw]
    exact ⟨.inl hb, rfl⟩
  · refine .inr ?_
    rw [ids, List.mem_append, not_or]
    constructor
    · exact fun hm => hout (mem_outstanding_of_act (a := .tick now demands registry) hlt hm)
    · intro hm
      obtain ⟨c, hc, hid⟩ := List.mem_map.1 hm
      rw [hab, List.mem_filter, mem_abandonedAt] at hc
      obtain ⟨hc | ⟨o, hf, rfl⟩, hwaiting⟩ := hc
      · rw [List.inj_on_of_nodup_map hd.2.1 hc hb hid] at hwaiting
        cases hcb : b.completion with
        | waiting => exact hw hcb
        | _ => rw [hcb] at hwaiting; cases hwaiting
      · exact hout (hid ▸ List.mem_map_of_mem (meets_of_mem_fates hf).1)

namespace Sound

theorem faces (h : p.Sound) {o : Outstanding ρ} (ho : o ∈ p.outstanding) (a : Act σ R) :
    o.Faces p a := by
  have between (ha : a.isTick = false) :
      o.planned.id ∈ (p.act a).2.outstanding.map (·.planned.id) ∧
        marks o.planned.id (p.act a).1 = [] := by
    obtain ⟨_, hout, _, _, _, hsaid⟩ := p.act_grows ha
    rw [hout]
    exact ⟨List.mem_append_left _ (List.mem_map_of_mem ho),
      hsaid _ (h.numbered _ (mem_ids_of_outstanding ho))⟩
  cases a with
  | tick now demands registry => exact h.atTick now demands registry ho
  | _ => exact between rfl

theorem said_run (h : p.Sound) (more : List (Act σ R)) {b : Abandoned ρ}
    (hb : b ∈ p.abandoned) :
    marks b.planned (p.run more).1 = [] ∨ marks b.planned (p.run more).1 = [.late] := by
  induction more generalizing p b with
  | nil => exact .inl rfl
  | cons a more ih =>
    rw [Provisioner.run, marks_append]
    have hlt := Nat.lt_of_lt_of_le (h.numbered _ (mem_ids_of_abandoned hb)) (p.nextId_le_act a)
    cases ha : a.isTick with
    | false =>
      obtain ⟨_, _, _, _, _, hsaid⟩ := p.act_grows ha
      obtain ⟨b', hb', hid, -⟩ := abandoned_act ha hb
      rw [hsaid _ (h.numbered _ (mem_ids_of_abandoned hb)), ← hid]
      exact ih (h.act a) hb'
    | true =>
      cases a with
      | tick now demands registry =>
        obtain ⟨hsaid, ⟨hw, hmem⟩ | hgone⟩ := h.abandoned_tick now demands registry hb
        · rw [Provisioner.act, hsaid, Abandoned.said_of_waiting hw]
          exact ih (h.act (.tick now demands registry)) hmem
        · rw [marks_run_of_absent hlt hgone more, List.append_nil, Provisioner.act, hsaid,
            Abandoned.said]
          cases b.lateNode? with
          | none => exact .inl rfl
          | some node => exact .inr rfl
      | _ => cases ha

/-- The first tick after the arrival of a late node reports it. -/
theorem late_run (h : p.Sound) (more : List (Act σ R)) {b : Abandoned ρ} (hb : b ∈ p.abandoned)
    {node : RealizedNode ρ} (hnode : b.completion = .unread (.ok node))
    (hmore : more.any Act.isTick = true) : marks b.planned (p.run more).1 = [.late] := by
  induction more generalizing p b with
  | nil => cases hmore
  | cons a more ih =>
    rw [Provisioner.run, marks_append]
    have hlt := Nat.lt_of_lt_of_le (h.numbered _ (mem_ids_of_abandoned hb)) (p.nextId_le_act a)
    cases ha : a.isTick with
    | false =>
      obtain ⟨_, _, _, _, _, hsaid⟩ := p.act_grows ha
      obtain ⟨b', hb', hid, hw | hc⟩ := abandoned_act ha hb
      · rw [hnode] at hw
        cases hw
      · rw [List.any_cons, ha, Bool.false_or] at hmore
        rw [hsaid _ (h.numbered _ (mem_ids_of_abandoned hb)), ← hid]
        exact ih (h.act a) hb' (hc.trans hnode) hmore
    | true =>
      cases a with
      | tick now demands registry =>
        obtain ⟨hsaid, ⟨hw, -⟩ | hgone⟩ := h.abandoned_tick now demands registry hb
        · rw [hnode] at hw
          cases hw
        · rw [marks_run_of_absent hlt hgone more, List.append_nil, Provisioner.act, hsaid,
            Abandoned.said, Abandoned.lateNode?, hnode]
          rfl
      | _ => cases ha

theorem afterlife (h : p.Sound) {b : Abandoned ρ} (hb : b ∈ p.abandoned)
    (more : List (Act σ R)) : b.Afterlife p more where
  gone := not_mem_outstanding_run (h.numbered _ (mem_ids_of_abandoned hb))
    (fun hm => (List.nodup_append.1 h.distinct).2.2 _ hm _ (List.mem_map_of_mem hb) rfl) more
  said := h.said_run more hb
  late node hnode hmore := h.late_run more hb hnode hmore
  arrives node hw hmore := by
    have hmem : b.resolved b.planned (.ok node) ∈ (p.deliver b.planned (.ok node)).2.abandoned := by
      rw [deliver_eq]
      exact List.mem_map_of_mem hb
    have hready : (b.resolved b.planned (.ok node)).completion = .unread (.ok node) := by
      rw [Abandoned.resolved, if_pos rfl, hw]
      rfl
    have hlate := (h.deliver b.planned (.ok node)).late_run more hmem hready hmore
    rw [Abandoned.planned_resolved] at hlate
    exact hlate

end Sound

/-! ## What reaches the registry -/

/-- A tick hands the registry the nodes that have arrived in flight, in order, and no others. -/
theorem registry_tick (now : Time) (demands : List Demand) (registry : R) (p : Provisioner σ) :
    (p.tick now demands registry).registry =
      (p.outstanding.filterMap Outstanding.arrived?).foldl
        (fun r node => (NodeRegistry.register node r).2) registry := by
  have hfates (os : List (Outstanding ρ)) : (fates now p.timeout registry os).2 =
      (os.filterMap Outstanding.arrived?).foldl
        (fun r node => (NodeRegistry.register node r).2) registry := by
    induction os generalizing registry with
    | nil => rfl
    | cons o os ih =>
      rw [fates, ih]
      cases hc : o.planned.completion with
      | unread result => cases result <;> simp [Fate.of, Outstanding.arrived?, hc]
      | _ => simp [Fate.of, Outstanding.arrived?, hc]
  obtain ⟨_, _, -, hreg, -⟩ := Round.evaluateAll_asks now demands (p.polled now registry)
  rw [← hfates, ← registry_polled, ← hreg]
  rfl

theorem timeout_run (p : Provisioner σ) (as : List (Act σ R)) :
    (p.run as).2.timeout = p.timeout := by
  induction as generalizing p with
  | nil => rfl
  | cons a as ih =>
    refine (ih _).trans ?_
    cases a with
    | tick now demands registry =>
      obtain ⟨_, _, hg, -, -⟩ := Round.evaluateAll_asks now demands (p.polled now registry)
      rw [act, tick_eq, Round.finish, hg.loop, loop_polled]
    | provision now actor source label workload =>
      obtain ⟨_, _, hg⟩ := provisionManually_grows now actor source label workload p
      rw [act, hg.loop]
      rfl
    | deliver id result => rw [act, deliver_eq]
    | addSource s =>
      simp only [act]
      split <;> rfl
    | removeSource name => rfl
    | changeSources sources => rfl

end Provisioner

variable {σ R ρ : Type} [CapacitySource σ ρ] [NodeRegistry R ρ]

/-- The life of every id in every run: what the events say of it so far, what the next act
makes of it while it is in flight, that it leaves for good, and what follows a timeout. -/
theorem life_of_planned (sources : SourceSet σ) (guard : Guard) (timeout : Option Duration)
    (first : PlannedId) (acts : List (Act σ R)) :
    let es := ((start sources guard timeout first).run acts).1
    let p := ((start sources guard timeout first).run acts).2
    Chronicled first p es ∧
      p.timeout = timeout ∧
      (∀ o ∈ p.outstanding, ∀ a : Act σ R, o.Faces p a) ∧
      (∀ id, id < p.nextId → id ∉ p.outstanding.map (·.planned.id) →
        ∀ more : List (Act σ R), id ∉ (p.run more).2.outstanding.map (·.planned.id)) ∧
      (∀ a ∈ p.abandoned, ∀ more : List (Act σ R), a.Afterlife p more) ∧
      ∀ (now : Time) (demands : List Demand) (registry : R),
        (p.tick now demands registry).registry =
          (p.outstanding.filterMap Outstanding.arrived?).foldl
            (fun r node => (NodeRegistry.register node r).2) registry := by
  intro es p
  have hstart := sound_start sources guard timeout first
  have hsound : p.Sound := hstart.run acts
  refine ⟨?_, timeout_run _ acts, fun o ho a => hsound.faces ho a, fun id hid hno more =>
    not_mem_outstanding_run hid hno more, fun a ha more => hsound.afterlife ha more,
    fun now demands registry => registry_tick now demands registry p⟩
  exact (Chronicled.of_start sources guard timeout).run hstart acts

end Fleet
