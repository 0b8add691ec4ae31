import Fleet.Proofs.Slots.Start

/-!
# Capacity and the node that it waits for

Capacity that is charged to a simulated source either waits for a node of that source, which is
booting, or has a node of that source to be read (`Moment.Attended`).  So it never outnumbers
the slots of the source that are held by such nodes (`Attended.length_charged_le`).
-/

namespace Fleet

theorem RealizedNode.Of.booted {node : RealizedNode ReleaseHandle} {n : SourceName}
    (h : node.Of n) (now : Time) : (Moment.booted now node).Of n := ⟨h.source, h.release⟩

namespace Moment

/-- A charge waits for a node of its source, or has one. -/
def Attends (m : Moment Source) (c : Charge ReleaseHandle) : Prop :=
  (c.2.2 = .waiting ∧ ∃ b ∈ m.booting, b.1 = c.2.1 ∧ b.2.Of c.1) ∨
    ∃ node, c.2.2 = .unread (.ok node) ∧ node.Of c.1

/-- All capacity is attended, and no two nodes boot for the same. -/
structure Attended (m : Moment Source) : Prop where
  charges : ∀ c ∈ m.charges, m.Attends c
  distinct : (m.booting.map Prod.fst).Nodup
  numbered : ∀ b ∈ m.booting, b.1 < m.daemon.loop.nextId

variable {m m' : Moment Source}

theorem awaits_of_charge {c : Charge ReleaseHandle} (h : c ∈ m.charges)
    (hc : c.2.2 = .waiting) : m.awaits c.2.1 = true := by
  rw [awaits, List.any_eq_true]
  refine ⟨c.2, ?_, by rw [hc]; simp [Completion.isWaiting]⟩
  rw [← map_snd_charges]
  exact List.mem_map_of_mem h

/-- An entry that does not wait for `id` goes on waiting when the node for `id` has come up. -/
theorem Attends.mono {c : Charge ReleaseHandle} (h : m.Attends c)
    (hb : ∀ b ∈ m.booting, b.1 = c.2.1 → c.2.2 = .waiting → b ∈ m'.booting) : m'.Attends c := by
  refine h.imp_left ?_
  rintro ⟨hwaits, b, hmem, hid, hof⟩
  exact ⟨hwaits, b, hb b hmem hid hwaits, hid, hof⟩

/-- Fewer nodes that boot have distinct ids that have been given out, too. -/
theorem Attended.of_perm (woken : List (PlannedId × RealizedNode ReleaseHandle))
    (h : m.Attended) (hb : m.booting.Perm (woken ++ m'.booting))
    (hn : m.daemon.loop.nextId ≤ m'.daemon.loop.nextId)
    (hc : ∀ c ∈ m'.charges, m'.Attends c) : m'.Attended where
  charges := hc
  distinct := by
    have hids := (hb.map Prod.fst).nodup_iff.1 h.distinct
    rw [List.map_append] at hids
    exact hids.of_append_right
  numbered b hmem :=
    Nat.lt_of_lt_of_le (h.numbered b (hb.mem_iff.2 (List.mem_append_right _ hmem))) hn

/-- New capacity takes the ids of its boots. -/
theorem map_id_awaits {new : List (Outstanding ReleaseHandle)}
    {boots : List (PlannedId × Boot ReleaseHandle)}
    (h : List.Forall₂ Outstanding.Awaits new boots) :
    (boots.map fun b => (b.1, b.2.node)).map Prod.fst = new.map (·.planned.id) := by
  induction h with
  | nil => rfl
  | cons hawaits _ ih => exact congrArg₂ List.cons hawaits.id ih

/-- Where capacity is new and polled from now on, its boots are told apart by its ids. -/
theorem Attended.of_hired {new : List (Outstanding ReleaseHandle)}
    {boots : List (PlannedId × Boot ReleaseHandle)} (h : m.Attended) (hm' : m'.Sound)
    (hn : m.daemon.loop.nextId ≤ m'.daemon.loop.nextId)
    (hcharges : m'.charges.Perm (m.charges ++ new.map Outstanding.charge))
    (hbooting : m'.booting = m.booting ++ boots.map fun b => (b.1, b.2.node))
    (hawaits : List.Forall₂ Outstanding.Awaits new boots)
    (hids : ∀ o ∈ new, m.daemon.loop.nextId ≤ o.planned.id) : m'.Attended := by
  have hfst := map_id_awaits hawaits
  have hpolled : (new.map (·.planned.id)).Sublist
      ((m.charges ++ new.map Outstanding.charge).map (·.2.1)) := by
    rw [List.map_append, List.map_map]
    exact List.sublist_append_right _ _
  have hperm := hcharges.map (·.2.1)
  refine ⟨fun c hc => ?_, ?_, fun b hb => ?_⟩
  · rcases List.mem_append.1 (hcharges.mem_iff.1 hc) with hc | hc
    · exact (h.charges c hc).mono fun b hb _ _ => hbooting ▸ List.mem_append_left _ hb
    · obtain ⟨o, ho, rfl⟩ := List.mem_map.1 hc
      obtain ⟨b, hb, hawaits⟩ := Json.exists_of_forall₂ hawaits.flip ho
      refine .inl ⟨hawaits.waiting, (b.1, b.2.node), ?_, hawaits.id, hawaits.node⟩
      rw [hbooting]
      exact List.mem_append_right _ (List.mem_map_of_mem hb)
  · have hnew := hpolled.nodup (hperm.nodup_iff.1 hm'.distinct_charges)
    rw [hbooting, List.map_append, hfst]
    refine List.nodup_append'.2 ⟨h.distinct, hnew, ?_⟩
    intro id hid hid'
    obtain ⟨b, hb, rfl⟩ := List.mem_map.1 hid
    obtain ⟨o, ho, he⟩ := List.mem_map.1 hid'
    exact absurd (h.numbered b hb) (Nat.not_lt.2 (he ▸ hids o ho))
  · rw [hbooting] at hb
    rcases List.mem_append.1 hb with hb | hb
    · exact Nat.lt_of_lt_of_le (h.numbered b hb) hn
    · have hmem := hperm.mem_iff.2 (hpolled.subset (hfst ▸ List.mem_map_of_mem hb))
      rw [map_id_charges] at hmem
      exact hm'.numbered b.1 hmem

/-- When a node comes up, it is there for the charge that waits for it. -/
theorem Attended.attends_resolved {id : PlannedId} {node : RealizedNode ReleaseHandle}
    (h : m.Attended) (hbooting : m.booting.Perm ((id, node) :: m'.booting)) (now : Time)
    {c : Charge ReleaseHandle} (hc : c ∈ m.charges) :
    m'.Attends (Charge.resolved id (.ok (booted now node)) c) := by
  have hattends := h.charges c hc
  by_cases hid : c.2.1 = id
  · rw [Charge.resolved_of_eq hid]
    rcases hattends with ⟨hwaits, b, hb, hbid, hof⟩ | ⟨node', hnode', hof⟩
    · -- no two nodes boot for the same charge
      have hsame : b = (id, node) := List.inj_on_of_nodup_map h.distinct hb
        (hbooting.mem_iff.2 List.mem_cons_self) (hbid.trans hid)
      subst hsame
      exact .inr ⟨booted now node, by rw [hwaits]; rfl, hof.booted now⟩
    · exact .inr ⟨node', by rw [hnode']; rfl, hof⟩
  · rw [Charge.resolved_of_ne hid]
    refine hattends.mono fun b hb hbid _ => ?_
    refine (List.mem_cons.1 (hbooting.mem_iff.1 hb)).resolve_left ?_
    rintro rfl
    exact hid hbid.symm

theorem Deed.attended {entered created : List NodeId} (hd : Deed m m' entered created)
    (hm' : m'.Sound) (hn : m.daemon.loop.nextId ≤ m'.daemon.loop.nextId) (h : m.Attended) :
    m'.Attended := by
  cases hd with
  | looks seen kept rest before after less nodes booting sources moves =>
    refine h.of_perm [] (booting ▸ .rfl) hn fun c hc => ?_
    have hmem : c ∈ m.charges :=
      before.mem_iff.2 ((less.append (.refl rest)).subset (after.mem_iff.1 hc))
    exact (h.charges c hmem).mono fun b hb _ _ => booting ▸ hb
  | hires charges booting awaits known ids grants moves =>
    exact h.of_hired hm' hn charges booting awaits ids
  | @wakes id node now booting awaited charges sources moves =>
    refine h.of_perm [(id, node)] booting hn fun c' hc' => ?_
    rw [charges] at hc'
    obtain ⟨c, hc, rfl⟩ := List.mem_map.1 hc'
    exact h.attends_resolved booting now hc
  | frees release woken booting unawaited charges sources moves =>
    refine h.of_perm _ booting hn fun c hc => ?_
    rw [charges] at hc
    refine (h.charges c hc).mono fun b hb hbid hwaits => ?_
    refine (List.mem_append.1 (booting.mem_iff.1 hb)).resolve_left fun hwoken => ?_
    have hnobody := unawaited b (Option.mem_toList.1 hwoken)
    rw [hbid, awaits_of_charge hc hwaits] at hnobody
    cases hnobody

/-! ## Counting what is attended -/

/-- What waits for a source is no more than what boots there. -/
theorem Attended.length_waiting_le (h : m.Attended) (hm : m.Sound) (n : SourceName) :
    m.charges.countP (fun c => decide (c.1 = n) && c.2.2.isWaiting) ≤ m.sleeping n := by
  have hnodup : ((m.charges.filter fun c => decide (c.1 = n) && c.2.2.isWaiting).map
      (·.2.1)).Nodup := hm.distinct_charges.sublist (List.filter_sublist.map _)
  have hsubset : ((m.charges.filter fun c => decide (c.1 = n) && c.2.2.isWaiting).map (·.2.1)) ⊆
      (m.booting.filter fun b => b.2.holdsSlotOf n).map Prod.fst := by
    intro id hid
    obtain ⟨c, hc, rfl⟩ := List.mem_map.1 hid
    rw [List.mem_filter, Bool.and_eq_true, decide_eq_true_iff] at hc
    obtain ⟨hc, hsource, hwaits⟩ := hc
    rcases h.charges c hc with ⟨-, b, hb, hbid, hof⟩ | ⟨node, hnode, -⟩
    · exact List.mem_map.2 ⟨b, List.mem_filter.2 ⟨hb, (hof.holdsSlotOf_iff n).2 hsource⟩, hbid⟩
    · rw [hnode] at hwaits
      cases hwaits
  have hle := (hnodup.subperm hsubset).length_le
  rwa [List.length_map, List.length_map, ← List.countP_eq_length_filter,
    ← List.countP_eq_length_filter] at hle

/-- What has come up for a source has handles that give back its slots. -/
theorem countP_unread_le {cs : List (Charge ReleaseHandle)} (h : ∀ c ∈ cs, m.Attends c)
    (n : SourceName) : cs.countP (fun c => decide (c.1 = n) && !c.2.2.isWaiting) ≤
      slotsOf n ((handlesOf (cs.map Prod.snd)).map Prod.snd) := by
  induction cs with
  | nil => exact Nat.zero_le _
  | cons c cs ih =>
    rw [List.forall_mem_cons] at h
    have hrest := ih h.2
    rw [List.countP_cons, List.map_cons, handlesOf_cons, Multiset.map_add, slotsOf_add,
      map_snd_tagged, slotsOf_toList, add_comm]
    refine Nat.add_le_add ?_ hrest
    rcases h.1 with ⟨hwaits, -⟩ | ⟨node, hnode, hof⟩
    · rw [hwaits]
      simp [Completion.isWaiting]
    · have hhandle : c.2.2.handle? = some (.slot c.1 node.record.id) := by
        rw [hnode]
        exact hof.release
      rw [hhandle]
      simp [hnode, Completion.isWaiting, ReleaseHandle.isSlotOf]

/-- Capacity that is charged to a source holds its slots. -/
theorem Attended.length_charged_le (h : m.Attended) (hm : m.Sound) (n : SourceName) :
    m.charges.countP (fun c => decide (c.1 = n)) ≤
      m.sleeping n + slotsOf n (m.places.unread.map Prod.snd) := by
  have hwaiting := h.length_waiting_le hm n
  have hunread := countP_unread_le h.charges n
  rw [map_snd_charges] at hunread
  have hsplit : m.charges.countP (fun c => decide (c.1 = n)) =
      m.charges.countP (fun c => decide (c.1 = n) && c.2.2.isWaiting) +
        m.charges.countP (fun c => decide (c.1 = n) && !c.2.2.isWaiting) := by
    rw [List.countP_eq_countP_filter_add _ _ (·.2.2.isWaiting), List.countP_filter,
      List.countP_filter]
  rw [hsplit]
  exact Nat.add_le_add hwaiting hunread

end Moment

/-! ## Capacity in flight -/

namespace Moment

theorem map_charge_outstanding {σ ρ : Type} [CapacitySource σ ρ] (m : Moment σ) :
    (m.outstanding.map Outstanding.charge).Sublist m.charges := by
  rw [outstanding, List.map_append, charges]
  refine List.Sublist.append ?_ (List.sublist_append_left _ _)
  obtain ⟨d, ticking⟩ := m
  cases ticking with
  | none => exact .refl _
  | some t =>
    show (t.ahead.outstanding.map Outstanding.charge).Sublist t.ahead.charges
    cases t.ahead with
    | inFlight rest => exact .refl _
    | late rest => exact List.nil_sublist _

variable {m : Moment Source}

/-- How much of the capacity in flight is charged to this source. -/
def inFlight (m : Moment Source) (n : SourceName) : Nat :=
  m.outstanding.countP fun o => o.account.source = n

theorem Attended.inFlight_le (h : m.Attended) (hm : m.Sound) (n : SourceName) :
    m.inFlight n ≤ m.sleeping n + slotsOf n (m.places.unread.map Prod.snd) := by
  refine le_trans ?_ (h.length_charged_le hm n)
  have hle : (m.outstanding.map Outstanding.charge).countP (fun c => decide (c.1 = n)) ≤
      m.charges.countP fun c => decide (c.1 = n) := m.map_charge_outstanding.countP_le
  rw [List.countP_map] at hle
  exact hle

/-! ## Runs -/

variable {acts : List (Act Source)}

theorem nextId_le_step (h : m.Sound) (a : Act Source) :
    m.daemon.loop.nextId ≤ (m.step a).daemon.loop.nextId := by
  obtain ⟨new, hpassage⟩ := step_passage h a
  rw [hpassage.next]
  exact Nat.le_add_right _ _

theorem Attended.step (h : m.Attended) (hfit : m.Fit) {a : Act Source} (ha : a.isInner = true) :
    (m.step a).Attended :=
  (step_deed hfit ha).attended (hfit.sound.step a) (nextId_le_step hfit.sound a) h

theorem Attended.run (h : m.Attended) (hfit : m.Fit) (hacts : ∀ a ∈ acts, a.isInner = true) :
    (m.run acts).Attended :=
  hfit.run_keeps (fun hfit ha h => h.step hfit ha) hacts h

theorem attended_of_idle {d : Daemon Source (Registry ReleaseHandle)}
    (houtstanding : d.loop.outstanding = []) (habandoned : d.loop.abandoned = [])
    (htasks : d.tasks = []) : (⟨d, none⟩ : Moment Source).Attended := by
  have hboots : (⟨d, none⟩ : Moment Source).booting = [] := by
    rw [booting, htasks]
    rfl
  refine ⟨fun c hc => ?_, by rw [hboots]; exact .nil, fun b hb => ?_⟩
  · change c ∈ d.loop.charges at hc
    rw [Provisioner.charges, houtstanding, habandoned] at hc
    cases hc
  · rw [hboots] at hb
    cases hb

end Moment

end Fleet
