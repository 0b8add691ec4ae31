import Fleet.Proofs.Custody.Passage

/-!
# Custody through a tick

Each step of a tick is a passage (`begin_passage`, `advance_passage`): a look at one entry lets
its handle stay, go to the registry or be turned away, the turn to abandoned capacity moves
nothing, and asking sources only adds capacity.  Provisioning by hand is such asking, too.
-/

namespace Fleet

namespace Moment

variable {σ ρ : Type} [CapacitySource σ ρ]

theorem begin_passage {m : Moment σ} (h : m.Sound) (now : Time) :
    Passage m (m.begin now) [] 0 0 := by
  unfold begin
  split
  · exact .quiet h .rfl (.refl _) rfl rfl rfl
  · rename_i hnone
    refine .quiet h ?_ (.refl _) rfl rfl rfl
    rw [watched, watched, hnone]
    simp only [Option.map_some, Option.map_none, Option.getD_some, Option.getD_none,
      Ahead.watched, Provisioner.watched, Round.start, List.map_nil, List.nil_append]
    exact .rfl

end Moment

/-! ## Looks -/

section Looks

variable {ρ : Type}

theorem RealizedNode.release_reclaims (node : RealizedNode ρ) :
    node.reclaims.filterMap (·.release) = node.release.toList := by
  unfold reclaims
  cases hr : node.release with
  | none => rfl
  | some handle => simp [hr]

/-- The entry that a look leaves, wherever it goes. -/
def Fate.leaves (o : Outstanding ρ) (f : Fate ρ) : List (PlannedId × Completion ρ) :=
  (f.keeps o).map Outstanding.watched ++ (f.abandons o).map Abandoned.watched

theorem Fate.leaves_sublist (o : Outstanding ρ) (f : Fate ρ) :
    (f.leaves o).Sublist [o.watched] := by
  cases f with
  | kept => exact .refl _
  | lapsed => exact .refl _
  | _ => exact List.nil_sublist _

/-- The handle of an entry stays with it, or goes to the registry, or is turned away. -/
theorem Fate.of_custody (now : Time) (timeout : Option Duration) (o : Outstanding ρ)
    {r : Registry ρ} (h : r.Orderly) :
    (Fate.of now timeout r o).2.Orderly ∧
      ∃ (read : Multiset (PlannedId × ρ)) (registered : Multiset (NodeId × ρ)),
        handlesOf ((Fate.of now timeout r o).1.leaves o) + read = handlesOf [o.watched] ∧
        read.map Prod.snd = registered.map Prod.snd +
          ((Fate.of now timeout r o).1.turnedAway.filterMap (·.release) : List ρ) ∧
        (Fate.of now timeout r o).2.held = r.held + registered := by
  -- an entry without a handle has none to pass on
  have hempty (hnone : o.planned.completion.handle? = none) (f : Fate ρ) :
      handlesOf (f.leaves o) + 0 = handlesOf [o.watched] := by
    have hseen : handlesOf [o.watched] = 0 := by
      rw [handlesOf_singleton, Outstanding.watched, hnone]
      rfl
    rw [hseen, add_zero]
    cases f with
    | kept => exact hseen
    | lapsed => exact hseen
    | _ => rfl
  unfold Fate.of
  cases hc : o.planned.completion with
  | waiting =>
    refine ⟨h, 0, 0, hempty (by rw [hc]; rfl) _, ?_, (add_zero _).symm⟩
    dsimp only
    split <;> rfl
  | unread result =>
    cases result with
    | error e => exact ⟨h, 0, 0, hempty (by rw [hc]; rfl) _, rfl, (add_zero _).symm⟩
    | ok node =>
      have hseen : handlesOf [o.watched] = tagged o.planned.id node.release := by
        rw [handlesOf_singleton, Outstanding.watched, hc]
        rfl
      have hinstance : NodeRegistry.register node r = r.register node := rfl
      dsimp only
      rw [hinstance]
      obtain ⟨ho, ⟨ha, hheld⟩ | ⟨ha, hheld⟩ | ⟨e, ha, hheld⟩⟩ := Registry.register_cases node h
      · refine ⟨ho, tagged o.planned.id node.release, tagged node.record.id node.release, ?_, ?_,
          hheld.trans (add_comm _ _)⟩
        · rw [ha, hseen]
          exact zero_add _
        · rw [ha, map_snd_tagged, map_snd_tagged]
          exact (add_zero _).symm
      · refine ⟨ho, tagged o.planned.id node.release, 0, ?_, ?_, hheld.trans (add_zero _).symm⟩
        · rw [ha, hseen]
          exact zero_add _
        · rw [ha, map_snd_tagged]
          simp [RealizedNode.release_reclaims]
      · refine ⟨ho, tagged o.planned.id node.release, 0, ?_, ?_, hheld.trans (add_zero _).symm⟩
        · rw [ha, hseen]
          exact zero_add _
        · rw [ha, map_snd_tagged]
          simp [RealizedNode.release_reclaims]
  | spent => exact ⟨h, 0, 0, hempty (by rw [hc]; rfl) _, rfl, (add_zero _).symm⟩

/-- The handle of an abandoned entry stays with it or is turned away. -/
theorem Abandoned.late_custody (a : Abandoned ρ) :
    ∃ read : Multiset (PlannedId × ρ),
      handlesOf (([a].filter (·.completion.isWaiting)).map Abandoned.watched) + read =
        handlesOf [a.watched] ∧
      read.map Prod.snd = (a.turnedAway.filterMap (·.release) : List ρ) := by
  rw [handlesOf_singleton, watched]
  unfold turnedAway lateNode?
  cases hc : a.completion with
  | waiting =>
    refine ⟨0, ?_, rfl⟩
    simp [Completion.isWaiting, Completion.handle?, handlesOf, tagged, watched, hc]
  | unread result =>
    cases result with
    | error e =>
      refine ⟨0, ?_, rfl⟩
      simp [Completion.isWaiting, Completion.handle?, handlesOf, tagged, hc]
    | ok node =>
      refine ⟨tagged a.planned node.release, ?_, ?_⟩
      · simp [Completion.isWaiting, Completion.handle?, handlesOf, hc]
      · rw [map_snd_tagged]
        simp [RealizedNode.release_reclaims]
  | spent =>
    refine ⟨0, ?_, rfl⟩
    simp [Completion.isWaiting, Completion.handle?, handlesOf, tagged, hc]

end Looks

namespace Moment

variable {σ ρ : Type} [CapacitySource σ ρ] [Freeing σ ρ]

/-- A look at `seen`, of which `left` stays, while the handles that are `read` go to the registry
or are turned away. -/
theorem proceed_passage {d : Daemon σ (Registry ρ)} {t : Ticking σ}
    {r : Round σ (Registry ρ)} {ahead : Ahead ρ} {away : List (RealizedNode ρ)}
    {read : Multiset (PlannedId × ρ)} {registered : Multiset (NodeId × ρ)}
    (seen left rest : List (PlannedId × Completion ρ))
    (ho : r.registry.Orderly) (hheld : r.registry.held = d.registry.held + registered)
    (hnext : r.loop.nextId = d.loop.nextId)
    (haway : r.discarded = t.round.discarded ++ away)
    (hbefore : (t.ahead.watched ++ d.loop.watched).Perm (seen ++ rest))
    (hafter : (ahead.watched ++ r.loop.watched).Perm (left ++ rest)) (hleft : left.Sublist seen)
    (hseen : handlesOf left + read = handlesOf seen)
    (hread : read.map Prod.snd =
      registered.map Prod.snd + (away.filterMap (·.release) : List ρ)) :
    Passage ⟨d, some t⟩ (t.proceed r ahead d) [] 0 0 where
  orderly := ho
  known := by
    refine ⟨(t.proceed r ahead d).watched, by rw [List.append_nil], ?_⟩
    have hsub : (left ++ rest).Sublist (seen ++ rest) := hleft.append (.refl rest)
    exact (hafter.map _).subperm.trans
      ((hsub.map _).subperm.trans (hbefore.symm.map _).subperm)
  ids := rfl
  next := hnext
  flow := by
    refine .read ?_ hread hheld ?_ rfl
    · show handlesOf (ahead.watched ++ r.loop.watched) + read =
        handlesOf (t.ahead.watched ++ d.loop.watched)
      rw [handlesOf_perm hbefore, handlesOf_perm hafter, handlesOf_append, handlesOf_append,
        ← hseen]
      abel
    · have hdrop : r.discarded.drop t.round.discarded.length = away := by
        rw [haway, List.drop_left]
      rw [places, Ticking.proceed, hdrop]
      dsimp only
      rw [Scheduled.handlesOf_append]
      refine congrArg (Scheduled.handlesOf d.tasks + ·) ?_
      rw [Scheduled.handlesOf, List.filterMap_map]
      rfl
  unlisted := by
    intro s hs
    rcases List.mem_append.1 hs with hs | hs
    · exact .inl hs
    · obtain ⟨node, -, rfl⟩ := List.mem_map.1 hs
      exact .inr fun _ _ he => by cases he

theorem pollEntry_passage {d : Daemon σ (Registry ρ)} {t : Ticking σ} {o : Outstanding ρ}
    {os : List (Outstanding ρ)} (h : (⟨d, some t⟩ : Moment σ).Sound)
    (ht : t.ahead = .inFlight (o :: os)) :
    Passage ⟨d, some t⟩
      (t.proceed (Round.pollEntry t.now (t.current d) o) (.inFlight os) d) [] 0 0 := by
  obtain ⟨ho, read, registered, hseen, hread, hheld⟩ :=
    Fate.of_custody t.now d.loop.timeout o h.orderly
  rw [Round.pollEntry_eq]
  refine proceed_passage [o.watched] (Fate.leaves o _)
    (os.map Outstanding.watched ++ d.loop.watched) ho hheld rfl ?_ ?_ ?_
    (Fate.leaves_sublist o _) hseen hread
  · simp only [Round.settle, List.flatMap_cons, List.flatMap_nil, List.append_nil]
    rfl
  · rw [ht]
    exact .rfl
  · simp only [Ahead.watched, Provisioner.watched, Round.settle, Ticking.current, Fate.leaves,
      List.flatMap_cons, List.flatMap_nil, List.append_nil, List.map_append]
    refine Multiset.coe_eq_coe.1 ?_
    simp only [← Multiset.coe_add]
    abel

theorem pollLate_passage {d : Daemon σ (Registry ρ)} {t : Ticking σ} {a : Abandoned ρ}
    {as : List (Abandoned ρ)} (h : (⟨d, some t⟩ : Moment σ).Sound)
    (ht : t.ahead = .late (a :: as)) :
    Passage ⟨d, some t⟩ (t.proceed (Round.pollLate (t.current d) a) (.late as) d) [] 0 0 := by
  obtain ⟨read, hseen, hread⟩ := a.late_custody
  rw [Round.pollLate_eq]
  refine proceed_passage [a.watched]
    (([a].filter (·.completion.isWaiting)).map Abandoned.watched)
    (as.map Abandoned.watched ++ d.loop.watched) h.orderly (add_zero _).symm rfl rfl ?_ ?_
    (List.filter_sublist.map _) hseen (hread.trans (zero_add _).symm)
  · rw [ht]
    exact .rfl
  · simp only [Ahead.watched, Provisioner.watched, Ticking.current, List.map_append]
    refine Multiset.coe_eq_coe.1 ?_
    simp only [← Multiset.coe_add]
    abel

theorem turn_passage {d : Daemon σ (Registry ρ)} {t : Ticking σ}
    (h : (⟨d, some t⟩ : Moment σ).Sound) (ht : t.ahead = .inFlight []) :
    Passage ⟨d, some t⟩
      (t.proceed { t.current d with loop := { d.loop with abandoned := [] } }
        (.late d.loop.abandoned) d) [] 0 0 := by
  refine proceed_passage [] [] d.loop.watched h.orderly (add_zero _).symm rfl
    (List.append_nil _).symm ?_ ?_ (.refl _) (add_zero _) rfl
  · rw [ht]
    exact .rfl
  · simp only [Ahead.watched, Provisioner.watched, List.map_nil, List.append_nil, List.nil_append]
    exact List.perm_append_comm

/-! ## Asking -/

omit [Freeing σ ρ] in
theorem watched_absorb {d : Daemon σ (Registry ρ)} {w w' : Work σ} {new : List (Outstanding ρ)}
    {es : List Event} (hg : w.Grows w' new es) (hw : w.loop = d.loop) (now : Time) :
    (⟨d.absorb now w', none⟩ : Moment σ).watched.Perm
      (d.loop.watched ++ new.map Outstanding.watched) := by
  show (w'.loop.watched).Perm _
  rw [hg.loop, hw]
  simp only [Provisioner.watched, List.map_append]
  refine Multiset.coe_eq_coe.1 ?_
  simp only [← Multiset.coe_add]
  abel

omit [Freeing σ ρ] in
/-- Nodes that boot have not been handed over. -/
theorem tasked_absorb (now : Time) (w : Work σ) (d : Daemon σ (Registry ρ)) :
    Scheduled.handlesOf (d.absorb now w).tasks = Scheduled.handlesOf d.tasks := by
  have hboots : Scheduled.handlesOf (w.boots.map fun b =>
      (⟨now.after b.2.delay, .boot b.1 b.2.node⟩ : Scheduled ρ)) = 0 := by
    rw [Scheduled.handlesOf, List.filterMap_map, Multiset.coe_eq_zero,
      List.filterMap_eq_nil_iff]
    exact fun b _ => rfl
  rw [Daemon.absorb]
  dsimp only
  rw [Scheduled.handlesOf_append, hboots, add_zero]
  rfl

omit [Freeing σ ρ] in
/-- Taking over work that has asked sources adds what they offered. -/
theorem absorb_passage {d : Daemon σ (Registry ρ)} {ticking : Option (Ticking σ)}
    {w w' : Work σ} {new : List (Outstanding ρ)} {es : List Event}
    (h : (⟨d, ticking⟩ : Moment σ).Sound) (hg : w.Grows w' new es) (hw : w.loop = d.loop)
    (hidle : (⟨d, ticking⟩ : Moment σ).watched = d.loop.watched) (now : Time) :
    Passage ⟨d, ticking⟩ ⟨d.absorb now w', none⟩ (new.map Outstanding.watched) 0 0 where
  orderly := h.orderly
  known := ⟨d.loop.watched, watched_absorb hg hw now, by rw [hidle]⟩
  ids := by
    rw [List.map_map, List.length_map, ← hw]
    exact hg.ids
  next := by
    show w'.loop.nextId = _
    rw [hg.loop, hw, List.length_map]
  flow := by
    refine .arrive ?_ rfl (tasked_absorb now w' d) rfl
    show handlesOf (⟨d.absorb now w', none⟩ : Moment σ).watched =
      handlesOf (⟨d, ticking⟩ : Moment σ).watched + (0 + handlesOf _)
    rw [handlesOf_perm (watched_absorb hg hw now), handlesOf_append, hidle, zero_add]
  unlisted := by
    intro s hs
    rcases List.mem_append.1 hs with hs | hs
    · exact .inl hs
    · obtain ⟨boot, -, rfl⟩ := List.mem_map.1 hs
      exact .inr fun _ _ he => by cases he

theorem finish_passage {d : Daemon σ (Registry ρ)} {t : Ticking σ}
    (h : (⟨d, some t⟩ : Moment σ).Sound) (ht : t.ahead = .late []) :
    ∃ new, Passage ⟨d, some t⟩ (t.advance d) new 0 0 := by
  obtain ⟨new, es, hg, hregistry, -⟩ := Round.evaluateAll_asks t.now t.demands (t.current d)
  have hidle : (⟨d, some t⟩ : Moment σ).watched = d.loop.watched := by
    show t.ahead.watched ++ d.loop.watched = d.loop.watched
    rw [ht]
    rfl
  have hend : t.advance d =
      ⟨d.absorb t.now ((t.current d).evaluateAll t.now t.demands).finish.toWork, none⟩ := by
    rw [Ticking.advance, ht]
    dsimp only
    have hsame : ((t.current d).evaluateAll t.now t.demands).finish.registry = d.registry :=
      hregistry
    rw [hsame]
  have hfinish : Work.Grows (t.current d).toWork
      ((t.current d).evaluateAll t.now t.demands).finish.toWork (new ++ []) _ :=
    hg.trans (.remark _ rfl)
  rw [hend]
  exact ⟨_, absorb_passage h hfinish rfl hidle t.now⟩

theorem advance_passage {d : Daemon σ (Registry ρ)} {t : Ticking σ}
    (h : (⟨d, some t⟩ : Moment σ).Sound) :
    ∃ new, Passage ⟨d, some t⟩ (t.advance d) new 0 0 := by
  cases ht : t.ahead with
  | inFlight rest =>
    cases rest with
    | nil =>
      refine ⟨[], ?_⟩
      rw [Ticking.advance, ht]
      exact turn_passage h ht
    | cons o os =>
      refine ⟨[], ?_⟩
      rw [Ticking.advance, ht]
      exact pollEntry_passage h ht
  | late rest =>
    cases rest with
    | nil => exact finish_passage h ht
    | cons a as =>
      refine ⟨[], ?_⟩
      rw [Ticking.advance, ht]
      exact pollLate_passage h ht

omit [Freeing σ ρ] in
theorem provision_passage {m : Moment σ} (h : m.Sound) (hidle : m.ticking = none) (now : Time)
    (actor : Actor) (source : String) (label : Option Label) (workload : Nat) :
    ∃ new, Passage m
      { m with daemon := (m.daemon.provisionManually now actor source label workload).2 }
      new 0 0 := by
  obtain ⟨d, ticking⟩ := m
  obtain rfl : ticking = none := hidle
  obtain ⟨new, es, hg⟩ := d.loop.provisionManually_grows now actor source label workload
  exact ⟨_, absorb_passage h hg rfl rfl now⟩

end Moment

end Fleet
