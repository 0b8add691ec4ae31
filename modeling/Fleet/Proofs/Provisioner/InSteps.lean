import Fleet.Proofs.Node.Telling
import Fleet.Proofs.Provisioner.Life
import Fleet.Proofs.Slots.Deed

/-!
# The life of planned capacity, step by step

The tick of a daemon is not one step.  Between any two of its looks nodes come up, so a node may
land after the look at which its capacity has timed out and before the look at abandoned capacity
in the same tick.  `Moment.Stirs` says all that one act can do to the capacity that is polled,
wherever the tick has it in hand, and to what is told of it; `step_stirs` shows it of every act.
At every moment the events therefore say of each id what they say between ticks (`Chronicled`),
and a node that lands before the tick has looked for it is reported by that tick
(`life_in_steps`).
-/

namespace Fleet

open Provisioner

/-! ## Looks -/

/-- What a tick under way looks at in one step. -/
inductive Look (ρ : Type) where
  | entry (now : Time) (o : Outstanding ρ)
  | late (a : Abandoned ρ)

/-- The abandoned entries that a tick has still to come to, when the loop holds `polled`. -/
def Ahead.toCome {ρ : Type} (polled : List (Abandoned ρ)) : Ahead ρ → List (Abandoned ρ)
  | inFlight _ => polled
  | late rest => rest

section Statements

variable {σ ρ : Type} [CapacitySource σ ρ]

def Ticking.look? (t : Ticking σ) : Option (Look ρ) :=
  match t.ahead with
  | .inFlight (o :: _) => some (.entry t.now o)
  | .late (a :: _) => some (.late a)
  | _ => none

namespace Moment

/-- What an act looks at. -/
def look? (m : Moment σ) : Act σ → Option (Look ρ)
  | .advance => m.ticking.bind Ticking.look?
  | _ => none

/-- What becomes of an entry that is looked at now. -/
def fate (m : Moment σ) (now : Time) (o : Outstanding ρ) : Fate ρ :=
  (Fate.of now m.daemon.loop.timeout m.daemon.registry o).1

/-- The provisioner with all that is polled, also what the tick has in hand. -/
def gathered (m : Moment σ) : Provisioner σ :=
  { m.daemon.loop with outstanding := m.outstanding, abandoned := m.abandoned }

/-- The tick under way has still to look at `a`. -/
def WillLook (m : Moment σ) (a : Abandoned ρ) : Prop :=
  a ∈ (m.ticking.map fun t => t.ahead.toCome m.daemon.loop.abandoned).getD []

end Moment

/-- What a step from `m` to `m'` that looks at `look` makes of an entry in flight. -/
structure Outstanding.AtStep (m m' : Moment σ) (look : Option (Look ρ)) (o : Outstanding ρ) :
    Prop where
  unseen : (∀ now, look ≠ some (.entry now o)) →
    o.planned.id ∈ m'.outstanding.map (·.planned.id) ∧
      marks o.planned.id m'.told = marks o.planned.id m.told
  /-- It meets its fate, by its completion, its age and the answer of the registry. -/
  seen : ∀ now, look = some (.entry now o) →
    o.Meets now m.daemon.loop.timeout (m.fate now o) ∧
    (o.planned.id ∈ m'.outstanding.map (·.planned.id) ↔ m.fate now o = .kept) ∧
    marks o.planned.id m'.told = marks o.planned.id m.told ++ (m.fate now o).said ∧
    (m.fate now o = .lapsed →
      ⟨o.planned.id, o.account.source, .waiting⟩ ∈ m'.abandoned ∧
        m'.WillLook ⟨o.planned.id, o.account.source, .waiting⟩)

/-- What a step makes of an abandoned entry. -/
structure Abandoned.AtStep (m m' : Moment σ) (look : Option (Look ρ)) (a : Abandoned ρ) :
    Prop where
  unseen : look ≠ some (.late a) →
    a.planned ∈ m'.abandoned.map (·.planned) ∧ marks a.planned m'.told = marks a.planned m.told
  seen : look = some (.late a) →
    (a.planned ∈ m'.abandoned.map (·.planned) ↔ a.completion = .waiting) ∧
    marks a.planned m'.told = marks a.planned m.told ++ a.said

/-- What becomes of an abandoned entry in any run that goes on from `m`. -/
structure Abandoned.Aftermath [Freeing σ ρ] (m : Moment σ) (a : Abandoned ρ) : Prop where
  gone : ∀ more, a.planned ∉ (m.run more).outstanding.map (·.planned.id)
  said : ∀ more, marks a.planned (m.run more).told ∈
    [[.requested, .timedOut], [.requested, .timedOut, .late]]
  /-- The next tick will look at it. -/
  begins : m.ticking = none → ∀ now, (m.begin now).WillLook a
  /-- A node that is there before the look is reported when the tick has come to its end. -/
  late : ∀ node, a.completion = .unread (.ok node) → m.WillLook a →
    ∀ more, (m.run more).ticking = none →
      marks a.planned (m.run more).told = [.requested, .timedOut, .late]
  /-- So is one that lands now, in the middle of a tick. -/
  lands : ∀ node, a.completion = .waiting → m.WillLook a →
    ∀ more, ((m.deliver a.planned (.ok node)).run more).ticking = none →
      marks a.planned ((m.deliver a.planned (.ok node)).run more).told =
        [.requested, .timedOut, .late]

end Statements

/-! ## Steps -/

namespace Moment

variable {σ ρ : Type} [CapacitySource σ ρ]

/-- All that an act can do to the capacity that is polled and to what is told of it. -/
inductive Stirs (m m' : Moment σ) : Option (Look ρ) → Prop where
  | looks {now : Time} {o : Outstanding ρ} (rest : List (Outstanding ρ))
      (before : m.outstanding.Perm (o :: rest))
      (after : m'.outstanding.Perm ((m.fate now o).keeps o ++ rest))
      (abandoned : m'.abandoned.Perm ((m.fate now o).abandons o ++ m.abandoned))
      (next : m'.daemon.loop.nextId = m.daemon.loop.nextId)
      (told : ∀ id, marks id m'.told =
        marks id m.told ++ if o.planned.id = id then (m.fate now o).said else [])
      (ahead : ∀ a, m.WillLook a ∨ a ∈ (m.fate now o).abandons o → m'.WillLook a) :
      Stirs m m' (some (.entry now o))
  | looksLate {a : Abandoned ρ} (rest : List (Abandoned ρ))
      (before : m.abandoned.Perm (a :: rest))
      (after : m'.abandoned.Perm ([a].filter (·.completion.isWaiting) ++ rest))
      (outstanding : m'.outstanding = m.outstanding)
      (next : m'.daemon.loop.nextId = m.daemon.loop.nextId)
      (told : ∀ id, marks id m'.told =
        marks id m.told ++ if a.planned = id then a.said else [])
      (ahead : ∀ a', a' ≠ a → m.WillLook a' → m'.WillLook a') :
      Stirs m m' (some (.late a))
  | asks (new : List (Outstanding ρ))
      (outstanding : m'.outstanding.Perm (m.outstanding ++ new))
      (abandoned : m'.abandoned.Perm m.abandoned)
      (ids : new.map (·.planned.id) = List.range' m.daemon.loop.nextId new.length)
      (next : m'.daemon.loop.nextId = m.daemon.loop.nextId + new.length)
      (told : ∀ id, marks id m'.told = marks id m.told ++
        if id ∈ List.range' m.daemon.loop.nextId new.length then [.requested] else [])
      (ahead : ∀ a, m.WillLook a → m'.WillLook a) :
      Stirs m m' none
  | resolves (id : PlannedId) (result : CompletionResult ρ)
      (outstanding : m'.outstanding = m.outstanding.map (·.resolved id result))
      (abandoned : m'.abandoned = m.abandoned.map (·.resolved id result))
      (next : m'.daemon.loop.nextId = m.daemon.loop.nextId)
      (told : m'.told = m.told)
      (ahead : ∀ a, m.WillLook a → m'.WillLook (a.resolved id result)) :
      Stirs m m' none

/-- An act that is about no capacity. -/
theorem Stirs.rests {m m' : Moment σ} (ho : m'.outstanding = m.outstanding)
    (ha : m'.abandoned = m.abandoned) (hn : m'.daemon.loop.nextId = m.daemon.loop.nextId)
    (ht : ∀ id, marks id m'.told = marks id m.told)
    (hw : ∀ a, m.WillLook a → m'.WillLook a) : Stirs m m' none :=
  .asks [] (by rw [ho, List.append_nil]) (by rw [ha]) rfl hn (by simpa using ht) hw

/-- The loop changes in no more than its sources. -/
theorem Stirs.ofDaemon {m : Moment σ} {d : Daemon σ (Registry ρ)} {sources : SourceSet σ}
    {es : List Event} (hd : d.loop = { m.daemon.loop with sources })
    (he : d.journal.events = m.daemon.journal.events ++ es) (hes : ∀ id, marks id es = []) :
    Stirs m { m with daemon := d } none := by
  refine .rests ?_ ?_ (by rw [hd]) (fun id => ?_) fun a ha => ?_
  · rw [outstanding, outstanding, hd]
  · rw [abandoned, abandoned, hd]
  · rw [told, told, he, marks_append, marks_append, marks_append, hes, List.append_nil]
  · rw [WillLook, hd]
    exact ha

theorem not_willLook {m : Moment σ} (h : m.ticking = none) (a : Abandoned ρ) :
    ¬ m.WillLook a := by
  rw [WillLook, h]
  exact List.not_mem_nil

theorem WillLook.mem_abandoned {m : Moment σ} {a : Abandoned ρ} (h : m.WillLook a) :
    a ∈ m.abandoned := by
  obtain ⟨d, ticking⟩ := m
  rcases ticking with _ | ⟨now, demands, round, rest | rest⟩
  · cases h
  · exact h
  · exact List.mem_append_left _ h

theorem begin_stirs (m : Moment σ) (now : Time) : Stirs m (m.begin now) none := by
  unfold begin
  split
  · exact .rests rfl rfl rfl (fun _ => rfl) fun _ ha => ha
  · rename_i hnone
    refine .rests ?_ ?_ rfl (fun id => ?_) fun a ha => absurd ha (not_willLook hnone a)
    · rw [outstanding, outstanding, hnone]
      exact List.append_nil _
    · rw [abandoned, abandoned, hnone]
      rfl
    · rw [told, told, hnone, marks_append, marks_append]
      rfl

/-! ### Results -/

section Deliver

variable (id : PlannedId) (result : CompletionResult ρ) (m : Moment σ)

theorem loop_deliver : (m.deliver id result).daemon.loop =
    { m.daemon.loop with
      outstanding := m.daemon.loop.outstanding.map (·.resolved id result)
      abandoned := m.daemon.loop.abandoned.map (·.resolved id result) } :=
  deliver_eq id result m.daemon.loop

theorem outstanding_deliver :
    (m.deliver id result).outstanding = m.outstanding.map (·.resolved id result) := by
  rw [outstanding, outstanding, loop_deliver, List.map_append]
  congr 1
  obtain ⟨d, ticking⟩ := m
  rcases ticking with _ | ⟨now, demands, round, rest | rest⟩ <;> rfl

theorem abandoned_deliver :
    (m.deliver id result).abandoned = m.abandoned.map (·.resolved id result) := by
  rw [abandoned, abandoned, loop_deliver, List.map_append]
  congr 1
  obtain ⟨d, ticking⟩ := m
  rcases ticking with _ | ⟨now, demands, round, rest | rest⟩ <;> rfl

theorem nextId_deliver : (m.deliver id result).daemon.loop.nextId = m.daemon.loop.nextId := by
  rw [loop_deliver]

theorem told_deliver : (m.deliver id result).told = m.told := by
  obtain ⟨d, ticking⟩ := m
  cases ticking <;> rfl

variable {id result m}

theorem WillLook.deliver {a : Abandoned ρ} (h : m.WillLook a) :
    (m.deliver id result).WillLook (a.resolved id result) := by
  rw [WillLook, loop_deliver]
  obtain ⟨d, ticking⟩ := m
  rcases ticking with _ | ⟨now, demands, round, rest | rest⟩
  · cases h
  · exact List.mem_map_of_mem h
  · exact List.mem_map_of_mem h

end Deliver

/-- Which tasks there are does not matter. -/
theorem deliver_stirs (id : PlannedId) (result : CompletionResult ρ) (m : Moment σ)
    (tasks : List (Scheduled ρ)) :
    Stirs m (({ m with daemon := { m.daemon with tasks } } : Moment σ).deliver id result) none :=
  .resolves id result (outstanding_deliver id result _) (abandoned_deliver id result _)
    (nextId_deliver id result _) (told_deliver id result _) fun _ ha => ha.deliver

/-- Work that asks sources, and is taken over when no tick has anything in hand. -/
theorem absorb_stirs {d : Daemon σ (Registry ρ)} {ticking : Option (Ticking σ)} {w w' : Work σ}
    {new : List (Outstanding ρ)} {es : List Event} (hg : w.Grows w' new es)
    (hw : w.loop = d.loop) (ho : (⟨d, ticking⟩ : Moment σ).outstanding = d.loop.outstanding)
    (ha : (⟨d, ticking⟩ : Moment σ).abandoned = d.loop.abandoned)
    (ht : (⟨d, ticking⟩ : Moment σ).told = d.journal.events ++ w.events)
    (hdone : ∀ a, ¬ (⟨d, ticking⟩ : Moment σ).WillLook a) (now : Time) :
    Stirs ⟨d, ticking⟩ ⟨d.absorb now w', none⟩ none := by
  refine .asks new ?_ ?_ ?_ ?_ (fun id => ?_) fun a ha => absurd ha (hdone a)
  · rw [ho, ← hw]
    show w'.loop.outstanding.Perm _
    rw [hg.loop]
  · rw [ha, ← hw]
    show w'.loop.abandoned.Perm _
    rw [hg.loop]
  · rw [← hw]
    exact hg.ids
  · show w'.loop.nextId = d.loop.nextId + _
    rw [hg.loop, hw]
  · rw [ht]
    show marks id (d.journal.events ++ w'.events ++ []) = _
    rw [List.append_nil, hg.events, ← List.append_assoc, marks_append _ _ es, hg.marks_eq, hw]

variable [Freeing σ ρ]

/-- A tick looks at the next entry in flight. -/
theorem pollEntry_stirs {d : Daemon σ (Registry ρ)} {t : Ticking σ} {o : Outstanding ρ}
    {os : List (Outstanding ρ)} (ht : t.ahead = .inFlight (o :: os)) :
    Stirs ⟨d, some t⟩ (t.proceed (Round.pollEntry t.now (t.current d) o) (.inFlight os) d)
      (some (.entry t.now o)) := by
  rw [Round.pollEntry_eq]
  let f := (⟨d, some t⟩ : Moment σ).fate t.now o
  refine .looks (os ++ d.loop.outstanding) ?_ ?_ ?_ rfl (fun id => ?_) fun a ha => ?_
  · show (t.ahead.outstanding ++ d.loop.outstanding).Perm _
    rw [ht]
    rfl
  · show (os ++ (d.loop.outstanding ++ [(o, f)].flatMap fun f => f.2.keeps f.1)).Perm _
    rw [List.flatMap_singleton, ← List.append_assoc]
    exact List.perm_append_comm
  · show (d.loop.abandoned ++ [(o, f)].flatMap fun f => f.2.abandons f.1).Perm
      (f.abandons o ++ (t.ahead.abandoned ++ d.loop.abandoned))
    rw [List.flatMap_singleton, ht]
    exact List.perm_append_comm
  · show marks id (d.journal.events ++
      (t.round.events ++ [(o, f)].flatMap fun f => f.2.events t.now f.1)) = _
    rw [List.flatMap_singleton, ← List.append_assoc, marks_append, Fate.marks_events]
    rfl
  · show a ∈ d.loop.abandoned ++ [(o, f)].flatMap fun f => f.2.abandons f.1
    rw [List.flatMap_singleton]
    refine List.mem_append.2 (ha.imp_left fun ha => ?_)
    change a ∈ t.ahead.toCome d.loop.abandoned at ha
    rwa [ht] at ha

/-- A tick looks at the next abandoned entry. -/
theorem pollLate_stirs {d : Daemon σ (Registry ρ)} {t : Ticking σ} {a : Abandoned ρ}
    {as : List (Abandoned ρ)} (ht : t.ahead = .late (a :: as)) :
    Stirs ⟨d, some t⟩ (t.proceed (Round.pollLate (t.current d) a) (.late as) d)
      (some (.late a)) := by
  rw [Round.pollLate_eq]
  refine .looksLate (as ++ d.loop.abandoned) ?_ ?_ ?_ rfl (fun id => ?_) fun a' hne ha => ?_
  · show (t.ahead.abandoned ++ d.loop.abandoned).Perm _
    rw [ht]
    rfl
  · show (as ++ (d.loop.abandoned ++ [a].filter (·.completion.isWaiting))).Perm _
    rw [← List.append_assoc]
    exact List.perm_append_comm
  · show [] ++ d.loop.outstanding = t.ahead.outstanding ++ d.loop.outstanding
    rw [ht]
    rfl
  · show marks id (d.journal.events ++ (t.round.events ++ a.events)) = _
    rw [← List.append_assoc, marks_append, Abandoned.marks_events]
    rfl
  · change a' ∈ t.ahead.toCome d.loop.abandoned at ha
    rw [ht] at ha
    exact (List.mem_cons.1 ha).resolve_left hne

theorem advance_stirs (d : Daemon σ (Registry ρ)) (t : Ticking σ) :
    Stirs ⟨d, some t⟩ (t.advance d) t.look? := by
  unfold Ticking.look? Ticking.advance
  cases ht : t.ahead with
  | inFlight rest =>
    cases rest with
    | nil =>
      -- the turn to abandoned capacity
      refine .rests ?_ ?_ rfl (fun _ => rfl) fun a ha => ?_
      · show [] ++ d.loop.outstanding = t.ahead.outstanding ++ d.loop.outstanding
        rw [ht]
        rfl
      · show d.loop.abandoned ++ [] = t.ahead.abandoned ++ d.loop.abandoned
        rw [ht]
        exact List.append_nil _
      · change a ∈ t.ahead.toCome d.loop.abandoned at ha
        rwa [ht] at ha
    | cons o os => exact pollEntry_stirs ht
  | late rest =>
    cases rest with
    | nil =>
      obtain ⟨new, es, hg, hregistry, -⟩ := Round.evaluateAll_asks t.now t.demands (t.current d)
      have hfinish : Work.Grows (t.current d).toWork
          ((t.current d).evaluateAll t.now t.demands).finish.toWork (new ++ []) _ :=
        hg.trans (.remark _ rfl)
      have hsame : ((t.current d).evaluateAll t.now t.demands).finish.registry = d.registry :=
        hregistry
      dsimp only
      rw [hsame]
      refine absorb_stirs hfinish rfl ?_ ?_ rfl (fun a ha => ?_) t.now
      · show t.ahead.outstanding ++ d.loop.outstanding = _
        rw [ht]
        rfl
      · show t.ahead.abandoned ++ d.loop.abandoned = _
        rw [ht]
        rfl
      · change a ∈ t.ahead.toCome d.loop.abandoned at ha
        rw [ht] at ha
        cases ha
    | cons a as => exact pollLate_stirs ht

/-- A task resolves capacity, frees a handle, or ends a removal, of which something is told. -/
theorem perform_stirs (m : Moment σ) (now : Time) (place : Nat) :
    Stirs m (m.perform now place) none := by
  have hquiet {d : Daemon σ (Registry ρ)} (hd : (m.picked place).daemon.SameBooks d) :
      d.journal.events = m.daemon.journal.events ++ [] :=
    hd.events.trans (List.append_nil _).symm
  unfold perform
  cases m.daemon.tasks[place]? with
  | none => exact .rests rfl rfl rfl (fun _ => rfl) fun _ ha => ha
  | some s =>
    show Stirs m ((m.picked place).runTask now s.task) none
    cases s.task with
    | boot id node =>
      dsimp only [runTask]
      split
      · exact deliver_stirs id _ m _
      · exact .ofDaemon (Daemon.freeNode_loop node.release (m.picked place).daemon)
          (hquiet (Daemon.freeNode_sameBooks _ _)) fun _ => rfl
    | reclaim node =>
      exact .ofDaemon (Daemon.runReclaim_loop now node (m.picked place).daemon)
        (hquiet (Daemon.runReclaim_sameBooks now node _)) fun _ => rfl
    | removal ticket removal =>
      exact .ofDaemon (Daemon.runRemoval_loop now ticket removal (m.picked place).daemon)
        (runRemoval_events ticket removal now _) fun _ => rfl

theorem step_stirs (m : Moment σ) (a : Act σ) : Stirs m (m.step a) (m.look? a) := by
  have hquiet {d : Daemon σ (Registry ρ)} (hd : d.journal = m.daemon.journal) :
      d.journal.events = m.daemon.journal.events ++ [] := by
    rw [hd, List.append_nil]
  cases a with
  | begin now => exact begin_stirs m now
  | advance =>
    obtain ⟨d, ticking⟩ := m
    cases ticking with
    | none => exact .rests rfl rfl rfl (fun _ => rfl) fun _ ha => ha
    | some t => exact advance_stirs d t
  | provision now actor source label workload =>
    obtain ⟨d, ticking⟩ := m
    cases ticking with
    | some t => exact .rests rfl rfl rfl (fun _ => rfl) fun _ ha => ha
    | none =>
      obtain ⟨_, _, hg⟩ := d.loop.provisionManually_grows now actor source label workload
      exact absorb_stirs hg rfl rfl rfl rfl (not_willLook rfl) now
  | deliver id result => exact deliver_stirs id result m m.daemon.tasks
  | changeSources sources => exact .ofDaemon rfl (hquiet rfl) fun _ => rfl
  | changeDemand board => exact .ofDaemon rfl (hquiet rfl) fun _ => rfl
  | consult c => exact .ofDaemon rfl (hquiet rfl) fun _ => rfl
  | expire now second id =>
    have hloop : (expire now second id m.daemon).loop = m.daemon.loop := by
      rw [expire_eq]
      split <;> rfl
    exact .ofDaemon hloop (hquiet (expire_journal now second id m.daemon)) fun _ => rfl
  | remove now actor id reason =>
    have hloop : (remove now actor id reason m.daemon).loop = m.daemon.loop := by
      unfold remove
      split <;> rfl
    exact .ofDaemon hloop (hquiet (remove_journal now actor id reason m.daemon)) fun _ => rfl
  | perform now place => exact perform_stirs m now place

end Moment

/-! ## What is told -/

namespace Moment

variable {σ ρ : Type} [CapacitySource σ ρ] {m m' : Moment σ} {look : Option (Look ρ)}
  {first : PlannedId}

theorem perm_ids_gathered (m : Moment σ) : m.gathered.ids.Perm (m.watched.map Prod.fst) := by
  obtain ⟨d, ticking⟩ := m
  have hout (os : List (Outstanding ρ)) :
      (os.map Outstanding.watched).map Prod.fst = os.map (·.planned.id) := List.map_map
  have hab (as : List (Abandoned ρ)) :
      (as.map Abandoned.watched).map Prod.fst = as.map (·.planned) := List.map_map
  rw [watched, ids, Provisioner.watched, List.map_append, List.map_append, hout, hab, gathered,
    outstanding, abandoned, List.map_append, List.map_append]
  rcases ticking with _ | ⟨now, demands, round, rest | rest⟩
  · exact .rfl
  · show (rest.map _ ++ _ ++ _).Perm ((rest.map Outstanding.watched).map Prod.fst ++ _)
    rw [hout, List.append_assoc]
    exact .rfl
  · show (_ ++ (rest.map _ ++ _)).Perm ((rest.map Abandoned.watched).map Prod.fst ++ _)
    rw [hab]
    exact List.perm_append_comm_assoc _ _ _

theorem Sound.nodup_gathered (h : m.Sound) : m.gathered.ids.Nodup :=
  m.perm_ids_gathered.nodup_iff.2 h.distinct

theorem Sound.numbered_gathered (h : m.Sound) :
    ∀ id ∈ m.gathered.ids, id < m.daemon.loop.nextId :=
  fun id hid => h.numbered id (m.perm_ids_gathered.mem_iff.1 hid)

namespace Stirs

theorem not_mem_others {o : Outstanding ρ} {rest : List (Outstanding ρ)}
    (hd : m.gathered.ids.Nodup) (before : m.outstanding.Perm (o :: rest)) :
    o.planned.id ∉ rest.map (·.planned.id) ++ m.abandoned.map (·.planned) := by
  have hids : m.gathered.ids.Perm
      (o.planned.id :: (rest.map (·.planned.id) ++ m.abandoned.map (·.planned))) :=
    (before.map _).append_right _
  exact (List.nodup_cons.1 (hids.nodup_iff.1 hd)).1

theorem not_mem_othersLate {a : Abandoned ρ} {rest : List (Abandoned ρ)}
    (hd : m.gathered.ids.Nodup) (before : m.abandoned.Perm (a :: rest)) :
    a.planned ∉ m.outstanding.map (·.planned.id) ++ rest.map (·.planned) := by
  have hids : m.gathered.ids.Perm
      (a.planned :: (m.outstanding.map (·.planned.id) ++ rest.map (·.planned))) :=
    ((before.map _).append_left _).trans List.perm_middle
  exact (List.nodup_cons.1 (hids.nodup_iff.1 hd)).1

theorem chronicled_looks {now : Time} {o : Outstanding ρ} {rest : List (Outstanding ρ)}
    (hd : m.gathered.ids.Nodup) (hc : Chronicled first m.gathered m.told)
    (before : m.outstanding.Perm (o :: rest))
    (after : m'.outstanding.Perm ((m.fate now o).keeps o ++ rest))
    (abandoned : m'.abandoned.Perm ((m.fate now o).abandons o ++ m.abandoned))
    (next : m'.daemon.loop.nextId = m.daemon.loop.nextId)
    (told : ∀ id, marks id m'.told =
      marks id m.told ++ if o.planned.id = id then (m.fate now o).said else []) :
    Chronicled first m'.gathered m'.told := by
  have hmem : o ∈ m.outstanding := before.mem_iff.2 List.mem_cons_self
  have hrequested : marks o.planned.id m.told = [.requested] := hc.inFlight o hmem
  have hfresh := not_mem_others hd before
  rw [List.mem_append, not_or] at hfresh
  generalize m.fate now o = f at *
  have hpolled (id : PlannedId) : id ∈ m'.gathered.ids ↔
      (id ∈ (f.keeps o).map (·.planned.id) ∨ id ∈ (f.abandons o).map (·.planned)) ∨
        id ∈ rest.map (·.planned.id) ∨ id ∈ m.abandoned.map (·.planned) := by
    rw [ids, List.mem_append]
    show id ∈ m'.outstanding.map _ ∨ id ∈ m'.abandoned.map _ ↔ _
    rw [(after.map _).mem_iff, (abandoned.map _).mem_iff, List.map_append, List.map_append,
      List.mem_append, List.mem_append, or_or_or_comm]
  have hbefore (id : PlannedId) : id ∈ m.gathered.ids ↔
      id = o.planned.id ∨ id ∈ rest.map (·.planned.id) ∨ id ∈ m.abandoned.map (·.planned) := by
    rw [ids, List.mem_append]
    show id ∈ m.outstanding.map _ ∨ _ ↔ _
    rw [(before.map _).mem_iff, List.map_cons, List.mem_cons, or_assoc]
    rfl
  refine hc.looked ((hbefore _).2 (.inl rfl)) next (fun id hne => ?_) (fun o' ho => ?_)
    (fun a ha => ?_) (fun hno => ?_) told
  · rw [hpolled, hbefore, or_iff_right hne, or_iff_right]
    cases f <;> simp [hne]
  · rcases List.mem_append.1 (after.mem_iff.1 ho) with ho | ho
    · cases f with
      | kept => exact ⟨List.mem_singleton.1 ho ▸ hmem, fun _ => rfl⟩
      | _ => cases ho
    · exact ⟨before.mem_iff.2 (List.mem_cons_of_mem o ho),
        fun he => absurd (he ▸ List.mem_map_of_mem ho) hfresh.1⟩
  · rcases List.mem_append.1 (abandoned.mem_iff.1 ha) with ha | ha
    · cases f with
      | lapsed =>
        cases List.mem_singleton.1 ha
        exact .inr ⟨rfl, by rw [hrequested]; rfl⟩
      | _ => cases ha
    · exact .inl ⟨fun he => hfresh.2 (he ▸ List.mem_map_of_mem ha), ha⟩
  · rw [hpolled, not_or, not_or] at hno
    rw [hrequested]
    cases f with
    | kept => exact absurd List.mem_cons_self hno.1.1
    | lapsed => exact absurd List.mem_cons_self hno.1.2
    | _ => simp [Fate.said, Mark.ends]

theorem chronicled_looksLate {a : Abandoned ρ} {rest : List (Abandoned ρ)}
    (hd : m.gathered.ids.Nodup) (hc : Chronicled first m.gathered m.told)
    (before : m.abandoned.Perm (a :: rest))
    (after : m'.abandoned.Perm ([a].filter (·.completion.isWaiting) ++ rest))
    (outstanding : m'.outstanding = m.outstanding)
    (next : m'.daemon.loop.nextId = m.daemon.loop.nextId)
    (told : ∀ id, marks id m'.told = marks id m.told ++ if a.planned = id then a.said else []) :
    Chronicled first m'.gathered m'.told := by
  have hmem : a ∈ m.abandoned := before.mem_iff.2 List.mem_cons_self
  have htimedOut : marks a.planned m.told = [.requested, .timedOut] := hc.abandoned a hmem
  have hfresh := not_mem_othersLate hd before
  rw [List.mem_append, not_or] at hfresh
  have hbefore (id : PlannedId) : id ∈ m.gathered.ids ↔
      id = a.planned ∨ id ∈ m.outstanding.map (·.planned.id) ∨ id ∈ rest.map (·.planned) := by
    rw [ids, List.mem_append]
    show _ ∨ id ∈ m.abandoned.map _ ↔ _
    rw [(before.map _).mem_iff, List.map_cons, List.mem_cons, or_left_comm]
    rfl
  have hpolled (id : PlannedId) : id ∈ m'.gathered.ids ↔
      id ∈ ([a].filter (·.completion.isWaiting)).map (·.planned) ∨
        id ∈ m.outstanding.map (·.planned.id) ∨ id ∈ rest.map (·.planned) := by
    rw [ids, List.mem_append]
    show id ∈ m'.outstanding.map _ ∨ id ∈ m'.abandoned.map _ ↔ _
    rw [outstanding, (after.map _).mem_iff, List.map_append, List.mem_append, or_left_comm]
  refine hc.looked ((hbefore _).2 (.inl rfl)) next (fun id hne => ?_) (fun o ho => ?_)
    (fun a' ha => ?_) (fun _ => ?_) told
  · rw [hpolled, hbefore, or_iff_right hne, or_iff_right]
    intro hid
    obtain ⟨a', ha', rfl⟩ := List.mem_map.1 hid
    exact hne (congrArg _ (List.mem_singleton.1 (List.mem_of_mem_filter ha')))
  · change o ∈ m'.outstanding at ho
    rw [outstanding] at ho
    exact ⟨ho, fun he => absurd (he ▸ List.mem_map_of_mem ho) hfresh.1⟩
  · rcases List.mem_append.1 (after.mem_iff.1 ha) with ha | ha
    · obtain ⟨ha, hwaits⟩ := List.mem_filter.1 ha
      cases List.mem_singleton.1 ha
      refine .inr ⟨rfl, ?_⟩
      rw [htimedOut, Abandoned.said_of_waiting (Completion.isWaiting_iff.1 hwaits)]
      rfl
    · exact .inl ⟨fun he => hfresh.2 (he ▸ List.mem_map_of_mem ha),
        before.mem_iff.2 (List.mem_cons_of_mem a ha)⟩
  · rw [htimedOut, Abandoned.said]
    cases a.lateNode? <;> simp [Mark.ends]

theorem chronicled (h : Stirs m m' look) (hd : m.gathered.ids.Nodup)
    (hc : Chronicled first m.gathered m.told) : Chronicled first m'.gathered m'.told := by
  cases h with
  | looks rest before after abandoned next told ahead =>
    exact chronicled_looks hd hc before after abandoned next told
  | looksLate rest before after outstanding next told ahead =>
    exact chronicled_looksLate hd hc before after outstanding next told
  | asks new outstanding abandoned ids next told ahead =>
    exact hc.asked outstanding abandoned ids next told
  | resolves id result outstanding abandoned next told ahead =>
    rw [told]
    refine hc.of_eq ?_ ?_ next
    · exact (congrArg _ outstanding).trans (map_id_resolved id result m.outstanding)
    · exact (congrArg _ abandoned).trans (map_planned_resolved id result m.abandoned)

/-! ### Ids -/

theorem nextId_le (h : Stirs m m' look) : m.daemon.loop.nextId ≤ m'.daemon.loop.nextId := by
  cases h with
  | asks new outstanding abandoned ids next told ahead =>
    rw [next]
    exact Nat.le_add_right _ _
  | _ =>
    rename m'.daemon.loop.nextId = _ => next
    exact Nat.le_of_eq next.symm

/-- Only a new id enters. -/
theorem not_mem_ids (h : Stirs m m' look) {id : PlannedId} (hlt : id < m.daemon.loop.nextId)
    (hno : id ∉ m.outstanding.map (·.planned.id)) : id ∉ m'.outstanding.map (·.planned.id) := by
  cases h with
  | @looks now o rest before after abandoned next told ahead =>
    rw [(before.map _).mem_iff, List.map_cons, List.mem_cons, not_or] at hno
    rw [(after.map _).mem_iff, List.map_append, List.mem_append, not_or]
    refine ⟨?_, hno.2⟩
    cases m.fate now o <;> simp [hno.1]
  | looksLate rest before after outstanding next told ahead => rwa [outstanding]
  | asks new outstanding abandoned ids next told ahead =>
    rw [(outstanding.map _).mem_iff, List.map_append, List.mem_append, ids, List.mem_range'_1,
      not_or]
    exact ⟨hno, fun hnew => absurd hlt (Nat.not_lt.2 hnew.1)⟩
  | resolves id' result outstanding abandoned next told ahead =>
    rwa [outstanding, map_id_resolved]

theorem marks_mono (h : Stirs m m' look) (id : PlannedId) :
    marks id m.told <+: marks id m'.told := by
  cases h with
  | resolves id' result outstanding abandoned next told ahead => rw [told]
  | _ =>
    rename ∀ id, marks id m'.told = _ => told
    rw [told]
    exact List.prefix_append _ _

/-! ### Entries -/

theorem ne_of_mem {o : Outstanding ρ} {a : Abandoned ρ} (hd : m.gathered.ids.Nodup)
    (ho : o ∈ m.outstanding) (ha : a ∈ m.abandoned) : o.planned.id ≠ a.planned :=
  (List.nodup_append.1 hd).2.2 _ (List.mem_map_of_mem ho) _ (List.mem_map_of_mem ha)

theorem atStep (h : Stirs m m' look) (hd : m.gathered.ids.Nodup)
    (hlt : ∀ id ∈ m.gathered.ids, id < m.daemon.loop.nextId) {o : Outstanding ρ}
    (ho : o ∈ m.outstanding) : o.AtStep m m' look where
  unseen hunseen := by
    cases h with
    | @looks now o' rest before after abandoned next told ahead =>
      have hfresh := not_mem_others hd before
      rcases List.mem_cons.1 (before.mem_iff.1 ho) with rfl | hrest
      · exact absurd rfl (hunseen now)
      · have hid := List.mem_map_of_mem (f := fun o : Outstanding ρ => o.planned.id) hrest
        refine ⟨(after.map _).mem_iff.2 ?_, ?_⟩
        · rw [List.map_append]
          exact List.mem_append_right _ hid
        · rw [told, if_neg, List.append_nil]
          exact fun he => hfresh (he ▸ List.mem_append_left _ hid)
    | looksLate rest before after outstanding next told ahead =>
      refine ⟨outstanding ▸ List.mem_map_of_mem ho, ?_⟩
      rw [told, if_neg, List.append_nil]
      exact (ne_of_mem hd ho (before.mem_iff.2 List.mem_cons_self)).symm
    | asks new outstanding abandoned ids next told ahead =>
      refine ⟨List.mem_map_of_mem (outstanding.mem_iff.2 (List.mem_append_left _ ho)), ?_⟩
      rw [told, if_neg, List.append_nil]
      have hold := hlt _ (mem_ids_of_outstanding (p := m.gathered) ho)
      exact fun hnew => absurd hold (Nat.not_lt.2 (List.mem_range'_1.1 hnew).1)
    | resolves id result outstanding abandoned next told ahead =>
      rw [outstanding, map_id_resolved, told]
      exact ⟨List.mem_map_of_mem ho, rfl⟩
  seen now hseen := by
    subst hseen
    cases h with
    | looks rest before after abandoned next told ahead =>
      have hfresh := not_mem_others hd before
      rw [List.mem_append, not_or] at hfresh
      have hmeets : o.Meets now m.daemon.loop.timeout (m.fate now o) :=
        Fate.of_meets now m.daemon.loop.timeout m.daemon.registry o
      refine ⟨hmeets, ?_, by rw [told, if_pos rfl], fun hlapsed => ?_⟩
      · rw [(after.map _).mem_iff, List.map_append, List.mem_append, or_iff_left hfresh.1]
        cases m.fate now o <;> simp
      · rw [hlapsed] at hmeets
        cases hmeets with
        | lapsed waiting late =>
          have hmem : ⟨o.planned.id, o.account.source, .waiting⟩ ∈
              (m.fate now o).abandons o := by
            rw [hlapsed, ← waiting]
            exact List.mem_cons_self
          exact ⟨abandoned.mem_iff.2 (List.mem_append_left _ hmem), ahead _ (.inr hmem)⟩

theorem atStepLate (h : Stirs m m' look) (hd : m.gathered.ids.Nodup)
    (hlt : ∀ id ∈ m.gathered.ids, id < m.daemon.loop.nextId) {a : Abandoned ρ}
    (ha : a ∈ m.abandoned) : a.AtStep m m' look where
  unseen hunseen := by
    cases h with
    | looks rest before after abandoned next told ahead =>
      refine ⟨List.mem_map_of_mem (abandoned.mem_iff.2 (List.mem_append_right _ ha)), ?_⟩
      rw [told, if_neg, List.append_nil]
      exact ne_of_mem hd (before.mem_iff.2 List.mem_cons_self) ha
    | @looksLate a' rest before after outstanding next told ahead =>
      have hfresh := not_mem_othersLate hd before
      rcases List.mem_cons.1 (before.mem_iff.1 ha) with rfl | hrest
      · exact absurd rfl hunseen
      · refine ⟨List.mem_map_of_mem (after.mem_iff.2 (List.mem_append_right _ hrest)), ?_⟩
        rw [told, if_neg, List.append_nil]
        exact fun he => hfresh (he ▸ List.mem_append_right _ (List.mem_map_of_mem hrest))
    | asks new outstanding abandoned ids next told ahead =>
      refine ⟨List.mem_map_of_mem (abandoned.mem_iff.2 ha), ?_⟩
      rw [told, if_neg, List.append_nil]
      have hold := hlt _ (mem_ids_of_abandoned (p := m.gathered) ha)
      exact fun hnew => absurd hold (Nat.not_lt.2 (List.mem_range'_1.1 hnew).1)
    | resolves id result outstanding abandoned next told ahead =>
      rw [abandoned, map_planned_resolved, told]
      exact ⟨List.mem_map_of_mem ha, rfl⟩
  seen hseen := by
    subst hseen
    cases h with
    | looksLate rest before after outstanding next told ahead =>
      have hfresh := not_mem_othersLate hd before
      rw [List.mem_append, not_or] at hfresh
      refine ⟨?_, by rw [told, if_pos rfl]⟩
      rw [(after.map _).mem_iff, List.map_append, List.mem_append, or_iff_left hfresh.2,
        ← Completion.isWaiting_iff]
      cases hw : a.completion.isWaiting <;> simp [hw]

/-- A node that is there is reported by the look, and until then the look is to come. -/
theorem comes (h : Stirs m m' look) (hc : Chronicled first m.gathered m.told)
    {a : Abandoned ρ} {node : RealizedNode ρ} (hready : a.completion = .unread (.ok node))
    (hw : m.WillLook a) :
    m'.WillLook a ∨ marks a.planned m'.told = [.requested, .timedOut, .late] := by
  cases h with
  | looks rest before after abandoned next told ahead => exact .inl (ahead a (.inl hw))
  | @looksLate a' rest before after outstanding next told ahead =>
    by_cases he : a = a'
    · subst he
      refine .inr ?_
      have htimedOut : marks a.planned m.told = [.requested, .timedOut] :=
        hc.abandoned a hw.mem_abandoned
      rw [told, if_pos rfl, htimedOut, Abandoned.said, Abandoned.lateNode?, hready]
      rfl
    · exact .inl (ahead a he hw)
  | asks new outstanding abandoned ids next told ahead => exact .inl (ahead a hw)
  | resolves id result outstanding abandoned next told ahead =>
    have hsame := a.resolved_of_not_waiting id result (by rw [hready]; rfl)
    exact .inl (hsame ▸ ahead a hw)

end Stirs

/-! ## Runs -/

variable [Freeing σ ρ]

theorem chronicled_run (h : m.Sound) (hc : Chronicled first m.gathered m.told)
    (acts : List (Act σ)) : Chronicled first (m.run acts).gathered (m.run acts).told := by
  induction acts generalizing m with
  | nil => exact hc
  | cons a acts ih => exact ih (h.step a) ((step_stirs m a).chronicled h.nodup_gathered hc)

theorem marks_run_mono (m : Moment σ) (acts : List (Act σ)) (id : PlannedId) :
    marks id m.told <+: marks id (m.run acts).told := by
  induction acts generalizing m with
  | nil => exact List.prefix_rfl
  | cons a acts ih => exact ((step_stirs m a).marks_mono id).trans (ih (m.step a))

theorem not_mem_ids_run {id : PlannedId} (hlt : id < m.daemon.loop.nextId)
    (hno : id ∉ m.outstanding.map (·.planned.id)) (acts : List (Act σ)) :
    id ∉ (m.run acts).outstanding.map (·.planned.id) := by
  induction acts generalizing m with
  | nil => exact hno
  | cons a acts ih =>
    have hstep := step_stirs m a
    exact ih (Nat.lt_of_lt_of_le hlt hstep.nextId_le) (hstep.not_mem_ids hlt hno)

/-- When the tick has come to its end it has reported every node that was there before its
look. -/
theorem marks_of_willLook (h : m.Sound) (hc : Chronicled first m.gathered m.told)
    {a : Abandoned ρ} {node : RealizedNode ρ} (hready : a.completion = .unread (.ok node))
    (hw : m.WillLook a) {acts : List (Act σ)} (hend : (m.run acts).ticking = none) :
    marks a.planned (m.run acts).told = [.requested, .timedOut, .late] := by
  induction acts generalizing m with
  | nil => exact absurd hw (not_willLook hend a)
  | cons act acts ih =>
    have hc' := (step_stirs m act).chronicled h.nodup_gathered hc
    rcases (step_stirs m act).comes hc hready hw with hw' | htold
    · exact ih (h.step act) hc' hw' hend
    · -- no more can be told of it
      have hrun := chronicled_run (h.step act) hc' acts
      have hmono := marks_run_mono (m.step act) acts a.planned
      rw [htold] at hmono
      have hstory := hrun.of_timedOut (List.IsPrefix.trans (by decide) hmono)
      refine (List.mem_pair.1 hstory).resolve_left fun he => ?_
      change [Mark.requested, .timedOut, .late] <+: marks a.planned ((m.step act).run acts).told
        at hmono
      rw [he] at hmono
      exact absurd hmono (by decide)

theorem aftermath (h : m.Sound) (hc : Chronicled first m.gathered m.told) {a : Abandoned ρ}
    (ha : a ∈ m.abandoned) : a.Aftermath m where
  gone := by
    refine not_mem_ids_run (h.numbered_gathered _ (mem_ids_of_abandoned ha)) fun hmem => ?_
    obtain ⟨o, ho, he⟩ := List.mem_map.1 hmem
    exact Stirs.ne_of_mem h.nodup_gathered ho ha he
  said more := by
    have htimedOut : marks a.planned m.told = [.requested, .timedOut] := hc.abandoned a ha
    exact (chronicled_run h hc more).of_timedOut (htimedOut ▸ marks_run_mono m more a.planned)
  begins hnone now := by
    rw [begin, hnone]
    rw [abandoned, hnone] at ha
    exact ha
  late node hready hw more hend := marks_of_willLook h hc hready hw hend
  lands node hwaits hw more hend := by
    have hstep := step_stirs m (.deliver a.planned (.ok node))
    have hresolved : a.resolved a.planned (.ok node) =
        { a with completion := .unread (.ok node) } := by
      rw [Abandoned.resolved, if_pos rfl, hwaits]
      rfl
    have hw' : (m.deliver a.planned (.ok node)).WillLook (a.resolved a.planned (.ok node)) :=
      hw.deliver
    rw [hresolved] at hw'
    exact marks_of_willLook (h.step (.deliver a.planned (.ok node)))
      (hstep.chronicled h.nodup_gathered hc) rfl hw' hend

end Moment

/-! ## From the start -/

/-- In every run of a daemon, however its ticks, sweeps, removals and tasks run into each other:
at every moment what the events have said of each id is one of its stories, as far as it has
got; a step makes of an entry in flight, or of an abandoned one, what its completion, its age
and the registry say at the look, and nothing without a look; what has left flight never
returns to it; and of what has timed out no more is told than that its node came late, which is
told in the tick under way if the node is there before the look. -/
theorem life_in_steps {σ ρ : Type} [CapacitySource σ ρ] [Freeing σ ρ] (sources : SourceSet σ)
    (guard : Guard) (timeout : Option Duration) (first : PlannedId) (store : Store)
    (orphanPolicy : Option Policy) (signal : Demand.Signal) (history : Nat)
    (acts : List (Moment.Act σ)) :
    let m := (Moment.start sources guard timeout first store orphanPolicy signal history).run acts
    Chronicled first m.gathered m.told ∧
      (∀ o ∈ m.outstanding, ∀ a, o.AtStep m (m.step a) (m.look? a)) ∧
      (∀ o ∈ m.abandoned, ∀ a, o.AtStep m (m.step a) (m.look? a)) ∧
      (∀ id < m.daemon.loop.nextId, id ∉ m.outstanding.map (·.planned.id) →
        ∀ more, id ∉ (m.run more).outstanding.map (·.planned.id)) ∧
      ∀ o ∈ m.abandoned, o.Aftermath m := by
  intro m
  have hstart := Moment.sound_start sources guard timeout first store orphanPolicy signal history
  have hm : m.Sound := hstart.run acts
  have hc : Chronicled first m.gathered m.told :=
    Moment.chronicled_run hstart (.of_start sources guard timeout) acts
  have hlt := hm.numbered_gathered
  exact ⟨hc, fun o ho a => (Moment.step_stirs m a).atStep hm.nodup_gathered hlt ho,
    fun o ho a => (Moment.step_stirs m a).atStepLate hm.nodup_gathered hlt ho,
    fun id hid hno more => Moment.not_mem_ids_run hid hno more,
    fun o ho => Moment.aftermath hm hc ho⟩

end Fleet
