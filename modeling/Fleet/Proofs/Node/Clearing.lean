import Fleet.Proofs.Node.Calls
import Fleet.Proofs.Node.Sweep

/-!
# What a sweep clears away

A sweep that nothing comes between looks at all nodes and then makes one call for each that is
due (`Registry.sweep_of_ok`).  Such a call, if it is answered, takes its node out exactly if the
policy in force condemns it, and it lets all others be, so that those are condemned after it if
they were before.  `Registry.Clears` says what a row of such calls comes to, failures among them,
and is built up call by call (`Registry.clears`).  What that makes of the daemon is
`Daemon.Cleared`, and `sweep_exact` shows it at every moment of every run.
-/

namespace Fleet

namespace Registry

variable {ρ : Type} {r r' : Registry ρ} {second : UInt64} {id : NodeId}

/-! ## One call -/

theorem verdict_eq_remove_iff {policy : Option Policy} {record : NodeRecord} {reason : String} :
    verdict policy record second = .remove reason ↔
      ∃ p, policy = some p ∧ p.check record second = .remove reason := by
  cases policy with
  | none => simp [verdict]
  | some p => simp [verdict]

/-- A call that is answered takes out what is condemned and nothing else. -/
theorem condemns_iff_of_ok (h : r.Coherent) {out : Option (DetachedNode ρ × String)}
    (hout : (r.detachExpired id second).1 = .ok out) (removal : Removal ρ) :
    r.Condemns second id removal ↔ out = some (removal.node, removal.reason) := by
  obtain ⟨⟨record, release⟩, reason⟩ := removal
  rw [detachExpired_ok h hout]
  constructor
  · rintro ⟨hrecord, hrelease, hverdict⟩
    dsimp only at hrecord hrelease hverdict
    rw [hrecord, hrelease, Option.bind_some, verdict_eq_remove_iff.2 hverdict]
  · intro heq
    obtain ⟨record', hrecord, hverdict⟩ := Option.bind_eq_some_iff.1 heq
    cases hdecided : verdict (r.inForce id) record' second with
    | keep =>
      rw [hdecided] at hverdict
      cases hverdict
    | remove reason' =>
      rw [hdecided] at hverdict
      cases hverdict
      exact ⟨hrecord, rfl, verdict_eq_remove_iff.1 hdecided⟩

/-- All that bears on one node is the same in two registries. -/
structure SameFor (r r' : Registry ρ) (id : NodeId) : Prop where
  nodes : r'.store.nodes.get? id = r.store.nodes.get? id
  handles : r'.handles.get? id = r.handles.get? id
  orphanPolicy : r'.orphanPolicy = r.orphanPolicy

theorem SameFor.condemns_iff (h : r.SameFor r' id) (removal : Removal ρ) :
    r'.Condemns second id removal ↔ r.Condemns second id removal := by
  have hrecord : r'.store.record? id = r.store.record? id := by
    rw [Store.record?, Table.read?, h.nodes]
    rfl
  have hrelease : r'.release? id = r.release? id := by
    rw [release?, h.handles]
    rfl
  have hforce : r'.inForce id = r.inForce id := by
    rw [inForce, h.handles, h.orphanPolicy]
    rfl
  constructor
  · rintro ⟨hr, hl, hv⟩
    exact ⟨hrecord ▸ hr, hrelease ▸ hl, hforce ▸ hv⟩
  · rintro ⟨hr, hl, hv⟩
    exact ⟨hrecord.symm ▸ hr, hrelease.symm ▸ hl, hforce.symm ▸ hv⟩

/-! ## Calls in a row -/

/-- The node that an answer has taken out. -/
def Call.expelled? : (call : Call ρ) → call.Answer → Option (NodeId × Removal ρ)
  | .detachExpired id _, Except.ok (some (node, reason)) => some (id, ⟨node, reason⟩)
  | _, _ => none

/-- The node that could not be looked at again or taken out. -/
def Call.unexpelled? : (call : Call ρ) → call.Answer → Option NodeId
  | .detachExpired id _, Except.error _ => some id
  | _, _ => none

/-- The nodes that the answers have taken out, in their order. -/
def Answered.expelled (history : List (Answered ρ)) : List (NodeId × Removal ρ) :=
  history.filterMap fun past => past.call.expelled? past.answer

/-- The nodes whose calls have failed. -/
def Answered.failures (history : List (Answered ρ)) : List NodeId :=
  history.filterMap fun past => past.call.unexpelled? past.answer

/-- The calls of a sweep that comes to these nodes. -/
def expiries (second : UInt64) (ids : List NodeId) : List (Call ρ) :=
  ids.map fun id => .detachExpired id second

theorem run_expiries_cons (r : Registry ρ) (second : UInt64) (id : NodeId) (ids : List NodeId) :
    r.run (expiries second (id :: ids)) =
      (⟨.detachExpired id second, (r.detachExpired id second).1⟩ ::
          ((r.detachExpired id second).2.run (expiries second ids)).1,
        ((r.detachExpired id second).2.run (expiries second ids)).2) := rfl

/-- What the calls of a sweep come to that comes to `ids`, which are distinct. -/
structure Clears (r : Registry ρ) (second : UInt64) (ids : List NodeId)
    (gone : List (NodeId × Removal ρ)) (failed : List NodeId) (r' : Registry ρ) : Prop where
  order : (gone.map Prod.fst).Sublist ids
  failures : failed.Sublist ids
  sound : ∀ g ∈ gone, r.Condemns second g.1 g.2
  complete : ∀ id ∈ ids, id ∉ failed → ∀ removal, r.Condemns second id removal →
    id ∈ gone.map Prod.fst
  apart : ∀ id ∈ failed, id ∉ gone.map Prod.fst
  nodes : ∀ id, r'.store.nodes.get? id =
    if id ∈ gone.map Prod.fst then none else r.store.nodes.get? id
  handles : ∀ id, r'.handles.get? id =
    if id ∈ gone.map Prod.fst then none else r.handles.get? id
  leaks : r'.store.leaks = r.store.leaks
  orphanPolicy : r'.orphanPolicy = r.orphanPolicy
  faults : r'.store.faults <:+ r.store.faults
  /-- Where no call is due to fail, none does. -/
  certain : r.store.faults = [] → (∀ id ∈ ids, ∃ removal, r.Condemns second id removal) →
    failed = []

theorem Clears.nil (r : Registry ρ) (second : UInt64) : r.Clears second [] [] [] r where
  order := .slnil
  failures := .slnil
  sound := nofun
  complete := nofun
  apart := nofun
  nodes _ := rfl
  handles _ := rfl
  leaks := rfl
  orphanPolicy := rfl
  faults := List.suffix_rfl
  certain _ _ := rfl

section Steps

variable {r₁ : Registry ρ} {ids : List NodeId} {gone : List (NodeId × Removal ρ)}
  {failed missed : List NodeId}

/-- A call that changes nothing may go before. -/
theorem Clears.of_still (h : r₁.Clears second ids gone failed r')
    (hstill : r.Undergoes r₁ .still) : r.Clears second ids gone failed r' := by
  have hsame (k : NodeId) : r.SameFor r₁ k :=
    ⟨congrArg (·.get? k) hstill.nodes, congrArg (·.get? k) hstill.handles, hstill.orphanPolicy⟩
  constructor
  case order => exact h.order
  case failures => exact h.failures
  case sound => exact fun g hg => ((hsame g.1).condemns_iff g.2).1 (h.sound g hg)
  case complete =>
    intro k hk hkept removal hcondemned
    exact h.complete k hk hkept removal (((hsame k).condemns_iff removal).2 hcondemned)
  case apart => exact h.apart
  case nodes => exact fun k => by rw [h.nodes, (hsame k).nodes]
  case handles => exact fun k => by rw [h.handles, (hsame k).handles]
  case leaks => exact h.leaks.trans hstill.leaks
  case orphanPolicy => exact h.orphanPolicy.trans hstill.orphanPolicy
  case faults => exact h.faults.trans hstill.faults
  case certain =>
    intro hcalls hall
    refine h.certain (List.suffix_nil.1 (hcalls ▸ hstill.faults)) fun k hk => ?_
    obtain ⟨removal, hcondemned⟩ := hall k hk
    exact ⟨removal, ((hsame k).condemns_iff removal).2 hcondemned⟩

/-- The first node stays if its call has failed or if it is not condemned. -/
theorem Clears.cons_kept (h : r.Clears second ids gone failed r') (hnew : id ∉ ids)
    (hmissed : missed = [id] ∨ missed = [] ∧ ∀ removal, ¬ r.Condemns second id removal)
    (hdue : r.store.faults = [] → ∀ removal, ¬ r.Condemns second id removal) :
    r.Clears second (id :: ids) gone (missed ++ failed) r' := by
  constructor
  case order => exact h.order.cons id
  case failures =>
    rcases hmissed with rfl | ⟨rfl, -⟩
    · exact h.failures.cons_cons id
    · exact h.failures.cons id
  case sound => exact h.sound
  case complete =>
    intro k hk hkept removal hcondemned
    rw [List.mem_append, not_or] at hkept
    rcases List.mem_cons.1 hk with rfl | hk
    · rcases hmissed with rfl | ⟨-, hspared⟩
      · exact absurd (List.mem_singleton_self k) hkept.1
      · exact absurd hcondemned (hspared removal)
    · exact h.complete k hk hkept.2 removal hcondemned
  case apart =>
    intro k hk hgone
    rcases List.mem_append.1 hk with hk | hk
    · rcases hmissed with rfl | ⟨rfl, -⟩
      · rw [List.mem_singleton.1 hk] at hgone
        exact hnew (h.order.subset hgone)
      · cases hk
    · exact h.apart k hk hgone
  case nodes => exact h.nodes
  case handles => exact h.handles
  case leaks => exact h.leaks
  case orphanPolicy => exact h.orphanPolicy
  case faults => exact h.faults
  case certain =>
    intro hcalls hall
    obtain ⟨removal, hcondemned⟩ := hall id List.mem_cons_self
    exact absurd hcondemned (hdue hcalls removal)

/-- A call that takes its node out has found it condemned, and leaves all others as they were. -/
theorem Clears.cons_gone (h : r₁.Clears second ids gone failed r') (hnew : id ∉ ids)
    {removal : Removal ρ} (hcondemned : r.Condemns second id removal)
    (hid : removal.node.record.id = id) (hout : r.Undergoes r₁ (.leaves removal)) :
    r.Clears second (id :: ids) ((id, removal) :: gone) failed r' := by
  have hnodes (k : NodeId) : r₁.store.nodes.get? k = if k = id then none else
      r.store.nodes.get? k := by
    rw [hout.nodes, nodesAfter, SortedMap.get?_erase, hid]
  have hhandles (k : NodeId) : r₁.handles.get? k = if k = id then none else
      r.handles.get? k := by
    rw [hout.handles, handlesAfter, SortedMap.get?_erase, hid]
  have hsame {k : NodeId} (hk : k ∈ ids) : r.SameFor r₁ k := by
    have hne : k ≠ id := fun he => hnew (he ▸ hk)
    exact ⟨by rw [hnodes, if_neg hne], by rw [hhandles, if_neg hne], hout.orphanPolicy⟩
  have hsplit {α : Type} (a : Option α) (k : NodeId) :
      (if k ∈ gone.map Prod.fst then none else if k = id then none else a) =
        if k ∈ (((id, removal) :: gone).map Prod.fst) then none else a := by
    have hmem : k ∈ ((id, removal) :: gone).map Prod.fst ↔ k = id ∨ k ∈ gone.map Prod.fst :=
      List.mem_cons
    by_cases hgone : k ∈ gone.map Prod.fst
    · rw [if_pos hgone, if_pos (hmem.2 (.inr hgone))]
    · rw [if_neg hgone]
      exact if_congr ((or_iff_left hgone).symm.trans hmem.symm) rfl rfl
  constructor
  case order => exact h.order.cons_cons id
  case failures => exact h.failures.cons id
  case sound =>
    intro g hg
    rcases List.mem_cons.1 hg with rfl | hg
    · exact hcondemned
    · refine ((hsame (h.order.subset (List.mem_map_of_mem hg))).condemns_iff g.2).1 ?_
      exact h.sound g hg
  case complete =>
    intro k hk hkept removal' hcondemned'
    rcases List.mem_cons.1 hk with rfl | hk
    · exact List.mem_cons_self
    · refine List.mem_cons_of_mem _ (h.complete k hk hkept removal' ?_)
      exact ((hsame hk).condemns_iff removal').2 hcondemned'
  case apart =>
    intro k hk hgone
    rcases List.mem_cons.1 hgone with rfl | hgone
    · exact hnew (h.failures.subset hk)
    · exact h.apart k hk hgone
  case nodes => exact fun k => by rw [h.nodes, hnodes, hsplit]
  case handles => exact fun k => by rw [h.handles, hhandles, hsplit]
  case leaks => exact h.leaks.trans hout.leaks
  case orphanPolicy => exact h.orphanPolicy.trans hout.orphanPolicy
  case faults => exact h.faults.trans hout.faults
  case certain =>
    intro hcalls hall
    have hcalls' : r₁.store.faults = [] := List.suffix_nil.1 (hcalls ▸ hout.faults)
    refine h.certain hcalls' fun k hk => ?_
    obtain ⟨removal', hcondemned'⟩ := hall k (List.mem_cons_of_mem id hk)
    exact ⟨removal', ((hsame hk).condemns_iff removal').2 hcondemned'⟩

end Steps

/-- The calls of a sweep, made one after the other, take out the nodes that are condemned before
the first of them, apart from those whose calls fail. -/
theorem clears (h : r.Coherent) (second : UInt64) {ids : List NodeId} (hids : ids.Nodup) :
    r.Clears second ids (Answered.expelled (r.run (expiries second ids)).1)
      (Answered.failures (r.run (expiries second ids)).1) (r.run (expiries second ids)).2 := by
  induction ids generalizing r with
  | nil => exact .nil r second
  | cons id ids ih =>
    obtain ⟨hnew, hids⟩ := List.nodup_cons.1 hids
    have hout := detachExpired_undergoes id second h.keyed
    have hrest := ih (hout.coherent h) hids
    rw [run_expiries_cons]
    cases ha : (r.detachExpired id second).1 with
    | error e =>
      rw [ha] at hout
      have hdue : r.store.faults = [] → ∀ removal, ¬ r.Condemns second id removal := by
        intro hcalls removal hcondemned
        rw [detachExpired_of_condemns h.keyed hcalls hcondemned] at ha
        cases ha
      have hkept : Clears r second (id :: ids) _ ([id] ++ _) _ :=
        (hrest.of_still hout).cons_kept hnew (.inl rfl) hdue
      exact hkept
    | ok out =>
      rw [ha] at hout
      rcases out with _ | ⟨node, reason⟩
      · have hspared (removal : Removal ρ) : ¬ r.Condemns second id removal := by
          rw [condemns_iff_of_ok h ha]
          exact nofun
        have hkept : Clears r second (id :: ids) _ ([] ++ _) _ :=
          (hrest.of_still hout).cons_kept hnew (.inr ⟨rfl, hspared⟩) fun _ => hspared
        exact hkept
      · have hcondemned : r.Condemns second id ⟨node, reason⟩ :=
          (condemns_iff_of_ok h ha ⟨node, reason⟩).2 rfl
        exact hrest.cons_gone hnew hcondemned (h.keyed id _ hcondemned.record) hout

/-- Once they are out, no node is condemned. -/
theorem Clears.spent {ids : List NodeId} {gone : List (NodeId × Removal ρ)}
    (h : r.Clears second ids gone [] r')
    (hall : ∀ id, (∃ removal, r.Condemns second id removal) → id ∈ ids) (id : NodeId)
    (removal : Removal ρ) : ¬ r'.Condemns second id removal := by
  intro hcondemned
  by_cases hgone : id ∈ gone.map Prod.fst
  · have hnone : r'.store.record? id = none := by
      rw [Store.record?, Table.read?, h.nodes, if_pos hgone]
      rfl
    rw [hcondemned.record] at hnone
    cases hnone
  · have hsame : r.SameFor r' id :=
      ⟨by rw [h.nodes, if_neg hgone], by rw [h.handles, if_neg hgone], h.orphanPolicy⟩
    have hbefore := (hsame.condemns_iff removal).1 hcondemned
    exact hgone (h.complete id (hall id ⟨removal, hbefore⟩) List.not_mem_nil removal hbefore)

theorem Clears.readable {ids failed : List NodeId} {gone : List (NodeId × Removal ρ)}
    (h : r.Clears second ids gone failed r')
    (hrows : r.store.nodes.Readable Store.decodeNode (·.id)) :
    r'.store.nodes.Readable Store.decodeNode (·.id) := by
  refine hrows.mono fun id row hrow => ?_
  rw [h.nodes] at hrow
  split at hrow
  · cases hrow
  · exact hrow

/-! ## A whole sweep -/

/-- The nodes that a look finds due are those that are condemned, each once and in order. -/
theorem due_of_ok (h : r.Coherent) {entries : List (NodeRecord × Decision)}
    (hentries : (r.evaluateRetention second).1 = .ok entries) :
    (Decision.due entries).Pairwise (fun a b => compare a b = .lt) ∧
      ∀ id, id ∈ Decision.due entries ↔ ∃ removal, r.Condemns second id removal := by
  obtain ⟨hkeys, hall⟩ := evaluateRetention_ok h hentries
  have hascending := r.store.nodes.ascending_keys
  constructor
  · rw [← hkeys] at hascending
    exact hascending.sublist (List.filter_sublist.map _)
  · intro id
    constructor
    · intro hid
      obtain ⟨entry, hentry, rfl⟩ := List.mem_map.1 hid
      obtain ⟨hmem, hremove⟩ := List.mem_filter.1 hentry
      obtain ⟨hrecord, hverdict⟩ := hall entry hmem
      cases hdecided : entry.2 with
      | keep =>
        rw [hdecided] at hremove
        cases hremove
      | remove reason =>
        exact ⟨⟨⟨entry.1, r.release? entry.1.id⟩, reason⟩, hrecord, rfl,
          verdict_eq_remove_iff.1 (hverdict.symm.trans hdecided)⟩
    · rintro ⟨removal, hrecord, -, hcondemned⟩
      have hkey : id ∈ r.store.nodes.keys := by
        obtain ⟨row, hrow, -⟩ := Table.read?_eq_some_iff.1 hrecord
        exact List.mem_map.2 ⟨(id, row), SortedMap.get?_eq_some_iff.1 hrow, rfl⟩
      rw [← hkeys] at hkey
      obtain ⟨entry, hentry, rfl⟩ := List.mem_map.1 hkey
      obtain ⟨hread, hverdict⟩ := hall entry hentry
      refine List.mem_map.2 ⟨entry, List.mem_filter.2 ⟨hentry, ?_⟩, rfl⟩
      have hsame : entry.1 = removal.node.record := Option.some.inj (hread.symm.trans hrecord)
      rw [← hsame] at hcondemned
      rw [hverdict, verdict_eq_remove_iff.2 hcondemned]
      rfl

theorem due_of_look {entries : List (NodeRecord × Decision)}
    (hentries : (r.evaluateRetention second).1 = .ok entries) :
    r.due second = Decision.due entries := by
  rw [due, hentries]

theorem mem_due_iff (h : r.Coherent) {entries : List (NodeRecord × Decision)}
    (hentries : (r.evaluateRetention second).1 = .ok entries) :
    id ∈ r.due second ↔ ∃ removal, r.Condemns second id removal := by
  rw [due_of_look hentries]
  exact (due_of_ok h hentries).2 id

theorem foldl_recheck (second : UInt64) (entries : List (NodeRecord × Decision))
    (s : Sweep (Registry ρ)) :
    entries.foldl (Sweep.recheck second) s =
      ⟨(s.registry.run (expiries second (Decision.due entries))).2, s.evaluated,
        s.removals ++
          Answered.expelled (s.registry.run (expiries second (Decision.due entries))).1⟩ := by
  induction entries generalizing s with
  | nil => simp [Decision.due, expiries, run, Answered.expelled]
  | cons entry entries ih =>
    rw [List.foldl_cons, ih]
    by_cases hremove : entry.2.isRemove = true
    · have hdue : Decision.due (entry :: entries) = entry.1.id :: Decision.due entries := by
        rw [Decision.due, List.filter_cons, if_pos hremove]
        rfl
      have hexpire : s.recheck second entry = s.expire second entry.1.id := if_pos hremove
      have hinstance : NodeRegistry.detachExpired entry.1.id second s.registry =
          s.registry.detachExpired entry.1.id second := rfl
      rw [hdue, run_expiries_cons, hexpire, Sweep.expire, hinstance]
      rcases s.registry.detachExpired entry.1.id second with ⟨e | _ | ⟨node, reason⟩, r⟩
      · rfl
      · rfl
      · simp [Answered.expelled, Call.expelled?]
    · have hdue : Decision.due (entry :: entries) = Decision.due entries := by
        rw [Decision.due, List.filter_cons, if_neg hremove]
        rfl
      have hkeep : s.recheck second entry = s := if_neg hremove
      rw [hdue, hkeep]

/-- The calls that a sweep makes. -/
def sweepCalls (second : UInt64) (r : Registry ρ) : List (Call ρ) :=
  .evaluateRetention second :: expiries second (r.due second)

theorem sweep_of_ok {entries : List (NodeRecord × Decision)}
    (hentries : (r.evaluateRetention second).1 = .ok entries) :
    Fleet.sweep second r =
      (.ok ⟨(r.run (r.sweepCalls second)).2, entries.length,
        Answered.expelled (r.run (r.sweepCalls second)).1⟩, (r.run (r.sweepCalls second)).2) := by
  have hanswer : NodeRegistry.evaluateRetention second r =
      (.ok entries, (r.evaluateRetention second).2) := Prod.ext hentries rfl
  rw [Fleet.sweep, hanswer]
  dsimp only
  rw [foldl_recheck, sweepCalls, due_of_look hentries]
  rfl

/-- What all the calls of a sweep come to. -/
theorem sweep_clears (h : r.Coherent) {entries : List (NodeRecord × Decision)}
    (hentries : (r.evaluateRetention second).1 = .ok entries) :
    r.Clears second (r.due second) (Answered.expelled (r.run (r.sweepCalls second)).1)
      (Answered.failures (r.run (r.sweepCalls second)).1) (r.run (r.sweepCalls second)).2 := by
  have hstill := r.evaluateRetention_undergoes second
  have hids : (r.due second).Nodup := by
    rw [due_of_look hentries]
    refine (due_of_ok h hentries).1.imp ?_
    rintro id _ hlt rfl
    simp at hlt
  exact (clears (hstill.coherent h) second hids).of_still hstill

/-- A call that changes nothing where none is due to fail leaves the registry as it is. -/
theorem Undergoes.eq_of_calls (h : r.Undergoes r' .still) (hcalls : r.store.faults = []) :
    r' = r := by
  obtain ⟨⟨nodes, leaks, faults⟩, handles, orphanPolicy⟩ := r
  obtain ⟨⟨nodes', leaks', faults'⟩, handles', orphanPolicy'⟩ := r'
  obtain ⟨-, hnodes, hleaks, hhandles, hpolicy, hfaults⟩ := h
  cases hcalls
  cases List.suffix_nil.1 hfaults
  cases hnodes
  cases hleaks
  cases hhandles
  cases hpolicy
  rfl

/-- Where no node is condemned, a sweep changes nothing. -/
theorem sweep_idle (h : r.Coherent) (hrows : r.store.nodes.Readable Store.decodeNode (·.id))
    (hcalls : r.store.faults = []) (hnone : ∀ id removal, ¬ r.Condemns second id removal) :
    ∃ evaluated, Fleet.sweep second r = (.ok ⟨r, evaluated, []⟩, r) := by
  obtain ⟨entries, hentries⟩ :=
    evaluateRetention_of_readable second (by rw [hcalls]; rfl) hrows
  have hdue : r.due second = [] := by
    refine List.eq_nil_iff_forall_not_mem.2 fun id hid => ?_
    obtain ⟨removal, hcondemned⟩ := (mem_due_iff h hentries).1 hid
    exact hnone id removal hcondemned
  have hsame : (r.evaluateRetention second).2 = r :=
    (r.evaluateRetention_undergoes second).eq_of_calls hcalls
  have hrun : r.run (r.sweepCalls second) =
      ([⟨.evaluateRetention second, (r.evaluateRetention second).1⟩], r) := by
    rw [sweepCalls, hdue]
    show (_, (r.evaluateRetention second).2) = _
    rw [hsame]
    rfl
  refine ⟨entries.length, ?_⟩
  rw [sweep_of_ok hentries, hrun]
  rfl

end Registry

/-- The releases of a sweep get the next tickets, one by one. -/
theorem Daemon.beginReleases_eq {σ ρ : Type} [CapacitySource σ ρ] [Freeing σ ρ] (now : Time)
    (removals : List (Removal ρ)) (d : Daemon σ (Registry ρ)) :
    d.beginReleases now removals = (List.range' d.nextTicket removals.length, { d with
      tasks := d.tasks ++ (ticketed d.nextTicket removals).map fun t =>
        ⟨freeAt σ now t.2.node.release, .removal t.1 t.2⟩
      nextTicket := d.nextTicket + removals.length }) := by
  induction removals generalizing d with
  | nil => simp [beginReleases, ticketed]
  | cons removal removals ih =>
    simp only [beginReleases, ih, beginRelease]
    simp [ticketed, List.range'_succ, Nat.add_assoc, Nat.add_comm 1]

variable {σ ρ : Type} [CapacitySource σ ρ] [Freeing σ ρ]

theorem Daemon.sweep_of_look (now : Time) {second : UInt64} {d : Daemon σ (Registry ρ)}
    {entries : List (NodeRecord × Decision)}
    (hentries : (d.registry.evaluateRetention second).1 = .ok entries)
    {gone : List (NodeId × Removal ρ)} {r : Registry ρ}
    (hgone : gone = Registry.Answered.expelled (d.registry.run (d.registry.sweepCalls second)).1)
    (hr : r = (d.registry.run (d.registry.sweepCalls second)).2) :
    d.sweep now second =
      (.ok ⟨entries.length, gone.map Prod.fst, List.range' d.nextTicket gone.length⟩, { d with
        registry := r
        tasks := d.tasks ++ (ticketed d.nextTicket (gone.map Prod.snd)).map fun t =>
          ⟨freeAt σ now t.2.node.release, .removal t.1 t.2⟩
        nextTicket := d.nextTicket + gone.length }) := by
  subst hgone hr
  rw [sweep, Registry.sweep_of_ok hentries]
  dsimp only
  rw [beginReleases_eq, List.length_map]

/-- Where no node is condemned, a sweep starts nothing. -/
theorem Daemon.sweep_idle (now : Time) {second : UInt64} {d : Daemon σ (Registry ρ)}
    (h : d.registry.Coherent)
    (hrows : d.registry.store.nodes.Readable Store.decodeNode (·.id))
    (hcalls : d.registry.store.faults = [])
    (hnone : ∀ id removal, ¬ d.registry.Condemns second id removal) :
    ∃ report, d.sweep now second = (.ok report, d) ∧ report.removed = [] ∧
      report.tickets = [] := by
  obtain ⟨evaluated, hsweep⟩ := Registry.sweep_idle h hrows hcalls hnone
  refine ⟨⟨evaluated, [], []⟩, ?_, rfl, rfl⟩
  rw [sweep, hsweep]
  rfl

/-- What a sweep makes of a daemon: it takes out `removals`, and for `failed` the call that would
take the node out has failed. -/
structure Daemon.Cleared (now : Time) (second : UInt64) (d d' : Daemon σ (Registry ρ))
    (report : SweepReport) (removals : List (Removal ρ)) (failed : List NodeId) : Prop where
  /-- The registry is asked to look at all nodes, and then about each that is due. -/
  calls : d'.registry = (d.registry.run (d.registry.sweepCalls second)).2
  failures : failed = Registry.Answered.failures (d.registry.run (d.registry.sweepCalls second)).1
  evaluated : report.evaluated = d.registry.store.nodes.keys.length
  removed : report.removed = removals.map (·.node.record.id)
  exact : ∀ id, id ∈ report.removed ↔
    (∃ removal, d.registry.Condemns second id removal) ∧ id ∉ failed
  missed : ∀ id ∈ failed, ∃ removal, d.registry.Condemns second id removal
  ascending : report.removed.Pairwise fun a b => compare a b = .lt
  condemned : ∀ removal ∈ removals,
    d.registry.Condemns second removal.node.record.id removal
  tickets : report.tickets = List.range' d.nextTicket removals.length
  daemon : d' = { d with
    registry := d'.registry
    tasks := d.tasks ++ (ticketed d.nextTicket removals).map fun t =>
      ⟨Daemon.freeAt σ now t.2.node.release, .removal t.1 t.2⟩
    nextTicket := d.nextTicket + removals.length }
  nodes : ∀ id, d'.registry.store.nodes.get? id =
    if id ∈ report.removed then none else d.registry.store.nodes.get? id
  handles : ∀ id, d'.registry.handles.get? id =
    if id ∈ report.removed then none else d.registry.handles.get? id
  spared : d'.registry.store.leaks = d.registry.store.leaks ∧
    d'.registry.orphanPolicy = d.registry.orphanPolicy
  certain : d.registry.store.faults = [] → failed = []
  /-- Where no call is due to fail, another sweep at the same second changes nothing. -/
  again : d.registry.store.faults = [] → ∀ later, ∃ report',
    d'.sweep later second = (.ok report', d') ∧ report'.removed = [] ∧ report'.tickets = []

theorem Daemon.sweep_cleared (now : Time) {second : UInt64} {d : Daemon σ (Registry ρ)}
    (h : d.registry.Coherent)
    (hrows : d.registry.store.nodes.Readable Store.decodeNode (·.id))
    (hlook : d.registry.store.faults.head?.join = none) :
    ∃ report removals failed, (d.sweep now second).1 = .ok report ∧
      d.Cleared now second (d.sweep now second).2 report removals failed := by
  obtain ⟨entries, hentries⟩ := Registry.evaluateRetention_of_readable second hlook hrows
  have hclears := Registry.sweep_clears h hentries
  have hcoherent := h.run (d.registry.sweepCalls second)
  have hdue (id : NodeId) : id ∈ d.registry.due second ↔ _ := Registry.mem_due_iff h hentries
  have hsweep := d.sweep_of_look now hentries rfl rfl
  revert hclears hcoherent
  generalize hfailed :
    Registry.Answered.failures (d.registry.run (d.registry.sweepCalls second)).1 = failed
  generalize hgone :
    Registry.Answered.expelled (d.registry.run (d.registry.sweepCalls second)).1 = gone at hsweep
  generalize hr : (d.registry.run (d.registry.sweepCalls second)).2 = r at hsweep
  intro hclears hcoherent
  have hids : gone.map Prod.fst = (gone.map Prod.snd).map (·.node.record.id) := by
    rw [List.map_map]
    refine List.map_congr_left fun g hg => ?_
    exact (h.keyed g.1 _ (hclears.sound g hg).record).symm
  have hcertain : d.registry.store.faults = [] → failed = [] := by
    intro hcalls
    exact hclears.certain hcalls fun id => (hdue id).1
  refine ⟨_, gone.map Prod.snd, failed, congrArg Prod.fst hsweep, ?_⟩
  rw [hsweep]
  constructor
  case calls => exact hr.symm
  case failures => exact hfailed.symm
  case evaluated =>
    rw [← (Registry.evaluateRetention_ok h hentries).1, List.length_map]
  case removed => exact hids
  case exact =>
    intro id
    constructor
    · intro hid
      have hcondemned := (hdue id).1 (hclears.order.subset hid)
      exact ⟨hcondemned, fun hmissed => hclears.apart id hmissed hid⟩
    · rintro ⟨⟨removal, hcondemned⟩, hkept⟩
      exact hclears.complete id ((hdue id).2 ⟨removal, hcondemned⟩) hkept removal hcondemned
  case missed => exact fun id hid => (hdue id).1 (hclears.failures.subset hid)
  case ascending =>
    have horder := hclears.order
    rw [Registry.due_of_look hentries] at horder
    exact (Registry.due_of_ok h hentries).1.sublist horder
  case condemned =>
    intro removal hremoval
    obtain ⟨g, hg, rfl⟩ := List.mem_map.1 hremoval
    have hcondemned := hclears.sound g hg
    rwa [← h.keyed g.1 _ hcondemned.record] at hcondemned
  case tickets => rw [List.length_map]
  case daemon => rw [List.length_map]
  case nodes => exact hclears.nodes
  case handles => exact hclears.handles
  case spared => exact ⟨hclears.leaks, hclears.orphanPolicy⟩
  case certain => exact hcertain
  case again =>
    intro hcalls later
    obtain rfl := hcertain hcalls
    have hspent := hclears.spent fun id => (hdue id).2
    have hcalls' : r.store.faults = [] := List.suffix_nil.1 (hcalls ▸ hclears.faults)
    exact Daemon.sweep_idle later (hr ▸ hcoherent.1) (hclears.readable hrows) hcalls' hspent

/-- At any moment of any run over a store whose rows can be read, a sweep that nothing comes
between is answered unless it cannot list the nodes.  It looks at all of them and takes out, in
the order of their ids and each once, those that the policy in force condemns, apart from those
whose own call fails; these stay as they are, and so do all others.  One release is started for
each node that is out, in this order, and no other work.  Where no call fails, all that are
condemned go, and another sweep at the same second changes nothing. -/
theorem sweep_exact (sources : SourceSet σ) (guard : Guard) (timeout : Option Duration)
    (nextId : PlannedId) (store : Store) (orphanPolicy : Option Policy) (signal : Demand.Signal)
    (history : Nat) (hrows : store.nodes.Readable Store.decodeNode (·.id))
    (acts : List (Moment.Act σ)) (now : Time) (second : UInt64) :
    let start : Moment σ := .start sources guard timeout nextId store orphanPolicy signal history
    let d := (start.run acts).daemon
    d.registry.store.faults.head?.join = none →
      ∃ report removals failed, (d.sweep now second).1 = .ok report ∧
        d.Cleared now second (d.sweep now second).2 report removals failed := by
  intro start d hlook
  have hstart : start.Steady :=
    Moment.steady_start hrows.keyed sources guard timeout nextId orphanPolicy signal history
  have hcoherent : d.registry.Coherent :=
    hstart.run_kept (P := (·.Coherent)) (fun hundergoes => hundergoes.coherent)
      (Registry.coherent_ofStore hrows.keyed orphanPolicy) acts
  have hreadable : d.registry.store.nodes.Readable Store.decodeNode (·.id) :=
    hstart.run_kept (P := fun r => r.store.nodes.Readable Store.decodeNode (·.id))
      (fun hundergoes => hundergoes.readable) hrows acts
  exact d.sweep_cleared now hcoherent hreadable hlook

namespace Pair

def record (id : NodeId) : NodeRecord := .fresh id "east" none 1 1000 ""

/-- Two nodes of an earlier run.  The listing goes through, and the call after it fails. -/
def store : Store where
  nodes := (SortedMap.empty.insert "a" (record "a").toJson.compact).insert "b"
    (record "b").toJson.compact
  leaks := .empty
  faults := [none, some (.storage "disk full")]

theorem readable_store : store.nodes.Readable Store.decodeNode (·.id) :=
  (Table.Readable.empty.insert (a := record "a") (Store.decodeNode_compact _)).insert
    (a := record "b") (Store.decodeNode_compact _)

def start : Moment Source :=
  .start ⟨[], List.nodup_nil⟩ .allowAll none 0 store (some (.condemn "retired")) .board 16

def daemon : Daemon Source (Registry ReleaseHandle) := start.daemon

/-- The registry when some of the calls to come are behind it. -/
def after (faults : List (Option StateError)) : Registry ReleaseHandle :=
  .ofStore { store with faults } (some (.condemn "retired"))

theorem listNodes_store : store.listNodes = (.ok [record "a", record "b"],
    { store with faults := [some (.storage "disk full")] }) := by
  have hall : Store.decodeAll Store.decodeNode
      [(record "a").toJson.compact, (record "b").toJson.compact] =
        .ok [record "a", record "b"] := by
    rw [Store.decodeAll, Store.decodeAll, Store.decodeNode_compact, Store.decodeNode_compact]
    rfl
  exact Prod.ext hall rfl

theorem look : daemon.registry.evaluateRetention 2000 =
    (.ok [(record "a", .remove "retired"), (record "b", .remove "retired")],
      after [some (.storage "disk full")]) := by
  have hlisted : daemon.registry.list = (.ok [record "a", record "b"],
      after [some (.storage "disk full")]) := by
    have hstore : daemon.registry.store.listNodes = _ := listNodes_store
    rw [Registry.list, Registry.onStore, hstore]
    rfl
  rw [Registry.evaluateRetention, hlisted]
  rfl

theorem condemned (faults : List (Option StateError)) :
    (after faults).Condemns 2000 "b" ⟨⟨record "b", none⟩, "retired"⟩ := by
  have hrecord : store.record? "b" = some (record "b") :=
    (Table.read?_insert (Store.decodeNode_compact _) _ _).trans (if_pos rfl)
  exact ⟨hrecord, rfl, .condemn "retired", rfl, rfl⟩

/-- The first node cannot be taken out. -/
theorem failures : Registry.Answered.failures
    (daemon.registry.run (daemon.registry.sweepCalls 2000)).1 = ["a"] := by
  have hdue : daemon.registry.due 2000 = ["a", "b"] := by
    rw [Registry.due, look]
    rfl
  have hfirst : (after [some (.storage "disk full")]).detachExpired "a" 2000 =
      (.error (.state (.storage "disk full")), after []) := rfl
  have hkeyed : (after []).store.Keyed := readable_store.keyed
  have hsecond := Registry.detachExpired_of_condemns hkeyed rfl (condemned [])
  have hlook : (Registry.Call.evaluateRetention 2000).perform daemon.registry = _ := look
  rw [Registry.sweepCalls, hdue, Registry.run_cons, hlook]
  dsimp only
  rw [Registry.run_expiries_cons, hfirst, Registry.run_expiries_cons, hsecond]
  rfl

end Pair

theorem sweep_exact_pair :
    Pair.store.nodes.Readable Store.decodeNode (·.id) ∧
      Pair.daemon.registry.store.faults.head?.join = none ∧
        ∃ report removals, (Pair.daemon.sweep ⟨0⟩ 2000).1 = .ok report ∧
          Pair.daemon.Cleared ⟨0⟩ 2000 (Pair.daemon.sweep ⟨0⟩ 2000).2 report removals ["a"] ∧
            "a" ∉ report.removed ∧ "b" ∈ report.removed := by
  obtain ⟨report, removals, failed, hreport, hcleared⟩ := sweep_exact (σ := Source)
    ⟨[], List.nodup_nil⟩ .allowAll none 0 Pair.store (some (.condemn "retired")) .board 16
    Pair.readable_store [] ⟨0⟩ 2000 rfl
  obtain rfl : failed = ["a"] := hcleared.failures.trans Pair.failures
  refine ⟨Pair.readable_store, rfl, report, removals, hreport, hcleared, ?_, ?_⟩
  · intro hgone
    exact ((hcleared.exact "a").1 hgone).2 List.mem_cons_self
  · exact (hcleared.exact "b").2 ⟨⟨_, Pair.condemned _⟩, by decide⟩

end Fleet
