import Fleet.Proofs.Node.Removal
import Fleet.Source.Kind

/-!
# Sweeps that others come between

A sweep looks at all nodes at once and comes to those that were due to go one after the other,
while others report, remove and register.  What it does to a node when it comes to it hangs on
the record and the policy that are there by then (`Registry.Rechecked`), whatever the first look
found.  So a node that has work by then stays, and so does one that only the policy for orphans
keeps (`sweep_rechecks`).
-/

namespace Fleet

namespace Registry

variable {ρ : Type}

/-- By now `removal` is due: it is of the record that is there under `id`, with its handle, and
for the reason that the policy in force gives. -/
structure Condemns (r : Registry ρ) (second : UInt64) (id : NodeId) (removal : Removal ρ) :
    Prop where
  record : r.store.record? id = some removal.node.record
  release : removal.node.release = r.release? id
  verdict : ∃ policy, r.inForce id = some policy ∧
    policy.check removal.node.record second = .remove removal.reason

/-- What a sweep does when it comes to `id`: it lets all nodes be, or takes out this one. -/
inductive Rechecked (r : Registry ρ) (second : UInt64) (id : NodeId) (r' : Registry ρ) :
    List (Removal ρ) → Prop where
  | kept (nodes : r'.store.nodes = r.store.nodes) (handles : r'.handles = r.handles) :
    r.Rechecked second id r' []
  | gone {removal : Removal ρ} (condemned : r.Condemns second id removal)
    (nodes : r'.store.nodes = r.store.nodes.erase id) (handles : r'.handles = r.handles.erase id) :
    r.Rechecked second id r' [removal]

theorem detachExpired_rechecked (id : NodeId) (second : UInt64) {r : Registry ρ}
    (hkeyed : r.store.Keyed) : r.Rechecked second id (r.detachExpired id second).2
      (Change.ofExpiry (r.detachExpired id second).1).departed := by
  have hout := detachExpired_undergoes id second hkeyed
  cases hd : r.detachExpired id second with
  | mk answer r' =>
    rw [hd] at hout
    rcases answer with e | _ | ⟨node, reason⟩
    · exact .kept hout.nodes hout.handles
    · exact .kept hout.nodes hout.handles
    · obtain ⟨hrecord, hid, hverdict⟩ := detachExpired_some hkeyed (congrArg Prod.fst hd)
      have hrelease := hout.admits.2
      have hnodes := hout.nodes
      have hhandles := hout.handles
      dsimp only [nodesAfter, handlesAfter, Change.ofExpiry] at hrelease hnodes hhandles
      rw [hid] at hrelease hnodes hhandles
      exact .gone ⟨hrecord, hrelease, hverdict⟩ hnodes hhandles

/-- Where no call fails, what is due to go goes. -/
theorem detachExpired_of_condemns {id : NodeId} {second : UInt64} {r : Registry ρ}
    {removal : Removal ρ} (hkeyed : r.store.Keyed) (hcalls : r.store.faults = [])
    (h : r.Condemns second id removal) :
    (r.detachExpired id second).1 = .ok (some (removal.node, removal.reason)) := by
  have hid : removal.node.record.id = id := hkeyed id _ h.record
  have hfound : r.onStore (Store.getNode id) = (.ok (some removal.node.record), r) := by
    rw [onStore, Store.getNode_of_record hcalls h.record]
  have hdecide : r.decide removal.node.record second = .remove removal.reason := by
    obtain ⟨policy, hforce, hcheck⟩ := h.verdict
    rw [decide_eq, hid, hforce]
    exact hcheck
  have hnode : (r.detachRecord removal.node.record).1 = .ok removal.node := by
    rw [detachRecord_of_due (by rw [hcalls]; rfl), hid, ← h.release]
  unfold detachExpired
  rw [hfound]
  dsimp only
  rw [hdecide]
  dsimp only
  cases hr : r.detachRecord removal.node.record with
  | mk answer r' =>
    rw [hr] at hnode
    cases hnode
    rfl

namespace Rechecked

variable {r r' : Registry ρ} {second : UInt64} {id : NodeId} {out : List (Removal ρ)}

/-- What it takes out is due, and it is one node. -/
theorem of_mem (h : r.Rechecked second id r' out) {removal : Removal ρ} (hmem : removal ∈ out) :
    out = [removal] ∧ r.Condemns second id removal := by
  cases h with
  | kept => cases hmem
  | gone condemned =>
    obtain rfl := List.mem_singleton.1 hmem
    exact ⟨rfl, condemned⟩

/-- All other nodes keep their records and handles, and so does this one if it stays. -/
theorem others (h : r.Rechecked second id r' out) {other : NodeId}
    (hother : other ≠ id ∨ out = []) : r'.store.nodes.get? other = r.store.nodes.get? other ∧
      r'.handles.get? other = r.handles.get? other := by
  cases h with
  | kept nodes handles => rw [nodes, handles]; exact ⟨rfl, rfl⟩
  | gone condemned nodes handles =>
    have hne : other ≠ id := hother.resolve_right (List.cons_ne_nil _ _)
    rw [nodes, handles, SortedMap.get?_erase, SortedMap.get?_erase, if_neg hne, if_neg hne]
    exact ⟨rfl, rfl⟩

/-- A node stays if the policy in force wants its record kept. -/
theorem eq_nil (h : r.Rechecked second id r' out) {policy : Policy}
    (hforce : r.inForce id = some policy)
    (hkeep : ∀ record, r.store.record? id = some record → policy.check record second = .keep) :
    out = [] := by
  cases h with
  | kept => rfl
  | gone condemned =>
    obtain ⟨policy', hforce', hcheck⟩ := condemned.verdict
    rw [hforce] at hforce'
    cases hforce'
    rw [hkeep _ condemned.record] at hcheck
    cases hcheck

end Rechecked

end Registry

/-! ## Policies that spare work -/

/-- A node with work is not idle. -/
theorem NodeRecord.isIdle_of_work {record : NodeRecord}
    (h : record.busyExecutors ≠ 0 ∨ record.pendingTasks ≠ 0) : record.isIdle = false := by
  rw [isIdle, Bool.and_eq_false_iff, beq_eq_false_iff_ne, beq_eq_false_iff_ne]
  exact h

/-- A policy that keeps whatever node has work. -/
def Policy.SparesWork (policy : Policy) : Prop :=
  ∀ record second, record.isIdle = false → policy.check record second = .keep

theorem Policy.always_sparesWork : always.SparesWork := fun _ _ _ => rfl

theorem Policy.idleTimeout_sparesWork (limit : Duration) : (idleTimeout limit).SparesWork := by
  intro record second h
  simp only [idleTimeout, NodeRecord.idleFor, h, Bool.false_eq_true, if_false]

theorem Policy.singleUse_sparesWork : singleUse.SparesWork := by
  intro record second h
  simp only [singleUse, h, Bool.and_false, Bool.false_eq_true, if_false]

/-! ## Sweeps -/

variable {σ ρ : Type} [CapacitySource σ ρ] [Freeing σ ρ]

/-- A node that a sweep takes out is given the next ticket. -/
theorem Moment.expire_pending {m : Moment σ} {now : Time} {second : UInt64} {id : NodeId}
    {removal : Removal ρ} (h : (m.change (.expire now second id)).departed = [removal]) :
    (m.daemon.nextTicket, removal) ∈ (m.step (.expire now second id)).pending := by
  have hsettles := (step_settles m (.expire now second id)).pending
  rw [h] at hsettles
  have hmem : (m.daemon.nextTicket, removal) ∈ (m.step (.expire now second id)).pending + 0 := by
    refine hsettles.symm ▸ Multiset.mem_add.2 (.inr ?_)
    exact Multiset.mem_coe.2 List.mem_cons_self
  rwa [add_zero] at hmem

/-- At any moment of any run, whatever has gone on since the first look, a sweep comes to a
node.  It takes it out only if the policy in force by then says so of the record that is there
by then, and lets all other nodes be; if no call fails, what is due to go goes.  The reason that
is told when the removal is at its end is the one that was given last.  Under a policy that
spares work a node with work stays, and an orphan stays where orphans are always kept.  With
nothing between its looks, this is the sweep of the daemon. -/
theorem sweep_rechecks (sources : SourceSet σ) (guard : Guard) (timeout : Option Duration)
    (nextId : PlannedId) (store : Store) (orphanPolicy : Option Policy) (signal : Demand.Signal)
    (history : Nat) (hkeyed : store.Keyed) (acts : List (Moment.Act σ)) (now : Time)
    (second : UInt64) (id : NodeId) :
    let start : Moment σ := .start sources guard timeout nextId store orphanPolicy signal history
    let m := start.run acts
    let r := m.daemon.registry
    let m' := m.step (.expire now second id)
    (∃ out : List (Removal ρ), r.Rechecked second id m'.daemon.registry out ∧
      (∀ other, other ≠ id ∨ out = [] →
        m'.daemon.registry.store.nodes.get? other = r.store.nodes.get? other ∧
          m'.daemon.registry.handles.get? other = r.handles.get? other) ∧
      (r.store.faults = [] → ∀ removal, r.Condemns second id removal → out = [removal]) ∧
      (∀ removal ∈ out, ∀ more,
        (m.daemon.nextTicket, removal) ∈ (m'.run more).pending ∨
          ∃ outcome, (m.daemon.nextTicket, outcome) ∈ (m'.run more).daemon.journal.outcomes ∧
            .nodeRemoved id removal.node.record.source removal.reason outcome ∈
              (m'.run more).told) ∧
      (∀ record policy, r.store.record? id = some record →
        record.busyExecutors ≠ 0 ∨ record.pendingTasks ≠ 0 → r.inForce id = some policy →
          policy = .always ∨ (∃ limit, policy = .idleTimeout limit) ∨ policy = .singleUse →
            out = []) ∧
      (orphanPolicy = some .always → r.handles.get? id = none → out = [])) ∧
    (m.ticking = none → m.run (.consult (.evaluate second) ::
      (r.due second).map fun id => .expire now second id) =
        ⟨(m.daemon.sweep now second).2, none⟩) := by
  intro start m r m'
  have hstart : start.Steady :=
    Moment.steady_start hkeyed sources guard timeout nextId orphanPolicy signal history
  have hm : m.Steady := hstart.run acts
  have hregistry : m'.daemon.registry = (r.detachExpired id second).2 := by
    show (Moment.expire now second id m.daemon).registry = _
    rw [Moment.expire_eq]
    split <;> rename_i he <;> exact (congrArg Prod.snd he).symm
  have hrechecked : r.Rechecked second id m'.daemon.registry
      (m.change (.expire now second id)).departed := by
    rw [hregistry]
    exact Registry.detachExpired_rechecked id second hm.keyed
  refine ⟨⟨_, hrechecked, fun other => hrechecked.others, ?_, ?_, ?_, ?_⟩, ?_⟩
  · intro hcalls removal hcondemned
    have hanswer := Registry.detachExpired_of_condemns hm.keyed hcalls hcondemned
    show (Change.ofExpiry (r.detachExpired id second).1).departed = _
    rw [hanswer]
    rfl
  · intro removal hmem more
    obtain ⟨hone, hcondemned⟩ := hrechecked.of_mem hmem
    have hid : removal.node.record.id = id := hm.keyed id _ hcondemned.record
    have htold := Moment.pending_or_told (Moment.expire_pending hone) more
    simp only [Removal.event, hid] at htold
    exact htold
  · intro record policy hrecord hwork hforce hpolicy
    have hspares : policy.SparesWork := by
      rcases hpolicy with rfl | ⟨limit, rfl⟩ | rfl
      · exact Policy.always_sparesWork
      · exact Policy.idleTimeout_sparesWork limit
      · exact Policy.singleUse_sparesWork
    refine hrechecked.eq_nil hforce fun record' hrecord' => ?_
    rw [hrecord] at hrecord'
    cases hrecord'
    exact hspares record second (NodeRecord.isIdle_of_work hwork)
  · intro hpolicy hfree
    have hforce : r.inForce id = some .always := by
      have horphans : r.orphanPolicy = some .always :=
        (Moment.run_orphanPolicy hstart acts).trans hpolicy
      rw [Registry.inForce, hfree, horphans]
      rfl
    exact hrechecked.eq_nil hforce fun _ _ => rfl
  · intro hidle
    have hm' : m = ⟨m.daemon, none⟩ := by
      rw [← hidle]
    rw [hm']
    exact Moment.run_sweep now second m.daemon

namespace Retirement

def record : NodeRecord := .fresh "n-1" "east" none 1 1000 ""

/-- The store of an earlier run that has left one node. -/
def store : Store := ⟨.insert .empty "n-1" record.toJson.compact, .empty, []⟩

theorem intact_store : store.Intact :=
  ⟨rfl, Table.Readable.empty.insert (a := record) (Store.decodeNode_compact _), .empty⟩

theorem record_store : store.record? "n-1" = some record :=
  (Table.read?_insert (Store.decodeNode_compact _) _ _).trans (if_pos rfl)

def start : Moment Source :=
  .start ⟨[], by decide⟩ .allowAll none 0 store (some (.condemn "retired")) .board 16

def removal : Removal ReleaseHandle := ⟨⟨record, none⟩, "retired"⟩

theorem condemned : start.daemon.registry.Condemns 2000 "n-1" removal :=
  ⟨record_store, rfl, .condemn "retired", rfl, rfl⟩

end Retirement

theorem sweep_rechecks_retired :
    Retirement.store.Keyed ∧
      Retirement.start.daemon.registry.Rechecked 2000 "n-1"
        (Retirement.start.step (.expire ⟨0⟩ 2000 "n-1")).daemon.registry [Retirement.removal] := by
  obtain ⟨⟨out, hrechecked, -, hdue, -⟩, -⟩ := sweep_rechecks (σ := Source) ⟨[], by decide⟩
    .allowAll none 0 Retirement.store (some (.condemn "retired")) .board 16
    Retirement.intact_store.keyed [] ⟨0⟩ 2000 "n-1"
  have hone : out = [Retirement.removal] := hdue rfl _ Retirement.condemned
  exact ⟨Retirement.intact_store.keyed, hone ▸ hrechecked⟩

end Fleet
