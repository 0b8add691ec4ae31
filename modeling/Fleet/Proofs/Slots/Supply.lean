import Fleet.Proofs.Slots.Tracking

/-!
# Supply and demand

A simulated source grants whole nodes, as many as it takes to cover what it is asked for and no
more than it has slots for (`SimulatedSource.granted_spec`).  The loop asks its sources one by
one for what is still missing.  `Provisioner.Supplies` says what asking some of them comes to:
the demand is covered or these sources have no slot left, and it is not exceeded by a whole
node.  Since that composes, it holds of all sources for each demand of a tick
(`Round.evaluateAll_supplies`), and so of every tick of a daemon (`supply_meets_demand`).
-/

namespace Fleet

/-! ## Whole nodes -/

namespace SimulatedSource

variable {s : SimulatedSource}

theorem le_wanted_mul (h : 0 < s.executorsPerNode.toNat) (excess : Nat) :
    excess ≤ s.wanted excess * s.executorsPerNode.toNat := by
  have hlt := Nat.lt_div_mul_add h (a := excess + (s.executorsPerNode.toNat - 1))
  rw [wanted]
  omega

theorem wanted_mul_lt (h : 0 < s.executorsPerNode.toNat) (excess : Nat) :
    s.wanted excess * s.executorsPerNode.toNat < excess + s.executorsPerNode.toNat := by
  have hle := Nat.div_mul_le_self (excess + (s.executorsPerNode.toNat - 1))
    s.executorsPerNode.toNat
  rw [wanted]
  omega

/-- The nodes that are granted cover what was asked for or take the last slots, and they do not
exceed it by a whole node. -/
theorem granted_spec (h : 0 < s.executorsPerNode.toNat) (hlimit : s.nodeCount ≤ s.maxNodes)
    (excess : Nat) :
    (excess ≤ s.granted excess * s.executorsPerNode.toNat ∨
      s.nodeCount + s.granted excess = s.maxNodes) ∧
    s.granted excess * s.executorsPerNode.toNat < excess + s.executorsPerNode.toNat := by
  constructor
  · by_cases hroom : s.wanted excess ≤ s.maxNodes - s.nodeCount
    · rw [granted, Nat.min_eq_left hroom]
      exact .inl (le_wanted_mul h excess)
    · rw [granted, Nat.min_eq_right (Nat.le_of_not_le hroom)]
      exact .inr (Nat.add_sub_cancel' hlimit)
  · have hle : s.granted excess ≤ s.wanted excess := Nat.min_le_left ..
    exact (Nat.mul_le_mul_right _ hle).trans_lt (wanted_mul_lt h excess)

/-- What a simulated source replies when it is asked for `workload`, and the nodes that it
grants by it. -/
inductive Replies (s : SimulatedSource) (label : Option Label) (workload : Nat) :
    Reply ReleaseHandle → List (RealizedNode ReleaseHandle) → Prop
  | declined (unserved : s.serves label = false) : Replies s label workload .declined []
  | granted (serves : s.serves label = true) (numbers : List UInt64)
      (count : numbers.length = s.granted workload) :
      Replies s label workload (.granted (numbers.map (s.offer label)))
        (numbers.map (s.newNode label))

theorem sum_offers (s : SimulatedSource) (label : Option Label) (numbers : List UInt64) :
    ((numbers.map (s.offer label)).map (·.promised)).sum =
      numbers.length * s.executorsPerNode.toNat := by
  induction numbers with
  | nil => exact (Nat.zero_mul _).symm
  | cons k ks ih =>
    rw [List.map_cons, List.map_cons, List.sum_cons, ih, List.length_cons, Nat.succ_mul,
      Nat.add_comm]
    rfl

end SimulatedSource

/-! ## Sets of sources -/

namespace SourceSet

/-- The executors of the largest node that a source which serves the label makes. -/
def largestNode (set : SourceSet Source) (label : Option Label) : Nat :=
  (((set.members.filterMap Source.simulated?).filter (·.serves label)).map
    (·.executorsPerNode.toNat)).foldr max 0

/-- The source of this name has no slot left, unless it does not serve the label. -/
def SpentAt (set : SourceSet Source) (label : Option Label) (n : SourceName) : Prop :=
  ∃ s, set.simulated? n = some s ∧ (s.serves label = true → s.nodeCount = s.maxNodes)

/-- Simulated sources within their limits, whose nodes have executors, and no more than
`largest` of them where the label is served. -/
structure Stocked (set : SourceSet Source) (label : Option Label) (largest : Nat) : Prop where
  simulated : set.Simulated
  sized : ∀ n s, set.simulated? n = some s → 0 < s.executorsPerNode.toNat
  limit : ∀ n s, set.simulated? n = some s → s.nodeCount ≤ s.maxNodes
  largest : ∀ n s, set.simulated? n = some s → s.serves label = true →
    s.executorsPerNode.toNat ≤ largest

theorem le_largestNode {set : SourceSet Source} {label : Option Label} {n : SourceName}
    {s : SimulatedSource} (h : set.simulated? n = some s) (hserves : s.serves label = true) :
    s.executorsPerNode.toNat ≤ set.largestNode label := by
  have hmem : Source.simulated s ∈ set.members :=
    List.mem_of_find?_eq_some (simulated?_eq_some_iff.1 h)
  refine List.le_max_of_le (List.mem_map_of_mem ?_) le_rfl
  exact List.mem_filter.2 ⟨List.mem_filterMap.2 ⟨_, hmem, rfl⟩, hserves⟩

namespace Grants

variable {set set' : SourceSet Source} {nodes : List (RealizedNode ReleaseHandle)}
  {label : Option Label} {largest : Nat}

theorem stocked (h : set.Grants set' nodes) (hs : set.Stocked label largest) :
    set'.Stocked label largest where
  simulated := h.simulated hs.simulated
  sized n s' hs' := by
    obtain ⟨s, hget, hg⟩ := h.exists_before hs.simulated hs'
    rw [hg.counted]
    exact hs.sized n s hget
  limit n s' hs' := by
    obtain ⟨s, hget, hg⟩ := h.exists_before hs.simulated hs'
    have hlimit := hg.limit (hs.limit n s hget)
    rw [hg.counted] at hlimit ⊢
    exact hlimit
  largest n s' hs' := by
    obtain ⟨s, hget, hg⟩ := h.exists_before hs.simulated hs'
    rw [hg.counted]
    exact hs.largest n s hget

/-- A source with no slot left grants no more. -/
theorem spentAt (h : set.Grants set' nodes) {n : SourceName} (hn : set.SpentAt label n) :
    set'.SpentAt label n := by
  obtain ⟨s, hget, hspent⟩ := hn
  obtain ⟨s', hget', hg⟩ := h.each n s hget
  refine ⟨s', hget', fun hserves => ?_⟩
  have hcounted := hg.counted
  rw [hcounted] at hserves
  have hfull : s.nodeCount = s.maxNodes := hspent hserves
  have hlimit := hg.limit (Nat.le_of_eq hfull)
  rw [hcounted] at hlimit ⊢
  dsimp only at hlimit ⊢
  omega

end Grants

end SourceSet

/-! ## Asking for what is missing -/

/-- From `p` to `p'` the sources `ns` have been asked for what the label was short of, in full
if they have granted it and else for all their slots. -/
structure Provisioner.Supplies (label : Option Label) (excess largest : Nat)
    (ns : List SourceName) (p p' : Provisioner Source) : Prop where
  grants : ∃ nodes, p.sources.Grants p'.sources nodes
  rises : p.ledger.promisedForLabel label ≤ p'.ledger.promisedForLabel label
  met : excess ≤ p'.ledger.promisedForLabel label ∨ ∀ n ∈ ns, p'.sources.SpentAt label n
  bounded : p'.ledger.promisedForLabel label ≤
    max (p.ledger.promisedForLabel label) (excess - 1 + largest)

namespace Provisioner.Supplies

variable {label : Option Label} {excess largest : Nat} {ns ns' : List SourceName}
  {p p' p'' : Provisioner Source}

/-- Nobody has been asked for the label. -/
theorem of_promised_eq (hg : ∃ nodes, p.sources.Grants p'.sources nodes)
    (h : p'.ledger.promisedForLabel label = p.ledger.promisedForLabel label) :
    Supplies label excess largest [] p p' where
  grants := hg
  rises := h.ge
  met := .inr nofun
  bounded := h.le.trans (le_max_left ..)

/-- What is covered asks nobody. -/
theorem of_covered (h : excess ≤ p.ledger.promisedForLabel label) (ns : List SourceName) :
    Supplies label excess largest ns p p where
  grants := ⟨[], .refl _⟩
  rises := le_rfl
  met := .inl h
  bounded := le_max_left ..

theorem trans (h : Supplies label excess largest ns p p')
    (h' : Supplies label excess largest ns' p' p'') :
    Supplies label excess largest (ns ++ ns') p p'' where
  grants := by
    obtain ⟨nodes, hg⟩ := h.grants
    obtain ⟨nodes', hg'⟩ := h'.grants
    exact ⟨nodes ++ nodes', hg.trans hg'⟩
  rises := h.rises.trans h'.rises
  met := by
    obtain ⟨_, hg'⟩ := h'.grants
    rcases h.met with hcovered | hspent
    · exact .inl (hcovered.trans h'.rises)
    · refine h'.met.imp_right fun hspent' n hn => ?_
      rcases List.mem_append.1 hn with hn | hn
      · exact hg'.spentAt (hspent n hn)
      · exact hspent' n hn
  bounded := by
    have hfirst := h.bounded
    have hsecond := h'.bounded
    omega

end Provisioner.Supplies

namespace Round

variable {R : Type}

/-- A round with stocked sources, none of which has failed in it. -/
structure Stocked (label : Option Label) (largest : Nat) (r : Round Source R) : Prop where
  sources : r.loop.sources.Stocked label largest
  unfailed : r.failed = []

/-- What asking a simulated source comes to. -/
theorem askSource_replies (now : Time) (label : Option Label) (remaining : Nat)
    {a : Asking Source R} (hf : a.round.failed = []) {n : SourceName} {s : SimulatedSource}
    (hget : a.round.loop.sources.simulated? n = some s) (hhosted : s.outage = none) :
    ∃ reply nodes sources, s.Replies label (remaining - a.granted) reply nodes ∧
      a.round.loop.sources.Grants sources nodes ∧
      askSource now label remaining n a =
        a.receive now ⟨n, label⟩ (remaining - a.granted) sources reply := by
  have hunfailed : n ∉ a.round.failed := by
    rw [hf]
    exact List.not_mem_nil
  have hgrants := SourceSet.canProvision_grants a.round.loop.sources n label
  have hcan : a.round.toWork.askCan ⟨n, label⟩ = (.ok (s.serves label),
      a.round.toWork.called (a.round.loop.sources.canProvision n label).2
        [.canProvision n label (.ok (s.serves label))]) := by
    refine Work.askCan_of_answer ?_
    rw [SourceSet.canProvision, SourceSet.simulated?_eq_some_iff.1 hget]
    rfl
  cases hserves : s.serves label with
  | false =>
    rw [hserves] at hcan
    exact ⟨_, _, _, .declined hserves, hgrants, askSource_of_declined now hunfailed hcan⟩
  | true =>
    rw [hserves] at hcan
    -- being asked whether it serves the label has not changed the source
    obtain ⟨s', hget', hsame⟩ := hgrants.each n s hget
    obtain rfl : s' = s := by
      have hcounted := hsame.counted
      simpa using hcounted
    obtain ⟨numbers, hcount, hoffers, hgrants'⟩ :=
      SourceSet.provision_grants label (remaining - a.granted) hget' hhosted
    exact ⟨_, _, _, .granted hserves numbers hcount, hgrants.trans hgrants',
      askSource_of_granted now hunfailed hcan (Work.askFor_of_offers now (Prod.ext hoffers rfl))⟩

namespace Stocked

variable {label : Option Label} {largest : Nat}

theorem askSource {a : Asking Source R} (h : a.round.Stocked label largest) (now : Time)
    (label' : Option Label) (remaining : Nat) {n : SourceName}
    (hn : n ∈ a.round.loop.sources.names) :
    (askSource now label' remaining n a).round.Stocked label largest ∧
      ∃ nodes, a.round.loop.sources.Grants
        (askSource now label' remaining n a).round.loop.sources nodes := by
  obtain ⟨s, hget, hhosted⟩ := h.sources.simulated n hn
  obtain ⟨reply, nodes, sources, hreplies, hgrants, ha⟩ :=
    askSource_replies now label' remaining h.unfailed hget hhosted
  have herror : reply.error? = none := by cases hreplies <;> rfl
  rw [ha]
  refine ⟨⟨hgrants.stocked h.sources, ?_⟩, nodes, hgrants⟩
  rw [Asking.receive, herror, h.unfailed]
  rfl

theorem askSources {a : Asking Source R} (h : a.round.Stocked label largest) (now : Time)
    (label' : Option Label) (remaining : Nat) {ns : List SourceName}
    (hns : ∀ n ∈ ns, n ∈ a.round.loop.sources.names) :
    (askSources now label' remaining ns a).round.Stocked label largest ∧
      ∃ nodes, a.round.loop.sources.Grants
        (askSources now label' remaining ns a).round.loop.sources nodes := by
  induction ns generalizing a with
  | nil => exact ⟨h, [], .refl _⟩
  | cons n ns ih =>
    unfold Round.askSources
    split
    · exact ⟨h, [], .refl _⟩
    · obtain ⟨h', nodes, hg⟩ := h.askSource now label' remaining (hns n List.mem_cons_self)
      obtain ⟨h'', nodes', hg'⟩ := ih h' fun m hm => hg.names ▸ hns m (List.mem_cons_of_mem _ hm)
      exact ⟨h'', nodes ++ nodes', hg.trans hg'⟩

theorem evaluate {r : Round Source R} (h : r.Stocked label largest) (now : Time) (d : Demand) :
    (r.evaluate now d).Stocked label largest ∧
      ∃ nodes, r.loop.sources.Grants (r.evaluate now d).loop.sources nodes := by
  obtain ⟨hloop, -, hfailed⟩ := evaluate_eq_asking now r d
  obtain ⟨h', nodes, hg⟩ := askSources (a := ⟨r, 0, false, false⟩) h now d.label
    (d.excess - r.loop.ledger.promisedForLabel d.label) fun n hn => hn
  exact ⟨⟨hloop ▸ h'.sources, hfailed.trans h'.unfailed⟩, nodes, hloop ▸ hg⟩

end Stocked

/-! ## One demand -/

variable {label : Option Label} {base excess largest : Nat}

/-- A turn of one source. -/
theorem Asking.Fair.supplies {a : Asking Source R} (h : a.Fair label base)
    (hr : a.round.Stocked label largest) (he : excess < countLimit) (now : Time) {n : SourceName}
    (hn : n ∈ a.round.loop.sources.names) (hg : ¬ excess - base ≤ a.granted) :
    Provisioner.Supplies label excess largest [n] a.round.loop
      (askSource now label (excess - base) n a).round.loop := by
  have hshort : a.round.loop.ledger.promisedForLabel label < excess :=
    Nat.lt_of_not_le fun hle => hg ((h.remaining_le_iff he).2 hle)
  obtain ⟨s, hget, hhosted⟩ := hr.sources.simulated n hn
  obtain ⟨reply, nodes, sources, hreplies, hgrants, ha⟩ :=
    askSource_replies now label (excess - base) hr.unfailed hget hhosted
  rw [h.remaining_eq he] at hreplies ha
  have hpromised := h.promised_receive now
    (excess - a.round.loop.ledger.promisedForLabel label) n hgrants.names reply
  obtain ⟨s', hget', hg'⟩ := hgrants.each n s hget
  rw [ha]
  cases hreplies with
  | declined unserved =>
    exact {
      grants := ⟨_, hgrants⟩
      rises := hpromised.ge
      met := by
        refine .inr fun m hm => ?_
        obtain rfl := List.mem_singleton.1 hm
        refine ⟨s', hget', fun hserves => ?_⟩
        rw [hg'.counted] at hserves
        exact absurd (unserved.symm.trans hserves) Bool.false_ne_true
      bounded := hpromised.le.trans (le_max_left ..) }
  | granted serves numbers count =>
    obtain ⟨hspec, hless⟩ := SimulatedSource.granted_spec (hr.sources.sized n s hget)
      (hr.sources.limit n s hget) (excess - a.round.loop.ledger.promisedForLabel label)
    have hlargest := hr.sources.largest n s hget serves
    rw [Reply.offers, s.sum_offers, count] at hpromised
    have hcounted : s'.nodeCount =
        s.nodeCount + s.granted (excess - a.round.loop.ledger.promisedForLabel label) := by
      have hall := s.filter_newNode label numbers
      rw [SourceSet.name_of_simulated? hget] at hall
      rw [hg'.counted, hall, List.length_map, count]
    have hmost : s'.maxNodes = s.maxNodes := by rw [hg'.counted]
    exact {
      grants := ⟨_, hgrants⟩
      rises := (Nat.le_add_right _ _).trans hpromised.ge
      met := by
        refine hspec.imp (fun hcovered => ?_) fun hspent m hm => ?_
        · rw [hpromised]
          omega
        · obtain rfl := List.mem_singleton.1 hm
          exact ⟨s', hget', fun _ => by rw [hcounted, hmost, hspent]⟩
      bounded := by
        rw [hpromised]
        omega }

theorem Asking.Fair.supplies_all {a : Asking Source R} (h : a.Fair label base)
    (hr : a.round.Stocked label largest) (he : excess < countLimit) (now : Time)
    {ns : List SourceName} (hns : ∀ n ∈ ns, n ∈ a.round.loop.sources.names) :
    Provisioner.Supplies label excess largest ns a.round.loop
      (Round.askSources now label (excess - base) ns a).round.loop := by
  induction ns generalizing a with
  | nil => exact .of_promised_eq ⟨[], .refl _⟩ rfl
  | cons n ns ih =>
    by_cases hg : excess - base ≤ a.granted
    · rw [askSources_of_le hg]
      exact .of_covered ((h.remaining_le_iff he).1 hg) _
    · have hn := hns n List.mem_cons_self
      obtain ⟨h', hnames, -⟩ := h.step he now hn hg
      rw [Round.askSources, if_neg hg]
      refine (h.supplies hr he now hn hg).trans
        (ih h' (hr.askSource now label _ hn).1 fun m hm => ?_)
      rw [hnames]
      exact hns m (List.mem_cons_of_mem _ hm)

namespace Fair

variable {r : Round Source R}

theorem supplies (h : r.Fair) (hr : r.Stocked label largest) (he : excess < countLimit)
    (now : Time) :
    Provisioner.Supplies label excess largest r.loop.sources.names r.loop
      (r.evaluate now ⟨label, excess⟩).loop := by
  rw [(evaluate_eq_asking now r ⟨label, excess⟩).1]
  exact (h.begin_asking label).supplies_all hr he now fun n hn => hn

/-- The demand of other labels takes slots but promises nothing for this one. -/
theorem spares (h : r.Fair) (hr : r.Stocked label largest) (now : Time) {ds : List Demand}
    (hds : ∀ d ∈ ds, d.label ≠ label) :
    Provisioner.Supplies label excess largest [] r.loop (r.evaluateAll now ds).loop := by
  induction ds generalizing r with
  | nil => exact .of_promised_eq ⟨[], .refl _⟩ rfl
  | cons d ds ih =>
    rw [List.forall_mem_cons] at hds
    obtain ⟨hr', hgrants⟩ := hr.evaluate now d
    have hfirst : Provisioner.Supplies label excess largest [] r.loop (r.evaluate now d).loop :=
      .of_promised_eq hgrants (promised_evaluate_of_ne h.sound now hds.1)
    exact hfirst.trans (ih (h.evaluate now d) hr' hds.2)

end Fair

theorem Stocked.evaluateAll {r : Round Source R} (h : r.Stocked label largest) (now : Time)
    (ds : List Demand) : (r.evaluateAll now ds).Stocked label largest := by
  induction ds generalizing r with
  | nil => exact h
  | cons d ds ih => exact ih (h.evaluate now d).1

/-- All sources are asked for a demand whose label is sampled once, whatever comes before it
and after it. -/
theorem evaluateAll_supplies {r : Round Source R} (h : r.Fair) (hr : r.Stocked label largest)
    (he : excess < countLimit) (now : Time) {earlier later : List Demand}
    (hearlier : ∀ d ∈ earlier, d.label ≠ label) (hlater : ∀ d ∈ later, d.label ≠ label) :
    Provisioner.Supplies label excess largest r.loop.sources.names r.loop
      (r.evaluateAll now (earlier ++ ⟨label, excess⟩ :: later)).loop := by
  have hbefore : Provisioner.Supplies label excess largest [] r.loop
      (r.evaluateAll now earlier).loop := h.spares hr now hearlier
  obtain ⟨_, hgrants⟩ := hbefore.grants
  have h' := h.evaluateAll now earlier
  have hr' := hr.evaluateAll now earlier
  have hown := h'.supplies hr' he now
  have hall := (hbefore.trans hown).trans
    ((h'.evaluate now ⟨label, excess⟩).spares (hr'.evaluate now ⟨label, excess⟩).1 now hlater)
  rw [List.nil_append, List.append_nil, hgrants.names] at hall
  rw [Round.evaluateAll, List.foldl_append]
  exact hall

end Round

/-! ## Ticks of a daemon -/

/-- A tick that had come to `p` when it had looked at all capacity in flight has asked for the
demand of a label and come to `p'`: the demand is covered or no source that serves the label
has a slot left, and all nodes but the last were needed. -/
structure Provisioner.Supplied (label : Option Label) (excess : Nat)
    (p p' : Provisioner Source) : Prop where
  met : excess ≤ p'.ledger.promisedForLabel label ∨
    ∀ n ∈ p'.sources.names, p'.sources.SpentAt label n
  bounded : p'.ledger.promisedForLabel label ≤
    max (p.ledger.promisedForLabel label) (excess - 1 + p.sources.largestNode label)

theorem Round.evaluateAll_supplied {R : Type} {r : Round Source R} (h : r.Fair)
    {label : Option Label} (hr : r.Stocked label (r.loop.sources.largestNode label)) (now : Time)
    {demands : List Demand} (honce : (demands.map (·.label)).Nodup) {excess : UInt32}
    (hmem : ⟨label, excess.toNat⟩ ∈ demands) :
    Provisioner.Supplied label excess.toNat r.loop (r.evaluateAll now demands).loop := by
  obtain ⟨earlier, later, rfl⟩ := List.append_of_mem hmem
  rw [List.map_append, List.map_cons, List.nodup_middle, List.nodup_cons, List.mem_append] at honce
  have hother (d : Demand) (hd : d ∈ earlier ∨ d ∈ later) : d.label ≠ label := by
    rintro rfl
    exact honce.1 (hd.imp (List.mem_map.2 ⟨d, ·, rfl⟩) (List.mem_map.2 ⟨d, ·, rfl⟩))
  have hsupplies := evaluateAll_supplies h hr excess.toNat_lt now
    (fun d hd => hother d (.inl hd)) fun d hd => hother d (.inr hd)
  obtain ⟨_, hgrants⟩ := hsupplies.grants
  refine ⟨?_, hsupplies.bounded⟩
  rw [hgrants.names]
  exact hsupplies.met

namespace Moment

/-- The sources of a configuration are stocked all along. -/
theorem stocked_run {c : Config} {room : Nat} {store : Store} {nextId : PlannedId}
    {d : Daemon Source (Registry ReleaseHandle)} (hbuilt : c.build room store nextId = .ok d)
    {m : Moment Source} (hfit : m.Fit) (hbalanced : m.Balanced)
    (hcontinues : d.loop.sources.Continues m.daemon.loop.sources) (label : Option Label) :
    m.daemon.loop.sources.Stocked label (m.daemon.loop.sources.largestNode label) where
  simulated := hfit.simulated
  sized n s hs := by
    obtain ⟨existing, sources, -, hstarts, hstart⟩ := Config.build_ok hbuilt
    have hsources : d.loop.sources = sources :=
      congrArg (fun m : Moment Source => m.daemon.loop.sources) hstart
    have hn := SourceSet.mem_names_of_simulated? hs
    rw [hcontinues.names, hsources] at hn
    obtain ⟨s₀, hs₀, -⟩ := Config.simulated_of_startsAs hstarts n hn
    obtain ⟨_, _, hnow⟩ := hcontinues.each n s₀ (hsources ▸ hs₀)
    rw [hs] at hnow
    cases hnow
    show 0 < s₀.executorsPerNode.toNat
    exact Config.sized_of_startsAs hstarts hs₀
  limit := hbalanced.limit
  largest _ _ hs hserves := SourceSet.le_largestNode hs hserves

end Moment

/-- At every moment of every run, with any signal to sample the demand from and any acts in
between: what a tick asks for meets the demand of a label that is sampled once.  After the tick
the capacity in flight covers the demand or the sources that serve the label are at their
limits, and where the tick has added to that capacity it is less than a node of theirs above the
demand.  The first part is of a tick that runs through, the second of the last step of a tick
that other acts came between. -/
theorem supply_meets_demand (c : Config) {room : Nat} (store : Store) (nextId : PlannedId)
    (d : Daemon Source (Registry ReleaseHandle)) (hbuilt : c.build room store nextId = .ok d)
    (signal : Demand.Signal) (acts : List (Moment.Act Source))
    (hacts : ∀ a ∈ acts, a.isInner = true) (label : Option Label) (excess : UInt32) :
    let m := (⟨{ d with signal }, none⟩ : Moment Source).run acts
    let demands := (m.daemon.signal.sample m.daemon.board).1
    (∀ now, m.ticking = none → (demands.map (·.label)).Nodup →
        ⟨label, excess.toNat⟩ ∈ demands →
      Provisioner.Supplied label excess.toNat (m.daemon.loop.polled now m.daemon.registry).loop
        (m.daemon.tick now).2.loop) ∧
    ∀ t, m.ticking = some t → t.ahead = .late [] → (t.demands.map (·.label)).Nodup →
        ⟨label, excess.toNat⟩ ∈ t.demands →
      Provisioner.Supplied label excess.toNat m.daemon.loop (m.step .advance).daemon.loop := by
  intro m demands
  have hstart := Config.build_fit hbuilt
  have hfirst : (⟨{ d with signal }, none⟩ : Moment Source).Fit :=
    ⟨⟨hstart.sound.orderly, hstart.sound.distinct, hstart.sound.numbered⟩, hstart.simulated,
      hstart.unasked⟩
  have hlevel := Config.build_balanced hbuilt
  have hbalanced : (⟨{ d with signal }, none⟩ : Moment Source).Balanced :=
    ⟨hlevel.booting, hlevel.handles, hlevel.counted, hlevel.limit⟩
  have htracked : (⟨{ d with signal }, none⟩ : Moment Source).Tracked :=
    (Moment.tracked_of_built hbuilt).of_loop rfl rfl
  have hfit : m.Fit := hfirst.run hacts
  have hstocked := Moment.stocked_run hbuilt hfit (hbalanced.run hfirst hacts)
    (Moment.run_continues hfirst hacts) label
  have htracked' : m.Tracked := htracked.run hfirst.sound acts
  constructor
  · intro now hidle honce hmem
    have hsound : m.daemon.loop.Sound :=
      htracked'.sound hfit.sound (Moment.still_of_idle hidle)
    have hfair := hsound.fair_polled now m.daemon.registry
    have hsources : (m.daemon.loop.polled now m.daemon.registry).loop.sources =
        m.daemon.loop.sources := by rw [Provisioner.loop_polled]
    exact Round.evaluateAll_supplied hfair
      ⟨by rw [hsources]; exact hstocked, Provisioner.failed_polled ..⟩ now honce hmem
  · intro t ht hahead honce hmem
    have huncalled : t.round.calls = [] ∧ t.round.failed = [] :=
      Moment.run_uncalled (m := ⟨{ d with signal }, none⟩) (by rintro t ⟨⟩) acts t ht
    clear_value m
    obtain ⟨d', ticking⟩ := m
    obtain rfl : ticking = some t := ht
    have hfair := htracked'.fair hfit.sound hahead huncalled.1 huncalled.2
    have hsupplied := Round.evaluateAll_supplied hfair ⟨hstocked, huncalled.2⟩ t.now honce hmem
    have hloop : (t.advance d').daemon.loop =
        ((t.current d').evaluateAll t.now t.demands).finish.loop := by
      rw [Ticking.advance, hahead]
      rfl
    show Provisioner.Supplied label excess.toNat d'.loop (t.advance d').daemon.loop
    rw [hloop]
    exact hsupplied

namespace Solo

/-- Two executors are asked for where there is one slot for one. -/
def wanting : List (Moment.Act Source) := [.changeDemand (Demand.Board.empty.set none 2)]

theorem wanting_isInner : ∀ a ∈ wanting, a.isInner = true := by simp [wanting, Moment.Act.isInner]

/-- The daemon with one slot when it has been asked for two executors. -/
def wants : Moment Source :=
  (⟨{ daemon .empty 1 1 with signal := .board }, none⟩ : Moment Source).run wanting

end Solo

theorem supply_meets_demand_wanting :
    Solo.config.build 16 .empty 1 = .ok (Solo.daemon .empty 1 1) ∧
      Provisioner.Supplied none 2
        (Solo.wants.daemon.loop.polled ⟨0⟩ Solo.wants.daemon.registry).loop
        (Solo.wants.daemon.tick ⟨0⟩).2.loop ∧
      (Solo.wants.daemon.tick ⟨0⟩).2.loop.ledger.promisedForLabel none = 1 := by
  refine ⟨Solo.build_empty, ?_, by decide +kernel⟩
  exact (supply_meets_demand Solo.config .empty 1 _ Solo.build_empty .board Solo.wanting
    Solo.wanting_isInner none 2).1 ⟨0⟩ rfl (by decide) (by decide)

end Fleet
