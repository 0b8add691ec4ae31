import Fleet.Proofs.Source.Standing
import Mathlib.Algebra.Order.Floor.Div

/-!
# Simulated sources under any client

Whatever clients do, a simulated source has as many nodes as it has granted less the handles that
were run, never more than it has slots, and every release succeeds (`Sound`).  A client makes use
of no more slots than are taken, so that whenever a handle is run there is one to be given back.
-/

namespace Fleet

namespace SimulatedSource

/-- The nodes it takes to offer some executors are a quotient that is rounded up. -/
theorem wanted_eq {s : SimulatedSource} (h : 0 < s.executorsPerNode.toNat) (excess : Nat) :
    s.wanted excess = excess ⌈/⌉ s.executorsPerNode.toNat := by
  rw [Nat.ceilDiv_eq_add_pred_div, wanted, Nat.add_sub_assoc h]

/-- A source after it has granted so many nodes. -/
def granting (s : SimulatedSource) (count : Nat) : SimulatedSource :=
  { s with nodeCount := s.nodeCount + count, nextNode := s.nextNode + UInt64.ofNat count }

end SimulatedSource

namespace SourceClient

variable {origin : SimulatedSource} {c : SourceClient}

/-! ## Calls of a client -/

/-- Give back a slot. -/
def freed (c : SourceClient) : SourceClient :=
  { c with source := { c.source with nodeCount := c.source.nodeCount - 1 } }

theorem free_slot (h : c.source.nodeCount ≠ 0) (n : SourceName) (id : NodeId) :
    c.free (.slot n id) = (.ok (), c.freed) := by
  rw [free, SimulatedSource.releaseSlot, if_neg h]
  rfl

/-- What a poll gives to keep. -/
def taken (number : Nat) : Poll ReleaseHandle → List (Nat × RealizedNode ReleaseHandle)
  | .ready (.ok node) => [(number, node)]
  | _ => []

theorem poll?_eq_some {number : Nat} {poll : Poll ReleaseHandle} {c' : SourceClient}
    (h : c.poll? number = some (poll, c')) :
    ∃ k completion, c.commissions.get? number = some k ∧ k.handoff.capacity = some completion ∧
      poll = completion.poll.1 ∧
      c' = { c.put number ⟨some completion.poll.2, k.handoff.completer⟩ with
        kept := c.kept ++ taken number poll } := by
  unfold poll? at h
  obtain ⟨⟨read, commissions⟩, hpoll, hkept⟩ := Option.bind_eq_some_iff.1 h
  obtain ⟨k, hk, hpoll⟩ := Option.bind_eq_some_iff.1 hpoll
  obtain ⟨⟨_, handoff⟩, hread, hpoll⟩ := Option.bind_eq_some_iff.1 hpoll
  obtain ⟨completion, hcapacity, hread⟩ := Option.map_eq_some_iff.1 hread
  cases hread
  cases hpoll
  refine ⟨k, completion, hk, hcapacity, ?_⟩
  have hnothing (handoff : Handoff ReleaseHandle) :
      c.put number handoff = { c.put number handoff with kept := c.kept ++ [] } := by
    rw [List.append_nil]
    rfl
  cases completion with
  | waiting | spent =>
    cases hkept
    exact ⟨rfl, hnothing _⟩
  | unread result =>
    cases result with
    | ok node =>
      cases hkept
      exact ⟨rfl, rfl⟩
    | error e =>
      cases hkept
      exact ⟨rfl, hnothing _⟩

theorem drop_eq (number : Nat) (c : SourceClient) :
    (c.drop number).2 = match c.commissions.get? number with
      | none => c
      | some k => c.put number ⟨none, k.handoff.completer⟩ := by
  rw [drop, Commissions.drop]
  cases c.commissions.get? number <;> rfl

theorem release?_eq_some {number : Nat} {answer : Except ReleaseError Unit} {c' : SourceClient}
    (h : c.release? number = some (answer, c')) (hheld : c.kept.length ≤ c.source.nodeCount)
    (hkept : ∀ p ∈ c.kept, ∃ n id, p.2.release = some (.slot n id)) :
    answer = .ok () ∧ (∃ p ∈ c.kept, p.1 = number) ∧
      c' = { c with kept := c.kept.filter fun p => p.1 != number }.freed := by
  unfold release? at h
  obtain ⟨⟨_, node⟩, hfind, h⟩ := Option.bind_eq_some_iff.1 h
  have hmem := List.mem_of_find?_eq_some hfind
  obtain ⟨n, id, hrelease⟩ := hkept _ hmem
  have hcount : c.source.nodeCount ≠ 0 := by
    have hpos := List.length_pos_of_mem hmem
    omega
  dsimp only at h hrelease
  rw [hrelease] at h
  have hfree := free_slot (c := { c with kept := c.kept.filter fun p => p.1 != number }) hcount n id
  dsimp only at h
  rw [hfree] at h
  cases h
  exact ⟨rfl, ⟨_, hmem, by simpa using List.find?_some hfind⟩, rfl⟩

theorem holds_put {number : Nat} {k : Commission ReleaseHandle}
    (hk : c.commissions.get? number = some k) (handoff : Handoff ReleaseHandle) :
    (c.put number handoff).holds + k.handoff.isUnread.toNat = c.holds + handoff.isUnread.toNat := by
  have hunread := Commissions.unread_setHandoff hk handoff
  show c.booting.length + (c.commissions.setHandoff number handoff).unread + c.kept.length + _ = _
  rw [holds]
  omega

/-- The end of a boot makes a slot free that the client may use for the result. -/
theorem holds_finish {place : Nat} {b : Booting} (hb : c.booting[place]? = some b)
    {k : Commission ReleaseHandle} (hk : c.commissions.get? b.number = some k)
    (handoff : Handoff ReleaseHandle) :
    ({ c.put b.number handoff with booting := c.booting.eraseIdx place } : SourceClient).holds +
        1 + k.handoff.isUnread.toNat = c.holds + handoff.isUnread.toNat := by
  have hfewer := List.length_eraseIdx_add_one (List.getElem?_eq_some_iff.1 hb).1
  have hunread := Commissions.unread_setHandoff hk handoff
  show (c.booting.eraseIdx place).length + (c.commissions.setHandoff b.number handoff).unread +
    c.kept.length + 1 + _ = _
  rw [holds]
  omega

theorem holds_keep (ps : List (Nat × RealizedNode ReleaseHandle)) (c : SourceClient) :
    ({ c with kept := c.kept ++ ps } : SourceClient).holds = c.holds + ps.length := by
  rw [holds, holds, List.length_append, ← Nat.add_assoc]

/-- What a poll gives to keep is no more than what was there unread. -/
theorem length_taken (number : Nat) {handoff : Handoff ReleaseHandle}
    {completion : Completion ReleaseHandle} (h : handoff.capacity = some completion) :
    (taken number completion.poll.1).length +
        (Handoff.isUnread ⟨some completion.poll.2, handoff.completer⟩).toNat ≤
      handoff.isUnread.toNat := by
  rw [Handoff.isUnread, Handoff.isUnread, h]
  cases completion with
  | waiting | spent => exact Nat.le_refl _
  | unread result =>
    cases result with
    | ok node => exact Nat.le_refl 1
    | error e => exact Nat.zero_le 1

theorem Standing.taken {now : Time} {awards : List Award} {number : Nat}
    {k : Commission ReleaseHandle} (h : Standing origin now awards number k)
    {completion : Completion ReleaseHandle} (hcapacity : k.handoff.capacity = some completion)
    {p : Nat × RealizedNode ReleaseHandle} (hp : p ∈ taken number completion.poll.1) :
    Delivered origin now awards p.1 p.2 := by
  cases completion with
  | waiting | spent => cases hp
  | unread result =>
    obtain ⟨node, rfl, hdelivered⟩ := h.unread result hcapacity
    cases List.mem_singleton.1 hp
    exact hdelivered

section Boots

variable {b : Booting} {k : Commission ReleaseHandle}

/-- A node that somebody waits for is delivered. -/
theorem finishBoot_of_waiting (hk : c.commissions.get? b.number = some k)
    (hhandoff : k.handoff = ⟨some .waiting, true⟩) :
    c.finishBoot b = c.put b.number ⟨some (.unread (.ok (Moment.booted b.due b.node))), false⟩ ∧
      c.handBack b = none := by
  have hresolve : c.commissions.resolve? b.number (.ok (Moment.booted b.due b.node)) =
      some (.accepted, c.commissions.setHandoff b.number
        ⟨some (.unread (.ok (Moment.booted b.due b.node))), false⟩) := by
    rw [Commissions.resolve?, hk, Option.bind_eq_bind, Option.bind_some, hhandoff]
    rfl
  constructor
  · rw [finishBoot_eq, hresolve]
    rfl
  · rw [handBack, hresolve]

/-- The slot of a node that nobody waits for is given back. -/
theorem finishBoot_of_dropped (hk : c.commissions.get? b.number = some k)
    (hhandoff : k.handoff = ⟨none, true⟩) (hcount : c.source.nodeCount ≠ 0) {n : SourceName}
    {id : NodeId} (hrelease : b.node.release = some (.slot n id)) :
    c.finishBoot b = (c.put b.number ⟨none, false⟩).freed ∧ c.handBack b = some (.ok ()) := by
  have hresolve : c.commissions.resolve? b.number (.ok (Moment.booted b.due b.node)) =
      some (.returned (.ok (Moment.booted b.due b.node)),
        c.commissions.setHandoff b.number ⟨none, false⟩) := by
    rw [Commissions.resolve?, hk, Option.bind_eq_bind, Option.bind_some, hhandoff]
    rfl
  constructor
  · rw [finishBoot_eq, hresolve, hrelease]
    exact congrArg Prod.snd (free_slot (c := c.put b.number ⟨none, false⟩) hcount n id)
  · rw [handBack, hresolve, hrelease]
    exact congrArg some (congrArg Prod.fst (free_slot hcount n id))

end Boots

/-! ## Asking for capacity -/

section Offers

variable {now : Time} {awards : List Award}

/-- The offers of the nodes that come next when `first` have been granted. -/
def offers (origin : SimulatedSource) (label : Option Label) (first count : Nat) :
    List (Offer ReleaseHandle) :=
  (List.range' first count).map fun i => origin.offer label (origin.nextNode + UInt64.ofNat i)

theorem holds_accept (now : Time) (label : Option Label) (n : UInt64) (c : SourceClient) :
    (c.accept now (origin.offer label n)).holds = c.holds + 1 := by
  show (c.booting ++ [_]).length + (c.commissions.entries ++ [_]).countP _ + c.kept.length = _
  rw [List.length_append, List.countP_append]
  simp only [holds, Commissions.unread]
  show c.booting.length + 1 + (_ + 0) + _ = _
  omega

/-- A client takes over what is granted to it, and holds a slot more for each. -/
theorem Tracked.accepts (h : Tracked origin now awards c) (label : Option Label) (count : Nat) :
    let c' := (offers origin label awards.length count).foldl (SourceClient.accept now) c
    Tracked origin now (awards ++ .replicate count ⟨label, now⟩) c' ∧ c'.source = c.source ∧
      c'.holds = c.holds + count := by
  induction count generalizing awards c with
  | zero =>
    dsimp only
    rw [List.replicate_zero, List.append_nil]
    exact ⟨h, rfl, rfl⟩
  | succ count ih =>
    have hnext := ih (h.accept label)
    rw [List.append_assoc, List.length_append, holds_accept] at hnext
    rw [offers, List.range'_succ, List.map_cons, List.foldl_cons]
    exact ⟨hnext.1, hnext.2.1, hnext.2.2.trans (by omega)⟩

theorem commissions_accepts (label : Option Label) (first count : Nat) (c : SourceClient) :
    ((offers origin label first count).foldl (SourceClient.accept now) c).commissions.entries =
      c.commissions.entries ++ (List.range' first count).map fun i =>
        origin.commission now (origin.nextNode + UInt64.ofNat i) := by
  induction count generalizing first c with
  | zero => exact (List.append_nil _).symm
  | succ count ih =>
    rw [offers, List.range'_succ, List.map_cons, List.foldl_cons, List.map_cons]
    refine (ih _ _).trans ?_
    exact List.append_assoc _ [_] _

end Offers

namespace Course

/-! ## What every act keeps -/

structure Sound (origin : SimulatedSource) (c : Course) : Prop where
  source : ∃ outage nodeCount, c.client.source = { origin with
    outage
    nodeCount
    nextNode := origin.nextNode + UInt64.ofNat c.awards.length }
  counted : c.client.source.nodeCount + c.released.length = c.awards.length
  limit : c.client.source.nodeCount ≤ origin.maxNodes
  holds : c.client.holds ≤ c.client.source.nodeCount
  released : ∀ answer ∈ c.released, answer = .ok ()
  tracked : Tracked origin c.now c.awards c.client

theorem sound_start (h : origin.nodeCount = 0) (now : Time) : Sound origin (start origin now) where
  source := by
    refine ⟨origin.outage, origin.nodeCount, ?_⟩
    show origin = { origin with nextNode := origin.nextNode + 0 }
    rw [UInt64.add_zero]
  counted := h
  limit := by
    show origin.nodeCount ≤ _
    omega
  holds := Nat.zero_le _
  released := nofun
  tracked :=
    { length := rfl
      each := fun number k hk => by
        have hnone : (SourceClient.start origin).commissions.get? number = none := by
          rw [SourceClient.start, Commissions.get?]
          split <;> rfl
        exact absurd (hnone.symm.trans hk) (Option.some_ne_none k).symm
      boots := nofun
      distinct := .nil
      kept := nofun }

variable {c : Course} {label : Option Label} {excess : Nat}

/-- What a call for capacity within a scheduler comes to. -/
theorem Sound.provision_eq (h : c.Sound origin) (hhosted : c.client.source.outage = none)
    (label : Option Label) (excess : Nat) :
    c.client.provision c.now label excess =
      (.ok (List.range' c.client.commissions.nextNumber (c.client.source.granted excess)),
        (offers origin label c.awards.length (c.client.source.granted excess)).foldl
          (SourceClient.accept c.now)
          { c.client with
            source := c.client.source.granting (c.client.source.granted excess) }) := by
  obtain ⟨_, _, hsource⟩ := h.source
  have hnext : c.client.source.nextNode = origin.nextNode + UInt64.ofNat c.awards.length := by
    rw [hsource]
  have hoffers : (List.range (c.client.source.granted excess)).map (fun i =>
      c.client.source.offer label (c.client.source.nextNode + UInt64.ofNat i)) =
        offers origin label c.awards.length (c.client.source.granted excess) := by
    rw [offers, List.range'_eq_map_range, List.map_map]
    refine List.map_congr_left fun i _ => ?_
    rw [Function.comp_apply, UInt64.ofNat_add, ← UInt64.add_assoc, ← hnext]
    exact (congrArg (fun s : SimulatedSource => s.offer label _) hsource).trans rfl
  have hcount : (offers origin label c.awards.length (c.client.source.granted excess)).length =
      c.client.source.granted excess := by
    rw [offers, List.length_map, List.length_range']
  rw [SourceClient.provision, SimulatedSource.provision_of_running hhosted]
  dsimp only
  rw [hoffers, hcount]
  rfl

theorem refused_eq {reason : String} (houtage : c.client.source.outage = some reason)
    (label : Option Label) (excess : Nat) :
    c.client.provision c.now label excess = (.error (.unavailable reason), c.client) := by
  simp only [SourceClient.provision, SimulatedSource.provision, houtage]

theorem Sound.provision (h : c.Sound origin) (label : Option Label) (excess : Nat) :
    (c.step (.provision label excess)).Sound origin := by
  cases houtage : c.client.source.outage with
  | some reason =>
    rw [step, refused_eq houtage]
    exact h
  | none =>
    obtain ⟨htracked, hsource, hholds⟩ := (h.tracked.of_source
      (c.client.source.granting (c.client.source.granted excess))).accepts label
        (c.client.source.granted excess)
    have hcounted := h.counted
    have hlimit := h.limit
    obtain ⟨outage, nodeCount, hs⟩ := h.source
    have hslots : c.client.source.maxNodes = origin.maxNodes := by rw [hs]
    have hgranted :
        c.client.source.nodeCount + c.client.source.granted excess ≤ origin.maxNodes := by
      rw [SimulatedSource.granted, hslots]
      omega
    rw [step, h.provision_eq houtage]
    dsimp only
    rw [List.map_const', List.length_range']
    refine ⟨⟨outage, nodeCount + c.client.source.granted excess, ?_⟩, ?_, ?_, ?_, h.released,
      htracked⟩
    · rw [hsource, List.length_append, List.length_replicate, UInt64.ofNat_add, ← UInt64.add_assoc]
      generalize c.client.source.granted excess = n
      rw [hs]
      rfl
    · rw [hsource, List.length_append, List.length_replicate]
      show c.client.source.nodeCount + c.client.source.granted excess + c.released.length = _
      omega
    · rw [hsource]
      exact hgranted
    · rw [hsource, hholds]
      exact Nat.add_le_add_right h.holds _

theorem Sound.pass (h : c.Sound origin) (d : Duration) : (c.step (.pass d)).Sound origin :=
  { h with tracked := h.tracked.later (Nat.le_add_right _ _) }

theorem Sound.enter (h : c.Sound origin) (outage : Option String) :
    (c.step (.enter outage)).Sound origin :=
  { h with
    source := by
      obtain ⟨_, nodeCount, hs⟩ := h.source
      refine ⟨outage, nodeCount, ?_⟩
      rw [step]
      dsimp only
      rw [hs]
    tracked := h.tracked.of_source _ }

/-- A result that has been read is kept, so that the slot is made use of as before. -/
theorem Sound.poll (h : c.Sound origin) (number : Nat) : (c.step (.poll number)).Sound origin := by
  rw [step]
  cases hpoll : c.client.poll? number with
  | none => exact h
  | some p =>
    obtain ⟨poll, client⟩ := p
    obtain ⟨k, completion, hk, hcapacity, rfl, rfl⟩ := poll?_eq_some hpoll
    have hstands := h.tracked.each number k hk
    have htracked := h.tracked.change hk (hstands.polled hcapacity)
    have hholds := holds_put hk ⟨some completion.poll.2, k.handoff.completer⟩
    have htaken := length_taken number hcapacity
    refine { h with holds := ?_, tracked := { htracked with kept := fun p hp => ?_ } }
    · refine Nat.le_trans (Nat.le_of_eq (holds_keep _ _)) (Nat.le_trans ?_ h.holds)
      omega
    · rcases List.mem_append.1 hp with hp | hp
      · exact h.tracked.kept p hp
      · exact hstands.taken hcapacity hp

theorem Sound.drop (h : c.Sound origin) (number : Nat) : (c.step (.drop number)).Sound origin := by
  rw [step, drop_eq]
  cases hk : c.client.commissions.get? number with
  | none => exact h
  | some k =>
    have hstands := h.tracked.each number k hk
    have hholds := holds_put hk ⟨none, k.handoff.completer⟩
    refine { h with holds := ?_, tracked := ?_ }
    · exact Nat.le_trans (Nat.le_of_add_right_le hholds.le) h.holds
    · exact h.tracked.change hk (hstands.dropped _)

/-- A client that makes use of one slot less can give one back. -/
theorem Sound.freed (h : c.Sound origin) {client : SourceClient}
    (hsource : client.source = c.client.source) (hholds : client.holds + 1 ≤ c.client.holds)
    (htracked : Tracked origin c.now c.awards client) :
    Sound origin { c with client := client.freed, released := c.released ++ [.ok ()] } := by
  have hcounted := h.counted
  have hheld := h.holds
  have hcount : client.freed.source.nodeCount = c.client.source.nodeCount - 1 := by
    rw [SourceClient.freed, hsource]
  obtain ⟨outage, nodeCount, hs⟩ := h.source
  refine ⟨⟨outage, nodeCount - 1, ?_⟩, ?_, ?_, ?_, ?_, htracked.of_source _⟩
  · rw [SourceClient.freed, hsource, hs]
  · rw [hcount, List.length_append, List.length_singleton]
    dsimp only
    omega
  · rw [hcount]
    exact Nat.le_trans (Nat.sub_le _ _) h.limit
  · show client.holds ≤ client.freed.source.nodeCount
    omega
  · exact List.forall_mem_append.2 ⟨h.released, List.forall_mem_singleton.2 rfl⟩

theorem Sound.release (h : c.Sound origin) (number : Nat) :
    (c.step (.release number)).Sound origin := by
  rw [step]
  cases hrelease : c.client.release? number with
  | none => exact h
  | some p =>
    obtain ⟨answer, client⟩ := p
    obtain ⟨rfl, ⟨p, hp, hnumber⟩, rfl⟩ := release?_eq_some hrelease
      (Nat.le_trans (Nat.le_add_left _ _) h.holds) fun p hp => (h.tracked.kept p hp).release
    have hfewer : (c.client.kept.filter fun p => p.1 != number).length < c.client.kept.length :=
      List.length_filter_lt_length_iff_exists.2 ⟨p, hp, by simpa using hnumber⟩
    refine h.freed rfl ?_
      { h.tracked with kept := fun p hp => h.tracked.kept p (List.mem_filter.1 hp).1 }
    rw [SourceClient.holds, SourceClient.holds]
    dsimp only
    omega

/-- At the end of its boot a node is delivered, or its slot is given back if nobody waits. -/
theorem Sound.boot_eq (h : c.Sound origin) {place : Nat} {b : Booting}
    (hb : c.client.booting[place]? = some b) {up : Time} (hdue : b.due ≤ up) (hup : up ≤ c.now) :
    ∃ k, c.client.commissions.get? b.number = some k ∧
      (k.handoff = ⟨some .waiting, true⟩ ∧ c.step (.boot place up) = { c with
        client := { c.client.put b.number
            ⟨some (.unread (.ok (Moment.booted up b.node))), false⟩ with
          booting := c.client.booting.eraseIdx place } } ∨
      k.handoff = ⟨none, true⟩ ∧ c.step (.boot place up) = { c with
        client := { c.client.put b.number ⟨none, false⟩ with
          booting := c.client.booting.eraseIdx place }.freed
        released := c.released ++ [.ok ()] }) := by
  have hmem := List.mem_of_getElem? hb
  obtain ⟨award, k, -, -, hnode, hk, hcompleter⟩ := h.tracked.boots b hmem
  have hstep : c.step (.boot place up) =
      c.boot { b with due := up } (c.client.booting.eraseIdx place) := by
    rw [Course.step, hb]
    exact if_pos ⟨hdue, hup⟩
  refine ⟨k, hk, ?_⟩
  rcases (h.tracked.each b.number k hk).waiting hcompleter with hnone | hwaiting
  · have hhandoff : k.handoff = ⟨none, true⟩ := by rw [← hnone, ← hcompleter]
    have hcount : c.client.source.nodeCount ≠ 0 := by
      have hheld := h.holds
      have hpos := List.length_pos_of_mem hmem
      rw [SourceClient.holds] at hheld
      omega
    obtain ⟨n, id, hrelease⟩ : ∃ n id, b.node.release = some (.slot n id) := by
      rw [hnode]
      exact ⟨_, _, rfl⟩
    have hfinish := finishBoot_of_dropped (b := { b with due := up })
      (c := { c.client with booting := c.client.booting.eraseIdx place }) hk hhandoff hcount
      hrelease
    refine .inr ⟨hhandoff, hstep.trans ?_⟩
    rw [Course.boot]
    dsimp only
    rw [hfinish.1, hfinish.2]
    rfl
  · have hhandoff : k.handoff = ⟨some .waiting, true⟩ := by rw [← hwaiting, ← hcompleter]
    have hfinish := finishBoot_of_waiting (b := { b with due := up })
      (c := { c.client with booting := c.client.booting.eraseIdx place }) hk hhandoff
    refine .inl ⟨hhandoff, hstep.trans ?_⟩
    rw [Course.boot]
    dsimp only
    rw [hfinish.1, hfinish.2]
    dsimp only [Option.toList]
    rw [List.append_nil]
    rfl

theorem Sound.boot (h : c.Sound origin) (place : Nat) (up : Time) :
    (c.step (.boot place up)).Sound origin := by
  cases hb : c.client.booting[place]? with
  | none =>
    rw [Course.step, hb]
    exact h
  | some b =>
    by_cases hdue : b.due ≤ up ∧ up ≤ c.now
    · obtain ⟨award, -, haward, hawait, hnode, -, -⟩ := h.tracked.boots b (List.mem_of_getElem? hb)
      obtain ⟨k, hk, ⟨hhandoff, heq⟩ | ⟨hhandoff, heq⟩⟩ := h.boot_eq hb hdue.1 hdue.2
      · have hdelivered : Delivered origin c.now c.awards b.number (Moment.booted up b.node) :=
          ⟨award, up, haward, hawait ▸ hdue.1, hdue.2, by rw [hnode]⟩
        have hholds := holds_finish hb hk
          ⟨some (.unread (.ok (Moment.booted up b.node))), false⟩
        have hread : k.handoff.isUnread = false := by rw [hhandoff]; rfl
        rw [heq]
        refine { h with holds := Nat.le_trans ?_ h.holds, tracked := ?_ }
        · rw [hread] at hholds
          exact Nat.le_of_eq (Nat.succ.inj hholds)
        · exact h.tracked.finish hb hk ((h.tracked.each _ k hk).delivered hdelivered)
      · have hholds := holds_finish hb hk ⟨none, false⟩
        rw [heq]
        refine h.freed rfl ?_ (h.tracked.finish hb hk ((h.tracked.each _ k hk).dropped false))
        exact Nat.le_of_add_right_le hholds.le
    · rw [Course.step, hb]
      dsimp only
      rw [if_neg hdue]
      exact h

theorem Sound.step (h : c.Sound origin) (a : Act) : (c.step a).Sound origin := by
  cases a with
  | pass d => exact h.pass d
  | enter outage => exact h.enter outage
  | provision label excess => exact h.provision label excess
  | boot place up => exact h.boot place up
  | poll number => exact h.poll number
  | drop number => exact h.drop number
  | release number => exact h.release number

theorem Sound.run (h : c.Sound origin) (acts : List Act) : (c.run acts).Sound origin := by
  induction acts generalizing c with
  | nil => exact h
  | cons a acts ih => exact ih (h.step a)

end Course

/-! ## What a simulated source does for its clients -/

/-- What is true of a source and its client at any point of a course, `origin` being the source as
it began. -/
structure Served (origin : SimulatedSource) (c : Course) : Prop where
  /-- The nodes booting or live are those granted less the release handles that were run. -/
  counted : c.client.source.nodeCount + c.released.length = c.awards.length
  limit : c.client.source.nodeCount ≤ origin.maxNodes
  word : c.client.source.nodeCount < countLimit
  released : ∀ answer ∈ c.released, answer = .ok ()
  /-- A call within a scheduler is answered with as many commissions as it takes and as there are
  slots for, and their nodes are numbered on from all that were granted before. -/
  provided : c.client.source.outage = none → ∀ label excess,
    let count := min (excess ⌈/⌉ origin.executorsPerNode.toNat)
      (origin.maxNodes - c.client.source.nodeCount)
    ∃ client,
      c.client.provision c.now label excess =
        (.ok (List.range' (c.awards.length + 1) count), client) ∧
      client.source.nodeCount = c.client.source.nodeCount + count ∧
      client.commissions.entries = c.client.commissions.entries ++
        (List.range' c.awards.length count).map fun i =>
          origin.commission c.now (origin.nextNode + UInt64.ofNat i)
  refused : ∀ reason, c.client.source.outage = some reason → ∀ label excess,
    c.client.provision c.now label excess = (.error (.unavailable reason), c.client)
  /-- A node that a poll gives is the one granted under the number, up since some time that its
  boot was due. -/
  delivered : ∀ number node client, c.client.poll? number = some (.ready (.ok node), client) →
    ∃ award up, c.awards[number - 1]? = some award ∧
      award.time.after origin.bootDelay ≤ up ∧ up ≤ c.now ∧
      node.record.id = origin.nodeId (origin.nextNode + UInt64.ofNat (number - 1)) ∧
      node.record.label = award.label.map (·.text) ∧
      node.record.executors = origin.executorsPerNode ∧
      node.record.registeredAt = up.seconds ∧ node.record.idleSince = some up.seconds
  /-- At the end of the boot of a capacity that was dropped its slot is given back. -/
  handedBack : ∀ place b up k, c.client.booting[place]? = some b → b.due ≤ up → up ≤ c.now →
    c.client.commissions.get? b.number = some k → k.handoff.capacity = none →
    (c.step (.boot place up)).client.source.nodeCount + 1 = c.client.source.nodeCount ∧
      (c.step (.boot place up)).released = c.released ++ [.ok ()]

theorem Course.Sound.served {c : Course} (h : c.Sound origin)
    (hexecutors : 0 < origin.executorsPerNode.toNat) (hmax : origin.maxNodes < countLimit) :
    Served origin c where
  counted := h.counted
  limit := h.limit
  word := Nat.lt_of_le_of_lt h.limit hmax
  released := h.released
  provided hhosted label excess := by
    have hgranted : c.client.source.granted excess =
        min (excess ⌈/⌉ origin.executorsPerNode.toNat)
          (origin.maxNodes - c.client.source.nodeCount) := by
      obtain ⟨_, _, hs⟩ := h.source
      have hper : c.client.source.executorsPerNode = origin.executorsPerNode := by rw [hs]
      have hslots : c.client.source.maxNodes = origin.maxNodes := by rw [hs]
      rw [SimulatedSource.granted, hslots, SimulatedSource.wanted_eq (by rwa [hper]), hper]
    have hnumber : c.client.commissions.nextNumber = c.awards.length + 1 :=
      congrArg (· + 1) h.tracked.length
    obtain ⟨-, hsource, -⟩ := (h.tracked.of_source
      (c.client.source.granting (c.client.source.granted excess))).accepts label
        (c.client.source.granted excess)
    dsimp only
    rw [← hgranted, ← hnumber]
    exact ⟨_, h.provision_eq hhosted label excess, congrArg SimulatedSource.nodeCount hsource,
      commissions_accepts label _ _ _⟩
  refused _ houtage := Course.refused_eq houtage
  delivered number node client hpoll := by
    obtain ⟨k, completion, hk, hcapacity, hread, -⟩ := poll?_eq_some hpoll
    cases completion with
    | waiting | spent => cases hread
    | unread result =>
      cases hread
      obtain ⟨_, hnode, award, up, haward, hdue, hup, rfl⟩ :=
        (h.tracked.each number k hk).unread _ hcapacity
      cases hnode
      exact ⟨award, up, haward, hdue, hup, rfl, rfl, rfl, rfl, rfl⟩
  handedBack place b up k hb hdue hup hk hnone := by
    obtain ⟨k', hk', ⟨hhandoff, -⟩ | ⟨-, heq⟩⟩ := h.boot_eq hb hdue hup
    · rw [hk] at hk'
      cases hk'
      rw [hhandoff] at hnone
      cases hnone
    · have hheld := h.holds
      have hpos := List.length_pos_of_mem (List.mem_of_getElem? hb)
      rw [SourceClient.holds] at hheld
      rw [heq]
      refine ⟨?_, rfl⟩
      show c.client.source.nodeCount - 1 + 1 = c.client.source.nodeCount
      omega

/-- A simulated source counts its slots exactly, numbers its nodes on and delivers them as they
were asked for, whatever its clients do. -/
theorem simulated_serves {settings : SourceSettings} {source : SimulatedSource}
    (h : settings.source = .ok source) (hmax : settings.maxNodes < countLimit)
    (existing : List NodeRecord) (now : Time) (acts : List Act) :
    Served (source.resumeAfter existing)
      ((Course.start (source.resumeAfter existing) now).run acts) := by
  obtain ⟨-, hnodes, -, hcount, -⟩ := SourceSettings.source_ok h
  have hresumed := source.resumeAfter_eq existing
  have hstart : (source.resumeAfter existing).nodeCount = 0 := by rw [hresumed]; exact hcount
  refine ((Course.sound_start hstart now).run acts).served ?_ ?_
  · rw [hresumed]
    show 0 < source.executorsPerNode.toNat
    exact SourceSettings.sized_of_source h
  · rw [hresumed]
    exact hnodes ▸ hmax

/-- Of two nodes that take one slot in turn nobody waits for the first at the end of its boot, and
the second is delivered and released. -/
theorem simulated_serves_solo :
    let acts : List Act := [.provision none 3, .drop 1, .boot 0 ⟨0⟩, .provision none 1,
      .boot 0 ⟨0⟩, .poll 2, .release 2]
    let last := (Course.start ((Solo.source 1).resumeAfter []) ⟨0⟩).run acts
    Solo.settings.source = .ok (Solo.source 1) ∧ Solo.settings.maxNodes < countLimit ∧
      Served ((Solo.source 1).resumeAfter []) last ∧
      last.awards.length = 2 ∧ last.released.length = 2 ∧ last.client.source.nodeCount = 0 := by
  intro acts last
  have hsource : Solo.settings.source = .ok (Solo.source 1) := rfl
  have hmax : Solo.settings.maxNodes < countLimit := by decide
  have hserved : Served ((Solo.source 1).resumeAfter []) last :=
    simulated_serves hsource hmax [] ⟨0⟩ acts
  have hawards : last.awards.length = 2 := by decide +kernel
  have hreleased : last.released.length = 2 := by decide +kernel
  have hcounted := hserved.counted
  exact ⟨hsource, hmax, hserved, hawards, hreleased, by omega⟩

end SourceClient

end Fleet
