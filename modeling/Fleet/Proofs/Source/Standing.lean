import Fleet.Proofs.Source.Course

/-!
# Where the commissions of a client stand

A node that is booting, or that has been delivered to a commission, is the one that was granted
under the number of the commission, and it is up no sooner than the boot takes
(`SourceClient.Tracked`).  A client holds a slot for every node that boots, that nobody has polled
for yet, or that it has kept (`SourceClient.holds`).
-/

namespace Fleet

/-! ## Commissions -/

namespace Handoff

/-- A result is there that nobody has read. -/
def isUnread {ρ : Type} (h : Handoff ρ) : Bool :=
  match h.capacity with
  | some (.unread _) => true
  | _ => false

end Handoff

namespace Commissions

variable {ρ : Type} {cs : Commissions ρ} {number : Nat} {k : Commission ρ}

def unread (cs : Commissions ρ) : Nat := cs.entries.countP (·.handoff.isUnread)

theorem get?_eq_some_iff :
    cs.get? number = some k ↔ number ≠ 0 ∧ cs.entries[number - 1]? = some k := by
  unfold get?
  split <;> simp [*]

theorem get?_add (cs : Commissions ρ) (k : Commission ρ) (number : Nat) :
    (cs.add k).get? number = if number = cs.nextNumber then some k else cs.get? number := by
  unfold get? add nextNumber
  dsimp only
  by_cases hnext : number = cs.entries.length + 1
  · rw [if_pos hnext, if_neg (by omega), hnext, Nat.add_sub_cancel, List.getElem?_concat_length]
  · rw [if_neg hnext]
    by_cases hzero : number = 0
    · rw [if_pos hzero, if_pos hzero]
    · rw [if_neg hzero, if_neg hzero, List.getElem?_append]
      split
      · rfl
      · have hlength : [k].length = 1 := rfl
        rw [List.getElem?_eq_none (by omega), List.getElem?_eq_none (by omega)]

theorem get?_setHandoff (cs : Commissions ρ) (hnumber : number ≠ 0) (h : Handoff ρ) (m : Nat) :
    (cs.setHandoff number h).get? m =
      (cs.get? m).map fun k => if m = number then { k with handoff := h } else k := by
  unfold get? setHandoff
  by_cases hzero : m = 0
  · rw [if_pos hzero, if_pos hzero]
    rfl
  · rw [if_neg hzero, if_neg hzero, List.getElem?_modify]
    refine Option.map_congr fun k _ => ?_
    by_cases hm : m = number
    · rw [if_pos hm, if_pos (by rw [hm])]
    · rw [if_neg hm, if_neg (by omega)]

/-- Changing a handoff changes the count of unread results by what it is about. -/
theorem unread_setHandoff (hk : cs.get? number = some k) (h : Handoff ρ) :
    (cs.setHandoff number h).unread + k.handoff.isUnread.toNat =
      cs.unread + h.isUnread.toNat := by
  obtain ⟨-, hplace⟩ := get?_eq_some_iff.1 hk
  obtain ⟨hlt, hentry⟩ := List.getElem?_eq_some_iff.1 hplace
  have hsplit :
      cs.entries = cs.entries.take (number - 1) ++ k :: cs.entries.drop (number - 1 + 1) := by
    rw [← hentry, List.getElem_cons_drop, List.take_append_drop]
  have hcount (b : Bool) : (if b = true then 1 else 0) = b.toNat := by cases b <;> rfl
  rw [unread, unread, setHandoff, List.modify_eq_take_cons_drop hlt, hentry]
  conv_rhs => rw [hsplit]
  rw [List.countP_append, List.countP_append, List.countP_cons, List.countP_cons, hcount, hcount]
  dsimp only
  omega

end Commissions

/-! ## Deliveries -/

namespace SimulatedSource

/-- The node that a source grants under a number of its commissions. -/
def nodeFor (s : SimulatedSource) (label : Option Label) (number : Nat) :
    RealizedNode ReleaseHandle :=
  s.newNode label (s.nextNode + UInt64.ofNat (number - 1))

/-- The commission of the node numbered `n`, as it begins. -/
def commission (s : SimulatedSource) (now : Time) (n : UInt64) : Commission ReleaseHandle where
  description := "simulated node " ++ s.nodeId n
  promised := s.executorsPerNode.toNat
  createdAt := now
  handoff := .pending

end SimulatedSource

namespace SourceClient

section

variable (origin : SimulatedSource) (now : Time) (awards : List Award)

/-- A node is the one granted under a number, up since some time that its boot was due. -/
def Delivered (number : Nat) (node : RealizedNode ReleaseHandle) : Prop :=
  ∃ award up, awards[number - 1]? = some award ∧ award.time.after origin.bootDelay ≤ up ∧
    up ≤ now ∧ node = Moment.booted up (origin.nodeFor award.label number)

/-- What is true of a commission. -/
structure Standing (number : Nat) (k : Commission ReleaseHandle) : Prop where
  promised : k.promised = origin.executorsPerNode.toNat
  waiting : k.handoff.completer = true →
    k.handoff.capacity = none ∨ k.handoff.capacity = some .waiting
  unread : ∀ result, k.handoff.capacity = some (.unread result) →
    ∃ node, result = .ok node ∧ Delivered origin now awards number node

/-- A boot that is under way is that of the node granted under its number, and its completer has
not been used. -/
def Underway (cs : Commissions ReleaseHandle) (b : Booting) : Prop :=
  ∃ award k, awards[b.number - 1]? = some award ∧
    b.due = award.time.after origin.bootDelay ∧ b.node = origin.nodeFor award.label b.number ∧
      cs.get? b.number = some k ∧ k.handoff.completer = true

structure Tracked (c : SourceClient) : Prop where
  length : c.commissions.entries.length = awards.length
  each : ∀ number k, c.commissions.get? number = some k → Standing origin now awards number k
  boots : ∀ b ∈ c.booting, Underway origin awards c.commissions b
  distinct : (c.booting.map (·.number)).Nodup
  kept : ∀ p ∈ c.kept, Delivered origin now awards p.1 p.2

end

/-- Change the handoff of a commission. -/
def put (number : Nat) (handoff : Handoff ReleaseHandle) (c : SourceClient) : SourceClient :=
  { c with commissions := c.commissions.setHandoff number handoff }

/-- The slots that a client makes use of. -/
def holds (c : SourceClient) : Nat := c.booting.length + c.commissions.unread + c.kept.length

variable {origin : SimulatedSource} {now : Time} {awards : List Award} {c : SourceClient}

theorem Delivered.mono {number : Nat} {node : RealizedNode ReleaseHandle}
    (h : Delivered origin now awards number node) {later : Time} (hlater : now ≤ later)
    (more : List Award) : Delivered origin later (awards ++ more) number node := by
  obtain ⟨award, up, haward, hdue, hup, hnode⟩ := h
  have hlt := (List.getElem?_eq_some_iff.1 haward).1
  exact ⟨award, up, by rw [List.getElem?_append_left hlt, haward], hdue, Nat.le_trans hup hlater,
    hnode⟩

theorem Standing.mono {number : Nat} {k : Commission ReleaseHandle}
    (h : Standing origin now awards number k) {later : Time} (hlater : now ≤ later)
    (more : List Award) : Standing origin later (awards ++ more) number k where
  promised := h.promised
  waiting := h.waiting
  unread result hresult := by
    obtain ⟨node, hnode, hdelivered⟩ := h.unread result hresult
    exact ⟨node, hnode, hdelivered.mono hlater more⟩

theorem Delivered.release {number : Nat} {node : RealizedNode ReleaseHandle}
    (h : Delivered origin now awards number node) :
    ∃ n id, node.release = some (.slot n id) := by
  obtain ⟨_, _, _, _, _, rfl⟩ := h
  exact ⟨_, _, rfl⟩

theorem Standing.polled {number : Nat} {k : Commission ReleaseHandle}
    (h : Standing origin now awards number k) {completion : Completion ReleaseHandle}
    (hcapacity : k.handoff.capacity = some completion) :
    Standing origin now awards number
      { k with handoff := ⟨some completion.poll.2, k.handoff.completer⟩ } where
  promised := h.promised
  waiting hcompleter := by
    rcases h.waiting hcompleter with hnone | hwaiting
    · rw [hnone] at hcapacity
      cases hcapacity
    · rw [hwaiting] at hcapacity
      cases hcapacity
      exact .inr rfl
  unread result hresult := by
    cases completion <;> cases hresult

theorem Standing.dropped {number : Nat} {k : Commission ReleaseHandle}
    (h : Standing origin now awards number k) (completer : Bool) :
    Standing origin now awards number { k with handoff := ⟨none, completer⟩ } where
  promised := h.promised
  waiting _ := .inl rfl
  unread := nofun

theorem Standing.delivered {number : Nat} {k : Commission ReleaseHandle}
    (h : Standing origin now awards number k) {node : RealizedNode ReleaseHandle}
    (hnode : Delivered origin now awards number node) :
    Standing origin now awards number { k with handoff := ⟨some (.unread (.ok node)), false⟩ } where
  promised := h.promised
  waiting := nofun
  unread result hresult := by
    cases hresult
    exact ⟨node, rfl, hnode⟩

namespace Tracked

theorem later (h : Tracked origin now awards c) {later : Time} (hlater : now ≤ later) :
    Tracked origin later awards c where
  length := h.length
  each number k hk := by
    have hstands := (h.each number k hk).mono hlater []
    rwa [List.append_nil] at hstands
  boots := h.boots
  distinct := h.distinct
  kept p hp := by
    have hdelivered := (h.kept p hp).mono hlater []
    rwa [List.append_nil] at hdelivered

theorem of_source (h : Tracked origin now awards c) (source : SimulatedSource) :
    Tracked origin now awards { c with source } :=
  { h with }

/-- A handoff is changed and boots come to an end; the completers of the others are left alone. -/
theorem put (h : Tracked origin now awards c) {number : Nat} {k : Commission ReleaseHandle}
    (hk : c.commissions.get? number = some k) {handoff : Handoff ReleaseHandle}
    (hstands : Standing origin now awards number { k with handoff }) {rest : List Booting}
    (hrest : rest.Sublist c.booting)
    (hfree : number ∈ rest.map (·.number) → handoff.completer = true) :
    Tracked origin now awards { c.put number handoff with booting := rest } := by
  have hnumber := (Commissions.get?_eq_some_iff.1 hk).1
  have hget := c.commissions.get?_setHandoff hnumber handoff
  refine ⟨?_, fun m k' hk' => ?_, fun b hb => ?_, h.distinct.sublist (hrest.map _), h.kept⟩
  · exact (List.length_modify _ _ _).trans h.length
  · obtain ⟨k'', hk'', rfl⟩ := Option.map_eq_some_iff.1 ((hget m).symm.trans hk')
    split
    · rename_i hm
      subst hm
      rw [hk] at hk''
      cases hk''
      exact hstands
    · exact h.each m k'' hk''
  · obtain ⟨award, kb, haward, hdue, hnode, hkb, hcompleter⟩ := h.boots b (hrest.subset hb)
    refine ⟨award, _, haward, hdue, hnode, (hget b.number).trans (congrArg _ hkb), ?_⟩
    dsimp only
    split
    · rename_i hm
      exact hfree (hm ▸ List.mem_map_of_mem hb)
    · exact hcompleter

theorem completer_of_mem (h : Tracked origin now awards c) {number : Nat}
    {k : Commission ReleaseHandle} (hk : c.commissions.get? number = some k)
    (hmem : number ∈ c.booting.map (·.number)) : k.handoff.completer = true := by
  obtain ⟨b, hb, rfl⟩ := List.mem_map.1 hmem
  obtain ⟨_, k', -, -, -, hk', hcompleter⟩ := h.boots b hb
  rw [hk] at hk'
  cases hk'
  exact hcompleter

/-- A handoff is changed, with its completer left alone. -/
theorem change (h : Tracked origin now awards c) {number : Nat} {k : Commission ReleaseHandle}
    (hk : c.commissions.get? number = some k) {capacity : Option (Completion ReleaseHandle)}
    (hstands : Standing origin now awards number
      { k with handoff := ⟨capacity, k.handoff.completer⟩ }) :
    Tracked origin now awards (c.put number ⟨capacity, k.handoff.completer⟩) :=
  h.put hk hstands (List.Sublist.refl _) (h.completer_of_mem hk)

/-- No two boots are under way under one number. -/
theorem not_mem_eraseIdx (h : Tracked origin now awards c) {place : Nat} {b : Booting}
    (hb : c.booting[place]? = some b) :
    b.number ∉ (c.booting.eraseIdx place).map (·.number) := by
  intro hmem
  rw [← List.eraseIdx_map] at hmem
  obtain ⟨i, hne, hi⟩ := List.mem_eraseIdx_iff_getElem?.1 hmem
  have hplace : (c.booting.map (·.number))[place]? = some b.number := by
    rw [List.getElem?_map, hb]
    rfl
  have hlt := (List.getElem?_eq_some_iff.1 hi).1
  exact hne ((List.getElem?_inj hlt h.distinct).1 (hi.trans hplace.symm))

/-- A boot comes to an end, and its completer is used. -/
theorem finish (h : Tracked origin now awards c) {place : Nat} {b : Booting}
    (hb : c.booting[place]? = some b) {k : Commission ReleaseHandle}
    (hk : c.commissions.get? b.number = some k) {handoff : Handoff ReleaseHandle}
    (hstands : Standing origin now awards b.number { k with handoff }) :
    Tracked origin now awards
      { c.put b.number handoff with booting := c.booting.eraseIdx place } :=
  h.put hk hstands (List.eraseIdx_sublist _ _) fun hmem => absurd hmem (h.not_mem_eraseIdx hb)

/-- A client takes over the next capacity that is granted. -/
theorem accept (h : Tracked origin now awards c) (label : Option Label) :
    Tracked origin now (awards ++ [⟨label, now⟩])
      (c.accept now (origin.offer label (origin.nextNode + UInt64.ofNat awards.length))) := by
  have hnext : c.commissions.nextNumber = awards.length + 1 := congrArg (· + 1) h.length
  have hlate (number : Nat) {k : Commission ReleaseHandle}
      (hk : c.commissions.get? number = some k) : number ≠ c.commissions.nextNumber := by
    obtain ⟨hzero, hplace⟩ := Commissions.get?_eq_some_iff.1 hk
    have hlt := (List.getElem?_eq_some_iff.1 hplace).1
    rw [Commissions.nextNumber]
    omega
  have hget (number : Nat) := c.commissions.get?_add
    (origin.commission now (origin.nextNode + UInt64.ofNat awards.length)) number
  refine ⟨?_, fun number k hk => ?_, fun b hb => ?_, ?_, fun p hp => ?_⟩
  · show (c.commissions.entries ++ [_]).length = _
    rw [List.length_append, List.length_append, h.length]
    rfl
  · replace hk := (hget number).symm.trans hk
    split at hk
    · cases hk
      exact ⟨rfl, fun _ => .inr rfl, nofun⟩
    · exact (h.each number k hk).mono (Nat.le_refl _) _
  · rcases List.mem_append.1 hb with hb | hb
    · obtain ⟨award, k, haward, hdue, hnode, hk, hcompleter⟩ := h.boots b hb
      have hlt := (List.getElem?_eq_some_iff.1 haward).1
      refine ⟨award, k, by rw [List.getElem?_append_left hlt, haward], hdue, hnode, ?_, hcompleter⟩
      exact (hget b.number).trans ((if_neg (hlate b.number hk)).trans hk)
    · obtain rfl := List.mem_singleton.1 hb
      refine ⟨⟨label, now⟩, _, ?_, rfl, ?_, (hget _).trans (if_pos rfl), rfl⟩
      · rw [hnext, Nat.add_sub_cancel, List.getElem?_concat_length]
      · rw [SimulatedSource.nodeFor, hnext, Nat.add_sub_cancel]
        rfl
  · show ((c.booting ++ [_]).map Booting.number).Nodup
    rw [List.map_append]
    refine List.nodup_append.2 ⟨h.distinct, List.nodup_singleton _, ?_⟩
    rintro _ hm _ hnew rfl
    obtain ⟨b, hb, hnumber⟩ := List.mem_map.1 hm
    obtain ⟨_, k, -, -, -, hk, -⟩ := h.boots b hb
    exact hlate b.number hk (hnumber.trans (List.mem_singleton.1 hnew))
  · exact (h.kept p hp).mono (Nat.le_refl _) _

end Tracked

end SourceClient

end Fleet
