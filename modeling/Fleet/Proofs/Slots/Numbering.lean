import Fleet.Proofs.Slots.Hiring

/-!
# The numbers of nodes

The id of a node of a simulated source is the name of the source and a number, and both can be
told from it (`SourceName.nodeId_injective`), whatever dashes and digits the name has.  A source
that numbers on after the records of an earlier run is past all of their numbers
(`SimulatedSource.lt_resumeAfter`).  As long as numbers stay below the last of a machine word
(`NodeId.Counted`), the nodes that sources grant take the next numbers of each, so no two of them
have one id (`SourceSet.Grants.nodup_ids`).
-/

namespace Fleet

/-! ## Ids -/

/-- The id of the node that a source has given a number. -/
def SourceName.nodeId (n : SourceName) (k : Nat) : NodeId := n.text ++ "-" ++ Text.numeral k

theorem SourceName.toList_nodeId (n : SourceName) (k : Nat) :
    (n.nodeId k).toList = n.text.toList ++ '-' :: Nat.toDigits 10 k := by
  simp only [nodeId, Text.numeral, String.toList_append, Nat.toList_repr, List.append_assoc]
  rfl

theorem SimulatedSource.nodeId_eq (s : SimulatedSource) (k : UInt64) :
    s.nodeId k = s.name.nodeId k.toNat := rfl

theorem dash_not_mem_toDigits (k : Nat) : '-' ∉ Nat.toDigits 10 k := fun h =>
  absurd (Json.isDigit_of_mem_toDigits h) (by decide)

/-- Two texts that are split at their last dash are split alike. -/
theorem split_at_last {c : Char} {xs ys xs' ys' : List Char} (h : c ∉ ys) (h' : c ∉ ys')
    (he : xs ++ c :: ys = xs' ++ c :: ys') : xs = xs' ∧ ys = ys' := by
  rcases List.append_eq_append_iff.1 he with ⟨zs, hxs, hys⟩ | ⟨zs, hxs, hys⟩
  · cases zs with
    | nil => exact ⟨by rw [hxs, List.append_nil], (List.cons.inj hys).2⟩
    | cons z zs =>
      have hmem : c ∈ ys := (List.cons.inj hys).2 ▸ List.mem_append_right zs List.mem_cons_self
      exact absurd hmem h
  · cases zs with
    | nil => exact ⟨by rw [hxs, List.append_nil], (List.cons.inj hys).2.symm⟩
    | cons z zs =>
      have hmem : c ∈ ys' := (List.cons.inj hys).2 ▸ List.mem_append_right zs List.mem_cons_self
      exact absurd hmem h'

theorem toDigits_injective {k k' : Nat} (h : Nat.toDigits 10 k = Nat.toDigits 10 k') :
    k = k' := by
  have hread : Nat.ofDigitChars 10 (Nat.toDigits 10 k) 0 =
      Nat.ofDigitChars 10 (Nat.toDigits 10 k') 0 := by rw [h]
  rwa [Nat.ofDigitChars_ten_toDigits, Nat.ofDigitChars_ten_toDigits] at hread

/-- The name of the source and the number can be told from an id. -/
theorem SourceName.nodeId_injective {n n' : SourceName} {k k' : Nat}
    (h : n.nodeId k = n'.nodeId k') : n = n' ∧ k = k' := by
  have hlist := congrArg String.toList h
  rw [toList_nodeId, toList_nodeId] at hlist
  obtain ⟨htext, hdigits⟩ :=
    split_at_last (dash_not_mem_toDigits k) (dash_not_mem_toDigits k') hlist
  exact ⟨SourceName.ext (String.toList_injective htext), toDigits_injective hdigits⟩

/-! ## Numbers that are read back -/

/-- A source reads back the numbers in the ids of its own nodes. -/
theorem SimulatedSource.nodeNumber?_nodeId (s : SimulatedSource) {k : Nat} (h : k < wordLimit) :
    s.nodeNumber? (s.name.nodeId k) = some k := by
  have hlist : (s.name.nodeId k).toList =
      (s.name.text.toList ++ ['-']) ++ Nat.toDigits 10 k := by
    rw [SourceName.toList_nodeId, List.append_assoc]
    rfl
  unfold nodeNumber?
  dsimp only
  rw [hlist, if_pos (List.isPrefixOf_iff_prefix.2 (List.prefix_append _ _)), List.drop_left,
    Text.unsigned?_toDigits h]

/-- The number in an id of this form, if it is one, is not the last of a machine word. -/
def NodeId.Counted (id : NodeId) : Prop :=
  ∀ (n : SourceName) (k : Nat), id = n.nodeId k → k + 1 < wordLimit

/-- The record of a node that its source has given the number in its id. -/
def NodeRecord.Numbered (r : NodeRecord) : Prop :=
  ∃ (n : SourceName) (k : Nat), r.id = n.nodeId k ∧ r.source = n.text ∧ k + 1 < wordLimit

/-- The next number is above that of every record of the source. -/
theorem SimulatedSource.lt_resumeAfter {s : SimulatedSource} {existing : List NodeRecord}
    (h : ∀ r ∈ existing, r.Numbered) {r : NodeRecord} (hr : r ∈ existing) {k : Nat}
    (hid : r.id = s.name.nodeId k) : k < (s.resumeAfter existing).nextNode.toNat := by
  have hnumber {r : NodeRecord} (hr : r ∈ existing) {n : SourceName} {k : Nat}
      (hid : r.id = n.nodeId k) : r.source = n.text ∧ k + 1 < wordLimit := by
    obtain ⟨n', k', hid', hsource, hk⟩ := h r hr
    obtain ⟨rfl, rfl⟩ := SourceName.nodeId_injective (hid.symm.trans hid')
    exact ⟨hsource, hk⟩
  obtain ⟨hsource, hk⟩ := hnumber hr hid
  have hown : r ∈ existing.filter fun r => r.source == s.name.text :=
    List.mem_filter.2 ⟨hr, beq_iff_eq.2 hsource⟩
  have hmem : k ∈ (existing.filter fun r => r.source == s.name.text).filterMap fun r =>
      s.nodeNumber? r.id := by
    refine List.mem_filterMap.2 ⟨r, hown, ?_⟩
    rw [hid]
    exact s.nodeNumber?_nodeId (Nat.lt_of_succ_lt hk)
  unfold resumeAfter
  dsimp only
  split
  · rename_i hnone
    rw [List.max?_eq_none_iff.1 hnone] at hmem
    cases hmem
  · rename_i last hlast
    obtain ⟨hlastmem, hle⟩ := List.max?_eq_some_iff.1 hlast
    -- the greatest number is that of a record of the source, so the next one is a word as well
    obtain ⟨r', hr', hnumber'⟩ := List.mem_filterMap.1 hlastmem
    obtain ⟨hr', hown'⟩ := List.mem_filter.1 hr'
    obtain ⟨n', k', hid', hsource', hk'⟩ := h r' hr'
    obtain rfl : n' = s.name := SourceName.ext (hsource'.symm.trans (beq_iff_eq.1 hown'))
    rw [hid', s.nodeNumber?_nodeId (Nat.lt_of_succ_lt hk')] at hnumber'
    obtain rfl := Option.some.inj hnumber'
    have hword : (UInt64.ofNat (k' + 1)).toNat = k' + 1 := UInt64.toNat_ofNat_of_lt hk'
    rw [hword]
    exact Nat.lt_succ_of_le (hle k hmem)

/-! ## Grants -/

/-- The nodes that a source grants take its next numbers. -/
theorem SimulatedSource.Grants.numbers {s s' : SimulatedSource}
    {nodes : List (RealizedNode ReleaseHandle)} (h : s.Grants s' nodes)
    (hcounted : ∀ node ∈ nodes, NodeId.Counted node.record.id) :
    (nodes.map (·.record.id) : List NodeId) =
        (List.range nodes.length).map (fun i => s.name.nodeId (s.nextNode.toNat + i)) ∧
      s'.nextNode.toNat = s.nextNode.toNat + nodes.length := by
  have hnext (i : Nat) (hi : i ≤ nodes.length) :
      (s.nextNode + UInt64.ofNat i).toNat = s.nextNode.toNat + i := by
    induction i with
    | zero => simp
    | succ i ih =>
      have hthis := ih (Nat.le_of_succ_le hi)
      have hmem : s.nodeId (s.nextNode + UInt64.ofNat i) ∈ nodes.map (·.record.id) := by
        rw [h.ids]
        exact List.mem_map.2 ⟨i, List.mem_range.2 hi, rfl⟩
      obtain ⟨node, hnode, hid⟩ := List.mem_map.1 hmem
      -- a node has this number, so it is not the last one
      have hbound := hcounted node hnode s.name _ (hid.trans (s.nodeId_eq _))
      have hlimit : wordLimit = 2 ^ 64 := rfl
      rw [hthis, hlimit] at hbound
      rw [UInt64.ofNat_add, ← UInt64.add_assoc, UInt64.toNat_add, hthis]
      exact Nat.mod_eq_of_lt hbound
  refine ⟨?_, ?_⟩
  · rw [h.ids]
    refine List.map_congr_left fun i hi => ?_
    rw [s.nodeId_eq, hnext i (List.mem_range.1 hi).le]
  · rw [h.counted]
    exact hnext nodes.length (Nat.le_refl _)

namespace SourceSet.Grants

variable {set set' : SourceSet Source} {nodes : List (RealizedNode ReleaseHandle)}

/-- A node that is granted has one of the next numbers of its source. -/
theorem number (h : set.Grants set' nodes) (hsim : set.Simulated)
    (hcounted : ∀ node ∈ nodes, NodeId.Counted node.record.id)
    {node : RealizedNode ReleaseHandle} (hnode : node ∈ nodes) {n : SourceName}
    (hn : n ∈ set.names) (hof : node.Of n) :
    ∃ s s' k, set.simulated? n = some s ∧ set'.simulated? n = some s' ∧
      node.record.id = n.nodeId k ∧ s.nextNode.toNat ≤ k ∧ k < s'.nextNode.toNat := by
  obtain ⟨s, hs, -⟩ := hsim n hn
  obtain ⟨s', hs', hg⟩ := h.each n s hs
  obtain ⟨hids, hnext⟩ := hg.numbers fun node hm => hcounted node (List.mem_filter.1 hm).1
  have hown : node ∈ nodes.filter (·.holdsSlotOf n) :=
    List.mem_filter.2 ⟨hnode, (hof.holdsSlotOf_iff n).2 rfl⟩
  have hmem : node.record.id ∈ (nodes.filter (·.holdsSlotOf n)).map (·.record.id) :=
    List.mem_map_of_mem hown
  rw [hids] at hmem
  obtain ⟨i, hi, hid⟩ := List.mem_map.1 hmem
  rw [name_of_simulated? hs] at hid
  have hlt := List.mem_range.1 hi
  exact ⟨s, s', s.nextNode.toNat + i, hs, hs', hid.symm, Nat.le_add_right _ _, by omega⟩

/-- No two nodes that are granted at a time have the same id. -/
theorem nodup_ids (h : set.Grants set' nodes) (hsim : set.Simulated)
    (hcounted : ∀ node ∈ nodes, NodeId.Counted node.record.id)
    (hof : ∀ node ∈ nodes, ∃ n ∈ set.names, node.Of n) :
    (nodes.map (·.record.id) : List NodeId).Nodup := by
  -- those of one source have different numbers, and an id tells the source
  have hown (n : SourceName) :
      ((nodes.filter (·.holdsSlotOf n)).map (·.record.id) : List NodeId).Nodup := by
    by_cases hn : n ∈ set.names
    · obtain ⟨s, hs, -⟩ := hsim n hn
      obtain ⟨s', hs', hg⟩ := h.each n s hs
      obtain ⟨hids, -⟩ := hg.numbers fun node hm => hcounted node (List.mem_filter.1 hm).1
      rw [hids]
      refine List.nodup_range.map fun i j he => ?_
      have hk := (SourceName.nodeId_injective he).2
      omega
    · have hnone : nodes.filter (·.holdsSlotOf n) = [] := by
        refine List.filter_eq_nil_iff.2 fun node hnode hholds => ?_
        obtain ⟨n', hn', hof'⟩ := hof node hnode
        exact hn ((hof'.holdsSlotOf_iff n).1 hholds ▸ hn')
      rw [hnone]
      exact .nil
  have hsource {node : RealizedNode ReleaseHandle} (hnode : node ∈ nodes) :
      ∃ n k, node.holdsSlotOf n = true ∧ node.record.id = n.nodeId k := by
    obtain ⟨n, hn, hof'⟩ := hof node hnode
    obtain ⟨_, _, k, -, -, hid, -⟩ := h.number hsim hcounted hnode hn hof'
    exact ⟨n, k, (hof'.holdsSlotOf_iff n).2 rfl, hid⟩
  clear h hsim hcounted hof
  induction nodes with
  | nil => exact .nil
  | cons node nodes ih =>
    refine List.nodup_cons.2 ⟨fun hmem => ?_, ih (fun n => ?_) fun hm => hsource (.tail _ hm)⟩
    · obtain ⟨node', hnode', hid⟩ := List.mem_map.1 hmem
      obtain ⟨n, k, hholds, hnode⟩ := hsource List.mem_cons_self
      obtain ⟨n', k', hholds', hnode''⟩ := hsource (.tail _ hnode')
      obtain ⟨rfl, -⟩ := SourceName.nodeId_injective (hnode''.symm.trans (hid.trans hnode))
      have hnodup := hown n'
      rw [List.filter_cons_of_pos hholds, List.map_cons, List.nodup_cons] at hnodup
      exact hnodup.1 (List.mem_map.2 ⟨node', List.mem_filter.2 ⟨hnode', hholds'⟩, hid⟩)
    · exact (hown n).sublist (((List.sublist_cons_self node nodes).filter _).map _)

end SourceSet.Grants

end Fleet
