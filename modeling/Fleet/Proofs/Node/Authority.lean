import Fleet.Proofs.Node.Course
import Fleet.Source.Kind

/-!
# The authority to remove a node

A removal by hand looks at the record of the node to check the permission, and then takes out
whatever record is there under the id.  What it takes out is from a source that the guard
permits, unless a node of this id has been registered in between (`authority_of_removal`): a
registration can put a node of another source in the place of the one that was checked
(`authority_lost`).
-/

namespace Fleet

/-- The guard lets an actor remove a node of this record, by the source that it names. -/
def Guard.Lets (guard : Guard) (actor : Actor) (record : NodeRecord) : Prop :=
  ∃ source, SourceName.ofString record.source = .ok source ∧
    guard.permits actor .remove source = true

theorem Guard.Lets.of_source {guard : Guard} {actor : Actor} {record record' : NodeRecord}
    (h : guard.Lets actor record) (hsource : record'.source = record.source) :
    guard.Lets actor record' := by
  rw [Lets, hsource]
  exact h

theorem NodeRecord.Recounts.source {record r : NodeRecord} (h : record.Recounts r) :
    record.source = r.source := by
  rw [h]

variable {σ ρ : Type} [CapacitySource σ ρ]

/-- A permission is given on the record that is there at the time. -/
theorem authorizeRemoval_ok {guard : Guard} {actor : Actor} {id : NodeId} {r : Registry ρ}
    (h : (authorizeRemoval guard actor id r).1 = .ok ()) :
    ∃ record, r.store.record? id = some record ∧ guard.Lets actor record := by
  have hinstance : NodeRegistry.get id r = r.get id := rfl
  unfold authorizeRemoval at h
  rw [hinstance, Registry.get] at h
  cases hg : r.onStore (Store.getNode id) with
  | mk answer r' =>
    rw [hg] at h
    rcases answer with e | _ | record
    · cases h
    · cases h
    · refine ⟨record, Store.getNode_some (congrArg Prod.fst hg), ?_⟩
      dsimp only at h
      cases hs : SourceName.ofString record.source with
      | error e =>
        rw [hs] at h
        cases h
      | ok source =>
        rw [hs] at h
        refine ⟨source, hs, ?_⟩
        dsimp only [Guard.check] at h
        by_cases hp : guard.permits actor .remove source = true
        · exact hp
        · rw [if_neg hp] at h
          cases h

/-- Where no call fails, a permission that the record allows is given. -/
theorem authorizeRemoval_of_lets {guard : Guard} {actor : Actor} {id : NodeId} {r : Registry ρ}
    {record : NodeRecord} (hcalls : r.store.faults = [])
    (hrecord : r.store.record? id = some record)
    (hlets : guard.Lets actor record) : (authorizeRemoval guard actor id r).1 = .ok () := by
  obtain ⟨source, hname, hpermits⟩ := hlets
  have hfound := Store.getNode_of_record hcalls hrecord
  have hget : NodeRegistry.get id r = (.ok (some record), r) := by
    show r.get id = _
    simp only [Registry.get, Registry.onStore, hfound]
  simp only [authorizeRemoval, hget, hname, Guard.check, hpermits, if_true]

theorem detachFor_ok {actor : Actor} {id : NodeId} {reason : String} {r : Registry ρ}
    {removal : Removal ρ} (hkeyed : r.store.Keyed)
    (h : Change.ofRemoval (detachFor actor id reason r).1 = .leaves removal) :
    r.store.record? id = some removal.node.record ∧ removal.node.record.id = id := by
  have hinstance : NodeRegistry.detach id r = r.detach id := rfl
  unfold detachFor at h
  rw [hinstance] at h
  cases hd : r.detach id with
  | mk answer r' =>
    rw [hd] at h
    rcases answer with e | _ | node
    · cases h
    · cases h
    · cases h
      exact Registry.detach_some hkeyed (congrArg Prod.fst hd)

/-- Where no call fails, the record that is there is taken out. -/
theorem detachFor_of_record {actor : Actor} {id : NodeId} {reason : String} {r : Registry ρ}
    {record : NodeRecord} (hintact : r.store.Intact) (hrecord : r.store.record? id = some record) :
    (detachFor actor id reason r).1 =
      .ok ⟨⟨record, r.release? id⟩, "removed by " ++ actor.name ++ ": " ++ reason⟩ := by
  have hid : record.id = id := hintact.keyed id record hrecord
  have hfound : r.onStore (Store.getNode id) = (.ok (some record), r) := by
    rw [Registry.onStore, Store.getNode_of_record hintact.calls hrecord]
  have hout := Registry.detachRecord_of_due (by rw [hintact.calls]; rfl) record
  rw [hid] at hout
  have hinstance : NodeRegistry.detach id r = r.detach id := rfl
  unfold detachFor
  rw [hinstance, Registry.detach, hfound]
  dsimp only
  cases hr : r.detachRecord record with
  | mk answer r' =>
    rw [hr] at hout
    cases hout
    rfl

/-- Where no call fails, a removal takes out the node that is there. -/
theorem Moment.change_remove [Freeing σ ρ] {m : Moment σ} {id : NodeId} {record : NodeRecord}
    (hintact : m.daemon.registry.store.Intact)
    (hrecord : m.daemon.registry.store.record? id = some record) (now : Time) (actor : Actor)
    (reason : String) : m.change (.remove now actor id reason) =
      .leaves ⟨⟨record, m.daemon.registry.release? id⟩,
        "removed by " ++ actor.name ++ ": " ++ reason⟩ :=
  congrArg Change.ofRemoval (detachFor_of_record hintact hrecord)

/-! ## A node that takes the place of another -/

namespace Takeover

def east : SourceName := ⟨"east", by decide⟩

def west : SourceName := ⟨"west", by decide⟩

def alice : Actor := ⟨"alice"⟩

def admin : Actor := ⟨"admin"⟩

/-- Alice may change what is in the east. -/
def guard : Guard := .ofTable ((GrantTable.empty.grantAll "admin").grant "alice" "east")

def node (source : SourceName) : RealizedNode ReleaseHandle :=
  ⟨.fresh "n-1" source.text none 1 1000 "", .always, none⟩

/-- A source that offers a node which is up at once. -/
def offering (source : SourceName) : Source :=
  .scripted ⟨source, [none], [], ⟨[.ok [⟨"", 1, .unread (.ok (node source)), ⟨0⟩, none⟩]]⟩⟩

def store : Store := ⟨.insert .empty "n-1" (node east).record.toJson.compact, .empty, []⟩

theorem intact_store : store.Intact :=
  ⟨rfl, Table.Readable.empty.insert (a := (node east).record) (Store.decodeNode_compact _), .empty⟩

def sources : SourceSet Source := ⟨[offering west], by decide⟩

def start : Moment Source :=
  .start sources guard none 0 store (some .always) .board 16

/-- Somebody else takes out the node, and one of the same id comes up in the west. -/
def others : List (Moment.Act Source) :=
  [.remove ⟨0⟩ admin "n-1" "no longer needed", .provision ⟨0⟩ admin "west" none 1, .begin ⟨0⟩,
    .advance]

theorem record_start : start.daemon.registry.store.record? "n-1" = some (node east).record :=
  (Table.read?_insert (Store.decodeNode_compact _) _ _).trans (if_pos rfl)

theorem lets_alice : guard.Lets alice (node east).record :=
  ⟨east, SourceName.ofString_eq_ok_iff.2 rfl, by decide +kernel⟩

theorem permitted : (authorizeRemoval guard alice "n-1" start.daemon.registry).1 = .ok () :=
  authorizeRemoval_of_lets rfl record_start lets_alice

end Takeover

/-! ## What is taken out -/

/-- From any moment of any run, an actor is permitted to remove the node `id` and then does so,
while others act in between.  The node that is taken out is from a source that the guard
permits, or from that of a node which has been registered under this id in between. -/
theorem authority_of_removal [Freeing σ ρ] (sources : SourceSet σ) (loopGuard : Guard)
    (timeout : Option Duration) (nextId : PlannedId) (store : Store)
    (orphanPolicy : Option Policy) (signal : Demand.Signal) (history : Nat)
    (hkeyed : store.Keyed) (acts others : List (Moment.Act σ)) (guard : Guard) (actor : Actor)
    (id : NodeId) (reason : String) (now : Time) (removal : Removal ρ) :
    let start : Moment σ :=
      .start sources loopGuard timeout nextId store orphanPolicy signal history
    let looked := (start.run acts).step (.consult (.get id))
    (authorizeRemoval guard actor id (start.run acts).daemon.registry).1 = .ok () →
      (looked.run others).change (.remove now actor id reason) = .leaves removal →
        removal.node.record.id = id ∧ (guard.Lets actor removal.node.record ∨
          ∃ node, .enters node ∈ looked.changes others ∧ node.record.id = id ∧
            node.record.source = removal.node.record.source) := by
  intro start looked hpermit hremove
  have hsteady : (start.run acts).Steady := (Moment.steady_start hkeyed sources loopGuard timeout
    nextId orphanPolicy signal history).run acts
  have hlooked : looked.Steady := hsteady.step _
  obtain ⟨checked, hchecked, hlets⟩ := authorizeRemoval_ok hpermit
  have hsame : looked.daemon.registry.store.record? id = some checked := by
    rw [(Moment.step_undergoes hsteady (.consult (.get id))).record?]
    exact hchecked
  obtain ⟨hrecord, hid⟩ := detachFor_ok (hlooked.run others).keyed hremove
  refine ⟨hid, ?_⟩
  refine Moment.run_record (P := fun record => guard.Lets actor record ∨
    ∃ node, .enters node ∈ looked.changes others ∧ node.record.id = id ∧
      node.record.source = record.source) ?_ hlooked others ?_ ?_ _ hrecord
  · intro record old hcounts hold
    refine hold.imp (fun h => h.of_source hcounts.source) ?_
    rintro ⟨node, hnode, hnodeid, hsource⟩
    exact ⟨node, hnode, hnodeid, hsource.trans hcounts.source.symm⟩
  · intro record hnow
    rw [hsame] at hnow
    cases hnow
    exact .inl hlets
  · intro node hnode hnodeid
    exact .inr ⟨node, hnode, hnodeid, rfl⟩

theorem authority_of_removal_alone :
    Takeover.store.Keyed ∧
      (authorizeRemoval Takeover.guard Takeover.alice "n-1" Takeover.start.daemon.registry).1 =
        .ok () ∧
      ∃ removal, ((Takeover.start.step (.consult (.get "n-1"))).run []).change
          (.remove ⟨0⟩ Takeover.alice "n-1" "cleanup") = .leaves removal ∧
        removal.node.record.id = "n-1" ∧
        Takeover.guard.Lets Takeover.alice removal.node.record := by
  have hstart : Takeover.start.Steady :=
    Moment.steady_start Takeover.intact_store.keyed _ _ _ _ _ _ _
  have hlooked := Moment.step_undergoes hstart (.consult (.get "n-1"))
  have hrecord : ((Takeover.start.step (.consult (.get "n-1"))).run
      []).daemon.registry.store.record? "n-1" = some (Takeover.node Takeover.east).record := by
    show (Takeover.start.step (.consult (.get "n-1"))).daemon.registry.store.record? "n-1" = _
    rw [hlooked.record?]
    exact Takeover.record_start
  have hremove := Moment.change_remove (hlooked.intact Takeover.intact_store) hrecord ⟨0⟩
    Takeover.alice "cleanup"
  obtain ⟨hid, hlets | ⟨node, hnode, -⟩⟩ := authority_of_removal Takeover.sources Takeover.guard
    none 0 Takeover.store (some .always) .board 16 Takeover.intact_store.keyed [] [] Takeover.guard
    Takeover.alice "n-1" "cleanup" ⟨0⟩ _ Takeover.permitted hremove
  · exact ⟨Takeover.intact_store.keyed, Takeover.permitted, _, hremove, hid, hlets⟩
  · cases hnode

/-- What an actor takes out may be what the guard does not permit to be removed: the permission
was given for the node that was there before. -/
theorem authority_lost :
    ¬∀ (guard : Guard) (actor : Actor) (id : NodeId) (reason : String) (now : Time)
      (acts others : List (Moment.Act Source)) (removal : Removal ReleaseHandle),
      (authorizeRemoval guard actor id (Takeover.start.run acts).daemon.registry).1 = .ok () →
        (((Takeover.start.run acts).step (.consult (.get id))).run others).change
            (.remove now actor id reason) = .leaves removal →
          guard.Lets actor removal.node.record := by
  intro h
  have hout : (((Takeover.start.step (.consult (.get "n-1"))).run Takeover.others).change
      (.remove ⟨0⟩ Takeover.alice "n-1" "cleanup")).departed.map (·.node.record.source) =
        ["west"] := by
    decide +kernel
  obtain ⟨removal, hremove, hsource⟩ := Change.eq_leaves_of_departed hout
  obtain ⟨source, hname, hlets⟩ := h Takeover.guard Takeover.alice "n-1" "cleanup" ⟨0⟩ []
    Takeover.others removal Takeover.permitted hremove
  rw [hsource, SourceName.ofString_eq_ok_iff] at hname
  obtain rfl : source = Takeover.west := SourceName.ext hname
  exact absurd hlets (by decide +kernel)

end Fleet
