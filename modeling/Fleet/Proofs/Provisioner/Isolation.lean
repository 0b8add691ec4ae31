import Fleet.Proofs.Provisioner.Course
import Fleet.Proofs.Provisioner.Request
import Fleet.Source.Kind

/-!
# A failing source does not disturb the others

Two ticks are run from one state, one with a source and one without it.  As long as no call to
the source brings capacity, the two stay in step (`Round.Without`): all other sources are asked
the same, and the rest of the round differs only in what is said of the source's failures and of
demand that is not met.  A source that has failed is left alone for the rest of the tick
(`Round.Parted`), and the next tick, which begins with no failure, asks it again.
-/

namespace Fleet

/-! ## Sets without a member -/

namespace SourceSet

variable {σ ρ : Type} [CapacitySource σ ρ]

theorem ext_members {set set' : SourceSet σ} (h : set.members = set'.members) : set = set' := by
  cases set
  cases set'
  cases h
  rfl

theorem text_bne_iff (n f : SourceName) : (n.text != f.text) = decide (n ≠ f) := by
  by_cases h : n = f
  · rw [h]
    simp
  · have htext : n.text ≠ f.text := fun he => h (SourceName.ext he)
    simp [h, htext]

theorem names_remove (set : SourceSet σ) (f : SourceName) :
    (set.remove f.text).names = set.names.filter (· ≠ f) := by
  rw [names, names, remove, List.filter_map]
  refine congrArg (List.map _) (List.filter_congr fun s _ => ?_)
  exact text_bne_iff _ f

theorem get?_remove (set : SourceSet σ) {n f : SourceName} (h : n ≠ f) :
    (set.remove f.text).get? n = set.get? n := by
  rw [get?, get?, remove, List.find?_filter]
  refine congrArg (List.find? · set.members) (funext fun s => ?_)
  by_cases hn : CapacitySource.name s = n
  · have hne : n.text ≠ f.text := fun he => h (SourceName.ext he)
    simp [hn, hne]
  · simp [hn]

/-- A call keeps names, so it does not matter whether a member is removed before it or after. -/
theorem remove_update (set : SourceSet σ) (n f : SourceName) (call : σ → σ)
    (keeps : ∀ s, CapacitySource.name (call s) = CapacitySource.name s) :
    (set.update n call keeps).remove f.text = (set.remove f.text).update n call keeps := by
  refine ext_members ?_
  show List.filter _ (List.map _ set.members) = List.map _ (List.filter _ set.members)
  rw [List.filter_map]
  refine congrArg (List.map _) (List.filter_congr fun s _ => ?_)
  rw [Function.comp_apply]
  split
  · rw [keeps]
  · rfl

theorem update_of_absent {set : SourceSet σ} {n : SourceName} (h : n ∉ set.names) (call : σ → σ)
    (keeps : ∀ s, CapacitySource.name (call s) = CapacitySource.name s) :
    set.update n call keeps = set := by
  refine ext_members ((List.map_congr_left fun s hs => ?_).trans (List.map_id _))
  have hne : CapacitySource.name s ≠ n := by
    intro he
    exact h (he ▸ List.mem_map_of_mem hs)
  rw [if_neg hne]
  rfl

/-- What is called on the member that is removed makes no difference. -/
theorem remove_update_self (set : SourceSet σ) (f : SourceName) (call : σ → σ)
    (keeps : ∀ s, CapacitySource.name (call s) = CapacitySource.name s) :
    (set.update f call keeps).remove f.text = set.remove f.text := by
  have habsent : f ∉ (set.remove f.text).names := by
    rw [names_remove]
    simp
  rw [remove_update, update_of_absent habsent]

end SourceSet

/-! ## Calls are only added -/

namespace Work

variable {σ ρ : Type} [CapacitySource σ ρ]

theorem Asked.calls_extend {now : Time} {w w' : Work σ} (h : Asked now w w') :
    w.calls <+: w'.calls := by
  cases h with
  | remark => exact List.prefix_rfl
  | can account =>
    unfold askCan
    split
    · exact List.prefix_rfl
    · exact List.prefix_append _ _
  | capacity account workload =>
    unfold askFor
    split
    · exact List.prefix_rfl
    · exact List.prefix_append _ _
    · dsimp only
      rw [accept_eq]
      exact List.prefix_append _ _

theorem Course.calls_extend {now : Time} {w w' : Work σ} (h : Course now w w') :
    w.calls <+: w'.calls := by
  induction h with
  | refl => exact List.prefix_rfl
  | tail _ hstep ih => exact ih.trans hstep.calls_extend

end Work

/-! ## Two rounds in step -/

/-- An event that says that a request to `f` failed, or that some demand is not met. -/
def Event.isComplaint (f : SourceName) : Event → Bool
  | requestFailed n _ _ => n = f
  | demandUnmet _ _ => true
  | _ => false

/-- A call to `f` for capacity that has not failed. -/
def SourceCall.brings (f : SourceName) : SourceCall → Bool
  | provision n _ _ (.ok _) => n = f
  | _ => false

/-- Every call to `f` was declined or has failed, or was about what it serves only. -/
def Barren (f : SourceName) (calls : List SourceCall) : Prop := ∀ c ∈ calls, c.brings f = false

instance (f : SourceName) (calls : List SourceCall) : Decidable (Barren f calls) :=
  inferInstanceAs (Decidable (∀ c ∈ calls, c.brings f = false))

theorem Barren.of_prefix {f : SourceName} {cs ds : List SourceCall} (h : Barren f ds)
    (hextends : cs <+: ds) : Barren f cs :=
  fun c hc => h c (hextends.subset hc)

namespace Work

variable {σ ρ : Type} [CapacitySource σ ρ] {f : SourceName} {w w' : Work σ}

/-- `w'` is what `w` would be if `f` had not been among its sources. -/
structure Without (f : SourceName) (w w' : Work σ) : Prop where
  loop : w'.loop = { w.loop with sources := w.loop.sources.remove f.text }
  events : w'.events.filter (!·.isComplaint f) = w.events.filter (!·.isComplaint f)
  calls : w'.calls = w.calls.filter (·.source ≠ f)
  boots : w'.boots = w.boots

namespace Without

theorem emit (h : Without f w w') (e : Event) : Without f (w.emit e) (w'.emit e) where
  loop := h.loop
  events := by
    show List.filter _ (w'.events ++ [e]) = List.filter _ (w.events ++ [e])
    rw [List.filter_append, List.filter_append, h.events]
  calls := h.calls
  boots := h.boots

/-- A complaint does not count. -/
theorem emit_left (h : Without f w w') {e : Event} (he : e.isComplaint f = true) :
    Without f (w.emit e) w' where
  loop := h.loop
  events := by
    show _ = List.filter _ (w.events ++ [e])
    rw [List.filter_append, h.events, List.filter_cons_of_neg (by simp [he]), List.filter_nil,
      List.append_nil]
  calls := h.calls
  boots := h.boots

/-- A call that leaves the sources as `sources`, and the same call without `f`. -/
theorem called (h : Without f w w') {sources : SourceSet σ} {c : SourceCall}
    (hc : c.source ≠ f) :
    Without f (w.called sources [c]) (w'.called (sources.remove f.text) [c]) where
  loop := by
    rw [Work.called, Work.called, h.loop]
  events := h.events
  calls := by
    show w'.calls ++ [c] = List.filter _ (w.calls ++ [c])
    rw [List.filter_append, h.calls, List.filter_cons_of_pos (by simpa using hc), List.filter_nil]
  boots := h.boots

/-- A call to `f` has no counterpart. -/
theorem called_left (h : Without f w w') {sources : SourceSet σ} {c : SourceCall}
    (hc : c.source = f) (hsources : sources.remove f.text = w.loop.sources.remove f.text) :
    Without f (w.called sources [c]) w' where
  loop := by
    show w'.loop = { w.loop with sources := sources.remove f.text }
    rw [hsources]
    exact h.loop
  events := h.events
  calls := by
    show _ = List.filter _ (w.calls ++ [c])
    rw [List.filter_append, h.calls, List.filter_cons_of_neg (by simp [hc]), List.filter_nil,
      List.append_nil]
  boots := h.boots

theorem accept (h : Without f w w') (now : Time) (account : Account) (offers : List (Offer ρ)) :
    Without f (w.accept now account offers) (w'.accept now account offers) where
  loop := by rw [accept_eq, accept_eq, h.loop]
  events := by
    rw [accept_eq, accept_eq, h.loop]
    show List.filter _ (w'.events ++ _) = List.filter _ (w.events ++ _)
    rw [List.filter_append, List.filter_append, h.events]
  calls := by
    rw [accept_eq, accept_eq]
    exact h.calls
  boots := by rw [accept_eq, accept_eq, h.loop, h.boots]

end Without

/-! ### Single calls -/

/-- Asking another source whether it serves a label comes to the same. -/
theorem askCan_without {n : SourceName} (h : Without f w w') (hn : n ≠ f)
    (label : Option Label) :
    (w'.askCan ⟨n, label⟩).1 = (w.askCan ⟨n, label⟩).1 ∧
      Without f (w.askCan ⟨n, label⟩).2 (w'.askCan ⟨n, label⟩).2 := by
  have hsources : w'.loop.sources = w.loop.sources.remove f.text := by rw [h.loop]
  unfold askCan SourceSet.canProvision
  rw [hsources, SourceSet.get?_remove _ hn]
  cases hs : w.loop.sources.get? n with
  | none => exact ⟨rfl, h⟩
  | some s =>
    refine ⟨rfl, ?_⟩
    dsimp only [Option.map_some]
    rw [← SourceSet.remove_update]
    exact h.called (c := .canProvision n label (CapacitySource.canProvision label s).1) hn

/-- Asking another source for capacity comes to the same. -/
theorem askFor_without {n : SourceName} (h : Without f w w') (hn : n ≠ f) (now : Time)
    (label : Option Label) (workload : Nat) :
    (w'.askFor now ⟨n, label⟩ workload).1 = (w.askFor now ⟨n, label⟩ workload).1 ∧
      Without f (w.askFor now ⟨n, label⟩ workload).2 (w'.askFor now ⟨n, label⟩ workload).2 := by
  have hsources : w'.loop.sources = w.loop.sources.remove f.text := by rw [h.loop]
  have hnext : w'.loop.nextId = w.loop.nextId := by rw [h.loop]
  unfold askFor SourceSet.provision
  rw [hsources, SourceSet.get?_remove _ hn, hnext]
  cases hs : w.loop.sources.get? n with
  | none => exact ⟨rfl, h⟩
  | some s =>
    dsimp only [Option.map_some]
    rw [← SourceSet.remove_update]
    cases hp : (CapacitySource.provision label workload s).1 with
    | error e =>
      refine ⟨rfl, ?_⟩
      exact (h.called (c := .provision n label workload (.error e)) hn).emit _
    | ok offers =>
      refine ⟨rfl, ?_⟩
      exact (h.called (c := .provision n label workload
        (.ok (List.range' w.loop.nextId offers.length))) hn).accept now ⟨n, label⟩ offers

/-- Asking `f` whether it serves a label makes no difference. -/
theorem askCan_without_self (h : Without f w w') (label : Option Label) :
    Without f (w.askCan ⟨f, label⟩).2 w' := by
  unfold askCan SourceSet.canProvision
  cases hs : w.loop.sources.get? f with
  | none => exact h
  | some s =>
    exact h.called_left (c := .canProvision f label (CapacitySource.canProvision label s).1) rfl
      (w.loop.sources.remove_update_self f _ _)

/-- Asking `f` for capacity fails, as long as it brings none, and makes no difference. -/
theorem askFor_without_self (h : Without f w w') (hmem : f ∈ w.loop.sources.names) (now : Time)
    (label : Option Label) (workload : Nat)
    (hbarren : Barren f (w.askFor now ⟨f, label⟩ workload).2.calls) :
    Without f (w.askFor now ⟨f, label⟩ workload).2 w' ∧
      ∃ e, (w.askFor now ⟨f, label⟩ workload).1 = .error e := by
  obtain ⟨s, hs⟩ := SourceSet.get?_eq_some_of_mem hmem
  unfold askFor SourceSet.provision at hbarren ⊢
  rw [hs] at hbarren ⊢
  dsimp only [Option.map_some] at hbarren ⊢
  cases hp : (CapacitySource.provision label workload s).1 with
  | error e =>
    refine ⟨?_, e, rfl⟩
    refine (h.called_left (c := .provision f label workload (.error e)) rfl
      (w.loop.sources.remove_update_self f _ _)).emit_left ?_
    exact decide_eq_true rfl
  | ok offers =>
    rw [hp] at hbarren
    dsimp only at hbarren
    rw [accept_eq] at hbarren
    have hnot := hbarren _ (List.mem_append_right _ (List.mem_singleton_self _))
    exact absurd hnot (by simp [SourceCall.brings])

theorem names_askCan (account : Account) (w : Work σ) :
    (w.askCan account).2.loop.sources.names = w.loop.sources.names := by
  cases h : w.loop.sources.get? account.source with
  | none =>
    rw [askCan, SourceSet.canProvision, h]
    rfl
  | some s =>
    rw [askCan_eq h]
    exact SourceSet.names_canProvision _ _ _

end Work

namespace Round

variable {σ R ρ : Type} [CapacitySource σ ρ] {f : SourceName}

/-- `r'` is what `r` would be if `f` had not been among its sources. -/
structure Without (f : SourceName) (r r' : Round σ R) : Prop
    extends Work.Without f r.toWork r'.toWork where
  registry : r'.registry = r.registry
  failed : r'.failed = r.failed.filter (· ≠ f)
  discarded : r'.discarded = r.discarded
  report : r'.report = { r.report with
    sourceFailures := r'.report.sourceFailures
    unmet := r'.report.unmet }

theorem Without.contains_failed {r r' : Round σ R} (h : Without f r r') {n : SourceName}
    (hn : n ≠ f) : r'.failed.contains n = r.failed.contains n := by
  rw [h.failed, Bool.eq_iff_iff, List.contains_iff_mem, List.contains_iff_mem, List.mem_filter]
  simp [hn]

/-- An asking and what it would be without `f`; what it has been granted is the same. -/
structure Asking.Without (f : SourceName) (a a' : Asking σ R) : Prop where
  round : a.round.Without f a'.round
  granted : a'.granted = a.granted

theorem Without.markFailed {r r' : Round σ R} (h : Without f r r') {w w' : Work σ}
    (hwork : w.Without f w') {n : SourceName} (hn : n ≠ f) :
    Without f ({ r with toWork := w }.markFailed n) ({ r' with toWork := w' }.markFailed n) where
  toWithout := hwork
  registry := h.registry
  failed := by
    show r'.failed ++ [n] = List.filter _ (r.failed ++ [n])
    rw [List.filter_append, h.failed, List.filter_cons_of_pos (by simpa using hn), List.filter_nil]
  discarded := h.discarded
  report := h.report

theorem Without.markFailed_left {r r' : Round σ R} (h : Without f r r') {w : Work σ}
    (hwork : w.Without f r'.toWork) :
    Without f ({ r with toWork := w }.markFailed f) r' where
  toWithout := hwork
  registry := h.registry
  failed := by
    show _ = List.filter _ (r.failed ++ [f])
    rw [List.filter_append, h.failed, List.filter_cons_of_neg (by simp), List.filter_nil,
      List.append_nil]
  discarded := h.discarded
  report := h.report

/-- Another source is asked the same and answers the same. -/
theorem askSource_without {n : SourceName} {a a' : Asking σ R} (h : a.Without f a') (hn : n ≠ f)
    (now : Time) (label : Option Label) (remaining : Nat) :
    (askSource now label remaining n a).Without f (askSource now label remaining n a') := by
  obtain ⟨hround, hgranted⟩ := h
  obtain ⟨hcan, hwork⟩ := Work.askCan_without hround.toWithout hn label
  unfold askSource
  dsimp only
  rw [hround.contains_failed hn]
  by_cases hfailed : a.round.failed.contains n = true
  · rw [if_pos hfailed, if_pos hfailed]
    exact ⟨hround, hgranted⟩
  rw [if_neg hfailed, if_neg hfailed]
  rcases hw : a.round.toWork.askCan ⟨n, label⟩ with ⟨answer, w⟩
  rcases hw' : a'.round.toWork.askCan ⟨n, label⟩ with ⟨answer', w'⟩
  rw [hw, hw'] at hcan hwork
  cases hcan
  rcases answer with e | _ | _
  · exact ⟨hround.markFailed (hwork.emit _) hn, hgranted⟩
  · exact ⟨⟨hwork, hround.registry, hround.failed, hround.discarded, hround.report⟩, hgranted⟩
  dsimp only at hwork ⊢
  rw [hgranted]
  obtain ⟨hfor, hwork⟩ := Work.askFor_without hwork hn now label (remaining - a.granted)
  rcases hv : w.askFor now ⟨n, label⟩ (remaining - a.granted) with ⟨answer, v⟩
  rcases hv' : w'.askFor now ⟨n, label⟩ (remaining - a.granted) with ⟨answer', v'⟩
  rw [hv, hv'] at hfor hwork
  cases hfor
  rcases answer with e | ⟨ids, executors⟩
  · exact ⟨hround.markFailed hwork hn, rfl⟩
  · refine ⟨⟨hwork, hround.registry, hround.failed, hround.discarded, ?_⟩, rfl⟩
    dsimp only
    rw [hround.report]

/-- That `f` is asked as well makes no difference, as long as it brings no capacity. -/
theorem askSource_without_self {a a' : Asking σ R} (h : a.Without f a')
    (hmem : f ∈ a.round.loop.sources.names) (now : Time) (label : Option Label)
    (remaining : Nat) (hbarren : Barren f (askSource now label remaining f a).round.calls) :
    (askSource now label remaining f a).Without f a' := by
  obtain ⟨hround, hgranted⟩ := h
  have hwork := Work.askCan_without_self hround.toWithout label
  have hnames := Work.names_askCan ⟨f, label⟩ a.round.toWork
  unfold askSource at hbarren ⊢
  dsimp only at hbarren ⊢
  by_cases hfailed : a.round.failed.contains f = true
  · rw [if_pos hfailed]
    exact ⟨hround, hgranted⟩
  rw [if_neg hfailed] at hbarren ⊢
  rcases hw : a.round.toWork.askCan ⟨f, label⟩ with ⟨answer, w⟩
  rw [hw] at hwork hnames hbarren
  rcases answer with e | _ | _
  · exact ⟨hround.markFailed_left (hwork.emit_left (decide_eq_true rfl)), hgranted⟩
  · exact ⟨⟨hwork, hround.registry, hround.failed, hround.discarded, hround.report⟩, hgranted⟩
  dsimp only at hwork hbarren ⊢
  have hmem' : f ∈ w.loop.sources.names := hnames ▸ hmem
  have hself := Work.askFor_without_self hwork hmem' now label (remaining - a.granted)
  rcases hv : w.askFor now ⟨f, label⟩ (remaining - a.granted) with ⟨answer, v⟩
  rw [hv] at hself hbarren
  rcases answer with e | ⟨ids, executors⟩
  · obtain ⟨hwork, -⟩ := hself hbarren
    exact ⟨hround.markFailed_left hwork, hgranted⟩
  · obtain ⟨-, e, he⟩ := hself hbarren
    cases he

theorem askSources_without (now : Time) (label : Option Label) (remaining : Nat)
    {ns : List SourceName} {a a' : Asking σ R} (h : a.Without f a')
    (hmem : ∀ n ∈ ns, n ∈ a.round.loop.sources.names)
    (hbarren : Barren f (askSources now label remaining ns a).round.calls) :
    (askSources now label remaining ns a).Without f
      (askSources now label remaining (ns.filter (· ≠ f)) a') := by
  induction ns generalizing a a' with
  | nil => exact h
  | cons n ns ih =>
    by_cases henough : remaining ≤ a.granted
    · rw [askSources_of_le henough, askSources_of_le (h.granted ▸ henough)]
      exact h
    have henough' : ¬ remaining ≤ a'.granted := h.granted ▸ henough
    have hasks := askSource_asks now label remaining (hmem n List.mem_cons_self)
    have hmem' : ∀ m ∈ ns, m ∈ (askSource now label remaining n a).round.loop.sources.names := by
      intro m hm
      rw [hasks.names]
      exact hmem m (List.mem_cons_of_mem n hm)
    rw [askSources, if_neg henough] at hbarren ⊢
    by_cases hn : n = f
    · subst hn
      rw [List.filter_cons_of_neg (by simp)]
      have hfirst := hbarren.of_prefix (askSources_course now label remaining ns _).calls_extend
      exact ih (askSource_without_self h (hmem n List.mem_cons_self) now label remaining hfirst)
        hmem' hbarren
    · rw [List.filter_cons_of_pos (by simpa using hn), askSources, if_neg henough']
      exact ih (askSource_without h hn now label remaining) hmem' hbarren

theorem Without.unmet_left {r r' : Round σ R} (h : Without f r r') (d : Demand) :
    Without f { r with
      events := r.events ++ [.demandUnmet d.label d.excess]
      report := { r.report with unmet := r.report.unmet ++ [d.label] } } r' where
  toWithout := h.toWithout.emit_left rfl
  registry := h.registry
  failed := h.failed
  discarded := h.discarded
  report := h.report

theorem Without.unmet_right {r r' : Round σ R} (h : Without f r r') (d : Demand) :
    Without f r { r' with
      events := r'.events ++ [.demandUnmet d.label d.excess]
      report := { r'.report with unmet := r'.report.unmet ++ [d.label] } } where
  loop := h.loop
  events := by
    rw [List.filter_append, h.events, List.filter_cons_of_neg (by simp [Event.isComplaint]),
      List.filter_nil, List.append_nil]
  calls := h.calls
  boots := h.boots
  registry := h.registry
  failed := h.failed
  discarded := h.discarded
  report := by
    dsimp only
    rw [h.report]

theorem evaluate_without {r r' : Round σ R} (h : Without f r r') (now : Time) (d : Demand)
    (hbarren : Barren f (r.evaluate now d).calls) :
    Without f (r.evaluate now d) (r'.evaluate now d) := by
  have hledger : r'.loop.ledger = r.loop.ledger := by rw [h.loop]
  have hnames : r'.loop.sources.names = r.loop.sources.names.filter (· ≠ f) := by
    rw [h.loop]
    exact SourceSet.names_remove _ _
  have hstart : (⟨r, 0, false, false⟩ : Asking σ R).Without f ⟨r', 0, false, false⟩ := ⟨h, rfl⟩
  have hasked := askSources_without now d.label
    (d.excess - r.loop.ledger.promisedForLabel d.label) hstart fun n hn => hn
  unfold evaluate at hbarren ⊢
  rw [hledger, hnames]
  dsimp only at hbarren ⊢
  by_cases hnone : d.excess - r.loop.ledger.promisedForLabel d.label = 0
  · rw [if_pos hnone, if_pos hnone]
    exact h
  rw [if_neg hnone] at hbarren ⊢
  rw [if_neg hnone]
  have hround := (hasked (by split at hbarren <;> exact hbarren)).round
  split
  · split
    · exact (hround.unmet_left d).unmet_right d
    · exact hround.unmet_left d
  · split
    · exact hround.unmet_right d
    · exact hround

theorem evaluateAll_without {r r' : Round σ R} (h : Without f r r') (now : Time)
    (demands : List Demand) (hbarren : Barren f (r.evaluateAll now demands).calls) :
    Without f (r.evaluateAll now demands) (r'.evaluateAll now demands) := by
  induction demands generalizing r r' with
  | nil => exact h
  | cons d ds ih =>
    have hfirst := hbarren.of_prefix (evaluateAll_course now ds (r.evaluate now d)).calls_extend
    exact ih (evaluate_without h now d hfirst) hbarren

theorem finish_without {r r' : Round σ R} (h : Without f r r') : Without f r.finish r'.finish where
  loop := h.loop
  events := by
    show List.filter _ (r'.events ++ _) = List.filter _ (r.events ++ _)
    rw [List.filter_append, List.filter_append, h.events, h.report]
  calls := h.calls
  boots := h.boots
  registry := h.registry
  failed := h.failed
  discarded := h.discarded
  report := by
    unfold finish
    dsimp only
    rw [h.report]

end Round

/-- Looking at what is in flight has nothing to do with the sources. -/
theorem Provisioner.polled_without {σ R ρ : Type} [CapacitySource σ ρ] [NodeRegistry R ρ]
    (f : SourceName) (now : Time) (registry : R) (p : Provisioner σ) :
    (p.polled now registry).Without f
      ({ p with sources := p.sources.remove f.text }.polled now registry) := by
  rw [polled, polled, Round.pollAbandoned_eq, Round.pollOutstanding_eq, Round.pollAbandoned_eq,
    Round.pollOutstanding_eq]
  exact ⟨⟨rfl, rfl, rfl, rfl⟩, rfl, rfl, rfl, rfl⟩

/-! ## A source that has failed is left alone -/

/-- After a call to a source has failed, the source is not called again. -/
def Parted (calls : List SourceCall) : Prop :=
  calls.Pairwise fun c c' => c.isFailure = true → c'.source ≠ c.source

namespace Round

variable {σ R ρ : Type} [CapacitySource σ ρ]

theorem parted_calls (account : Account) (workload : Nat) (id : PlannedId) (reply : Reply ρ) :
    Parted (reply.calls account workload id) := by
  cases reply <;> simp [Parted, SourceCall.isFailure]

theorem Asking.Fair.parted_receive {label : Option Label} {base : Nat} {a : Asking σ R}
    (h : a.Fair label base) (hparted : Parted a.round.calls) (now : Time) (workload : Nat)
    {n : SourceName} {sources : SourceSet σ} {reply : Reply ρ}
    (hpassed : reply = .passedOver ↔ n ∈ a.round.failed) :
    Parted (a.receive now ⟨n, label⟩ workload sources reply).round.calls := by
  refine List.pairwise_append.2 ⟨hparted, parted_calls _ _ _ reply, ?_⟩
  intro c hc c' hc' hfailure hsource
  have hown : c'.source = n := by
    cases reply <;> simp only [Reply.calls, List.mem_cons, List.not_mem_nil, or_false] at hc'
    · rw [hc']; rfl
    · rw [hc']; rfl
    · rcases hc' with rfl | rfl <;> rfl
    · rcases hc' with rfl | rfl <;> rfl
  have hfailed : n ∈ a.round.failed :=
    (h.round.failed n).2 ⟨c, hc, hsource.symm.trans hown, hfailure⟩
  rw [hpassed.2 hfailed] at hc'
  cases hc'

theorem Asking.Fair.parted_askSources {label : Option Label} {base : Nat} {a : Asking σ R}
    (h : a.Fair label base) (hparted : Parted a.round.calls) (now : Time) (remaining : Nat)
    {ns : List SourceName} (hns : ∀ n ∈ ns, n ∈ a.round.loop.sources.names) :
    Parted (Round.askSources now label remaining ns a).round.calls := by
  refine (askSources_kept (P := fun a => a.Fair label base ∧ Parted a.round.calls) ?_ hns
    ⟨h, hparted⟩).2
  rintro a n sources reply hears ⟨h, hparted⟩
  exact ⟨h.receive now _ n hears.names reply, h.parted_receive hparted now _ hears.passed⟩

theorem Fair.parted_evaluateAll {r : Round σ R} (h : r.Fair) (hparted : Parted r.calls)
    (now : Time) (demands : List Demand) : Parted (r.evaluateAll now demands).calls := by
  induction demands generalizing r with
  | nil => exact hparted
  | cons d ds ih =>
    refine ih (h.evaluate now d) ?_
    obtain ⟨-, hcalls, -⟩ := evaluate_eq_asking now r d
    rw [hcalls]
    exact (h.begin_asking d.label).parted_askSources hparted now _ fun n hn => hn

/-- A source that has not failed in this tick is asked when its turn comes. -/
theorem Turn.Gives.called {now : Time} {label : Option Label} {excess : Nat} {t : Turn σ R}
    {reply : Reply ρ} (h : t.Gives now label excess reply) :
    FailedIn t.source t.before.calls ∨
      ∃ answer later, t.calls = .canProvision t.source label answer :: later := by
  have hcalls := h.calls
  have hpassed := h.passed
  cases reply with
  | passedOver => exact .inl ((h.fair.failed t.source).1 (hpassed.1 rfl))
  | unsure e => exact .inr ⟨_, _, hcalls⟩
  | declined => exact .inr ⟨_, _, hcalls⟩
  | failed e => exact .inr ⟨_, _, hcalls⟩
  | granted offers => exact .inr ⟨_, _, hcalls⟩

/-- Unless a demand is covered, every source of the set has had its turn. -/
theorem Fair.called_or_covered {r : Round σ R} (h : r.Fair) (now : Time) {d : Demand}
    (he : d.excess < countLimit) {n : SourceName} (hn : n ∈ r.loop.sources.names) :
    d.excess ≤ (r.evaluate now d).loop.ledger.promisedForLabel d.label ∨
      ∃ t ∈ r.turns now d, t.source = n ∧ (FailedIn n t.before.calls ∨
        ∃ answer later, t.calls = .canProvision n d.label answer :: later) := by
  have hb := h.begin_asking d.label
  obtain ⟨hloop, -, -⟩ := evaluate_eq_asking now r d
  rcases hb.finished he now fun n hn => hn with hle | hall
  · have hend : (r.asking now d).Fair d.label (r.loop.ledger.promisedForLabel d.label) :=
      hb.askSources now _ fun n hn => hn
    rw [hloop]
    exact .inl ((hend.remaining_le_iff he).1 hle)
  · obtain ⟨t, ht, rfl, -⟩ := hall n hn
    obtain ⟨reply, hgives⟩ := hb.gives_of_mem he now (fun n hn => hn) ht
    exact .inr ⟨t, ht, rfl, hgives.called⟩

end Round

/-! ## One tick with a source and one without it -/

open Provisioner Round

variable {σ R ρ : Type} [CapacitySource σ ρ] [NodeRegistry R ρ]

theorem Provisioner.names_tick (now : Time) (demands : List Demand) (registry : R)
    (p : Provisioner σ) : (p.tick now demands registry).loop.sources.names = p.sources.names := by
  have hasks := evaluateAll_asks now demands (p.polled now registry)
  have hpolled : (p.polled now registry).loop.sources = p.sources := by rw [loop_polled]
  rw [tick_eq]
  exact hasks.names.trans (congrArg SourceSet.names hpolled)

/-- As long as no call to a source brings capacity, all else at a tick is as it would be without
the source; a source that fails is not called again in the tick; and the next tick, which
remembers nothing of it, asks the source unless the demand is covered before its turn. -/
theorem failing_source_isolated (sources : SourceSet σ) (guard : Guard)
    (timeout : Option Duration) (nextId : PlannedId) (acts : List (Act σ R)) (now : Time)
    (demands : List Demand) (registry : R) (f : SourceName)
    (hmem : f ∈ ((start sources guard timeout nextId).run acts).2.sources.names)
    (hbarren : Barren f
      (((start sources guard timeout nextId).run acts).2.tick now demands registry).calls) :
    let p := ((start sources guard timeout nextId).run acts).2
    let t := p.tick now demands registry
    let t' := { p with sources := p.sources.remove f.text }.tick now demands registry
    (t'.calls = t.calls.filter (·.source ≠ f) ∧
      t'.loop = { t.loop with sources := t.loop.sources.remove f.text } ∧
      t'.registry = t.registry ∧ t'.boots = t.boots ∧ t'.discarded = t.discarded ∧
      t'.events.filter (!·.isComplaint f) = t.events.filter (!·.isComplaint f) ∧
      t'.report = { t.report with
        sourceFailures := t'.report.sourceFailures
        unmet := t'.report.unmet }) ∧
    Parted t.calls ∧
    ∀ (later : Time) (registry' : R) (earlier : List Demand) (label : Option Label)
      (excess : UInt32),
      let r := (t.loop.polled later registry').evaluateAll later earlier
      let d : Demand := ⟨label, excess.toNat⟩
      (t.loop.polled later registry').calls = [] ∧ (t.loop.polled later registry').failed = [] ∧
      (d.excess ≤ (r.evaluate later d).loop.ledger.promisedForLabel label ∨
        ∃ turn ∈ r.turns later d, turn.source = f ∧ (FailedIn f turn.before.calls ∨
          ∃ answer rest, turn.calls = .canProvision f label answer :: rest)) := by
  intro p t t'
  have hsound : p.Sound := (sound_start sources guard timeout nextId).run acts
  have hstep : t.Without f t' :=
    finish_without (evaluateAll_without (polled_without f now registry p) now demands hbarren)
  refine ⟨⟨hstep.calls, hstep.loop, hstep.registry, hstep.boots, hstep.discarded, hstep.events,
    hstep.report⟩, ?_, ?_⟩
  · refine (hsound.fair_polled now registry).parted_evaluateAll ?_ now demands
    rw [calls_polled]
    exact .nil
  · intro later registry' earlier label excess r d
    have hfair : r.Fair := ((hsound.tick now demands registry).fair_polled later
      registry').evaluateAll later earlier
    have hnames : f ∈ r.loop.sources.names := by
      have hasks := evaluateAll_asks later earlier (t.loop.polled later registry')
      have hpolled : (t.loop.polled later registry').loop.sources = t.loop.sources := by
        rw [loop_polled]
      rw [hasks.names, hpolled, names_tick]
      exact hmem
    exact ⟨calls_polled later registry' t.loop, failed_polled later registry' t.loop,
      hfair.called_or_covered later excess.toNat_lt hnames⟩

namespace Flaky

def flaky : SourceName := ⟨"flaky", by decide⟩

def steady : SourceName := ⟨"steady", by decide⟩

/-- A source whose first call for capacity fails, and one that offers a node. -/
def sources : SourceSet Source where
  members := [
    .scripted ⟨flaky, [none], [], ⟨[.error (.unavailable "down"), .ok []]⟩⟩,
    .scripted ⟨steady, [none], [], ⟨[.ok [⟨"node", 1, .waiting, ⟨0⟩, none⟩]]⟩⟩]
  distinct := by decide

def tick : Round Source (Registry ReleaseHandle) :=
  (start sources .allowAll none 0).tick ⟨0⟩ [⟨none, 2⟩] (.ofStore .empty none)

end Flaky

theorem failing_source_isolated_flaky :
    Flaky.flaky ∈ Flaky.sources.names ∧ Barren Flaky.flaky Flaky.tick.calls ∧
      Flaky.tick.calls.map SourceCall.source =
        [Flaky.flaky, Flaky.flaky, Flaky.steady, Flaky.steady] ∧
      ({ start Flaky.sources .allowAll none 0 with
        sources := Flaky.sources.remove Flaky.flaky.text }.tick ⟨0⟩ [⟨none, 2⟩]
          (Registry.ofStore .empty none)).calls =
        Flaky.tick.calls.filter (·.source ≠ Flaky.flaky) := by
  have hbarren : Barren Flaky.flaky Flaky.tick.calls := by decide +kernel
  refine ⟨List.mem_cons_self, hbarren, by decide +kernel, ?_⟩
  exact (failing_source_isolated Flaky.sources .allowAll none 0 [] ⟨0⟩ [⟨none, 2⟩]
    (Registry.ofStore .empty none) Flaky.flaky List.mem_cons_self hbarren).1.1

end Fleet
