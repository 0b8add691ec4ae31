import Fleet.Proofs.Provisioner.Tally

/-!
# Unmet demand

Whether a demand is reported as unmet hangs on two flags that the sources raise in their turns.
`Asking.Fair.scan` says what the flags record: either every source has declined, or one of the turns
went to a source that has failed in this tick or was asked for capacity.  A source has one turn,
so one that was asked for capacity did not decline, and the flags stay down exactly if the demand
is `Unserved`, which speaks of calls and their answers alone (`Fair.raised_eq_false_iff`).  A
source answers its turn as it would have before the demand, so that is so exactly if every member
of the set, asked there and then, says that it does not serve the label (`Unservable`).
`unmet_iff_unserved` says it of every demand of a tick in every state that a run reaches.
-/

namespace Fleet

namespace Round

variable {σ R ρ : Type} [CapacitySource σ ρ]

/-- A demand that nobody can serve when it is evaluated by `calls`: the ledger does not cover it,
no source has failed in this tick, these calls included, and every source has declined. -/
structure Unserved (r : Round σ R) (d : Demand) (calls : List SourceCall) : Prop where
  missing : r.loop.ledger.promisedForLabel d.label < d.excess
  unfailed : ∀ n ∈ r.loop.sources.names, ¬ FailedIn n (r.calls ++ calls)
  declined : ∀ n ∈ r.loop.sources.names, .canProvision n d.label (.ok false) ∈ calls

/-- A demand that nobody can serve when it is evaluated, by what the sources are at that moment:
every member says that it does not serve the label. -/
structure Unservable (r : Round σ R) (d : Demand) : Prop where
  missing : r.loop.ledger.promisedForLabel d.label < d.excess
  unfailed : ∀ n ∈ r.loop.sources.names, ¬ FailedIn n r.calls
  declines : ∀ s ∈ r.loop.sources.members,
    (CapacitySource.canProvision d.label s).1 = .ok false

/-- In its turn the source was more than asked whether it serves the label: it has failed by now,
or it was asked for capacity. -/
def Turn.Engaged (label : Option Label) (t : Turn σ R) : Prop :=
  FailedIn t.source t.after.calls ∨
    ∃ workload answer, .provision t.source label workload answer ∈ t.calls

/-- A source that keeps a demand from being unmet: it is skipped for an earlier failure, it fails,
or it is asked for capacity, whatever it answers. -/
inductive Hinders (r : Round σ R) (d : Demand) (calls : List SourceCall) (n : SourceName) : Prop
  | skipped (earlier : FailedIn n r.calls)
  | failed (here : FailedIn n calls)
  | asked (workload : Nat) (answer : Except RequestError (List PlannedId))
      (call : .provision n d.label workload answer ∈ calls)

/-- The round after every source of `ns` has declined; the calls left the sources as `sources`. -/
def declinedBy (sources : SourceSet σ) (label : Option Label) (ns : List SourceName)
    (r : Round σ R) : Round σ R := { r with
  loop := { r.loop with sources }
  calls := r.calls ++ ns.map fun n => .canProvision n label (.ok false) }

def reportUnmet (d : Demand) (r : Round σ R) : Round σ R := { r with
  events := r.events ++ [.demandUnmet d.label d.excess]
  report := { r.report with unmet := r.report.unmet ++ [d.label] } }

/-! ## The flags -/

/-- One of the flags is up. -/
def Asking.raised (a : Asking σ R) : Bool := a.capable || a.skipped

theorem Asking.raised_receive (a : Asking σ R) (now : Time) (account : Account) (workload : Nat)
    (sources : SourceSet σ) (reply : Reply ρ) :
    (a.receive now account workload sources reply).raised =
      (a.raised || (reply.isCapable || reply.isSkipped)) := by
  simp only [Asking.raised, Asking.receive]
  cases a.capable <;> cases a.skipped <;> simp

/-- A flag that is up stays up. -/
theorem raised_askSources (now : Time) (label : Option Label) (remaining : Nat)
    {ns : List SourceName} {a : Asking σ R} (hns : ∀ n ∈ ns, n ∈ a.round.loop.sources.names)
    (h : a.raised = true) : (askSources now label remaining ns a).raised = true := by
  refine askSources_kept (P := (·.raised = true)) ?_ hns h
  intro a n sources reply _ h
  rw [Asking.raised_receive, h, Bool.true_or]

/-- The source of this name would decline: it has not failed, and says that it does not serve the
label. -/
def Asking.WouldDecline (label : Option Label) (a : Asking σ R) (n : SourceName) : Prop :=
  n ∉ a.round.failed ∧ ∃ s, a.round.loop.sources.get? n = some s ∧
    (CapacitySource.canProvision label s).1 = .ok false

/-- What the sources of `ns` have done to an asking in the turns `ts`. -/
inductive Scan (label : Option Label) (ns : List SourceName) (a a' : Asking σ R)
    (ts : List (Turn σ R)) : Prop
  | declined (sources : SourceSet σ) (names : sources.names = a.round.loop.sources.names)
      (would : ∀ n ∈ ns, a.WouldDecline label n)
      (after : a' = { a with round := a.round.declinedBy sources label ns })
  | raised (flag : a'.raised = true) (t : Turn σ R) (mem : t ∈ ts) (engaged : t.Engaged label)
      (not : ∃ n ∈ ns, ¬ a.WouldDecline label n)

section Scan

variable {label : Option Label} {base remaining : Nat} {a : Asking σ R}

/-- Only a source that declines is not engaged by its turn. -/
theorem Asking.Fair.engaged (h : a.Fair label base) (now : Time) (workload : Nat)
    (n : SourceName) (sources : SourceSet σ) {reply : Reply ρ}
    (hpassed : reply = .passedOver ↔ n ∈ a.round.failed) (hreply : reply ≠ .declined) :
    Turn.Engaged label
      ⟨n, a.round, (a.receive now ⟨n, label⟩ workload sources reply).round⟩ := by
  have hcalls : Turn.calls ⟨n, a.round, (a.receive now ⟨n, label⟩ workload sources reply).round⟩ =
      reply.calls ⟨n, label⟩ workload a.round.loop.nextId := by
    rw [Turn.calls, Asking.receive, List.drop_left]
  rw [Turn.Engaged, hcalls, Asking.receive, failedIn_append, Reply.failedIn_calls, ← h.round.failed]
  cases reply with
  | passedOver => exact .inl (.inl (hpassed.1 rfl))
  | unsure e => exact .inl (.inr (by simp))
  | declined => exact absurd rfl hreply
  | failed e => exact .inl (.inr (by simp))
  | granted offers => exact .inr ⟨_, _, List.mem_pair.2 (.inr rfl)⟩

/-- A source declines if it would. -/
theorem Asking.Hears.declined_iff {workload : Nat} {n : SourceName} {reply : Reply ρ}
    {sources : SourceSet σ} (h : a.Hears label workload n reply sources) :
    reply = .declined ↔ a.WouldDecline label n := by
  obtain ⟨s, hs, hof⟩ := h.own
  have hpassed := h.passed
  constructor
  · rintro rfl
    refine ⟨fun hf => ?_, s, hs, hof⟩
    cases hpassed.2 hf
  · rintro ⟨hn, s', hs', hdeclines⟩
    cases hs.symm.trans hs'
    cases reply with
    | passedOver => exact absurd (hpassed.1 rfl) hn
    | unsure e => cases hdeclines.symm.trans hof
    | declined => rfl
    | failed e => cases hdeclines.symm.trans hof.1
    | granted offers => cases hdeclines.symm.trans hof.1

/-- When one source has declined, the others would decline as before. -/
theorem Asking.Hears.wouldDecline_receive {n m : SourceName} {sources : SourceSet σ}
    (now : Time) (workload : Nat) (h : a.Hears label workload n .declined sources) (hm : m ≠ n) :
    (a.receive now ⟨n, label⟩ workload sources .declined).WouldDecline label m ↔
      a.WouldDecline label m := by
  rw [WouldDecline, WouldDecline, Asking.receive, h.others m hm]
  simp

/-- The sources are asked in order until one does something else than decline. -/
theorem Asking.Fair.scan (h : a.Fair label base) (now : Time) (hg : a.granted < remaining)
    {ns : List SourceName} (hdistinct : ns.Nodup)
    (hns : ∀ n ∈ ns, n ∈ a.round.loop.sources.names) :
    Scan label ns a (Round.askSources now label remaining ns a)
      (turnsOf now label remaining ns a) := by
  induction ns generalizing a with
  | nil =>
    refine .declined a.round.loop.sources rfl (by simp) ?_
    simp [Round.askSources, declinedBy]
  | cons n ns ih =>
    obtain ⟨reply, sources, hears, ha⟩ :=
      askSource_eq now label remaining (hns n List.mem_cons_self)
    have hrest : ∀ m ∈ ns, m ∈ sources.names :=
      fun m hm => hears.names ▸ hns m (List.mem_cons_of_mem n hm)
    have hgo : ¬ remaining ≤ a.granted := Nat.not_le_of_lt hg
    obtain ⟨hn, hdistinct⟩ := List.nodup_cons.1 hdistinct
    rw [Round.askSources, turnsOf, if_neg hgo, if_neg hgo, ha]
    by_cases hreply : reply = .declined
    · -- the flags are as before, and nothing is granted yet
      subst hreply
      have hsame (m : SourceName) (hm : m ∈ ns) :=
        hears.wouldDecline_receive now _ (fun heq : m = n => hn (heq ▸ hm))
      rcases ih (h.receive now (remaining - a.granted) n hears.names .declined) hg hdistinct
        hrest with ⟨sources', hnames, hwould, hafter⟩ | ⟨hflag, t, ht, hengaged, m, hm, hnot⟩
      · refine .declined sources' (hnames.trans hears.names) ?_ ?_
        · intro m hm
          rcases List.mem_cons.1 hm with rfl | hm
          · exact hears.declined_iff.1 rfl
          · exact (hsame m hm).1 (hwould m hm)
        · rw [hafter]
          simp [Asking.receive, declinedBy, taken, started, Ledger.recordAll]
      · exact .raised hflag t (List.mem_cons_of_mem _ ht) hengaged
          ⟨m, List.mem_cons_of_mem n hm, fun hw => hnot ((hsame m hm).2 hw)⟩
    · have hflag : (a.receive now ⟨n, label⟩ (remaining - a.granted) sources reply).raised =
          true := by
        rw [Asking.raised_receive]
        cases reply <;> simp at hreply ⊢
      exact .raised (raised_askSources now label remaining hrest hflag) _ List.mem_cons_self
        (h.engaged now _ n sources hears.passed hreply)
        ⟨n, List.mem_cons_self, fun hw => hreply (hears.declined_iff.2 hw)⟩

end Scan

theorem evaluate_of_raised {r : Round σ R} {d : Demand} (now : Time)
    (h : d.excess ≤ r.loop.ledger.promisedForLabel d.label ∨ (r.asking now d).raised = true) :
    r.evaluate now d = (r.asking now d).round := by
  unfold evaluate
  dsimp only
  split
  · rename_i hz
    rw [asking, askSources_of_le (Nat.le_of_eq hz)]
  · rename_i hz
    have hraised := h.resolve_left fun hle => hz (Nat.sub_eq_zero_of_le hle)
    rw [asking, Asking.raised, Bool.or_eq_true] at hraised
    rw [if_neg]
    · rfl
    · rcases hraised with h | h <;> simp [h]

theorem evaluate_of_not_raised {r : Round σ R} {d : Demand} (now : Time)
    (hm : r.loop.ledger.promisedForLabel d.label < d.excess)
    (h : (r.asking now d).raised = false) :
    r.evaluate now d = (r.asking now d).round.reportUnmet d := by
  rw [asking, Asking.raised, Bool.or_eq_false_iff] at h
  unfold evaluate
  dsimp only
  rw [if_neg (Nat.sub_ne_zero_of_lt hm), if_pos]
  · rfl
  · simp [h.1, h.2]

/-! ## Without a report -/

/-- Going on from `r` to `r'`, nobody was reported to be missing. -/
def Silent (r r' : Round σ R) : Prop :=
  ∃ es, r'.events = r.events ++ es ∧ es.filterMap Event.unmet? = [] ∧
    r'.report.unmet = r.report.unmet

namespace Silent

variable {r r' r'' : Round σ R}

theorem refl (r : Round σ R) : Silent r r := ⟨[], by simp, rfl, rfl⟩

theorem trans (h : Silent r r') (h' : Silent r' r'') : Silent r r'' := by
  obtain ⟨es, he, hnone, hunmet⟩ := h
  obtain ⟨es', he', hnone', hunmet'⟩ := h'
  refine ⟨es ++ es', ?_, ?_, hunmet'.trans hunmet⟩
  · rw [he', he, List.append_assoc]
  · rw [List.filterMap_append, hnone, hnone', List.append_nil]

end Silent

theorem Asking.receive_silent (a : Asking σ R) (now : Time) (account : Account) (workload : Nat)
    (sources : SourceSet σ) (reply : Reply ρ) :
    Silent a.round (a.receive now account workload sources reply).round :=
  ⟨_, rfl, reply.unmet_events now account _, rfl⟩

theorem askSources_silent (now : Time) (label : Option Label) (remaining : Nat)
    {ns : List SourceName} {a : Asking σ R} (hns : ∀ n ∈ ns, n ∈ a.round.loop.sources.names) :
    Silent a.round (askSources now label remaining ns a).round := by
  refine askSources_kept (P := fun a' => Silent a.round a'.round) ?_ hns (.refl a.round)
  intro a' n sources reply _ h
  exact h.trans (a'.receive_silent now _ _ sources reply)

/-! ## The verdict -/

/-- The calls in which a demand is evaluated. -/
def callsOf (now : Time) (r : Round σ R) (d : Demand) : List SourceCall :=
  (r.turns now d).flatMap Turn.calls

namespace Fair

variable {r : Round σ R} {d : Demand}

theorem calls_asking (h : r.Fair) (now : Time) (he : d.excess < countLimit) :
    (r.asking now d).round.calls = r.calls ++ r.callsOf now d :=
  (lead_turns now r d).calls (h.logged now he)

/-- A source that was asked for capacity had its only turn then, so it did not decline. -/
theorem not_declined_of_asked (h : r.Fair) (now : Time) (he : d.excess < countLimit)
    {n : SourceName} {label label' : Option Label} {workload : Nat}
    {answer : Except RequestError (List PlannedId)}
    (hask : .provision n label workload answer ∈ r.callsOf now d) :
    .canProvision n label' (.ok false) ∉ r.callsOf now d := by
  intro hdecl
  have heval := h.evaluation now he
  obtain ⟨t, ht, hask⟩ := List.mem_flatMap.1 hask
  obtain ⟨u, hu, hdecl⟩ := List.mem_flatMap.1 hdecl
  have hsame : u = t := by
    refine List.inj_on_of_nodup_map heval.once hu ht ?_
    exact (heval.own u hu _ hdecl).1.symm.trans (heval.own t ht _ hask).1
  rw [hsame, (heval.asked t ht _ _ _ _ hask).serves] at hdecl
  simp at hdecl

theorem not_unserved_of_hinders (h : r.Fair) (now : Time) (he : d.excess < countLimit)
    {n : SourceName} (hn : n ∈ r.loop.sources.names) (hh : r.Hinders d (r.callsOf now d) n) :
    ¬ r.Unserved d (r.callsOf now d) := by
  intro hun
  have hunfailed := hun.unfailed n hn
  rw [failedIn_append] at hunfailed
  cases hh with
  | skipped earlier => exact hunfailed (.inl earlier)
  | failed here => exact hunfailed (.inr here)
  | asked workload answer call => exact h.not_declined_of_asked now he call (hun.declined n hn)

theorem scan_asking (h : r.Fair) (now : Time)
    (hm : r.loop.ledger.promisedForLabel d.label < d.excess) :
    Scan d.label r.loop.sources.names ⟨r, 0, false, false⟩ (r.asking now d) (r.turns now d) :=
  (h.begin_asking d.label).scan now (Nat.sub_pos_of_lt hm) r.loop.sources.distinct
    fun _ hn => hn

/-- If no flag is up in the end, every source has declined. -/
theorem declined_of_not_raised (h : r.Fair) (now : Time) (he : d.excess < countLimit)
    (hm : r.loop.ledger.promisedForLabel d.label < d.excess)
    (hdown : (r.asking now d).raised = false) :
    ∃ sources : SourceSet σ, sources.names = r.loop.sources.names ∧
      (r.asking now d).round = r.declinedBy sources d.label r.loop.sources.names ∧
      (r.callsOf now d = r.loop.sources.names.map fun n => .canProvision n d.label (.ok false)) ∧
      ∀ n ∈ r.loop.sources.names,
        Asking.WouldDecline d.label (⟨r, 0, false, false⟩ : Asking σ R) n := by
  rcases h.scan_asking now hm with ⟨sources, hnames, hwould, hafter⟩ | ⟨hflag, -⟩
  · have hround : (r.asking now d).round = r.declinedBy sources d.label r.loop.sources.names := by
      rw [hafter]
    refine ⟨sources, hnames, hround, ?_, hwould⟩
    refine List.append_cancel_left ((h.calls_asking now he).symm.trans ?_)
    rw [hround]
    rfl
  · exact absurd (hflag.symm.trans hdown) (by simp)

/-- The flags are down after an asking exactly if every source has declined. -/
theorem raised_eq_false_iff (h : r.Fair) (now : Time) (he : d.excess < countLimit)
    (hm : r.loop.ledger.promisedForLabel d.label < d.excess) :
    (r.asking now d).raised = false ↔ r.Unserved d (r.callsOf now d) := by
  constructor
  · intro hdown
    obtain ⟨_, -, -, hdeclined, hwould⟩ := h.declined_of_not_raised now he hm hdown
    refine ⟨hm, fun n hn => ?_, fun n hn => ?_⟩
    · rw [failedIn_append, ← h.failed, hdeclined]
      rintro (hfailed | ⟨c, hc, -, hfailure⟩)
      · exact (hwould n hn).1 hfailed
      · obtain ⟨m, -, rfl⟩ := List.mem_map.1 hc
        simp [SourceCall.isFailure] at hfailure
    · rw [hdeclined]
      exact List.mem_map_of_mem hn
  · intro hun
    rcases h.scan_asking now hm with ⟨_, -, -, hafter⟩ | ⟨-, t, ht, hengaged, -⟩
    · rw [hafter]
      rfl
    · exfalso
      have hmem : t.source ∈ r.loop.sources.names :=
        (h.evaluation now he).order.subset (List.mem_map_of_mem ht)
      rcases hengaged with ⟨c, hc, hfailed⟩ | ⟨workload, answer, hask⟩
      · refine hun.unfailed t.source hmem ⟨c, ?_, hfailed⟩
        rw [← h.calls_asking now he]
        have hlead := lead_turns now r d
        exact (hlead.after_calls_prefix (h.logged now he) ht).subset hc
      · exact h.not_declined_of_asked now he (List.mem_flatMap.2 ⟨t, ht, hask⟩)
          (hun.declined t.source hmem)

/-- The calls show that nobody can serve a demand exactly if the sources say so themselves. -/
theorem unserved_iff_unservable (h : r.Fair) (now : Time) (he : d.excess < countLimit) :
    r.Unserved d (r.callsOf now d) ↔ r.Unservable d := by
  constructor
  · intro hun
    have hdown := (h.raised_eq_false_iff now he hun.missing).2 hun
    obtain ⟨_, -, -, -, hwould⟩ := h.declined_of_not_raised now he hun.missing hdown
    refine ⟨hun.missing, fun n hn => ?_, fun s hs => ?_⟩
    · rw [← h.failed]
      exact (hwould n hn).1
    · obtain ⟨-, s', hs', hdeclines⟩ := hwould _ (List.mem_map_of_mem hs)
      cases (SourceSet.get?_of_mem hs).symm.trans hs'
      exact hdeclines
  · intro hun
    rw [← h.raised_eq_false_iff now he hun.missing]
    rcases h.scan_asking now hun.missing with ⟨_, -, -, hafter⟩ | ⟨-, _, -, -, n, hn, hnot⟩
    · rw [hafter]
      rfl
    · obtain ⟨s, hs⟩ := SourceSet.get?_eq_some_of_mem hn
      refine absurd ⟨?_, s, hs, hun.declines s (List.mem_of_find?_eq_some hs)⟩ hnot
      rw [h.failed]
      exact hun.unfailed n hn

/-- A call for a demand is answered by the member that it went to. -/
theorem answered_callsOf (h : r.Fair) (now : Time) (he : d.excess < countLimit) {c : SourceCall}
    (hc : c ∈ r.callsOf now d) :
    ∃ s id, r.loop.sources.get? c.source = some s ∧ c.AnsweredBy s id := by
  have heval := h.evaluation now he
  obtain ⟨t, ht, hc⟩ := List.mem_flatMap.1 hc
  obtain ⟨s, hs, hanswered⟩ := heval.answered t ht
  refine ⟨s, _, ?_, hanswered c hc⟩
  rw [(heval.own t ht c hc).1, ← heval.fresh t ht, hs]

/-- A demand that nobody can serve is reported, and only the sources have changed. -/
theorem evaluate_unserved (h : r.Fair) (now : Time) (he : d.excess < countLimit)
    (hun : r.Unserved d (r.callsOf now d)) :
    (r.callsOf now d = r.loop.sources.names.map fun n => .canProvision n d.label (.ok false)) ∧
      ∃ sources : SourceSet σ, sources.names = r.loop.sources.names ∧
        r.evaluate now d = (r.declinedBy sources d.label r.loop.sources.names).reportUnmet d := by
  have hdown := (h.raised_eq_false_iff now he hun.missing).2 hun
  obtain ⟨sources, hnames, hround, hdeclined, -⟩ :=
    h.declined_of_not_raised now he hun.missing hdown
  rw [evaluate_of_not_raised now hun.missing hdown, hround]
  exact ⟨hdeclined, sources, hnames, rfl⟩

/-- No other demand is reported. -/
theorem evaluate_served (h : r.Fair) (now : Time) (he : d.excess < countLimit)
    (hun : ¬ r.Unserved d (r.callsOf now d)) : Silent r (r.evaluate now d) := by
  have hraised : d.excess ≤ r.loop.ledger.promisedForLabel d.label ∨
      (r.asking now d).raised = true := by
    by_cases hm : r.loop.ledger.promisedForLabel d.label < d.excess
    · rw [← Bool.not_eq_false, h.raised_eq_false_iff now he hm]
      exact .inr hun
    · exact .inl (Nat.le_of_not_lt hm)
  rw [evaluate_of_raised now hraised]
  exact askSources_silent now d.label _ (a := ⟨r, 0, false, false⟩) fun _ hn => hn

end Fair

/-- What the evaluation of a demand reports as unmet; `told` are its events and `calls` its
calls. -/
structure UnmetReport (now : Time) (r : Round σ R) (d : Demand) (told : List Event)
    (calls : List SourceCall) : Prop where
  events : (r.evaluate now d).events = r.events ++ told
  logged : (r.evaluate now d).calls = r.calls ++ calls
  /-- The calls are answered by the members of the set, as they were before the demand. -/
  answered : ∀ c ∈ calls, ∃ s id, r.loop.sources.get? c.source = some s ∧ c.AnsweredBy s id
  members : r.Unserved d calls ↔ r.Unservable d
  emitted : .demandUnmet d.label d.excess ∈ told ↔ r.Unserved d calls
  pushed : (r.evaluate now d).report.unmet = r.report.unmet ++ [d.label] ↔ r.Unserved d calls
  /-- Nothing else is reported then, and only the sources have been asked. -/
  untouched : r.Unserved d calls → told = [.demandUnmet d.label d.excess] ∧
    calls = (r.loop.sources.names.map fun n => .canProvision n d.label (.ok false)) ∧
    ∃ sources : SourceSet σ, sources.names = r.loop.sources.names ∧
      r.evaluate now d = { r with
        loop := { r.loop with sources }
        events := r.events ++ told
        calls := r.calls ++ calls
        report := { r.report with unmet := r.report.unmet ++ [d.label] } }
  silent : ¬ r.Unserved d calls → told.filterMap Event.unmet? = [] ∧
    (r.evaluate now d).report.unmet = r.report.unmet
  never : ∀ n ∈ r.loop.sources.names, r.Hinders d calls n →
    told.filterMap Event.unmet? = [] ∧ (r.evaluate now d).report.unmet = r.report.unmet

theorem Fair.unmetReport {r : Round σ R} (h : r.Fair) (now : Time) {d : Demand}
    (he : d.excess < countLimit) :
    ∃ told calls, r.UnmetReport now d told calls := by
  have hcalls : (r.evaluate now d).calls = r.calls ++ r.callsOf now d :=
    (evaluate_eq_asking now r d).2.1.trans (h.calls_asking now he)
  by_cases hun : r.Unserved d (r.callsOf now d)
  · obtain ⟨hdeclined, sources, hnames, heq⟩ := h.evaluate_unserved now he hun
    refine ⟨[.demandUnmet d.label d.excess], r.callsOf now d, ?_⟩
    constructor
    case events => rw [heq]; rfl
    case logged => exact hcalls
    case answered => exact fun c hc => h.answered_callsOf now he hc
    case members => exact h.unserved_iff_unservable now he
    case emitted => exact iff_of_true (List.mem_singleton_self _) hun
    case pushed => exact iff_of_true (by rw [heq]; rfl) hun
    case untouched =>
      refine fun _ => ⟨rfl, hdeclined, sources, hnames, ?_⟩
      rw [heq, hdeclined]
      rfl
    case silent => exact fun hnot => absurd hun hnot
    case never => exact fun n hn hh => absurd hun (h.not_unserved_of_hinders now he hn hh)
  · obtain ⟨told, hevents, hnone, hunmet⟩ := h.evaluate_served now he hun
    refine ⟨told, r.callsOf now d, ?_⟩
    constructor
    case events => exact hevents
    case logged => exact hcalls
    case answered => exact fun c hc => h.answered_callsOf now he hc
    case members => exact h.unserved_iff_unservable now he
    case emitted =>
      refine iff_of_false (fun hmem => ?_) hun
      exact absurd (List.filterMap_eq_nil_iff.1 hnone _ hmem) (by simp [Event.unmet?])
    case pushed => exact iff_of_false (by simp [hunmet]) hun
    case untouched => exact fun hyes => absurd hyes hun
    case silent => exact fun _ => ⟨hnone, hunmet⟩
    case never => exact fun _ _ _ => ⟨hnone, hunmet⟩

end Round

open Provisioner Round

/-- In every state that a run reaches, a tick begins with no unmet demand, and each of its demands
is reported as unmet exactly if nobody can serve it. -/
theorem unmet_iff_unserved {σ R ρ : Type} [CapacitySource σ ρ] [NodeRegistry R ρ]
    (sources : SourceSet σ) (guard : Guard) (timeout : Option Duration) (first : PlannedId)
    (acts : List (Act σ R)) (now : Time) (registry : R) (earlier later : List Demand)
    (label : Option Label) (excess : UInt32) :
    let p := ((start sources guard timeout first).run acts).2
    let d : Demand := ⟨label, excess.toNat⟩
    let r := (p.polled now registry).evaluateAll now earlier
    p.tick now (earlier ++ d :: later) registry =
        ((r.evaluate now d).evaluateAll now later).finish ∧
      ((p.polled now registry).calls = [] ∧ (p.polled now registry).report.unmet = [] ∧
        (p.polled now registry).events.filterMap Event.unmet? = []) ∧
      ∃ told calls, r.UnmetReport now d told calls := by
  intro p d r
  have hsound : p.Sound := (sound_start sources guard timeout first).run acts
  have hfair : r.Fair := (hsound.fair_polled now registry).evaluateAll now earlier
  obtain ⟨es, htally⟩ := Tallied.polled now registry p
  have hnone : es.filterMap Event.unmet? = [] := by
    have hevents := htally.events.symm.trans (events_polled now registry p)
    rw [List.tail_eq_of_cons_eq hevents]
    exact List.filterMap_eq_nil_iff.2 fun e he => (isLook_of_mem_eventsAt he).unmet
  refine ⟨?_, ⟨calls_polled now registry p, ?_, ?_⟩, hfair.unmetReport now excess.toNat_lt⟩
  · rw [tick_eq, Round.evaluateAll, List.foldl_append]
    rfl
  · rw [htally.report]
    exact hnone
  · rw [htally.events]
    exact hnone

end Fleet
