import Fleet.Proofs.Provisioner.Run

/-!
# What a tick asks for

The evaluation of a demand gives the sources their turns (`Round.turns`), in the order of the
set and until the demand is covered.  The code counts down what is left of the demand while
the ledger counts up what is promised; `Asking.Fair` says that the two stay in step, which
makes every workload the part of the demand that the ledger does not cover at that moment.
`Round.evaluation` says what the turns of one demand come to, and
`evaluation_of_tick` says it of every demand of a tick in every state that a run reaches.
-/

namespace Fleet

/-! ## Calls -/

namespace SourceCall

def source : SourceCall → SourceName
  | canProvision n _ _ => n
  | provision n _ _ _ => n

def label : SourceCall → Option Label
  | canProvision _ l _ => l
  | provision _ l _ _ => l

def isFailure : SourceCall → Bool
  | canProvision _ _ (.error _) => true
  | provision _ _ _ (.error _) => true
  | _ => false

/-- A call is answered as the source itself answers when it is asked whether it serves the label,
and then for capacity; what it offers is numbered from `id`. -/
def AnsweredBy {σ ρ : Type} [CapacitySource σ ρ] (s : σ) (id : PlannedId) : SourceCall → Prop
  | canProvision _ label answer => answer = (CapacitySource.canProvision label s).1
  | provision _ label workload answer => answer =
      (CapacitySource.provision label workload (CapacitySource.canProvision label s).2).1.map
        fun offers => List.range' id offers.length

end SourceCall

/-- Some call to the source has failed. -/
def FailedIn (n : SourceName) (calls : List SourceCall) : Prop :=
  ∃ c ∈ calls, c.source = n ∧ c.isFailure = true

theorem failedIn_append {n : SourceName} {cs ds : List SourceCall} :
    FailedIn n (cs ++ ds) ↔ FailedIn n cs ∨ FailedIn n ds := by
  simp only [FailedIn, List.mem_append, or_and_right, exists_or]

theorem Reply.failedIn_calls {ρ : Type} (account : Account) (workload : Nat) (id : PlannedId)
    (reply : Reply ρ) (n : SourceName) :
    FailedIn n (reply.calls account workload id) ↔
      n ∈ reply.error?.toList.map fun _ => account.source := by
  cases reply <;> simp [FailedIn, SourceCall.source, SourceCall.isFailure, @eq_comm _ n]

/-- The calls behind what a source replies are answered by it. -/
theorem Reply.IsOf.answeredBy {σ ρ : Type} [CapacitySource σ ρ] {label : Option Label}
    {workload : Nat} {s : σ} {reply : Reply ρ} (h : reply.IsOf label workload s)
    (n : SourceName) (id : PlannedId) :
    ∀ c ∈ reply.calls ⟨n, label⟩ workload id, c.AnsweredBy s id := by
  intro c hc
  cases reply with
  | passedOver => cases hc
  | unsure e => cases List.mem_singleton.1 hc; exact h.symm
  | declined => cases List.mem_singleton.1 hc; exact h.symm
  | failed e =>
    obtain ⟨hcan, hcapacity⟩ := h
    rcases List.mem_pair.1 hc with rfl | rfl
    · exact hcan.symm
    · rw [SourceCall.AnsweredBy, hcapacity]
      rfl
  | granted offers =>
    obtain ⟨hcan, hcapacity⟩ := h
    rcases List.mem_pair.1 hc with rfl | rfl
    · exact hcan.symm
    · rw [SourceCall.AnsweredBy, hcapacity]
      rfl

/-! ## Turns -/

namespace Round

/-- The turn of one source when a demand is evaluated: the round when the turn comes, and the
round after it. -/
structure Turn (σ R : Type) {ρ : Type} [CapacitySource σ ρ] where
  source : SourceName
  before : Round σ R
  after : Round σ R

variable {σ R ρ : Type} [CapacitySource σ ρ]

namespace Turn

/-- The calls made in a turn. -/
def calls (t : Turn σ R) : List SourceCall := t.after.calls.drop t.before.calls.length

/-- Turns in a row, from one round to another. -/
def Lead : Round σ R → List (Turn σ R) → Round σ R → Prop
  | r, [], r' => r = r'
  | r, t :: ts, r' => t.before = r ∧ Lead t.after ts r'

/-- The calls of a turn are answered by the member of the set that it is the turn of, as that
member is when its turn comes. -/
def Answered (t : Turn σ R) : Prop :=
  ∃ s, t.before.loop.sources.get? t.source = some s ∧
    ∀ c ∈ t.calls, c.AnsweredBy s t.before.loop.nextId

/-- The source is asked for capacity as it should be: it is a member that has not failed in
this tick, it has just said that it serves the label, and it is asked for all that the ledger
does not cover. -/
structure Asked (label : Option Label) (excess : Nat) (t : Turn σ R) (workload : Nat)
    (answer : Except RequestError (List PlannedId)) : Prop where
  member : t.source ∈ t.before.loop.sources.names
  unfailed : ¬ FailedIn t.source t.before.calls
  serves : t.calls =
    [.canProvision t.source label (.ok true), .provision t.source label workload answer]
  answered : t.Answered
  uncovered : workload = excess - t.before.loop.ledger.promisedForLabel label
  positive : 1 ≤ workload

/-- The source was asked for capacity and promised less. -/
def Short (label : Option Label) (t : Turn σ R) : Prop :=
  ∃ workload ids, .provision t.source label workload (.ok ids) ∈ t.calls ∧
    ((t.after.loop.outstanding.filter (·.planned.id ∈ ids)).map (·.planned.promised)).sum <
      workload

end Turn

/-- The turns of `askSources`. -/
def turnsOf (now : Time) (label : Option Label) (remaining : Nat) :
    List SourceName → Asking σ R → List (Turn σ R)
  | [], _ => []
  | n :: ns, a =>
    if remaining ≤ a.granted then []
    else
      ⟨n, a.round, (askSource now label remaining n a).round⟩ ::
        turnsOf now label remaining ns (askSource now label remaining n a)

/-- The turns in which a demand is evaluated. -/
def turns (now : Time) (r : Round σ R) (d : Demand) : List (Turn σ R) :=
  turnsOf now d.label (d.excess - r.loop.ledger.promisedForLabel d.label) r.loop.sources.names
    ⟨r, 0, false, false⟩

/-- What the evaluation of a demand comes to. -/
structure Evaluation (now : Time) (r : Round σ R) (d : Demand) : Prop where
  /-- The sources have their turns in the order of the set. -/
  order : (r.turns now d).map (·.source) <+: r.loop.sources.names
  once : ((r.turns now d).map (·.source)).Nodup
  lead : ∃ last, Turn.Lead r (r.turns now d) last ∧ (r.evaluate now d).loop = last.loop
  /-- No calls are made but those of the turns. -/
  calls : (r.evaluate now d).calls = r.calls ++ (r.turns now d).flatMap Turn.calls
  own : ∀ t ∈ r.turns now d, ∀ c ∈ t.calls, c.source = t.source ∧ c.label = d.label
  answered : ∀ t ∈ r.turns now d, t.Answered
  /-- The turns of other sources have left a member as it was. -/
  fresh : ∀ t ∈ r.turns now d,
    t.before.loop.sources.get? t.source = r.loop.sources.get? t.source
  covered : d.excess ≤ r.loop.ledger.promisedForLabel d.label →
    (r.evaluate now d).calls = r.calls
  needed : ∀ t ∈ r.turns now d, t.before.loop.ledger.promisedForLabel d.label < d.excess
  asked : ∀ t ∈ r.turns now d, ∀ n label workload answer,
    .provision n label workload answer ∈ t.calls → t.Asked d.label d.excess workload answer
  finished : d.excess ≤ (r.evaluate now d).loop.ledger.promisedForLabel d.label ∨
    ∀ n ∈ r.loop.sources.names, FailedIn n (r.evaluate now d).calls ∨
      ∃ t ∈ r.turns now d, t.source = n ∧
        (.canProvision n d.label (.ok false) ∈ t.calls ∨ t.Short d.label)

end Round

/-! ## The count and the ledger -/

/-- Counting offers one by one stops at the largest count. -/
theorem foldl_addCounts {ρ : Type} (offers : List (Offer ρ)) (n : Nat) :
    offers.foldl (fun n o => addCounts n o.promised) (min n (countLimit - 1)) =
      min (n + (offers.map (·.promised)).sum) (countLimit - 1) := by
  induction offers generalizing n with
  | nil => rfl
  | cons o os ih =>
    have hstep : addCounts (min n (countLimit - 1)) o.promised =
        min (n + o.promised) (countLimit - 1) := by
      rw [addCounts]
      omega
    rw [List.foldl_cons, hstep, ih, List.map_cons, List.sum_cons, Nat.add_assoc]

theorem Reply.addTo_min {ρ : Type} (reply : Reply ρ) (n : Nat) :
    reply.addTo (min n (countLimit - 1)) =
      min (n + (reply.offers.map (·.promised)).sum) (countLimit - 1) := by
  cases reply with
  | granted offers =>
    have hsum := foldl_addCounts offers 0
    rw [Nat.zero_min, Nat.zero_add] at hsum
    rw [Reply.addTo, hsum, addCounts, Reply.offers]
    omega
  | _ => rfl

theorem Provisioner.Sound.promisedForLabel_eq {σ ρ : Type} [CapacitySource σ ρ]
    {p : Provisioner σ} (h : p.Sound) (label : Option Label) :
    p.ledger.promisedForLabel label =
      ((p.outstanding.filter (·.account.label = label)).map (·.planned.promised)).sum := by
  rw [Ledger.promisedForLabel_eq, Promise.total_perm (h.tracks.flat.filter _), List.filter_map,
    Promise.total, List.map_map]
  rfl

namespace Round

variable {σ R ρ : Type} [CapacitySource σ ρ]

/-- A round whose sources are passed over exactly if a call to them has failed. -/
structure Fair (r : Round σ R) : Prop where
  sound : r.loop.Sound
  failed : ∀ n, n ∈ r.failed ↔ FailedIn n r.calls

/-- An asking that began when the label was promised `base`: what it has granted is what the
ledger promises since, up to the largest count. -/
structure Asking.Fair (label : Option Label) (base : Nat) (a : Asking σ R) : Prop where
  round : a.round.Fair
  granted : ∃ g, a.round.loop.ledger.promisedForLabel label = base + g ∧
    a.granted = min g (countLimit - 1)

namespace Asking.Fair

variable {label : Option Label} {base excess : Nat} {a : Asking σ R}

/-- What is left of the demand is what the ledger does not cover. -/
theorem remaining_eq (h : a.Fair label base) (he : excess < countLimit) :
    excess - base - a.granted = excess - a.round.loop.ledger.promisedForLabel label := by
  obtain ⟨g, hp, hg⟩ := h.granted
  omega

theorem remaining_le_iff (h : a.Fair label base) (he : excess < countLimit) :
    excess - base ≤ a.granted ↔ excess ≤ a.round.loop.ledger.promisedForLabel label := by
  have := h.remaining_eq he
  omega

theorem promised_receive (h : a.Fair label base) (now : Time) (workload : Nat) (n : SourceName)
    {sources : SourceSet σ} (hs : sources.names = a.round.loop.sources.names) (reply : Reply ρ) :
    (a.receive now ⟨n, label⟩ workload sources reply).round.loop.ledger.promisedForLabel label =
      a.round.loop.ledger.promisedForLabel label + (reply.offers.map (·.promised)).sum := by
  have hsound := h.round.sound.grows (Asking.receive_grows now ⟨n, label⟩ workload reply hs)
  have hall : ∀ o ∈ reply.entries now ⟨n, label⟩ a.round.loop.nextId,
      decide (o.account.label = label) = true := by
    intro o ho
    rw [account_of_mem_taken _ _ ho]
    exact decide_eq_true rfl
  rw [hsound.promisedForLabel_eq, Asking.receive, List.filter_append, List.map_append,
    List.sum_append, ← h.round.sound.promisedForLabel_eq, List.filter_eq_self.2 hall,
    Reply.entries, map_promised_taken]

theorem receive (h : a.Fair label base) (now : Time) (workload : Nat) (n : SourceName)
    {sources : SourceSet σ} (hs : sources.names = a.round.loop.sources.names) (reply : Reply ρ) :
    (a.receive now ⟨n, label⟩ workload sources reply).Fair label base := by
  obtain ⟨g, hp, hg⟩ := h.granted
  refine ⟨⟨?_, fun m => ?_⟩, g + (reply.offers.map (·.promised)).sum, ?_, ?_⟩
  · exact h.round.sound.grows (Asking.receive_grows now _ workload reply hs)
  · rw [Asking.receive, List.mem_append, h.round.failed, failedIn_append, Reply.failedIn_calls]
  · rw [h.promised_receive now workload n hs reply, hp, Nat.add_assoc]
  · rw [Asking.receive, hg, Reply.addTo_min]

end Asking.Fair

/-! ## One turn -/

/-- A turn on which a source gives a reply, when the demand of a label is still short of
`excess`. -/
structure Turn.Gives (now : Time) (label : Option Label) (excess : Nat) (t : Turn σ R)
    (reply : Reply ρ) : Prop where
  fair : t.before.Fair
  member : t.source ∈ t.before.loop.sources.names
  needed : t.before.loop.ledger.promisedForLabel label < excess
  passed : reply = .passedOver ↔ t.source ∈ t.before.failed
  replied : ∃ s, t.before.loop.sources.get? t.source = some s ∧
    reply.IsOf label (excess - t.before.loop.ledger.promisedForLabel label) s
  logged : t.after.calls = t.before.calls ++ t.calls
  calls : t.calls = reply.calls ⟨t.source, label⟩
    (excess - t.before.loop.ledger.promisedForLabel label) t.before.loop.nextId
  entries : t.after.loop.outstanding = t.before.loop.outstanding ++
    reply.entries now ⟨t.source, label⟩ t.before.loop.nextId
  promised : t.after.loop.ledger.promisedForLabel label =
    t.before.loop.ledger.promisedForLabel label + (reply.offers.map (·.promised)).sum

theorem Asking.Fair.step {label : Option Label} {base excess : Nat} {a : Asking σ R}
    (h : a.Fair label base) (he : excess < countLimit) (now : Time) {n : SourceName}
    (hn : n ∈ a.round.loop.sources.names) (hg : ¬ excess - base ≤ a.granted) :
    (askSource now label (excess - base) n a).Fair label base ∧
      (askSource now label (excess - base) n a).round.loop.sources.names =
        a.round.loop.sources.names ∧
      ∃ reply, Turn.Gives now label excess
        ⟨n, a.round, (askSource now label (excess - base) n a).round⟩ reply := by
  obtain ⟨reply, sources, hears, ha⟩ := askSource_eq now label (excess - base) hn
  rw [h.remaining_eq he] at hears ha
  rw [ha]
  refine ⟨h.receive now _ n hears.names reply, hears.names, reply, ?_⟩
  have hcalls : Turn.calls ⟨n, a.round, (a.receive now ⟨n, label⟩
      (excess - a.round.loop.ledger.promisedForLabel label) sources reply).round⟩ =
      reply.calls ⟨n, label⟩ (excess - a.round.loop.ledger.promisedForLabel label)
        a.round.loop.nextId := by
    rw [Turn.calls, Asking.receive, List.drop_left]
  exact {
    fair := h.round
    member := hn
    needed := Nat.lt_of_not_le fun hle => hg ((h.remaining_le_iff he).2 hle)
    passed := hears.passed
    replied := hears.own
    logged := by rw [hcalls]; rfl
    calls := hcalls
    entries := rfl
    promised := h.promised_receive now _ n hears.names reply }

namespace Turn.Gives

variable {now : Time} {label : Option Label} {excess : Nat} {t : Turn σ R} {reply : Reply ρ}

theorem own (h : t.Gives now label excess reply) {c : SourceCall} (hc : c ∈ t.calls) :
    c.source = t.source ∧ c.label = label := by
  rw [h.calls] at hc
  cases reply with
  | passedOver => cases hc
  | unsure e => cases List.mem_singleton.1 hc; exact ⟨rfl, rfl⟩
  | declined => cases List.mem_singleton.1 hc; exact ⟨rfl, rfl⟩
  | _ =>
    rcases List.mem_pair.1 hc with rfl | rfl
    · exact ⟨rfl, rfl⟩
    · exact ⟨rfl, rfl⟩

theorem answered (h : t.Gives now label excess reply) : t.Answered := by
  obtain ⟨s, hs, hof⟩ := h.replied
  refine ⟨s, hs, ?_⟩
  rw [h.calls]
  exact hof.answeredBy _ _

theorem asked (h : t.Gives now label excess reply) {n : SourceName} {l : Option Label}
    {workload : Nat} {answer : Except RequestError (List PlannedId)}
    (hc : .provision n l workload answer ∈ t.calls) : t.Asked label excess workload answer := by
  have hunfailed (hr : reply ≠ .passedOver) : ¬ FailedIn t.source t.before.calls := by
    rw [← h.fair.failed, ← h.passed]
    exact hr
  have hpositive := Nat.sub_pos_of_lt h.needed
  have hcalls := h.calls
  rw [hcalls] at hc
  cases reply with
  | failed e =>
    rcases List.mem_pair.1 hc with hc | hc
    · cases hc
    · cases hc
      exact ⟨h.member, hunfailed nofun, hcalls, h.answered, rfl, hpositive⟩
  | granted offers =>
    rcases List.mem_pair.1 hc with hc | hc
    · cases hc
    · cases hc
      exact ⟨h.member, hunfailed nofun, hcalls, h.answered, rfl, hpositive⟩
  | passedOver => cases hc
  | _ => cases List.mem_singleton.1 hc

/-- What a turn has granted is in flight under the ids that were answered. -/
theorem inFlight (h : t.Gives now label excess reply) :
    t.after.loop.outstanding.filter
        (·.planned.id ∈ List.range' t.before.loop.nextId reply.offers.length) =
      reply.entries now ⟨t.source, label⟩ t.before.loop.nextId := by
  have hbefore : t.before.loop.outstanding.filter
      (·.planned.id ∈ List.range' t.before.loop.nextId reply.offers.length) = [] := by
    refine List.filter_eq_nil_iff.2 fun o ho hid => ?_
    have hlt := h.fair.sound.numbered o.planned.id
      (List.mem_append_left _ (List.mem_map_of_mem ho))
    have hge := (List.mem_range'_1.1 (of_decide_eq_true hid)).1
    exact absurd hlt (Nat.not_lt.2 hge)
  rw [h.entries, List.filter_append, hbefore, List.nil_append, List.filter_eq_self]
  intro o ho
  refine decide_eq_true ?_
  rw [← map_id_taken now ⟨t.source, label⟩]
  exact List.mem_map_of_mem ho

/-- A source that is given a turn fails, declines, falls short or covers the demand. -/
theorem outcome (h : t.Gives now label excess reply) :
    FailedIn t.source t.after.calls ∨
      .canProvision t.source label (.ok false) ∈ t.calls ∨ t.Short label ∨
        excess ≤ t.after.loop.ledger.promisedForLabel label := by
  have hfailed (hf : FailedIn t.source t.before.calls) : FailedIn t.source t.after.calls := by
    rw [h.logged, failedIn_append]
    exact .inl hf
  have herror (e : RequestError) (he : reply.error? = some e) :
      FailedIn t.source t.after.calls := by
    rw [h.logged, failedIn_append, h.calls, Reply.failedIn_calls, he]
    exact .inr (by simp)
  cases reply with
  | passedOver => exact .inl (hfailed ((h.fair.failed _).1 (h.passed.1 rfl)))
  | unsure e => exact .inl (herror e rfl)
  | failed e => exact .inl (herror e rfl)
  | declined =>
    refine .inr (.inl ?_)
    rw [h.calls]
    exact List.mem_singleton_self _
  | granted offers =>
    refine .inr (.inr ?_)
    have hin := h.inFlight
    have hp := h.promised
    rw [Reply.offers] at hin hp
    by_cases hs : (offers.map (·.promised)).sum <
        excess - t.before.loop.ledger.promisedForLabel label
    · refine .inl ⟨excess - t.before.loop.ledger.promisedForLabel label,
        List.range' t.before.loop.nextId offers.length, ?_, ?_⟩
      · rw [h.calls]
        exact List.mem_pair.2 (.inr rfl)
      · rw [hin, Reply.entries, map_promised_taken]
        exact hs
    · exact .inr (by omega)

end Turn.Gives

/-! ## All turns of a demand -/

theorem Turn.Lead.calls {r r' : Round σ R} {ts : List (Turn σ R)} (h : Turn.Lead r ts r')
    (hlogged : ∀ t ∈ ts, t.after.calls = t.before.calls ++ t.calls) :
    r'.calls = r.calls ++ ts.flatMap Turn.calls := by
  induction ts generalizing r with
  | nil =>
    cases h
    exact (List.append_nil _).symm
  | cons t ts ih =>
    obtain ⟨rfl, h⟩ := h
    rw [ih h fun u hu => hlogged u (List.mem_cons_of_mem _ hu), hlogged t List.mem_cons_self,
      List.flatMap_cons, List.append_assoc]

theorem Turn.Lead.after_calls_prefix {r r' : Round σ R} {ts : List (Turn σ R)}
    (h : Turn.Lead r ts r') (hlogged : ∀ t ∈ ts, t.after.calls = t.before.calls ++ t.calls)
    {t : Turn σ R} (ht : t ∈ ts) : t.after.calls <+: r'.calls := by
  induction ts generalizing r with
  | nil => cases ht
  | cons u ts ih =>
    have hrest := fun v hv => hlogged v (List.mem_cons_of_mem u hv)
    obtain ⟨rfl, h⟩ := h
    rcases List.mem_cons.1 ht with rfl | ht
    · exact ⟨_, (h.calls hrest).symm⟩
    · exact ih h hrest ht

theorem lead_turnsOf (now : Time) (label : Option Label) (remaining : Nat)
    (ns : List SourceName) (a : Asking σ R) :
    Turn.Lead a.round (turnsOf now label remaining ns a)
      (askSources now label remaining ns a).round := by
  induction ns generalizing a with
  | nil => rfl
  | cons n ns ih =>
    unfold turnsOf askSources
    split
    · rfl
    · exact ⟨rfl, ih _⟩

theorem order_turnsOf (now : Time) (label : Option Label) (remaining : Nat)
    (ns : List SourceName) (a : Asking σ R) :
    (turnsOf now label remaining ns a).map (·.source) <+: ns := by
  induction ns generalizing a with
  | nil => exact List.prefix_rfl
  | cons n ns ih =>
    unfold turnsOf
    split
    · exact List.nil_prefix
    · exact List.prefix_cons_inj n |>.2 (ih _)

/-- A source that has not had its turn is as it was. -/
theorem fresh_turnsOf (now : Time) (label : Option Label) (remaining : Nat)
    {ns : List SourceName} (hdistinct : ns.Nodup) {a : Asking σ R}
    (hns : ∀ n ∈ ns, n ∈ a.round.loop.sources.names) {t : Turn σ R}
    (ht : t ∈ turnsOf now label remaining ns a) :
    t.source ∈ ns ∧
      t.before.loop.sources.get? t.source = a.round.loop.sources.get? t.source := by
  induction ns generalizing a with
  | nil => cases ht
  | cons n ns ih =>
    unfold turnsOf at ht
    split at ht
    · cases ht
    rcases List.mem_cons.1 ht with rfl | ht
    · exact ⟨List.mem_cons_self, rfl⟩
    obtain ⟨hn, hdistinct⟩ := List.nodup_cons.1 hdistinct
    obtain ⟨reply, sources, hears, ha⟩ :=
      askSource_eq now label remaining (hns n List.mem_cons_self)
    rw [ha] at ht
    obtain ⟨hmem, hsame⟩ := ih hdistinct
      (fun m hm => hears.names ▸ hns m (List.mem_cons_of_mem n hm)) ht
    refine ⟨List.mem_cons_of_mem n hmem, hsame.trans (hears.others _ ?_)⟩
    rintro heq
    exact hn (heq ▸ hmem)

theorem askSources_of_le {now : Time} {label : Option Label} {remaining : Nat}
    {ns : List SourceName} {a : Asking σ R} (h : remaining ≤ a.granted) :
    askSources now label remaining ns a = a := by
  cases ns with
  | nil => rfl
  | cons n ns => rw [askSources, if_pos h]

namespace Asking.Fair

variable {label : Option Label} {base excess : Nat} {a : Asking σ R}

theorem askSources (h : a.Fair label base) (now : Time) (remaining : Nat)
    {ns : List SourceName} (hns : ∀ n ∈ ns, n ∈ a.round.loop.sources.names) :
    (askSources now label remaining ns a).Fair label base := by
  refine askSources_kept (P := (·.Fair label base)) ?_ hns h
  intro a n sources reply hears h
  exact h.receive now _ n hears.names reply

theorem gives_of_mem (h : a.Fair label base) (he : excess < countLimit) (now : Time)
    {ns : List SourceName} (hns : ∀ n ∈ ns, n ∈ a.round.loop.sources.names) {t : Turn σ R}
    (ht : t ∈ turnsOf now label (excess - base) ns a) :
    ∃ reply, t.Gives now label excess reply := by
  induction ns generalizing a with
  | nil => cases ht
  | cons n ns ih =>
    unfold turnsOf at ht
    split at ht
    · cases ht
    · rename_i hg
      obtain ⟨h', hnames, hreply⟩ := h.step he now (hns n List.mem_cons_self) hg
      rcases List.mem_cons.1 ht with rfl | ht
      · exact hreply
      · refine ih h' (fun m hm => ?_) ht
        rw [hnames]
        exact hns m (List.mem_cons_of_mem _ hm)

/-- The turns end because the demand is covered or because every source has had one that did
not cover it. -/
theorem finished (h : a.Fair label base) (he : excess < countLimit) (now : Time)
    {ns : List SourceName} (hns : ∀ n ∈ ns, n ∈ a.round.loop.sources.names) :
    excess - base ≤ (Round.askSources now label (excess - base) ns a).granted ∨
      ∀ n ∈ ns, ∃ t ∈ turnsOf now label (excess - base) ns a, t.source = n ∧
        (FailedIn n t.after.calls ∨ .canProvision n label (.ok false) ∈ t.calls ∨
          t.Short label) := by
  induction ns generalizing a with
  | nil => exact .inr fun n hn => absurd hn List.not_mem_nil
  | cons n ns ih =>
    by_cases hg : excess - base ≤ a.granted
    · rw [askSources_of_le hg]
      exact .inl hg
    rw [Round.askSources, turnsOf, if_neg hg, if_neg hg]
    obtain ⟨h', hnames, reply, hreply⟩ := h.step he now (hns n List.mem_cons_self) hg
    have hout := hreply.outcome
    rw [← or_assoc, ← or_assoc, or_assoc (a := FailedIn _ _)] at hout
    rcases hout with hout | hcovered
    · refine (ih h' fun m hm => ?_).imp_right fun hall m hm => ?_
      · rw [hnames]
        exact hns m (List.mem_cons_of_mem _ hm)
      · rcases List.mem_cons.1 hm with rfl | hm
        · exact ⟨_, List.mem_cons_self, rfl, hout⟩
        · obtain ⟨t, ht, hm'⟩ := hall m hm
          exact ⟨t, List.mem_cons_of_mem _ ht, hm'⟩
    · have hle := (h'.remaining_le_iff he).2 hcovered
      rw [askSources_of_le hle]
      exact .inl hle

end Asking.Fair

/-- The asking that evaluates a demand. -/
def asking (now : Time) (r : Round σ R) (d : Demand) : Asking σ R :=
  askSources now d.label (d.excess - r.loop.ledger.promisedForLabel d.label)
    r.loop.sources.names ⟨r, 0, false, false⟩

theorem lead_turns (now : Time) (r : Round σ R) (d : Demand) :
    Turn.Lead r (r.turns now d) (r.asking now d).round :=
  lead_turnsOf now d.label _ r.loop.sources.names ⟨r, 0, false, false⟩

/-- Beyond the asking, an evaluation reports at most that no source serves the label. -/
theorem evaluate_eq_asking (now : Time) (r : Round σ R) (d : Demand) :
    (r.evaluate now d).loop = (r.asking now d).round.loop ∧
      (r.evaluate now d).calls = (r.asking now d).round.calls ∧
        (r.evaluate now d).failed = (r.asking now d).round.failed := by
  unfold evaluate asking
  dsimp only
  split
  · rename_i hz
    rw [askSources_of_le (Nat.le_of_eq hz)]
    exact ⟨rfl, rfl, rfl⟩
  · split <;> exact ⟨rfl, rfl, rfl⟩

/-! ## Other labels -/

section OtherLabels

variable {label label' : Option Label}

/-- What is promised for one label is nothing to another. -/
theorem Asking.promised_receive_of_ne {a : Asking σ R} (h : a.round.loop.Sound) (now : Time)
    (workload : Nat) (n : SourceName) {sources : SourceSet σ}
    (hs : sources.names = a.round.loop.sources.names) (reply : Reply ρ) (hne : label' ≠ label) :
    (a.receive now ⟨n, label'⟩ workload sources reply).round.loop.ledger.promisedForLabel label =
      a.round.loop.ledger.promisedForLabel label := by
  have hsound := h.grows (Asking.receive_grows now ⟨n, label'⟩ workload reply hs)
  have hnone : (reply.entries now ⟨n, label'⟩ a.round.loop.nextId).filter
      (·.account.label = label) = [] := by
    refine List.filter_eq_nil_iff.2 fun o ho hlabel => hne ?_
    rw [account_of_mem_taken _ _ ho] at hlabel
    exact of_decide_eq_true hlabel
  rw [hsound.promisedForLabel_eq, Asking.receive, List.filter_append, hnone, List.append_nil,
    ← h.promisedForLabel_eq]

theorem promised_askSources_of_ne (now : Time) (hne : label' ≠ label) (remaining : Nat)
    {ns : List SourceName} {a : Asking σ R} (h : a.round.loop.Sound)
    (hns : ∀ n ∈ ns, n ∈ a.round.loop.sources.names) :
    (askSources now label' remaining ns a).round.loop.ledger.promisedForLabel label =
      a.round.loop.ledger.promisedForLabel label := by
  refine (askSources_kept (P := fun a' => a'.round.loop.Sound ∧
    a'.round.loop.ledger.promisedForLabel label = a.round.loop.ledger.promisedForLabel label)
      ?_ hns ⟨h, rfl⟩).2
  rintro a' n sources reply hears ⟨hsound, hsame⟩
  refine ⟨hsound.grows (Asking.receive_grows now _ _ reply hears.names), ?_⟩
  rw [Asking.promised_receive_of_ne hsound now _ n hears.names reply hne, hsame]

theorem promised_evaluate_of_ne {r : Round σ R} (h : r.loop.Sound) (now : Time) {d : Demand}
    (hne : d.label ≠ label) :
    (r.evaluate now d).loop.ledger.promisedForLabel label =
      r.loop.ledger.promisedForLabel label := by
  rw [(evaluate_eq_asking now r d).1]
  exact promised_askSources_of_ne (a := ⟨r, 0, false, false⟩) now hne _ h fun n hn => hn

end OtherLabels

/-! ## Evaluations -/

namespace Fair

variable {r : Round σ R}

theorem begin_asking (h : r.Fair) (label : Option Label) :
    (⟨r, 0, false, false⟩ : Asking σ R).Fair label (r.loop.ledger.promisedForLabel label) :=
  ⟨h, 0, rfl, (Nat.zero_min _).symm⟩

theorem evaluate (h : r.Fair) (now : Time) (d : Demand) : (r.evaluate now d).Fair := by
  obtain ⟨hloop, hcalls, hfailed⟩ := evaluate_eq_asking now r d
  have ha : (r.asking now d).round.Fair :=
    ((h.begin_asking d.label).askSources now _ fun n hn => hn).round
  exact ⟨hloop ▸ ha.sound, by rw [hcalls, hfailed]; exact ha.failed⟩

theorem evaluateAll (h : r.Fair) (now : Time) (ds : List Demand) :
    (r.evaluateAll now ds).Fair := by
  induction ds generalizing r with
  | nil => exact h
  | cons d ds ih => exact ih (h.evaluate now d)

theorem gives (h : r.Fair) (now : Time) {d : Demand} (he : d.excess < countLimit) {t : Turn σ R}
    (ht : t ∈ r.turns now d) : ∃ reply, t.Gives now d.label d.excess reply :=
  (h.begin_asking d.label).gives_of_mem he now (fun _ hn => hn) ht

theorem logged (h : r.Fair) (now : Time) {d : Demand} (he : d.excess < countLimit) :
    ∀ t ∈ r.turns now d, t.after.calls = t.before.calls ++ t.calls := by
  intro t ht
  obtain ⟨_, hgives⟩ := h.gives now he ht
  exact hgives.logged

theorem evaluation (h : r.Fair) (now : Time) {d : Demand} (he : d.excess < countLimit) :
    Evaluation now r d := by
  have hb := h.begin_asking d.label
  have hlead := lead_turns now r d
  have hlogged := h.logged now he
  obtain ⟨hloop, hcalls, -⟩ := evaluate_eq_asking now r d
  constructor
  case order => exact order_turnsOf _ _ _ _ _
  case once =>
    exact List.Nodup.sublist (order_turnsOf _ _ _ _ _).sublist r.loop.sources.distinct
  case lead => exact ⟨_, hlead, hloop⟩
  case calls => rw [hcalls, hlead.calls hlogged]
  case own =>
    intro t ht c hc
    obtain ⟨_, hgives⟩ := h.gives now he ht
    exact hgives.own hc
  case answered =>
    intro t ht
    obtain ⟨_, hgives⟩ := h.gives now he ht
    exact hgives.answered
  case fresh =>
    intro t ht
    exact (fresh_turnsOf (a := ⟨r, 0, false, false⟩) now _ _ r.loop.sources.distinct
      (fun n hn => hn) ht).2
  case covered =>
    intro hle
    rw [hcalls, asking, Nat.sub_eq_zero_of_le hle, askSources_of_le (Nat.zero_le _)]
  case needed =>
    intro t ht
    obtain ⟨_, hgives⟩ := h.gives now he ht
    exact hgives.needed
  case asked =>
    intro t ht n label workload answer hc
    obtain ⟨_, hgives⟩ := h.gives now he ht
    exact hgives.asked hc
  case finished =>
    have hend := (hb.askSources now (d.excess - r.loop.ledger.promisedForLabel d.label)
      fun n hn => hn).remaining_le_iff he
    rcases hb.finished he now fun n hn => hn with hle | hall
    · rw [hloop]
      exact .inl (hend.1 hle)
    · refine .inr fun n hn => ?_
      obtain ⟨t, ht, rfl, hf | hout⟩ := hall n hn
      · obtain ⟨c, hc, hfailed⟩ := hf
        rw [hcalls]
        exact .inl ⟨c, (hlead.after_calls_prefix hlogged ht).subset hc, hfailed⟩
      · exact .inr ⟨t, ht, rfl, hout⟩

end Fair

end Round

open Provisioner Round

variable {σ R ρ : Type} [CapacitySource σ ρ] [NodeRegistry R ρ]

theorem Provisioner.Sound.fair_polled {p : Provisioner σ} (h : p.Sound) (now : Time)
    (registry : R) : (p.polled now registry).Fair where
  sound := h.polled now registry
  failed n := by
    rw [failed_polled, calls_polled]
    simp [FailedIn]

/-- In every state that a run reaches, a tick logs its calls from the start and evaluates each
of its demands as `Evaluation` says. -/
theorem evaluation_of_tick (sources : SourceSet σ) (guard : Guard) (timeout : Option Duration)
    (nextId : PlannedId) (acts : List (Act σ R)) (now : Time) (registry : R)
    (earlier later : List Demand) (label : Option Label) (excess : UInt32) :
    let p := ((start sources guard timeout nextId).run acts).2
    let d : Demand := ⟨label, excess.toNat⟩
    let r := (p.polled now registry).evaluateAll now earlier
    (p.polled now registry).calls = [] ∧
      p.tick now (earlier ++ d :: later) registry =
        ((r.evaluate now d).evaluateAll now later).finish ∧
      Evaluation now r d := by
  intro p d r
  have hsound : p.Sound := (sound_start sources guard timeout nextId).run acts
  have hfair : r.Fair := (hsound.fair_polled now registry).evaluateAll now earlier
  refine ⟨calls_polled now registry p, ?_, hfair.evaluation now excess.toNat_lt⟩
  rw [tick_eq, Round.evaluateAll, List.foldl_append]
  rfl

end Fleet
