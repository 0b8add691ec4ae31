import Fleet.Proofs.Slots.Start
import Fleet.Source.Client

/-!
# What clients of a simulated source do

Time passes, a client asks for capacity within a scheduler or outside, boots come to an end in
any order, and the client polls and drops capacities and releases nodes when it likes.  A
`SourceClient.Course` keeps, beside the client and its source, what has been granted to it and
what every release has answered.
-/

namespace Fleet

namespace SourceClient

/-- Capacity that was granted: for which label, and when. -/
structure Award where
  label : Option Label
  time : Time

inductive Act where
  | pass (d : Duration)
  /-- Calls are made within a scheduler from now on, or outside of any for a reason. -/
  | enter (outage : Option String)
  | provision (label : Option Label) (excess : Nat)
  /-- The boot at this place comes to an end, at any time from when it is due on. -/
  | boot (place : Nat) (up : Time)
  | poll (number : Nat)
  | drop (number : Nat)
  | release (number : Nat)

structure Course where
  now : Time
  client : SourceClient
  /-- What has been granted, in the order of the numbers. -/
  awards : List Award
  /-- What the release handles that were run have answered. -/
  released : List (Except ReleaseError Unit)

/-- What the release of a node answers that nobody waits for at the end of its boot. -/
def handBack (b : Booting) (c : SourceClient) : Option (Except ReleaseError Unit) :=
  match c.commissions.resolve? b.number (.ok (Moment.booted b.due b.node)) with
  | some (.returned _, _) => b.node.release.map fun handle => (c.free handle).1
  | _ => none

theorem finishBoot_eq (b : Booting) (c : SourceClient) :
    c.finishBoot b =
      match c.commissions.resolve? b.number (.ok (Moment.booted b.due b.node)) with
      | none => c
      | some (.accepted, commissions) => { c with commissions }
      | some (.returned _, commissions) =>
        match b.node.release with
        | none => { c with commissions }
        | some handle => ({ c with commissions }.free handle).2 := rfl

namespace Course

/-- The end of a boot. -/
def boot (b : Booting) (rest : List Booting) (c : Course) : Course :=
  let client := { c.client with booting := rest }
  { c with client := client.finishBoot b, released := c.released ++ (client.handBack b).toList }

def step (c : Course) : Act → Course
  | .pass d => { c with now := c.now.after d }
  | .enter outage =>
    { c with client := { c.client with source := { c.client.source with outage } } }
  | .provision label excess =>
    match c.client.provision c.now label excess with
    | (.ok numbers, client) =>
      { c with client, awards := c.awards ++ numbers.map fun _ => ⟨label, c.now⟩ }
    | (.error _, client) => { c with client }
  | .boot place up =>
    match c.client.booting[place]? with
    | none => c
    | some b =>
      if b.due ≤ up ∧ up ≤ c.now then c.boot { b with due := up } (c.client.booting.eraseIdx place)
      else c
  | .poll number =>
    match c.client.poll? number with
    | none => c
    | some (_, client) => { c with client }
  | .drop number => { c with client := (c.client.drop number).2 }
  | .release number =>
    match c.client.release? number with
    | none => c
    | some (answer, client) => { c with client, released := c.released ++ [answer] }

def run (c : Course) (acts : List Act) : Course := acts.foldl step c

/-- A client begins, with nothing granted yet. -/
def start (source : SimulatedSource) (now : Time) : Course := ⟨now, .start source, [], []⟩

/-! ## Boots that are due -/

/-- The ends of all boots that are due, each at the time at which it is, when there are `place`
boots before them. -/
def dueActs (now : Time) (place : Nat) : List Booting → List Act
  | [] => []
  | b :: bs =>
    if b.due ≤ now then .boot place b.due :: dueActs now place bs else dueActs now (place + 1) bs

/-- The end of a boot has nothing to do with what else is booting. -/
theorem finishBoot_booting (b : Booting) (c : SourceClient) (bs : List Booting) :
    finishBoot b { c with booting := bs } = { finishBoot b c with booting := bs } := by
  rw [finishBoot_eq, finishBoot_eq]
  dsimp only
  split
  · rfl
  · rfl
  · split
    · rfl
    · rename_i handle _
      cases handle with
      | slot source node => rfl
      | drill delay node failure => cases failure <;> rfl

theorem run_dueActs (c : Course) (before bs : List Booting)
    (h : c.client.booting = before ++ bs) :
    (c.run (dueActs c.now before.length bs)).client =
      (bs.filter fun b => b.due ≤ c.now).foldl (fun c b => finishBoot b c)
        { c.client with booting := before ++ bs.filter fun b => !decide (b.due ≤ c.now) } := by
  induction bs generalizing c before with
  | nil =>
    rw [List.append_nil] at h
    rw [dueActs, List.filter_nil, List.filter_nil, List.append_nil, ← h]
    rfl
  | cons b bs ih =>
    by_cases hdue : b.due ≤ c.now
    · have hplace : c.client.booting[before.length]? = some b := by
        rw [h, List.getElem?_append_right (Nat.le_refl _), Nat.sub_self]
        rfl
      have hrest : c.client.booting.eraseIdx before.length = before ++ bs := by
        rw [h, List.eraseIdx_append_of_length_le (Nat.le_refl _), Nat.sub_self]
        rfl
      have hstep : c.step (.boot before.length b.due) = c.boot b (before ++ bs) := by
        rw [step, hplace, hrest]
        exact if_pos ⟨Nat.le_refl _, hdue⟩
      have hclient : (c.boot b (before ++ bs)).client =
          { finishBoot b c.client with booting := before ++ bs } := finishBoot_booting b _ _
      have hnext := ih (c.boot b (before ++ bs)) before (congrArg SourceClient.booting hclient)
      have htaken : (b :: bs).filter (fun b => decide (b.due ≤ c.now)) =
          b :: bs.filter fun b => b.due ≤ c.now := List.filter_cons_of_pos (decide_eq_true hdue)
      have hleft : (b :: bs).filter (fun b => !decide (b.due ≤ c.now)) =
          bs.filter fun b => !decide (b.due ≤ c.now) :=
        List.filter_cons_of_neg (by simpa using hdue)
      rw [dueActs, if_pos hdue, htaken, hleft, List.foldl_cons, finishBoot_booting, run,
        List.foldl_cons, hstep]
      rw [hclient] at hnext
      exact hnext
    · have hnext := ih c (before ++ [b]) (by rw [h, List.append_assoc]; rfl)
      have htaken : (b :: bs).filter (fun b => decide (b.due ≤ c.now)) =
          bs.filter fun b => b.due ≤ c.now := List.filter_cons_of_neg (by simpa using hdue)
      have hleft : (b :: bs).filter (fun b => !decide (b.due ≤ c.now)) =
          b :: bs.filter fun b => !decide (b.due ≤ c.now) :=
        List.filter_cons_of_pos (by simpa using hdue)
      rw [List.length_append, List.append_assoc] at hnext
      rw [dueActs, if_neg hdue, htaken, hleft]
      exact hnext

/-- Settling is a run: all boots that are due come to an end. -/
theorem settle_eq_run (c : Course) :
    c.client.settle c.now = (c.run (dueActs c.now 0 c.client.booting)).client := by
  rw [settle, List.partition_eq_filter_filter]
  exact (run_dueActs c [] c.client.booting rfl).symm

end Course

end SourceClient

end Fleet
