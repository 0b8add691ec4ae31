import Fleet.Planned
import Mathlib.Data.List.Basic

/-!
# Both sides of a handoff

The creating side uses its completer once, and the side that waits polls its capacity or drops
it, each when it likes.  What an act answers can be told from the acts before it
(`Handoff.answer`): a poll reads the first use of the completer, and after that poll nothing.
`Handoff.run_after` says that a handoff does so whatever the order of the acts is, and refuses
exactly the acts of those who have given up their end.
-/

namespace Fleet

namespace Handoff

variable {ρ : Type}

/-! ## Acts -/

inductive Act (ρ : Type) where
  | complete (node : RealizedNode ρ)
  | fail (error : CompletionError)
  /-- Drop the completer unused. -/
  | abandon
  /-- Ask whether anybody waits. -/
  | ask
  | poll
  | drop

namespace Act

/-- What the capacity comes to when the completer is used. -/
def use? : Act ρ → Option (CompletionResult ρ)
  | complete node => some (.ok node)
  | fail error => some (.error error)
  | abandon => some (.error .abandoned)
  | _ => none

def isPoll : Act ρ → Bool
  | poll => true
  | _ => false

def isDrop : Act ρ → Bool
  | drop => true
  | _ => false

end Act

inductive Reply (ρ : Type) where
  /-- To the completer that has been used. -/
  | settled (d : Delivery ρ)
  | closed (b : Bool)
  | seen (p : Poll ρ)
  | done

/-- Carry out an act; `none` if the one who acts has given up the end that it takes. -/
def act (h : Handoff ρ) : Act ρ → Option (Reply ρ × Handoff ρ)
  | .complete node => (h.resolve? (.ok node)).map fun d => (.settled d.1, d.2)
  | .fail error => (h.resolve? (.error error)).map fun d => (.settled d.1, d.2)
  | .abandon => if h.completer then some (.done, h.abandon) else none
  | .ask => if h.completer then some (.closed h.isClosed, h) else none
  | .poll => h.poll?.map fun p => (.seen p.1, p.2)
  | .drop => if h.capacity.isSome then some (.done, h.dropCapacity) else none

/-- Acts in turn, with what each answers. -/
def run (h : Handoff ρ) : List (Act ρ) → Option (List (Reply ρ) × Handoff ρ)
  | [] => some ([], h)
  | a :: acts => do
    let (reply, next) ← h.act a
    let (replies, last) ← next.run acts
    some (reply :: replies, last)

/-! ## What the past tells -/

def used (past : List (Act ρ)) : Bool := past.any (·.use?.isSome)

def dropped (past : List (Act ρ)) : Bool := past.any (·.isDrop)

/-- The one who acts still has the end that the act takes. -/
def free (past : List (Act ρ)) : Act ρ → Bool
  | .poll | .drop => !dropped past
  | _ => !used past

/-- Acts that can follow the past: the completer is used once, and nothing is done with a capacity
that has been dropped. -/
def possible (past : List (Act ρ)) : List (Act ρ) → Bool
  | [] => true
  | a :: acts => free past a && possible (past ++ [a]) acts

/-- What a poll reads: the first use of the completer, and nothing more after a poll since. -/
def reading : List (Act ρ) → Poll ρ
  | [] => .pending
  | a :: since =>
    match a.use? with
    | none => reading since
    | some result => if since.any (·.isPoll) then .spent else .ready result

def answer (past : List (Act ρ)) : Act ρ → Reply ρ
  | .complete node => .settled (if dropped past then .returned (.ok node) else .accepted)
  | .fail error => .settled (if dropped past then .returned (.error error) else .accepted)
  | .abandon => .done
  | .ask => .closed (dropped past)
  | .poll => .seen (reading past)
  | .drop => .done

def answers (past : List (Act ρ)) : List (Act ρ) → List (Reply ρ)
  | [] => []
  | a :: acts => answer past a :: answers (past ++ [a]) acts

/-! ## One more act -/

variable {past : List (Act ρ)} {a : Act ρ}

theorem used_concat : used (past ++ [a]) = (used past || a.use?.isSome) := by
  simp [used]

theorem dropped_concat : dropped (past ++ [a]) = (dropped past || a.isDrop) := by
  simp [dropped]

/-- One more act turns what a poll reads: pending until the completer is used, then ready until
it is read. -/
theorem reading_concat (past : List (Act ρ)) (a : Act ρ) :
    reading (past ++ [a]) =
      match reading past with
      | .pending => (a.use?.map Poll.ready).getD .pending
      | .ready result => if a.isPoll then .spent else .ready result
      | .spent => .spent := by
  induction past with
  | nil =>
    rw [List.nil_append, reading, reading, reading]
    cases a.use? <;> rfl
  | cons b since ih =>
    rw [List.cons_append, reading, reading]
    cases b.use? with
    | none => exact ih
    | some result =>
      rw [List.any_append, List.any_cons, List.any_nil, Bool.or_false]
      cases since.any (·.isPoll) <;> cases a.isPoll <;> rfl

theorem reading_of_unused (h : used past = false) : reading past = .pending := by
  induction past with
  | nil => rfl
  | cons a since ih =>
    obtain ⟨ha, hsince⟩ := Bool.or_eq_false_iff.1 h
    have hnone : a.use? = none := by simpa using ha
    rw [reading, hnone]
    exact ih hsince

/-! ## Where a handoff stands -/

/-- A completion of which a poll reads this. -/
def ofReading : Poll ρ → Completion ρ
  | .pending => .waiting
  | .ready result => .unread result
  | .spent => .spent

/-- Where a handoff stands after acts from its start on. -/
def after (past : List (Act ρ)) : Handoff ρ where
  capacity := if dropped past then none else some (ofReading (reading past))
  completer := !used past

theorem after_nil : after [] = (pending : Handoff ρ) := rfl

theorem resolve?_after (h : used past = false) (result : CompletionResult ρ) :
    (after past).resolve? result =
      some (if dropped past then .returned result else .accepted,
        ⟨if dropped past then none else some (.unread result), false⟩) := by
  have hreading := reading_of_unused h
  cases hd : dropped past with
  | true => simp [resolve?, after, h, hd]
  | false => simp [resolve?, after, h, hd, hreading, ofReading, Completion.deliver?]

/-- The completer has been used. -/
theorem after_use {result : CompletionResult ρ} (h : used past = false)
    (ha : a.use? = some result) :
    after (past ++ [a]) = ⟨if dropped past then none else some (.unread result), false⟩ := by
  have hdrop : a.isDrop = false := by
    cases a <;> first | rfl | cases ha
  rw [after, dropped_concat, used_concat, reading_concat, reading_of_unused h, ha, hdrop,
    Bool.or_false, h]
  rfl

/-- The completer has been left alone, and so has the completion. -/
theorem after_concat_of_use? (ha : a.use? = none) (hpoll : a.isPoll = false)
    (hdrop : a.isDrop = false) : after (past ++ [a]) = after past := by
  have hreading : reading (past ++ [a]) = reading past := by
    rw [reading_concat, ha, hpoll]
    cases reading past <;> rfl
  rw [after, after, dropped_concat, used_concat, hreading, ha, hdrop, Bool.or_false]
  simp

/-- A handoff answers an act as its past tells, and refuses it to those who have given up the end
that it takes. -/
theorem act_after (past : List (Act ρ)) (a : Act ρ) :
    (after past).act a =
      if free past a then some (answer past a, after (past ++ [a])) else none := by
  cases a with
  | complete node =>
    cases hused : used past with
    | true => simp [act, resolve?, after, free, hused]
    | false =>
      rw [act, resolve?_after hused, after_use hused rfl]
      simp [free, hused, answer]
  | fail error =>
    cases hused : used past with
    | true => simp [act, resolve?, after, free, hused]
    | false =>
      rw [act, resolve?_after hused, after_use hused rfl]
      simp [free, hused, answer]
  | abandon =>
    cases hused : used past with
    | true => simp [act, after, free, hused]
    | false =>
      have hcompleter : (after past).completer = true := by simp [after, hused]
      rw [act, abandon, resolve?_after hused, after_use hused rfl, if_pos hcompleter]
      simp [free, hused, answer]
  | ask =>
    rw [after_concat_of_use? rfl rfl rfl]
    cases hd : dropped past <;> simp [act, after, free, answer, isClosed, hd]
  | poll =>
    cases hd : dropped past with
    | true => simp [act, poll?, after, free, hd]
    | false =>
      have hreading := reading_concat past .poll
      cases hr : reading past <;>
        simp [act, poll?, after, free, answer, hd, hr, hreading, dropped_concat, used_concat,
          Act.isDrop, Act.use?, Act.isPoll, ofReading, Completion.poll]
  | drop =>
    cases hd : dropped past with
    | true => simp [act, after, free, hd]
    | false =>
      simp [act, dropCapacity, after, free, answer, hd, dropped_concat, used_concat, Act.isDrop,
        Act.use?]

/-- Acts that are possible are carried out, others are not. -/
theorem run_after (past acts : List (Act ρ)) :
    (after past).run acts =
      if possible past acts then some (answers past acts, after (past ++ acts)) else none := by
  induction acts generalizing past with
  | nil => simp [run, possible, answers]
  | cons a acts ih =>
    rw [run, act_after]
    cases hfree : free past a with
    | false => simp [possible, hfree]
    | true =>
      have hnext := ih (past ++ [a])
      rw [if_pos rfl, Option.bind_eq_bind, Option.bind_some]
      dsimp only
      rw [hnext]
      cases hpossible : possible (past ++ [a]) acts <;>
        simp [possible, hfree, hpossible, answers]

end Handoff

end Fleet
