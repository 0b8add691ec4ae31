import Fleet.Proofs.Provisioner.Growth
import Mathlib.Logic.Relation

/-!
# The course of asking

Whatever the provisioner asks of its sources, it asks call by call: whether a source serves a
label (`Work.Asked.can`), or what it offers of a workload (`Work.Asked.capacity`), with remarks
in between.  `Work.Course` is any number of such steps.  All that asks is one, up to the
evaluation of all demand (`Round.evaluateAll_course`) and to provisioning by hand
(`Provisioner.provisionManually_course`), so what each of the three steps keeps is kept by them.
-/

namespace Fleet

namespace Work

variable {σ ρ : Type} [CapacitySource σ ρ]

/-- One step of asking. -/
inductive Asked (now : Time) : Work σ → Work σ → Prop
  /-- Something that is about no capacity is reported. -/
  | remark (w : Work σ) {e : Event} (about : e.planned? = none) : Asked now w (w.emit e)
  | can (account : Account) (w : Work σ) : Asked now w (w.askCan account).2
  | capacity (account : Account) (workload : Nat) (w : Work σ) :
      Asked now w (w.askFor now account workload).2

abbrev Course (now : Time) : Work σ → Work σ → Prop := Relation.ReflTransGen (Asked now)

theorem provisionFrom_course (now : Time) (account : Account) (workload : Nat) (w : Work σ) :
    Course now w (w.provisionFrom now account workload).2 := by
  have hcan : Course now w (w.askCan account).2 := .single (.can account w)
  unfold provisionFrom
  split
  · exact .refl
  · cases hc : w.askCan account with
    | mk answer w' =>
      rw [hc] at hcan
      cases answer with
      | error e => exact hcan
      | ok serves =>
        cases serves with
        | false => exact hcan
        | true =>
          have hfor : Course now w (w'.askFor now account workload).2 :=
            hcan.tail (.capacity account workload w')
          dsimp only
          cases hf : w'.askFor now account workload with
          | mk answer w'' =>
            rw [hf] at hfor
            cases answer <;> exact hfor

end Work

theorem Provisioner.provisionManually_course {σ ρ : Type} [CapacitySource σ ρ] (now : Time)
    (actor : Actor) (source : String) (label : Option Label) (workload : Nat)
    (p : Provisioner σ) :
    Work.Course now (.begin p) (p.provisionManually now actor source label workload).2 := by
  unfold provisionManually
  split
  · exact .refl
  · dsimp only
    split
    · exact .refl
    · exact Work.provisionFrom_course now _ workload _

namespace Round

variable {σ R ρ : Type} [CapacitySource σ ρ]

theorem askSource_course (now : Time) (label : Option Label) (remaining : Nat) (n : SourceName)
    (a : Asking σ R) :
    Work.Course now a.round.toWork (askSource now label remaining n a).round.toWork := by
  have hcan : Work.Course now a.round.toWork (a.round.toWork.askCan ⟨n, label⟩).2 :=
    .single (.can ⟨n, label⟩ _)
  unfold askSource
  dsimp only
  split
  · exact .refl
  · cases hc : a.round.toWork.askCan ⟨n, label⟩ with
    | mk answer w =>
      rw [hc] at hcan
      cases answer with
      | error e => exact hcan.tail (.remark w rfl)
      | ok serves =>
        cases serves with
        | false => exact hcan
        | true =>
          have hfor : Work.Course now a.round.toWork
              (w.askFor now ⟨n, label⟩ (remaining - a.granted)).2 :=
            hcan.tail (.capacity ⟨n, label⟩ (remaining - a.granted) w)
          dsimp only
          cases hf : w.askFor now ⟨n, label⟩ (remaining - a.granted) with
          | mk answer w' =>
            rw [hf] at hfor
            cases answer <;> exact hfor

theorem askSources_course (now : Time) (label : Option Label) (remaining : Nat)
    (ns : List SourceName) (a : Asking σ R) :
    Work.Course now a.round.toWork (askSources now label remaining ns a).round.toWork := by
  induction ns generalizing a with
  | nil => exact .refl
  | cons n ns ih =>
    unfold askSources
    split
    · exact .refl
    · exact (askSource_course now label remaining n a).trans (ih _)

theorem evaluate_course (now : Time) (r : Round σ R) (d : Demand) :
    Work.Course now r.toWork (r.evaluate now d).toWork := by
  unfold evaluate
  dsimp only
  split
  · exact .refl
  · have hasked := askSources_course now d.label
      (d.excess - r.loop.ledger.promisedForLabel d.label) r.loop.sources.names
      (⟨r, 0, false, false⟩ : Asking σ R)
    split
    · exact hasked.tail (.remark _ rfl)
    · exact hasked

theorem evaluateAll_course (now : Time) (demands : List Demand) (r : Round σ R) :
    Work.Course now r.toWork (r.evaluateAll now demands).toWork := by
  induction demands generalizing r with
  | nil => exact .refl
  | cons d ds ih => exact (evaluate_course now r d).trans (ih _)

theorem finish_course (now : Time) (r : Round σ R) :
    Work.Course now r.toWork r.finish.toWork := .single (.remark _ rfl)

end Round

end Fleet
