import Fleet.Mutation
import Fleet.Provisioner.Basic

/-!
# Provisioning by hand

An actor asks one source for capacity, whatever the demand.  The checks come first, and the
first that fails is the answer.
-/

namespace Fleet

namespace Work

variable {σ ρ : Type} [CapacitySource σ ρ]

/-- Ask a member of the set on an actor's behalf; the permission has been checked. -/
def provisionFrom (now : Time) (account : Account) (workload : Nat) (w : Work σ) :
    Except MutationError (List PlannedId) × Work σ :=
  if workload = 0 then (.error .zeroWorkload, w)
  else
    match w.askCan account with
    | (.error e, w) => (.error (.request e), w)
    | (.ok false, w) => (.error (.unsupportedLabel account.source account.label), w)
    | (.ok true, w) =>
      match w.askFor now account workload with
      | (.error e, w) => (.error (.request e), w)
      | (.ok (ids, _), w) => (.ok ids, w)

end Work

/-- Provision on behalf of an actor; no source is asked before the permission is checked. -/
def Provisioner.provisionManually {σ ρ : Type} [CapacitySource σ ρ] (now : Time) (actor : Actor)
    (source : String) (label : Option Label) (workload : Nat) (p : Provisioner σ) :
    Except MutationError (List PlannedId) × Work σ :=
  match p.sources.named? source with
  | none => (.error (.unknownSource source), .begin p)
  | some s =>
    let name := CapacitySource.name s
    match p.guard.check actor .provision name with
    | .error e => (.error (.denied e), .begin p)
    | .ok () => (Work.begin p).provisionFrom now ⟨name, label⟩ workload

end Fleet
