import Fleet.Api.Bodies
import Fleet.Api.Path
import Fleet.Daemon

/-!
# The interface

Reads go straight to the provisioner, the registry or the store; mutations go through the
provisioner and the reaper, so that the guard sees every one of them.
-/

namespace Fleet.Api

/-! ## What is shown -/

def sourceMembers {σ ρ : Type} [CapacitySource σ ρ] (s : σ) : List (String × Json) := [
  ("name", .text (CapacitySource.name s).text),
  ("display_name", .text (CapacitySource.displayName s)),
  ("url", .text (CapacitySource.url s))]

def mutationStatus : MutationError → Status
  | .denied _ => .forbidden
  | .unknownSource _ => .notFound
  | .unsupportedLabel _ _ => .badRequest
  | .zeroWorkload => .badRequest
  | .request _ => .badGateway
  | .registry (.nodeNotFound _) => .notFound
  | .registry (.state _) => .internalError

def mutationFailure (e : MutationError) : Response := .failure e.message (mutationStatus e)

section Handlers

variable {σ R ρ : Type} [CapacitySource σ ρ] [NodeRegistry R ρ] [Freeing σ ρ]

/-- What a handler makes of the daemon. -/
abbrev Handler (σ R : Type) {ρ : Type} [CapacitySource σ ρ] :=
  Daemon σ R → Response × Daemon σ R

/-! ## Sources -/

def listSources : Handler σ R := fun d =>
  (.ok (.array (d.loop.sources.members.map fun s => .object (sourceMembers s))), d)

def getSource (name : String) : Handler σ R := fun d =>
  match d.loop.sources.named? name with
  | none => (.failure "source not found" .notFound, d)
  | some s =>
    let entries := d.loop.ledger.entries.filter fun e => e.account.source.text == name
    (.ok (.object (sourceMembers s ++ [("ledger", .array (entries.map (·.toJson)))])), d)

def provision (now : Time) (actor : Actor) (name : String) (workload : Workload) :
    Handler σ R := fun d =>
  match Label.ofOption workload.label with
  | .error e => (.failure e.message .badRequest, d)
  | .ok label =>
    match d.provisionManually now actor name label workload.excess with
    | (.error e, d) => (mutationFailure e, d)
    | (.ok planned, d) =>
      (.success (.object [
        ("source", .text name),
        ("planned", .array (planned.map .number))]) .accepted, d)

/-! ## Nodes -/

def listNodes : Handler σ R := fun d =>
  match NodeRegistry.list d.registry with
  | (.error e, registry) => (.failure e.message .internalError, { d with registry })
  | (.ok records, registry) => (.ok (.array (records.map (·.toJson))), { d with registry })

def removeNode (now : Time) (actor : Actor) (id : NodeId) : Handler σ R := fun d =>
  match d.removeNode now actor id "requested via api" with
  | (.error e, d) => (mutationFailure e, d)
  | (.ok _, d) =>
    (.success (.object [("node", .text id), ("status", .text "removing")]) .accepted, d)

def reportActivity (now : Time) (id : NodeId) (activity : Activity) : Handler σ R := fun d =>
  match NodeRegistry.updateActivity id activity.busy activity.pending now.seconds d.registry with
  | (.ok record, registry) => (.ok record.toJson, { d with registry })
  | (.error (.nodeNotFound _), registry) =>
    (.failure "node not found" .notFound, { d with registry })
  | (.error e, registry) => (.failure e.message .internalError, { d with registry })

/-! ## State of the provisioner -/

def getLedger : Handler σ R := fun d =>
  (.ok (.array (d.loop.ledger.entries.map (·.toJson))), d)

def listPlanned (now : Time) : Handler σ R := fun d =>
  (.ok (.array (d.loop.outstanding.map (·.toJson now))), d)

def demandJson (board : Demand.Board) : Json := .array (board.sample.map (·.toJson))

def getDemand : Handler σ R := fun d => (.ok (demandJson d.board), d)

def setDemand (workload : Workload) : Handler σ R := fun d =>
  match Label.ofOption workload.label with
  | .error e => (.failure e.message .badRequest, d)
  | .ok label =>
    let board := d.board.set label workload.excess
    (.ok (demandJson board), { d with board })

def listEvents : Handler σ R := fun d =>
  (.ok (.array (d.history.events.map (·.toJson))), d)

/-! ## Leaks -/

def listLeaks : Handler σ R := fun d =>
  match NodeRegistry.withStore Store.listLeaks d.registry with
  | (.error e, registry) => (.failure e.message .internalError, { d with registry })
  | (.ok leaks, registry) => (.ok (.array (leaks.map (·.toJson))), { d with registry })

/-- Acknowledge that a leaked resource was cleaned up by hand. -/
def resolveLeak (id : NodeId) : Handler σ R := fun d =>
  match NodeRegistry.withStore (Store.deleteLeak id) d.registry with
  | (.error e, registry) => (.failure e.message .internalError, { d with registry })
  | (.ok true, registry) => (.ok (.text "resolved"), { d with registry })
  | (.ok false, registry) => (.failure "leak not found" .notFound, { d with registry })

/-! ## Requests -/

/-- Go on with the name that a segment stands for. -/
def withName (segment : String) (handler : String → Handler σ R) : Handler σ R :=
  match decodeSegment? segment with
  | none => fun d => (.bare .badRequest, d)
  | some name => handler name

/-- Go on with what the body says. -/
def withBody {α : Type} (r : Request) (shape : Shape) (ofJson? : Json → Option α)
    (handler : α → Handler σ R) : Handler σ R :=
  match r.decode shape ofJson? with
  | .error status => fun d => (.bare status, d)
  | .ok a => handler a

/-- The handler of a route and a method. -/
def handler? (now : Time) (r : Request) : Route → Method → Option (Handler σ R)
  | .sources, .get => some listSources
  | .source segment, .get => some (withName segment getSource)
  | .provision segment, .post => some (withName segment fun name =>
      withBody r Workload.shape Workload.ofJson? (provision now r.acting name))
  | .nodes, .get => some listNodes
  | .node segment, .delete => some (withName segment (removeNode now r.acting))
  | .activity segment, .put => some (withName segment fun id =>
      withBody r Activity.shape Activity.ofJson? (reportActivity now id))
  | .ledger, .get => some getLedger
  | .planned, .get => some (listPlanned now)
  | .demand, .get => some getDemand
  | .demand, .put => some (withBody r Workload.shape Workload.ofJson? setDemand)
  | .events, .get => some listEvents
  | .leaks, .get => some listLeaks
  | .leak segment, .delete => some (withName segment resolveLeak)
  | _, _ => none

/-- Answer a request at `now`. -/
def respond (now : Time) (r : Request) : Handler σ R := fun d =>
  match Route.ofPath? r.path with
  | none => (.bare .notFound, d)
  | some route =>
    let method := if r.method = .head then .get else r.method
    match handler? now r route method with
    | none => (.bare .methodNotAllowed, d)
    | some handler =>
      let (response, d) := handler d
      (if r.method = .head then .bare response.status else response, d)

end Handlers

end Fleet.Api
