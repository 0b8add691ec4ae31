import Fleet.Commission
import Fleet.Source.Simulated

/-!
# Clients of a simulated source

A client asks a simulated source for capacity and does with it what it likes: it polls or
drops capacities before and after their boot, and releases the nodes that it got out of them
when it likes.
-/

namespace Fleet

/-- A node that is booting for the commission with a number. -/
structure Booting where
  due : Time
  number : Nat
  node : RealizedNode ReleaseHandle

structure SourceClient where
  source : SimulatedSource
  commissions : Commissions ReleaseHandle
  booting : List Booting
  /-- The nodes taken over, by the number of their commission. -/
  kept : List (Nat × RealizedNode ReleaseHandle)

namespace SourceClient

def start (source : SimulatedSource) : SourceClient := ⟨source, .empty, [], []⟩

/-- Take over an offer under the next number. -/
def accept (now : Time) (c : SourceClient) (o : Offer ReleaseHandle) : SourceClient :=
  let number := c.commissions.nextNumber
  { c with
    commissions := c.commissions.add ⟨o.description, o.promised, now.before o.age, .pending⟩
    booting := c.booting ++ (o.boot.map fun b => ⟨now.after b.delay, number, b.node⟩).toList }

/-- Ask for capacity; answers the numbers of the new commissions. -/
def provision (now : Time) (label : Option Label) (excess : Nat) (c : SourceClient) :
    Except RequestError (List Nat) × SourceClient :=
  match c.source.provision label excess with
  | (.error e, source) => (.error e, { c with source })
  | (.ok offers, source) =>
    (.ok (List.range' c.commissions.nextNumber offers.length),
      offers.foldl (accept now) { c with source })

/-- Run a release handle. -/
def free (handle : ReleaseHandle) (c : SourceClient) : Except ReleaseError Unit × SourceClient :=
  match handle with
  | .slot _ node =>
    let (result, source) := c.source.releaseSlot node
    (result, { c with source })
  | .drill _ _ none => (.ok (), c)
  | .drill _ _ (some e) => (.error e, c)

/-- A boot ends; if nobody waits for the node its slot is given back. -/
def finishBoot (b : Booting) (c : SourceClient) : SourceClient :=
  let node := { b.node with record := b.node.record.bootedAt b.due.seconds }
  match c.commissions.resolve? b.number (.ok node) with
  | none => c
  | some (.accepted, commissions) => { c with commissions }
  | some (.returned _, commissions) =>
    match node.release with
    | none => { c with commissions }
    | some handle => ({ c with commissions }.free handle).2

/-- End the boots that are due. -/
def settle (now : Time) (c : SourceClient) : SourceClient :=
  let (due, booting) := c.booting.partition fun b => b.due ≤ now
  due.foldl (fun c b => c.finishBoot b) { c with booting }

/-- Look at a commission; a node that comes out of it is kept. -/
def poll? (number : Nat) (c : SourceClient) : Option (Poll ReleaseHandle × SourceClient) := do
  let (poll, commissions) ← c.commissions.poll? number
  match poll with
  | .ready (.ok node) =>
    some (poll, { c with commissions, kept := c.kept ++ [(number, node)] })
  | _ => some (poll, { c with commissions })

def drop (number : Nat) (c : SourceClient) : Bool × SourceClient :=
  let (there, commissions) := c.commissions.drop number
  (there, { c with commissions })

/-- Release the node kept under a number; `none` if there is none. -/
def release? (number : Nat) (c : SourceClient) :
    Option (Except ReleaseError Unit × SourceClient) := do
  let (_, node) ← c.kept.find? fun k => k.1 == number
  let c := { c with kept := c.kept.filter fun k => k.1 != number }
  match node.release with
  | none => some (.ok (), c)
  | some handle =>
    let (result, c) := c.free handle
    some (result.mapError (·.about node.record.id), c)

end SourceClient

end Fleet
