import Fleet.Proofs.Api.Mediation
import Fleet.Proofs.Custody.Operations

/-!
# The daemon and those who ask

A `Service` is the daemon at a moment, with the requests that are under way.  A request to remove
a node looks the node up to check the permission and takes it out in a second step, so anything
may happen in between; every other request is answered in one step.  With nothing in between, a
removal is answered as the interface answers it (`receive_removal`).  What a request makes of the
daemon comes about by acts, of which only the second step of a removal takes out a node
(`Service.receive_moment`, `Service.carryOut_of_permit`).
-/

namespace Fleet

/-- An act that takes out no node on request. -/
def Moment.Act.isOwn {σ ρ : Type} [CapacitySource σ ρ] : Act σ → Bool
  | .remove _ _ _ _ => false
  | _ => true

namespace Api

/-! ## Requests under way -/

/-- The node that a request wants removed. -/
def Request.removal? (r : Request) : Option NodeId :=
  match Route.ofPath? r.path, r.method with
  | some (.node segment), .delete => decodeSegment? segment
  | _, _ => none

/-- A request to remove a node whose actor has been permitted to do so. -/
structure Permit where
  request : Request
  node : NodeId
  asked : request.removal? = some node

/-- The reason that the interface gives for a removal. -/
def removalReason : String := "requested via api"

/-- The removal that was permitted, as an act. -/
def Permit.act {σ ρ : Type} [CapacitySource σ ρ] (now : Time) (p : Permit) : Moment.Act σ :=
  .remove now p.request.acting p.node removalReason

/-- The daemon at a moment, and the requests under way. -/
structure Service (σ : Type) {ρ : Type} [CapacitySource σ ρ] where
  moment : Moment σ
  /-- The removals that are permitted and still to be carried out. -/
  permits : List Permit

/-- The response to a removal that was permitted. -/
def removalResponse {α : Type} (id : NodeId) : Except MutationError α → Response
  | .error e => mutationFailure e
  | .ok _ => .success (.object [("node", .text id), ("status", .text "removing")]) .accepted

namespace Service

variable {σ ρ : Type} [CapacitySource σ ρ]

/-- What happens next. -/
inductive Step (σ : Type) {ρ : Type} [CapacitySource σ ρ] where
  | act (a : Moment.Act σ) (own : a.isOwn = true)
  /-- A request comes in. -/
  | receive (now : Time) (r : Request)
  /-- The removal at a place of the list is carried out. -/
  | carryOut (now : Time) (place : Nat)

variable [Freeing σ ρ]

/-- A request comes in: it is answered, or it is a removal that is permitted.  Who asks for
capacity waits for the tick to end. -/
def receive (now : Time) (r : Request) (s : Service σ) : Option Response × Service σ :=
  match asked : r.removal? with
  | some id =>
    let looked := s.moment.step (.consult (.get id))
    let daemon := s.moment.daemon
    match (authorizeRemoval daemon.loop.guard r.acting id daemon.registry).1 with
    | .error e => (some (mutationFailure e), { s with moment := looked })
    | .ok () => (none, ⟨looked, s.permits ++ [⟨r, id, asked⟩]⟩)
  | none =>
    if r.action? = some .provision ∧ s.moment.ticking.isSome then (none, s)
    else
      let (response, daemon) := respond now r s.moment.daemon
      (some response, { s with moment := { s.moment with daemon } })

def carryOut (now : Time) (place : Nat) (s : Service σ) : Option Response × Service σ :=
  match s.permits[place]? with
  | none => (none, s)
  | some p =>
    let answer := (detachFor p.request.acting p.node removalReason s.moment.daemon.registry).1
    (some (removalResponse p.node answer), ⟨s.moment.step (p.act now), s.permits.eraseIdx place⟩)

/-- The next step, and what it answers. -/
def step (s : Service σ) : Step σ → Option Response × Service σ
  | .act a _ => (none, { s with moment := s.moment.step a })
  | .receive now r => s.receive now r
  | .carryOut now place => s.carryOut now place

def run (s : Service σ) (steps : List (Step σ)) : Service σ :=
  steps.foldl (fun s x => (s.step x).2) s

omit [Freeing σ ρ] in
/-- A daemon that nobody has asked for anything. -/
def start (d : Daemon σ (Registry ρ)) : Service σ := ⟨⟨d, none⟩, []⟩

/-! ## Removals -/

variable {s : Service σ} {r : Request} {now : Time}

theorem respond_of_removal {id : NodeId} (asked : r.removal? = some id)
    (d : Daemon σ (Registry ρ)) : respond now r d = Api.removeNode now r.acting id d := by
  unfold Request.removal? at asked
  split at asked
  · rename_i segment hroute hmethod
    have hhandler : handler? now r (.node segment) r.method =
        some (Api.removeNode (σ := σ) (R := Registry ρ) now r.acting id) := by
      rw [hmethod]
      simp only [handler?, withName, asked]
    exact respond_of_handler hroute (by rw [hmethod]; decide) now hhandler
  · cases asked

/-- A removal that nothing comes between is answered as the interface answers it, and leaves the
same daemon. -/
theorem receive_removal {id : NodeId} (asked : r.removal? = some id) :
    let out := respond now r s.moment.daemon
    let after : Service σ := { s with moment := { s.moment with daemon := out.2 } }
    s.receive now r = (some out.1, after) ∨
      ∃ s', s.receive now r = (none, s') ∧
        s'.carryOut now s.permits.length = (some out.1, after) := by
  dsimp only
  rw [respond_of_removal asked]
  have hlooked : s.moment.step (.consult (.get id)) = { s.moment with
      daemon := { s.moment.daemon with
        registry := (authorizeRemoval s.moment.daemon.loop.guard r.acting id
          s.moment.daemon.registry).2 } } := by
    rw [authorizeRemoval_snd]
    rfl
  unfold receive
  split
  · rename_i id' asked'
    obtain rfl : id' = id := Option.some.inj (asked'.symm.trans asked)
    dsimp only
    rw [hlooked]
    unfold Api.removeNode Daemon.removeNode Fleet.removeNode
    cases authorizeRemoval s.moment.daemon.loop.guard r.acting id' s.moment.daemon.registry with
    | mk answer registry =>
      cases answer with
      | error e => exact .inl rfl
      | ok _ =>
        refine .inr ⟨_, rfl, ?_⟩
        unfold carryOut
        rw [List.getElem?_concat_length]
        dsimp only [Permit.act, Moment.step, Moment.remove, removalReason]
        rw [List.eraseIdx_append_of_length_le (Nat.le_refl _), Nat.sub_self]
        cases detachFor r.acting id' "requested via api" registry with
        | mk answer registry =>
          cases answer with
          | error e => simp [removalResponse]
          | ok removal => simp [removalResponse]
  · rename_i asked'
    rw [asked'] at asked
    cases asked

end Service

/-! ## Requests as acts -/

section Performs

variable {σ ρ : Type} [CapacitySource σ ρ] [Freeing σ ρ] {m : Moment σ}

/-- What a handler makes of the daemon comes about by acts that take out no node. -/
def Performs (m : Moment σ) (handler : Handler σ (Registry ρ)) : Prop :=
  ∃ acts, (∀ a ∈ acts, a.isOwn = true) ∧ m.run acts = { m with daemon := (handler m.daemon).2 }

theorem performs_idle {handler : Handler σ (Registry ρ)}
    (h : (handler m.daemon).2 = m.daemon) : Performs m handler :=
  ⟨[], nofun, by rw [h]; rfl⟩

theorem performs_act {handler : Handler σ (Registry ρ)} (a : Moment.Act σ) (own : a.isOwn = true)
    (h : m.step a = { m with daemon := (handler m.daemon).2 }) : Performs m handler :=
  ⟨[a], List.forall_mem_singleton.2 own, h⟩

theorem Consults.performs {handler : Handler σ (Registry ρ)} {c : Consultation}
    (h : Consults handler c) : Performs m handler := by
  refine performs_act (.consult c) rfl ?_
  rw [h m.daemon]
  rfl

theorem withName_performs {segment : String} {handler : String → Handler σ (Registry ρ)}
    (h : ∀ name, decodeSegment? segment = some name → Performs m (handler name)) :
    Performs m (withName segment handler) := by
  unfold withName
  split
  · exact performs_idle rfl
  · rename_i name hname
    exact h name hname

theorem withBody_performs {α : Type} {r : Request} {shape : Shape} {ofJson? : Json → Option α}
    {handler : α → Handler σ (Registry ρ)} (h : ∀ a, Performs m (handler a)) :
    Performs m (withBody r shape ofJson? handler) := by
  unfold withBody
  split
  · exact performs_idle rfl
  · exact h _

theorem getSource_performs (name : String) :
    Performs m (getSource name : Handler σ (Registry ρ)) := by
  refine performs_idle ?_
  unfold getSource
  split <;> rfl

/-- Who asks for capacity by hand finds no tick under way. -/
theorem provision_performs (hidle : m.ticking = none) (now : Time) (actor : Actor)
    (name : String) (workload : Workload) :
    Performs m (provision now actor name workload : Handler σ (Registry ρ)) := by
  unfold provision
  cases hlabel : Label.ofOption workload.label with
  | error e => exact performs_idle rfl
  | ok label =>
    refine performs_act (.provision now actor name label workload.excess) rfl ?_
    rw [Moment.step, hidle]
    dsimp only
    rcases m.daemon.provisionManually now actor name label workload.excess with ⟨_ | _, d⟩ <;> rfl

theorem setDemand_performs (workload : Workload) :
    Performs m (setDemand workload : Handler σ (Registry ρ)) := by
  unfold setDemand
  cases Label.ofOption workload.label with
  | error e => exact performs_idle rfl
  | ok label =>
    exact performs_act (.changeDemand (m.daemon.board.set label workload.excess)) rfl rfl

/-- Of the handlers, only the one that removes a node takes one out. -/
theorem handler?_performs {now : Time} {r : Request} {route : Route} {method : Method}
    {handler : Handler σ (Registry ρ)} (h : handler? now r route method = some handler)
    (hprovision : ∀ segment, route = .provision segment → method = .post → m.ticking = none)
    (hremove : ∀ segment, route = .node segment → method = .delete →
      decodeSegment? segment = none) : Performs m handler := by
  unfold handler? at h
  split at h
  case h_1 => cases h; exact performs_idle rfl
  case h_2 => cases h; exact withName_performs fun name _ => getSource_performs name
  case h_3 segment =>
    cases h
    have hidle := hprovision segment rfl rfl
    exact withName_performs fun name _ => withBody_performs fun workload =>
      provision_performs hidle now r.acting name workload
  case h_4 => cases h; exact listNodes_consults.performs
  case h_5 segment =>
    cases h
    refine withName_performs fun name hname => ?_
    rw [hremove segment rfl rfl] at hname
    cases hname
  case h_6 =>
    cases h
    exact withName_performs fun id _ => withBody_performs fun activity =>
      (reportActivity_consults now id activity).performs
  case h_7 => cases h; exact performs_idle rfl
  case h_8 => cases h; exact performs_idle rfl
  case h_9 => cases h; exact performs_idle rfl
  case h_10 => cases h; exact withBody_performs setDemand_performs
  case h_11 => cases h; exact performs_idle rfl
  case h_12 => cases h; exact listLeaks_consults.performs
  case h_13 => cases h; exact withName_performs fun id _ => (resolveLeak_consults id).performs
  case h_14 => cases h

/-- A request that removes no node, and does not ask for capacity in the middle of a tick, comes
to acts that take out no node. -/
theorem respond_performs {r : Request} (hremoval : r.removal? = none)
    (hidle : r.action? = some .provision → m.ticking = none) (now : Time) :
    Performs m (respond (σ := σ) (R := Registry ρ) now r) := by
  cases hroute : Route.ofPath? r.path with
  | none =>
    refine performs_idle ?_
    simp only [respond, hroute]
  | some route =>
    cases hhandler : handler? (σ := σ) (R := Registry ρ) now r route
      (if r.method = .head then .get else r.method) with
    | none =>
      refine performs_idle ?_
      simp only [respond, hroute, hhandler]
    | some handler =>
      have hsame : Performs m (respond now r) ↔ Performs m handler := by
        simp only [Performs, respond, hroute, hhandler]
      have hmethod (method : Method) (hget : method ≠ .get)
          (h : (if r.method = .head then .get else r.method) = method) : r.method = method := by
        split at h
        · exact absurd h.symm hget
        · exact h
      refine hsame.2 (handler?_performs hhandler ?_ ?_)
      · rintro segment rfl h
        refine hidle ?_
        rw [Request.action?, hroute, hmethod .post (by decide) h]
      · rintro segment rfl h
        rw [Request.removal?, hroute, hmethod .delete (by decide) h] at hremoval
        exact hremoval

end Performs

namespace Service

variable {σ ρ : Type} [CapacitySource σ ρ] [Freeing σ ρ]

/-- What a request makes of the daemon when it comes in comes about by acts that take out no
node. -/
theorem receive_moment (now : Time) (r : Request) (s : Service σ) :
    ∃ acts, (∀ a ∈ acts, a.isOwn = true) ∧ (s.receive now r).2.moment = s.moment.run acts := by
  unfold receive
  split
  · rename_i id _
    refine ⟨[.consult (.get id)], List.forall_mem_singleton.2 rfl, ?_⟩
    dsimp only
    split <;> rfl
  · rename_i hremoval
    split
    · exact ⟨[], nofun, rfl⟩
    · rename_i hwaits
      have hidle (h : r.action? = some .provision) : s.moment.ticking = none :=
        Option.not_isSome_iff_eq_none.1 fun hticking => hwaits ⟨h, hticking⟩
      obtain ⟨acts, hown, hrun⟩ := respond_performs hremoval hidle now
      exact ⟨acts, hown, hrun.symm⟩

theorem carryOut_of_permit {s : Service σ} {place : Nat} {p : Permit}
    (hp : s.permits[place]? = some p) (now : Time) :
    s.carryOut now place = (some (removalResponse p.node
      (detachFor p.request.acting p.node removalReason s.moment.daemon.registry).1),
      ⟨s.moment.step (p.act now), s.permits.eraseIdx place⟩) := by
  rw [carryOut, hp]

theorem step_moment (s : Service σ) (x : Step σ) :
    ∃ acts, (s.step x).2.moment = s.moment.run acts := by
  cases x with
  | act a own => exact ⟨[a], rfl⟩
  | receive now r =>
    obtain ⟨acts, -, hacts⟩ := receive_moment now r s
    exact ⟨acts, hacts⟩
  | carryOut now place =>
    dsimp only [step, carryOut]
    split
    · exact ⟨[], rfl⟩
    · exact ⟨[Permit.act now _], rfl⟩

/-- Where steps lead, acts do. -/
theorem run_moment (s : Service σ) (steps : List (Step σ)) :
    ∃ acts, (s.run steps).moment = s.moment.run acts := by
  induction steps generalizing s with
  | nil => exact ⟨[], rfl⟩
  | cons x steps ih =>
    obtain ⟨acts, hacts⟩ := step_moment s x
    obtain ⟨rest, hrest⟩ := ih (s.step x).2
    refine ⟨acts ++ rest, ?_⟩
    rw [Moment.run_append, ← hacts]
    exact hrest

/-- A removal is permitted for the request that has come in, by the check on the node that it wants
removed. -/
theorem mem_permits_receive {s : Service σ} {now : Time} {r : Request} {p : Permit}
    (h : p ∈ (s.receive now r).2.permits) :
    p ∈ s.permits ∨ p.request = r ∧
      (authorizeRemoval s.moment.daemon.loop.guard r.acting p.node
        s.moment.daemon.registry).1 = .ok () := by
  unfold receive at h
  split at h
  · dsimp only at h
    split at h
    · exact .inl h
    · rename_i hpermitted
      rcases List.mem_append.1 h with h | h
      · exact .inl h
      · obtain rfl := List.mem_singleton.1 h
        exact .inr ⟨rfl, hpermitted⟩
  · split at h <;> exact .inl h

theorem mem_permits_step {s : Service σ} {x : Step σ} {p : Permit}
    (h : p ∈ (s.step x).2.permits) : p ∈ s.permits ∨ ∃ now, x = .receive now p.request := by
  cases x with
  | act a own => exact .inl h
  | receive now r =>
    refine (mem_permits_receive h).imp_right ?_
    rintro ⟨rfl, -⟩
    exact ⟨now, rfl⟩
  | carryOut now place =>
    dsimp only [step, carryOut] at h
    split at h
    · exact .inl h
    · exact .inl (List.mem_of_mem_eraseIdx h)

theorem mem_permits_run {s : Service σ} {steps : List (Step σ)} {p : Permit}
    (h : p ∈ (s.run steps).permits) :
    p ∈ s.permits ∨ ∃ now, .receive now p.request ∈ steps := by
  induction steps generalizing s with
  | nil => exact .inl h
  | cons x steps ih =>
    rcases ih h with hstep | ⟨now, hmem⟩
    · refine (mem_permits_step hstep).imp_right ?_
      rintro ⟨now, rfl⟩
      exact ⟨now, List.mem_cons_self⟩
    · exact .inr ⟨now, List.mem_cons_of_mem _ hmem⟩

end Service

end Api

end Fleet
