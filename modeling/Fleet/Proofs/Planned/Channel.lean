import Fleet.Proofs.Planned.Handoff

/-!
# Handoffs over a channel

A capacity and its completer hold the two ends of a channel that carries one value (`Oneshot`,
which says what such a channel does and leaves open how).  `Ends` is what either side does with
its end: a poll looks into the channel and keeps in mind that it has found something, the
completer puts its result in and learns whether it got through.  `Ends.replies_opened` says that
over any such channel they answer as a `Handoff` does.
-/

namespace Fleet

/-! ## Channels -/

/-- What there is to be found in a channel. -/
inductive Received (ν : Type) where
  | value (v : ν)
  | empty
  | closed

/-- The value in a channel that nobody has taken out yet, and which of the ends are held. -/
structure Conduit (ν : Type) where
  value : Option ν
  sender : Bool
  receiver : Bool

/-- A channel that carries one value, with what it promises to those who hold its ends. -/
structure Oneshot (ν : Type) where
  Channel : Type
  conduit : Channel → Conduit ν
  opened : Channel
  /-- Put a value in, which gives up the sending end; a value that does not get through comes
  back. -/
  send : ν → Channel → Except ν Unit × Channel
  tryRecv : Channel → Received ν × Channel
  dropSender : Channel → Channel
  dropReceiver : Channel → Channel
  isClosed : Channel → Bool
  conduit_opened : conduit opened = ⟨none, true, true⟩
  send_held {c : Channel} (v : ν) (h : conduit c = ⟨none, true, true⟩) :
    (send v c).1 = .ok () ∧ conduit (send v c).2 = ⟨some v, false, true⟩
  send_dropped {c : Channel} (v : ν) (h : conduit c = ⟨none, true, false⟩) :
    (send v c).1 = .error v ∧ conduit (send v c).2 = ⟨none, false, false⟩
  tryRecv_value {c : Channel} {v : ν} (h : conduit c = ⟨some v, false, true⟩) :
    (tryRecv c).1 = .value v ∧ conduit (tryRecv c).2 = ⟨none, false, true⟩
  tryRecv_empty {c : Channel} (h : conduit c = ⟨none, true, true⟩) :
    (tryRecv c).1 = .empty ∧ conduit (tryRecv c).2 = conduit c
  tryRecv_closed {c : Channel} (h : conduit c = ⟨none, false, true⟩) :
    (tryRecv c).1 = .closed ∧ conduit (tryRecv c).2 = conduit c
  conduit_dropSender (c : Channel) :
    conduit (dropSender c) = { conduit c with sender := false }
  conduit_dropReceiver (c : Channel) :
    conduit (dropReceiver c) = { conduit c with receiver := false }
  isClosed_eq (c : Channel) : isClosed c = !(conduit c).receiver

/-- The channel that is nothing but what can be told of it. -/
def Oneshot.plain (ν : Type) : Oneshot ν where
  Channel := Conduit ν
  conduit := id
  opened := ⟨none, true, true⟩
  send v c :=
    if c.receiver then (.ok (), { c with value := some v, sender := false })
    else (.error v, { c with sender := false })
  tryRecv c :=
    match c.value with
    | some v => (.value v, { c with value := none })
    | none => (if c.sender then .empty else .closed, c)
  dropSender c := { c with sender := false }
  dropReceiver c := { c with receiver := false }
  isClosed c := !c.receiver
  conduit_opened := rfl
  send_held v h := by cases h; exact ⟨rfl, rfl⟩
  send_dropped v h := by cases h; exact ⟨rfl, rfl⟩
  tryRecv_value h := by cases h; exact ⟨rfl, rfl⟩
  tryRecv_empty h := by cases h; exact ⟨rfl, rfl⟩
  tryRecv_closed h := by cases h; exact ⟨rfl, rfl⟩
  conduit_dropSender _ := rfl
  conduit_dropReceiver _ := rfl
  isClosed_eq _ := rfl

/-! ## Both sides -/

/-- What a completion keeps in mind: its end of the channel, until it has found something. -/
inductive Waiter where
  | waiting
  | spent

/-- A capacity and its completer over a channel.  `completion` is `none` once the capacity has been
dropped; `completer` says that the sending end has not been used up. -/
structure Ends {ρ : Type} (o : Oneshot (CompletionResult ρ)) where
  channel : o.Channel
  completion : Option Waiter
  completer : Bool

namespace Ends

open Handoff

variable {ρ : Type} {o : Oneshot (CompletionResult ρ)}

def opened (o : Oneshot (CompletionResult ρ)) : Ends o := ⟨o.opened, some .waiting, true⟩

/-- The completion has found something and needs its end no more. -/
def spend (channel : o.Channel) (e : Ends o) : Ends o :=
  { e with channel := o.dropReceiver channel, completion := some .spent }

def poll? (e : Ends o) : Option (Poll ρ × Ends o) :=
  e.completion.map fun
    | .spent => (.spent, e)
    | .waiting =>
      let (received, channel) := o.tryRecv e.channel
      match received with
      | .value result => (.ready result, e.spend channel)
      | .empty => (.pending, { e with channel })
      | .closed => (.ready (.error .abandoned), e.spend channel)

/-- Send a result, which uses up the completer. -/
def send? (result : CompletionResult ρ) (e : Ends o) :
    Option (Except (CompletionResult ρ) Unit × Ends o) :=
  if e.completer then
    let (sent, channel) := o.send result e.channel
    some (sent, { e with channel, completer := false })
  else none

/-- Deliver a node, or get it back. -/
def complete? (node : RealizedNode ρ) (e : Ends o) :
    Option (Except (RealizedNode ρ) Unit × Ends o) :=
  (e.send? (.ok node)).map fun
    | (.ok (), e) => (.ok (), e)
    | (.error (.ok node), e) => (.error node, e)
    | (.error (.error _), e) => (.ok (), e)

/-- Deliver an error; answers whether it got through. -/
def fail? (error : CompletionError) (e : Ends o) : Option (Bool × Ends o) :=
  (e.send? (.error error)).map fun (sent, e) => (sent.isOk, e)

def dropCompletion (e : Ends o) : Ends o :=
  match e.completion with
  | some .waiting => { e with channel := o.dropReceiver e.channel, completion := none }
  | _ => { e with completion := none }

def act (e : Ends o) : Act ρ → Option (Reply ρ × Ends o)
  | .complete node => (e.complete? node).map fun
    | (.ok (), e) => (.settled .accepted, e)
    | (.error node, e) => (.settled (.returned (.ok node)), e)
  | .fail error => (e.fail? error).map fun (through, e) =>
    (.settled (if through then .accepted else .returned (.error error)), e)
  | .abandon =>
    if e.completer then
      some (.done, { e with channel := o.dropSender e.channel, completer := false })
    else none
  | .ask => if e.completer then some (.closed (o.isClosed e.channel), e) else none
  | .poll => e.poll?.map fun p => (.seen p.1, p.2)
  | .drop => if e.completion.isSome then some (.done, e.dropCompletion) else none

def run (e : Ends o) : List (Act ρ) → Option (List (Reply ρ) × Ends o)
  | [] => some ([], e)
  | a :: acts => do
    let (reply, next) ← e.act a
    let (replies, last) ← next.run acts
    some (reply :: replies, last)

/-! ## What they come to -/

/-- Both sides stand as a handoff does.  A completion that waits at a channel whose sender is gone
is one whose creation was abandoned, and nobody has told it yet. -/
inductive Stands : Ends o → Handoff ρ → Prop
  | pending {c : o.Channel} (h : o.conduit c = ⟨none, true, true⟩) :
    Stands ⟨c, some .waiting, true⟩ ⟨some .waiting, true⟩
  | unread {c : o.Channel} {result : CompletionResult ρ}
    (h : o.conduit c = ⟨some result, false, true⟩) :
    Stands ⟨c, some .waiting, false⟩ ⟨some (.unread result), false⟩
  | abandoned {c : o.Channel} (h : o.conduit c = ⟨none, false, true⟩) :
    Stands ⟨c, some .waiting, false⟩ ⟨some (.unread (.error .abandoned)), false⟩
  | spent {c : o.Channel} : Stands ⟨c, some .spent, false⟩ ⟨some .spent, false⟩
  | dropped {c : o.Channel} (h : o.conduit c = ⟨none, true, false⟩) :
    Stands ⟨c, none, true⟩ ⟨none, true⟩
  | gone {c : o.Channel} : Stands ⟨c, none, false⟩ ⟨none, false⟩

theorem stands_opened : Stands (opened o) (Handoff.pending : Handoff ρ) :=
  .pending o.conduit_opened

section Related

variable {α β γ δ : Type} {r : α → β → Prop} {q : γ → δ → Prop} {x : Option α} {y : Option β}

theorem rel_bind {f : α → Option γ} {g : β → Option δ} (h : Option.Rel r x y)
    (hfg : ∀ a b, r a b → Option.Rel q (f a) (g b)) : Option.Rel q (x.bind f) (y.bind g) := by
  cases h with
  | none => exact .none
  | some hab => exact hfg _ _ hab

theorem rel_map {f : α → γ} {g : β → δ} (h : Option.Rel r x y)
    (hfg : ∀ a b, r a b → q (f a) (g b)) : Option.Rel q (x.map f) (y.map g) := by
  rw [Option.map_eq_bind, Option.map_eq_bind]
  exact rel_bind h fun a b hab => .some (hfg a b hab)

theorem eq_of_rel {y : Option α} (h : Option.Rel Eq x y) : x = y := by
  cases h with
  | none => rfl
  | some hab => exact congrArg some hab

end Related

/-- Whether a result got through, as sending it tells. -/
def sent : Delivery ρ → Except (CompletionResult ρ) Unit
  | .accepted => .ok ()
  | .returned result => .error result

/-- Sending uses the completer up, and what comes back is what the handoff hands back. -/
theorem Stands.send?_resolved {e : Ends o} {h : Handoff ρ} (hs : Stands e h)
    (result : CompletionResult ρ) :
    Option.Rel (fun p d => p.1 = sent d.1 ∧ (∀ r, d.1 = .returned r → r = result) ∧
      Stands p.2 d.2) (e.send? result) (h.resolve? result) := by
  cases hs with
  | pending hc =>
    obtain ⟨hsent, hafter⟩ := o.send_held result hc
    exact .some ⟨hsent, nofun, .unread hafter⟩
  | dropped hc =>
    obtain ⟨hsent, -⟩ := o.send_dropped result hc
    exact .some ⟨hsent, fun _ h => (Delivery.returned.inj h).symm, .gone⟩
  | unread | abandoned | spent | gone => exact .none

/-- A poll reads the same and leaves both as they were, or spent. -/
theorem Stands.poll? {e : Ends o} {h : Handoff ρ} (hs : Stands e h) :
    Option.Rel (fun p q => p.1 = q.1 ∧ Stands p.2 q.2) e.poll? h.poll? := by
  cases hs with
  | pending hc =>
    obtain ⟨hempty, hafter⟩ := o.tryRecv_empty hc
    simp only [Ends.poll?, Option.map_some, hempty]
    exact .some ⟨rfl, .pending (hafter.trans hc)⟩
  | unread hc =>
    obtain ⟨hvalue, -⟩ := o.tryRecv_value hc
    simp only [Ends.poll?, Option.map_some, hvalue]
    exact .some ⟨rfl, .spent⟩
  | abandoned hc =>
    obtain ⟨hclosed, -⟩ := o.tryRecv_closed hc
    simp only [Ends.poll?, Option.map_some, hclosed]
    exact .some ⟨rfl, .spent⟩
  | spent => exact .some ⟨rfl, .spent⟩
  | dropped | gone => exact .none

/-- An act is answered alike, and then both sides stand as the handoff does again. -/
theorem Stands.act {e : Ends o} {h : Handoff ρ} (hs : Stands e h) (a : Act ρ) :
    Option.Rel (fun p q => p.1 = q.1 ∧ Stands p.2 q.2) (e.act a) (h.act a) := by
  cases a with
  | complete node =>
    rw [Ends.act, complete?, Option.map_map, Handoff.act]
    refine rel_map (hs.send?_resolved (.ok node)) ?_
    rintro ⟨-, next⟩ ⟨delivery, h'⟩ ⟨rfl, hreturned, hnext⟩
    cases delivery with
    | accepted => exact ⟨rfl, hnext⟩
    | returned result =>
      cases hreturned result rfl
      exact ⟨rfl, hnext⟩
  | fail error =>
    rw [Ends.act, fail?, Option.map_map, Handoff.act]
    refine rel_map (hs.send?_resolved (.error error)) ?_
    rintro ⟨-, next⟩ ⟨delivery, h'⟩ ⟨rfl, hreturned, hnext⟩
    cases delivery with
    | accepted => exact ⟨rfl, hnext⟩
    | returned result =>
      cases hreturned result rfl
      exact ⟨rfl, hnext⟩
  | abandon =>
    cases hs with
    | pending hc => exact .some ⟨rfl, .abandoned (by rw [o.conduit_dropSender, hc])⟩
    | dropped hc => exact .some ⟨rfl, .gone⟩
    | unread | abandoned | spent | gone => exact .none
  | ask =>
    cases hs with
    | pending hc => exact .some ⟨by rw [o.isClosed_eq, hc]; rfl, .pending hc⟩
    | dropped hc => exact .some ⟨by rw [o.isClosed_eq, hc]; rfl, .dropped hc⟩
    | unread | abandoned | spent | gone => exact .none
  | poll =>
    refine rel_map hs.poll? ?_
    rintro p q ⟨hread, hnext⟩
    exact ⟨congrArg Reply.seen hread, hnext⟩
  | drop =>
    cases hs with
    | pending hc => exact .some ⟨rfl, .dropped (by rw [o.conduit_dropReceiver, hc])⟩
    | unread | abandoned | spent => exact .some ⟨rfl, .gone⟩
    | dropped | gone => exact .none

/-- Both sides of a capacity over a channel answer acts as a handoff does. -/
theorem Stands.run {e : Ends o} {h : Handoff ρ} (hs : Stands e h) (acts : List (Act ρ)) :
    Option.Rel (fun p q => p.1 = q.1 ∧ Stands p.2 q.2) (e.run acts) (h.run acts) := by
  induction acts generalizing e h with
  | nil => exact .some ⟨rfl, hs⟩
  | cons a acts ih =>
    refine rel_bind (hs.act a) ?_
    rintro ⟨reply, next⟩ ⟨-, next'⟩ ⟨rfl, hnext⟩
    refine rel_bind (ih hnext) ?_
    rintro ⟨replies, last⟩ ⟨-, last'⟩ ⟨rfl, hlast⟩
    exact .some ⟨rfl, hlast⟩

/-- Over any channel, a capacity and its completer answer as a handoff does. -/
theorem replies_opened (o : Oneshot (CompletionResult ρ)) (acts : List (Act ρ)) :
    ((opened o).run acts).map Prod.fst = ((Handoff.pending : Handoff ρ).run acts).map Prod.fst :=
  eq_of_rel (rel_map (stands_opened.run acts) fun _ _ h => h.1)

end Ends

end Fleet
