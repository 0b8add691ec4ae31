import Fleet.Proofs.Planned.Channel

/-!
# A handoff resolves once

What a whole run of acts comes to.  Polls read nothing until the completer is used, its result
once, and nothing more from then on (`polls_of_use`); a node that is delivered comes out of a poll,
or back from the completer, or else nobody polled for it before the capacity was dropped
(`NodeFate`).
-/

namespace Fleet

namespace Handoff

variable {ρ : Type} {past acts : List (Act ρ)} {a : Act ρ} {result : CompletionResult ρ}

/-! ## What comes out of a run -/

def Reply.poll? : Reply ρ → Option (Poll ρ)
  | .seen p => some p
  | _ => none

def Reply.handedBack? : Reply ρ → Option (RealizedNode ρ)
  | .settled (.returned (.ok node)) => some node
  | _ => none

/-- What the polls read, in turn. -/
def polls (replies : List (Reply ρ)) : List (Poll ρ) := replies.filterMap (·.poll?)

def node? : Poll ρ → Option (RealizedNode ρ)
  | .ready (.ok node) => some node
  | _ => none

/-- The nodes that come out of polls. -/
def received (replies : List (Reply ρ)) : List (RealizedNode ρ) := (polls replies).filterMap node?

/-- The nodes that the completer gets back. -/
def handedBack (replies : List (Reply ρ)) : List (RealizedNode ρ) :=
  replies.filterMap (·.handedBack?)

def pollCount (acts : List (Act ρ)) : Nat := acts.countP (·.isPoll)

/-- What so many polls read once the result is there. -/
def readings (result : CompletionResult ρ) : Nat → List (Poll ρ)
  | 0 => []
  | n + 1 => .ready result :: .replicate n .spent

/-! ## Runs in parts -/

theorem possible_append (past acts acts' : List (Act ρ)) :
    possible past (acts ++ acts') = (possible past acts && possible (past ++ acts) acts') := by
  induction acts generalizing past with
  | nil => simp [possible]
  | cons a acts ih => simp [possible, ih, Bool.and_assoc]

theorem answers_append (past acts acts' : List (Act ρ)) :
    answers past (acts ++ acts') = answers past acts ++ answers (past ++ acts) acts' := by
  induction acts generalizing past with
  | nil => simp [answers]
  | cons a acts ih => simp [answers, ih]

theorem length_answers (past acts : List (Act ρ)) : (answers past acts).length = acts.length := by
  induction acts generalizing past with
  | nil => rfl
  | cons a acts ih => simp [answers, ih]

/-- Each act is answered as the acts before it tell. -/
theorem getElem?_answers (before : List (Act ρ)) (a : Act ρ) (rest : List (Act ρ)) :
    (answers [] (before ++ a :: rest))[before.length]? = some (answer before a) := by
  rw [answers_append, List.nil_append, answers,
    List.getElem?_append_right (Nat.le_of_eq (length_answers _ _)), length_answers, Nat.sub_self]
  rfl

/-- Each act of a run still has its end, and the run goes on from there. -/
theorem free_of_possible {before rest : List (Act ρ)}
    (h : possible [] (before ++ a :: rest) = true) :
    free before a = true ∧ possible (before ++ [a]) rest = true := by
  rw [possible_append, Bool.and_eq_true, List.nil_append] at h
  exact Bool.and_eq_true_iff.1 h.2

theorem unused_of_possible {before rest : List (Act ρ)}
    (h : possible [] (before ++ a :: rest) = true) (ha : a.use? = some result) :
    used before = false := by
  have hfree := (free_of_possible h).1
  cases a <;> first | simpa [free] using hfree | cases ha

theorem use?_of_used (h : used past = false) : ∀ a ∈ past, a.use? = none := by
  simpa [used] using h

/-- A completer that is used up is not used again. -/
theorem use?_of_possible (h : used past = true) (hacts : possible past acts = true) :
    ∀ a ∈ acts, a.use? = none := by
  induction acts generalizing past with
  | nil => nofun
  | cons a acts ih =>
    obtain ⟨hfree, hrest⟩ := Bool.and_eq_true_iff.1 hacts
    have hnone : a.use? = none := by
      cases a <;> first | rfl | simp [free, h] at hfree
    have hused : used (past ++ [a]) = true := by rw [used_concat, h, Bool.true_or]
    exact List.forall_mem_cons.2 ⟨hnone, ih hused hrest⟩

/-- Nobody polls or drops a capacity that has been dropped. -/
theorem still_of_possible (h : dropped past = true) (hacts : possible past acts = true) :
    ∀ a ∈ acts, a.isPoll = false ∧ a.isDrop = false := by
  induction acts generalizing past with
  | nil => nofun
  | cons a acts ih =>
    obtain ⟨hfree, hrest⟩ := Bool.and_eq_true_iff.1 hacts
    have hstill : a.isPoll = false ∧ a.isDrop = false := by
      cases a <;> first | exact ⟨rfl, rfl⟩ | simp [free, h] at hfree
    have hdropped : dropped (past ++ [a]) = true := by rw [dropped_concat, h, Bool.true_or]
    exact List.forall_mem_cons.2 ⟨hstill, ih hdropped hrest⟩

/-! ## Polls -/

theorem pollCount_cons (a : Act ρ) (acts : List (Act ρ)) :
    pollCount (a :: acts) = pollCount acts + if a.isPoll then 1 else 0 :=
  List.countP_cons

theorem polls_cons (past : List (Act ρ)) (a : Act ρ) (acts : List (Act ρ)) :
    polls (answers past (a :: acts)) =
      (if a.isPoll then [reading past] else []) ++ polls (answers (past ++ [a]) acts) := by
  cases a <;> rfl

/-- After the result has been read, polls read that it has. -/
theorem polls_of_spent (h : reading past = .spent) (acts : List (Act ρ)) :
    polls (answers past acts) = .replicate (pollCount acts) .spent := by
  induction acts generalizing past with
  | nil => rfl
  | cons a acts ih =>
    have hnext : reading (past ++ [a]) = .spent := by rw [reading_concat, h]
    rw [polls_cons, h, ih hnext, pollCount_cons]
    cases a.isPoll <;> simp [List.replicate_succ]

/-- A result that is there is read once. -/
theorem polls_of_ready (h : reading past = .ready result) (acts : List (Act ρ)) :
    polls (answers past acts) = readings result (pollCount acts) := by
  induction acts generalizing past with
  | nil => rfl
  | cons a acts ih =>
    have hnext := reading_concat past a
    rw [h] at hnext
    rw [polls_cons, h, pollCount_cons]
    cases hpoll : a.isPoll with
    | false =>
      rw [hpoll] at hnext
      exact ih hnext
    | true =>
      rw [hpoll] at hnext
      rw [polls_of_spent hnext]
      rfl

/-- Before the completer is used nothing is read. -/
theorem polls_of_unused (h : used past = false) (hacts : ∀ a ∈ acts, a.use? = none) :
    polls (answers past acts) = .replicate (pollCount acts) .pending := by
  induction acts generalizing past with
  | nil => rfl
  | cons a acts ih =>
    obtain ⟨ha, hrest⟩ := List.forall_mem_cons.1 hacts
    have hnext : used (past ++ [a]) = false := by rw [used_concat, h, ha]; rfl
    rw [polls_cons, reading_of_unused h, ih hnext hrest, pollCount_cons]
    cases a.isPoll <;> simp [List.replicate_succ]

/-- After the completer is used, its result is there until somebody polls. -/
theorem reading_of_use {before rest : List (Act ρ)} (h : used before = false)
    (ha : a.use? = some result) :
    reading (before ++ a :: rest) = if pollCount rest = 0 then .ready result else .spent := by
  induction before with
  | nil =>
    have hiff : rest.any (·.isPoll) = false ↔ pollCount rest = 0 := by simp [pollCount]
    rw [List.nil_append, reading, ha]
    cases hany : rest.any (·.isPoll) with
    | false => rw [if_pos (hiff.1 hany)]; rfl
    | true => rw [if_neg fun hnone => Bool.false_ne_true ((hiff.2 hnone).symm.trans hany)]; rfl
  | cons b before ih =>
    obtain ⟨hb, hbefore⟩ := Bool.or_eq_false_iff.1 h
    have hnone : b.use? = none := by simpa using hb
    rw [List.cons_append, reading, hnone]
    exact ih hbefore

/-- All polls of a run in which the completer is used. -/
theorem polls_of_use {before rest : List (Act ρ)} (h : used before = false)
    (ha : a.use? = some result) :
    polls (answers [] (before ++ a :: rest)) =
      .replicate (pollCount before) .pending ++ readings result (pollCount rest) := by
  have hready : reading (before ++ [a]) = .ready result := reading_of_use h ha
  have hpoll : a.isPoll = false := by
    cases a <;> first | rfl | cases ha
  rw [answers_append, polls, List.filterMap_append, ← polls, ← polls,
    polls_of_unused rfl (use?_of_used h), List.nil_append, polls_cons, hpoll,
    polls_of_ready hready]
  rfl

/-! ## Nodes -/

theorem filterMap_readings (node : RealizedNode ρ) (n : Nat) :
    (readings (.ok node) n).filterMap node? = if n = 0 then [] else [node] := by
  cases n with
  | zero => rfl
  | succ n => simp [readings, node?, List.filterMap_replicate]

theorem received_cons (past : List (Act ρ)) (a : Act ρ) (acts : List (Act ρ)) :
    received (answers past (a :: acts)) =
      (if a.isPoll then (node? (reading past)).toList else []) ++
        received (answers (past ++ [a]) acts) := by
  rw [received, polls_cons, List.filterMap_append, ← received]
  cases a.isPoll with
  | false => rfl
  | true => cases hnode : node? (reading past) <;> simp [hnode]

/-- No node is read where none is delivered. -/
theorem received_of_no_node (hread : node? (reading past) = none)
    (h : ∀ node, Act.complete node ∉ acts) : received (answers past acts) = [] := by
  induction acts generalizing past with
  | nil => rfl
  | cons a acts ih =>
    have hnext : node? (reading (past ++ [a])) = none := by
      rw [reading_concat]
      cases hr : reading past with
      | pending =>
        cases a with
        | complete node => exact absurd List.mem_cons_self (h node)
        | fail | abandon | ask | poll | drop => rfl
      | ready result =>
        rw [hr] at hread
        cases a.isPoll <;> first | rfl | exact hread
      | spent => rfl
    rw [received_cons, hread, ih hnext fun node hmem => h node (.tail _ hmem)]
    cases a.isPoll <;> rfl

/-- Nothing comes back where no node is delivered. -/
theorem handedBack_of_no_node (h : ∀ node, Act.complete node ∉ acts) :
    handedBack (answers past acts) = [] := by
  induction acts generalizing past with
  | nil => rfl
  | cons a acts ih =>
    have hrest : handedBack (answers (past ++ [a]) acts) = [] :=
      ih fun node hmem => h node (.tail _ hmem)
    cases a with
    | complete node => exact absurd List.mem_cons_self (h node)
    | fail error =>
      cases hd : dropped past <;>
      · rw [answers, answer, hd]
        exact hrest
    | abandon | ask | poll | drop => exact hrest

/-- What becomes of a node that is delivered after `before` and ahead of `rest`. -/
inductive NodeFate (node : RealizedNode ρ) (before rest : List (Act ρ))
    (replies : List (Reply ρ)) (last : Handoff ρ) : Prop
  | received (hdrop : dropped before = false) (hpoll : pollCount rest ≠ 0)
    (hreceived : received replies = [node]) (hback : handedBack replies = [])
  | handedBack (hdrop : dropped before = true) (hreceived : received replies = [])
    (hback : handedBack replies = [node])
  /-- The capacity was dropped before anybody polled for the node. -/
  | lost (hdrop : dropped before = false) (hpoll : pollCount rest = 0)
    (hlost : dropped rest = true) (hreceived : received replies = [])
    (hback : handedBack replies = [])
  /-- The node is there for whoever polls next. -/
  | unread (hdrop : dropped before = false) (hpoll : pollCount rest = 0)
    (hthere : last.capacity = some (.unread (.ok node))) (hreceived : received replies = [])
    (hback : handedBack replies = [])

/-- A node that is delivered comes out of a poll, or back, or nobody has polled for it. -/
theorem nodeFate (node : RealizedNode ρ) (before rest : List (Act ρ))
    (h : possible [] (before ++ .complete node :: rest) = true) :
    NodeFate node before rest (answers [] (before ++ .complete node :: rest))
      (after (before ++ .complete node :: rest)) := by
  have hused := unused_of_possible h rfl
  have hpossible := (free_of_possible h).2
  have hrest := use?_of_possible (by rw [used_concat, hused]; rfl) hpossible
  have hreceived : received (answers [] (before ++ .complete node :: rest)) =
      if pollCount rest = 0 then [] else [node] := by
    rw [received, polls_of_use hused rfl, List.filterMap_append, filterMap_readings]
    simp [node?, List.filterMap_replicate]
  have hback : handedBack (answers [] (before ++ .complete node :: rest)) =
      if dropped before then [node] else [] := by
    have hnone {acts : List (Act ρ)} (hacts : ∀ a ∈ acts, a.use? = none) (node : RealizedNode ρ) :
        Act.complete node ∉ acts := fun hmem => Option.some_ne_none _ (hacts _ hmem)
    rw [answers_append, handedBack, List.filterMap_append, ← handedBack, ← handedBack,
      handedBack_of_no_node (hnone (use?_of_used hused)), List.nil_append, List.nil_append, answers,
      answer]
    cases hdrop : dropped before with
    | true => exact congrArg (node :: ·) (handedBack_of_no_node (hnone hrest))
    | false => exact handedBack_of_no_node (hnone hrest)
  cases hdrop : dropped before with
  | true =>
    have hpoll : pollCount rest = 0 := by
      refine List.countP_eq_zero.2 fun a ha => ?_
      have hstill := still_of_possible (by rw [dropped_concat, hdrop, Bool.true_or]) hpossible a ha
      rw [hstill.1]
      exact Bool.false_ne_true
    exact .handedBack hdrop (by rw [hreceived, if_pos hpoll]) (by rw [hback, hdrop]; rfl)
  | false =>
    rw [hdrop] at hback
    by_cases hpoll : pollCount rest = 0
    · rw [if_pos hpoll] at hreceived
      cases hlost : dropped rest with
      | true => exact .lost hdrop hpoll hlost hreceived hback
      | false =>
        have hkept : dropped (before ++ .complete node :: rest) = false := by
          rw [dropped, List.any_append, ← dropped, hdrop, List.any_cons, ← dropped, hlost]
          rfl
        refine .unread hdrop hpoll ?_ hreceived hback
        rw [after, hkept, reading_of_use hused rfl, if_pos hpoll]
        rfl
    · rw [if_neg hpoll] at hreceived
      exact .received hdrop hpoll hreceived hback

/-! ## Whole runs -/

/-- What acts come to, given their answers and where the handoff stands in the end. -/
structure Outcome (acts : List (Act ρ)) (replies : List (Reply ρ)) (last : Handoff ρ) : Prop where
  length : replies.length = acts.length
  /-- Until the completer is used polls read nothing. -/
  unused : used acts = false → polls replies = .replicate (pollCount acts) .pending
  /-- Polls before the use of the completer read nothing, the first one after it the result, and
  the others that it has been read. -/
  used {before rest : List (Act ρ)} {a : Act ρ} {result : CompletionResult ρ} :
    acts = before ++ a :: rest → a.use? = some result →
    polls replies = .replicate (pollCount before) .pending ++ readings result (pollCount rest)
  completed {before rest : List (Act ρ)} {node : RealizedNode ρ} :
    acts = before ++ .complete node :: rest → replies[before.length]? =
      some (.settled (if dropped before then .returned (.ok node) else .accepted))
  failed {before rest : List (Act ρ)} {error : CompletionError} :
    acts = before ++ .fail error :: rest → replies[before.length]? =
      some (.settled (if dropped before then .returned (.error error) else .accepted))
  asked {before rest : List (Act ρ)} :
    acts = before ++ .ask :: rest → replies[before.length]? = some (.closed (dropped before))
  fate {before rest : List (Act ρ)} {node : RealizedNode ρ} :
    acts = before ++ .complete node :: rest → NodeFate node before rest replies last
  /-- No node comes out of a run that none is put in. -/
  nodeless : (∀ node, Act.complete node ∉ acts) → received replies = [] ∧ handedBack replies = []

theorem outcome_of_possible (acts : List (Act ρ)) (h : possible [] acts = true) :
    Outcome acts (answers [] acts) (after acts) where
  length := length_answers [] acts
  unused hused := polls_of_unused rfl (use?_of_used hused)
  used := by
    rintro before rest a result rfl ha
    exact polls_of_use (unused_of_possible h ha) ha
  completed := by
    rintro before rest node rfl
    exact getElem?_answers before _ rest
  failed := by
    rintro before rest error rfl
    exact getElem?_answers before _ rest
  asked := by
    rintro before rest rfl
    exact getElem?_answers before _ rest
  fate := by
    rintro before rest node rfl
    exact nodeFate node before rest h
  nodeless hnone := ⟨received_of_no_node rfl hnone, handedBack_of_no_node hnone⟩

/-- A handoff resolves once, whatever the order of the acts of both sides is, and over whatever
channel.  Creating it resolved is to use its completer at once. -/
theorem resolves_once (o : Oneshot (CompletionResult ρ)) (acts : List (Act ρ)) :
    (possible [] acts = true → ∃ replies last,
      (pending : Handoff ρ).run acts = some (replies, last) ∧ Outcome acts replies last) ∧
    (possible [] acts = false → (pending : Handoff ρ).run acts = none) ∧
    ((Ends.opened o).run acts).map Prod.fst = ((pending : Handoff ρ).run acts).map Prod.fst ∧
    (∀ node : RealizedNode ρ,
      pending.act (.complete node) = some (.settled .accepted, resolved (.ok node))) ∧
    ∀ error, (pending : Handoff ρ).act (.fail error) =
      some (.settled .accepted, resolved (.error error)) := by
  have hrun := run_after [] acts
  rw [after_nil, List.nil_append] at hrun
  refine ⟨fun h => ?_, fun h => ?_, Ends.replies_opened o acts, fun _ => rfl, fun _ => rfl⟩
  · exact ⟨_, _, hrun.trans (if_pos h), outcome_of_possible acts h⟩
  · exact hrun.trans (if_neg (by rw [h]; exact Bool.false_ne_true))

/-- A node that is delivered between two polls, and a capacity that is dropped later on. -/
theorem resolves_once_read :
    let node : RealizedNode Unit := ⟨default, .always, none⟩
    let acts : List (Act Unit) := [.poll, .complete node, .poll, .poll, .drop]
    possible [] acts = true ∧ ∃ replies last, pending.run acts = some (replies, last) ∧
      polls replies = [.pending, .ready (.ok node), .spent] ∧
      ((Ends.opened (.plain _)).run acts).map Prod.fst = some replies := by
  intro node acts
  have hpossible : possible [] acts = true := by decide
  obtain ⟨hrun, -, hchannel, -⟩ := resolves_once (.plain _) acts
  obtain ⟨replies, last, hlast, houtcome⟩ := hrun hpossible
  refine ⟨hpossible, replies, last, hlast, ?_, ?_⟩
  · have hparts : acts = [.poll] ++ .complete node :: [.poll, .poll, .drop] := rfl
    exact houtcome.used hparts rfl
  · rw [hchannel, hlast]
    rfl

end Handoff

end Fleet
