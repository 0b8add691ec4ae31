import Fleet.Config.Setup
import Mathlib

/-!
# Who is granted what

A table permits an actor a source if one of its entries or of the calls that were made on it grants
this, and each step of building it adds what it grants and takes nothing away (`permits_grantList`,
`permits_call`).  So what a table permits can be read off its configuration and the later calls,
whatever their order was (`permits_iff_granted`).  The guard of a configuration permits an actor
just what the configuration grants (`Config.permits_guard_iff`): everything if there are no grants
at all, else the sources that are listed for the actor, or any if `*` is listed.
-/

namespace Fleet

namespace GrantTable

/-! ## Calls -/

inductive Call where
  | grantAll (actor : String)
  | grant (actor source : String)
  deriving DecidableEq

/-- Whom a call concerns. -/
def Call.actor : Call → String
  | grantAll actor => actor
  | grant actor _ => actor

def call (t : GrantTable) : Call → GrantTable
  | .grantAll a => t.grantAll a
  | .grant a name => t.grant a name

/-- Calls in turn. -/
def play (t : GrantTable) (calls : List Call) : GrantTable := calls.foldl call t

/-- The guard of a configuration, gone through in this order, and of later calls. -/
def guardAfter (order : List (String × List String)) (calls : List Call) : Guard :=
  .ofTable ((ofConfig order).play calls)

/-! ## What a step of building a table adds -/

variable (t : GrantTable) (a : String) (actor : Actor) (source : SourceName)

theorem permits_grantAll :
    (t.grantAll a).permits actor source = true ↔
      actor.name = a ∨ t.permits actor source = true := by
  rw [permits, grantAll, SortedMap.get?_insert]
  by_cases ha : actor.name = a
  · rw [if_pos ha]
    exact iff_of_true rfl (.inl ha)
  · rw [if_neg ha, or_iff_right ha, permits]

theorem permits_grant (name : String) :
    (t.grant a name).permits actor source = true ↔
      actor.name = a ∧ source.text = name ∨ t.permits actor source = true := by
  unfold grant
  cases hg : t.grants.get? a with
  | none =>
    rw [permits, SortedMap.get?_insert]
    by_cases ha : actor.name = a
    · rw [if_pos ha, permits, ha, hg]
      simp
    · rw [if_neg ha, permits]
      simp [ha]
  | some g =>
    cases g with
    | all =>
      by_cases ha : actor.name = a
      · have hall : t.permits actor source = true := by
          rw [permits, ha, hg]
        exact iff_of_true hall (.inr hall)
      · simp [ha]
    | sources names =>
      rw [permits, SortedMap.get?_insert]
      by_cases ha : actor.name = a
      · rw [if_pos ha, permits, ha, hg]
        simp [or_comm]
      · rw [if_neg ha, permits]
        simp [ha]

theorem permits_call (c : Call) :
    (t.call c).permits actor source = true ↔
      (.grantAll actor.name = c ∨ .grant actor.name source.text = c) ∨
        t.permits actor source = true := by
  cases c with
  | grantAll a =>
    rw [call, permits_grantAll]
    simp
  | grant a name =>
    rw [call, permits_grant]
    simp

theorem permits_play (calls : List Call) :
    (t.play calls).permits actor source = true ↔
      (.grantAll actor.name ∈ calls ∨ .grant actor.name source.text ∈ calls) ∨
        t.permits actor source = true := by
  induction calls generalizing t with
  | nil => simp [play]
  | cons c calls ih =>
    rw [play, List.foldl_cons, ← play, ih, permits_call, List.mem_cons, List.mem_cons]
    tauto

theorem permits_grantList (names : List String) :
    (t.grantList a names).permits actor source = true ↔
      actor.name = a ∧ ("*" ∈ names ∨ source.text ∈ names) ∨ t.permits actor source = true := by
  unfold grantList
  by_cases hall : "*" ∈ names
  · rw [if_pos (List.contains_iff_mem.2 hall), permits_grantAll]
    simp [hall]
  · rw [if_neg (by simpa using hall)]
    simp only [hall, false_or]
    clear hall
    induction names generalizing t with
    | nil => simp
    | cons name names ih =>
      rw [List.foldl_cons, ih, permits_grant, List.mem_cons]
      tauto

theorem permits_ofConfig (config : List (String × List String)) :
    (ofConfig config).permits actor source = true ↔
      ∃ entry ∈ config, actor.name = entry.1 ∧ ("*" ∈ entry.2 ∨ source.text ∈ entry.2) := by
  have hfold (t : GrantTable) :
      (config.foldl (fun t entry => t.grantList entry.1 entry.2) t).permits actor source = true ↔
        (∃ entry ∈ config, actor.name = entry.1 ∧ ("*" ∈ entry.2 ∨ source.text ∈ entry.2)) ∨
          t.permits actor source = true := by
    induction config generalizing t with
    | nil => simp
    | cons entry config ih =>
      rw [List.foldl_cons, ih, permits_grantList, List.exists_mem_cons_iff, or_assoc]
      exact or_left_comm
  rw [ofConfig, hfold]
  exact or_iff_left Bool.false_ne_true

/-! ## A configuration and later calls -/

variable {actor source} {config config' : SortedMap String (List String)}
  {order order' : List (String × List String)} {calls calls' : List Call} {action : Action}

/-- In whatever order a configuration is gone through, an actor is permitted what is listed. -/
theorem permits_ofConfig_iff_listed (horder : order.Perm config.entries) :
    (ofConfig order).permits actor source = true ↔
      ∃ names, config.get? actor.name = some names ∧ ("*" ∈ names ∨ source.text ∈ names) := by
  rw [permits_ofConfig]
  constructor
  · rintro ⟨⟨a, names⟩, hentry, hactor, hnames⟩
    exact ⟨names, SortedMap.get?_eq_some_iff.2 (hactor ▸ horder.mem_iff.1 hentry), hnames⟩
  · rintro ⟨names, hget, hnames⟩
    exact ⟨(actor.name, names), horder.mem_iff.2 (SortedMap.get?_eq_some_iff.1 hget), rfl, hnames⟩

/-- What a guard permits whose table was made of a configuration and later calls. -/
theorem permits_guardAfter (horder : order.Perm config.entries) :
    (guardAfter order calls).permits actor action source = true ↔
      (∃ names, config.get? actor.name = some names ∧ ("*" ∈ names ∨ source.text ∈ names)) ∨
        .grantAll actor.name ∈ calls ∨ .grant actor.name source.text ∈ calls := by
  show ((ofConfig order).play calls).permits actor source = true ↔ _
  rw [permits_play, permits_ofConfig_iff_listed horder, or_comm]

/-- Guards permit an actor the same if their configurations list the same for the actor and the
same calls were made for it. -/
theorem permits_guardAfter_congr (horder : order.Perm config.entries)
    (horder' : order'.Perm config'.entries)
    (hget : config'.get? actor.name = config.get? actor.name)
    (hcalls : ∀ c : Call, c.actor = actor.name → (c ∈ calls' ↔ c ∈ calls)) :
    (guardAfter order' calls').permits actor = (guardAfter order calls).permits actor := by
  funext action source
  rw [Bool.eq_iff_iff, permits_guardAfter horder', permits_guardAfter horder, hget, hcalls _ rfl,
    hcalls _ rfl]

end GrantTable

open GrantTable in
/-- A guard whose table was made of a configuration, gone through in some order, and of later calls
permits what its entries and calls grant.  More calls only add to it, the order of entries and of
calls does not matter, and for an actor only what names this actor does. -/
theorem permits_iff_granted {config : SortedMap String (List String)}
    {order : List (String × List String)} (horder : order.Perm config.entries)
    (calls : List Call) :
    (∀ actor action source, (guardAfter order calls).permits actor action source = true ↔
      (∃ names, config.get? actor.name = some names ∧ ("*" ∈ names ∨ source.text ∈ names)) ∨
        .grantAll actor.name ∈ calls ∨ .grant actor.name source.text ∈ calls) ∧
    (∀ more actor action source, (guardAfter order calls).permits actor action source = true →
      (guardAfter order (calls ++ more)).permits actor action source = true) ∧
    (∀ order' calls', order'.Perm order → calls'.Perm calls →
      (guardAfter order' calls').permits = (guardAfter order calls).permits) ∧
    ∀ (actor : Actor) (config' : SortedMap String (List String)) (order' calls'),
      order'.Perm config'.entries → config'.get? actor.name = config.get? actor.name →
      calls'.filter (·.actor = actor.name) = calls.filter (·.actor = actor.name) →
        (guardAfter order' calls').permits actor = (guardAfter order calls).permits actor := by
  refine ⟨fun _ _ _ => permits_guardAfter horder, ?_, ?_, ?_⟩
  · intro more actor action source
    rw [permits_guardAfter horder, permits_guardAfter horder, List.mem_append, List.mem_append]
    exact Or.imp_right (Or.imp .inl .inl)
  · intro order' calls' horder' hcalls
    funext actor
    exact permits_guardAfter_congr horder (horder'.trans horder) rfl fun c _ => hcalls.mem_iff
  · intro actor config' order' calls' horder' hget hcalls
    refine permits_guardAfter_congr horder horder' hget fun c hc => ?_
    have hown (cs : List Call) : c ∈ cs.filter (·.actor = actor.name) ↔ c ∈ cs := by
      simp [hc]
    rw [← hown calls', hcalls, hown]

/-! ## Three actors with an entry and one without -/

namespace Granting

/-- All sources and one of them by name, one source twice, and no source. -/
def config : SortedMap String (List String) :=
  .ofList [("alice", ["*", "depot"]), ("bob", ["depot", "depot"]), ("carol", [])]

def order : List (String × List String) :=
  [("bob", ["depot", "depot"]), ("carol", []), ("alice", ["*", "depot"])]

/-- A full grant before a narrow one, and a grant to somebody new. -/
def calls : List GrantTable.Call :=
  [.grantAll "bob", .grant "bob" "annex", .grant "dave" "annex"]

def depot : SourceName := ⟨"depot", by decide⟩

def annex : SourceName := ⟨"annex", by decide⟩

end Granting

theorem permits_iff_granted_overlapping :
    Granting.order.Perm Granting.config.entries ∧
      let permits := (GrantTable.guardAfter Granting.order Granting.calls).permits
      permits ⟨"alice"⟩ .remove Granting.annex = true ∧
        permits ⟨"bob"⟩ .provision ⟨"yard", by decide⟩ = true ∧
        permits ⟨"carol"⟩ .provision Granting.depot = false ∧
        permits ⟨"dave"⟩ .remove Granting.annex = true ∧
        permits ⟨"dave"⟩ .remove Granting.depot = false := by
  have horder : Granting.order.Perm Granting.config.entries := by decide
  obtain ⟨hmeaning, -⟩ := permits_iff_granted horder Granting.calls
  have hcarol : Granting.config.get? "carol" = some [] := by decide
  have hdave : Granting.config.get? "dave" = none := by decide
  refine ⟨horder, (hmeaning _ _ _).2 (.inl ⟨["*", "depot"], by decide, by decide⟩),
    (hmeaning _ _ _).2 (.inr (by decide)), Bool.eq_false_iff.2 fun h => ?_,
    (hmeaning _ _ _).2 (.inr (by decide)), Bool.eq_false_iff.2 fun h => ?_⟩
  · rcases (hmeaning _ _ _).1 h with ⟨names, hget, hnames⟩ | hcalls
    · cases hcarol.symm.trans hget
      exact absurd hnames (by decide)
    · exact absurd hcalls (by decide)
  · rcases (hmeaning _ _ _).1 h with ⟨names, hget, -⟩ | hcalls
    · cases hdave.symm.trans hget
    · exact absurd hcalls (by decide)

/-- A configuration grants an actor a source: there are no grants, or those of the actor list the
source or all. -/
def Config.Grants (c : Config) (actor : Actor) (source : SourceName) : Prop :=
  ∀ grants, c.grants = some grants →
    ∃ names, grants.get? actor.name = some names ∧ ("*" ∈ names ∨ source.text ∈ names)

theorem Config.permits_guard_iff (c : Config) (actor : Actor) (action : Action)
    (source : SourceName) :
    c.guard.permits actor action source = true ↔ c.Grants actor source := by
  unfold guard Grants
  cases c.grants with
  | none => exact iff_of_true rfl nofun
  | some grants =>
    show (GrantTable.ofConfig grants.entries).permits actor source = true ↔ _
    rw [GrantTable.permits_ofConfig_iff_listed (.refl _)]
    exact ⟨fun h _ hgrants => Option.some.inj hgrants ▸ h, fun h => h grants rfl⟩

end Fleet
