import Fleet.Api.Handlers
import Fleet.Proofs.Provisioner.Run

/-!
# The ledger is the group-by of what is in flight

`Provisioner.Mirrors` says what the ledger shows of the capacity in flight, account by account
and id by id; it holds wherever a run may lead.  What the interface answers for the ledger
can therefore be computed from what it answers for the planned capacity alone
(`ledger_mirrors_outstanding`).
-/

namespace Fleet

/-- The group-by of promises as a ledger lists it. -/
def tallied (ps : List Promise) : List LedgerEntry :=
  (tally ps).entries.map fun e => ⟨e.1, e.2.1, e.2.2⟩

namespace Provisioner

variable {σ R ρ : Type} [CapacitySource σ ρ]

/-- The capacity in flight that is promised to an account. -/
def inFlight (p : Provisioner σ) (a : Account) : List (Outstanding ρ) :=
  p.outstanding.filter (·.account = a)

/-- The ledger shows the capacity in flight, no more and no less. -/
structure Mirrors (p : Provisioner σ) : Prop where
  promised : ∀ a, p.ledger.promised a = ((p.inFlight a).map (·.planned.promised)).sum
  entries : p.ledger.entries = tallied (p.outstanding.map Outstanding.promise)
  listed : ∀ e ∈ p.ledger.entries,
    e.promised = ((p.inFlight e.account).map (·.planned.promised)).sum ∧
      e.outstanding = (p.inFlight e.account).length
  absent : ∀ a, p.inFlight a = [] → ∀ e ∈ p.ledger.entries, e.account ≠ a
  present : ∀ a, p.inFlight a ≠ [] → ∃ e ∈ p.ledger.entries, e.account = a
  tracked : ∀ id, p.ledger.contains id = true ↔ ∃ o ∈ p.outstanding, o.planned.id = id
  apart : ∀ o ∈ p.outstanding, ∀ a ∈ p.abandoned, o.planned.id ≠ a.planned

theorem ofAccount_promises (p : Provisioner σ) (a : Account) :
    Promise.ofAccount a (p.outstanding.map Outstanding.promise) =
      (p.inFlight a).map Outstanding.promise := by
  rw [Promise.ofAccount, List.filter_map]
  rfl

theorem total_inFlight (p : Provisioner σ) (a : Account) :
    Promise.total ((p.inFlight a).map Outstanding.promise) =
      ((p.inFlight a).map (·.planned.promised)).sum := by
  rw [Promise.total, List.map_map]
  rfl

/-- An account is listed if and only if it has promises, with their sum and their number. -/
theorem mem_tallied {ps : List Promise} {e : LedgerEntry} :
    e ∈ tallied ps ↔ Promise.ofAccount e.account ps ≠ [] ∧
      e.promised = Promise.total (Promise.ofAccount e.account ps) ∧
        e.outstanding = (Promise.ofAccount e.account ps).length := by
  obtain ⟨a, n, k⟩ := e
  have hmem : (⟨a, n, k⟩ : LedgerEntry) ∈ tallied ps ↔ (tally ps).get? a = some (n, k) := by
    rw [SortedMap.get?_eq_some_iff, tallied, List.mem_map]
    constructor
    · rintro ⟨⟨b, m⟩, hb, he⟩
      cases he
      exact hb
    · exact fun h => ⟨_, h, rfl⟩
  rw [hmem, get?_tally]
  split
  · rename_i hnil
    simp [hnil]
  · rename_i hne
    simp [hne, eq_comm]

theorem Sound.mirrors {p : Provisioner σ} (h : p.Sound) : p.Mirrors := by
  have hentries : p.ledger.entries = tallied (p.outstanding.map Outstanding.promise) :=
    h.tracks.coherent.entries_eq_tally h.tracks.flat
  have hmem (e : LedgerEntry) : e ∈ p.ledger.entries ↔ p.inFlight e.account ≠ [] ∧
      e.promised = ((p.inFlight e.account).map (·.planned.promised)).sum ∧
        e.outstanding = (p.inFlight e.account).length := by
    rw [hentries, mem_tallied, ofAccount_promises, total_inFlight, List.length_map, ne_eq,
      List.map_eq_nil_iff]
  constructor
  case promised =>
    intro a
    rw [Ledger.promised_eq, ← total_inFlight, ← ofAccount_promises]
    exact Promise.total_perm (h.tracks.flat.filter _)
  case entries => exact hentries
  case listed => exact fun e he => ((hmem e).1 he).2
  case absent =>
    rintro a ha e he rfl
    exact ((hmem e).1 he).1 ha
  case present =>
    intro a ha
    exact ⟨⟨a, ((p.inFlight a).map (·.planned.promised)).sum, (p.inFlight a).length⟩,
      (hmem _).2 ⟨ha, rfl, rfl⟩, rfl⟩
  case tracked => exact fun id => h.tracks.contains_iff
  case apart =>
    intro o ho a ha
    exact (List.nodup_append.1 h.distinct).2.2 _ (List.mem_map_of_mem ho) _
      (List.mem_map_of_mem ha)

end Provisioner

/-! ## The interface -/

namespace Api

/-- What a successful response carries. -/
def Response.data? (r : Response) : Option Json := do (← r.body).member? "data"

/-- The promise that an entry of the list of planned capacity stands for. -/
def promise? (v : Json) : Option Promise := do
  let source ← (SourceName.ofString (← (← v.member? "source").text?)).toOption
  let label ← (Label.ofOption (← (← v.member? "label").optional? Json.text?)).toOption
  pure ⟨← (← v.member? "planned").number?, ⟨source, label⟩,
    ← (← v.member? "promised_executors").number?⟩

/-- The ledger as it follows from the list of planned capacity. -/
def groupPlanned? (planned : Response) : Option Response := do
  let promises ← (← (← planned.data?).items?).mapM promise?
  pure (.ok (.array ((tallied promises).map (·.toJson))))

theorem promise?_toJson {ρ : Type} (now : Time) (o : Outstanding ρ) :
    promise? (o.toJson now) = some o.promise := by
  have hlabel : (Event.labelJson o.account.label).optional? Json.text? =
      some (o.account.label.map (·.text)) := by
    cases o.account.label <;> rfl
  have hofLabel : Label.ofOption (o.account.label.map (·.text)) = .ok o.account.label := by
    cases hl : o.account.label with
    | none => rfl
    | some l =>
      simp [Label.ofOption, Label.ofString_eq_ok_iff.2 (rfl : l.text = l.text), Except.map]
  simp [promise?, Outstanding.toJson, Json.member?, Json.text?, Json.number?, hlabel, hofLabel,
    SourceName.ofString_eq_ok_iff.2 (rfl : o.account.source.text = _), Except.toOption,
    Outstanding.promise]

end Api

open Api Provisioner

variable {σ R ρ : Type} [CapacitySource σ ρ] [NodeRegistry R ρ]

/-- Wherever a run leads, the ledger mirrors the capacity in flight, and so do the answers of
the interface. -/
theorem ledger_mirrors_outstanding (sources : SourceSet σ) (guard : Guard)
    (timeout : Option Duration) (nextId : PlannedId) (acts : List (Act σ R)) (d : Daemon σ R)
    (now : Time) :
    ((start sources guard timeout nextId).run acts).2.Mirrors ∧
      let d := { d with loop := ((start sources guard timeout nextId).run acts).2 }
      groupPlanned? (listPlanned now d).1 = some (getLedger d).1 := by
  have h := ((sound_start sources guard timeout nextId).run acts).mirrors
  refine ⟨h, ?_⟩
  have hread (os : List (Outstanding ρ)) :
      (os.map (·.toJson now)).mapM promise? = some (os.map Outstanding.promise) := by
    induction os with
    | nil => rfl
    | cons o os ih => simp [promise?_toJson, ih]
  simp [groupPlanned?, listPlanned, getLedger, Response.data?, Response.ok, Response.success,
    Json.member?, Json.items?, hread, h.entries]

end Fleet
