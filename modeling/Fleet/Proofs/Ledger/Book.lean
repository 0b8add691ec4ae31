import Fleet.Proofs.Ledger
import Fleet.Proofs.Text.Bytes
import Mathlib

/-!
# The ledger as one map

A `Book` is one finite map from planned ids to promises, in which recording inserts under an id
that is absent and resolving removes.  The ledger answers every call as a book does and goes on
holding the promises of the book (`Ledger.Holds.call`, `Ledger.Holds.play`), and what it reports
are sums and counts over them (`Ledger.Holds.reports`).  A coherent ledger is determined by its
promises (`Ledger.Coherent.ext`), so calls on different ids commute as they do on a book
(`ledger_is_book`).
-/

namespace Fleet

open Promise (total)

/-- Promises by planned id: to which account, and of how many executors. -/
abbrev Book := Finmap fun _ : PlannedId => Account × Nat

/-- By the bytes of the source and then of the label, untagged first. -/
def Account.Precedes (a b : Account) : Prop :=
  Text.bytes a.source.text < Text.bytes b.source.text ∨
    a.source = b.source ∧ match a.label, b.label with
      | none, some _ => True
      | some k, some k' => Text.bytes k.text < Text.bytes k'.text
      | _, none => False

namespace Ledger

/-! ## Calls -/

inductive Call where
  | record (account : Account) (id : PlannedId) (executors : Nat)
  | resolve (id : PlannedId)

inductive Answer where
  | recorded
  /-- The executors that are no longer promised. -/
  | resolved (executors : Option Nat)
  deriving DecidableEq

namespace Call

def id : Call → PlannedId
  | record _ id _ => id
  | resolve id => id

/-- What a call makes of the promise under its id. -/
def effect : Call → Option (Account × Nat) → Option (Account × Nat)
  | record a _ n, v => v.or (some (a, n))
  | resolve _, _ => none

/-- What a call answers, by the promise under its id. -/
def answer : Call → Option (Account × Nat) → Answer
  | record _ _ _, _ => .recorded
  | resolve _, v => .resolved (v.map (·.2))

/-- Calls in turn, carried out by `step`: what they answer, and the state after them. -/
def play {S : Type} (step : S → Call → Answer × S) (s : S) : List Call → List Answer × S
  | [] => ([], s)
  | c :: cs => ((step s c).1 :: (play step (step s c).2 cs).1, (play step (step s c).2 cs).2)

end Call

def call (l : Ledger) : Call → Answer × Ledger
  | .record a id n => (.recorded, l.record a id n)
  | .resolve id => (.resolved (l.resolve id).1, (l.resolve id).2)

end Ledger

open Ledger (Call Answer)

namespace Book

/-- Recording inserts a promise if its id is absent, and resolving removes one. -/
def call (b : Book) : Call → Answer × Book
  | .record a id n => (.recorded, if id ∈ b then b else b.insert id (a, n))
  | .resolve id => (.resolved ((b.lookup id).map (·.2)), b.erase id)

/-- The promises one by one. -/
def promises (b : Book) : Multiset Promise := b.entries.map fun e => ⟨e.1, e.2.1, e.2.2⟩

/-- The promises to an account. -/
def ofAccount (b : Book) (a : Account) : Multiset Promise := b.promises.filter (·.account = a)

/-- The promises for a label, to any source. -/
def ofLabel (b : Book) (label : Option Label) : Multiset Promise :=
  b.promises.filter (·.account.label = label)

theorem fst_call (b : Book) (c : Call) : (b.call c).1 = c.answer (b.lookup c.id) := by
  cases c <;> rfl

/-- A call looks at the promise under its id, and changes that alone. -/
theorem lookup_call (b : Book) (c : Call) (id : PlannedId) :
    (b.call c).2.lookup id = if id = c.id then c.effect (b.lookup id) else b.lookup id := by
  by_cases hid : id = c.id
  · subst hid
    rw [if_pos rfl]
    cases c with
    | record a id n =>
      by_cases hb : id ∈ b
      · obtain ⟨v, hv⟩ := Finmap.mem_iff.1 hb
        simp [call, Call.id, Call.effect, hb, hv]
      · have hv := Finmap.lookup_eq_none.2 hb
        simp [call, Call.id, Call.effect, hb, hv]
    | resolve id => exact Finmap.lookup_erase id b
  · rw [if_neg hid]
    cases c with
    | record a id' n =>
      have hne : id ≠ id' := hid
      by_cases hb : id' ∈ b
      · simp [call, hb]
      · simpa [call, hb] using Finmap.lookup_insert_of_ne b hne
    | resolve id' => exact Finmap.lookup_erase_ne hid

theorem call_comm (b : Book) {c d : Call} (h : c.id ≠ d.id) :
    ((b.call c).2.call d).2 = ((b.call d).2.call c).2 := by
  refine Finmap.ext_lookup fun id => ?_
  simp only [lookup_call]
  by_cases hc : id = c.id
  · have hd : id ≠ d.id := hc ▸ h
    simp [hc, h]
  · simp [hc]

theorem answer_after (b : Book) {c d : Call} (h : c.id ≠ d.id) :
    ((b.call d).2.call c).1 = (b.call c).1 := by
  rw [fst_call, fst_call, lookup_call, if_neg h]

theorem mem_promises {b : Book} {p : Promise} :
    p ∈ b.promises ↔ b.lookup p.id = some (p.account, p.executors) := by
  obtain ⟨id, a, n⟩ := p
  rw [promises, Multiset.mem_map, Finmap.lookup_eq_some_iff]
  constructor
  · rintro ⟨⟨id', a', n'⟩, hmem, he⟩
    cases he
    exact hmem
  · exact fun hmem => ⟨_, hmem, rfl⟩

theorem nodup_promises (b : Book) : b.promises.Nodup := by
  refine b.nodup_entries.map fun e d he => ?_
  obtain ⟨id, a, n⟩ := e
  obtain ⟨id', a', n'⟩ := d
  cases he
  rfl

end Book

/-! ## Ledgers that hold the promises of a book -/

namespace Ledger

/-- The promises of the ledger are those of the book. -/
structure Holds (l : Ledger) (b : Book) : Prop where
  coherent : l.Coherent
  promise_iff : ∀ p, p ∈ l.flat ↔ b.lookup p.id = some (p.account, p.executors)

theorem holds_empty : empty.Holds ∅ where
  coherent := coherent_empty
  promise_iff p := by simp [empty, flat, SortedMap.empty]

/-- A coherent ledger is determined by its promises. -/
theorem Coherent.ext {l l' : Ledger} (h : l.Coherent) (h' : l'.Coherent)
    (hflat : ∀ p, p ∈ l.flat ↔ p ∈ l'.flat) : l = l' := by
  have hgroup {l l' : Ledger} (h : l.Coherent) (hflat : ∀ p, p ∈ l.flat ↔ p ∈ l'.flat)
      {a : Account} {g : Promises} (hg : l.promises.get? a = some g) :
      ∃ g', l'.promises.get? a = some g' := by
    obtain ⟨id, n, hn⟩ := SortedMap.isEmpty_eq_false_iff.1 (h.inhabited a g hg)
    obtain ⟨g', hg', -⟩ := mem_flat.1 ((hflat ⟨id, a, n⟩).1 (mem_flat.2 ⟨g, hg, hn⟩))
    exact ⟨g', hg'⟩
  have hpromises : l.promises = l'.promises := by
    refine SortedMap.ext_get? fun a => ?_
    cases hg : l.promises.get? a with
    | none =>
      cases hg' : l'.promises.get? a with
      | none => rfl
      | some g' =>
        obtain ⟨g, hsome⟩ := hgroup h' (fun p => (hflat p).symm) hg'
        rw [hg] at hsome
        cases hsome
    | some g =>
      obtain ⟨g', hg'⟩ := hgroup h hflat hg
      have hsame : g = g' := by
        refine SortedMap.ext_get? fun id => Option.ext fun n => ?_
        have hmem := hflat ⟨id, a, n⟩
        simpa only [mem_flat, hg, hg', Option.some.injEq, exists_eq_left'] using hmem
      rw [hg', hsame]
  have hindex : l.index = l'.index := by
    refine SortedMap.ext_get? fun id => Option.ext fun a => ?_
    rw [h.index_iff, h'.index_iff]
    exact exists_congr fun n => hflat ⟨id, a, n⟩
  obtain ⟨promises, index⟩ := l
  cases hpromises
  cases hindex
  rfl

theorem Coherent.fst_resolve {l : Ledger} (h : l.Coherent) {id : PlannedId} {n : Nat} :
    (l.resolve id).1 = some n ↔ ∃ a, ⟨id, a, n⟩ ∈ l.flat := by
  cases hx : l.index.get? id with
  | none =>
    have hno : ¬ ∃ a, ⟨id, a, n⟩ ∈ l.flat := by
      rintro ⟨a, ha⟩
      rw [(h.index_iff id a).2 ⟨n, ha⟩] at hx
      cases hx
    simp [Ledger.resolve, hx, hno]
  | some a =>
    obtain ⟨m, hm⟩ := (h.index_iff id a).1 hx
    obtain ⟨g, hg, hv⟩ := mem_flat.1 hm
    simp only at hg hv
    simp only [Ledger.resolve, hx, hg, hv, Option.some.injEq]
    constructor
    · rintro rfl
      exact ⟨a, hm⟩
    · rintro ⟨a', ha'⟩
      exact congrArg Promise.executors (h.eq_of_mem hm ha' rfl)

namespace Holds

variable {l : Ledger} {b : Book}

theorem contains_iff (h : l.Holds b) {id : PlannedId} : l.contains id = true ↔ id ∈ b := by
  rw [h.coherent.contains_iff, Finmap.mem_iff]
  constructor
  · rintro ⟨p, hp, rfl⟩
    exact ⟨_, (h.promise_iff p).1 hp⟩
  · rintro ⟨⟨a, n⟩, hv⟩
    exact ⟨⟨id, a, n⟩, (h.promise_iff _).2 hv, rfl⟩

theorem record (h : l.Holds b) (a : Account) (id : PlannedId) (n : Nat) :
    (l.record a id n).Holds (b.call (.record a id n)).2 := by
  cases hid : l.contains id with
  | true =>
    have hb := h.contains_iff.1 hid
    rw [Ledger.record, if_pos hid, Book.call, if_pos hb]
    exact h
  | false =>
    refine ⟨h.coherent.record hid a n, fun p => ?_⟩
    have habsent : b.lookup id = none := Finmap.lookup_eq_none.2 fun hb => by
      rw [h.contains_iff.2 hb] at hid
      cases hid
    rw [h.coherent.mem_flat_record hid, h.promise_iff, Book.lookup_call]
    obtain ⟨i, a', n'⟩ := p
    by_cases hi : i = id
    · subst hi
      simp [Call.id, Call.effect, habsent, eq_comm]
    · simp [Call.id, hi]

theorem resolve (h : l.Holds b) (id : PlannedId) :
    (l.resolve id).2.Holds (b.call (.resolve id)).2 := by
  refine ⟨h.coherent.resolve id, fun p => ?_⟩
  rw [h.coherent.mem_flat_resolve, h.promise_iff, Book.lookup_call]
  by_cases hi : p.id = id
  · simp [Call.id, Call.effect, hi]
  · simp [Call.id, hi]

/-- Every call is answered as the book answers it. -/
theorem call (h : l.Holds b) (c : Call) :
    (l.call c).1 = (b.call c).1 ∧ (l.call c).2.Holds (b.call c).2 := by
  cases c with
  | record a id n => exact ⟨rfl, h.record a id n⟩
  | resolve id =>
    refine ⟨congrArg Answer.resolved (Option.ext fun n => ?_), h.resolve id⟩
    rw [h.coherent.fst_resolve, Option.map_eq_some_iff]
    constructor
    · rintro ⟨a, ha⟩
      exact ⟨(a, n), (h.promise_iff _).1 ha, rfl⟩
    · rintro ⟨⟨a, n'⟩, hv, rfl⟩
      exact ⟨a, (h.promise_iff _).2 hv⟩

theorem play (h : l.Holds b) (cs : List Call) :
    (Call.play Ledger.call l cs).1 = (Call.play Book.call b cs).1 ∧
      (Call.play Ledger.call l cs).2.Holds (Call.play Book.call b cs).2 := by
  induction cs generalizing l b with
  | nil => exact ⟨rfl, h⟩
  | cons c cs ih =>
    obtain ⟨hanswer, hafter⟩ := h.call c
    obtain ⟨hanswers, hlast⟩ := ih hafter
    exact ⟨congrArg₂ List.cons hanswer hanswers, hlast⟩

/-- Ledgers that hold the promises of one book are one ledger. -/
theorem unique {l' : Ledger} (h : l.Holds b) (h' : l'.Holds b) : l = l' :=
  h.coherent.ext h'.coherent fun p => by rw [h.promise_iff, h'.promise_iff]

theorem call_comm (h : l.Holds b) {c d : Call} (hid : c.id ≠ d.id) :
    ((l.call d).2.call c).1 = (l.call c).1 ∧
      ((l.call c).2.call d).2 = ((l.call d).2.call c).2 := by
  have hc := h.call c
  have hd := h.call d
  have hcd := hc.2.call d
  have hdc := hd.2.call c
  refine ⟨?_, ?_⟩
  · rw [hdc.1, hc.1, Book.answer_after b hid]
  · refine hcd.2.unique ?_
    rw [Book.call_comm b hid]
    exact hdc.2

/-! ## Reports -/

theorem promises_eq (h : l.Holds b) : b.promises = (l.flat : Multiset Promise) :=
  (Multiset.Nodup.ext b.nodup_promises (Multiset.coe_nodup.2 l.nodup_flat)).2 fun p => by
    rw [Book.mem_promises, Multiset.mem_coe, h.promise_iff]

end Holds

/-- As many ids are tracked as there are promises. -/
theorem Coherent.outstanding_eq {l : Ledger} (h : l.Coherent) : l.outstanding = l.flat.length := by
  have hperm : l.index.entries.Perm (l.flat.map fun p => (p.id, p.account)) := by
    refine (List.perm_ext_iff_of_nodup l.index.nodup_entries
      (l.nodup_flat.map_on fun p hp q hq he => ?_)).2 fun e => ?_
    · exact h.eq_of_mem hp hq (congrArg Prod.fst he)
    · obtain ⟨id, a⟩ := e
      rw [← SortedMap.get?_eq_some_iff, h.index_iff, List.mem_map]
      constructor
      · rintro ⟨n, hn⟩
        exact ⟨_, hn, rfl⟩
      · rintro ⟨p, hp, he⟩
        cases he
        exact ⟨p.executors, hp⟩
  rw [outstanding, SortedMap.size, hperm.length_eq, List.length_map]

end Ledger

namespace Promise

/-- A promise adds to the sum of its own account only. -/
theorem total_ofAccount_cons (source : SourceName) (label : Option Label) (p : Promise)
    (ps : List Promise) :
    total (ofAccount ⟨source, label⟩ (p :: ps)) =
      (if p.account.source = source then
        if p.account.label = label then p.executors else 0 else 0) +
      total (ofAccount ⟨source, label⟩ ps) := by
  have haccount : p.account = ⟨source, label⟩ ↔
      p.account.source = source ∧ p.account.label = label := by
    rw [Account.mk.injEq]
  rw [ofAccount, List.filter_cons]
  by_cases hsource : p.account.source = source
  · by_cases hlabel : p.account.label = label
    · simp [haccount, hsource, hlabel, ofAccount, total_cons]
    · simp [haccount, hlabel, ofAccount]
  · simp [haccount, hsource, ofAccount]

theorem total_ofLabel_finset (label : Option Label) {ps : List Promise} {S : Finset SourceName}
    (hS : ∀ p ∈ ps, p.account.source ∈ S) :
    total (ps.filter (·.account.label = label)) =
      ∑ source ∈ S, total (ofAccount ⟨source, label⟩ ps) := by
  induction ps with
  | nil => simp [ofAccount, total]
  | cons p ps ih =>
    have hp := hS p List.mem_cons_self
    have hps := ih fun q hq => hS q (List.mem_cons_of_mem p hq)
    simp only [total_ofAccount_cons, Finset.sum_add_distrib, Finset.sum_ite_eq, if_pos hp, ← hps]
    by_cases hlabel : p.account.label = label
    · simp [hlabel, total_cons]
    · simp [hlabel]

/-- The sum over all sources of what each promises for a label. -/
theorem total_ofLabel (label : Option Label) (ps : List Promise) :
    total (ps.filter (·.account.label = label)) =
      ∑ᶠ source, total (ofAccount ⟨source, label⟩ ps) := by
  have hsupport : (Function.support fun source => total (ofAccount ⟨source, label⟩ ps)) ⊆
      ((ps.map (·.account.source)).toFinset : Set SourceName) := by
    intro source hsource
    obtain ⟨p, hp⟩ := List.exists_mem_of_ne_nil (ofAccount ⟨source, label⟩ ps) fun hnil =>
      hsource (congrArg total hnil)
    obtain ⟨hmem, haccount⟩ := List.mem_filter.1 hp
    refine Finset.mem_coe.2 (List.mem_toFinset.2 (List.mem_map.2 ⟨p, hmem, ?_⟩))
    rw [of_decide_eq_true haccount]
  rw [finsum_eq_sum_of_support_subset _ hsupport]
  exact total_ofLabel_finset label fun p hp => List.mem_toFinset.2 (List.mem_map.2 ⟨p, hp, rfl⟩)

end Promise

namespace Ledger

/-- What the ledger reports of the promises of a book. -/
structure Reports (l : Ledger) (b : Book) : Prop where
  contains : ∀ id, l.contains id = true ↔ id ∈ b
  outstanding : l.outstanding = b.promises.card
  promised : ∀ a, l.promised a = ((b.ofAccount a).map (·.executors)).sum
  promisedForLabel : ∀ label, l.promisedForLabel label = ((b.ofLabel label).map (·.executors)).sum
  allSources : ∀ label, l.promisedForLabel label = ∑ᶠ source, l.promised ⟨source, label⟩
  ascending : l.entries.Pairwise fun e d => e.account.Precedes d.account
  /-- Each account with a promise is listed, once and with its sum and count. -/
  entry_iff : ∀ e, e ∈ l.entries ↔ b.ofAccount e.account ≠ 0 ∧
    e.promised = ((b.ofAccount e.account).map (·.executors)).sum ∧
    e.outstanding = (b.ofAccount e.account).card

theorem precedes_of_before {α : Type} {e d : Account × α} (h : Before e d) :
    e.1.Precedes d.1 := by
  obtain ⟨⟨source, label⟩, x⟩ := e
  obtain ⟨⟨source', label'⟩, y⟩ := d
  rcases Ordering.then_eq_lt.1 h with hsource | ⟨hsource, hlabel⟩
  · exact .inl (Text.bytes_lt_of_compare hsource)
  · refine .inr ⟨Std.LawfulEqOrd.eq_of_compare hsource, ?_⟩
    exact Label.precedes_of_compare hlabel

theorem entries_ascending (l : Ledger) :
    l.entries.Pairwise fun e d => e.account.Precedes d.account := by
  rw [entries, List.pairwise_map]
  exact l.promises.ascending.imp precedes_of_before

theorem Coherent.mem_entries {l : Ledger} (h : l.Coherent) {e : LedgerEntry} :
    e ∈ l.entries ↔ Promise.ofAccount e.account l.flat ≠ [] ∧
      e.promised = total (Promise.ofAccount e.account l.flat) ∧
      e.outstanding = (Promise.ofAccount e.account l.flat).length := by
  obtain ⟨a, n, k⟩ := e
  have htally : (⟨a, n, k⟩ : LedgerEntry) ∈ l.entries ↔ (tally l.flat).get? a = some (n, k) := by
    rw [h.entries_eq_tally (.refl _), List.mem_map, SortedMap.get?_eq_some_iff]
    constructor
    · rintro ⟨⟨a', n', k'⟩, hmem, he⟩
      cases he
      exact hmem
    · exact fun hmem => ⟨_, hmem, rfl⟩
  rw [htally, get?_tally]
  by_cases hnil : Promise.ofAccount a l.flat = []
  · simp [hnil]
  · simp [hnil, eq_comm]

theorem Holds.reports {l : Ledger} {b : Book} (h : l.Holds b) : l.Reports b := by
  have haccount (a : Account) :
      b.ofAccount a = (Promise.ofAccount a l.flat : Multiset Promise) := by
    rw [Book.ofAccount, h.promises_eq, Multiset.filter_coe, Promise.ofAccount]
  have hlabel (label : Option Label) : b.ofLabel label =
      (l.flat.filter (·.account.label = label) : Multiset Promise) := by
    rw [Book.ofLabel, h.promises_eq, Multiset.filter_coe]
  have hsum (ps : List Promise) :
      ((ps : Multiset Promise).map (·.executors)).sum = total ps := by
    rw [Multiset.map_coe, Multiset.sum_coe, total]
  constructor
  case contains => exact fun _ => h.contains_iff
  case outstanding => rw [h.coherent.outstanding_eq, h.promises_eq, Multiset.coe_card]
  case promised => exact fun a => by rw [haccount, hsum, promised_eq]
  case promisedForLabel => exact fun label => by rw [hlabel, hsum, promisedForLabel_eq]
  case allSources =>
    intro label
    simp only [promisedForLabel_eq, promised_eq]
    exact Promise.total_ofLabel label l.flat
  case ascending => exact l.entries_ascending
  case entry_iff =>
    intro e
    rw [h.coherent.mem_entries, haccount, hsum, Multiset.coe_card, ne_eq, ne_eq,
      Multiset.coe_eq_zero]

end Ledger

/-- A ledger does as one map does: every sequence of calls on an empty ledger, with ids, sources
and labels as they may be, is answered as the map answers it; the ledger reports the sums and
counts of what the map then holds; and calls on different ids commute. -/
theorem ledger_is_book (calls : List Call) :
    let run := Call.play Ledger.call .empty calls
    let book := Call.play Book.call ∅ calls
    run.1 = book.1 ∧ run.2.Reports book.2 ∧
      ∀ c d : Call, c.id ≠ d.id →
        ((run.2.call d).2.call c).1 = (run.2.call c).1 ∧
        ((run.2.call c).2.call d).2 = ((run.2.call d).2.call c).2 := by
  intro run book
  obtain ⟨hanswers, hholds⟩ := Ledger.holds_empty.play calls
  exact ⟨hanswers, hholds.reports, fun c d hid => hholds.call_comm hid⟩

/-- A promise that is recorded again, for another source, is resolved once and as it was first. -/
theorem ledger_is_book_once :
    let north : Account := ⟨⟨"north", by decide +kernel⟩, none⟩
    let south : Account := ⟨⟨"south", by decide +kernel⟩, none⟩
    let run := Call.play Ledger.call .empty
      [.record north 1 2, .record south 1 5, .resolve 1, .resolve 1]
    run.1 = [.recorded, .recorded, .resolved (some 2), .resolved none] ∧
      ((run.2.call (.record south 1 5)).2.call (.record north 2 3)).2 =
        ((run.2.call (.record north 2 3)).2.call (.record south 1 5)).2 := by
  intro north south run
  obtain ⟨hanswers, -, hcomm⟩ :=
    ledger_is_book [.record north 1 2, .record south 1 5, .resolve 1, .resolve 1]
  refine ⟨hanswers.trans ?_, (hcomm (.record south 1 5) (.record north 2 3) (by decide)).2⟩
  simp [Call.play, Book.call, Finmap.notMem_empty]

end Fleet
