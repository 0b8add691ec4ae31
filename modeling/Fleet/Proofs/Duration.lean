import Fleet.Duration
import Fleet.Proofs.Text.Numeral
import Mathlib.Data.List.DropRight
import Mathlib.Data.List.TakeWhile

/-!
# How a duration is spelt

A `Spelling` says what each character of a text is there for: blanks around, a sign, digits, and
the unit at the end.  The parts of a text that spells a duration can be told from it
(`Spelling.eq_of_text_eq`), since each of them ends where the next begins with a character that
it cannot have (`append_inj_of_head`).  What is read is what is spelt, nothing else is read, and
a text has one spelling (`parse?_iff_spelt`).
-/

namespace Fleet

/-- A list is split in one way only into characters with a property and what begins without. -/
theorem append_inj_of_head {p : Char → Bool} {xs ys xs' ys' : List Char}
    (hxs : ∀ c ∈ xs, p c = true) (hys : ∀ c ∈ ys.head?, p c = false)
    (hxs' : ∀ c ∈ xs', p c = true) (hys' : ∀ c ∈ ys'.head?, p c = false)
    (h : xs ++ ys = xs' ++ ys') : xs = xs' ∧ ys = ys' := by
  have hsplit {xs ys : List Char} (hxs : ∀ c ∈ xs, p c = true)
      (hys : ∀ c ∈ ys.head?, p c = false) : (xs ++ ys).takeWhile p = xs := by
    rw [List.takeWhile_append_of_pos hxs]
    cases ys with
    | nil => exact List.append_nil xs
    | cons c ys =>
      have hc : p c = false := hys c rfl
      rw [List.takeWhile_cons_of_neg (by rw [hc]; exact Bool.false_ne_true), List.append_nil]
  have heq : xs = xs' := by rw [← hsplit hxs hys, h, hsplit hxs' hys']
  subst heq
  exact ⟨rfl, List.append_cancel_left h⟩

namespace Text

/-! ## Blanks around -/

theorem trimLeft_append {before rest : List Char} (hbefore : ∀ c ∈ before, isBlank c = true)
    (hrest : ∀ c ∈ rest.head?, isBlank c = false) : trimLeft (before ++ rest) = rest := by
  rw [trimLeft, List.dropWhile_append_of_pos hbefore]
  cases rest with
  | nil => rfl
  | cons c rest =>
    have hc : isBlank c = false := hrest c rfl
    rw [List.dropWhile_cons_of_neg (by rw [hc]; exact Bool.false_ne_true)]

theorem trimRight_append {core after : List Char} (hafter : ∀ c ∈ after, isBlank c = true)
    (hcore : ∀ c ∈ core.getLast?, isBlank c = false) : trimRight (core ++ after) = core := by
  have hreverse : trimLeft (after.reverse ++ core.reverse) = core.reverse :=
    trimLeft_append (fun c hc => hafter c (List.mem_reverse.1 hc))
      (fun c hc => hcore c (by rwa [List.head?_reverse] at hc))
  rw [trimRight, List.reverse_append]
  exact (congrArg List.reverse hreverse).trans (List.reverse_reverse core)

/-- Nothing but blanks is trimmed. -/
theorem exists_trim (cs : List Char) : ∃ before after, (∀ c ∈ before, isBlank c = true) ∧
    (∀ c ∈ after, isBlank c = true) ∧ cs = before ++ (trim cs ++ after) := by
  refine ⟨cs.takeWhile isBlank, (trimLeft cs).rtakeWhile isBlank,
    fun c hc => List.mem_takeWhile_imp hc, fun c hc => List.mem_rtakeWhile_imp hc, ?_⟩
  have hright : trim cs ++ (trimLeft cs).rtakeWhile isBlank = trimLeft cs :=
    List.rdropWhile_append_rtakeWhile
  rw [hright]
  exact List.takeWhile_append_dropWhile.symm

end Text

namespace Duration

open Text

/-! ## Spellings -/

/-- How a text that spells a duration ends. -/
inductive Ending where
  | milliseconds
  | seconds
  | minutes
  | hours
  /-- Without a unit. -/
  | bare
  deriving DecidableEq

namespace Ending

def text : Ending → List Char
  | milliseconds => ['m', 's']
  | seconds => ['s']
  | minutes => ['m']
  | hours => ['h']
  | bare => []

/-- The milliseconds of one unit. -/
def millis : Ending → Nat
  | milliseconds => 1
  | seconds => 1000
  | minutes => 60 * 1000
  | hours => 3600 * 1000
  | bare => 1000

def scale : Ending → Scale
  | milliseconds => .milliseconds
  | seconds => .seconds
  | minutes => .minutes
  | hours => .hours
  | bare => .seconds

theorem millis_scale (e : Ending) : e.scale.millis = e.millis := by
  cases e <;> rfl

theorem text_injective : Function.Injective text := by
  intro e e' h
  cases e <;> cases e' <;> first | rfl | exact absurd h (by decide)

theorem plain_text (e : Ending) : ∀ c ∈ e.text, c.isDigit = false ∧ isBlank c = false := by
  have hall : e.text.all (fun c => !c.isDigit && !isBlank c) = true := by cases e <;> rfl
  simpa using hall

end Ending

/-- What the characters of a text that spells a duration are there for. -/
structure Spelling where
  before : List Char
  plus : Bool
  digits : List Char
  ending : Ending
  after : List Char

namespace Spelling

/-- The text without the blanks around it. -/
def core (x : Spelling) : List Char := sign x.plus ++ (x.digits ++ x.ending.text)

def text (x : Spelling) : List Char := x.before ++ (x.core ++ x.after)

/-- The number that the digits denote. -/
def number (x : Spelling) : Nat := Nat.ofDigitChars 10 x.digits 0

def duration (x : Spelling) : Duration := ⟨x.number * x.ending.millis⟩

/-- The parts are what they are called, and the number fits into a machine word. -/
structure Proper (x : Spelling) : Prop where
  before : ∀ c ∈ x.before, isBlank c = true
  after : ∀ c ∈ x.after, isBlank c = true
  digits : ∀ c ∈ x.digits, c.isDigit = true
  written : x.digits ≠ []
  word : x.number < wordLimit

variable {x y : Spelling}

theorem isBlank_of_isDigit {c : Char} (h : c.isDigit = true) : isBlank c = false := by
  have hcode : 48 ≤ c.toNat ∧ c.toNat ≤ 57 := by
    simp only [Char.isDigit, ge_iff_le, Bool.and_eq_true, decide_eq_true_eq,
      UInt32.le_iff_toNat_le] at h
    exact h
  simp only [isBlank, Bool.or_eq_false_iff, Bool.and_eq_false_iff, decide_eq_false_iff_not,
    beq_eq_false_iff_ne]
  omega

theorem Proper.exists_digit (h : x.Proper) : ∃ c cs, x.digits = c :: cs ∧ c.isDigit = true := by
  obtain ⟨c, cs, hcs⟩ := List.exists_cons_of_ne_nil h.written
  exact ⟨c, cs, hcs, h.digits c (hcs ▸ List.mem_cons_self)⟩

theorem Proper.exists_last_digit (h : x.Proper) :
    ∃ ds d, x.digits = ds ++ [d] ∧ d.isDigit = true := by
  obtain hnil | ⟨ds, d, hds⟩ := List.eq_nil_or_concat' x.digits
  · exact absurd hnil h.written
  · exact ⟨ds, d, hds, h.digits d (hds ▸ List.mem_append_right ds List.mem_cons_self)⟩

theorem Proper.head_core (h : x.Proper) (rest : List Char) :
    ∀ c ∈ (x.core ++ rest).head?, isBlank c = false := by
  obtain ⟨d, ds, hds, hd⟩ := h.exists_digit
  intro c hc
  rw [core, hds] at hc
  cases hplus : x.plus with
  | true =>
    rw [hplus] at hc
    cases hc
    decide
  | false =>
    rw [hplus] at hc
    cases hc
    exact isBlank_of_isDigit hd

theorem Proper.getLast_core (h : x.Proper) : ∀ c ∈ x.core.getLast?, isBlank c = false := by
  intro c hc
  rcases List.mem_append.1 (List.mem_of_mem_getLast? hc) with hsign | hrest
  · cases hplus : x.plus with
    | true =>
      rw [hplus] at hsign
      cases List.mem_singleton.1 hsign
      decide
    | false =>
      rw [hplus] at hsign
      cases hsign
  · rcases List.mem_append.1 hrest with hdigit | hletter
    · exact isBlank_of_isDigit (h.digits c hdigit)
    · exact (x.ending.plain_text c hletter).2

theorem Proper.trim_text (h : x.Proper) : trim x.text = x.core := by
  rw [trim, text, trimLeft_append h.before (h.head_core x.after),
    trimRight_append h.after h.getLast_core]

theorem Proper.head_ending (h : x.Proper) :
    ∀ c ∈ (x.ending.text ++ x.after).head?, c.isDigit = false := by
  intro c hc
  rcases List.mem_append.1 (List.mem_of_mem_head? hc) with hletter | hblank
  · exact (x.ending.plain_text c hletter).1
  · refine Bool.eq_false_iff.2 fun hdigit => ?_
    have hnot := isBlank_of_isDigit hdigit
    rw [h.after c hblank] at hnot
    cases hnot

theorem Proper.head_digits (h : x.Proper) :
    ∀ c ∈ (x.digits ++ (x.ending.text ++ x.after)).head?, (c == '+') = false := by
  obtain ⟨d, ds, hds, hd⟩ := h.exists_digit
  intro c hc
  rw [hds] at hc
  cases hc
  refine Bool.eq_false_iff.2 fun hplus => ?_
  rw [beq_iff_eq.1 hplus] at hd
  exact absurd hd (by decide)

/-- What each part of a text is there for can be told from the text. -/
theorem eq_of_text_eq (hx : x.Proper) (hy : y.Proper) (h : x.text = y.text) : x = y := by
  have hsign (plus : Bool) : ∀ c ∈ sign plus, (c == '+') = true :=
    List.all_eq_true.1 (by cases plus <;> rfl)
  have hletters (x : Spelling) : ∀ c ∈ x.ending.text, (!isBlank c) = true := fun c hc => by
    rw [(x.ending.plain_text c hc).2]
    rfl
  have hblanks {x : Spelling} (hx : x.Proper) : ∀ c ∈ x.after.head?, (!isBlank c) = false :=
    fun c hc => by
      rw [hx.after c (List.mem_of_mem_head? hc)]
      rfl
  obtain ⟨hbefore, hrest⟩ :=
    append_inj_of_head hx.before (hx.head_core _) hy.before (hy.head_core _) h
  simp only [core, List.append_assoc] at hrest
  obtain ⟨hplus, hrest⟩ :=
    append_inj_of_head (hsign _) hx.head_digits (hsign _) hy.head_digits hrest
  obtain ⟨hdigits, hrest⟩ :=
    append_inj_of_head hx.digits hx.head_ending hy.digits hy.head_ending hrest
  obtain ⟨hending, hafter⟩ :=
    append_inj_of_head (hletters x) (hblanks hx) (hletters y) (hblanks hy) hrest
  obtain ⟨before, plus, digits, ending, after⟩ := x
  obtain ⟨before', plus', digits', ending', after'⟩ := y
  simp only at hbefore hplus hdigits hending hafter
  obtain rfl : plus = plus' := by
    cases plus <;> cases plus' <;> first | rfl | exact absurd hplus (by decide)
  rw [hbefore, hdigits, Ending.text_injective hending, hafter]

end Spelling

/-! ## Reading -/

/-- The ending of a text whose number ends with a digit. -/
theorem splitScale_append (e : Ending) (number : List Char) {d : Char} (hd : d.isDigit = true) :
    splitScale (number ++ [d] ++ e.text) = (number ++ [d], e.scale) := by
  have hm : d ≠ 'm' := by rintro rfl; exact absurd hd (by decide)
  have hs : d ≠ 's' := by rintro rfl; exact absurd hd (by decide)
  have hh : d ≠ 'h' := by rintro rfl; exact absurd hd (by decide)
  cases e <;> simp [splitScale, Ending.text, Ending.scale, hm, hs, hh]

/-- Every text has some ending. -/
theorem exists_ending (cs : List Char) :
    ∃ e : Ending, cs = (splitScale cs).1 ++ e.text ∧ (splitScale cs).2 = e.scale := by
  unfold splitScale
  split
  · rename_i rest h
    exact ⟨.milliseconds, by simpa [Ending.text] using congrArg List.reverse h, rfl⟩
  · rename_i rest _ h
    exact ⟨.seconds, by simpa [Ending.text] using congrArg List.reverse h, rfl⟩
  · rename_i rest h
    exact ⟨.minutes, by simpa [Ending.text] using congrArg List.reverse h, rfl⟩
  · rename_i rest h
    exact ⟨.hours, by simpa [Ending.text] using congrArg List.reverse h, rfl⟩
  · exact ⟨.bare, (List.append_nil cs).symm, rfl⟩

/-- A text spells a duration in this way. -/
def Spelling.Spells (x : Spelling) (s : String) : Prop := x.Proper ∧ x.text = s.toList

theorem Spelling.Spells.parse? {x : Spelling} {s : String} (h : x.Spells s) :
    parse? s = some x.duration := by
  obtain ⟨hx, hs⟩ := h
  obtain ⟨ds, d, hds, hd⟩ := hx.exists_last_digit
  have hnumber : unsigned? wordLimit (sign x.plus ++ x.digits) = some x.number :=
    unsigned?_eq_some_iff.2 ⟨x.plus, x.digits, rfl, hx.written, hx.digits, rfl, hx.word⟩
  have hsplit : splitScale (trim s.toList) = (sign x.plus ++ x.digits, x.ending.scale) := by
    rw [← hs, hx.trim_text, Spelling.core, hds, ← List.append_assoc, ← List.append_assoc]
    exact splitScale_append x.ending (sign x.plus ++ ds) hd
  rw [Duration.parse?, hsplit]
  dsimp only
  rw [hnumber, Option.map_some, Ending.millis_scale]
  rfl

theorem exists_spelling {s : String} {d : Duration} (h : parse? s = some d) :
    ∃ x : Spelling, x.Spells s ∧ x.duration = d := by
  have hparse : parse? s = (unsigned? wordLimit (splitScale (trim s.toList)).1).map
      fun n => ⟨n * (splitScale (trim s.toList)).2.millis⟩ := rfl
  rw [hparse] at h
  obtain ⟨n, hnumber, rfl⟩ := Option.map_eq_some_iff.1 h
  obtain ⟨plus, ds, hsign, hne, hds, rfl, hword⟩ := unsigned?_eq_some_iff.1 hnumber
  obtain ⟨before, after, hbefore, hafter, hs⟩ := exists_trim s.toList
  obtain ⟨e, hcore, hscale⟩ := exists_ending (trim s.toList)
  rw [hsign, List.append_assoc] at hcore
  refine ⟨⟨before, plus, ds, e, after⟩, ⟨⟨hbefore, hafter, hds, hne, hword⟩, ?_⟩, ?_⟩
  · rw [hs, hcore]
    rfl
  · rw [hscale, Ending.millis_scale]
    rfl

/-- The text ends with `ms`, blanks apart, exactly if it spells milliseconds. -/
theorem Spelling.Proper.isSuffix_iff {x : Spelling} (h : x.Proper) :
    ['m', 's'] <:+ trim x.text ↔ x.ending = .milliseconds := by
  obtain ⟨ds, d, hds, hd⟩ := h.exists_last_digit
  have hm : d ≠ 'm' := by rintro rfl; exact absurd hd (by decide)
  have hs : d ≠ 's' := by rintro rfl; exact absurd hd (by decide)
  rw [h.trim_text, core, hds, ← List.reverse_prefix]
  cases x.ending <;> simp [Ending.text, hm, hs, eq_comm]

/-- A text is read as a duration exactly if it spells that duration, and it does so in one way
only: a text that ends with `ms` is never read as minutes or seconds. -/
theorem parse?_iff_spelt (s : String) (d : Duration) :
    (parse? s = some d ↔ ∃ x : Spelling, x.Spells s ∧ x.duration = d) ∧
      (∀ x y : Spelling, x.Spells s → y.Spells s → x = y) ∧
      ∀ x : Spelling, x.Spells s → trim s.toList = x.core ∧
        (['m', 's'] <:+ trim s.toList ↔ x.ending = .milliseconds) := by
  refine ⟨⟨exists_spelling, ?_⟩, ?_, ?_⟩
  · rintro ⟨x, hx, rfl⟩
    exact hx.parse?
  · intro x y hx hy
    exact Spelling.eq_of_text_eq hx.1 hy.1 (hx.2.trans hy.2.symm)
  · intro x hx
    rw [← hx.2]
    exact ⟨hx.1.trim_text, hx.1.isSuffix_iff⟩

/-- Blanks inside, a unit alone, two units, two signs and numbers that are too large. -/
example : ["5 s", "ms", "5sm", "++5", "-1", "18446744073709551616"].map parse? =
    List.replicate 6 none := by
  decide +kernel

/-- Blanks, a sign and leading zeros do not matter, and `ms` are not seconds. -/
theorem parse?_iff_spelt_padded :
    let x : Spelling := ⟨['\u2003'], true, ['0', '9', '0'], .milliseconds, ['\n']⟩
    let s := "\u2003+090ms\n"
    x.Spells s ∧ parse? s = some ⟨90⟩ ∧ ∀ y : Spelling, y.Spells s → y = x := by
  intro x s
  have hx : x.Spells s := by
    have hproper : x.Proper := ⟨List.all_eq_true.1 (by decide +kernel),
      List.all_eq_true.1 (by decide +kernel), List.all_eq_true.1 (by decide +kernel),
      by decide, by decide +kernel⟩
    exact ⟨hproper, by decide +kernel⟩
  obtain ⟨hread, hunique, -⟩ := parse?_iff_spelt s ⟨90⟩
  exact ⟨hx, hread.2 ⟨x, hx, by decide +kernel⟩, fun y hy => hunique y x hy hx⟩

end Duration

end Fleet
