import Fleet.Text.Digits

/-!
# Numerals that are read

A run of digits is read as the number that it denotes to the base ten, leading zeros or not
(`digits?_eq_some_iff`).  The numeral of a bounded word may have one `+` in front of its digits
and nothing else (`unsigned?_eq_some_iff`).
-/

namespace Fleet.Text

theorem digit?_eq_some_iff {c : Char} {d : Nat} :
    digit? c = some d ↔ c.isDigit = true ∧ c.toNat - '0'.toNat = d := by
  have hrange : c.isDigit = true ↔ '0' ≤ c ∧ c ≤ '9' := by
    simp only [Char.isDigit, ge_iff_le, Bool.and_eq_true, decide_eq_true_eq]
    exact Iff.rfl
  rw [hrange, digit?]
  by_cases hc : '0' ≤ c ∧ c ≤ '9'
  · simp [hc]
  · simp [hc]

theorem digitsAfter_eq_some_iff {cs : List Char} {n k : Nat} :
    digitsAfter n cs = some k ↔
      (∀ c ∈ cs, c.isDigit = true) ∧ Nat.ofDigitChars 10 cs n = k := by
  induction cs generalizing n with
  | nil => simp [digitsAfter, Nat.ofDigitChars]
  | cons c cs ih =>
    simp only [digitsAfter, Option.bind_eq_some_iff, digit?_eq_some_iff, ih,
      Nat.ofDigitChars_cons, List.forall_mem_cons]
    constructor
    · rintro ⟨_, ⟨hc, rfl⟩, hcs, hk⟩
      exact ⟨⟨hc, hcs⟩, hk⟩
    · rintro ⟨⟨hc, hcs⟩, hk⟩
      exact ⟨_, ⟨hc, rfl⟩, hcs, hk⟩

theorem digits?_eq_some_iff {cs : List Char} {n : Nat} :
    digits? cs = some n ↔
      cs ≠ [] ∧ (∀ c ∈ cs, c.isDigit = true) ∧ Nat.ofDigitChars 10 cs 0 = n := by
  cases cs with
  | nil => simp [digits?]
  | cons c cs => rw [digits?, digitsAfter_eq_some_iff, and_iff_right (List.cons_ne_nil c cs)]

/-- The sign that may stand in front of a numeral. -/
def sign : Bool → List Char
  | true => ['+']
  | false => []

theorem unsigned?_eq_some_iff {bound : Nat} {cs : List Char} {n : Nat} :
    unsigned? bound cs = some n ↔ ∃ plus ds, cs = sign plus ++ ds ∧ ds ≠ [] ∧
      (∀ c ∈ ds, c.isDigit = true) ∧ Nat.ofDigitChars 10 ds 0 = n ∧ n < bound := by
  have hread (ds : List Char) : (digits? ds).filter (· < bound) = some n ↔ ds ≠ [] ∧
      (∀ c ∈ ds, c.isDigit = true) ∧ Nat.ofDigitChars 10 ds 0 = n ∧ n < bound := by
    rw [Option.filter_eq_some_iff, digits?_eq_some_iff, decide_eq_true_iff]
    simp only [and_assoc]
  unfold unsigned?
  split
  · rename_i ds
    rw [hread]
    constructor
    · exact fun h => ⟨true, ds, rfl, h⟩
    · rintro ⟨plus, ds', hcs, h⟩
      cases plus with
      | true =>
        cases hcs
        exact h
      | false =>
        -- a plus is no digit
        obtain rfl : '+' :: ds = ds' := hcs
        exact absurd (h.2.1 '+' List.mem_cons_self) (by decide)
  · rename_i hplus
    rw [hread]
    constructor
    · exact fun h => ⟨false, cs, rfl, h⟩
    · rintro ⟨plus, ds, hcs, h⟩
      cases plus with
      | true => exact absurd hcs (hplus ds)
      | false =>
        obtain rfl : cs = ds := hcs
        exact h

/-! ## Numerals that are written -/

theorem digits?_toDigits (k : Nat) : digits? (Nat.toDigits 10 k) = some k :=
  digits?_eq_some_iff.2 ⟨Nat.toDigits_ne_nil,
    fun _ hc => Nat.isDigit_of_mem_toDigits (by decide) (by decide) hc,
    Nat.ofDigitChars_ten_toDigits⟩

theorem unsigned?_toDigits {bound k : Nat} (h : k < bound) :
    unsigned? bound (Nat.toDigits 10 k) = some k :=
  unsigned?_eq_some_iff.2 ⟨false, _, rfl, Nat.toDigits_ne_nil,
    fun _ hc => Nat.isDigit_of_mem_toDigits (by decide) (by decide) hc,
    Nat.ofDigitChars_ten_toDigits, h⟩

end Fleet.Text
