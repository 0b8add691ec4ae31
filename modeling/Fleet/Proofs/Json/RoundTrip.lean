import Fleet.Json.Reader
import Fleet.Proofs.Text.Numeral
import Mathlib

/-!
# Reading back what was written

A value that is written and followed by the end of the text, a comma or a closing bracket
(`Closing`) is read back as it was: `Recovers` says so of a reader and a value.  Texts come
back whatever characters they hold, since every escape stands for the character it was made
from (`readChars_writeChar`); numbers come back since no digit follows them.  A record
recovers an object if each of its fields recovers the member of its name (`recovers_record`).
-/

namespace Fleet

namespace Json

open Text

/-! ## What follows a value -/

/-- What may follow a value inside a record: nothing, a comma or a closing bracket. -/
def Closing : List Char → Prop
  | [] => True
  | c :: _ => c = ',' ∨ c = ']' ∨ c = '\x7d'

/-- A value that was written is read back, and no more than it. -/
def Recovers (read : List Char → Except Fault (Json × List Char)) (v : Json) : Prop :=
  ∀ rest, Closing rest → read (v.write ++ rest) = .ok (v, rest)

/-! ## Texts -/

theorem hex4_control : ∀ n < 0x20, hex4 n = ['0', '0', Nat.digitChar (n / 16),
    Nat.digitChar (n % 16)] := by
  decide

theorem hexDigit?_digitChar : ∀ d < 16, hexDigit? (Nat.digitChar d) = some d := by
  decide

theorem readUnit_control {n : Nat} (h : n < 0x20) (rest : List Char) :
    readUnit (hex4 n ++ rest) = .ok (n, rest) := by
  have hsize : ∀ d < 16, (Nat.digitChar d).utf8Size = 1 := by decide
  have hlow : n / 16 < 16 := by omega
  have hhigh : n % 16 < 16 := by omega
  have hzero : hexDigit? '0' = some 0 := by decide
  have hsum : ((0 * 16 + 0) * 16 + n / 16) * 16 + n % 16 = n := by omega
  have hone : ('0' : Char).utf8Size = 1 := by decide
  rw [hex4_control n h]
  simp only [readUnit, List.cons_append, List.nil_append, List.take_succ_cons, List.take_zero,
    List.map_cons, List.map_nil, List.foldr_cons, List.foldr_nil, hsize _ hlow, hsize _ hhigh,
    hone, hzero, hexDigit?_digitChar _ hlow, hexDigit?_digitChar _ hhigh, hsum]
  rfl

theorem readEscape_control {c : Char} (h : c.toNat < 0x20) (rest : List Char) :
    readEscape ('u' :: (hex4 c.toNat ++ rest)) = .ok (c, rest) := by
  have hlow : ¬(0xDC00 ≤ c.toNat ∧ c.toNat ≤ 0xDFFF) := by omega
  have hhigh : ¬(0xD800 ≤ c.toNat ∧ c.toNat ≤ 0xDBFF) := by omega
  simp only [readEscape, readUnit_control h, bind, Except.bind, if_neg hlow, if_neg hhigh,
    Char.ofNat_toNat]

/-- One character more has been read. -/
def prepend (c : Char) (p : List Char × List Char) : List Char × List Char := (c :: p.1, p.2)

theorem readChars_escape {c : Char} {cs rest : List Char}
    (h : readEscape cs = .ok (c, rest)) (fuel : Nat) :
    readChars (fuel + 1) ('\\' :: cs) = (readChars fuel rest).map (prepend c) := by
  rw [readChars, h]
  simp only [bind, Except.bind]
  cases readChars fuel rest <;> rfl

theorem readChars_plain {c : Char} (hquote : c ≠ '"') (hslash : c ≠ '\\')
    (hprints : ¬c.toNat < 0x20) (fuel : Nat) (rest : List Char) :
    readChars (fuel + 1) (c :: rest) = (readChars fuel rest).map (prepend c) := by
  rw [readChars.eq_def]
  split
  · contradiction
  · contradiction
  · simp_all
  · simp_all
  · rename_i hfuel hchars
    cases hfuel
    cases hchars
    rw [if_neg hprints]
    simp only [bind, Except.bind]
    cases readChars fuel rest <;> rfl

/-- However a character is written, it is read as what it was. -/
theorem readChars_writeChar (c : Char) (fuel : Nat) (rest : List Char) :
    readChars (fuel + 1) (writeChar c ++ rest) = (readChars fuel rest).map (prepend c) := by
  unfold writeChar
  split
  · exact readChars_escape rfl fuel
  · exact readChars_escape rfl fuel
  · exact readChars_escape rfl fuel
  · exact readChars_escape rfl fuel
  · exact readChars_escape rfl fuel
  · exact readChars_escape rfl fuel
  · exact readChars_escape rfl fuel
  · rename_i hquote hslash _ _ _ _ _
    split
    · rename_i hcontrol
      exact readChars_escape (readEscape_control hcontrol rest) fuel
    · rename_i hprints
      exact readChars_plain hquote hslash hprints fuel rest

theorem length_writeChar_pos (c : Char) : 1 ≤ (writeChar c).length := by
  unfold writeChar
  split
  all_goals first
    | exact Nat.le_of_ble_eq_true rfl
    | split <;> simp

theorem length_le_flatMap_writeChar (cs : List Char) :
    cs.length ≤ (cs.flatMap writeChar).length := by
  induction cs with
  | nil => exact Nat.le_refl 0
  | cons c cs ih =>
    have hc := length_writeChar_pos c
    rw [List.flatMap_cons, List.length_append, List.length_cons]
    omega

theorem readChars_flatMap_writeChar (cs rest : List Char) {fuel : Nat} (h : cs.length < fuel) :
    readChars fuel (cs.flatMap writeChar ++ '"' :: rest) = .ok (cs, rest) := by
  induction cs generalizing fuel with
  | nil =>
    obtain ⟨fuel, rfl⟩ := Nat.exists_eq_succ_of_ne_zero (Nat.ne_of_gt h)
    rfl
  | cons c cs ih =>
    obtain ⟨fuel, rfl⟩ := Nat.exists_eq_succ_of_ne_zero (Nat.ne_of_gt (Nat.zero_lt_of_lt h))
    rw [List.flatMap_cons, List.append_assoc, readChars_writeChar,
      ih (Nat.lt_of_succ_lt_succ h)]
    rfl

theorem readText_writeText (s : String) (rest : List Char) :
    readText (s.toList.flatMap writeChar ++ '"' :: rest) = .ok (s, rest) := by
  have hlength := length_le_flatMap_writeChar s.toList
  have hfuel : s.toList.length <
      (s.toList.flatMap writeChar ++ '"' :: rest).length + 1 := by
    rw [List.length_append, List.length_cons]
    omega
  rw [readText, readChars_flatMap_writeChar _ _ hfuel]
  exact congrArg (fun t => Except.ok (t, rest)) String.ofList_toList

/-! ## Numbers -/

theorem isDigit_of_mem_toDigits {n : Nat} {c : Char} (h : c ∈ Nat.toDigits 10 n) :
    isDigit c = true := by
  have hc : c.isDigit = true := Nat.isDigit_of_mem_toDigits (by decide) (by decide) h
  simp only [Char.isDigit, ge_iff_le, Bool.and_eq_true, decide_eq_true_eq] at hc
  simp only [isDigit, Bool.and_eq_true, decide_eq_true_eq]
  exact hc

theorem isDigit_closing {c : Char} {cs : List Char} (h : Closing (c :: cs)) :
    isDigit c = false := by
  rcases h with rfl | rfl | rfl <;> decide

theorem digitsValue_toDigits (n : Nat) : digitsValue (Nat.toDigits 10 n) = n := by
  rw [digitsValue, digits?_toDigits]
  rfl

theorem head?_toDigits {n : Nat} (h : 0 < n) : (Nat.toDigits 10 n).head? ≠ some '0' := by
  induction n using Nat.strongRecOn with
  | ind n ih =>
    by_cases hn : n < 10
    · rw [Nat.toDigits_of_lt_base hn, List.head?_cons]
      intro he
      have hzero := Nat.digitChar_eq_zero.1 (Option.some.inj he)
      omega
    · rw [Nat.toDigits_of_base_le (by decide) (by omega), List.head?_append]
      have hq := ih (n / 10) (by omega) (by omega)
      cases hd : Nat.toDigits 10 (n / 10) with
      | nil => exact absurd hd Nat.toDigits_ne_nil
      | cons c cs =>
        rw [hd] at hq
        exact hq

theorem no_leading_zero (n : Nat) :
    ¬((Nat.toDigits 10 n).length > 1 ∧ (Nat.toDigits 10 n).head? = some '0') := by
  rintro ⟨hlength, hhead⟩
  cases n with
  | zero =>
    rw [Nat.toDigits_zero] at hlength
    exact absurd hlength (by decide)
  | succ n => exact head?_toDigits (Nat.succ_pos n) hhead

theorem readDigits_toDigits (atEnd : Fault) (n : Nat) {rest : List Char} (h : Closing rest) :
    readDigits atEnd (Nat.toDigits 10 n ++ rest) = .ok (Nat.toDigits 10 n, rest) := by
  have hdigits : ∀ c ∈ Nat.toDigits 10 n, isDigit c = true := fun _ hc => isDigit_of_mem_toDigits hc
  have htake : rest.takeWhile isDigit = [] := by
    cases rest with
    | nil => rfl
    | cons c cs => rw [List.takeWhile_cons, isDigit_closing h, if_neg Bool.false_ne_true]
  have hdrop : rest.dropWhile isDigit = rest := by
    cases rest with
    | nil => rfl
    | cons c cs => rw [List.dropWhile_cons, isDigit_closing h, if_neg Bool.false_ne_true]
  have hsome : (Nat.toDigits 10 n).isEmpty = false :=
    List.isEmpty_eq_false_iff.2 Nat.toDigits_ne_nil
  simp only [readDigits]
  rw [List.takeWhile_append_of_pos hdigits, List.dropWhile_append_of_pos hdigits, htake, hdrop,
    List.append_nil, hsome, if_neg Bool.false_ne_true]

theorem readFraction_closing (atEnd : Fault) {rest : List Char} (h : Closing rest) :
    readFraction atEnd rest = .ok ([], rest) := by
  unfold readFraction
  split
  · rcases h with h | h | h <;> exact absurd h (by decide)
  · rfl

theorem readExponent_closing (atEnd : Fault) {rest : List Char} (h : Closing rest) :
    readExponent atEnd rest = .ok (none, rest) := by
  unfold readExponent
  split
  · rcases h with h | h | h <;> exact absurd h (by decide)
  · rcases h with h | h | h <;> exact absurd h (by decide)
  · rfl

/-- Twenty digits are far from the largest double. -/
theorem not_overflows {n : Nat} (h : n < 10 ^ 20) :
    (⟨n, 0⟩ : Decimal.Numeral).overflows = false := by
  have hwidth : Decimal.width n ≤ 20 :=
    (Nat.length_toDigits_le_iff (by decide) (by decide)).2 h
  have hmagnitude : (⟨n, 0⟩ : Decimal.Numeral).magnitude < 300 := by
    show (Decimal.width n : Int) + 0 < 300
    omega
  rw [Decimal.Numeral.overflows, decide_eq_true hmagnitude, Bool.or_true, if_pos rfl]

theorem readNumber_toDigits {n : Nat} (hn : n < 10 ^ 20) {rest : List Char}
    (h : Closing rest) :
    readNumber (Nat.toDigits 10 n ++ rest) = .ok (⟨⟨n, 0⟩, true⟩, rest) := by
  have hvalue : digitsValue (Nat.toDigits 10 n ++ []) = n := by
    rw [List.append_nil, digitsValue_toDigits]
  have hnumeral : readNumeral .truncated (Nat.toDigits 10 n ++ rest) =
      .ok (⟨⟨n, 0⟩, true⟩, rest) := by
    simp only [readNumeral, readDigits_toDigits _ n h, readFraction_closing _ h,
      readExponent_closing _ h, bind, Except.bind, if_neg (no_leading_zero n), hvalue]
    rfl
  simp only [readNumber, hnumeral, bind, Except.bind, not_overflows hn, if_neg Bool.false_ne_true]

/-! ## Single values -/

/-- A value's text starts with this character, which is no blank. -/
def OpensWith (v : Json) (c : Char) : Prop := isSpace c = false ∧ ∃ cs, v.write = c :: cs

theorem OpensWith.skipSpace {v : Json} {c : Char} (h : v.OpensWith c) (rest : List Char) :
    skipSpace (v.write ++ rest) = v.write ++ rest := by
  obtain ⟨hc, cs, he⟩ := h
  rw [he, Json.skipSpace, List.cons_append, List.dropWhile_cons, hc, if_neg Bool.false_ne_true]

theorem opensWith_text (s : String) : (text s).OpensWith '"' := ⟨rfl, _, rfl⟩

theorem opensWith_number (n : Nat) : ∃ c, isDigit c = true ∧ (number n).OpensWith c := by
  cases hd : Nat.toDigits 10 n with
  | nil => exact absurd hd Nat.toDigits_ne_nil
  | cons c cs =>
    have hc : isDigit c = true := isDigit_of_mem_toDigits (n := n) (hd ▸ List.mem_cons_self)
    refine ⟨c, hc, ?_, cs, hd⟩
    simp only [isDigit, Bool.and_eq_true, decide_eq_true_eq] at hc
    simp only [isSpace, Bool.or_eq_false_iff, beq_eq_false_iff_ne, ne_eq]
    refine ⟨⟨⟨?_, ?_⟩, ?_⟩, ?_⟩ <;> rintro rfl <;> exact absurd hc (by decide)

theorem recovers_text {accepts : String → Bool} {s : String} (h : accepts s = true) :
    Recovers (Shape.text accepts).read (.text s) := by
  intro rest _
  have hskip := (opensWith_text s).skipSpace rest
  have hwrite : (text s).write ++ rest = '"' :: (s.toList.flatMap writeChar ++ '"' :: rest) := by
    simp only [write, writeText, List.cons_append, List.append_assoc, List.nil_append]
  simp only [Shape.read, hskip]
  simp only [hwrite, readText_writeText, bind, Except.bind, h, if_true]

theorem recovers_anyText (s : String) : Recovers Shape.anyText.read (.text s) := recovers_text rfl

theorem recovers_number {n limit : Nat} (hlimit : n < limit) (hn : n < 10 ^ 20) :
    Recovers (Shape.number limit).read (.number n) := by
  intro rest hrest
  obtain ⟨c, hc, hopens⟩ := opensWith_number n
  have hskip := hopens.skipSpace rest
  obtain ⟨-, cs, he⟩ := hopens
  have hread := readNumber_toDigits hn hrest
  have hwrite : Nat.toDigits 10 n ++ rest = c :: (cs ++ rest) := congrArg (· ++ rest) he
  have hfits : (true && decide (n < limit)) = true := by rw [Bool.true_and, decide_eq_true hlimit]
  rw [hwrite] at hread
  simp only [Shape.read, hskip]
  simp only [he, List.cons_append, hc, if_true, hread, bind, Except.bind, hfits]

theorem recovers_flag (b : Bool) : Recovers Shape.flag.read (.flag b) := by
  intro rest _
  cases b <;> rfl

theorem recovers_null (shape : Shape) : Recovers (Shape.nullable shape).read .null := by
  intro rest _
  rfl

theorem recovers_nullable {shape : Shape} {v : Json} {c : Char} (hopens : v.OpensWith c)
    (hc : c ≠ 'n') (h : Recovers shape.read v) : Recovers (Shape.nullable shape).read v := by
  intro rest hrest
  have hskip := hopens.skipSpace rest
  obtain ⟨-, cs, he⟩ := hopens
  rw [Shape.read, hskip]
  split
  · rename_i hn
    rw [he] at hn
    exact absurd (List.cons.inj hn).1 hc
  · exact h rest hrest

theorem recovers_optional_text (s : Option String) :
    Recovers (Shape.nullable .anyText).read (.ofOption .text s) := by
  cases s with
  | none => exact recovers_null _
  | some s => exact recovers_nullable (opensWith_text s) (by decide) (recovers_anyText s)

theorem recovers_optional_number {n : Option Nat} {limit : Nat}
    (h : ∀ k ∈ n, k < limit ∧ k < 10 ^ 20) :
    Recovers (Shape.nullable (.number limit)).read (.ofOption .number n) := by
  cases n with
  | none => exact recovers_null _
  | some k =>
    obtain ⟨c, hc, hopens⟩ := opensWith_number k
    obtain ⟨hlimit, hk⟩ := h k rfl
    refine recovers_nullable hopens ?_ (recovers_number hlimit hk)
    rintro rfl
    exact absurd hc (by decide)

/-! ## Records -/

theorem find?_of_nodup {α : Type} {key : α → String} {xs : List α} (h : (xs.map key).Nodup)
    {x : α} (hx : x ∈ xs) : (xs.find? fun y => key y == key x) = some x := by
  induction xs with
  | nil => cases hx
  | cons y ys ih =>
    rw [List.map_cons, List.nodup_cons] at h
    rcases List.mem_cons.1 hx with rfl | hx
    · exact List.find?_cons_of_pos (beq_self_eq_true _)
    · have hne : (key y == key x) = false := by
        refine beq_false_of_ne fun he => ?_
        exact h.1 (he ▸ List.mem_map_of_mem hx)
      rw [List.find?_cons, hne]
      exact ih h.2 hx

/-- What stands between a member and the closing brace. -/
def writeTrail : List (String × Json) → List Char
  | [] => []
  | m :: ms => ',' :: writeMembers (m :: ms)

theorem writeMembers_cons (k : String) (v : Json) (ms : List (String × Json))
    (rest : List Char) :
    writeMembers ((k, v) :: ms) ++ rest =
      '"' :: (k.toList.flatMap writeChar ++
        '"' :: ':' :: (v.write ++ (writeTrail ms ++ rest))) := by
  cases ms <;>
    simp only [writeMembers, writeTrail, writeText, List.cons_append, List.append_assoc,
      List.nil_append]

theorem closing_writeTrail (ms : List (String × Json)) (rest : List Char) :
    Closing (writeTrail ms ++ '\x7d' :: rest) := by
  cases ms with
  | nil => exact .inr (.inr rfl)
  | cons m ms => exact .inl rfl

theorem length_le_writeTrail (ms : List (String × Json)) :
    ms.length ≤ (writeTrail ms).length := by
  induction ms with
  | nil => exact Nat.le_refl 0
  | cons m ms ih =>
    obtain ⟨k, v⟩ := m
    have hcons := congrArg List.length (writeMembers_cons k v ms [])
    simp only [List.length_append, List.length_cons, List.append_nil] at hcons
    rw [writeTrail, List.length_cons, List.length_cons, hcons]
    omega

/-- One member is read and noted. -/
theorem readMembers_step {fields : List Field} {first : Bool} {seen : List (String × Json)}
    {cs rest : List Char} {k : String} {v : Json} {field : Field} (fuel : Nat)
    (hname : nextName? first cs =
      .ok (some (k.toList.flatMap writeChar ++ '"' :: ':' :: (v.write ++ rest))))
    (hfind : (fields.find? fun f => f.name == k) = some field) (hread : Recovers field.read v)
    (hrest : Closing rest) (hnew : k ∉ seen.map Prod.fst) :
    readMembers fields (fuel + 1) first seen cs =
      readMembers fields fuel false (seen ++ [(k, v)]) rest := by
  have hany : (seen.any fun m => m.1 == k) = false := by
    refine List.any_eq_false.2 fun m hm he => ?_
    exact hnew (beq_iff_eq.1 he ▸ List.mem_map_of_mem hm)
  have hcolon : expectColon (':' :: (v.write ++ rest)) = .ok (v.write ++ rest) := rfl
  rw [readMembers, hname]
  simp only [bind, Except.bind, readText_writeText, hfind, hany, if_neg Bool.false_ne_true,
    hcolon, hread rest hrest]

/-- The members of an object are read in their order, whatever has been read before. -/
theorem readMembers_writeTrail {fields : List Field} {ms seen : List (String × Json)}
    (hfields : ∀ m ∈ ms, ∃ f, (fields.find? fun f => f.name == m.1) = some f ∧
      Recovers f.read m.2)
    (hnames : ((seen ++ ms).map Prod.fst).Nodup) (rest : List Char) {fuel : Nat}
    (hfuel : ms.length < fuel) :
    readMembers fields fuel false seen (writeTrail ms ++ '\x7d' :: rest) =
      .ok (seen ++ ms, '\x7d' :: rest) := by
  induction ms generalizing seen fuel with
  | nil =>
    obtain ⟨fuel, rfl⟩ := Nat.exists_eq_succ_of_ne_zero (Nat.ne_of_gt hfuel)
    rw [List.append_nil]
    rfl
  | cons m ms ih =>
    obtain ⟨k, v⟩ := m
    obtain ⟨fuel, rfl⟩ := Nat.exists_eq_succ_of_ne_zero (Nat.ne_of_gt (Nat.zero_lt_of_lt hfuel))
    obtain ⟨field, hfind, hread⟩ := hfields (k, v) List.mem_cons_self
    have hassoc : seen ++ (k, v) :: ms = (seen ++ [(k, v)]) ++ ms := by
      rw [List.append_assoc, List.singleton_append]
    have hnew : k ∉ seen.map Prod.fst := by
      rw [List.map_append, List.map_cons] at hnames
      intro hk
      exact (List.nodup_append.1 hnames).2.2 k hk k List.mem_cons_self rfl
    have hname : nextName? false (writeTrail ((k, v) :: ms) ++ '\x7d' :: rest) = .ok (some
        (k.toList.flatMap writeChar ++ '"' :: ':' ::
          (v.write ++ (writeTrail ms ++ '\x7d' :: rest)))) := by
      rw [writeTrail, List.cons_append, writeMembers_cons]
      rfl
    rw [hassoc] at hnames ⊢
    rw [readMembers_step fuel hname hfind hread (closing_writeTrail ms rest) hnew]
    exact ih (fun m hm => hfields m (List.mem_cons_of_mem _ hm)) hnames
      (Nat.lt_of_succ_lt_succ hfuel)

theorem fillFields_eq {fields : List Field} {ms seen : List (String × Json)}
    (hfields : List.Forall₂ (fun f m => f.name = m.1) fields ms)
    (hseen : ∀ m ∈ ms, (seen.find? fun m' => m'.1 == m.1) = some m) :
    fillFields seen fields = .ok ms := by
  induction hfields with
  | nil => rfl
  | @cons f m fields ms hname _ ih =>
    have hm := hseen m List.mem_cons_self
    rw [fillFields, hname, hm, ih fun m' hm' => hseen m' (List.mem_cons_of_mem _ hm')]
    rfl

theorem exists_of_forall₂ {α β : Type} {R : α → β → Prop} {xs : List α} {ys : List β}
    (h : List.Forall₂ R xs ys) {y : β} (hy : y ∈ ys) : ∃ x ∈ xs, R x y := by
  induction h with
  | nil => cases hy
  | @cons x z xs zs hr _ ih =>
    rcases List.mem_cons.1 hy with rfl | hy
    · exact ⟨x, List.mem_cons_self, hr⟩
    · obtain ⟨x', hx', hr'⟩ := ih hy
      exact ⟨x', List.mem_cons_of_mem _ hx', hr'⟩

/-- A record whose fields recover the members of their names recovers the object of these
members. -/
theorem recovers_record {fields : List (String × Presence × Shape)}
    {ms : List (String × Json)}
    (hfields : List.Forall₂ (fun f m => f.name = m.1 ∧ Recovers f.read m.2)
      (Shape.fieldReaders fields) ms)
    (hnames : (ms.map Prod.fst).Nodup) : Recovers (Shape.record fields).read (.object ms) := by
  intro rest _
  have hfill : fillFields ms (Shape.fieldReaders fields) = .ok ms :=
    fillFields_eq (hfields.imp fun _ _ h => h.1) fun m hm => find?_of_nodup hnames hm
  have hsame : (Shape.fieldReaders fields).map Field.name = ms.map Prod.fst := by
    rw [← List.forall₂_eq_eq_eq, List.forall₂_map_left_iff, List.forall₂_map_right_iff]
    exact hfields.imp fun _ _ h => h.1
  have hread : ∀ m ∈ ms, ∃ f,
      ((Shape.fieldReaders fields).find? fun f => f.name == m.1) = some f ∧
        Recovers f.read m.2 := by
    intro m hm
    obtain ⟨f, hf, hname, hrecovers⟩ := exists_of_forall₂ hfields hm
    exact ⟨f, hname ▸ find?_of_nodup (hsame ▸ hnames) hf, hrecovers⟩
  have hmembers : readMembers (Shape.fieldReaders fields)
      ((writeMembers ms ++ '\x7d' :: rest).length + 1) true [] (writeMembers ms ++ '\x7d' :: rest) =
        .ok (ms, '\x7d' :: rest) := by
    cases ms with
    | nil => rfl
    | cons m ms =>
      obtain ⟨k, v⟩ := m
      obtain ⟨f, hfind, hrecovers⟩ := hread (k, v) List.mem_cons_self
      have hlength : ms.length <
          (writeMembers ((k, v) :: ms) ++ '\x7d' :: rest).length := by
        have hms := length_le_writeTrail ms
        simp only [writeMembers_cons, List.length_append, List.length_cons]
        omega
      have hname : nextName? true (writeMembers ((k, v) :: ms) ++ '\x7d' :: rest) = .ok (some
          (k.toList.flatMap writeChar ++ '"' :: ':' ::
            (v.write ++ (writeTrail ms ++ '\x7d' :: rest)))) := by
        rw [writeMembers_cons]
        rfl
      rw [readMembers_step _ hname hfind hrecovers (closing_writeTrail ms rest) List.not_mem_nil]
      exact readMembers_writeTrail (fun m hm => hread m (List.mem_cons_of_mem _ hm)) hnames rest
        hlength
  have hwrite : (object ms).write ++ rest =
      '\x7b' :: (writeMembers ms ++ '\x7d' :: rest) := by
    simp only [write, List.cons_append, List.append_assoc, List.nil_append]
  have hskip : skipSpace ((object ms).write ++ rest) = (object ms).write ++ rest :=
    OpensWith.skipSpace ⟨rfl, _, rfl⟩ rest
  simp only [Shape.read, hskip]
  simp only [hwrite, readRecord, hmembers, hfill, bind, Except.bind]
  rfl

/-- A value that a shape recovers is what its compact text reads as. -/
theorem readText_compact {shape : Shape} {v : Json} (h : Recovers shape.read v) :
    shape.readText v.compact = .ok v := by
  have hread := h [] trivial
  rw [List.append_nil] at hread
  rw [Shape.readText, compact, String.toList_ofList, hread]
  rfl

end Json

end Fleet
