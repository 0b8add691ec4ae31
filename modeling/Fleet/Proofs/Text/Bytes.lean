import Fleet.Name
import Mathlib.Data.String.Basic

/-!
# Texts as bytes

Texts are ordered by code point.  Their UTF-8 bytes are in the same order: of two characters
the one with the smaller code has the smaller bytes, at the first place where they differ
(`encode_append_lt`), so nothing changes if the bytes of two texts are compared in place of
their characters (`bytes_lt_iff`).  Labels are ordered by their texts, untagged first
(`Label.precedes_of_compare`).
-/

namespace Fleet

namespace Text

/-- The bytes of a text. -/
def bytes (s : String) : List UInt8 := s.toByteArray.data.toList

theorem bytes_eq (s : String) : bytes s = s.toList.flatMap String.utf8EncodeChar := by
  rw [bytes, ← String.utf8Encode_toList, List.utf8Encode, List.toList_data_toByteArray]

theorem cons_ofNat_lt {a b : Nat} (ha : a < 256) (hb : b < 256) {xs ys : List UInt8} :
    UInt8.ofNat a :: xs < UInt8.ofNat b :: ys ↔ a < b ∨ a = b ∧ xs < ys := by
  have heq : UInt8.ofNat a = UInt8.ofNat b ↔ a = b := by
    rw [← UInt8.toNat_inj, UInt8.toNat_ofNat_of_lt' ha, UInt8.toNat_ofNat_of_lt' hb]
  rw [List.cons_lt_cons_iff, UInt8.ofNat_lt_iff_lt ha hb, heq]

/-- Of two numbers to the base 64 the smaller one has the smaller last digit or less before it. -/
theorem digit_lt {a b : Nat} (h : a < b) : a / 64 < b / 64 ∨ a / 64 = b / 64 ∧ a % 64 < b % 64 := by
  omega

/-- The bytes of a smaller character come first, whatever follows. -/
theorem encode_append_lt {c d : Char} (h : c < d) (xs ys : List UInt8) :
    String.utf8EncodeChar c ++ xs < String.utf8EncodeChar d ++ ys := by
  have hlt : c.val.toNat < d.val.toNat := h
  have hmax : d.val.toNat < 1114112 := by
    have := d.valid
    unfold UInt32.isValidChar Nat.isValidChar at this
    omega
  unfold String.utf8EncodeChar
  dsimp only
  generalize c.val.toNat = v at hlt
  generalize d.val.toNat = w at hlt hmax
  have htop {n : Nat} (h : n ≤ w) : n / 262144 % 8 = n / 262144 :=
    Nat.mod_eq_of_lt (Nat.div_lt_of_lt_mul (by omega))
  have hv := htop (Nat.le_of_lt hlt)
  have hw := htop (Nat.le_refl w)
  have hlast := digit_lt hlt
  have hthird := fun h : v / 64 < w / 64 => digit_lt h
  have hsecond := fun h : v / 4096 < w / 4096 => digit_lt h
  rw [Nat.div_div_eq_div_mul, Nat.div_div_eq_div_mul] at hthird hsecond
  split_ifs <;>
    simp (disch := omega) only [List.cons_append, List.nil_append, cons_ofNat_lt] <;> omega

theorem flatMap_encode_lt {cs ds : List Char} (h : cs < ds) :
    cs.flatMap String.utf8EncodeChar < ds.flatMap String.utf8EncodeChar := by
  induction cs generalizing ds with
  | nil =>
    cases ds with
    | nil => exact absurd h (List.lt_irrefl _)
    | cons d ds =>
      have hne : (d :: ds).flatMap String.utf8EncodeChar ≠ [] := by
        rw [List.flatMap_cons, ← List.length_pos_iff, List.length_append,
          String.length_utf8EncodeChar]
        have := d.utf8Size_pos
        omega
      obtain ⟨u, us, hus⟩ := List.exists_cons_of_ne_nil hne
      rw [hus]
      exact List.nil_lt_cons u us
  | cons c cs ih =>
    cases ds with
    | nil => exact absurd h (List.not_lt_nil _)
    | cons d ds =>
      rw [List.flatMap_cons, List.flatMap_cons]
      rcases List.cons_lt_cons_iff.1 h with h | ⟨rfl, h⟩
      · exact encode_append_lt h _ _
      · exact List.append_left_lt (ih (List.cons_lt_cons_iff.1 h |>.resolve_left (lt_irrefl c)).2)

/-- Texts and their bytes are in the same order. -/
theorem bytes_lt_iff {s t : String} : bytes s < bytes t ↔ s < t := by
  have hmono {s t : String} (h : s < t) : bytes s < bytes t := by
    rw [bytes_eq, bytes_eq]
    exact flatMap_encode_lt (String.lt_iff.1 h)
  refine ⟨fun h => ?_, hmono⟩
  rcases lt_trichotomy s t with hlt | heq | hgt
  · exact hlt
  · exact absurd (heq ▸ h) (List.lt_irrefl _)
  · exact absurd (hmono hgt) (List.lt_asymm h)

theorem bytes_lt_of_compare {s t : String} (h : compare s t = .lt) : bytes s < bytes t :=
  bytes_lt_iff.2 (compareOfLessAndEq_eq_lt.1 h)

end Text

/-- Untagged first, then by the bytes of the text. -/
def Label.Precedes : Option Label → Option Label → Prop
  | none, some _ => True
  | some k, some k' => Text.bytes k.text < Text.bytes k'.text
  | _, none => False

theorem Label.precedes_of_compare {k k' : Option Label} (h : compare k k' = .lt) :
    Label.Precedes k k' := by
  cases k with
  | none =>
    cases k' with
    | none => cases h
    | some _ => trivial
  | some _ =>
    cases k' with
    | none => cases h
    | some _ => exact Text.bytes_lt_of_compare h

end Fleet
