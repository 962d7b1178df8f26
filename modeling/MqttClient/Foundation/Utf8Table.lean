import Mathlib.Data.List.Forall2
import Mathlib.Tactic.Common

/-! # Well-formed UTF-8

Table 3-7 of the Unicode standard, which lists the well-formed byte sequences by the ranges of
their bytes. They are the encodings of the characters, each of which is a Unicode scalar value.
-/

namespace MqttClient.Foundation.Utf8

abbrev Range := UInt8 × UInt8

def Range.Contains (range : Range) (byte : UInt8) : Prop :=
  range.1 ≤ byte ∧ byte ≤ range.2

instance (range : Range) (byte : UInt8) : Decidable (range.Contains byte) :=
  inferInstanceAs (Decidable (_ ∧ _))

def table : List (List Range) :=
  [[(0x00, 0x7f)],
    [(0xc2, 0xdf), (0x80, 0xbf)],
    [(0xe0, 0xe0), (0xa0, 0xbf), (0x80, 0xbf)],
    [(0xe1, 0xec), (0x80, 0xbf), (0x80, 0xbf)],
    [(0xed, 0xed), (0x80, 0x9f), (0x80, 0xbf)],
    [(0xee, 0xef), (0x80, 0xbf), (0x80, 0xbf)],
    [(0xf0, 0xf0), (0x90, 0xbf), (0x80, 0xbf), (0x80, 0xbf)],
    [(0xf1, 0xf3), (0x80, 0xbf), (0x80, 0xbf), (0x80, 0xbf)],
    [(0xf4, 0xf4), (0x80, 0x8f), (0x80, 0xbf), (0x80, 0xbf)]]

def Sequence (bytes : List UInt8) : Prop :=
  ∃ row ∈ table, List.Forall₂ Range.Contains row bytes

/-- A well-formed string. -/
inductive WellFormed : List UInt8 → Prop
  | nil : WellFormed []
  | append {first rest : List UInt8} (sequence : Sequence first) (wellFormed : WellFormed rest) :
      WellFormed (first ++ rest)

variable {bytes first rest : List UInt8}

theorem Sequence.ne_nil (sequence : Sequence bytes) : bytes ≠ [] := by
  rcases sequence with ⟨row, member, matched⟩
  rintro rfl
  cases matched
  exact absurd member (by decide)

/-! ## The characters -/

theorem contains_ofNat (low high : Nat) {value : Nat} (lowest : low ≤ value)
    (highest : value ≤ high)
    (small : high < 256) :
    Range.Contains (UInt8.ofNat low, UInt8.ofNat high) (UInt8.ofNat value) := by
  rw [Range.Contains, UInt8.le_iff_toNat_le, UInt8.le_iff_toNat_le]
  dsimp only
  rw [UInt8.toNat_ofNat_of_lt' (by change low < 256; omega),
    UInt8.toNat_ofNat_of_lt' (by change value < 256; omega),
    UInt8.toNat_ofNat_of_lt' (by change high < 256; omega)]
  exact ⟨lowest, highest⟩

theorem contains_tail (value : Nat) :
    Range.Contains (0x80, 0xbf) (UInt8.ofNat (value % 0x40 + 0x80)) := by
  apply contains_ofNat 0x80 0xbf
  all_goals omega

theorem sequence_three {value : Nat} (lowest : 0x800 ≤ value) (highest : value ≤ 0xffff)
    (scalar : value < 0xd800 ∨ 0xdfff < value) :
    Sequence [UInt8.ofNat (value / 4096 % 0x10 + 0xe0), UInt8.ofNat (value / 64 % 0x40 + 0x80),
      UInt8.ofNat (value % 0x40 + 0x80)] := by
  rcases (by omega : value < 0x1000 ∨ (0x1000 ≤ value ∧ value < 0xd000) ∨
    (0xd000 ≤ value ∧ value < 0xd800) ∨ 0xe000 ≤ value) with small | middle | surrogate | large
  · refine ⟨[(0xe0, 0xe0), (0xa0, 0xbf), (0x80, 0xbf)], by decide,
      .cons ?_ (.cons ?_ (.cons (contains_tail _) .nil))⟩
    · exact contains_ofNat 0xe0 0xe0 (by omega) (by omega) (by omega)
    · exact contains_ofNat 0xa0 0xbf (by omega) (by omega) (by omega)
  · refine ⟨[(0xe1, 0xec), (0x80, 0xbf), (0x80, 0xbf)], by decide,
      .cons ?_ (.cons (contains_tail _) (.cons (contains_tail _) .nil))⟩
    exact contains_ofNat 0xe1 0xec (by omega) (by omega) (by omega)
  · refine ⟨[(0xed, 0xed), (0x80, 0x9f), (0x80, 0xbf)], by decide,
      .cons ?_ (.cons ?_ (.cons (contains_tail _) .nil))⟩
    · exact contains_ofNat 0xed 0xed (by omega) (by omega) (by omega)
    · exact contains_ofNat 0x80 0x9f (by omega) (by omega) (by omega)
  · refine ⟨[(0xee, 0xef), (0x80, 0xbf), (0x80, 0xbf)], by decide,
      .cons ?_ (.cons (contains_tail _) (.cons (contains_tail _) .nil))⟩
    exact contains_ofNat 0xee 0xef (by omega) (by omega) (by omega)

theorem sequence_four {value : Nat} (lowest : 0x10000 ≤ value) (highest : value ≤ 0x10ffff) :
    Sequence [UInt8.ofNat (value / 262144 % 0x08 + 0xf0),
      UInt8.ofNat (value / 4096 % 0x40 + 0x80), UInt8.ofNat (value / 64 % 0x40 + 0x80),
      UInt8.ofNat (value % 0x40 + 0x80)] := by
  rcases (by omega : value < 0x40000 ∨ (0x40000 ≤ value ∧ value < 0x100000) ∨
    0x100000 ≤ value) with small | middle | large
  · refine ⟨[(0xf0, 0xf0), (0x90, 0xbf), (0x80, 0xbf), (0x80, 0xbf)], by decide,
      .cons ?_ (.cons ?_ (.cons (contains_tail _) (.cons (contains_tail _) .nil)))⟩
    · exact contains_ofNat 0xf0 0xf0 (by omega) (by omega) (by omega)
    · exact contains_ofNat 0x90 0xbf (by omega) (by omega) (by omega)
  · refine ⟨[(0xf1, 0xf3), (0x80, 0xbf), (0x80, 0xbf), (0x80, 0xbf)], by decide,
      .cons ?_ (.cons (contains_tail _) (.cons (contains_tail _) (.cons (contains_tail _) .nil)))⟩
    exact contains_ofNat 0xf1 0xf3 (by omega) (by omega) (by omega)
  · refine ⟨[(0xf4, 0xf4), (0x80, 0x8f), (0x80, 0xbf), (0x80, 0xbf)], by decide,
      .cons ?_ (.cons ?_ (.cons (contains_tail _) (.cons (contains_tail _) .nil)))⟩
    · exact contains_ofNat 0xf4 0xf4 (by omega) (by omega) (by omega)
    · exact contains_ofNat 0x80 0x8f (by omega) (by omega) (by omega)

theorem sequence_encode (character : Char) : Sequence (String.utf8EncodeChar character) := by
  have valid := character.valid
  rw [UInt32.isValidChar, Nat.isValidChar] at valid
  rw [String.utf8EncodeChar]
  generalize character.val.toNat = value at *
  split
  · refine ⟨[(0x00, 0x7f)], by decide, .cons ?_ .nil⟩
    exact contains_ofNat 0x00 0x7f (by omega) (by omega) (by omega)
  · split
    · refine ⟨[(0xc2, 0xdf), (0x80, 0xbf)], by decide, .cons ?_ (.cons (contains_tail _) .nil)⟩
      exact contains_ofNat 0xc2 0xdf (by omega) (by omega) (by omega)
    · split
      · exact sequence_three (by omega) (by omega) (by omega)
      · exact sequence_four (by omega) (by omega)

/-! ## The characters of the sequences -/

theorem ofNat_eq (byte : UInt8) {value : Nat} (same : value = byte.toNat) :
    UInt8.ofNat value = byte := by
  rw [same, UInt8.ofNat_toNat]

theorem encode_eq (value : Nat) (valid : value.isValidChar) (bytes : List UInt8)
    (encoded : (if value ≤ 0x7f then [UInt8.ofNat value]
      else if value ≤ 0x7ff then
        [UInt8.ofNat (value / 64 % 0x20 + 0xc0), UInt8.ofNat (value % 0x40 + 0x80)]
      else if value ≤ 0xffff then
        [UInt8.ofNat (value / 4096 % 0x10 + 0xe0), UInt8.ofNat (value / 64 % 0x40 + 0x80),
          UInt8.ofNat (value % 0x40 + 0x80)]
      else
        [UInt8.ofNat (value / 262144 % 0x08 + 0xf0), UInt8.ofNat (value / 4096 % 0x40 + 0x80),
          UInt8.ofNat (value / 64 % 0x40 + 0x80), UInt8.ofNat (value % 0x40 + 0x80)]) = bytes) :
    ∃ character, String.utf8EncodeChar character = bytes := by
  have same : (Char.ofNatAux value valid).val.toNat = value := rfl
  apply Exists.intro (Char.ofNatAux value valid)
  rw [String.utf8EncodeChar, same]
  exact encoded

section Decoding

variable {first second third fourth : UInt8}

theorem encodes_one (ascii : first.toNat ≤ 0x7f) :
    ∃ character, String.utf8EncodeChar character = [first] := by
  apply encode_eq first.toNat (.inl (by omega))
  rw [if_pos ascii, UInt8.ofNat_toNat]

theorem encodes_two (lead : 0xc2 ≤ first.toNat ∧ first.toNat ≤ 0xdf)
    (tail : 0x80 ≤ second.toNat ∧ second.toNat ≤ 0xbf) :
    ∃ character, String.utf8EncodeChar character = [first, second] := by
  apply encode_eq ((first.toNat - 0xc0) * 64 + (second.toNat - 0x80)) (.inl (by omega))
  rw [if_neg (by omega), if_pos (by omega), ofNat_eq first (by omega),
    ofNat_eq second (by omega)]

theorem encodes_three (lead : 0xe0 ≤ first.toNat ∧ first.toNat ≤ 0xef)
    (tail : 0x80 ≤ second.toNat ∧ second.toNat ≤ 0xbf)
    (tail' : 0x80 ≤ third.toNat ∧ third.toNat ≤ 0xbf)
    (short : first.toNat = 0xe0 → 0xa0 ≤ second.toNat)
    (scalar : first.toNat = 0xed → second.toNat ≤ 0x9f) :
    ∃ character, String.utf8EncodeChar character = [first, second, third] := by
  apply encode_eq ((first.toNat - 0xe0) * 4096 + (second.toNat - 0x80) * 64 +
    (third.toNat - 0x80)) (by rw [Nat.isValidChar]; omega)
  rw [if_neg (by omega), if_neg (by omega), if_pos (by omega), ofNat_eq first (by omega),
    ofNat_eq second (by omega), ofNat_eq third (by omega)]

theorem encodes_four (lead : 0xf0 ≤ first.toNat ∧ first.toNat ≤ 0xf4)
    (tail : 0x80 ≤ second.toNat ∧ second.toNat ≤ 0xbf)
    (tail' : 0x80 ≤ third.toNat ∧ third.toNat ≤ 0xbf)
    (tail'' : 0x80 ≤ fourth.toNat ∧ fourth.toNat ≤ 0xbf)
    (short : first.toNat = 0xf0 → 0x90 ≤ second.toNat)
    (scalar : first.toNat = 0xf4 → second.toNat ≤ 0x8f) :
    ∃ character, String.utf8EncodeChar character = [first, second, third, fourth] := by
  apply encode_eq ((first.toNat - 0xf0) * 262144 + (second.toNat - 0x80) * 4096 +
    (third.toNat - 0x80) * 64 + (fourth.toNat - 0x80)) (by rw [Nat.isValidChar]; omega)
  rw [if_neg (by omega), if_neg (by omega), if_neg (by omega), ofNat_eq first (by omega),
    ofNat_eq second (by omega), ofNat_eq third (by omega), ofNat_eq fourth (by omega)]

end Decoding

theorem Range.Contains.toNat {low high byte : UInt8} (contains : Range.Contains (low, high) byte) :
    low.toNat ≤ byte.toNat ∧ byte.toNat ≤ high.toNat := contains

theorem sequence_iff : Sequence bytes ↔ ∃ character, String.utf8EncodeChar character = bytes := by
  constructor
  · rintro ⟨row, member, matched⟩
    simp only [table, List.mem_cons, List.not_mem_nil, or_false] at member
    rcases member with rfl | rfl | rfl | rfl | rfl | rfl | rfl | rfl | rfl
    · rcases matched with _ | ⟨first, ⟨⟩⟩
      exact encodes_one first.toNat.2
    · rcases matched with _ | ⟨first, _ | ⟨second, ⟨⟩⟩⟩
      exact encodes_two first.toNat second.toNat
    · rcases matched with _ | ⟨first, _ | ⟨second, _ | ⟨third, ⟨⟩⟩⟩⟩
      have lead : 0xe0 ≤ _ ∧ _ ≤ 0xe0 := first.toNat
      have next : 0xa0 ≤ _ ∧ _ ≤ 0xbf := second.toNat
      exact encodes_three (by omega) (by omega) third.toNat (by omega) (by omega)
    · rcases matched with _ | ⟨first, _ | ⟨second, _ | ⟨third, ⟨⟩⟩⟩⟩
      have lead : 0xe1 ≤ _ ∧ _ ≤ 0xec := first.toNat
      exact encodes_three (by omega) second.toNat third.toNat (by omega) (by omega)
    · rcases matched with _ | ⟨first, _ | ⟨second, _ | ⟨third, ⟨⟩⟩⟩⟩
      have lead : 0xed ≤ _ ∧ _ ≤ 0xed := first.toNat
      have next : 0x80 ≤ _ ∧ _ ≤ 0x9f := second.toNat
      exact encodes_three (by omega) (by omega) third.toNat (by omega) (by omega)
    · rcases matched with _ | ⟨first, _ | ⟨second, _ | ⟨third, ⟨⟩⟩⟩⟩
      have lead : 0xee ≤ _ ∧ _ ≤ 0xef := first.toNat
      exact encodes_three (by omega) second.toNat third.toNat (by omega) (by omega)
    · rcases matched with _ | ⟨first, _ | ⟨second, _ | ⟨third, _ | ⟨fourth, ⟨⟩⟩⟩⟩⟩
      have lead : 0xf0 ≤ _ ∧ _ ≤ 0xf0 := first.toNat
      have next : 0x90 ≤ _ ∧ _ ≤ 0xbf := second.toNat
      exact encodes_four (by omega) (by omega) third.toNat fourth.toNat (by omega) (by omega)
    · rcases matched with _ | ⟨first, _ | ⟨second, _ | ⟨third, _ | ⟨fourth, ⟨⟩⟩⟩⟩⟩
      have lead : 0xf1 ≤ _ ∧ _ ≤ 0xf3 := first.toNat
      exact encodes_four (by omega) second.toNat third.toNat fourth.toNat (by omega) (by omega)
    · rcases matched with _ | ⟨first, _ | ⟨second, _ | ⟨third, _ | ⟨fourth, ⟨⟩⟩⟩⟩⟩
      have lead : 0xf4 ≤ _ ∧ _ ≤ 0xf4 := first.toNat
      have next : 0x80 ≤ _ ∧ _ ≤ 0x8f := second.toNat
      exact encodes_four (by omega) (by omega) third.toNat fourth.toNat (by omega) (by omega)
  · rintro ⟨character, rfl⟩
    exact sequence_encode character

theorem wellFormed_iff : WellFormed bytes ↔
    ∃ characters : List Char, characters.flatMap String.utf8EncodeChar = bytes := by
  constructor
  · intro wellFormed
    induction wellFormed with
    | nil => exact ⟨[], rfl⟩
    | append sequence wellFormed induction =>
        rcases sequence_iff.mp sequence with ⟨character, rfl⟩
        rcases induction with ⟨characters, rfl⟩
        exact ⟨character :: characters, List.flatMap_cons⟩
  · rintro ⟨characters, rfl⟩
    induction characters with
    | nil => exact .nil
    | cons character characters induction =>
        rw [List.flatMap_cons]
        exact .append (sequence_iff.mpr ⟨character, rfl⟩) induction

end MqttClient.Foundation.Utf8
