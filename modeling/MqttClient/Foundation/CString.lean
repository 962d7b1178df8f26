import Mathlib.Data.List.Basic
import Mathlib.Tactic.Common
import Mathlib.Tactic.Ring

/-! # Strings of the C library

A string is the list of its bytes in front of the final zero. A pointer into it is an index,
and the null pointer is `none`.
-/

namespace MqttClient.Foundation.CString

def strchr (text : List UInt8) (character : UInt8) : Option Nat :=
  text.findIdx? (· == character)

def strrchr : List UInt8 → UInt8 → Option Nat
  | [], _ => none
  | first :: text, character =>
      match strrchr text character with
      | some index => some (index + 1)
      | none => if first = character then some 0 else none

def isSpace (character : UInt8) : Bool := character = 32 || (9 ≤ character && character ≤ 13)

def isDigit (character : UInt8) : Bool := 48 ≤ character && character ≤ 57

def decimal (digits : List UInt8) : Nat :=
  digits.foldl (fun value digit => 10 * value + (digit.toNat - 48)) 0

/-- The number at the start of a string: a `long` that stops at its bounds, cut to an
`int`. -/
def atoi (text : List UInt8) : Int :=
  let text := text.dropWhile isSpace
  let magnitude (text : List UInt8) : Int := decimal (text.takeWhile isDigit)
  let value := match text with
    | 45 :: text => -magnitude text
    | 43 :: text => magnitude text
    | text => magnitude text
  (max (-2 ^ 63) (min value (2 ^ 63 - 1))).bmod (2 ^ 32)

example : atoi [32, 45, 49, 50, 47] = -12 := by decide

section Search

variable {text more : List UInt8} {character : UInt8} {index : Nat}

theorem strchr_eq_none (absent : character ∉ text) : strchr text character = none := by
  rw [strchr, List.findIdx?_eq_none_iff]
  intro other inside
  rw [beq_eq_false_iff_ne]
  rintro rfl
  exact absent inside

theorem strchr_append (absent : character ∉ text) :
    strchr (text ++ more) character = (strchr more character).map (· + text.length) := by
  have none := strchr_eq_none absent
  rw [strchr] at none
  rw [strchr, List.findIdx?_append, none, Option.none_or, strchr]

theorem strchr_cons (first : UInt8) : strchr (first :: text) character =
    if first = character then some 0 else (strchr text character).map (· + 1) := by
  simp [strchr, List.findIdx?_cons]

theorem strchr_eq_length (inside : character ∈ text) :
    strchr text character = some (text.takeWhile (· != character)).length := by
  induction text with
  | nil => exact absurd inside List.not_mem_nil
  | cons first text induction =>
      rw [strchr_cons]
      by_cases here : first = character
      · simp [here]
      · have later := (List.mem_cons.mp inside).resolve_left fun same => here same.symm
        simp [here, induction later]

theorem strchr_lt (found : strchr text character = some index) : index < text.length := by
  rw [strchr, List.findIdx?_eq_some_iff_getElem] at found
  exact found.1

theorem strrchr_eq_none_iff : strrchr text character = none ↔ character ∉ text := by
  induction text with
  | nil => simp [strrchr]
  | cons first text induction =>
      rw [strrchr, List.mem_cons, not_or, ← induction, eq_comm (a := character)]
      cases strrchr text character with
      | some index => simp
      | none => by_cases here : first = character <;> simp [here]

theorem strrchr_append : strrchr (text ++ more) character =
    ((strrchr more character).map (text.length + ·)).or (strrchr text character) := by
  induction text with
  | nil => cases found : strrchr more character <;> simp [strrchr, found]
  | cons first text induction =>
      rw [List.cons_append, strrchr, induction, strrchr]
      cases strrchr more character with
      | none => rfl
      | some index => simp [Nat.add_right_comm]

theorem strrchr_eq_some (found : strrchr text character = some index) :
    ∃ before after, text = before ++ character :: after ∧ before.length = index ∧
      character ∉ after := by
  induction text generalizing index with
  | nil => exact absurd found nofun
  | cons first text induction =>
      rw [strrchr] at found
      cases later : strrchr text character with
      | some place =>
          rw [later] at found
          obtain ⟨before, after, split, length, absent⟩ := induction later
          refine ⟨first :: before, after, by rw [split, List.cons_append], ?_, absent⟩
          rw [List.length_cons, length]
          exact Option.some.inj found
      | none =>
          rw [later] at found
          by_cases here : first = character
          · simp only [if_pos here] at found
            refine ⟨[], text, by rw [here, List.nil_append], Option.some.inj found, ?_⟩
            exact strrchr_eq_none_iff.mp later
          · simp only [if_neg here] at found
            exact absurd found nofun

theorem getElem?_strrchr (found : strrchr text character = some index) :
    text[index]? = some character := by
  obtain ⟨before, after, split, length, -⟩ := strrchr_eq_some found
  rw [split, ← length]
  simp

theorem strrchr_lt (found : strrchr text character = some index) : index < text.length :=
  (List.getElem?_eq_some_iff.mp (getElem?_strrchr found)).1

theorem strrchr_split (absent : character ∉ more) :
    strrchr (text ++ character :: more) character = some text.length := by
  have here : strrchr (character :: more) character = some 0 := by
    rw [strrchr, strrchr_eq_none_iff.mpr absent]
    exact if_pos rfl
  rw [strrchr_append, here, Option.map_some, Option.some_or, Nat.add_zero]

end Search

section Numbers

variable {digits rest : List UInt8}

theorem atoi_digits (nonempty : digits ≠ []) (decimals : ∀ digit ∈ digits, isDigit digit)
    (ended : ∀ next, rest.head? = some next → ¬ isDigit next) (small : decimal digits < 2 ^ 31) :
    atoi (digits ++ rest) = decimal digits := by
  have taken : (digits ++ rest).takeWhile isDigit = digits := by
    rw [List.takeWhile_append_of_pos decimals]
    cases rest with
    | nil => simp
    | cons next rest =>
        rw [List.takeWhile_cons_of_neg (ended next rfl), List.append_nil]
  cases digits with
  | nil => exact absurd rfl nonempty
  | cons digit digits =>
      have first := decimals digit List.mem_cons_self
      have range : 48 ≤ digit.toNat ∧ digit.toNat ≤ 57 := by
        simpa [isDigit, UInt8.le_iff_toNat_le] using first
      have other (character : UInt8) (outside : character.toNat < 48) : digit ≠ character := by
        rintro rfl
        omega
      have visible : ¬ isSpace digit := by
        simp only [isSpace, UInt8.le_iff_toNat_le, Bool.or_eq_true, Bool.and_eq_true,
          decide_eq_true_eq, not_or, UInt8.reduceToNat]
        exact ⟨other 32 (by decide), by omega⟩
      have minus := other 45 (by decide)
      have plus := other 43 (by decide)
      have sign : atoi (digit :: digits ++ rest) =
          (max (-2 ^ 63) (min (decimal (digit :: digits) : Int) (2 ^ 63 - 1))).bmod (2 ^ 32) := by
        rw [atoi, List.cons_append, List.dropWhile_cons_of_neg visible, ← List.cons_append]
        simp only
        split
        · exact absurd (List.cons.inj ‹_›).1 minus
        · exact absurd (List.cons.inj ‹_›).1 plus
        · rw [taken]
      have inside : max (-2 ^ 63) (min (decimal (digit :: digits) : Int) (2 ^ 63 - 1)) =
          decimal (digit :: digits) := by omega
      rw [sign, inside]
      exact Int.bmod_eq_of_le (by omega) (by omega)

end Numbers

end MqttClient.Foundation.CString
