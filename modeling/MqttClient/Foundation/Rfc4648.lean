import Mathlib.Data.List.Basic
import Mathlib.Tactic.Common
import Mathlib.Tactic.Ring

/-! # The base 64 encoding

The encoding of RFC 4648, section 4: three bytes are 24 bits, written as four characters
that stand for six bits each. A last group that is shorter is filled with zero bits, and its
missing characters are padding.
-/

namespace MqttClient.Foundation.Rfc4648

def symbol (sextet : Nat) : UInt8 :=
  if sextet < 26 then UInt8.ofNat (65 + sextet)
  else if sextet < 52 then UInt8.ofNat (97 + (sextet - 26))
  else if sextet < 62 then UInt8.ofNat (48 + (sextet - 52))
  else if sextet = 62 then 43
  else 47

def sextet (character : UInt8) : Option Nat :=
  let code := character.toNat
  if 65 ≤ code ∧ code ≤ 90 then some (code - 65)
  else if 97 ≤ code ∧ code ≤ 122 then some (code - 97 + 26)
  else if 48 ≤ code ∧ code ≤ 57 then some (code - 48 + 52)
  else if code = 43 then some 62
  else if code = 47 then some 63
  else none

/-- The character `=`. -/
def padding : UInt8 := 61

def encode : List UInt8 → List UInt8
  | [] => []
  | [first] =>
      let bits := first.toNat * 16
      [symbol (bits / 64), symbol (bits % 64), padding, padding]
  | [first, second] =>
      let bits := (first.toNat * 256 + second.toNat) * 4
      [symbol (bits / 64 ^ 2), symbol (bits / 64 % 64), symbol (bits % 64), padding]
  | first :: second :: third :: rest =>
      let bits := (first.toNat * 256 + second.toNat) * 256 + third.toNat
      symbol (bits / 64 ^ 3) :: symbol (bits / 64 ^ 2 % 64) :: symbol (bits / 64 % 64) ::
        symbol (bits % 64) :: encode rest

example : encode [102, 111, 111, 98, 97] = [90, 109, 57, 118, 89, 109, 69, 61] := by decide

theorem sextet_symbol {bits : Nat} (small : bits < 64) : sextet (symbol bits) = some bits := by
  revert bits
  decide

@[simp] theorem sextet_padding : sextet padding = none := by decide

theorem symbol_ne_padding (bits : Nat) (small : bits < 64) : symbol bits ≠ padding := by
  intro same
  have value := sextet_symbol small
  simp [same] at value

/-! Which bits of the bytes a character stands for. -/

theorem encode_one (first : UInt8) :
    encode [first] =
      [symbol (first.toNat / 4), symbol (first.toNat % 4 * 16), padding, padding] := by
  have high : first.toNat * 16 / 64 = first.toNat / 4 := by omega
  have low : first.toNat * 16 % 64 = first.toNat % 4 * 16 := by omega
  simp only [encode, high, low]

theorem encode_two (first second : UInt8) :
    encode [first, second] =
      [symbol (first.toNat / 4), symbol (first.toNat % 4 * 16 + second.toNat / 16),
        symbol (second.toNat % 16 * 4), padding] := by
  have bound := second.toNat_lt
  have c0 : (first.toNat * 256 + second.toNat) * 4 / 64 ^ 2 = first.toNat / 4 := by omega
  have c1 : (first.toNat * 256 + second.toNat) * 4 / 64 % 64 =
      first.toNat % 4 * 16 + second.toNat / 16 := by omega
  have c2 : (first.toNat * 256 + second.toNat) * 4 % 64 = second.toNat % 16 * 4 := by omega
  simp only [encode, c0, c1, c2]

theorem encode_three (first second third : UInt8) (rest : List UInt8) :
    encode (first :: second :: third :: rest) =
      symbol (first.toNat / 4) :: symbol (first.toNat % 4 * 16 + second.toNat / 16) ::
        symbol (second.toNat % 16 * 4 + third.toNat / 64) :: symbol (third.toNat % 64) ::
          encode rest := by
  have boundSecond := second.toNat_lt
  have boundThird := third.toNat_lt
  have c0 : ((first.toNat * 256 + second.toNat) * 256 + third.toNat) / 64 ^ 3 =
      first.toNat / 4 := by omega
  have c1 : ((first.toNat * 256 + second.toNat) * 256 + third.toNat) / 64 ^ 2 % 64 =
      first.toNat % 4 * 16 + second.toNat / 16 := by omega
  have c2 : ((first.toNat * 256 + second.toNat) * 256 + third.toNat) / 64 % 64 =
      second.toNat % 16 * 4 + third.toNat / 64 := by omega
  have c3 : ((first.toNat * 256 + second.toNat) * 256 + third.toNat) % 64 =
      third.toNat % 64 := by omega
  simp only [encode, c0, c1, c2, c3]

theorem forall_mem_encode {property : UInt8 → Prop} (symbols : ∀ bits < 64, property (symbol bits))
    (padded : property padding) (bytes : List UInt8) :
    ∀ character ∈ encode bytes, property character := by
  induction bytes using encode.induct with
  | case1 => simp [encode]
  | case2 first =>
      have byte := first.toNat_lt
      have c0 := symbols (first.toNat / 4) (by omega)
      have c1 := symbols (first.toNat % 4 * 16) (by omega)
      simp [encode_one, *]
  | case3 first second =>
      have byteFirst := first.toNat_lt
      have byteSecond := second.toNat_lt
      have c0 := symbols (first.toNat / 4) (by omega)
      have c1 := symbols (first.toNat % 4 * 16 + second.toNat / 16) (by omega)
      have c2 := symbols (second.toNat % 16 * 4) (by omega)
      simp [encode_two, *]
  | case4 first second third rest induction =>
      have byteFirst := first.toNat_lt
      have byteSecond := second.toNat_lt
      have byteThird := third.toNat_lt
      have c0 := symbols (first.toNat / 4) (by omega)
      have c1 := symbols (first.toNat % 4 * 16 + second.toNat / 16) (by omega)
      have c2 := symbols (second.toNat % 16 * 4 + third.toNat / 64) (by omega)
      have c3 := symbols (third.toNat % 64) (by omega)
      simpa [encode_three, c0, c1, c2, c3] using induction

theorem length_encode (bytes : List UInt8) :
    (encode bytes).length = (bytes.length + 2) / 3 * 4 := by
  fun_induction encode bytes with
  | case1 => rfl
  | case2 first => simp
  | case3 first second => simp
  | case4 first second third rest bits induction =>
      simp only [List.length_cons, induction]
      omega

theorem encode_last {bytes : List UInt8} (nonempty : bytes ≠ []) :
    ∃ front third fourth, encode bytes = front ++ [third, fourth] ∧
      (third = padding ↔ bytes.length % 3 = 1) ∧ (fourth = padding ↔ bytes.length % 3 ≠ 0) := by
  induction bytes using encode.induct with
  | case1 => exact absurd rfl nonempty
  | case2 first => exact ⟨[_, _], padding, padding, encode_one first, by simp, by simp⟩
  | case3 first second =>
      have byte := second.toNat_lt
      have symbol := symbol_ne_padding (second.toNat % 16 * 4) (by omega)
      exact ⟨[_, _], _, _, encode_two first second, by simp [symbol], by simp⟩
  | case4 first second third rest induction =>
      have byte := third.toNat_lt
      rw [encode_three]
      cases rest with
      | nil =>
          have symbolThird :=
            symbol_ne_padding (second.toNat % 16 * 4 + third.toNat / 64) (by omega)
          have symbolFourth := symbol_ne_padding (third.toNat % 64) (by omega)
          exact ⟨[_, _], _, _, rfl, by simp [symbolThird], by simp [symbolFourth]⟩
      | cons next rest =>
          obtain ⟨front, third', fourth', split, short, full⟩ := induction (List.cons_ne_nil _ _)
          refine ⟨_ :: _ :: _ :: _ :: front, third', fourth', by rw [split]; rfl, ?_, ?_⟩
          · rw [short]
            simp only [List.length_cons]
            omega
          · rw [full]
            simp only [List.length_cons]
            omega

end MqttClient.Foundation.Rfc4648
