import Mathlib.Data.List.Basic
import Mathlib.Tactic.Common

/-! # Masking

Bytes combined with a stream of key bytes by exclusive or, from some position of the stream
on.
-/

namespace MqttClient.Foundation

def mask (stream : Nat → UInt8) : (index : Nat) → List UInt8 → List UInt8
  | _, [] => []
  | index, byte :: bytes => (byte ^^^ stream index) :: mask stream (index + 1) bytes

section Mask

variable {stream : Nat → UInt8} {index : Nat} {bytes more : List UInt8}

@[simp] theorem length_mask : (mask stream index bytes).length = bytes.length := by
  induction bytes generalizing index with
  | nil => rfl
  | cons byte bytes induction => rw [mask, List.length_cons, List.length_cons, induction]

theorem mask_append : mask stream index (bytes ++ more) =
    mask stream index bytes ++ mask stream (index + bytes.length) more := by
  induction bytes generalizing index with
  | nil => rfl
  | cons byte bytes induction =>
      rw [List.cons_append, mask, mask, induction, List.cons_append, List.length_cons,
        Nat.add_assoc, Nat.add_comm 1]

@[simp] theorem mask_mask : mask stream index (mask stream index bytes) = bytes := by
  induction bytes generalizing index with
  | nil => rfl
  | cons byte bytes induction =>
      rw [mask, mask, induction, UInt8.xor_assoc, UInt8.xor_self, UInt8.xor_zero]

@[simp] theorem mask_zero : mask (fun _ => 0) index bytes = bytes := by
  induction bytes generalizing index with
  | nil => rfl
  | cons byte bytes induction => rw [mask, induction, UInt8.xor_zero]

theorem mask_eq_self_iff :
    mask stream index bytes = bytes ↔ ∀ i < bytes.length, stream (index + i) = 0 := by
  induction bytes generalizing index with
  | nil => exact iff_of_true rfl fun i inside => absurd inside (Nat.not_lt_zero i)
  | cons byte bytes induction =>
      have first : byte ^^^ stream index = byte ↔ stream index = 0 := by
        have cancel : byte ^^^ stream index = byte ^^^ 0 ↔ stream index = 0 :=
          UInt8.xor_right_inj byte
        rwa [UInt8.xor_zero] at cancel
      rw [mask, List.cons.injEq, first, induction, List.length_cons]
      constructor
      · rintro ⟨here, later⟩ i inside
        cases i with
        | zero => exact here
        | succ i =>
            rw [Nat.add_comm i, ← Nat.add_assoc]
            exact later i (Nat.lt_of_succ_lt_succ inside)
      · intro all
        refine ⟨all 0 (Nat.succ_pos _), fun i inside => ?_⟩
        rw [Nat.add_assoc, Nat.add_comm 1]
        exact all (i + 1) (Nat.succ_lt_succ inside)

theorem mask_parts_eq_iff (stream : Nat → UInt8) (front middle back : List UInt8) :
    mask stream 0 front ++ (middle ++ mask stream front.length back) =
        front ++ (middle ++ back) ↔
      ∀ i < front.length + back.length, stream i = 0 := by
  rw [List.append_eq_append_iff_of_size_eq_left length_mask, List.append_right_inj,
    mask_eq_self_iff, mask_eq_self_iff]
  constructor
  · rintro ⟨first, last⟩ i inside
    by_cases early : i < front.length
    · have here := first i early
      rwa [Nat.zero_add] at here
    · have here := last (i - front.length) (by omega)
      rwa [Nat.add_sub_cancel' (Nat.le_of_not_lt early)] at here
  · intro all
    refine ⟨fun i inside => ?_, fun i inside => all _ (by omega)⟩
    rw [Nat.zero_add]
    exact all i (by omega)

end Mask

end MqttClient.Foundation
