import Mathlib.Data.List.Basic
import Mathlib.Tactic.Common

/-! # Input in blocks

A state that takes in blocks of a fixed width, and an input that arrives in pieces of any length.
-/

namespace MqttClient.Foundation.BlockStream

variable {σ α : Type} {width : Nat} {step : σ → List α → σ} {state : σ}
  {first rest input more : List α}

def absorbBlocks (width : Nat) (step : σ → List α → σ) : (count : Nat) → σ → List α → σ
  | 0, state, _ => state
  | count + 1, state, input =>
      absorbBlocks width step count (step state (input.take width)) (input.drop width)

def absorb (width : Nat) (step : σ → List α → σ) (state : σ) (input : List α) : σ :=
  absorbBlocks width step (input.length / width) state input

def remainder (width : Nat) (input : List α) : List α :=
  input.drop (input.length - input.length % width)

theorem absorb_of_short (short : input.length < width) : absorb width step state input = state := by
  rw [absorb, Nat.div_eq_of_lt short]
  rfl

theorem remainder_of_short (short : input.length < width) : remainder width input = input := by
  rw [remainder, Nat.mod_eq_of_lt short, Nat.sub_self, List.drop_zero]

section Block

variable (positive : 0 < width) (block : first.length = width)
include positive block

theorem absorb_block :
    absorb width step state (first ++ rest) = absorb width step (step state first) rest := by
  have count : (first ++ rest).length / width = rest.length / width + 1 := by
    rw [List.length_append, block, Nat.add_comm, Nat.add_div_right _ positive]
  rw [absorb, count, absorbBlocks, List.take_left' block, List.drop_left' block]
  rfl

theorem remainder_block : remainder width (first ++ rest) = remainder width rest := by
  have length : (first ++ rest).length = width + rest.length := by
    rw [List.length_append, block]
  have smaller := Nat.mod_le rest.length width
  have skip : width + rest.length - rest.length % width =
      first.length + (rest.length - rest.length % width) := by omega
  rw [remainder, length, Nat.add_mod_left, skip, ← List.drop_drop, List.drop_left]
  rfl

end Block

theorem absorb_append_short (short : input.length % width + more.length < width) :
    absorb width step state (input ++ more) = absorb width step state input := by
  have positive : 0 < width := by omega
  induction length : input.length using Nat.strongRecOn generalizing input state with
  | _ length induction =>
      by_cases fits : input.length < width
      · rw [Nat.mod_eq_of_lt fits] at short
        rw [absorb_of_short fits, absorb_of_short (by rw [List.length_append]; exact short)]
      · have block : (input.take width).length = width :=
          List.length_take_of_le (Nat.not_lt.mp fits)
        have left : (input.drop width).length = input.length - width := List.length_drop
        rw [← List.take_append_drop width input, List.append_assoc, absorb_block positive block,
          absorb_block positive block]
        apply induction _ (by omega) _ rfl
        rw [left, ← Nat.mod_eq_sub_mod (Nat.not_lt.mp fits)]
        exact short

theorem absorb_append_full (positive : 0 < width)
    (full : input.length % width + more.length = width) :
    absorb width step state (input ++ more) =
      step (absorb width step state input) (remainder width input ++ more) := by
  induction length : input.length using Nat.strongRecOn generalizing input state with
  | _ length induction =>
      by_cases fits : input.length < width
      · rw [Nat.mod_eq_of_lt fits] at full
        have block : (input ++ more).length = width := by rw [List.length_append, full]
        have whole := @absorb_block _ _ width step state (input ++ more) [] positive block
        rw [List.append_nil] at whole
        rw [absorb_of_short fits, remainder_of_short fits, whole, absorb_of_short positive]
      · have block : (input.take width).length = width :=
          List.length_take_of_le (Nat.not_lt.mp fits)
        have left : (input.drop width).length = input.length - width := List.length_drop
        rw [← List.take_append_drop width input, List.append_assoc, absorb_block positive block,
          absorb_block positive block, remainder_block positive block]
        apply induction _ (by omega) _ rfl
        rw [left, ← Nat.mod_eq_sub_mod (Nat.not_lt.mp fits)]
        exact full

theorem remainder_append_short (short : input.length % width + more.length < width) :
    remainder width (input ++ more) = remainder width input ++ more := by
  have added : (input.length + more.length) % width = input.length % width + more.length := by
    rw [Nat.add_mod, Nat.mod_eq_of_lt (by omega : more.length < width), Nat.mod_eq_of_lt short]
  have smaller := Nat.mod_le input.length width
  have same : input.length + more.length - (input.length % width + more.length) =
      input.length - input.length % width := by omega
  rw [remainder, List.length_append, added, same, List.drop_append_of_le_length (by omega)]
  rfl

theorem remainder_append_full (full : input.length % width + more.length = width) :
    remainder width (input ++ more) = [] := by
  have added : (input.length + more.length) % width = 0 := by
    rw [← Nat.mod_add_mod, full, Nat.mod_self]
  rw [remainder, List.length_append, added, Nat.sub_zero]
  exact List.drop_of_length_le (Nat.le_of_eq List.length_append)

end MqttClient.Foundation.BlockStream
