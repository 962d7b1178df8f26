import Mathlib.Logic.Function.Iterate
import Mathlib.Tactic.Common

/-! # Searching a cycle for a free element

A search that follows a successor function from a candidate on. It stops at the
first element that is not used, and gives up when the next element to try is the
one at which it has to stop.
-/

namespace MqttClient.Foundation

variable {α : Type} [DecidableEq α]

/-- The result of the search, `none` within for giving up; `none` when the fuel does
not suffice. -/
def firstFree (next : α → α) (used : α → Bool) (stop : α) : Nat → α → Option (Option α)
  | 0, _ => none
  | fuel + 1, candidate =>
      if used candidate then
        if next candidate = stop then some none
        else firstFree next used stop fuel (next candidate)
      else some (some candidate)

variable {next : α → α} {used : α → Bool} {stop candidate : α} {fuel : Nat}

theorem firstFree_found {result : α}
    (found : firstFree next used stop fuel candidate = some (some result)) :
    used result = false ∧ (result = candidate ∨ result ≠ stop) ∧
      ∃ steps, result = next^[steps] candidate := by
  induction fuel generalizing candidate with
  | zero => cases found
  | succ fuel induction =>
      rw [firstFree] at found
      split at found
      · split at found
        · cases found
        · rename_i notStop
          rcases induction found with ⟨free, place, steps, reached⟩
          refine ⟨free, .inr ?_, steps + 1, by rw [reached, Function.iterate_succ_apply]⟩
          rcases place with rfl | different
          · exact notStop
          · exact different
      · rename_i free
        cases found
        exact ⟨by simpa using free, .inl rfl, 0, rfl⟩

theorem firstFree_first {result : α}
    (found : firstFree next used stop fuel candidate = some (some result)) :
    ∃ steps < fuel, result = next^[steps] candidate ∧ used result = false ∧
      ∀ step < steps, used (next^[step] candidate) = true := by
  induction fuel generalizing candidate with
  | zero => cases found
  | succ fuel induction =>
      rw [firstFree] at found
      split at found
      · rename_i taken
        split at found
        · cases found
        · rcases induction found with ⟨steps, within, reached, free, before⟩
          refine ⟨steps + 1, Nat.succ_lt_succ within, reached, free, fun step earlier => ?_⟩
          cases step with
          | zero => exact taken
          | succ step => exact before step (Nat.lt_of_succ_lt_succ earlier)
      · rename_i free
        cases found
        exact ⟨0, Nat.succ_pos fuel, rfl, by simpa using free, fun step none =>
          absurd none (Nat.not_lt_zero step)⟩

theorem firstFree_exhausted (gaveUp : firstFree next used stop fuel candidate = some none) :
    ∃ steps, next^[steps + 1] candidate = stop ∧
      ∀ step ≤ steps, used (next^[step] candidate) = true := by
  induction fuel generalizing candidate with
  | zero => cases gaveUp
  | succ fuel induction =>
      rw [firstFree] at gaveUp
      split at gaveUp
      · rename_i taken
        split at gaveUp
        · rename_i stops
          refine ⟨0, stops, fun step within => ?_⟩
          rw [Nat.le_zero.mp within]
          exact taken
        · rcases induction gaveUp with ⟨steps, reached, all⟩
          refine ⟨steps + 1, reached, fun step within => ?_⟩
          cases step with
          | zero => exact taken
          | succ step => exact all step (Nat.le_of_succ_le_succ within)
      · cases gaveUp

theorem firstFree_isSome {steps : Nat} (reached : next^[steps + 1] candidate = stop)
    (enough : steps < fuel) : ∃ result, firstFree next used stop fuel candidate = some result := by
  induction fuel generalizing candidate steps with
  | zero => omega
  | succ fuel induction =>
      rw [firstFree]
      split
      · split
        · exact ⟨none, rfl⟩
        · rename_i notStop
          cases steps with
          | zero => exact (notStop reached).elim
          | succ steps => exact induction reached (by omega)
      · exact ⟨some candidate, rfl⟩

end MqttClient.Foundation
