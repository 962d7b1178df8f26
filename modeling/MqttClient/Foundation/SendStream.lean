import Mathlib.Data.List.Basic
import Mathlib.Tactic.Common

/-! # Packets on a stream that accepts part of what is offered

A sender offers packets one after another to a stream that accepts any number of
bytes at a time. It keeps the packet that was not accepted whole, and offers
nothing else until the stream has accepted the remainder.
-/

namespace MqttClient.Foundation

/-- A packet of which the stream has accepted the first `sent` bytes. -/
structure PartialPacket (α : Type) where
  packet : List α
  sent : Nat

inductive SendsAs {α : Type} :
    List α → Option (PartialPacket α) → List (List α) → Prop
  | idle {taken : List (List α)} : SendsAs taken.flatten none taken
  | busy {front : List (List α)} {pending : PartialPacket α} :
      SendsAs (front.flatten ++ pending.packet.take pending.sent) (some pending)
        (front ++ [pending.packet])

namespace SendsAs

variable {α : Type} {accepted : List α} {taken : List (List α)}

theorem start : SendsAs ([] : List α) none [] := @idle α []

/-- What remains pending of a packet after `sent` of its bytes. -/
def remaining (packet : List α) (sent : Nat) : Option (PartialPacket α) :=
  if sent = packet.length then none else some ⟨packet, sent⟩

private theorem of_remaining (front : List (List α)) (packet : List α) (sent : Nat) :
    SendsAs (front.flatten ++ packet.take sent) (remaining packet sent)
      (front ++ [packet]) := by
  unfold remaining
  split
  · rename_i whole
    subst whole
    have flat : front.flatten ++ packet.take packet.length = (front ++ [packet]).flatten := by
      simp
    rw [flat]
    exact .idle
  · exact @busy α front ⟨packet, sent⟩

theorem submit (sends : SendsAs accepted none taken) (packet : List α) (count : Nat) :
    SendsAs (accepted ++ packet.take count) (remaining packet count) (taken ++ [packet]) := by
  cases sends
  exact of_remaining taken packet count

theorem resume {packet : List α} {sent : Nat}
    (sends : SendsAs accepted (some ⟨packet, sent⟩) taken) (count : Nat) :
    SendsAs (accepted ++ (packet.drop sent).take count) (remaining packet (sent + count))
      taken := by
  cases sends with
  | @busy front =>
      have grown := of_remaining front packet (sent + count)
      rw [List.take_add, ← List.append_assoc] at grown
      exact grown

theorem eq_of_idle (sends : SendsAs accepted none taken) : accepted = taken.flatten := by
  cases sends
  rfl

theorem eq_of_busy {pending : PartialPacket α} (sends : SendsAs accepted (some pending) taken) :
    ∃ front, taken = front ++ [pending.packet] ∧
      accepted = front.flatten ++ pending.packet.take pending.sent := by
  cases sends with
  | @busy front => exact ⟨front, rfl, rfl⟩

theorem accepted_prefix {pending : Option (PartialPacket α)}
    (sends : SendsAs accepted pending taken) : accepted <+: taken.flatten := by
  cases sends with
  | idle => exact List.prefix_refl _
  | @busy front pending =>
      rw [List.flatten_append, List.flatten_singleton]
      exact (List.prefix_append_right_inj _).mpr (List.take_prefix ..)

theorem dropLast_prefix {pending : Option (PartialPacket α)}
    (sends : SendsAs accepted pending taken) : taken.dropLast.flatten <+: accepted := by
  cases sends with
  | idle =>
      rcases List.eq_nil_or_concat' taken with rfl | ⟨front, last, rfl⟩
      · exact List.prefix_refl _
      · rw [List.dropLast_concat, List.flatten_append]
        exact List.prefix_append ..
  | @busy front pending =>
      rw [List.dropLast_concat]
      exact List.prefix_append ..

end SendsAs

end MqttClient.Foundation
