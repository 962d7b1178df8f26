import Mathlib.Data.List.Basic
import Mathlib.Tactic.Common
import Mathlib.Tactic.Ring

/-! # Memory with its bounds checked

A block of memory that is only read inside, and fields that are only read once they have
been assigned.
-/

namespace MqttClient.Foundation

inductive Fault
  | outside (index : Nat)
  | unassigned
  deriving DecidableEq, Repr

namespace CheckedMemory

variable {α β : Type} {block : List α} {index count : Nat}

def readAt (block : List α) (index : Nat) : Except Fault α :=
  match block[index]? with
  | some element => .ok element
  | none => .error (.outside index)

def readBefore (block : List α) : (size : Nat) → Except Fault α
  | 0 => .error (.outside (2 ^ 64 - 1))
  | size + 1 => readAt block size

def readBlock (block : List α) : (count index : Nat) → Except Fault (List α)
  | 0, _ => .ok []
  | count + 1, index => do
      let first ← readAt block index
      let rest ← readBlock block count (index + 1)
      return first :: rest

def writeAt (block : List α) (index : Nat) (element : α) : Except Fault (List α) :=
  if index < block.length then .ok (block.set index element) else .error (.outside index)

def load : Option α → Except Fault α
  | some value => .ok value
  | none => .error .unassigned

theorem readAt_of_lt (inside : index < block.length) : readAt block index = .ok block[index] := by
  rw [readAt, List.getElem?_eq_getElem inside]

theorem readBlock_of_le (inside : index + count ≤ block.length) :
    readBlock block count index = .ok ((block.drop index).take count) := by
  induction count generalizing index with
  | zero => rfl
  | succ count induction =>
      have here : index < block.length := by omega
      rw [readBlock, readAt_of_lt here, induction (by omega), List.drop_eq_getElem_cons here,
        List.take_succ_cons]
      rfl

theorem readAt_append (before after : List α) (element : α) :
    readAt (before ++ element :: after) before.length = .ok element := by
  simp [readAt]

theorem writeAt_append (before after : List α) (old element : α) :
    writeAt (before ++ old :: after) before.length element =
      .ok (before ++ element :: after) := by
  simp [writeAt]

@[simp] theorem ok_bind (value : α) (next : α → Except Fault β) :
    (Except.ok value >>= next) = next value := rfl

theorem bind_eq_ok {first : Except Fault α} {next : α → Except Fault β} {result : β}
    (computed : first >>= next = .ok result) :
    ∃ value, first = .ok value ∧ next value = .ok result := by
  cases first with
  | error fault => cases computed
  | ok value => exact ⟨value, rfl, computed⟩

end CheckedMemory

end MqttClient.Foundation
