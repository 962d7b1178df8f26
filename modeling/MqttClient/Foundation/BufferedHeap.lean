import Mathlib.Data.List.Basic
import Mathlib.Logic.Function.Basic
import Mathlib.Tactic.Common

/-! # A heap beside a buffer

Memory that consists of one buffer, which is filled again and again, and of blocks that are
allocated and freed. What lies in a block does not depend on the buffer.
-/

namespace MqttClient.Foundation

inductive Pointer
  | buffer (offset : Nat)
  | block (address : Nat)
  deriving DecidableEq, Repr

structure BufferedHeap (β : Type) where
  buffer : List β
  blocks : Nat → Option (List β)
  next : Nat
  unused : ∀ address, next ≤ address → blocks address = none

namespace BufferedHeap

variable {β : Type} {heap : BufferedHeap β} {count : Nat} {pointer : Pointer}
  {block bytes : List β}

/-- Some elements from a pointer on; `none` outside of the memory. -/
def read (heap : BufferedHeap β) (count : Nat) : Pointer → Option (List β)
  | .buffer offset =>
      if offset + count ≤ heap.buffer.length then some ((heap.buffer.drop offset).take count)
      else none
  | .block address =>
      (heap.blocks address).bind fun block =>
        if count ≤ block.length then some (block.take count) else none

def allocate (block : List β) (heap : BufferedHeap β) : Pointer × BufferedHeap β :=
  (.block heap.next,
    { buffer := heap.buffer
      blocks := Function.update heap.blocks heap.next (some block)
      next := heap.next + 1
      unused := fun address new => by
        rw [Function.update_of_ne (by omega)]
        exact heap.unused address (by omega) })

def without (address : Nat) (heap : BufferedHeap β) : BufferedHeap β where
  buffer := heap.buffer
  blocks := Function.update heap.blocks address none
  next := heap.next
  unused other new := by rw [Function.update_apply, heap.unused other new, ite_self]

/-- Give a block back; `none` for what is not the beginning of one. -/
def free (heap : BufferedHeap β) : Pointer → Option (BufferedHeap β)
  | .buffer _ => none
  | .block address => (heap.blocks address).map fun _ => heap.without address

def refill (buffer : List β) (heap : BufferedHeap β) : BufferedHeap β :=
  { heap with buffer := buffer }

theorem length_of_read (found : heap.read count pointer = some bytes) : bytes.length = count := by
  cases pointer with
  | buffer offset =>
      rcases Option.ite_none_right_eq_some.mp found with ⟨inside, same⟩
      cases same
      rw [List.length_take, List.length_drop]
      omega
  | block address =>
      rcases Option.bind_eq_some_iff.mp found with ⟨block, _, found⟩
      rcases Option.ite_none_right_eq_some.mp found with ⟨inside, same⟩
      cases same
      exact List.length_take_of_le inside

theorem read_allocate_self (block : List β) (heap : BufferedHeap β) :
    (heap.allocate block).2.read block.length (heap.allocate block).1 = some block := by
  simp [read, allocate]

theorem lt_next_of_read {address : Nat} (found : heap.read count (.block address) = some bytes) :
    address < heap.next := by
  rcases Option.bind_eq_some_iff.mp found with ⟨block, here, _⟩
  by_contra new
  rw [heap.unused address (by omega)] at here
  cases here

theorem read_allocate (found : heap.read count pointer = some bytes) :
    (heap.allocate block).2.read count pointer = some bytes := by
  cases pointer with
  | buffer offset => exact found
  | block address =>
      rw [← found, read, read, allocate]
      dsimp only
      rw [Function.update_of_ne (Nat.ne_of_lt (lt_next_of_read found))]

theorem allocate_ne (found : heap.read count pointer = some bytes) :
    pointer ≠ (heap.allocate block).1 := by
  rintro rfl
  exact Nat.lt_irrefl _ (lt_next_of_read found)

theorem free_block {address : Nat} (found : heap.read count (.block address) = some bytes) :
    heap.free (.block address) = some (heap.without address) := by
  rcases Option.bind_eq_some_iff.mp found with ⟨block, here, _⟩
  rw [free, here]
  rfl

theorem read_without {address : Nat} (different : pointer ≠ .block address) :
    (heap.without address).read count pointer = heap.read count pointer := by
  cases pointer with
  | buffer offset => rfl
  | block place =>
      rw [read, read, without]
      dsimp only
      rw [Function.update_of_ne fun same => different (congrArg Pointer.block same)]

theorem read_refill_block (buffer : List β) (heap : BufferedHeap β) (count address : Nat) :
    (heap.refill buffer).read count (.block address) = heap.read count (.block address) := rfl

end BufferedHeap

end MqttClient.Foundation
