import Mathlib.Data.List.Basic
import Mathlib.Tactic.Common

/-! # Non-blocking receive sources

What one connection will deliver to a non-blocking receiver, as the script of
its future events: segments of data, moments at which nothing is there yet, an
orderly end, failures. Every way of cutting a byte stream into reads is one
script, so a statement over all scripts is a statement over all schedules.
-/

namespace MqttClient.Foundation

/-- One event of a receive script. `failed` is any error but that of a receive
that would have to wait. -/
inductive RecvEvent (α : Type)
  | data (bytes : List α)
  | wouldBlock
  | endOfFile
  | failed
  deriving DecidableEq, Repr

namespace RecvEvent

def bytes : RecvEvent α → List α
  | .data bytes => bytes
  | _ => []

/-- Neither an end of file nor a failure. -/
def Healthy : RecvEvent α → Prop
  | .data _ => True
  | .wouldBlock => True
  | .endOfFile => False
  | .failed => False

end RecvEvent

/-- The events a connection still has in store, the next one first. -/
abbrev RecvSource (α : Type) := List (RecvEvent α)

namespace RecvSource

def bytes (source : RecvSource α) : List α := source.flatMap RecvEvent.bytes

/-- A source that only delivers bytes or makes the receiver wait. -/
def Healthy (source : RecvSource α) : Prop := ∀ event ∈ source, event.Healthy

def size : RecvSource α → Nat
  | [] => 0
  | event :: rest => event.bytes.length + 1 + size rest

def ready : RecvSource α → Nat
  | .data [] :: rest => ready rest
  | .data (byte :: more) :: _ => (byte :: more).length
  | _ => 0

def putBack : List α → RecvSource α → RecvSource α
  | [], source => source
  | byte :: left, source => .data (byte :: left) :: source

/-- Receive at most `count` bytes. A segment gives as many bytes as were asked
for and keeps the others; an exhausted source makes the receiver wait. -/
def recv (count : Nat) : RecvSource α → RecvEvent α × RecvSource α
  | [] => (.wouldBlock, [])
  | .data [] :: rest => recv count rest
  | .data (byte :: more) :: rest =>
      (.data ((byte :: more).take count), putBack ((byte :: more).drop count) rest)
  | event :: rest => (event, rest)

@[simp] theorem bytes_nil : bytes ([] : RecvSource α) = [] := rfl

@[simp] theorem bytes_cons (event : RecvEvent α) (rest : RecvSource α) :
    bytes (event :: rest) = event.bytes ++ bytes rest := by
  simp [bytes]

@[simp] theorem bytes_putBack (left : List α) (source : RecvSource α) :
    bytes (putBack left source) = left ++ bytes source := by
  cases left <;> simp [putBack, RecvEvent.bytes]

theorem size_putBack_le (left : List α) (source : RecvSource α) :
    size (putBack left source) ≤ left.length + 1 + size source := by
  cases left with
  | nil => simp only [putBack]; omega
  | cons byte left => simp [putBack, size, RecvEvent.bytes]

theorem Healthy.of_cons {event : RecvEvent α} {rest : RecvSource α}
    (healthy : Healthy (event :: rest)) : Healthy rest :=
  fun item member => healthy item (List.mem_cons_of_mem _ member)

theorem Healthy.putBack {source : RecvSource α} (healthy : Healthy source)
    (left : List α) : Healthy (putBack left source) := by
  cases left with
  | nil => exact healthy
  | cons byte left =>
      intro item member
      rcases List.mem_cons.mp member with rfl | member
      · trivial
      · exact healthy item member

theorem recv_data {source rest : RecvSource α} {count : Nat} {bytes : List α}
    (positive : 0 < count) (received : source.recv count = (.data bytes, rest)) :
    bytes ≠ [] ∧ bytes.length ≤ count ∧ source.bytes = bytes ++ rest.bytes ∧
      rest.size < source.size := by
  induction source with
  | nil => simp [recv] at received
  | cons event source induction =>
      cases event with
      | data segment =>
          cases segment with
          | nil =>
              rcases induction (by simpa [recv] using received) with
                ⟨nonempty, bounded, conserved, smaller⟩
              refine ⟨nonempty, bounded, by simpa [RecvEvent.bytes] using conserved, ?_⟩
              simp only [size]
              omega
          | cons byte more =>
              simp only [recv, Prod.mk.injEq, RecvEvent.data.injEq] at received
              rcases received with ⟨rfl, rfl⟩
              have smaller := size_putBack_le ((byte :: more).drop count) source
              refine ⟨by cases count <;> simp_all, List.length_take_le .., ?_, ?_⟩
              · rw [bytes_putBack, ← List.append_assoc, List.take_append_drop]
                simp [RecvEvent.bytes]
              · simp only [size, RecvEvent.bytes, List.length_drop,
                  List.length_cons] at smaller ⊢
                omega
      | wouldBlock => simp [recv] at received
      | endOfFile => simp [recv] at received
      | failed => simp [recv] at received

theorem recv_bytes {source rest : RecvSource α} {count : Nat} {event : RecvEvent α}
    (received : source.recv count = (event, rest)) :
    source.bytes = event.bytes ++ rest.bytes ∧ event.bytes.length ≤ count := by
  induction source with
  | nil =>
      cases received
      exact ⟨rfl, Nat.zero_le _⟩
  | cons head source induction =>
      rw [bytes_cons]
      cases head with
      | data segment =>
          cases segment with
          | nil => exact induction received
          | cons byte more =>
              cases received
              refine ⟨?_, List.length_take_le ..⟩
              rw [bytes_putBack, ← List.append_assoc]
              exact congrArg (· ++ bytes source) (List.take_append_drop count _).symm
      | wouldBlock | endOfFile | failed =>
          cases received
          exact ⟨rfl, Nat.zero_le _⟩

theorem recv_wouldBlock {source rest : RecvSource α} {count : Nat}
    (received : source.recv count = (.wouldBlock, rest)) :
    source.bytes = rest.bytes ∧ (source = [] ∨ rest.size < source.size) := by
  induction source with
  | nil => simp_all [recv]
  | cons event source induction =>
      cases event with
      | data segment =>
          cases segment with
          | nil =>
              rcases induction (by simpa [recv] using received) with
                ⟨conserved, rfl | smaller⟩
              · have : rest = [] := by simpa [recv] using received.symm
                subst rest
                exact ⟨by simp [RecvEvent.bytes], .inr (by simp [size])⟩
              · refine ⟨by simpa [RecvEvent.bytes] using conserved, .inr ?_⟩
                simp only [size]
                omega
          | cons byte more => simp [recv] at received
      | wouldBlock =>
          have : rest = source := by simpa [recv] using received.symm
          subst rest
          exact ⟨by simp [RecvEvent.bytes], .inr (by simp only [size]; omega)⟩
      | endOfFile => simp [recv] at received
      | failed => simp [recv] at received

theorem recv_data_ready {source rest : RecvSource α} {count : Nat} {bytes : List α}
    (received : source.recv count = (.data bytes, rest)) :
    bytes.length = min count source.ready ∧ source.ready ≤ bytes.length + rest.ready := by
  induction source with
  | nil => cases received
  | cons event source induction =>
      cases event with
      | data segment =>
          cases segment with
          | nil => exact induction received
          | cons byte more =>
              cases received
              refine ⟨List.length_take, ?_⟩
              rw [ready]
              cases left : (byte :: more).drop count with
              | nil =>
                  have all : (byte :: more).length ≤ count := List.drop_eq_nil_iff.mp left
                  rw [List.take_of_length_le all]
                  exact Nat.le_add_right ..
              | cons first others =>
                  have split := congrArg List.length (List.take_append_drop count (byte :: more))
                  rw [left, List.length_append] at split
                  rw [putBack, ready]
                  exact Nat.le_of_eq split.symm
      | wouldBlock => cases received
      | endOfFile => cases received
      | failed => cases received

theorem ready_of_wouldBlock {source rest : RecvSource α} {count : Nat}
    (received : source.recv count = (.wouldBlock, rest)) : source.ready = 0 := by
  induction source with
  | nil => rfl
  | cons event source induction =>
      cases event with
      | data segment =>
          cases segment with
          | nil => exact induction received
          | cons byte more => cases received
      | wouldBlock | endOfFile | failed => rfl

theorem recv_unhealthy {source rest : RecvSource α} {count : Nat} {event : RecvEvent α}
    (received : source.recv count = (event, rest)) (unhealthy : ¬event.Healthy) :
    source.bytes = rest.bytes := by
  induction source with
  | nil =>
      cases received
      exact (unhealthy trivial).elim
  | cons head source induction =>
      cases head with
      | data segment =>
          cases segment with
          | nil => simpa [RecvEvent.bytes] using induction (by simpa [recv] using received)
          | cons byte more =>
              cases received
              exact (unhealthy trivial).elim
      | wouldBlock =>
          cases received
          exact (unhealthy trivial).elim
      | endOfFile =>
          cases received
          simp [RecvEvent.bytes]
      | failed =>
          cases received
          simp [RecvEvent.bytes]

theorem size_recv_le (source : RecvSource α) (count : Nat) :
    (source.recv count).2.size ≤ source.size := by
  induction source with
  | nil => exact Nat.le_refl _
  | cons event source induction =>
      cases event with
      | data segment =>
          cases segment with
          | nil => exact Nat.le_trans induction (Nat.le_add_left ..)
          | cons byte more =>
              have smaller := size_putBack_le ((byte :: more).drop count) source
              rw [List.length_drop] at smaller
              rw [recv, size, RecvEvent.bytes]
              exact Nat.le_trans smaller (by omega)
      | wouldBlock | endOfFile | failed => exact Nat.le_add_left ..

theorem recv_append_wouldBlock (source more : RecvSource α) (count : Nat) :
    (source ++ .wouldBlock :: more).recv count =
        ((source.recv count).1, (source.recv count).2 ++ .wouldBlock :: more) ∨
      source.recv count = (.wouldBlock, []) ∧
        (source ++ .wouldBlock :: more).recv count = (.wouldBlock, more) := by
  induction source with
  | nil => exact .inr ⟨rfl, rfl⟩
  | cons event source induction =>
      cases event with
      | data segment =>
          cases segment with
          | nil => exact induction
          | cons byte more =>
              refine .inl ?_
              rw [List.cons_append, recv, recv]
              cases (byte :: more).drop count <;> rfl
      | wouldBlock | endOfFile | failed => exact .inl rfl

theorem Healthy.recv {source : RecvSource α} (healthy : Healthy source)
    (count : Nat) :
    (source.recv count).1.Healthy ∧ Healthy (source.recv count).2 := by
  induction source with
  | nil => exact ⟨trivial, healthy⟩
  | cons event source induction =>
      have rest := healthy.of_cons
      have head := healthy event (List.mem_cons_self ..)
      cases event with
      | data segment =>
          cases segment with
          | nil => exact induction rest
          | cons byte more => exact ⟨trivial, rest.putBack _⟩
      | wouldBlock => exact ⟨trivial, rest⟩
      | endOfFile => exact head.elim
      | failed => exact head.elim

end RecvSource

end MqttClient.Foundation
