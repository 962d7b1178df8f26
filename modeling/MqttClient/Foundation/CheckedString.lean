import MqttClient.Foundation.CString
import MqttClient.Foundation.CheckedMemory

/-! # Strings in checked memory

Functions of the C library that go through memory up to the byte that decides. What is behind
it is not read, so that a count may be larger than the memory.
-/

namespace MqttClient.Foundation.CheckedString

open CheckedMemory CString

def ascii (text : String) : List UInt8 := text.toList.map Char.toUInt8

def toLower (character : UInt8) : UInt8 :=
  if 65 ≤ character ∧ character ≤ 90 then character + 32 else character

/-- The index of the first such character among `count` bytes. -/
def memchr (block : List UInt8) (character : UInt8) :
    (start count : Nat) → Except Fault (Option Nat)
  | _, 0 => .ok none
  | start, count + 1 => do
      let byte ← readAt block start
      if byte = character then return some start
      else memchr block character (start + 1) count

/-- Whether two strings agree in `count` characters, or up to the end of both. -/
def compare (fold : UInt8 → UInt8) :
    (first second : List UInt8) → (count : Nat) → Except Fault Bool
  | _, _, 0 => .ok true
  | first, second, count + 1 => do
      let a ← readAt first 0
      let b ← readAt second 0
      if fold a = fold b ∧ a ≠ 0 then compare fold first.tail second.tail count
      else return decide (fold a = fold b)

/-- Whether `strncmp` gives zero. -/
def strncmp (first second : List UInt8) (count : Nat) : Except Fault Bool :=
  compare id first second count

/-- Whether `strncasecmp` gives zero. -/
def strncasecmp (first second : List UInt8) (count : Nat) : Except Fault Bool :=
  compare toLower first second count

section Search

variable {block : List UInt8} {character : UInt8}

theorem memchr_eq {start count : Nat}
    (safe : start + count ≤ block.length ∨ character ∈ block.drop start) :
    memchr block character start count =
      .ok ((strchr ((block.drop start).take count) character).map (· + start)) := by
  induction count generalizing start with
  | zero => rfl
  | succ count induction =>
      have inside : start < block.length := by
        cases safe with
        | inl whole => omega
        | inr ends =>
            by_contra outside
            rw [List.drop_of_length_le (Nat.le_of_not_lt outside)] at ends
            exact List.not_mem_nil ends
      rw [memchr, readAt_of_lt inside, ok_bind, List.drop_eq_getElem_cons inside,
        List.take_succ_cons, strchr_cons]
      by_cases here : block[start] = character
      · rw [if_pos here, if_pos here, Option.map_some, Nat.zero_add]
        rfl
      · have rest : start + 1 + count ≤ block.length ∨ character ∈ block.drop (start + 1) := by
          cases safe with
          | inl whole => exact .inl (by omega)
          | inr ends =>
              rw [List.drop_eq_getElem_cons inside, List.mem_cons] at ends
              exact .inr (ends.resolve_left fun same => here same.symm)
        rw [if_neg here, if_neg here, induction rest, Option.map_map]
        congr 2
        funext index
        exact (Nat.add_right_comm index 1 start).symm

end Search

section Compare

variable {fold : UInt8 → UInt8} {first second : List UInt8}

theorem compare_eq {name more : List UInt8} (text : 0 ∉ name)
    (zero : ∀ character, fold character = fold 0 ↔ character = 0) {count : Nat}
    (inside : count ≤ first.length) :
    compare fold first (name ++ 0 :: more) count =
      .ok (decide ((first.take count).map fold <+: name.map fold ∨
        (name ++ [0]).map fold <+: (first.take count).map fold)) := by
  induction count generalizing first name with
  | zero => simp [compare]
  | succ count induction =>
      cases first with
      | nil => exact absurd inside (Nat.not_succ_le_zero count)
      | cons a first =>
          have rest : count ≤ first.length := Nat.le_of_succ_le_succ inside
          cases name with
          | nil =>
              by_cases last : a = 0
              · simp [compare, readAt, last, pure, Except.pure]
              · have differ : ¬ fold 0 = fold a := fun same => last ((zero a).mp same.symm)
                simp [compare, readAt, last, zero, differ, pure, Except.pure]
          | cons b name =>
              have later : 0 ∉ name := fun member => text (List.mem_cons_of_mem b member)
              have other : ¬ b = 0 := fun same => text (same ▸ List.mem_cons_self)
              rw [compare]
              by_cases same : fold a = fold b
              · have more : a ≠ 0 := fun last =>
                  other ((zero b).mp (same.symm.trans (congrArg fold last)))
                simp [readAt, induction later rest, same, more]
              · have differ : ¬ fold b = fold a := fun turned => same turned.symm
                simp [readAt, same, differ, pure, Except.pure]

theorem toLower_zero (character : UInt8) : toLower character = toLower 0 ↔ character = 0 := by
  have value : toLower 0 = 0 := rfl
  rw [value, toLower]
  by_cases upper : 65 ≤ character ∧ character ≤ 90
  · rw [if_pos upper]
    rw [UInt8.le_iff_toNat_le, UInt8.le_iff_toNat_le] at upper
    simp only [← UInt8.toNat_inj, UInt8.toNat_add, UInt8.reduceToNat] at upper ⊢
    omega
  · rw [if_neg upper]

theorem compare_whole {name : List UInt8} (text : 0 ∉ name)
    (zero : ∀ character, fold character = fold 0 ↔ character = 0)
    (inside : name.length ≤ first.length) :
    compare fold first (name ++ [0]) name.length =
      .ok (decide ((first.take name.length).map fold = name.map fold)) := by
  have length : ((first.take name.length).map fold).length = (name.map fold).length := by
    rw [List.length_map, List.length_take_of_le inside, List.length_map]
  have shorter : ¬ (name ++ [0]).map fold <+: (first.take name.length).map fold := by
    intro longer
    have bound := longer.length_le
    rw [length, List.length_map, List.length_map, List.length_append] at bound
    exact Nat.not_succ_le_self _ bound
  have whole : (first.take name.length).map fold <+: name.map fold ↔
      (first.take name.length).map fold = name.map fold :=
    ⟨fun front => front.eq_of_length length, fun same => same ▸ List.prefix_rfl⟩
  rw [compare_eq text zero inside]
  simp only [shorter, or_false, whole]

theorem strncasecmp_whole {name : List UInt8} (text : 0 ∉ name)
    (inside : name.length ≤ first.length) :
    strncasecmp first (name ++ [0]) name.length =
      .ok (decide ((first.take name.length).map toLower = name.map toLower)) :=
  compare_whole text toLower_zero inside

theorem strncmp_whole {name : List UInt8} (text : 0 ∉ name) (inside : name.length ≤ first.length) :
    strncmp first (name ++ [0]) name.length = .ok (decide (first.take name.length = name)) := by
  have same : compare id first (name ++ [0]) name.length = _ :=
    compare_whole text (fun _ => Iff.rfl) inside
  rw [List.map_id, List.map_id] at same
  exact same

theorem strncmp_eq {name more : List UInt8} (text : 0 ∉ name) {count : Nat}
    (inside : count ≤ first.length) :
    strncmp first (name ++ 0 :: more) count =
      .ok (decide (first.take count <+: name ∨ name ++ [0] <+: first.take count)) := by
  have same : compare id first (name ++ 0 :: more) count = _ :=
    compare_eq text (fun _ => Iff.rfl) inside
  rw [List.map_id', List.map_id', List.map_id'] at same
  exact same

theorem strncmp_differs {a b : UInt8} (differ : a ≠ b) (count : Nat) :
    strncmp (a :: first) (b :: second) (count + 1) = .ok false := by
  simp [strncmp, compare, readAt, differ, pure, Except.pure]

end Compare

end MqttClient.Foundation.CheckedString
