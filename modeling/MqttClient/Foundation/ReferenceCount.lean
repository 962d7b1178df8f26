import Mathlib.Data.List.Count
import Mathlib.Data.List.Perm.Basic
import Mathlib.Logic.Function.Basic
import Mathlib.Tactic.Common

/-! # Reference counts

A store of counted records, seen as a partial function from their addresses to their
counts, and the references to them, in any order. The counts are exact when they are
determined by the references.
-/

namespace MqttClient.Foundation

variable {κ : Type} [DecidableEq κ] {counts : κ → Option Int} {record : κ}
  {references others : List κ}

def Counted (counts : κ → Option Int) (references : List κ) : Prop :=
  ∀ record, counts record =
    if record ∈ references then some (references.count record : Int) else none

def release (record : κ) (counts : κ → Option Int) : κ → Option Int :=
  Function.update counts record
    ((counts record).bind fun count => if count - 1 = 0 then none else some (count - 1))

theorem Counted.perm (counted : Counted counts references) (perm : references.Perm others) :
    Counted counts others := by
  intro record
  rw [counted record, perm.count_eq]
  simp only [perm.mem_iff]

theorem Counted.of_mem (counted : Counted counts references) (member : record ∈ references) :
    counts record = some (references.count record : Int) := by
  rw [counted record, if_pos member]

theorem Counted.mem (counted : Counted counts references) {count : Int}
    (here : counts record = some count) :
    record ∈ references ∧ count = references.count record := by
  rw [counted record] at here
  split at here
  · rename_i member
    exact ⟨member, (Option.some.inj here).symm⟩
  · cases here

theorem Counted.create (counted : Counted counts references) (fresh : counts record = none) :
    Counted (Function.update counts record (some 1)) (record :: references) := by
  have unreferred : record ∉ references := by
    intro member
    rw [counted.of_mem member] at fresh
    cases fresh
  intro other
  by_cases here : other = record
  · subst here
    rw [Function.update_self, if_pos List.mem_cons_self, List.count_cons_self,
      List.count_eq_zero_of_not_mem unreferred]
    rfl
  · rw [Function.update_of_ne here, counted other, List.count_cons_of_ne (Ne.symm here)]
    simp [here]

theorem Counted.release (counted : Counted counts (record :: references)) :
    Counted (release record counts) references := by
  intro other
  rw [Foundation.release]
  by_cases here : other = record
  · subst here
    rw [Function.update_self, counted.of_mem List.mem_cons_self, List.count_cons_self,
      Option.bind_some]
    by_cases member : other ∈ references
    · have positive := List.count_pos_iff.mpr member
      rw [if_pos member, if_neg (by omega)]
      congr 1
      omega
    · rw [if_neg member, List.count_eq_zero_of_not_mem member]
      rfl
  · rw [Function.update_of_ne here, counted other, List.count_cons_of_ne (Ne.symm here)]
    simp [here]

end MqttClient.Foundation
