import MqttClient.KeyedList

/-! # Searches that may fail

`ListFindItem` with a callback that is undefined for some contents: it reads memory that is not
there.
-/

namespace MqttClient.LinkedList

section Search

variable {α : Type} {callback : α → Option Bool} {elements : List (ListElement α)}
  {list : LinkedList α}

/-- The search of `ListFindItem` from the first element on. -/
def searchPartial (callback : α → Option Bool) :
    List (ListElement α) → Option (Option (ListElement α))
  | [] => some none
  | element :: later => (callback element.value).bind fun accepted =>
      if accepted then some (some element) else searchPartial callback later

/-- What `ListFindItem` finds. -/
def findItemPartial (list : LinkedList α) (callback : α → Option Bool) :
    Option (Option (ListElement α)) :=
  match list.currentElement with
  | some element => (callback element.value).bind fun accepted =>
      if accepted then some (some element) else searchPartial callback list.elements
  | none => searchPartial callback list.elements

variable [DecidableEq α]

def Shielded (callback : α → Option Bool) (values : List α) (value : α) : Prop :=
  ∃ other ∈ values, callback other = some true ∧ values.idxOf other < values.idxOf value

instance (callback : α → Option Bool) (values : List α) (value : α) :
    Decidable (Shielded callback values value) :=
  inferInstanceAs (Decidable (∃ other ∈ values, _))

/-- The search of `ListFindItem` ends before it comes to a value. -/
def Sheltered (callback : α → Option Bool) (list : LinkedList α) (value : α) : Prop :=
  match list.currentElement with
  | some element => element.value ≠ value ∧
      (callback element.value = some true ∨ Shielded callback list.values value)
  | none => Shielded callback list.values value

instance (callback : α → Option Bool) (list : LinkedList α) (value : α) :
    Decidable (Sheltered callback list value) := by
  unfold Sheltered
  split <;> infer_instance

theorem Shielded.tail {head : α} {values : List α} {value : α}
    (shielded : Shielded callback (head :: values) value) (rejected : callback head ≠ some true) :
    head ≠ value ∧ Shielded callback values value := by
  rcases shielded with ⟨other, member, accepted, earlier⟩
  have different : head ≠ other := fun same => rejected (same ▸ accepted)
  have behind : head ≠ value := by
    rintro rfl
    rw [List.idxOf_cons_self] at earlier
    exact Nat.not_lt_zero _ earlier
  rw [List.idxOf_cons_ne _ different, List.idxOf_cons_ne _ behind] at earlier
  exact ⟨behind, other, List.mem_of_ne_of_mem (Ne.symm different) member, accepted,
    Nat.lt_of_succ_lt_succ earlier⟩

end Search

end MqttClient.LinkedList
