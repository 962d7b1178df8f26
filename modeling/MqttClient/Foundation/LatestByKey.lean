import Mathlib.Data.List.Induction
import Mathlib.Data.List.Nodup
import Mathlib.Tactic.Common

/-! # The latest item of each key

Items that arrive one after the other, where each takes the place of the one that has its
key. What is left stands in the order in which the keys came first.
-/

namespace MqttClient.Foundation

variable {α β κ : Type} [DecidableEq κ] {key : α → κ} {item new : α} {items : List α}

def upsert (key : α → κ) (new : α) : List α → List α
  | [] => [new]
  | item :: items => if key item = key new then new :: items else item :: upsert key new items

def gathered (key : α → κ) (items : List α) : List α :=
  items.foldl (fun kept item => upsert key item kept) []

def latest (key : α → κ) (wanted : κ) (items : List α) : Option α :=
  (items.filter fun item => key item = wanted).getLast?

theorem map_key_upsert (key : α → κ) (new : α) (items : List α) :
    (upsert key new items).map key =
      if key new ∈ items.map key then items.map key else items.map key ++ [key new] := by
  induction items with
  | nil => rfl
  | cons item items induction =>
      rw [upsert, List.map_cons]
      by_cases same : key item = key new
      · rw [if_pos same, if_pos (List.mem_cons.mpr (.inl same.symm)), List.map_cons, same]
      · have elsewhere : key new ∈ key item :: items.map key ↔ key new ∈ items.map key := by
          rw [List.mem_cons]
          exact or_iff_right (Ne.symm same)
        rw [if_neg same, List.map_cons, induction]
        simp only [elsewhere]
        split <;> rfl

theorem nodup_upsert (nodup : (items.map key).Nodup) (new : α) :
    ((upsert key new items).map key).Nodup := by
  rw [map_key_upsert]
  split
  · exact nodup
  · rename_i absent
    rw [List.nodup_append]
    refine ⟨nodup, List.nodup_singleton _, fun left member right here => ?_⟩
    rw [List.mem_singleton.mp here]
    exact fun same => absent (same ▸ member)

theorem mem_upsert (nodup : (items.map key).Nodup) :
    item ∈ upsert key new items ↔ item = new ∨ item ∈ items ∧ key item ≠ key new := by
  induction items with
  | nil => simp [upsert]
  | cons other items induction =>
      have parts := List.nodup_cons.mp nodup
      rw [upsert]
      by_cases same : key other = key new
      · have rest : item ∈ items → key item ≠ key new := fun member equal =>
          parts.1 (same.trans equal.symm ▸ List.mem_map_of_mem member)
        rw [if_pos same, List.mem_cons, List.mem_cons]
        refine or_congr_right ⟨fun member => ⟨.inr member, rest member⟩, ?_⟩
        rintro ⟨rfl | member, different⟩
        · exact absurd same different
        · exact member
      · rw [if_neg same, List.mem_cons, List.mem_cons, induction parts.2]
        constructor
        · rintro (rfl | rfl | ⟨member, different⟩)
          · exact .inr ⟨.inl rfl, same⟩
          · exact .inl rfl
          · exact .inr ⟨.inr member, different⟩
        · rintro (rfl | ⟨rfl | member, different⟩)
          · exact .inr (.inl rfl)
          · exact .inl rfl
          · exact .inr (.inr ⟨member, different⟩)

theorem upsert_map {f : α → β} {other : β → κ} (keeps : ∀ item, other (f item) = key item)
    (new : α) (items : List α) :
    upsert other (f new) (items.map f) = (upsert key new items).map f := by
  induction items with
  | nil => rfl
  | cons item items induction =>
      rw [List.map_cons, upsert, upsert, keeps, keeps, induction]
      split <;> rfl

theorem upsert_of_not_mem (absent : key new ∉ items.map key) :
    upsert key new items = items ++ [new] := by
  induction items with
  | nil => rfl
  | cons item items induction =>
      rw [List.map_cons, List.mem_cons, not_or] at absent
      rw [upsert, if_neg (Ne.symm absent.1), induction absent.2]
      rfl

theorem gathered_concat (key : α → κ) (items : List α) (item : α) :
    gathered key (items ++ [item]) = upsert key item (gathered key items) :=
  List.foldl_append ..

theorem map_key_gathered (key : α → κ) (items : List α) :
    (gathered key items).map key = (items.map key).eraseDups := by
  induction items using List.reverseRecOn with
  | nil => rfl
  | append_singleton items item induction =>
      have last : [key item].removeAll (items.map key) =
          if key item ∈ items.map key then [] else [key item] := by
        rw [List.removeAll, List.filter_singleton]
        by_cases member : key item ∈ items.map key
        · rw [if_pos member]
          simp only [List.elem_eq_mem, member, decide_true, Bool.not_true]
          rfl
        · rw [if_neg member]
          simp only [List.elem_eq_mem, member, decide_false, Bool.not_false]
          rfl
      rw [gathered_concat, map_key_upsert, induction, List.map_append, List.map_singleton,
        List.eraseDups_append, last]
      simp only [List.mem_eraseDups]
      split
      · rw [List.eraseDups_nil, List.append_nil]
      · rfl

theorem nodup_gathered (key : α → κ) (items : List α) : ((gathered key items).map key).Nodup := by
  induction items using List.reverseRecOn with
  | nil => exact List.nodup_nil
  | append_singleton items item induction =>
      rw [gathered_concat]
      exact nodup_upsert induction item

theorem latest_concat (key : α → κ) (wanted : κ) (items : List α) (item : α) :
    latest key wanted (items ++ [item]) =
      if key item = wanted then some item else latest key wanted items := by
  rw [latest, List.filter_append, List.filter_singleton]
  by_cases same : key item = wanted
  · simp [same]
  · simp [same, latest]

theorem mem_gathered : item ∈ gathered key items ↔ latest key (key item) items = some item := by
  induction items using List.reverseRecOn with
  | nil => simp [gathered, latest]
  | append_singleton items last induction =>
      rw [gathered_concat, mem_upsert (nodup_gathered key items), latest_concat, induction]
      by_cases same : key last = key item
      · rw [if_pos same, Option.some.injEq]
        refine ⟨?_, fun equal => .inl equal.symm⟩
        rintro (rfl | ⟨_, different⟩)
        · rfl
        · exact absurd same.symm different
      · rw [if_neg same]
        refine ⟨?_, fun found => .inr ⟨found, Ne.symm same⟩⟩
        rintro (rfl | ⟨found, _⟩)
        · exact absurd rfl same
        · exact found

theorem mem_of_latest {wanted : κ} (found : latest key wanted items = some item) :
    item ∈ items ∧ key item = wanted := by
  have member := List.mem_filter.mp (List.mem_of_getLast? found)
  exact ⟨member.1, of_decide_eq_true member.2⟩

theorem mem_of_mem_gathered (member : item ∈ gathered key items) : item ∈ items :=
  (mem_of_latest (mem_gathered.mp member)).1

end MqttClient.Foundation
