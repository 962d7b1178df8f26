import Mathlib.Data.List.Find
import MqttClient.LinkedList
import MqttClient.LinkedList.Refinement

/-! # Pointers and queues

The lists that the other modules work with are what the pointers in memory stand for: the
functions of `LinkedList.c` act on them as the operations of `LinkedList` do.
-/

namespace MqttClient

open Foundation.DoublyLinked

namespace PointerList

variable {α : Type}

/-- The elements in memory hold the contents of a list, and `current` is at the same one. -/
structure StandsFor (pointers : PointerList) (entries : Entries) (list : LinkedList α) :
    Prop where
  represents : pointers.Represents entries
  contents : entries.map Prod.snd = list.elements.map fun element => some element.content
  current : ∀ content, list.current = some content ↔
    ∃ address, pointers.current = some address ∧ (address, some content) ∈ entries

variable {pointers : PointerList} {entries : Entries} {list : LinkedList α}

theorem standsFor_zero (heap : Heap Nat ListPointer) :
    (zero heap).StandsFor [] (LinkedList.zero : LinkedList α) := by
  refine ⟨represents_zero heap, rfl, ?_⟩
  intro content
  simp [LinkedList.zero]

/-- `ListAppend` with a new content is `append`. -/
theorem append_simulates (stands : pointers.StandsFor entries list) (value : α) (size : Nat)
    {newel : Nat} (free : pointers.chain.heap newel = none) :
    ∃ next after, pointers.append (some list.nextContent) size (some newel) =
      some (some newel, next) ∧ next.StandsFor after (list.append value) := by
  rcases appendNoMalloc_spec stands.represents free (some list.nextContent) size with
    ⟨next, ran, represents, current, -⟩
  refine ⟨next, _, ?_, represents, ?_, ?_⟩
  · rw [append, ran]
    rfl
  · rw [List.map_append, stands.contents, LinkedList.elements_append, List.map_append]
    rfl
  · intro content
    rw [current]
    apply (stands.current content).trans
    apply exists_congr
    intro address
    apply and_congr_right
    intro here
    have inside := stands.represents.current address here
    have different : address ≠ newel := by
      rintro rfl
      exact stands.represents.fresh free inside
    simp [different]

theorem StandsFor.split {before after : Entries} {entry : Nat × ListPointer}
    (stands : pointers.StandsFor (before ++ entry :: after) list) :
    ∃ front element back, list.elements = front ++ element :: back ∧
      before.map Prod.snd = front.map (fun element => some element.content) ∧
      entry.2 = some element.content ∧
      after.map Prod.snd = back.map (fun element => some element.content) := by
  have contents := stands.contents
  rw [List.map_append, List.map_cons, eq_comm, List.map_eq_append_iff] at contents
  rcases contents with ⟨front, rest, whole, sameFront, sameRest⟩
  rcases List.map_eq_cons_iff.mp sameRest with ⟨element, back, rfl, same, sameBack⟩
  exact ⟨front, element, back, whole, sameFront.symm, same.symm, sameBack.symm⟩

/-- `ListInsert` with a new content is `insertBefore`. -/
theorem insert_simulates {before after : Entries} {entry : Nat × ListPointer}
    (stands : pointers.StandsFor (before ++ entry :: after) list) (value : α) (size : Nat)
    {newel : Nat} (free : pointers.chain.heap newel = none) :
    ∃ next content after', entry.2 = some content ∧
      pointers.insert (some list.nextContent) size (some entry.1) (some newel) =
        some (some newel, next) ∧
      next.StandsFor after' (list.insertBefore value content) := by
  rcases insert_spec stands.represents free (some list.nextContent) size with
    ⟨next, ran, represents, current, -⟩
  rcases stands.split with ⟨front, element, back, whole, sameFront, same, sameBack⟩
  have member : element.content ∈ list.elements.map ListElement.content := by
    rw [whole]
    simp
  refine ⟨next, element.content, _, same, ran, represents, ?_, ?_⟩
  · rw [LinkedList.insertBefore, dif_pos member]
    simp only [LinkedList.insert, whole,
      LinkedList.insertAt_eq _ (LinkedList.content_around whole).1]
    simp [sameFront, same, sameBack]
  · intro content
    rw [LinkedList.insertBefore, dif_pos member, current]
    apply (stands.current content).trans
    apply exists_congr
    intro address
    apply and_congr_right
    intro here
    have inside := stands.represents.current address here
    have different : address ≠ newel := by
      rintro rfl
      exact stands.represents.fresh free inside
    simp [different]

def Agrees (accepted : ListPointer → Bool) (callback : ListElement α → Bool) (list : LinkedList α) :
    Prop :=
  ∀ element ∈ list.elements, accepted (some element.content) = callback element

theorem find_contents (stands : pointers.StandsFor entries list) {accepted : ListPointer → Bool}
    {callback : ListElement α → Bool} (agrees : Agrees accepted callback list) :
    (entries.find? fun entry => accepted entry.2).map Prod.snd =
      (list.elements.find? callback).map fun element => some element.content := by
  have left : (entries.find? fun entry => accepted entry.2).map Prod.snd =
      (entries.map Prod.snd).find? accepted := by
    rw [List.find?_map]
    rfl
  rw [left, stands.contents, List.find?_map]
  apply congrArg
  apply List.find?_congr
  exact agrees

theorem find_current (stands : pointers.StandsFor entries list) :
    (entries.find? fun entry => pointers.current = some entry.1).map Prod.snd =
      list.currentElement.map fun element => some element.content := by
  cases here : pointers.current with
  | none =>
      have nowhere : list.current = none := by
        rw [Option.eq_none_iff_forall_ne_some]
        intro content current
        rcases (stands.current content).mp current with ⟨address, there, -⟩
        exact absurd (here.symm.trans there) nofun
      simp [LinkedList.currentElement, nowhere]
  | some address =>
      rcases List.mem_map.mp (stands.represents.current address here) with ⟨entry, inside, rfl⟩
      rcases List.append_of_mem inside with ⟨before, after, rfl⟩
      rcases stands.split with ⟨front, element, back, whole, -, same, -⟩
      have current : list.current = some element.content :=
        (stands.current _).mpr ⟨entry.1, here, by rw [← same]; exact inside⟩
      have found : list.find element.content = some element :=
        LinkedList.find_eq_some_iff.mpr ⟨by rw [whole]; simp, rfl⟩
      rw [find_address stands.represents.nodup, LinkedList.currentElement, current,
        Option.bind_some, found, Option.map_some, Option.map_some, same]

theorem selected_contents (stands : pointers.StandsFor entries list) {accepted : ListPointer → Bool}
    {callback : ListElement α → Bool} (agrees : Agrees accepted callback list) :
    (selected pointers.current accepted entries).map Prod.snd =
      (list.findItem callback).1.map fun element => some element.content := by
  have current := find_current stands
  have fallback := find_contents stands agrees
  rw [selected, LinkedList.findItem_fst]
  cases here : entries.find? fun entry => pointers.current = some entry.1 with
  | none =>
      rw [here, Option.map_none, eq_comm, Option.map_eq_none_iff] at current
      rw [current]
      exact fallback
  | some entry =>
      rw [here, Option.map_some, eq_comm, Option.map_eq_some_iff] at current
      rcases current with ⟨element, there, same⟩
      rcases Option.bind_eq_some_iff.mp there with ⟨content, -, held⟩
      have member := (LinkedList.find_eq_some_iff.mp held).1
      simp only [there, ← agrees element member, same]
      by_cases holds : accepted entry.2
      · simp only [if_pos holds, Option.map_some, same]
      · simp only [if_neg holds]
        exact fallback

theorem mem_address_iff {entry : Nat × ListPointer} (nodup : (addresses entries).Nodup)
    (member : entry ∈ entries) (content : ListPointer) :
    (entry.1, content) ∈ entries ↔ content = entry.2 := by
  constructor
  · intro also
    exact congrArg Prod.snd (List.inj_on_of_nodup_map nodup also member rfl)
  · rintro rfl
    exact member

/-- `ListFindItem` is `findItem`. -/
theorem findItem_simulates (stands : pointers.StandsFor entries list) {content : ListPointer}
    {callback : Option (ListPointer → ListPointer → Bool)} {test : ListElement α → Bool}
    (agrees : Agrees (accepts callback content) test list) :
    ∃ result, pointers.findItem content callback = some result ∧
      result.2.StandsFor entries (list.findItem test).2 ∧
      (result.1 = none ↔ (list.findItem test).1 = none) := by
  have contents := selected_contents stands agrees
  refine ⟨_, findItem_eq stands.represents content callback, ?_⟩
  rcases selected_cases pointers.current (accepts callback content) entries with missed | found
  · rw [missed.1, Option.map_none, eq_comm, Option.map_eq_none_iff] at contents
    rw [missed.1, LinkedList.findItem_snd_of_none contents]
    exact ⟨stands, iff_of_true rfl contents⟩
  · rcases found with ⟨before, entry, after, rfl, holds, found⟩
    rw [found, Option.map_some, eq_comm, Option.map_eq_some_iff] at contents
    rcases contents with ⟨element, there, same⟩
    rw [found, there]
    refine ⟨⟨⟨stands.represents.linked, stands.represents.nodup, stands.represents.count, ?_⟩,
      ?_, ?_⟩, iff_of_false nofun nofun⟩
    · rintro address ⟨⟩
      simp
    · rw [LinkedList.elements_findItem]
      exact stands.contents
    · intro content
      have address := mem_address_iff stands.represents.nodup
        (List.mem_append_right before List.mem_cons_self) (some content)
      rw [LinkedList.current_findItem there, same, eq_comm, ← address]
      simp [searched]

theorem head_contents {before after : Entries} {back : List (ListElement α)}
    (nodup : (addresses (before ++ after)).Nodup)
    (same : after.map Prod.snd = back.map fun element => some element.content) (content : Nat) :
    back.head?.map ListElement.content = some content ↔
      ∃ address, head after none = some address ∧ (address, some content) ∈ before ++ after := by
  cases after with
  | nil =>
      rw [List.map_nil, eq_comm, List.map_eq_nil_iff] at same
      simp [same, head]
  | cons entry after =>
      rw [List.map_cons, eq_comm, List.map_eq_cons_iff] at same
      rcases same with ⟨element, back, rfl, same, -⟩
      have address := mem_address_iff nodup (List.mem_append_right before List.mem_cons_self)
        (some content)
      simp only [head, Option.some.injEq, exists_eq_left', address, ← same, List.head?_cons,
        Option.map_some]
      exact eq_comm

theorem current_iff {before after : Entries} {entry : Nat × ListPointer} {element : ListElement α}
    (stands : pointers.StandsFor (before ++ entry :: after) list)
    (same : entry.2 = some element.content) :
    list.current = some element.content ↔ pointers.current = some entry.1 := by
  rw [stands.current]
  have nodup : ((before ++ entry :: after).map Prod.snd).Nodup := by
    rw [stands.contents]
    have contents := list.nodup.map (Option.some_injective Nat)
    rwa [List.map_map] at contents
  have member : entry ∈ before ++ entry :: after :=
    List.mem_append_right before List.mem_cons_self
  constructor
  · rintro ⟨address, here, inside⟩
    rw [here]
    exact congrArg (some ∘ Prod.fst) (List.inj_on_of_nodup_map nodup inside member same.symm)
  · intro here
    refine ⟨entry.1, here, ?_⟩
    rw [← same]
    exact member

/-- `ListUnlink` with an accepted content is `detachElement`. -/
theorem unlink_simulates (stands : pointers.StandsFor entries list) {content : ListPointer}
    {callback : Option (ListPointer → ListPointer → Bool)} {test : ListElement α → Bool}
    (agrees : Agrees (accepts callback content) test list) (freeContent : Bool) :
    ∃ result after, pointers.unlink content callback freeContent = some result ∧
      result.2.StandsFor after (list.unlink test).2 ∧
      (result.1.1 = 0 ↔ (list.unlink test).1 = none) := by
  have contents := selected_contents stands agrees
  rcases unlink_spec stands.represents content callback freeContent with missed | found
  · rw [missed.1, Option.map_none, eq_comm, Option.map_eq_none_iff] at contents
    refine ⟨_, entries, missed.2.2, ?_, iff_of_true rfl ?_⟩
    · rw [LinkedList.unlink_eq_none contents]
      exact stands
    · rw [LinkedList.unlink_eq_none contents]
  · rcases found with ⟨before, entry, after, next, rfl, holds, found, ran, represents, current, -⟩
    rw [found, Option.map_some, eq_comm, Option.map_eq_some_iff] at contents
    rcases contents with ⟨element, there, same⟩
    refine ⟨_, before ++ after, ran, ?_, iff_of_false Nat.one_ne_zero ?_⟩
    · rw [LinkedList.unlink_eq_some there]
      rcases stands.split with ⟨front, other, back, whole, sameFront, sameHere, sameBack⟩
      have member := (LinkedList.findItem_eq_some there).1
      have unique : other = element := by
        apply LinkedList.eq_of_content_eq (by rw [whole]; simp) member
        exact Option.some.inj (sameHere.symm.trans same.symm)
      subst unique
      refine ⟨represents, ?_, ?_⟩
      · rw [LinkedList.elements_detachElement_split whole, List.map_append, List.map_append,
          sameFront, sameBack]
      · intro content
        have here := current_iff stands sameHere
        rw [current]
        by_cases atEntry : pointers.current = some entry.1
        · have moved : (list.detachElement other).current =
              back.head?.map ListElement.content := by
            simp only [LinkedList.detachElement, if_pos (here.mpr atEntry), whole,
              LinkedList.elementAfter_eq (LinkedList.content_around whole).1]
          rw [moved, if_pos atEntry]
          exact head_contents represents.nodup sameBack content
        · have kept : (list.detachElement other).current = list.current := by
            simp only [LinkedList.detachElement, if_neg fun there => atEntry (here.mp there)]
          rw [kept, if_neg atEntry, stands.current content]
          apply exists_congr
          intro address
          apply and_congr_right
          intro there
          have different : (address, some content) ≠ entry := by
            rintro rfl
            exact atEntry there
          simp [different]
    · rw [LinkedList.unlink_eq_some there]
      exact Option.some_ne_none element

end PointerList

end MqttClient
