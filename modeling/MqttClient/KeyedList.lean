import MqttClient.LinkedList

/-! # Lists searched by a key

Most callbacks of `LinkedList.c` compare one field of the content with a wanted
value. Where no two contents share that field, the list is a finite map and the
cached `current` cannot be observed.
-/

namespace MqttClient.LinkedList

variable {α κ : Type} {key : α → κ} {list : LinkedList α}

def Distinct (key : α → κ) (list : LinkedList α) : Prop := (list.values.map key).Nodup

theorem mem_values {value : α} :
    value ∈ list.values ↔ ∃ element ∈ list.elements, element.value = value :=
  List.mem_map

theorem Distinct.zero : (zero : LinkedList α).Distinct key := List.nodup_nil

theorem Distinct.eq_of_key_eq (distinct : list.Distinct key) {left right : ListElement α}
    (leftMember : left ∈ list.elements) (rightMember : right ∈ list.elements)
    (equal : key left.value = key right.value) : left = right := by
  rw [Distinct, values, List.map_map] at distinct
  exact List.inj_on_of_nodup_map distinct leftMember rightMember equal

theorem Distinct.findItem (distinct : list.Distinct key) (callback : ListElement α → Bool) :
    (list.findItem callback).2.Distinct key := by
  rw [Distinct, values_findItem]
  exact distinct

theorem Distinct.update (distinct : list.Distinct key) (content : Nat) {change : α → α}
    (keeps : ∀ value, key (change value) = key value) :
    (list.update content change).Distinct key := by
  rw [Distinct, values, List.map_map] at distinct ⊢
  rw [elements_update, List.map_map]
  convert distinct using 2
  funext element
  simp only [Function.comp_apply]
  split
  · exact keeps _
  · rfl

theorem Distinct.detachElement (distinct : list.Distinct key) (element : ListElement α) :
    (list.detachElement element).Distinct key := by
  rw [Distinct, values, List.map_map] at distinct ⊢
  exact (List.filter_sublist.map _).nodup distinct

variable [DecidableEq κ]

def hasKey (key : α → κ) (wanted : κ) (element : ListElement α) : Bool :=
  key element.value = wanted

def lookup (key : α → κ) (wanted : κ) (list : LinkedList α) : Option α :=
  list.values.find? fun value => key value = wanted

theorem lookup_eq_none_iff {wanted : κ} :
    list.lookup key wanted = none ↔ ∀ value ∈ list.values, key value ≠ wanted := by
  simp [lookup]

@[simp] theorem lookup_zero (wanted : κ) : (zero : LinkedList α).lookup key wanted = none := rfl

theorem Distinct.lookup_eq_some_iff (distinct : list.Distinct key) {wanted : κ} {value : α} :
    list.lookup key wanted = some value ↔ value ∈ list.values ∧ key value = wanted := by
  constructor
  · intro found
    exact ⟨List.mem_of_find?_eq_some found, by simpa using List.find?_some found⟩
  · rintro ⟨member, rfl⟩
    cases found : list.lookup key (key value) with
    | none => exact (lookup_eq_none_iff.mp found value member rfl).elim
    | some other =>
        have sameKey : key other = key value := by simpa using List.find?_some found
        exact congrArg some (List.inj_on_of_nodup_map distinct
          (List.mem_of_find?_eq_some found) member sameKey)

theorem Distinct.lookup_of_mem (distinct : list.Distinct key) {element : ListElement α}
    (member : element ∈ list.elements) :
    list.lookup key (key element.value) = some element.value :=
  distinct.lookup_eq_some_iff.mpr ⟨List.mem_map_of_mem member, rfl⟩

/-! ## Searching -/

@[simp] theorem lookup_findItem (wanted : κ) (callback : ListElement α → Bool) :
    (list.findItem callback).2.lookup key wanted = list.lookup key wanted := by
  simp [lookup]

theorem findItem_hasKey_eq_some {wanted : κ} {element : ListElement α}
    (found : (list.findItem (hasKey key wanted)).1 = some element) :
    element ∈ list.elements ∧ key element.value = wanted := by
  rcases findItem_eq_some found with ⟨member, accepted⟩
  exact ⟨member, by simpa [hasKey] using accepted⟩

theorem Distinct.lookup_of_findItem (distinct : list.Distinct key) {wanted : κ}
    {element : ListElement α} (found : (list.findItem (hasKey key wanted)).1 = some element) :
    list.lookup key wanted = some element.value := by
  rcases findItem_hasKey_eq_some found with ⟨member, rfl⟩
  exact distinct.lookup_of_mem member

theorem findItem_hasKey_eq_none_iff {wanted : κ} :
    (list.findItem (hasKey key wanted)).1 = none ↔ list.lookup key wanted = none := by
  rw [findItem_eq_none_iff, lookup_eq_none_iff]
  simp [hasKey, values]

theorem Distinct.findItem_of_lookup (distinct : list.Distinct key) {wanted : κ} {value : α}
    (found : list.lookup key wanted = some value) :
    ∃ element after, list.findItem (hasKey key wanted) = (some element, after) ∧
      element.value = value ∧ element ∈ after.elements ∧ after.Distinct key ∧
      ∀ other, after.lookup key other = list.lookup key other := by
  cases result : (list.findItem (hasKey key wanted)).1 with
  | none =>
      rw [findItem_hasKey_eq_none_iff.mp result] at found
      cases found
  | some element =>
      refine ⟨element, (list.findItem (hasKey key wanted)).2, by rw [← result], ?_, ?_,
        distinct.findItem _, fun other => lookup_findItem other _⟩
      · rw [distinct.lookup_of_findItem result] at found
        exact Option.some.inj found
      · rw [elements_findItem]
        exact (findItem_hasKey_eq_some result).1

/-! ## Appending -/

theorem lookup_append (wanted : κ) (value : α) :
    (list.append value).lookup key wanted =
      (list.lookup key wanted).or (if key value = wanted then some value else none) := by
  simp [lookup, List.find?_append, List.find?_cons]
  congr 1
  split <;> simp_all

theorem Distinct.append (distinct : list.Distinct key) {value : α}
    (absent : list.lookup key (key value) = none) : (list.append value).Distinct key := by
  rw [Distinct, values_append, List.map_append, List.nodup_append]
  refine ⟨distinct, by simp, ?_⟩
  intro left leftMember right rightMember equal
  rcases List.mem_map.mp leftMember with ⟨other, member, rfl⟩
  simp only [List.map_cons, List.map_nil, List.mem_singleton] at rightMember
  exact lookup_eq_none_iff.mp absent other member (equal.trans rightMember)

/-! ## Writing to a content -/

theorem Distinct.lookup_update (distinct : list.Distinct key) {element : ListElement α}
    (member : element ∈ list.elements) {change : α → α}
    (keeps : ∀ value, key (change value) = key value) :
    (list.update element.content change).lookup key (key element.value) =
      some (change element.value) := by
  rw [(distinct.update element.content keeps).lookup_eq_some_iff]
  refine ⟨mem_values.mpr ⟨⟨element.content, change element.value⟩, ?_, rfl⟩, keeps _⟩
  exact mem_update.mpr ⟨element, member, rfl, by simp⟩

theorem Distinct.lookup_update_of_ne (distinct : list.Distinct key) {element : ListElement α}
    (member : element ∈ list.elements) {change : α → α}
    (keeps : ∀ value, key (change value) = key value) {wanted : κ}
    (different : wanted ≠ key element.value) :
    (list.update element.content change).lookup key wanted = list.lookup key wanted := by
  ext value
  simp only [(distinct.update element.content keeps).lookup_eq_some_iff,
    distinct.lookup_eq_some_iff, mem_values, mem_update]
  constructor
  · rintro ⟨⟨other, ⟨source, present, _, written⟩, rfl⟩, rfl⟩
    by_cases same : source.content = element.content
    · rw [eq_of_content_eq present member same, if_pos rfl] at written
      rw [written, keeps] at different
      exact (different rfl).elim
    · rw [if_neg same] at written
      exact ⟨⟨source, present, written.symm⟩, rfl⟩
  · rintro ⟨⟨other, present, rfl⟩, rfl⟩
    refine ⟨⟨other, ⟨other, present, rfl, ?_⟩, rfl⟩, rfl⟩
    rw [if_neg]
    exact fun same => different (by rw [eq_of_content_eq present member same])

/-! ## Taking out -/

theorem Distinct.lookup_detachElement (distinct : list.Distinct key) {element : ListElement α}
    (member : element ∈ list.elements) :
    (list.detachElement element).lookup key (key element.value) = none := by
  rw [lookup_eq_none_iff]
  intro value present equal
  rcases mem_values.mp present with ⟨other, kept, rfl⟩
  rcases mem_detachElement.mp kept with ⟨otherMember, different⟩
  exact different (congrArg _ (distinct.eq_of_key_eq otherMember member equal))

theorem Distinct.values_detachElement (distinct : list.Distinct key) {element : ListElement α}
    (member : element ∈ list.elements) :
    (list.detachElement element).values =
      list.values.filter fun value => key value ≠ key element.value := by
  rw [values, values, elements_detachElement, List.filter_map]
  refine congrArg (List.map ListElement.value) (List.filter_congr fun other present => ?_)
  by_cases same : other.content = element.content
  · rw [eq_of_content_eq present member same]
    simp
  · have different : key other.value ≠ key element.value :=
      fun equal => same (congrArg _ (distinct.eq_of_key_eq present member equal))
    simp [same, different]

theorem Distinct.lookup_detachElement_of_ne (distinct : list.Distinct key)
    {element : ListElement α} (member : element ∈ list.elements) {wanted : κ}
    (different : wanted ≠ key element.value) :
    (list.detachElement element).lookup key wanted = list.lookup key wanted := by
  ext value
  simp only [(distinct.detachElement element).lookup_eq_some_iff,
    distinct.lookup_eq_some_iff, mem_values, mem_detachElement]
  constructor
  · rintro ⟨⟨other, ⟨present, _⟩, rfl⟩, equal⟩
    exact ⟨⟨other, present, rfl⟩, equal⟩
  · rintro ⟨⟨other, present, rfl⟩, rfl⟩
    refine ⟨⟨other, ⟨present, fun same => different ?_⟩, rfl⟩, rfl⟩
    rw [eq_of_content_eq present member same]

theorem Distinct.unlink_hasKey (distinct : list.Distinct key) (wanted : κ) :
    (list.unlink (hasKey key wanted)).2.Distinct key ∧
      (list.unlink (hasKey key wanted)).2.lookup key wanted = none ∧
      ∀ other, other ≠ wanted →
        (list.unlink (hasKey key wanted)).2.lookup key other = list.lookup key other := by
  cases found : (list.findItem (hasKey key wanted)).1 with
  | none =>
      rw [unlink_eq_none found]
      exact ⟨distinct, findItem_hasKey_eq_none_iff.mp found, fun _ _ => rfl⟩
  | some element =>
      rcases findItem_hasKey_eq_some found with ⟨member, rfl⟩
      rw [unlink_eq_some found]
      exact ⟨distinct.detachElement element, distinct.lookup_detachElement member,
        fun other different => distinct.lookup_detachElement_of_ne member different⟩

theorem Distinct.values_unlink_hasKey (distinct : list.Distinct key) (wanted : κ) :
    (list.unlink (hasKey key wanted)).2.values =
      list.values.filter fun value => key value ≠ wanted := by
  cases found : (list.findItem (hasKey key wanted)).1 with
  | none =>
      rw [unlink_eq_none found]
      refine (List.filter_eq_self.mpr fun value member => ?_).symm
      simpa using lookup_eq_none_iff.mp (findItem_hasKey_eq_none_iff.mp found) value member
  | some element =>
      rcases findItem_hasKey_eq_some found with ⟨member, rfl⟩
      rw [unlink_eq_some found]
      exact distinct.values_detachElement member

end MqttClient.LinkedList
