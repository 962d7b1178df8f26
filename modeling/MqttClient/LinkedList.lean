import Mathlib.Data.List.Nodup
import Mathlib.Tactic.Common

/-! # `LinkedList`

The lists of `LinkedList.c`, as the sequence from `first` to `last`. An element
is known by the address of its content, which no two elements of a list share;
`current` is the element that the last successful search left behind. Addresses
are handed out in order and never again, and allocation succeeds.
-/

namespace MqttClient

/-- A list element: the address of its content, and what is stored there. -/
structure ListElement (α : Type) where
  content : Nat
  value : α
  deriving DecidableEq, Repr

/-- A list that `LinkedList.c` can hold: its elements are distinct and `current`
is NULL or one of them. -/
structure LinkedList (α : Type) where
  elements : List (ListElement α)
  current : Option Nat
  nextContent : Nat
  nodup : (elements.map ListElement.content).Nodup
  fresh : ∀ element ∈ elements, element.content < nextContent
  current_mem : ∀ content, current = some content →
    content ∈ elements.map ListElement.content

namespace LinkedList

variable {α : Type}

/-- `ListZero`, and with it `ListInitialize`. -/
def zero : LinkedList α where
  elements := []
  current := none
  nextContent := 0
  nodup := List.nodup_nil
  fresh := by simp
  current_mem := by simp

def count (list : LinkedList α) : Nat := list.elements.length

def first (list : LinkedList α) : Option (ListElement α) := list.elements.head?

def values (list : LinkedList α) : List α := list.elements.map ListElement.value

def find (list : LinkedList α) (content : Nat) : Option (ListElement α) :=
  list.elements.find? fun element => element.content == content

def elementAfter (content : Nat) : List (ListElement α) → Option (ListElement α)
  | [] => none
  | element :: rest =>
      if element.content = content then rest.head? else elementAfter content rest

theorem mem_of_elementAfter {content : Nat} {next : ListElement α} :
    ∀ {elements : List (ListElement α)}, elementAfter content elements = some next →
      (elements.map ListElement.content).Nodup →
      next ∈ elements ∧ next.content ≠ content
  | [], found, _ => by simp [elementAfter] at found
  | element :: rest, found, nodup => by
      have parts := List.nodup_cons.mp nodup
      rw [elementAfter] at found
      split at found
      · rename_i here
        have inRest := List.mem_of_mem_head? found
        refine ⟨List.mem_cons_of_mem _ inRest, fun equal => parts.1 ?_⟩
        rw [here, ← equal]
        exact List.mem_map_of_mem inRest
      · have later := mem_of_elementAfter found parts.2
        exact ⟨List.mem_cons_of_mem _ later.1, later.2⟩

/-- `ListNextElement`: from NULL to the first element, else to the next one. -/
def nextElement (list : LinkedList α) : Option Nat → Option (ListElement α)
  | none => list.first
  | some content => elementAfter content list.elements

def append (list : LinkedList α) (value : α) : LinkedList α where
  elements := list.elements ++ [⟨list.nextContent, value⟩]
  current := list.current
  nextContent := list.nextContent + 1
  nodup := by
    rw [List.map_append, List.nodup_append]
    refine ⟨list.nodup, by simp, ?_⟩
    intro left leftMember right rightMember equal
    rcases List.mem_map.mp leftMember with ⟨element, member, rfl⟩
    have bound := list.fresh element member
    simp only [List.map_cons, List.map_nil, List.mem_singleton] at rightMember
    omega
  fresh := by
    intro element member
    rcases List.mem_append.mp member with member | member
    · exact Nat.lt_succ_of_lt (list.fresh element member)
    · rw [List.mem_singleton.mp member]
      exact Nat.lt_succ_self _
  current_mem := by
    intro content equal
    rw [List.map_append]
    exact List.mem_append_left _ (list.current_mem content equal)

/-- Put a new element in front of the one whose content is at `index`. -/
def insertAt (index : Nat) (added : ListElement α) :
    List (ListElement α) → List (ListElement α)
  | [] => []
  | element :: rest =>
      if element.content = index then added :: element :: rest
      else element :: insertAt index added rest

theorem insertAt_perm {index : Nat} {added : ListElement α} :
    ∀ {elements : List (ListElement α)}, index ∈ elements.map ListElement.content →
      (insertAt index added elements).Perm (added :: elements)
  | [], member => by simp at member
  | element :: rest, member => by
      rw [insertAt]
      split
      · exact List.Perm.refl _
      · rename_i different
        have member : index ∈ rest.map ListElement.content := by
          rcases List.mem_cons.mp member with equal | member
          · exact (different equal.symm).elim
          · exact member
        exact ((insertAt_perm member).cons element).trans (List.Perm.swap ..)

def insert (list : LinkedList α) (value : α) (index : Nat)
    (member : index ∈ list.elements.map ListElement.content) : LinkedList α where
  elements := insertAt index ⟨list.nextContent, value⟩ list.elements
  current := list.current
  nextContent := list.nextContent + 1
  nodup := by
    rw [((insertAt_perm member).map _).nodup_iff, List.map_cons, List.nodup_cons]
    refine ⟨fun present => ?_, list.nodup⟩
    rcases List.mem_map.mp present with ⟨element, member, equal⟩
    exact Nat.lt_irrefl _ (equal ▸ list.fresh element member)
  fresh := by
    intro element present
    rcases List.mem_cons.mp ((insertAt_perm member).mem_iff.mp present) with rfl | present
    · exact Nat.lt_succ_self _
    · exact Nat.lt_succ_of_lt (list.fresh element present)
  current_mem := by
    intro content equal
    rw [((insertAt_perm member).map _).mem_iff, List.map_cons]
    exact List.mem_cons_of_mem _ (list.current_mem content equal)

/-- `ListInsert`: in front of the element whose content is at `index`, or at the end. -/
def insertBefore (list : LinkedList α) (value : α) (index : Nat) : LinkedList α :=
  if member : index ∈ list.elements.map ListElement.content then list.insert value index member
  else list.append value

/-- What `current` points to. -/
def currentElement (list : LinkedList α) : Option (ListElement α) :=
  list.current.bind list.find

/-- Leave `current` at an element of the list. -/
def withCurrent (list : LinkedList α) (element : ListElement α)
    (member : element ∈ list.elements) : LinkedList α where
  elements := list.elements
  current := some element.content
  nextContent := list.nextContent
  nodup := list.nodup
  fresh := list.fresh
  current_mem := by
    rintro content ⟨⟩
    exact List.mem_map_of_mem member

/-- The search of `ListFindItem` from the first element on. -/
def search (list : LinkedList α) (callback : ListElement α → Bool) :
    Option (ListElement α) × LinkedList α :=
  match found : list.elements.find? callback with
  | some element => (some element, list.withCurrent element (List.mem_of_find?_eq_some found))
  | none => (none, list)

/-- `ListFindItem`: the element at `current` if the callback accepts it, else the
first element that it accepts, which becomes `current`. -/
def findItem (list : LinkedList α) (callback : ListElement α → Bool) :
    Option (ListElement α) × LinkedList α :=
  match list.currentElement with
  | some element => if callback element then (some element, list) else list.search callback
  | none => list.search callback

/-- The part of `ListUnlink` that takes a found element out of the list. A
`current` that pointed to it moves to the next element. -/
def detachElement (list : LinkedList α) (element : ListElement α) : LinkedList α where
  elements := list.elements.filter fun other => other.content != element.content
  current :=
    if list.current = some element.content then
      (elementAfter element.content list.elements).map ListElement.content
    else list.current
  nextContent := list.nextContent
  nodup := (List.filter_sublist.map _).nodup list.nodup
  fresh := fun other member => list.fresh other (List.mem_of_mem_filter member)
  current_mem := by
    intro content equal
    split at equal
    · rcases Option.map_eq_some_iff.mp equal with ⟨next, found, rfl⟩
      rcases mem_of_elementAfter found list.nodup with ⟨member, different⟩
      exact List.mem_map_of_mem (List.mem_filter.mpr ⟨member, by simpa using different⟩)
    · rename_i elsewhere
      rcases List.mem_map.mp (list.current_mem content equal) with ⟨other, member, rfl⟩
      refine List.mem_map_of_mem (List.mem_filter.mpr ⟨member, ?_⟩)
      simp only [bne_iff_ne, ne_eq]
      exact fun same => elsewhere (by rw [equal, same])

/-- `ListUnlink`, and with it `ListRemoveItem` and `ListDetachItem`: take out the
element that `ListFindItem` finds. The search moves `current`, but the value
saved before it is what `current` goes back to. -/
def unlink (list : LinkedList α) (callback : ListElement α → Bool) :
    Option (ListElement α) × LinkedList α :=
  match (list.findItem callback).1 with
  | none => (none, list)
  | some element => (some element, list.detachElement element)

/-- `ListRemove` and `ListDetach`: the element is found by the address of its
content. -/
def remove (list : LinkedList α) (content : Nat) : Option (ListElement α) × LinkedList α :=
  list.unlink fun element => element.content == content

def update (list : LinkedList α) (content : Nat) (change : α → α) : LinkedList α where
  elements := list.elements.map fun element =>
    if element.content = content then ⟨element.content, change element.value⟩ else element
  current := list.current
  nextContent := list.nextContent
  nodup := by
    rw [List.map_map]
    convert list.nodup using 2
    funext element
    simp only [Function.comp_apply]
    split <;> rfl
  fresh := by
    intro element member
    rcases List.mem_map.mp member with ⟨source, present, rfl⟩
    have bound := list.fresh source present
    split <;> exact bound
  current_mem := by
    intro content equal
    rw [List.map_map]
    convert list.current_mem content equal using 2
    funext element
    simp only [Function.comp_apply]
    split <;> rfl

/-! ## What the operations do to the sequence -/

@[simp] theorem values_zero : (zero : LinkedList α).values = [] := rfl

@[simp] theorem elements_zero : (zero : LinkedList α).elements = [] := rfl

@[simp] theorem elements_append (list : LinkedList α) (value : α) :
    (list.append value).elements = list.elements ++ [⟨list.nextContent, value⟩] := rfl

@[simp] theorem values_append (list : LinkedList α) (value : α) :
    (list.append value).values = list.values ++ [value] := by
  simp [values]

@[simp] theorem elements_withCurrent (list : LinkedList α) (element : ListElement α)
    (member : element ∈ list.elements) :
    (list.withCurrent element member).elements = list.elements := rfl

@[simp] theorem elements_search (list : LinkedList α) (callback : ListElement α → Bool) :
    (list.search callback).2.elements = list.elements := by
  unfold search
  split <;> rfl

@[simp] theorem elements_findItem (list : LinkedList α)
    (callback : ListElement α → Bool) :
    (list.findItem callback).2.elements = list.elements := by
  unfold findItem
  split
  · split
    · rfl
    · exact elements_search ..
  · exact elements_search ..

@[simp] theorem values_findItem (list : LinkedList α) (callback : ListElement α → Bool) :
    (list.findItem callback).2.values = list.values := by
  simp [values]

private theorem search_fst (list : LinkedList α) (callback : ListElement α → Bool) :
    (list.search callback).1 = list.elements.find? callback := by
  unfold search
  split
  all_goals
    rename_i found
    exact found.symm

theorem mem_of_currentElement {list : LinkedList α} {element : ListElement α}
    (found : list.currentElement = some element) : element ∈ list.elements := by
  rcases Option.bind_eq_some_iff.mp found with ⟨content, _, found⟩
  exact List.mem_of_find?_eq_some found

theorem findItem_eq_some {list : LinkedList α} {callback : ListElement α → Bool}
    {element : ListElement α} (found : (list.findItem callback).1 = some element) :
    element ∈ list.elements ∧ callback element = true := by
  have searched : (list.search callback).1 = some element →
      element ∈ list.elements ∧ callback element = true := by
    intro found
    rw [search_fst] at found
    exact ⟨List.mem_of_find?_eq_some found, List.find?_some found⟩
  unfold findItem at found
  split at found
  · rename_i current atCurrent
    split at found
    · rename_i accepted
      cases found
      exact ⟨mem_of_currentElement atCurrent, accepted⟩
    · exact searched found
  · exact searched found

theorem findItem_eq_none_iff {list : LinkedList α} {callback : ListElement α → Bool} :
    (list.findItem callback).1 = none ↔
      ∀ element ∈ list.elements, callback element = false := by
  constructor
  · intro missed
    have searched : (list.search callback).1 = none := by
      unfold findItem at missed
      split at missed
      · split at missed
        · simp at missed
        · exact missed
      · exact missed
    rw [search_fst] at searched
    simpa using searched
  · intro rejected
    cases found : (list.findItem callback).1 with
    | none => rfl
    | some element =>
        rcases findItem_eq_some found with ⟨member, accepted⟩
        simp [rejected element member] at accepted

theorem findItem_snd_of_none {list : LinkedList α} {callback : ListElement α → Bool}
    (missed : (list.findItem callback).1 = none) : (list.findItem callback).2 = list := by
  have searched : (list.search callback).1 = none → (list.search callback).2 = list := by
    unfold search
    split <;> simp
  unfold findItem at missed ⊢
  split
  · split
    · rfl
    · simp_all
  · simp_all

theorem findItem_of_unique {list : LinkedList α} {callback : ListElement α → Bool}
    {element : ListElement α} (member : element ∈ list.elements)
    (accepted : callback element = true)
    (unique : ∀ other ∈ list.elements, callback other = true → other = element) :
    (list.findItem callback).1 = some element := by
  cases found : (list.findItem callback).1 with
  | none =>
      have rejected := findItem_eq_none_iff.mp found element member
      simp [accepted] at rejected
  | some other =>
      rcases findItem_eq_some found with ⟨otherMember, otherAccepted⟩
      rw [unique other otherMember otherAccepted]

theorem eq_of_content_eq {list : LinkedList α} {left right : ListElement α}
    (leftMember : left ∈ list.elements) (rightMember : right ∈ list.elements)
    (equal : left.content = right.content) : left = right :=
  List.inj_on_of_nodup_map list.nodup leftMember rightMember equal

theorem find_eq_some_iff {list : LinkedList α} {content : Nat} {element : ListElement α} :
    list.find content = some element ↔
      element ∈ list.elements ∧ element.content = content := by
  constructor
  · intro found
    exact ⟨List.mem_of_find?_eq_some found, by simpa using List.find?_some found⟩
  · rintro ⟨member, rfl⟩
    cases found : list.find element.content with
    | none =>
        have missing := List.find?_eq_none.mp found element member
        simp at missing
    | some other =>
        have otherMember := List.mem_of_find?_eq_some found
        have same : other.content = element.content := by
          simpa using List.find?_some found
        rw [eq_of_content_eq otherMember member same]

@[simp] theorem elements_detachElement (list : LinkedList α) (element : ListElement α) :
    (list.detachElement element).elements =
      list.elements.filter fun other => other.content != element.content := rfl

theorem mem_detachElement {list : LinkedList α} {element other : ListElement α} :
    other ∈ (list.detachElement element).elements ↔
      other ∈ list.elements ∧ other.content ≠ element.content := by
  simp

theorem elements_detachElement_head {list : LinkedList α} {element : ListElement α}
    {rest : List (ListElement α)} (head : list.elements = element :: rest) :
    (list.detachElement element).elements = rest := by
  have nodup := list.nodup
  rw [head, List.map_cons, List.nodup_cons] at nodup
  rw [elements_detachElement, head, List.filter_cons_of_neg (by simp), List.filter_eq_self]
  intro other member
  simp only [bne_iff_ne, ne_eq]
  exact fun equal => nodup.1 (equal ▸ List.mem_map_of_mem member)

theorem unlink_eq_none {list : LinkedList α} {callback : ListElement α → Bool}
    (missed : (list.findItem callback).1 = none) : list.unlink callback = (none, list) := by
  rw [unlink, missed]

theorem unlink_eq_some {list : LinkedList α} {callback : ListElement α → Bool}
    {element : ListElement α} (found : (list.findItem callback).1 = some element) :
    list.unlink callback = (some element, list.detachElement element) := by
  rw [unlink, found]

theorem remove_of_mem {list : LinkedList α} {element : ListElement α}
    (member : element ∈ list.elements) :
    list.remove element.content = (some element, list.detachElement element) :=
  unlink_eq_some (findItem_of_unique member (by simp) fun _ otherMember same =>
    eq_of_content_eq otherMember member (by simpa using same))

theorem length_remove {list after : LinkedList α} {content : Nat} {element : ListElement α}
    (removed : list.remove content = (some element, after)) :
    after.elements.length < list.elements.length := by
  unfold remove unlink at removed
  split at removed
  · cases removed
  · rename_i found
    cases removed
    have member := (findItem_eq_some found).1
    rw [elements_detachElement]
    exact List.length_filter_lt_length_iff_exists.mpr ⟨element, member, by simp⟩

@[simp] theorem elements_update (list : LinkedList α) (content : Nat) (change : α → α) :
    (list.update content change).elements = list.elements.map fun element =>
      if element.content = content then ⟨element.content, change element.value⟩
      else element := rfl

theorem mem_update {list : LinkedList α} {content : Nat} {change : α → α}
    {other : ListElement α} :
    other ∈ (list.update content change).elements ↔
      ∃ element ∈ list.elements, other.content = element.content ∧
        other.value = if element.content = content then change element.value
          else element.value := by
  rw [elements_update, List.mem_map]
  constructor
  · rintro ⟨element, member, rfl⟩
    refine ⟨element, member, ?_⟩
    split <;> exact ⟨rfl, rfl⟩
  · rintro ⟨element, member, content, value⟩
    refine ⟨element, member, ?_⟩
    cases other
    simp only at content value
    subst content value
    split <;> rfl

/-! ## What the operations do to an address -/

theorem find_append (list : LinkedList α) (value : α) (content : Nat) :
    (list.append value).find content =
      if content = list.nextContent then some ⟨content, value⟩ else list.find content := by
  refine Option.ext fun element => ?_
  rw [find_eq_some_iff, elements_append, List.mem_append, List.mem_singleton]
  split
  · rename_i last
    rw [Option.some.injEq]
    constructor
    · rintro ⟨member | rfl, here⟩
      · have old := list.fresh element member
        omega
      · rw [last]
    · rintro rfl
      exact ⟨.inr (by rw [last]), rfl⟩
  · rename_i earlier
    rw [find_eq_some_iff]
    refine and_congr_left fun here => or_iff_left ?_
    rintro rfl
    exact earlier here.symm

theorem find_update (list : LinkedList α) (content wanted : Nat) (change : α → α) :
    (list.update content change).find wanted = (list.find wanted).map fun element =>
      if element.content = content then ⟨element.content, change element.value⟩ else element := by
  rw [find, elements_update, List.find?_map, find]
  congr 2
  funext element
  simp only [Function.comp_apply]
  split <;> rfl

theorem find_detachElement (list : LinkedList α) (element : ListElement α) (content : Nat) :
    (list.detachElement element).find content =
      if content = element.content then none else list.find content := by
  refine Option.ext fun other => ?_
  rw [find_eq_some_iff, mem_detachElement]
  split
  · rename_i gone
    simp only [reduceCtorEq, iff_false]
    rintro ⟨⟨_, different⟩, here⟩
    exact different (here.trans gone)
  · rename_i different
    rw [find_eq_some_iff]
    constructor
    · exact fun ⟨⟨member, _⟩, here⟩ => ⟨member, here⟩
    · exact fun ⟨member, here⟩ => ⟨⟨member, by rwa [here]⟩, here⟩

theorem find_update_self {list : LinkedList α} {content : Nat} {element : ListElement α}
    (found : list.find content = some element) (change : α → α) :
    (list.update content change).find content = some ⟨content, change element.value⟩ := by
  have here := (find_eq_some_iff.mp found).2
  rw [find_update, found, Option.map_some, if_pos here, here]

theorem find_update_of_ne (list : LinkedList α) {content wanted : Nat}
    (different : wanted ≠ content)
    (change : α → α) : (list.update content change).find wanted = list.find wanted := by
  rw [find_update]
  cases found : list.find wanted with
  | none => rfl
  | some element =>
      have elsewhere : element.content ≠ content := by
        rwa [(find_eq_some_iff.mp found).2]
      rw [Option.map_some, if_neg elsewhere]

theorem nextContent_remove (list : LinkedList α) (content : Nat) :
    (list.remove content).2.nextContent = list.nextContent := by
  unfold remove unlink
  split <;> rfl

theorem find_remove (list : LinkedList α) (content wanted : Nat) :
    (list.remove content).2.find wanted =
      if wanted = content then none else list.find wanted := by
  cases found : list.find content with
  | none =>
      have missed : (list.findItem fun element => element.content == content).1 = none :=
        findItem_eq_none_iff.mpr fun element member => by
          have other := List.find?_eq_none.mp found element member
          simpa using other
      rw [remove, unlink_eq_none missed]
      split
      · rename_i same
        rw [same, found]
      · rfl
  | some element =>
      rcases find_eq_some_iff.mp found with ⟨member, rfl⟩
      rw [remove_of_mem member, find_detachElement]

theorem find_remove_update (list : LinkedList α) (content wanted : Nat) (change : α → α) :
    ((list.update content change).remove content).2.find wanted =
      if wanted = content then none else list.find wanted := by
  rw [find_remove]
  split
  · rfl
  · rename_i different
    exact find_update_of_ne list different change

theorem perm_detachElement {list : LinkedList α} {element : ListElement α}
    (member : element ∈ list.elements) :
    list.elements.Perm (element :: (list.detachElement element).elements) := by
  have nodup : list.elements.Nodup := List.Nodup.of_map _ list.nodup
  have rest : (element :: (list.detachElement element).elements).Nodup :=
    List.nodup_cons.mpr ⟨by simp, nodup.filter _⟩
  rw [List.perm_ext_iff_of_nodup nodup rest]
  intro other
  rw [List.mem_cons, mem_detachElement]
  constructor
  · intro here
    by_cases same : other.content = element.content
    · exact .inl (eq_of_content_eq here member same)
    · exact .inr ⟨here, same⟩
  · rintro (rfl | ⟨here, _⟩)
    · exact member
    · exact here

theorem perm_insertBefore (list : LinkedList α) (value : α) (index : Nat) :
    (list.insertBefore value index).elements.Perm (⟨list.nextContent, value⟩ :: list.elements) := by
  rw [insertBefore]
  split
  · rename_i member
    exact insertAt_perm member
  · rw [elements_append]
    exact List.perm_append_singleton ..

/-! ## Around an element -/

section Around

variable {front back : List (ListElement α)} {element : ListElement α}

theorem content_around {list : LinkedList α} (whole : list.elements = front ++ element :: back) :
    element.content ∉ front.map ListElement.content ∧
      element.content ∉ back.map ListElement.content := by
  have nodup := list.nodup
  rw [whole, List.map_append, List.map_cons, List.nodup_middle, List.nodup_cons,
    List.mem_append, not_or] at nodup
  exact nodup.1

theorem insertAt_eq (added : ListElement α)
    (absent : element.content ∉ front.map ListElement.content) :
    insertAt element.content added (front ++ element :: back) =
      front ++ added :: element :: back := by
  induction front with
  | nil => simp [insertAt]
  | cons first front induction =>
      rw [List.map_cons, List.mem_cons, not_or] at absent
      rw [List.cons_append, insertAt, if_neg (Ne.symm absent.1), induction absent.2]
      rfl

theorem elementAfter_eq (absent : element.content ∉ front.map ListElement.content) :
    elementAfter element.content (front ++ element :: back) = back.head? := by
  induction front with
  | nil => simp [elementAfter]
  | cons first front induction =>
      rw [List.map_cons, List.mem_cons, not_or] at absent
      rw [List.cons_append, elementAfter, if_neg (Ne.symm absent.1), induction absent.2]

theorem elements_detachElement_split {list : LinkedList α}
    (whole : list.elements = front ++ element :: back) :
    (list.detachElement element).elements = front ++ back := by
  have around := content_around whole
  have kept {others : List (ListElement α)}
      (absent : element.content ∉ others.map ListElement.content) :
      (others.filter fun other => other.content != element.content) = others := by
    rw [List.filter_eq_self]
    intro other member
    rw [bne_iff_ne]
    intro same
    exact absent (same ▸ List.mem_map_of_mem member)
  rw [elements_detachElement, whole, List.filter_append, List.filter_cons_of_neg (by simp),
    kept around.1, kept around.2]

theorem current_findItem {list : LinkedList α} {callback : ListElement α → Bool}
    (found : (list.findItem callback).1 = some element) :
    (list.findItem callback).2.current = some element.content := by
  have searched : (list.search callback).1 = some element →
      (list.search callback).2.current = some element.content := by
    unfold search
    split
    · rintro ⟨⟩
      rfl
    · exact fun missed => absurd missed nofun
  unfold findItem at found ⊢
  split
  · rename_i current atCurrent
    simp only [atCurrent] at found
    split
    · rename_i holds
      rw [if_pos holds] at found
      cases found
      rcases Option.bind_eq_some_iff.mp atCurrent with ⟨content, here, there⟩
      rw [here, (find_eq_some_iff.mp there).2]
    · rename_i rejected
      rw [if_neg rejected] at found
      exact searched found
  · rename_i nowhere
    simp only [nowhere] at found
    exact searched found

theorem findItem_fst (list : LinkedList α) (callback : ListElement α → Bool) :
    (list.findItem callback).1 =
      match list.currentElement with
      | some element => if callback element then some element else list.elements.find? callback
      | none => list.elements.find? callback := by
  rw [findItem]
  cases list.currentElement with
  | none => exact search_fst list callback
  | some element =>
      by_cases holds : callback element
      · simp only [if_pos holds]
      · simp only [if_neg holds, search_fst]

end Around

end LinkedList

end MqttClient
