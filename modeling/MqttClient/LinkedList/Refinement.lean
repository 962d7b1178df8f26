import MqttClient.LinkedList.Pointers

/-! # A linked list is a sequence

The pointers of a list that the functions of `LinkedList.c` build up always stand for a
sequence of elements, and every function changes this sequence as its name says.
-/

namespace MqttClient

open Foundation.DoublyLinked

abbrev Entries := List (Nat × ListPointer)

namespace PointerList

/-- What following the pointers of a list from both ends shows. -/
structure Shows (list : PointerList) (entries : Entries) : Prop where
  forward : Visits list.chain.heap Node.next list.chain.first entries
  backward : Visits list.chain.heap Node.prev list.chain.last entries.reverse
  distinct : (addresses entries).Nodup
  count : list.count = entries.length
  current : ∀ address ∈ list.current, address ∈ addresses entries

/-- The pointers of a list link its elements both ways. -/
structure Represents (list : PointerList) (entries : Entries) : Prop where
  linked : list.chain.Linked entries
  nodup : (addresses entries).Nodup
  count : list.count = entries.length
  current : ∀ address ∈ list.current, address ∈ addresses entries

/-- What is taken out of a list is given up, and the rest of the memory is as before. -/
def Frame (list next : PointerList) (entries after : Entries) : Prop :=
  ∀ address ∉ addresses after, next.chain.heap address =
    if address ∈ addresses entries then none else list.chain.heap address

variable {list : PointerList} {entries : Entries}

theorem Represents.shows (represents : list.Represents entries) : list.Shows entries where
  forward := by
    rw [represents.linked.1.1]
    exact represents.linked.1.2.visits_next
  backward := by
    rw [represents.linked.2.1]
    exact represents.linked.2.2.visits_prev
  distinct := represents.nodup
  count := represents.count
  current := represents.current

/-! ## Elements are put in -/

theorem Represents.allocated (represents : list.Represents entries) {address : Nat}
    (member : address ∈ addresses entries) : ∃ node, list.chain.heap address = some node := by
  rcases List.mem_map.mp member with ⟨entry, inside, rfl⟩
  rcases List.append_of_mem inside with ⟨before, after, rfl⟩
  exact ⟨_, represents.linked.heap_eq⟩

theorem Represents.fresh (represents : list.Represents entries) {newel : Nat}
    (free : list.chain.heap newel = none) : newel ∉ addresses entries := by
  intro member
  rcases represents.allocated member with ⟨node, allocated⟩
  exact Option.some_ne_none node (allocated.symm.trans free)

theorem nodup_insert {before after : Entries} (nodup : (addresses (before ++ after)).Nodup)
    {added : Nat × ListPointer} (fresh : added.1 ∉ addresses (before ++ after)) :
    (addresses (before ++ added :: after)).Nodup := by
  have moved : addresses (before ++ added :: after) |>.Perm
      (added.1 :: addresses (before ++ after)) := by
    rw [addresses_append, addresses_append]
    exact List.perm_middle
  rw [moved.nodup_iff, List.nodup_cons]
  exact ⟨fresh, nodup⟩

theorem hookLast_eq {chain : Chain Nat ListPointer}
    (ends : chain.first = none ↔ chain.last = none) (newel : ListPointer) :
    hookLast chain newel = chain.setForward chain.last newel := by
  cases chain with
  | mk heap first last =>
      cases last with
      | none =>
          rw [hookLast, if_pos (ends.mpr rfl)]
          rfl
      | some address =>
          rw [hookLast, if_neg fun first => Option.some_ne_none address (ends.mp first)]
          rfl

theorem frame_insert {next : PointerList} {before after : Entries} {added : Nat × ListPointer}
    (elsewhere : ∀ address ∉ added.1 :: addresses (before ++ after),
      next.chain.heap address = list.chain.heap address) :
    Frame list next (before ++ after) (before ++ added :: after) := by
  intro address outside
  have out : address ≠ added.1 ∧ address ∉ addresses (before ++ after) := by
    simp only [addresses_append, addresses_cons, List.mem_append, List.mem_cons, not_or]
      at outside ⊢
    exact ⟨outside.2.1, outside.1, outside.2.2⟩
  rw [if_neg out.2]
  apply elsewhere
  rw [List.mem_cons, not_or]
  exact out

theorem appendNoMalloc_spec (represents : list.Represents entries) {newel : Nat}
    (free : list.chain.heap newel = none) (content : ListPointer) (size : Nat) :
    ∃ next, list.appendNoMalloc content newel size = some next ∧
      next.Represents (entries ++ [(newel, content)]) ∧ next.current = list.current ∧
      Frame list next entries (entries ++ [(newel, content)]) := by
  have fresh := represents.fresh free
  rcases represents.linked.append represents.nodup fresh content with
    ⟨chain, done, linked, elsewhere⟩
  have stored := represents.linked.store fresh ⟨list.chain.last, none, content⟩
  have hooked := (hookLast_eq stored.ends (some newel)).trans done
  apply Exists.intro (list.grow { chain with last := some newel } size)
  refine ⟨?_, ⟨linked, nodup_insert ?_ ?_, ?_, ?_⟩, rfl, ?_⟩
  · rw [appendNoMalloc, hooked]
    rfl
  · rw [List.append_nil]
    exact represents.nodup
  · rw [List.append_nil]
    exact fresh
  · simp [grow, represents.count]
  · intro address current
    rw [addresses_append]
    exact List.mem_append_left _ (represents.current address current)
  · have frame : Frame list (list.grow { chain with last := some newel } size) (entries ++ [])
        (entries ++ [(newel, content)]) :=
      frame_insert (by rwa [List.append_nil])
    rwa [List.append_nil] at frame

theorem insert_spec {before after : Entries} {entry : Nat × ListPointer}
    (represents : list.Represents (before ++ entry :: after)) {newel : Nat}
    (free : list.chain.heap newel = none) (content : ListPointer) (size : Nat) :
    ∃ next, list.insert content size (some entry.1) (some newel) = some (some newel, next) ∧
      next.Represents (before ++ (newel, content) :: entry :: after) ∧
      next.current = list.current ∧
      Frame list next (before ++ entry :: after)
        (before ++ (newel, content) :: entry :: after) := by
  have fresh := represents.fresh free
  rcases represents.linked.insert represents.nodup fresh content with
    ⟨middle, chain, first, second, linked, elsewhere⟩
  apply Exists.intro (list.grow chain size)
  refine ⟨?_, ⟨linked, nodup_insert represents.nodup fresh, ?_, ?_⟩, rfl, ?_⟩
  · simp only [insert, represents.linked.heap_eq, Option.bind_eq_bind, Option.bind_some, first,
      second]
    rfl
  · simp [grow, represents.count]
    omega
  · intro address current
    have member := represents.current address current
    simp only [addresses_append, addresses_cons, List.mem_append, List.mem_cons] at member ⊢
    tauto
  · exact frame_insert elsewhere

/-! ## Elements are found -/

theorem nextElement_eq {before after : Entries} (represents : list.Represents (before ++ after)) :
    list.nextElement (last none before) = some (head after none) := by
  cases before using List.reverseRecOn with
  | nil => exact congrArg some represents.linked.1.1
  | append_singleton before entry =>
      rw [List.append_assoc] at represents
      rw [last_append]
      simp only [last, nextElement]
      rw [represents.linked.heap_eq]
      rfl

theorem findLoop_eq (before after : Entries) (represents : list.Represents (before ++ after))
    (accepted : ListPointer → Bool) {turns : Nat} (enough : after.length < turns) :
    list.findLoop accepted turns (last none before) =
      some ((after.find? fun entry => accepted entry.2).map Prod.fst) := by
  induction turns generalizing before after with
  | zero => exact absurd enough (Nat.not_lt_zero _)
  | succ turns induction =>
      rw [findLoop, nextElement_eq represents, Option.bind_some]
      cases after with
      | nil => rfl
      | cons entry after =>
          simp only [head, represents.linked.heap_eq, Option.bind_some]
          by_cases here : accepted entry.2
          · simp [here]
          · rw [if_neg here]
            simp only [List.find?_cons, here]
            have further := induction (before ++ [entry]) after
              (by rwa [List.append_assoc]) (Nat.lt_of_succ_lt_succ enough)
            rwa [last_append] at further

/-- The element that a search finds: the one at `current` if it is accepted, else the first
one that is. -/
def selected (current : ListPointer) (accepted : ListPointer → Bool) (entries : Entries) :
    Option (Nat × ListPointer) :=
  match entries.find? fun entry => current = some entry.1 with
  | some entry =>
      if accepted entry.2 then some entry else entries.find? fun entry => accepted entry.2
  | none => entries.find? fun entry => accepted entry.2

def searched (list : PointerList) : Option (Nat × ListPointer) → ListPointer × PointerList
  | some entry => (some entry.1, { list with current := some entry.1 })
  | none => (none, list)

theorem search_eq (represents : list.Represents entries) (accepted : ListPointer → Bool) :
    list.search accepted = some (list.searched (entries.find? fun entry => accepted entry.2)) := by
  have enough : entries.length < list.count.toNat + 1 := by
    rw [represents.count, Int.toNat_natCast]
    exact Nat.lt_succ_self _
  have loop := findLoop_eq [] entries represents accepted enough
  apply (congrArg _ loop).trans
  cases entries.find? fun entry => accepted entry.2 with
  | none => rfl
  | some entry => rfl

theorem find_address {before after : Entries} {entry : Nat × ListPointer}
    (nodup : (addresses (before ++ entry :: after)).Nodup) :
    ((before ++ entry :: after).find? fun other => some entry.1 = some other.1) = some entry := by
  rw [List.find?_eq_some_iff_append]
  refine ⟨decide_eq_true rfl, before, after, rfl, ?_⟩
  intro other member
  have different : entry.1 ≠ other.1 := by
    intro same
    apply (nodup_around nodup).2.2.1
    rw [same]
    exact List.mem_map_of_mem member
  simp [different]

theorem findItem_eq (represents : list.Represents entries) (content : ListPointer)
    (callback : Option (ListPointer → ListPointer → Bool)) :
    list.findItem content callback =
      some (list.searched (selected list.current (accepts callback content) entries)) := by
  rw [findItem, selected]
  cases here : list.current with
  | none =>
      have nowhere : (entries.find? fun entry => none = some entry.1) = none := by simp
      rw [nowhere]
      exact search_eq represents _
  | some current =>
      rcases List.mem_map.mp (represents.current current here) with ⟨entry, inside, rfl⟩
      rcases List.append_of_mem inside with ⟨before, after, rfl⟩
      rw [find_address represents.nodup]
      simp only [represents.linked.heap_eq, Option.bind_some]
      by_cases holds : accepts callback content entry.2
      · rw [if_pos holds, if_pos holds, searched, ← here]
      · rw [if_neg holds, if_neg holds, search_eq represents]

theorem selected_cases (current : ListPointer) (accepted : ListPointer → Bool) (entries : Entries) :
    selected current accepted entries = none ∧ (∀ entry ∈ entries, accepted entry.2 = false) ∨
      ∃ before entry after, entries = before ++ entry :: after ∧ accepted entry.2 = true ∧
        selected current accepted entries = some entry := by
  have fallback : (entries.find? fun entry => accepted entry.2) = none ∧
        (∀ entry ∈ entries, accepted entry.2 = false) ∨
      ∃ before entry after, entries = before ++ entry :: after ∧ accepted entry.2 = true ∧
        (entries.find? fun entry => accepted entry.2) = some entry := by
    cases found : entries.find? fun entry => accepted entry.2 with
    | none =>
        rw [List.find?_eq_none] at found
        exact .inl ⟨rfl, fun entry member => Bool.eq_false_iff.mpr (found entry member)⟩
    | some entry =>
        rcases List.find?_eq_some_iff_append.mp found with ⟨holds, before, after, split, -⟩
        exact .inr ⟨before, entry, after, split, holds, rfl⟩
  rw [selected]
  cases here : entries.find? fun entry => current = some entry.1 with
  | none => exact fallback
  | some entry =>
      by_cases holds : accepted entry.2
      · rcases List.append_of_mem (List.mem_of_find?_eq_some here) with ⟨before, after, split⟩
        exact .inr ⟨before, entry, after, split, holds, if_pos holds⟩
      · simp only [if_neg holds]
        exact fallback

/-! ## Elements are taken out -/

theorem nodup_remove {before after : Entries} {entry : Nat × ListPointer}
    (nodup : (addresses (before ++ entry :: after)).Nodup) :
    (addresses (before ++ after)).Nodup ∧ entry.1 ∉ addresses (before ++ after) := by
  rw [addresses_append, addresses_cons, List.nodup_middle, List.nodup_cons, ← addresses_append]
    at nodup
  exact ⟨nodup.2, nodup.1⟩

theorem frame_remove {next : PointerList} {before after : Entries} {entry : Nat × ListPointer}
    (gone : next.chain.heap entry.1 = none)
    (elsewhere : ∀ address ∉ addresses (before ++ entry :: after),
      next.chain.heap address = list.chain.heap address) :
    Frame list next (before ++ entry :: after) (before ++ after) := by
  intro address outside
  by_cases here : address = entry.1
  · rw [here, gone, if_pos (by simp)]
  · have out : address ∉ addresses (before ++ entry :: after) := by
      simp only [addresses_append, addresses_cons, List.mem_append, List.mem_cons, not_or]
        at outside ⊢
      exact ⟨outside.1, here, outside.2⟩
    rw [if_neg out, elsewhere address out]

theorem current_remove {before after : Entries} {entry : Nat × ListPointer}
    (represents : list.Represents (before ++ entry :: after)) {moved : ListPointer}
    (inside : ∀ address ∈ moved, address ∈ addresses (before ++ after)) :
    ∀ address ∈ (if list.current = some entry.1 then moved else list.current),
      address ∈ addresses (before ++ after) := by
  intro address current
  by_cases here : list.current = some entry.1
  · rw [if_pos here] at current
    exact inside address current
  · rw [if_neg here] at current
    have member := represents.current address current
    have different : address ≠ entry.1 := by
      rintro rfl
      exact here current
    simp only [addresses_append, addresses_cons, List.mem_append, List.mem_cons] at member ⊢
    tauto

theorem head_mem {before after : Entries} :
    ∀ address ∈ head after none, address ∈ addresses (before ++ after) := by
  intro address first
  cases after with
  | nil => exact absurd first nofun
  | cons entry after =>
      cases first
      simp

theorem last_mem {before after : Entries} :
    ∀ address ∈ last none before, address ∈ addresses (before ++ after) := by
  intro address final
  cases before using List.reverseRecOn with
  | nil => exact absurd final nofun
  | append_singleton before entry =>
      rw [last_append] at final
      cases final
      simp

theorem unlink_spec (represents : list.Represents entries) (content : ListPointer)
    (callback : Option (ListPointer → ListPointer → Bool)) (freeContent : Bool) :
    selected list.current (accepts callback content) entries = none ∧
        (∀ entry ∈ entries, accepts callback content entry.2 = false) ∧
        list.unlink content callback freeContent = some ((0, []), list) ∨
      ∃ before entry after next, entries = before ++ entry :: after ∧
        accepts callback content entry.2 = true ∧
        selected list.current (accepts callback content) entries = some entry ∧
        list.unlink content callback freeContent =
          some ((1, if freeContent then entry.2.toList else []), next) ∧
        next.Represents (before ++ after) ∧
        next.current = (if list.current = some entry.1 then head after none else list.current) ∧
        Frame list next entries (before ++ after) := by
  have searches := findItem_eq represents content callback
  rcases selected_cases list.current (accepts callback content) entries with missed | found
  · apply Or.inl
    refine ⟨missed.1, missed.2, ?_⟩
    rw [unlink, searches, missed.1]
    rfl
  · rcases found with ⟨before, entry, after, rfl, holds, found⟩
    apply Or.inr
    rcases represents.linked.remove represents.nodup with
      ⟨middle, later, chain, first, middleHere, second, laterHere, third, linked, gone, elsewhere⟩
    have here := represents.linked.heap_eq
    rw [here] at middleHere laterHere
    have nodup := nodup_remove represents.nodup
    apply Exists.intro before
    apply Exists.intro entry
    apply Exists.intro after
    apply Exists.intro ({
      chain := chain
      current := if list.current = some entry.1 then head after none else list.current
      count := list.count - 1
      size := list.size } : PointerList)
    refine ⟨rfl, holds, found, ?_, ⟨linked, nodup.1, ?_, current_remove represents head_mem⟩, rfl,
      frame_remove gone elsewhere⟩
    · rw [unlink, searches, found]
      simp only [searched, Option.bind_eq_bind, Option.bind_some, here, first, middleHere, second,
        laterHere, third]
      rfl
    · rw [represents.count]
      simp
      omega

theorem last_eq_first_iff {entry : Nat × ListPointer} {after : Entries}
    (nodup : (addresses (entry :: after)).Nodup) :
    last (some entry.1) after = some entry.1 ↔ after = [] := by
  constructor
  · intro same
    cases after using List.reverseRecOn with
    | nil => rfl
    | append_singleton after final =>
        have absent : entry.1 ∉ addresses (after ++ [final]) := (List.nodup_cons.mp nodup).1
        rw [last_append] at same
        rw [addresses_append, ← Option.some.inj same] at absent
        exact absurd (List.mem_append_right _ List.mem_cons_self) absent
  · rintro rfl
    rfl

theorem head_eq_last_iff {entry : Nat × ListPointer} {before : Entries}
    (nodup : (addresses (before ++ [entry])).Nodup) :
    head before (some entry.1) = some entry.1 ↔ before = [] := by
  constructor
  · intro same
    cases before with
    | nil => rfl
    | cons first before =>
        have absent : first.1 ∉ addresses (before ++ [entry]) := (List.nodup_cons.mp nodup).1
        rw [addresses_append, Option.some.inj same] at absent
        exact absurd (List.mem_append_right _ List.mem_cons_self) absent
  · rintro rfl
    rfl

theorem unhookFirst_eq {entry : Nat × ListPointer} {after : Entries}
    (represents : list.Represents (entry :: after)) :
    unhookFirst ⟨list.chain.heap, head after none,
        if list.chain.last = some entry.1 then none else list.chain.last⟩ =
      (list.chain.setForward none (head after none)).bind fun middle =>
        middle.setBackward (head after none) none := by
  have ends : list.chain.last = some entry.1 ↔ after = [] := by
    rw [represents.linked.2.1]
    exact last_eq_first_iff represents.nodup
  cases after with
  | nil =>
      rw [if_pos (ends.mpr rfl)]
      rfl
  | cons next after =>
      rw [if_neg fun last => List.cons_ne_nil next after (ends.mp last)]
      rfl

theorem unhookLast_eq {entry : Nat × ListPointer} {before : Entries}
    (represents : list.Represents (before ++ [entry])) :
    unhookLast ⟨list.chain.heap,
        if list.chain.first = some entry.1 then none else list.chain.first, last none before⟩ =
      (list.chain.setForward (last none before) none).bind fun middle =>
        middle.setBackward none (last none before) := by
  have ends : list.chain.first = some entry.1 ↔ before = [] := by
    rw [represents.linked.1.1, head_append]
    exact head_eq_last_iff represents.nodup
  cases before using List.reverseRecOn with
  | nil =>
      rw [if_pos (ends.mpr rfl)]
      rfl
  | append_singleton before prev =>
      rw [if_neg fun first => List.append_ne_nil_of_right_ne_nil _ (List.cons_ne_nil _ _)
        (ends.mp first), last_append]
      simp only [last, unhookLast, Chain.setForward, Chain.setNext]
      cases list.chain.heap prev.1 with
      | none => rfl
      | some node => rfl

theorem detachHead_nil (represents : list.Represents []) : list.detachHead = some (none, list) := by
  have noElement : ¬ 0 < list.count := by
    rw [represents.count]
    exact Int.lt_irrefl 0
  rw [detachHead, if_neg noElement]

theorem detachHead_spec {entry : Nat × ListPointer} {after : Entries}
    (represents : list.Represents (entry :: after)) :
    ∃ next, list.detachHead = some (entry.2, next) ∧ next.Represents after ∧
      next.current = (if list.current = some entry.1 then head after none else list.current) ∧
      Frame list next (entry :: after) after := by
  have represented : list.Represents ([] ++ entry :: after) := represents
  rcases represented.linked.remove represented.nodup with
    ⟨middle, later, chain, first, -, second, -, third, linked', gone, elsewhere⟩
  have unhooked : unhookFirst ⟨list.chain.heap, head after none,
      if list.chain.last = some entry.1 then none else list.chain.last⟩ = some later := by
    rw [unhookFirst_eq represents]
    exact (congrArg (Option.bind · _) first).trans second
  have isFirst : list.chain.first = some entry.1 := represents.linked.1.1
  have here := represented.linked.heap_eq
  have positive : 0 < list.count := by
    rw [represents.count]
    exact Int.natCast_pos.mpr (Nat.succ_pos _)
  apply Exists.intro ({
    chain := chain
    current := if list.current = some entry.1 then head after none else list.current
    count := list.count - 1
    size := list.size } : PointerList)
  refine ⟨?_, ⟨linked', (nodup_remove represented.nodup).1, ?_, ?_⟩, rfl, ?_⟩
  · rw [detachHead, if_pos positive, isFirst]
    simp only [Option.bind_eq_bind, Option.bind_some, here, unhooked, third]
    rfl
  · rw [represents.count]
    simp
  · exact current_remove represented head_mem
  · have frame : Frame list ⟨chain, if list.current = some entry.1 then head after none
        else list.current, list.count - 1, list.size⟩ ([] ++ entry :: after) ([] ++ after) :=
      frame_remove gone elsewhere
    exact frame

theorem popTail_nil (represents : list.Represents []) : list.popTail = some (none, list) := by
  have noElement : ¬ 0 < list.count := by
    rw [represents.count]
    exact Int.lt_irrefl 0
  rw [popTail, if_neg noElement]

theorem popTail_spec {entry : Nat × ListPointer} {before : Entries}
    (represents : list.Represents (before ++ [entry])) :
    ∃ next, list.popTail = some (entry.2, next) ∧ next.Represents before ∧
      next.current = (if list.current = some entry.1 then last none before else list.current) ∧
      Frame list next (before ++ [entry]) before := by
  rcases represents.linked.remove represents.nodup with
    ⟨middle, later, chain, first, -, second, -, third, linked, gone, elsewhere⟩
  have unhooked : unhookLast ⟨list.chain.heap,
      if list.chain.first = some entry.1 then none else list.chain.first, last none before⟩ =
        some later := by
    rw [unhookLast_eq represents]
    exact (congrArg (Option.bind · _) first).trans second
  have isLast : list.chain.last = some entry.1 := by
    rw [represents.linked.2.1, last_append]
    rfl
  have here := represents.linked.heap_eq
  have positive : 0 < list.count := by
    rw [represents.count, List.length_append]
    exact Int.natCast_pos.mpr (Nat.succ_pos _)
  apply Exists.intro ({
    chain := chain
    current := if list.current = some entry.1 then last none before else list.current
    count := list.count - 1
    size := list.size } : PointerList)
  have nodup := (nodup_remove represents.nodup).1
  have current := current_remove represents last_mem
  have frame : Frame list ⟨chain, if list.current = some entry.1 then last none before
      else list.current, list.count - 1, list.size⟩ (before ++ [entry]) (before ++ []) :=
    frame_remove gone elsewhere
  rw [List.append_nil] at linked nodup current frame
  refine ⟨?_, ⟨linked, nodup, ?_, current⟩, rfl, frame⟩
  · rw [popTail, if_pos positive, isLast]
    simp only [Option.bind_eq_bind, Option.bind_some, here, unhooked, third]
    rfl
  · rw [represents.count]
    simp

theorem emptyLoop_eq {chain : Chain Nat ListPointer} {front : ListPointer}
    (first : chain.first = head entries none)
    (linked : Segment chain.heap front entries none) (nodup : (addresses entries).Nodup)
    {turns : Nat} (enough : entries.length < turns) :
    ∃ final, emptyLoop turns chain =
        some (entries.flatMap fun entry => entry.2.toList, final) ∧
      ∀ address, final.heap address =
        if address ∈ addresses entries then none else chain.heap address := by
  induction turns generalizing entries chain front with
  | zero => exact absurd enough (Nat.not_lt_zero _)
  | succ turns induction =>
      cases entries with
      | nil =>
          apply Exists.intro chain
          rw [emptyLoop, first]
          exact ⟨rfl, fun address => (if_neg List.not_mem_nil).symm⟩
      | cons entry entries =>
          have absent : entry.1 ∉ addresses entries := (List.nodup_cons.mp nodup).1
          have allocated : ({ chain with first := head entries none } : Chain Nat ListPointer).heap
              entry.1 = some ⟨front, head entries none, entry.2⟩ := linked.1
          rcases Chain.free_of_some allocated with ⟨later, freed, first', -, gone, elsewhere⟩
          have rest : Segment later.heap (some entry.1) entries none := by
            apply linked.2.congr
            intro address member
            apply elsewhere
            rintro rfl
            exact absent member
          rcases induction first' rest (List.nodup_cons.mp nodup).2
            (Nat.lt_of_succ_lt_succ enough) with ⟨final, ran, heap⟩
          refine ⟨final, ?_, ?_⟩
          · have first : chain.first = some entry.1 := first
            rw [emptyLoop, first]
            simp only [linked.1, Option.bind_some, freed, ran, Option.map_some, Prod.map,
              List.flatMap_cons, id_eq]
          · intro address
            rw [heap]
            by_cases here : address = entry.1
            · rw [here, if_neg absent, gone, if_pos (by simp)]
            · simp [here, elsewhere address here]

theorem empty_spec (represents : list.Represents entries) :
    ∃ next, list.empty = some (entries.flatMap fun entry => entry.2.toList, next) ∧
      next.Represents [] ∧ next.current = none ∧ Frame list next entries [] := by
  have enough : entries.length < list.count.toNat + 1 := by
    rw [represents.count, Int.toNat_natCast]
    exact Nat.lt_succ_self _
  rcases emptyLoop_eq represents.linked.1.1 represents.linked.1.2 represents.nodup enough with
    ⟨final, ran, heap⟩
  apply Exists.intro (zero final.heap)
  refine ⟨?_, ⟨⟨⟨rfl, trivial⟩, rfl, trivial⟩, List.nodup_nil, rfl, nofun⟩, rfl, ?_⟩
  · rw [empty, ran]
    rfl
  · intro address _
    exact heap address

/-! ## Calls and sequences -/

def Holds (list : PointerList) (address : Nat) : Prop :=
  ∃ entries, Visits list.chain.heap Node.next list.chain.first entries ∧
    address ∈ addresses entries

/-- What is given for a call: `malloc` gives an address that is not in use, and the index of
`ListInsert` is an element of the list. -/
def Allows (list : PointerList) : ListCall → Prop
  | .append _ _ malloc => ∀ newel ∈ malloc, list.chain.heap newel = none
  | .insert _ _ index malloc =>
      (∀ newel ∈ malloc, list.chain.heap newel = none) ∧ ∀ address ∈ index, list.Holds address
  | _ => True

/-- The lists that calls of the functions make of an empty one. -/
inductive Reachable : PointerList → Prop
  | zero (heap : Heap Nat ListPointer) : Reachable (zero heap)
  | step {list next : PointerList} {call : ListCall} {reply : ListReply}
      (reached : Reachable list) (allowed : list.Allows call)
      (performed : list.perform call = some (reply, next)) : Reachable next

end PointerList

def Adds (content index malloc : ListPointer) (entries : Entries) (reply : ListReply)
    (after : Entries) : Prop :=
  reply = .element malloc ∧
    match malloc, index with
    | none, _ => after = entries
    | some newel, none => after = entries ++ [(newel, content)]
    | some newel, some index => ∃ before entry behind,
        entries = before ++ entry :: behind ∧ entry.1 = index ∧
          after = before ++ (newel, content) :: entry :: behind

def Removes (accepted : ListPointer → Bool) (freeContent : Bool) (entries : Entries)
    (reply : ListReply) (after : Entries) : Prop :=
  if ∀ entry ∈ entries, accepted entry.2 = false then reply = .removed 0 [] ∧ after = entries
  else ∃ before entry behind, entries = before ++ entry :: behind ∧ accepted entry.2 = true ∧
    reply = .removed 1 (if freeContent then entry.2.toList else []) ∧ after = before ++ behind

def Finds (accepted : ListPointer → Bool) (entries : Entries) (reply : ListReply)
    (after : Entries) : Prop :=
  after = entries ∧ ∃ found, reply = .element found ∧
    (found.isSome ↔ ∃ entry ∈ entries, accepted entry.2 = true) ∧
    ∀ address ∈ found, ∃ entry ∈ entries, entry.1 = address ∧ accepted entry.2 = true

/-- What a call is to do to a sequence, and to return. -/
def ListCall.Changes : ListCall → Entries → ListReply → Entries → Prop
  | .append content _ malloc => Adds content none malloc
  | .insert content _ index malloc => Adds content index malloc
  | .findItem content callback => Finds (PointerList.accepts callback content)
  | .remove content => Removes (PointerList.accepts none content) true
  | .detach content => Removes (PointerList.accepts none content) false
  | .removeItem content callback => Removes (PointerList.accepts callback content) true
  | .detachItem content callback => Removes (PointerList.accepts callback content) false
  | .detachHead => fun entries reply after =>
      reply = .content (entries.head?.bind Prod.snd) ∧ after = entries.tail
  | .popTail => fun entries reply after =>
      reply = .content (entries.getLast?.bind Prod.snd) ∧ after = entries.dropLast
  | .empty => fun entries reply after =>
      reply = .emptied (entries.flatMap fun entry => entry.2.toList) ∧ after = []

namespace PointerList

variable {list : PointerList} {entries : Entries}

theorem Represents.mem_of_holds (represents : list.Represents entries) {address : Nat}
    (holds : list.Holds address) : address ∈ addresses entries := by
  rcases holds with ⟨others, visits, member⟩
  rwa [represents.shows.forward.unique visits]

def Performs (list : PointerList) (call : ListCall) (entries : Entries) : Prop :=
  ∃ reply next after, list.perform call = some (reply, next) ∧ next.Represents after ∧
    call.Changes entries reply after ∧ Frame list next entries after

theorem frame_self (list : PointerList) (entries : Entries) : Frame list list entries entries :=
  fun _ outside => (if_neg outside).symm

theorem performs_append (represents : list.Represents entries) (content : ListPointer) (size : Nat)
    {malloc : ListPointer} (free : ∀ newel ∈ malloc, list.chain.heap newel = none) :
    list.Performs (.append content size malloc) entries := by
  cases malloc with
  | none => exact ⟨_, _, _, rfl, represents, ⟨rfl, rfl⟩, frame_self list entries⟩
  | some newel =>
      rcases appendNoMalloc_spec represents (free newel rfl) content size with
        ⟨next, ran, represents', -, frame⟩
      refine ⟨.element (some newel), next, _, ?_, represents', ⟨rfl, rfl⟩, frame⟩
      rw [perform, append, ran]
      rfl

theorem performs_insert (represents : list.Represents entries) (content : ListPointer) (size : Nat)
    {index malloc : ListPointer} (free : ∀ newel ∈ malloc, list.chain.heap newel = none)
    (inside : ∀ address ∈ index, list.Holds address) :
    list.Performs (.insert content size index malloc) entries := by
  cases malloc with
  | none => exact ⟨_, _, _, rfl, represents, ⟨rfl, rfl⟩, frame_self list entries⟩
  | some newel =>
      cases index with
      | none =>
          rcases appendNoMalloc_spec represents (free newel rfl) content size with
            ⟨next, ran, represents', -, frame⟩
          refine ⟨.element (some newel), next, _, ?_, represents', ⟨rfl, rfl⟩, frame⟩
          rw [perform, insert, ran]
          rfl
      | some index =>
          have member := represents.mem_of_holds (inside index rfl)
          rcases List.mem_map.mp member with ⟨entry, here, rfl⟩
          rcases List.append_of_mem here with ⟨before, after, rfl⟩
          rcases insert_spec represents (free newel rfl) content size with
            ⟨next, ran, represents', -, frame⟩
          refine ⟨.element (some newel), next, _, ?_, represents',
            ⟨rfl, before, entry, after, rfl, rfl, rfl⟩, frame⟩
          rw [perform, ran]
          rfl

theorem performs_findItem (represents : list.Represents entries) (content : ListPointer)
    (callback : Option (ListPointer → ListPointer → Bool)) :
    list.Performs (.findItem content callback) entries := by
  have searches := findItem_eq represents content callback
  rcases selected_cases list.current (accepts callback content) entries with missed | found
  · refine ⟨.element none, list, entries, ?_, represents, ⟨rfl, none, rfl, ?_, nofun⟩,
      frame_self list entries⟩
    · rw [perform, searches, missed.1]
      rfl
    · apply iff_of_false Bool.false_ne_true
      rintro ⟨entry, member, holds⟩
      exact Bool.false_ne_true ((missed.2 entry member).symm.trans holds)
  · rcases found with ⟨before, entry, after, rfl, holds, found⟩
    have member : entry ∈ before ++ entry :: after := by simp
    refine ⟨.element (some entry.1), { list with current := some entry.1 }, _, ?_,
      ⟨represents.linked, represents.nodup, represents.count, ?_⟩, ⟨rfl, some entry.1, rfl, ?_, ?_⟩,
      frame_self list _⟩
    · rw [perform, searches, found]
      rfl
    · rintro address ⟨⟩
      exact List.mem_map_of_mem member
    · exact iff_of_true rfl ⟨entry, member, holds⟩
    · rintro address ⟨⟩
      exact ⟨entry, member, rfl, holds⟩

theorem performUnlink_spec (represents : list.Represents entries) (content : ListPointer)
    (callback : Option (ListPointer → ListPointer → Bool)) (freeContent : Bool) :
    ∃ reply next after, list.performUnlink content callback freeContent = some (reply, next) ∧
      next.Represents after ∧
      Removes (accepts callback content) freeContent entries reply after ∧
      Frame list next entries after := by
  rcases unlink_spec represents content callback freeContent with missed | found
  · refine ⟨.removed 0 [], list, entries, ?_, represents, ?_, frame_self list entries⟩
    · rw [performUnlink, missed.2.2]
      rfl
    · rw [Removes, if_pos missed.2.1]
      exact ⟨rfl, rfl⟩
  · rcases found with ⟨before, entry, after, next, rfl, holds, -, ran, represents', -, frame⟩
    have present : ¬ ∀ other ∈ before ++ entry :: after,
        accepts callback content other.2 = false := by
      intro missed
      exact Bool.false_ne_true ((missed entry (by simp)).symm.trans holds)
    refine ⟨.removed 1 (if freeContent then entry.2.toList else []), next, before ++ after, ?_,
      represents', ?_, frame⟩
    · rw [performUnlink, ran]
      rfl
    · rw [Removes, if_neg present]
      exact ⟨before, entry, after, rfl, holds, rfl, rfl⟩

theorem performs_detachHead (represents : list.Represents entries) :
    list.Performs .detachHead entries := by
  cases entries with
  | nil =>
      refine ⟨.content none, list, [], ?_, represents, ⟨rfl, rfl⟩, frame_self list []⟩
      rw [perform, detachHead_nil represents]
      rfl
  | cons entry after =>
      rcases detachHead_spec represents with ⟨next, ran, represents', -, frame⟩
      refine ⟨.content entry.2, next, after, ?_, represents', ⟨rfl, rfl⟩, frame⟩
      rw [perform, ran]
      rfl

theorem performs_popTail (represents : list.Represents entries) :
    list.Performs .popTail entries := by
  cases entries using List.reverseRecOn with
  | nil =>
      refine ⟨.content none, list, [], ?_, represents, ⟨rfl, rfl⟩, frame_self list []⟩
      rw [perform, popTail_nil represents]
      rfl
  | append_singleton before entry =>
      rcases popTail_spec represents with ⟨next, ran, represents', -, frame⟩
      refine ⟨.content entry.2, next, before, ?_, represents', ⟨?_, ?_⟩, frame⟩
      · rw [perform, ran]
        rfl
      · rw [List.getLast?_concat]
        rfl
      · rw [List.dropLast_concat]

theorem perform_spec (represents : list.Represents entries) {call : ListCall}
    (allowed : list.Allows call) : list.Performs call entries := by
  cases call with
  | append content size malloc => exact performs_append represents content size allowed
  | insert content size index malloc =>
      exact performs_insert represents content size allowed.1 allowed.2
  | findItem content callback => exact performs_findItem represents content callback
  | remove content => exact performUnlink_spec represents content none true
  | detach content => exact performUnlink_spec represents content none false
  | removeItem content callback => exact performUnlink_spec represents content callback true
  | detachItem content callback => exact performUnlink_spec represents content callback false
  | detachHead => exact performs_detachHead represents
  | popTail => exact performs_popTail represents
  | empty =>
      rcases empty_spec represents with ⟨next, ran, represents', -, frame⟩
      refine ⟨_, next, [], ?_, represents', ⟨rfl, rfl⟩, frame⟩
      rw [perform, ran]
      rfl

theorem represents_zero (heap : Heap Nat ListPointer) : (zero heap).Represents [] :=
  ⟨⟨⟨rfl, trivial⟩, rfl, trivial⟩, List.nodup_nil, rfl, nofun⟩

theorem Reachable.represents (reached : Reachable list) :
    ∃ entries, list.Represents entries := by
  induction reached with
  | zero heap => exact ⟨[], represents_zero heap⟩
  | step _ allowed performed induction =>
      rcases induction with ⟨entries, represents⟩
      rcases perform_spec represents allowed with ⟨reply, next, after, ran, represents', -⟩
      apply Exists.intro after
      rw [performed, Option.some.injEq, Prod.mk.injEq] at ran
      rwa [ran.2]

/-- A list that has been built up by any calls shows a sequence from both ends, and any
further call changes this sequence as it is to do. -/
theorem refines_sequence (reached : Reachable list) {call : ListCall}
    (allowed : list.Allows call) :
    ∃ entries reply next after, list.Shows entries ∧ list.perform call = some (reply, next) ∧
      next.Shows after ∧ call.Changes entries reply after := by
  rcases reached.represents with ⟨entries, represents⟩
  rcases perform_spec represents allowed with ⟨reply, next, after, ran, represents', changes, -⟩
  exact ⟨entries, reply, next, after, represents.shows, ran, represents'.shows, changes⟩

/-- The second of two elements is taken out. -/
theorem refines_sequence_second :
    ∃ list entries reply next after, Shows list entries ∧
      list.perform (.remove (some 20)) = some (reply, next) ∧ next.Shows after ∧
      (ListCall.remove (some 20)).Changes entries reply after := by
  have first := @Reachable.step _ _ (.append (some 10) 4 (some 1)) _ (.zero fun _ => none)
    (by rintro newel ⟨⟩; rfl) rfl
  have second := @Reachable.step _ _ (.append (some 20) 4 (some 2)) _ first
    (by rintro newel ⟨⟩; rfl) rfl
  exact ⟨_, refines_sequence second trivial⟩

end PointerList

end MqttClient
