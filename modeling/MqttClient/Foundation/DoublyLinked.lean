import Mathlib.Data.List.Induction
import Mathlib.Data.List.Nodup
import Mathlib.Logic.Function.Basic
import Mathlib.Tactic.Common

/-! # Doubly linked nodes

Nodes in memory that are linked both ways, between a pointer to the first and one to the
last. A part of such a chain is known by its nodes and by what it links to on both sides, so
that chains are taken apart and put together at any place.
-/

namespace MqttClient.Foundation.DoublyLinked

variable {ι γ : Type}

/-- A node, with null pointers as `none`. -/
structure Node (ι γ : Type) where
  prev : Option ι
  next : Option ι
  content : γ
  deriving DecidableEq, Repr

abbrev Heap (ι γ : Type) := ι → Option (Node ι γ)

def Visits (heap : Heap ι γ) (link : Node ι γ → Option ι) : Option ι → List (ι × γ) → Prop
  | pointer, [] => pointer = none
  | pointer, entry :: entries => pointer = some entry.1 ∧
      ∃ node, heap entry.1 = some node ∧ node.content = entry.2 ∧
        Visits heap link (link node) entries

def head : List (ι × γ) → Option ι → Option ι
  | [], behind => behind
  | entry :: _, _ => some entry.1

def last : Option ι → List (ι × γ) → Option ι
  | front, [] => front
  | _, entry :: entries => last (some entry.1) entries

def Segment (heap : Heap ι γ) : Option ι → List (ι × γ) → Option ι → Prop
  | _, [], _ => True
  | front, entry :: entries, behind =>
      heap entry.1 = some ⟨front, head entries behind, entry.2⟩ ∧
        Segment heap (some entry.1) entries behind

def addresses (entries : List (ι × γ)) : List ι := entries.map Prod.fst

section Segments

variable {heap other : Heap ι γ} {front behind : Option ι} {entries before after : List (ι × γ)}
  {entry : ι × γ}

@[simp] theorem addresses_nil : addresses ([] : List (ι × γ)) = [] := rfl

@[simp] theorem addresses_cons (entry : ι × γ) :
    addresses (entry :: entries) = entry.1 :: addresses entries := rfl

@[simp] theorem addresses_append (left right : List (ι × γ)) :
    addresses (left ++ right) = addresses left ++ addresses right :=
  List.map_append

@[simp] theorem head_append (left right : List (ι × γ)) (behind : Option ι) :
    head (left ++ right) behind = head left (head right behind) := by
  cases left with
  | nil => rfl
  | cons entry left => rfl

@[simp] theorem last_append (front : Option ι) (left right : List (ι × γ)) :
    last front (left ++ right) = last (last front left) right := by
  induction left generalizing front with
  | nil => rfl
  | cons entry left induction => exact induction (some entry.1)

theorem segment_append (left right : List (ι × γ)) :
    Segment heap front (left ++ right) behind ↔
      Segment heap front left (head right behind) ∧
        Segment heap (last front left) right behind := by
  induction left generalizing front with
  | nil => simp [Segment, last]
  | cons entry left induction =>
      rw [List.cons_append, Segment, Segment, head_append, induction, and_assoc]
      rfl

theorem Segment.congr (linked : Segment heap front entries behind)
    (same : ∀ address ∈ addresses entries, other address = heap address) :
    Segment other front entries behind := by
  induction entries generalizing front with
  | nil => trivial
  | cons entry entries induction =>
      constructor
      · rw [same entry.1 List.mem_cons_self]
        exact linked.1
      · apply induction linked.2
        intro address member
        exact same address (List.mem_cons_of_mem _ member)

theorem Segment.visits_next (linked : Segment heap front entries none) :
    Visits heap Node.next (head entries none) entries := by
  induction entries generalizing front with
  | nil => rfl
  | cons entry entries induction => exact ⟨rfl, _, linked.1, rfl, induction linked.2⟩

theorem Segment.visits_prev (linked : Segment heap none entries behind) :
    Visits heap Node.prev (last none entries) entries.reverse := by
  induction entries using List.reverseRecOn generalizing behind with
  | nil => rfl
  | append_singleton entries entry induction =>
      have parts := (segment_append entries [entry]).mp linked
      rw [List.reverse_concat, last_append]
      exact ⟨rfl, _, parts.2.1, rfl, induction parts.1⟩

theorem Visits.unique {link : Node ι γ → Option ι} {pointer : Option ι} {others : List (ι × γ)}
    (visits : Visits heap link pointer entries) (also : Visits heap link pointer others) :
    entries = others := by
  induction entries generalizing pointer others with
  | nil =>
      cases others with
      | nil => rfl
      | cons other others => exact absurd (also.1.symm.trans visits) (Option.some_ne_none _)
  | cons entry entries induction =>
      cases others with
      | nil => exact absurd (visits.1.symm.trans also) (Option.some_ne_none _)
      | cons other others =>
          have address : entry.1 = other.1 := Option.some.inj (visits.1.symm.trans also.1)
          rcases visits.2 with ⟨node, here, content, rest⟩
          rcases also.2 with ⟨node', here', content', rest'⟩
          rw [address, here', Option.some.injEq] at here
          subst here
          rw [induction rest rest', Prod.ext address (content.symm.trans content')]

theorem Segment.heap_eq (linked : Segment heap front (before ++ entry :: after) behind) :
    heap entry.1 = some ⟨last front before, head after behind, entry.2⟩ :=
  ((segment_append before (entry :: after)).mp linked).2.1

theorem nodup_around (nodup : (addresses (before ++ entry :: after)).Nodup) :
    (addresses before).Nodup ∧ (addresses after).Nodup ∧ entry.1 ∉ addresses before ∧
      entry.1 ∉ addresses after ∧ ∀ address ∈ addresses before, address ∉ addresses after := by
  rw [addresses_append, addresses_cons, List.nodup_append, List.nodup_cons] at nodup
  refine ⟨nodup.1, nodup.2.1.2, ?_, nodup.2.1.1, ?_⟩
  · intro member
    exact nodup.2.2 entry.1 member entry.1 List.mem_cons_self rfl
  · intro address front back
    exact nodup.2.2 address front address (List.mem_cons_of_mem _ back) rfl

theorem head_eq_none_iff : head entries none = none ↔ entries = [] := by
  cases entries with
  | nil => simp [head]
  | cons entry entries => simp [head]

theorem last_eq_none_iff : last none entries = none ↔ entries = [] := by
  cases entries using List.reverseRecOn with
  | nil => simp [last]
  | append_singleton entries entry => simp [last]

end Segments

/-! ## Pointers to both ends -/

structure Chain (ι γ : Type) where
  heap : Heap ι γ
  first : Option ι
  last : Option ι

namespace Chain

variable {chain other : Chain ι γ} {front behind : Option ι} {entries before after : List (ι × γ)}
  {entry : ι × γ}

section Stores

variable [DecidableEq ι]

def store (chain : Chain ι γ) (address : ι) (node : Node ι γ) : Chain ι γ :=
  { chain with heap := Function.update chain.heap address (some node) }

def free (chain : Chain ι γ) (address : ι) : Option (Chain ι γ) :=
  (chain.heap address).map fun _ =>
    { chain with heap := Function.update chain.heap address none }

def setNext (chain : Chain ι γ) (address : ι) (next : Option ι) : Option (Chain ι γ) :=
  (chain.heap address).map fun node => chain.store address { node with next }

def setPrev (chain : Chain ι γ) (address : ι) (prev : Option ι) : Option (Chain ι γ) :=
  (chain.heap address).map fun node => chain.store address { node with prev }

def setForward (chain : Chain ι γ) (front target : Option ι) : Option (Chain ι γ) :=
  match front with
  | none => some { chain with first := target }
  | some address => chain.setNext address target

def setBackward (chain : Chain ι γ) (behind target : Option ι) : Option (Chain ι γ) :=
  match behind with
  | none => some { chain with last := target }
  | some address => chain.setPrev address target

end Stores

def Forward (chain : Chain ι γ) (before : List (ι × γ)) (behind : Option ι) : Prop :=
  chain.first = head before behind ∧ Segment chain.heap none before behind

def Backward (chain : Chain ι γ) (front : Option ι) (after : List (ι × γ)) : Prop :=
  chain.last = DoublyLinked.last front after ∧ Segment chain.heap front after none

def Linked (chain : Chain ι γ) (entries : List (ι × γ)) : Prop :=
  chain.Forward entries none ∧ chain.Backward none entries

theorem linked_append : chain.Linked (before ++ after) ↔
    chain.Forward before (head after none) ∧
      chain.Backward (DoublyLinked.last none before) after := by
  simp only [Linked, Forward, Backward, head_append, last_append, segment_append]
  tauto

theorem Forward.congr (forward : chain.Forward before behind) (first : other.first = chain.first)
    (same : ∀ address ∈ addresses before, other.heap address = chain.heap address) :
    other.Forward before behind :=
  ⟨first.trans forward.1, forward.2.congr same⟩

theorem Backward.congr (backward : chain.Backward front after) (last : other.last = chain.last)
    (same : ∀ address ∈ addresses after, other.heap address = chain.heap address) :
    other.Backward front after :=
  ⟨last.trans backward.1, backward.2.congr same⟩

theorem Linked.ends (linked : chain.Linked entries) : chain.first = none ↔ chain.last = none := by
  rw [linked.1.1, linked.2.1, head_eq_none_iff, last_eq_none_iff]

theorem Linked.heap_eq (linked : chain.Linked (before ++ entry :: after)) :
    chain.heap entry.1 =
      some ⟨DoublyLinked.last none before, head after none, entry.2⟩ :=
  linked.1.2.heap_eq

section Changes

variable [DecidableEq ι]

@[simp] theorem first_store (chain : Chain ι γ) (address : ι) (node : Node ι γ) :
    (chain.store address node).first = chain.first := rfl

@[simp] theorem last_store (chain : Chain ι γ) (address : ι) (node : Node ι γ) :
    (chain.store address node).last = chain.last := rfl

@[simp] theorem heap_store_self (chain : Chain ι γ) (address : ι) (node : Node ι γ) :
    (chain.store address node).heap address = some node :=
  Function.update_self ..

theorem heap_store_of_ne {address elsewhere : ι} (different : elsewhere ≠ address)
    (node : Node ι γ) : (chain.store address node).heap elsewhere = chain.heap elsewhere :=
  Function.update_of_ne different ..

theorem free_of_some {address : ι} {node : Node ι γ} (allocated : chain.heap address = some node) :
    ∃ other, chain.free address = some other ∧ other.first = chain.first ∧
      other.last = chain.last ∧ other.heap address = none ∧
      ∀ elsewhere, elsewhere ≠ address → other.heap elsewhere = chain.heap elsewhere := by
  rw [free, allocated]
  apply Exists.intro
  refine ⟨rfl, rfl, rfl, Function.update_self .., ?_⟩
  intro elsewhere different
  exact Function.update_of_ne different ..

theorem Forward.setForward (forward : chain.Forward before behind)
    (nodup : (addresses before).Nodup) (target : Option ι) :
    ∃ other, chain.setForward (DoublyLinked.last none before) target = some other ∧
      other.Forward before target ∧ other.last = chain.last ∧
      ∀ address ∉ addresses before, other.heap address = chain.heap address := by
  cases before using List.reverseRecOn with
  | nil =>
      apply Exists.intro { chain with first := target }
      exact ⟨rfl, ⟨rfl, trivial⟩, rfl, fun _ _ => rfl⟩
  | append_singleton before entry =>
      rw [addresses_append, List.nodup_append] at nodup
      have parts := (segment_append before [entry]).mp forward.2
      have here : chain.heap entry.1 = some ⟨DoublyLinked.last none before, behind, entry.2⟩ :=
        parts.2.1
      apply Exists.intro (chain.store entry.1 ⟨DoublyLinked.last none before, target, entry.2⟩)
      refine ⟨?_, ⟨?_, (segment_append before [entry]).mpr ⟨?_, ?_, trivial⟩⟩, rfl, ?_⟩
      · rw [last_append]
        simp only [DoublyLinked.last, Chain.setForward, setNext, here, Option.map_some]
      · rw [first_store, forward.1, head_append, head_append]
        rfl
      · apply parts.1.congr
        intro address member
        apply heap_store_of_ne
        exact nodup.2.2 address member entry.1 List.mem_cons_self
      · exact heap_store_self ..
      · intro address elsewhere
        apply heap_store_of_ne
        intro same
        rw [addresses_append] at elsewhere
        exact elsewhere (List.mem_append_right _ (same ▸ List.mem_cons_self))

theorem Backward.setBackward (backward : chain.Backward front after)
    (nodup : (addresses after).Nodup) (target : Option ι) :
    ∃ other, chain.setBackward (head after none) target = some other ∧
      other.Backward target after ∧ other.first = chain.first ∧
      ∀ address ∉ addresses after, other.heap address = chain.heap address := by
  cases after with
  | nil =>
      apply Exists.intro { chain with last := target }
      exact ⟨rfl, ⟨rfl, trivial⟩, rfl, fun _ _ => rfl⟩
  | cons entry after =>
      have absent := (List.nodup_cons.mp nodup).1
      have here := backward.2.1
      apply Exists.intro (chain.store entry.1 ⟨target, head after none, entry.2⟩)
      refine ⟨?_, ⟨backward.1, heap_store_self .., ?_⟩, rfl, ?_⟩
      · simp only [head, Chain.setBackward, setPrev, here, Option.map_some]
      · apply backward.2.2.congr
        intro address member
        apply heap_store_of_ne
        rintro rfl
        exact absent member
      · intro address elsewhere
        apply heap_store_of_ne
        intro same
        exact elsewhere (same ▸ List.mem_cons_self)

/-! Nodes are put in and taken out. -/

variable {address : ι}

theorem Linked.store (linked : chain.Linked entries) (fresh : address ∉ addresses entries)
    (node : Node ι γ) : (chain.store address node).Linked entries := by
  have same : ∀ elsewhere ∈ addresses entries,
      (chain.store address node).heap elsewhere = chain.heap elsewhere := by
    intro elsewhere member
    apply heap_store_of_ne
    rintro rfl
    exact fresh member
  exact ⟨linked.1.congr rfl same, linked.2.congr rfl same⟩

theorem Linked.append (linked : chain.Linked entries) (nodup : (addresses entries).Nodup)
    (fresh : address ∉ addresses entries) (content : γ) :
    ∃ other, (chain.store address ⟨chain.last, none, content⟩).setForward chain.last
        (some address) = some other ∧
      { other with last := some address }.Linked (entries ++ [(address, content)]) ∧
      ∀ elsewhere ∉ address :: addresses entries,
        other.heap elsewhere = chain.heap elsewhere := by
  have stored := linked.store fresh ⟨chain.last, none, content⟩
  rcases stored.1.setForward nodup (some address) with ⟨other, done, forward, -, same⟩
  rw [← linked.2.1] at done
  refine ⟨other, done, linked_append.mpr ⟨forward, rfl, ?_, trivial⟩, ?_⟩
  · rw [← linked.2.1]
    exact (same address fresh).trans (heap_store_self ..)
  · intro elsewhere outside
    rw [List.mem_cons, not_or] at outside
    exact (same elsewhere outside.2).trans (heap_store_of_ne outside.1 _)

theorem Linked.insert (linked : chain.Linked (before ++ entry :: after))
    (nodup : (addresses (before ++ entry :: after)).Nodup)
    (fresh : address ∉ addresses (before ++ entry :: after)) (content : γ) :
    ∃ middle other, (chain.store address
        ⟨DoublyLinked.last none before, some entry.1, content⟩).setPrev entry.1 (some address) =
          some middle ∧
      middle.setForward (DoublyLinked.last none before) (some address) = some other ∧
      other.Linked (before ++ (address, content) :: entry :: after) ∧
      ∀ elsewhere ∉ address :: addresses (before ++ entry :: after),
        other.heap elsewhere = chain.heap elsewhere := by
  rcases nodup_around nodup with ⟨nodupBefore, nodupAfter, outBefore, outAfter, apart⟩
  have stored := linked.store fresh ⟨DoublyLinked.last none before, some entry.1, content⟩
  rw [addresses_append, addresses_cons, List.mem_append, List.mem_cons, not_or, not_or] at fresh
  have parts := linked_append.mp stored
  rcases parts.2.setBackward (List.nodup_cons.mpr ⟨outAfter, nodupAfter⟩) (some address) with
    ⟨middle, first, backward, keepsFirst, sameBack⟩
  have front : middle.Forward before (some entry.1) := by
    apply parts.1.congr keepsFirst
    intro elsewhere member
    apply sameBack
    rw [addresses_cons, List.mem_cons, not_or]
    exact ⟨fun same => outBefore (same ▸ member), apart elsewhere member⟩
  rcases front.setForward nodupBefore (some address) with
    ⟨other, second, forward, keepsLast, sameFront⟩
  refine ⟨middle, other, first, second, linked_append.mpr ⟨forward, ?_⟩, ?_⟩
  · have behind : other.Backward (some address) (entry :: after) := by
      apply backward.congr keepsLast
      intro elsewhere member
      apply sameFront
      intro inFront
      rcases List.mem_cons.mp member with rfl | member
      · exact outBefore inFront
      · exact apart elsewhere inFront member
    refine ⟨behind.1, ?_, behind.2⟩
    rw [sameFront address fresh.1, sameBack address]
    · exact heap_store_self ..
    · rw [addresses_cons, List.mem_cons, not_or]
      exact fresh.2
  · intro elsewhere outside
    rw [List.mem_cons, addresses_append, List.mem_append, not_or, not_or] at outside
    rw [sameFront elsewhere outside.2.1, sameBack elsewhere outside.2.2]
    exact heap_store_of_ne outside.1 _

theorem Linked.remove (linked : chain.Linked (before ++ entry :: after))
    (nodup : (addresses (before ++ entry :: after)).Nodup) :
    ∃ middle later other,
      chain.setForward (DoublyLinked.last none before) (head after none) = some middle ∧
      middle.heap entry.1 = chain.heap entry.1 ∧
      middle.setBackward (head after none) (DoublyLinked.last none before) = some later ∧
      later.heap entry.1 = chain.heap entry.1 ∧
      later.free entry.1 = some other ∧ other.Linked (before ++ after) ∧
      other.heap entry.1 = none ∧
      ∀ elsewhere ∉ addresses (before ++ entry :: after),
        other.heap elsewhere = chain.heap elsewhere := by
  rcases nodup_around nodup with ⟨nodupBefore, nodupAfter, outBefore, outAfter, apart⟩
  have parts := linked_append.mp linked
  rcases parts.1.setForward nodupBefore (head after none) with
    ⟨middle, first, forward, keepsLast, sameFront⟩
  have tail : chain.Backward (some entry.1) after := ⟨parts.2.1, parts.2.2.2⟩
  have backward : middle.Backward (some entry.1) after := by
    apply tail.congr keepsLast
    intro elsewhere member
    apply sameFront
    intro inFront
    exact apart elsewhere inFront member
  rcases backward.setBackward nodupAfter (DoublyLinked.last none before) with
    ⟨later, second, backward, keepsFirst, sameBack⟩
  have middleHere := sameFront entry.1 outBefore
  have laterHere := (sameBack entry.1 outAfter).trans middleHere
  rcases free_of_some (laterHere.trans linked.heap_eq) with
    ⟨other, third, freeFirst, freeLast, gone, sameFree⟩
  refine ⟨middle, later, other, first, middleHere, second, laterHere, third,
    linked_append.mpr ⟨?_, ?_⟩, gone, ?_⟩
  · apply forward.congr (freeFirst.trans keepsFirst)
    intro elsewhere member
    have different : elsewhere ≠ entry.1 := fun same => outBefore (same ▸ member)
    exact (sameFree elsewhere different).trans (sameBack elsewhere (apart elsewhere member))
  · apply backward.congr freeLast
    intro elsewhere member
    apply sameFree
    rintro rfl
    exact outAfter member
  · intro elsewhere outside
    rw [addresses_append, addresses_cons, List.mem_append, List.mem_cons, not_or, not_or]
      at outside
    rw [sameFree elsewhere outside.2.1, sameBack elsewhere outside.2.2,
      sameFront elsewhere outside.1]

end Changes

end Chain

end MqttClient.Foundation.DoublyLinked
