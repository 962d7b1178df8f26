import MqttClient.Foundation.DoublyLinked
import Mathlib.Tactic.Ring

/-! # `LinkedList.c` with its pointers

The functions of `LinkedList.c` as they read and write the elements in memory. What `malloc`
gives is part of a call: an address, or NULL. An access to an address that holds no element
has no result. Contents are addresses that the functions compare, hand on and free.
-/

namespace MqttClient

open Foundation.DoublyLinked

abbrev ListPointer := Option Nat

structure PointerList where
  chain : Chain Nat ListPointer
  current : ListPointer
  count : Int
  size : Nat

namespace PointerList

/-- `ListZero`, and with it `ListInitialize`. -/
def zero (heap : Heap Nat ListPointer) : PointerList := ⟨⟨heap, none, none⟩, none, 0, 0⟩

/-- `++(aList->count); aList->size += size;`, with the pointers as they have been set. -/
def grow (list : PointerList) (chain : Chain Nat ListPointer) (size : Nat) : PointerList where
  chain := chain
  current := list.current
  count := list.count + 1
  size := (list.size + size) % 2 ^ 64

/-- `if (aList->first == NULL) aList->first = newel; else aList->last->next = newel;` -/
def hookLast (chain : Chain Nat ListPointer) (newel : ListPointer) :
    Option (Chain Nat ListPointer) :=
  if chain.first = none then some { chain with first := newel }
  else chain.last.bind fun last => chain.setNext last newel

def appendNoMalloc (list : PointerList) (content : ListPointer) (newel size : Nat) :
    Option PointerList := do
  let chain ← hookLast (list.chain.store newel ⟨list.chain.last, none, content⟩) (some newel)
  return list.grow { chain with last := some newel } size

def append (list : PointerList) (content : ListPointer) (size : Nat) (malloc : ListPointer) :
    Option (ListPointer × PointerList) :=
  match malloc with
  | none => some (none, list)
  | some newel => (list.appendNoMalloc content newel size).map fun list => (some newel, list)

/-- `ListInsert`: in front of the element at `index`, or at the end. -/
def insert (list : PointerList) (content : ListPointer) (size : Nat) (index malloc : ListPointer) :
    Option (ListPointer × PointerList) :=
  match malloc, index with
  | none, _ => some (none, list)
  | some newel, none =>
      (list.appendNoMalloc content newel size).map fun list => (some newel, list)
  | some newel, some index => do
      let element ← list.chain.heap index
      let stored := list.chain.store newel ⟨element.prev, some index, content⟩
      let chain ← stored.setPrev index (some newel)
      let chain ← chain.setForward element.prev (some newel)
      return (some newel, list.grow chain size)

def nextElement (list : PointerList) (pos : ListPointer) : Option ListPointer :=
  match pos with
  | none => some list.chain.first
  | some address => (list.chain.heap address).map Node.next

def accepts (callback : Option (ListPointer → ListPointer → Bool))
    (wanted content : ListPointer) : Bool :=
  match callback with
  | none => content = wanted
  | some callback => callback content wanted

/-- The loop of `ListFindItem`, for some number of turns. -/
def findLoop (list : PointerList) (accepted : ListPointer → Bool) :
    (turns : Nat) → (pos : ListPointer) → Option ListPointer
  | 0, _ => none
  | turns + 1, pos => (list.nextElement pos).bind fun next =>
      match next with
      | none => some none
      | some address => (list.chain.heap address).bind fun element =>
          if accepted element.content then some (some address)
          else findLoop list accepted turns (some address)

/-- The part of `ListFindItem` behind a look at `current`. -/
def search (list : PointerList) (accepted : ListPointer → Bool) :
    Option (ListPointer × PointerList) :=
  (list.findLoop accepted (list.count.toNat + 1) none).map fun found =>
    (found, if found = none then list else { list with current := found })

/-- `ListFindItem`, and `ListFind` without a callback. -/
def findItem (list : PointerList) (content : ListPointer)
    (callback : Option (ListPointer → ListPointer → Bool)) : Option (ListPointer × PointerList) :=
  match list.current with
  | none => list.search (accepts callback content)
  | some current => (list.chain.heap current).bind fun element =>
      if accepts callback content element.content then some (some current, list)
      else list.search (accepts callback content)

/-- `ListUnlink`: what it returns, and what it frees besides the element. -/
def unlink (list : PointerList) (content : ListPointer)
    (callback : Option (ListPointer → ListPointer → Bool)) (freeContent : Bool) :
    Option ((Nat × List Nat) × PointerList) := do
  let saved := list.current
  let found ← list.findItem content callback
  match found.2.current, found.1 with
  | _, none => return ((0, []), found.2)
  | none, some _ => none
  | some current, some _ =>
      let element ← found.2.chain.heap current
      let chain ← found.2.chain.setForward element.prev element.next
      let element ← chain.heap current
      let chain ← chain.setBackward element.next element.prev
      let element ← chain.heap current
      let freed := if freeContent then element.content.toList else []
      let chain ← chain.free current
      return ((1, freed), {
        chain
        current := if saved = some current then element.next else saved
        count := found.2.count - 1
        size := found.2.size })

/-- `if (aList->first) aList->first->prev = NULL;` -/
def unhookFirst (chain : Chain Nat ListPointer) : Option (Chain Nat ListPointer) :=
  match chain.first with
  | none => some chain
  | some first => chain.setPrev first none

/-- `if (aList->last) aList->last->next = NULL;` -/
def unhookLast (chain : Chain Nat ListPointer) : Option (Chain Nat ListPointer) :=
  match chain.last with
  | none => some chain
  | some last => chain.setNext last none

def detachHead (list : PointerList) : Option (ListPointer × PointerList) :=
  if 0 < list.count then do
    let first ← list.chain.first
    let element ← list.chain.heap first
    let chain ← unhookFirst {
      heap := list.chain.heap
      first := element.next
      last := if list.chain.last = some first then none else list.chain.last }
    let chain ← chain.free first
    return (element.content, {
      chain
      current := if list.current = some first then element.next else list.current
      count := list.count - 1
      size := list.size })
  else some (none, list)

def popTail (list : PointerList) : Option (ListPointer × PointerList) :=
  if 0 < list.count then do
    let last ← list.chain.last
    let element ← list.chain.heap last
    let chain ← unhookLast {
      heap := list.chain.heap
      first := if list.chain.first = some last then none else list.chain.first
      last := element.prev }
    let chain ← chain.free last
    return (element.content, {
      chain
      current := if list.current = some last then element.prev else list.current
      count := list.count - 1
      size := list.size })
  else some (none, list)

/-- The loop of `ListEmpty`, for some number of turns: the contents that it frees, and the
chain behind it. -/
def emptyLoop : (turns : Nat) → Chain Nat ListPointer → Option (List Nat × Chain Nat ListPointer)
  | 0, _ => none
  | turns + 1, chain =>
      match chain.first with
      | none => some ([], chain)
      | some first => (chain.heap first).bind fun element =>
          ({ chain with first := element.next }.free first).bind fun chain =>
            (emptyLoop turns chain).map (Prod.map (element.content.toList ++ ·) id)

def empty (list : PointerList) : Option (List Nat × PointerList) :=
  (emptyLoop (list.count.toNat + 1) list.chain).map fun emptied =>
    (emptied.1, ⟨⟨emptied.2.heap, none, none⟩, none, 0, 0⟩)

end PointerList

/-- A call of a function of `LinkedList.c`, with what `malloc` gives. -/
inductive ListCall
  | append (content : ListPointer) (size : Nat) (malloc : ListPointer)
  | insert (content : ListPointer) (size : Nat) (index malloc : ListPointer)
  | findItem (content : ListPointer) (callback : Option (ListPointer → ListPointer → Bool))
  | remove (content : ListPointer)
  | detach (content : ListPointer)
  | removeItem (content : ListPointer) (callback : Option (ListPointer → ListPointer → Bool))
  | detachItem (content : ListPointer) (callback : Option (ListPointer → ListPointer → Bool))
  | detachHead
  | popTail
  | empty

inductive ListReply
  | element (pointer : ListPointer)
  | removed (rc : Nat) (freed : List Nat)
  | content (pointer : ListPointer)
  | emptied (freed : List Nat)
  deriving DecidableEq, Repr

namespace PointerList

def performUnlink (list : PointerList) (content : ListPointer)
    (callback : Option (ListPointer → ListPointer → Bool)) (freeContent : Bool) :
    Option (ListReply × PointerList) :=
  (list.unlink content callback freeContent).map fun result =>
    (.removed result.1.1 result.1.2, result.2)

def perform (list : PointerList) : ListCall → Option (ListReply × PointerList)
  | .append content size malloc =>
      (list.append content size malloc).map fun result => (.element result.1, result.2)
  | .insert content size index malloc =>
      (list.insert content size index malloc).map fun result => (.element result.1, result.2)
  | .findItem content callback =>
      (list.findItem content callback).map fun result => (.element result.1, result.2)
  | .remove content => list.performUnlink content none true
  | .detach content => list.performUnlink content none false
  | .removeItem content callback => list.performUnlink content callback true
  | .detachItem content callback => list.performUnlink content callback false
  | .detachHead => list.detachHead.map fun result => (.content result.1, result.2)
  | .popTail => list.popTail.map fun result => (.content result.1, result.2)
  | .empty => list.empty.map fun result => (.emptied result.1, result.2)

end PointerList

end MqttClient
