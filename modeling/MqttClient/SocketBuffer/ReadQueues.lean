import MqttClient.KeyedList
import MqttClient.TypeDefine

/-! # `SocketBuffer`: the read queues

The default queue and the saved queues of `SocketBuffer.c`. A saved queue
belongs to the connection whose read was interrupted; every other connection
reads into the default queue. The operations are stated for an arbitrary type of
received bytes, none of which they look at. Allocation succeeds.
-/

namespace MqttClient

/-- `socket_queue`. `fixedHeader` holds the `headerlen` bytes in use, `buf` the
allocated block, where a byte that nothing has written yet is `none`. -/
structure SocketQueue (β : Type) where
  socket : SOCKET
  index : Nat
  fixedHeader : List β
  buflen : Nat
  datalen : Nat
  buf : List (Option β)
  index_le : index ≤ fixedHeader.length
  header_le : fixedHeader.length ≤ 5

namespace SocketQueue

variable {β : Type}

def headerlen (queue : SocketQueue β) : Nat := queue.fixedHeader.length

/-- The queue that `SocketBuffer_newDefQ` makes: a block of 1000 bytes whose
recorded length is zero. -/
def newDefQ : SocketQueue β where
  socket := 0
  index := 0
  fixedHeader := []
  buflen := 0
  datalen := 0
  buf := List.replicate 1000 none
  index_le := Nat.le_refl 0
  header_le := Nat.zero_le 5

/-- `index++` behind a read of `fixed_header`. -/
def advance (queue : SocketQueue β) : SocketQueue β :=
  if more : queue.index < queue.headerlen then
    { queue with index := queue.index + 1, index_le := more }
  else queue

/-- `fixed_header[index++] = c` and `headerlen = index`, where there is room. -/
def putChar (c : β) (queue : SocketQueue β) : SocketQueue β :=
  if room : queue.index > 4 then queue
  else
    { queue with
      index := queue.index + 1
      fixedHeader := queue.fixedHeader.take queue.index ++ [c]
      index_le := by
        have bound := queue.index_le
        simp only [List.length_append, List.length_take, List.length_singleton]
        omega
      header_le := by
        simp only [List.length_append, List.length_take, List.length_singleton]
        omega }

def own (socket : SOCKET) (queue : SocketQueue β) : SocketQueue β :=
  { queue with socket := socket, index := 0, datalen := 0, index_le := Nat.zero_le _ }

/-- `index = 0` and `datalen = actual_len`. -/
def rewind (actualLen : Nat) (queue : SocketQueue β) : SocketQueue β :=
  { queue with index := 0, datalen := actualLen, index_le := Nat.zero_le _ }

/-- `socket = index = headerlen = datalen = 0`. -/
def reset (queue : SocketQueue β) : SocketQueue β :=
  { queue with
    socket := 0
    index := 0
    fixedHeader := []
    datalen := 0
    index_le := Nat.le_refl 0
    header_le := Nat.zero_le 5 }

/-- `realloc`: what fits of the old block, then bytes that nothing has written. -/
def realloc (bytes : Nat) (block : List (Option β)) : List (Option β) :=
  block.take bytes ++ List.replicate (bytes - block.length) none

/-- The part of `SocketBuffer_getQueuedData` that makes room. With data in the
queue the new block is copied onto itself, after the old one has been freed. -/
def enlarge (bytes : Nat) (queue : SocketQueue β) : SocketQueue β :=
  if bytes > queue.buflen then
    if queue.datalen > 0 then
      { queue with buf := List.replicate bytes none, buflen := bytes }
    else { queue with buf := realloc bytes queue.buf, buflen := bytes }
  else queue

/-- What `recv` stores in the block from an offset on. -/
def receive (offset : Nat) (data : List β) (queue : SocketQueue β) : SocketQueue β :=
  { queue with
    buf := queue.buf.take offset ++ data.map some ++ queue.buf.drop (offset + data.length) }

@[simp] theorem socket_advance (queue : SocketQueue β) :
    queue.advance.socket = queue.socket := by
  unfold advance
  split <;> rfl

@[simp] theorem socket_putChar (c : β) (queue : SocketQueue β) :
    (queue.putChar c).socket = queue.socket := by
  unfold putChar
  split <;> rfl

@[simp] theorem socket_rewind (actualLen : Nat) (queue : SocketQueue β) :
    (queue.rewind actualLen).socket = queue.socket := rfl

@[simp] theorem socket_enlarge (bytes : Nat) (queue : SocketQueue β) :
    (queue.enlarge bytes).socket = queue.socket := by
  unfold enlarge
  split
  · split <;> rfl
  · rfl

@[simp] theorem socket_receive (offset : Nat) (data : List β) (queue : SocketQueue β) :
    (queue.receive offset data).socket = queue.socket := rfl

theorem enlarge_header (bytes : Nat) (queue : SocketQueue β) :
    (queue.enlarge bytes).fixedHeader = queue.fixedHeader ∧
      (queue.enlarge bytes).index = queue.index ∧
      (queue.enlarge bytes).datalen = queue.datalen := by
  unfold enlarge
  split
  · split <;> exact ⟨rfl, rfl, rfl⟩
  · exact ⟨rfl, rfl, rfl⟩

theorem fixedHeader_putChar {queue : SocketQueue β} (room : queue.index ≤ 4) (c : β) :
    (queue.putChar c).fixedHeader = queue.fixedHeader.take queue.index ++ [c] ∧
      (queue.putChar c).index = queue.index + 1 := by
  rw [putChar, dif_neg (by omega)]
  exact ⟨rfl, rfl⟩

theorem putChar_rest (c : β) (queue : SocketQueue β) :
    (queue.putChar c).datalen = queue.datalen ∧ (queue.putChar c).buf = queue.buf ∧
      (queue.putChar c).buflen = queue.buflen := by
  unfold putChar
  split <;> exact ⟨rfl, rfl, rfl⟩

theorem index_advance {queue : SocketQueue β} (more : queue.index < queue.headerlen) :
    queue.advance.index = queue.index + 1 := by
  rw [advance, dif_pos more]

theorem advance_rest (queue : SocketQueue β) :
    queue.advance.fixedHeader = queue.fixedHeader ∧ queue.advance.datalen = queue.datalen ∧
      queue.advance.buf = queue.buf ∧ queue.advance.buflen = queue.buflen := by
  unfold advance
  split <;> exact ⟨rfl, rfl, rfl, rfl⟩

end SocketQueue

structure SocketBuffer (β : Type) where
  defQueue : SocketQueue β
  queues : LinkedList (SocketQueue β)
  distinct : queues.Distinct SocketQueue.socket

namespace SocketBuffer

open LinkedList

variable {β : Type}

def start : SocketBuffer β := ⟨.newDefQ, .zero, .zero⟩

def saved (buffer : SocketBuffer β) (socket : SOCKET) : Option (SocketQueue β) :=
  buffer.queues.lookup SocketQueue.socket socket

def find (socket : SOCKET) (buffer : SocketBuffer β) :
    Option (ListElement (SocketQueue β)) × SocketBuffer β :=
  let result := buffer.queues.findItem (hasKey SocketQueue.socket socket)
  (result.1, { buffer with queues := result.2, distinct := buffer.distinct.findItem _ })

def modify (content : Nat) (change : SocketQueue β → SocketQueue β)
    (keeps : ∀ queue, (change queue).socket = queue.socket) (buffer : SocketBuffer β) :
    SocketBuffer β :=
  { buffer with
    queues := buffer.queues.update content change
    distinct := buffer.distinct.update content keeps }

def modifyDef (change : SocketQueue β → SocketQueue β) (buffer : SocketBuffer β) :
    SocketBuffer β :=
  { buffer with defQueue := change buffer.defQueue }

def modifyFound (found : Option (ListElement (SocketQueue β)))
    (change : SocketQueue β → SocketQueue β)
    (keeps : ∀ queue, (change queue).socket = queue.socket) (buffer : SocketBuffer β) :
    SocketBuffer β :=
  match found with
  | some element => buffer.modify element.content change keeps
  | none => buffer.modifyDef change

def getQueuedChar (socket : SOCKET) (buffer : SocketBuffer β) :
    Except Int β × SocketBuffer β :=
  match buffer.find socket with
  | (some element, buffer) =>
      let queue := element.value
      if more : queue.index < queue.headerlen then
        (.ok (queue.fixedHeader[queue.index]),
          buffer.modify element.content .advance SocketQueue.socket_advance)
      else if queue.index > 4 then (.error socketError, buffer)
      else (.error tcpsocketInterrupted, buffer)
  | (none, buffer) => (.error tcpsocketInterrupted, buffer)

/-- `SocketBuffer_queueChar`. The two messages it can log are its only errors;
the character is then not stored. -/
def queueChar (socket : SOCKET) (c : β) (buffer : SocketBuffer β) : SocketBuffer β :=
  match buffer.find socket with
  | (some element, buffer) =>
      buffer.modify element.content (.putChar c) (SocketQueue.socket_putChar c)
  | (none, buffer) =>
      if buffer.defQueue.socket = 0 then
        buffer.modifyDef fun queue => (queue.own socket).putChar c
      else if buffer.defQueue.socket ≠ socket then buffer
      else buffer.modifyDef (.putChar c)

/-- `SocketBuffer_interrupted`. Without a saved queue the default queue becomes
one, with whatever header bytes it holds. -/
def interrupted (socket : SOCKET) (actualLen : Nat) (buffer : SocketBuffer β) :
    SocketBuffer β :=
  match found : buffer.find socket with
  | (some element, buffer) =>
      buffer.modify element.content (.rewind actualLen) (SocketQueue.socket_rewind actualLen)
  | (none, _) =>
      { defQueue := .newDefQ
        queues := buffer.queues.append
          ({ buffer.defQueue with socket := socket }.rewind actualLen)
        distinct := buffer.distinct.append (by
          have missed := congrArg Prod.fst found
          exact findItem_hasKey_eq_none_iff.mp missed) }

/-- `SocketBuffer_complete`. The block it returns is that of the new default
queue. -/
def complete (socket : SOCKET) (buffer : SocketBuffer β) : SocketBuffer β :=
  match buffer.find socket with
  | (some element, buffer) =>
      { defQueue := element.value.reset
        queues := buffer.queues.detachElement element
        distinct := buffer.distinct.detachElement element }
  | (none, buffer) => buffer.modifyDef .reset

/-- The part of `SocketBuffer_cleanup` about the read queues. -/
def cleanup (socket : SOCKET) (buffer : SocketBuffer β) : SocketBuffer β :=
  let buffer :=
    match buffer.find socket with
    | (some element, buffer) =>
        { buffer with
          queues := buffer.queues.detachElement element
          distinct := buffer.distinct.detachElement element }
    | (none, buffer) => buffer
  if buffer.defQueue.socket = socket then buffer.modifyDef .reset else buffer

/-- `SocketBuffer_getQueuedData`: the queue that the data goes to and how much is
in it already. -/
def getQueuedData (socket : SOCKET) (bytes : Nat) (buffer : SocketBuffer β) :
    Option (ListElement (SocketQueue β)) × Nat × SocketBuffer β :=
  match buffer.find socket with
  | (some element, buffer) =>
      (some element, element.value.datalen,
        buffer.modify element.content (.enlarge bytes) (SocketQueue.socket_enlarge bytes))
  | (none, buffer) => (none, 0, buffer.modifyDef (.enlarge bytes))

/-! ## What the operations do to the saved queues -/

variable {buffer after : SocketBuffer β} {socket : SOCKET} {queue : SocketQueue β}

@[simp] theorem saved_start : (start : SocketBuffer β).saved = fun _ => none := rfl

@[simp] theorem saved_modifyDef (change : SocketQueue β → SocketQueue β) :
    (buffer.modifyDef change).saved = buffer.saved := rfl

theorem socket_of_saved (found : buffer.saved socket = some queue) : queue.socket = socket :=
  (buffer.distinct.lookup_eq_some_iff.mp found).2

theorem find_of_absent (absent : buffer.saved socket = none) :
    buffer.find socket = (none, buffer) := by
  have missed := findItem_hasKey_eq_none_iff.mpr absent
  have unchanged := findItem_snd_of_none missed
  unfold find
  simp only [missed, unchanged]

theorem find_of_saved (found : buffer.saved socket = some queue) :
    ∃ element after, buffer.find socket = (some element, after) ∧ element.value = queue ∧
      element ∈ after.queues.elements ∧ after.saved = buffer.saved ∧
      after.defQueue = buffer.defQueue := by
  rcases buffer.distinct.findItem_of_lookup found with
    ⟨element, queues, search, value, member, _, lookups⟩
  refine ⟨element, (buffer.find socket).2, ?_, value, ?_, ?_, rfl⟩
  · simp only [find, search]
  · simpa only [find, search] using member
  · funext other
    simp only [saved, find, search, lookups]

theorem saved_modify {element : ListElement (SocketQueue β)} {content : Nat}
    (member : element ∈ buffer.queues.elements) (address : element.content = content)
    (change : SocketQueue β → SocketQueue β)
    (keeps : ∀ queue, (change queue).socket = queue.socket) :
    (buffer.modify content change keeps).saved =
      Function.update buffer.saved element.value.socket (some (change element.value)) := by
  subst address
  funext other
  by_cases same : other = element.value.socket
  · subst other
    rw [Function.update_self]
    exact buffer.distinct.lookup_update member keeps
  · rw [Function.update_of_ne same]
    exact buffer.distinct.lookup_update_of_ne member keeps same

theorem getQueuedChar_of_saved (found : buffer.saved socket = some queue)
    (more : queue.index < queue.headerlen) :
    ∃ after, buffer.getQueuedChar socket = (.ok queue.fixedHeader[queue.index], after) ∧
      after.saved = Function.update buffer.saved socket (some queue.advance) ∧
      after.defQueue = buffer.defQueue := by
  rcases find_of_saved found with ⟨element, after, search, rfl, member, same, default⟩
  have owner := socket_of_saved found
  refine ⟨after.modify element.content .advance SocketQueue.socket_advance, ?_, ?_, default⟩
  · rw [getQueuedChar, search]
    exact dif_pos more
  · rw [saved_modify member rfl, same, owner]

theorem getQueuedChar_of_exhausted (found : buffer.saved socket = some queue)
    (exhausted : queue.index = queue.headerlen) (room : queue.index ≤ 4) :
    ∃ after, buffer.getQueuedChar socket = (.error tcpsocketInterrupted, after) ∧
      after.saved = buffer.saved ∧ after.defQueue = buffer.defQueue := by
  rcases find_of_saved found with ⟨element, after, search, rfl, member, same, default⟩
  refine ⟨after, ?_, same, default⟩
  rw [getQueuedChar, search]
  dsimp only
  rw [dif_neg (by omega), if_neg (by omega)]

theorem getQueuedChar_of_absent (absent : buffer.saved socket = none) :
    buffer.getQueuedChar socket = (.error tcpsocketInterrupted, buffer) := by
  rw [getQueuedChar, find_of_absent absent]

theorem queueChar_of_saved (found : buffer.saved socket = some queue) (c : β) :
    (buffer.queueChar socket c).saved =
        Function.update buffer.saved socket (some (queue.putChar c)) ∧
      (buffer.queueChar socket c).defQueue = buffer.defQueue := by
  rcases find_of_saved found with ⟨element, after, search, rfl, member, same, default⟩
  have owner := socket_of_saved found
  rw [queueChar, search]
  exact ⟨by rw [saved_modify member rfl, same, owner], default⟩

theorem queueChar_of_free (absent : buffer.saved socket = none)
    (free : buffer.defQueue.socket = 0) (c : β) :
    buffer.queueChar socket c = buffer.modifyDef fun queue => (queue.own socket).putChar c := by
  rw [queueChar, find_of_absent absent]
  exact if_pos free

theorem queueChar_of_owned (absent : buffer.saved socket = none)
    (owned : buffer.defQueue.socket = socket) (positive : socket ≠ 0) (c : β) :
    buffer.queueChar socket c = buffer.modifyDef (.putChar c) := by
  rw [queueChar, find_of_absent absent]
  dsimp only
  rw [if_neg (by rw [owned]; exact positive), if_neg (by simp [owned])]

theorem interrupted_of_saved (found : buffer.saved socket = some queue) (actualLen : Nat) :
    (buffer.interrupted socket actualLen).saved =
        Function.update buffer.saved socket (some (queue.rewind actualLen)) ∧
      (buffer.interrupted socket actualLen).defQueue = buffer.defQueue := by
  rcases find_of_saved found with ⟨element, after, search, rfl, member, same, default⟩
  have owner := socket_of_saved found
  unfold interrupted
  split
  · rename_i other result equal
    rw [search] at equal
    cases equal
    exact ⟨by rw [saved_modify member rfl, same, owner], default⟩
  · rename_i result equal
    rw [search] at equal
    cases equal

theorem interrupted_of_absent (absent : buffer.saved socket = none) (actualLen : Nat) :
    (buffer.interrupted socket actualLen).saved =
        Function.update buffer.saved socket
          (some ({ buffer.defQueue with socket := socket }.rewind actualLen)) ∧
      (buffer.interrupted socket actualLen).defQueue = .newDefQ := by
  have search := find_of_absent absent
  unfold interrupted
  split
  · rename_i element result equal
    rw [search] at equal
    cases equal
  · refine ⟨?_, rfl⟩
    funext other
    change (buffer.queues.append _).lookup SocketQueue.socket other = _
    rw [lookup_append]
    by_cases same : other = socket
    · subst other
      rw [Function.update_self, show buffer.queues.lookup SocketQueue.socket socket = none
        from absent]
      simp
    · rw [Function.update_of_ne same, if_neg (fun equal => same equal.symm), Option.or_none]
      rfl

theorem complete_of_saved (found : buffer.saved socket = some queue) :
    (buffer.complete socket).saved = Function.update buffer.saved socket none ∧
      (buffer.complete socket).defQueue = queue.reset := by
  rcases find_of_saved found with ⟨element, after, search, rfl, member, same, default⟩
  have owner := socket_of_saved found
  rw [complete, search]
  refine ⟨?_, rfl⟩
  funext other
  rw [← same, ← owner]
  by_cases equal : other = element.value.socket
  · subst other
    rw [Function.update_self]
    exact after.distinct.lookup_detachElement member
  · rw [Function.update_of_ne equal]
    exact after.distinct.lookup_detachElement_of_ne member equal

theorem complete_of_absent (absent : buffer.saved socket = none) :
    buffer.complete socket = buffer.modifyDef .reset := by
  rw [complete, find_of_absent absent]

theorem getQueuedData_of_saved (found : buffer.saved socket = some queue) (bytes : Nat) :
    ∃ element stored after, buffer.getQueuedData socket bytes =
        (some element, queue.datalen, after) ∧
      stored ∈ after.queues.elements ∧ stored.content = element.content ∧
      stored.value = queue.enlarge bytes ∧
      after.saved = Function.update buffer.saved socket (some (queue.enlarge bytes)) ∧
      after.defQueue = buffer.defQueue := by
  rcases find_of_saved found with ⟨element, after, search, rfl, member, same, default⟩
  have owner := socket_of_saved found
  refine ⟨element, ⟨element.content, element.value.enlarge bytes⟩,
    after.modify element.content (.enlarge bytes) (SocketQueue.socket_enlarge bytes),
    ?_, ?_, rfl, rfl, ?_, default⟩
  · rw [getQueuedData, search]
  · exact mem_update.mpr ⟨element, member, rfl, by simp⟩
  · rw [saved_modify member rfl, same, owner]

theorem getQueuedData_of_absent (absent : buffer.saved socket = none) (bytes : Nat) :
    buffer.getQueuedData socket bytes = (none, 0, buffer.modifyDef (.enlarge bytes)) := by
  rw [getQueuedData, find_of_absent absent]

theorem cleanup_spec (socket : SOCKET) (buffer : SocketBuffer β) :
    (buffer.cleanup socket).saved = Function.update buffer.saved socket none ∧
      (buffer.defQueue.socket ≠ socket → (buffer.cleanup socket).defQueue = buffer.defQueue) := by
  have reset (dropped : SocketBuffer β)
      (saved : dropped.saved = Function.update buffer.saved socket none)
      (default : dropped.defQueue = buffer.defQueue) :
      let cleaned := if dropped.defQueue.socket = socket then dropped.modifyDef .reset else dropped
      cleaned.saved = Function.update buffer.saved socket none ∧
        (buffer.defQueue.socket ≠ socket → cleaned.defQueue = buffer.defQueue) := by
    rw [default]
    split
    · rename_i owned
      exact ⟨saved, fun other => absurd owned other⟩
    · exact ⟨saved, fun _ => default⟩
  cases found : buffer.saved socket with
  | none =>
      rw [cleanup, find_of_absent found]
      apply reset
      · rw [← found, Function.update_eq_self]
      · rfl
  | some queue =>
      rcases find_of_saved found with ⟨element, after, search, rfl, member, same, default⟩
      have owner := socket_of_saved found
      rw [cleanup, search]
      apply reset
      · funext other
        rw [← same, ← owner]
        by_cases equal : other = element.value.socket
        · subst other
          rw [Function.update_self]
          exact after.distinct.lookup_detachElement member
        · rw [Function.update_of_ne equal]
          exact after.distinct.lookup_detachElement_of_ne member equal
      · exact default

end SocketBuffer

end MqttClient
