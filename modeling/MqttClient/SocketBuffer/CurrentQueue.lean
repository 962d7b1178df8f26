import MqttClient.SocketBuffer.ReadQueues

/-! # `SocketBuffer`: the queue in use

Every operation on a socket works on one queue: the saved one, or the default
queue where nothing is saved. Stated for that queue, the two cases of an
operation are one.
-/

namespace MqttClient.SocketBuffer

open LinkedList

variable {β : Type} {buffer after : SocketBuffer β} {socket : SOCKET} {queue : SocketQueue β}

inductive Current (buffer : SocketBuffer β) (socket : SOCKET) (queue : SocketQueue β) : Prop
  | saved (found : buffer.saved socket = some queue)
  | default (absent : buffer.saved socket = none) (same : buffer.defQueue = queue)

inductive Points (buffer : SocketBuffer β) (socket : SOCKET) (queue : SocketQueue β) :
    Option (ListElement (SocketQueue β)) → Prop
  | saved {element stored : ListElement (SocketQueue β)}
      (found : buffer.saved socket = some queue) (member : stored ∈ buffer.queues.elements)
      (address : stored.content = element.content) (value : stored.value = queue) :
      Points buffer socket queue (some element)
  | default (absent : buffer.saved socket = none) (same : buffer.defQueue = queue) :
      Points buffer socket queue none

theorem Points.current {found : Option (ListElement (SocketQueue β))}
    (points : buffer.Points socket queue found) : buffer.Current socket queue := by
  cases points with
  | saved found _ _ _ => exact .saved found
  | default absent same => exact .default absent same

structure OnlyAt (socket : SOCKET) (before after : SocketBuffer β) : Prop where
  others : ∀ other, other ≠ socket → after.saved other = before.saved other
  presence : after.saved socket = none ↔ before.saved socket = none
  defQueue : before.saved socket ≠ none → after.defQueue = before.defQueue

theorem OnlyAt.refl (socket : SOCKET) (buffer : SocketBuffer β) :
    buffer.OnlyAt socket buffer := ⟨fun _ _ => rfl, Iff.rfl, fun _ => rfl⟩

theorem OnlyAt.trans {first second third : SocketBuffer β}
    (left : first.OnlyAt socket second) (right : second.OnlyAt socket third) :
    first.OnlyAt socket third where
  others other different := (right.others other different).trans (left.others other different)
  presence := right.presence.trans left.presence
  defQueue present :=
    (right.defQueue fun absent => present (left.presence.mp absent)).trans (left.defQueue present)

private theorem OnlyAt.of_update (found : buffer.saved socket = some queue)
    {changed : SocketQueue β}
    (saved : after.saved = Function.update buffer.saved socket (some changed))
    (default : after.defQueue = buffer.defQueue) : buffer.OnlyAt socket after where
  others other different := by rw [saved, Function.update_of_ne different]
  presence := by simp [saved, found]
  defQueue _ := default

private theorem OnlyAt.of_modifyDef (absent : buffer.saved socket = none)
    (change : SocketQueue β → SocketQueue β) :
    buffer.OnlyAt socket (buffer.modifyDef change) :=
  ⟨fun _ _ => rfl, Iff.rfl, fun present => (present absent).elim⟩

theorem Current.getQueuedChar (current : buffer.Current socket queue)
    (saved : buffer.saved socket ≠ none) (more : queue.index < queue.headerlen) :
    ∃ after, buffer.getQueuedChar socket = (.ok queue.fixedHeader[queue.index], after) ∧
      after.Current socket queue.advance ∧ buffer.OnlyAt socket after := by
  cases current with
  | default absent _ => exact (saved absent).elim
  | saved found =>
      rcases getQueuedChar_of_saved found more with ⟨after, read, saved, default⟩
      exact ⟨after, read, .saved (by simp [saved]), .of_update found saved default⟩

theorem Current.getQueuedChar_exhausted (current : buffer.Current socket queue)
    (exhausted : queue.index = queue.headerlen) (room : queue.index ≤ 4) :
    ∃ after, buffer.getQueuedChar socket = (.error tcpsocketInterrupted, after) ∧
      after.Current socket queue ∧ buffer.OnlyAt socket after := by
  cases current with
  | default absent same =>
      exact ⟨buffer, getQueuedChar_of_absent absent, .default absent same, .refl ..⟩
  | saved found =>
      rcases getQueuedChar_of_exhausted found exhausted room with ⟨after, read, saved, default⟩
      refine ⟨after, read, .saved (by rw [saved]; exact found), ?_⟩
      exact ⟨fun _ _ => by rw [saved], by rw [saved], fun _ => default⟩

theorem Current.queueChar (current : buffer.Current socket queue) (positive : socket ≠ 0)
    (c : β) (owner : buffer.saved socket = none → queue.socket = 0 ∨ queue.socket = socket) :
    ∃ base, (buffer.queueChar socket c).Current socket (base.putChar c) ∧
      buffer.OnlyAt socket (buffer.queueChar socket c) ∧
      (base = queue ∧ (buffer.saved socket = none → queue.socket = socket) ∨
        buffer.saved socket = none ∧ queue.socket = 0 ∧ base = queue.own socket) := by
  cases current with
  | saved found =>
      have written := queueChar_of_saved found c
      exact ⟨queue, .saved (by simp [written.1]), .of_update found written.1 written.2,
        .inl ⟨rfl, fun absent => by simp [found] at absent⟩⟩
  | default absent same =>
      subst same
      by_cases free : buffer.defQueue.socket = 0
      · rw [queueChar_of_free absent free]
        exact ⟨_, .default absent rfl, .of_modifyDef absent _, .inr ⟨absent, free, rfl⟩⟩
      · have owned := (owner absent).resolve_left free
        rw [queueChar_of_owned absent owned positive]
        exact ⟨_, .default absent rfl, .of_modifyDef absent _, .inl ⟨rfl, fun _ => owned⟩⟩

theorem Current.interrupted (current : buffer.Current socket queue) (actualLen : Nat) :
    (buffer.interrupted socket actualLen).saved =
        Function.update buffer.saved socket
          (some ({ queue with socket := socket }.rewind actualLen)) ∧
      (buffer.interrupted socket actualLen).defQueue =
        if buffer.saved socket = none then .newDefQ else buffer.defQueue := by
  cases current with
  | saved found =>
      have owner := socket_of_saved found
      subst owner
      rw [if_neg (by simp [found])]
      exact interrupted_of_saved found actualLen
  | default absent same =>
      subst same
      rw [if_pos absent]
      exact interrupted_of_absent absent actualLen

theorem Current.complete (current : buffer.Current socket queue) :
    (buffer.complete socket).saved = Function.update buffer.saved socket none ∧
      (buffer.complete socket).defQueue = queue.reset := by
  cases current with
  | saved found => exact complete_of_saved found
  | default absent same =>
      subst same
      rw [complete_of_absent absent]
      exact ⟨by rw [← absent, Function.update_eq_self]; rfl, rfl⟩

theorem Current.getQueuedData (current : buffer.Current socket queue) (bytes : Nat)
    (empty : buffer.saved socket = none → queue.datalen = 0) :
    ∃ found after, buffer.getQueuedData socket bytes = (found, queue.datalen, after) ∧
      after.Points socket (queue.enlarge bytes) found ∧ buffer.OnlyAt socket after := by
  cases current with
  | saved found =>
      rcases getQueuedData_of_saved found bytes with
        ⟨element, stored, after, read, member, address, value, saved, default⟩
      exact ⟨some element, after, read, .saved (by simp [saved]) member address value,
        .of_update found saved default⟩
  | default absent same =>
      subst same
      refine ⟨none, buffer.modifyDef (.enlarge bytes), ?_, .default absent rfl,
        .of_modifyDef absent (.enlarge bytes)⟩
      rw [getQueuedData_of_absent absent, empty absent]

theorem Points.modifyFound {found : Option (ListElement (SocketQueue β))}
    (points : buffer.Points socket queue found) (change : SocketQueue β → SocketQueue β)
    (keeps : ∀ queue, (change queue).socket = queue.socket) :
    (buffer.modifyFound found change keeps).Points socket (change queue) found ∧
      buffer.OnlyAt socket (buffer.modifyFound found change keeps) := by
  cases points with
  | @saved element stored found member address value =>
      subst value
      have owner := socket_of_saved found
      have saved := saved_modify member address change keeps
      rw [owner] at saved
      let changed : ListElement (SocketQueue β) := ⟨stored.content, change stored.value⟩
      refine ⟨.saved (by simp [SocketBuffer.modifyFound, saved])
        (?_ : changed ∈ _) address rfl, .of_update found saved rfl⟩
      exact mem_update.mpr ⟨stored, member, rfl, by simp [address, changed]⟩
  | default absent same =>
      subst same
      exact ⟨.default absent rfl, .of_modifyDef absent change⟩

end MqttClient.SocketBuffer
