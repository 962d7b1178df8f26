import MqttClient.MQTTPacket.PacketFraming
import MqttClient.SocketBuffer.CurrentQueue

/-! # The packet reader refines the framing reader

A call of `MQTTPacket_Factory` that starts with the queues at rest does what one
call of the framing reader does from the bytes kept for the socket, and leaves
the queues representing the bytes that the framing reader keeps.
-/

namespace MqttClient.MQTTPacket

open Foundation Foundation.VariableByte

variable {β : Type} [Octet β]

structure Stored (queue : SocketQueue β) (header body : List β) : Prop where
  fixedHeader : queue.fixedHeader = header
  stored : body.map some <+: queue.buf
  room : queue.buflen ≤ queue.buf.length
  expected : body ≠ [] → ∃ first field length, header = first :: field ∧
    scan maxNoOfRemainingLengthBytes (field.map toUInt8) = .value length [] ∧
    body.length < length ∧ length ≤ queue.buflen

def HeaderShape : List β → Prop
  | [] => True
  | _ :: field =>
      scan maxNoOfRemainingLengthBytes (field.map toUInt8) = .incomplete ∨
        ∃ length, scan maxNoOfRemainingLengthBytes (field.map toUInt8) = .value length []

def InField : List β → Prop
  | [] => True
  | _ :: field => scan maxNoOfRemainingLengthBytes (field.map toUInt8) = .incomplete

omit [Octet β] in
structure Unused (queue : SocketQueue β) : Prop where
  socket : queue.socket = 0
  index : queue.index = 0
  fixedHeader : queue.fixedHeader = []
  datalen : queue.datalen = 0
  room : queue.buflen ≤ queue.buf.length

omit [Octet β] in
theorem Unused.newDefQ : Unused (SocketQueue.newDefQ : SocketQueue β) :=
  ⟨rfl, rfl, rfl, rfl, Nat.zero_le _⟩

def Holds (queue : SocketQueue β) (kept : List β) : Prop :=
  queue.index = 0 ∧ ∃ header body, kept = header ++ body ∧ queue.datalen = body.length ∧
    HeaderShape header ∧ Stored queue header body

/-- The queue in use inside a call: `Socket_getch` has returned `consumed`, the
queue still has `ahead` to replay, and its block starts with `body`. -/
structure InUse (socket : SOCKET) (consumed ahead body : List β) (queue : SocketQueue β)
    (reads : SocketReads β) : Prop where
  positive : socket ≠ 0
  current : reads.buffer.Current socket queue
  index : queue.index = consumed.length
  stored : Stored queue (consumed ++ ahead) body
  shape : ahead ≠ [] → HeaderShape (consumed ++ ahead)
  default : reads.saved socket = none → ahead = [] ∧
    queue.socket = if consumed = [] then 0 else socket
  unused : reads.saved socket ≠ none → Unused reads.defQueue

structure InCall (socket : SOCKET) (consumed ahead body : List β) (queue : SocketQueue β)
    (reads : SocketReads β) : Prop extends InUse socket consumed ahead body queue reads where
  datalen : queue.datalen = body.length
  noBody : reads.saved socket = none → body = []

inductive After (socket : SOCKET) (reads : SocketReads β) : ReadOutcome β → List β → Prop
  | packet {bytes : List β} (absent : reads.saved socket = none)
      (unused : Unused reads.defQueue) : After socket reads (.packet bytes) []
  | interrupted {queue : SocketQueue β} {kept : List β}
      (found : reads.saved socket = some queue) (holds : Holds queue kept)
      (unused : Unused reads.defQueue) : After socket reads .interrupted kept
  | failed {kept : List β}
      (saved : ∀ queue, reads.saved socket = some queue → queue.index = 0 → Holds queue kept)
      (default : reads.defQueue.socket = 0 →
        Unused reads.defQueue ∧ (reads.saved socket = none → kept = [])) :
      After socket reads .failed kept

omit [Octet β] in
structure Touches (socket : SOCKET) (before : SocketReads β) (rest : RecvSource β)
    (after : SocketReads β) : Prop where
  inbound : after.inbound = Function.update before.inbound socket rest
  others : ∀ other, other ≠ socket → after.saved other = before.saved other

/-- The framing reader goes on from `grown` where it was to go on from `kept`. -/
def Proceeds (socket : SOCKET) (kept : List β) (before : SocketReads β) (grown : List β)
    (after : SocketReads β) : Prop :=
  ∃ rest, framing.read kept (before.inbound socket) = framing.read grown rest ∧
    Touches socket before rest after

/-- The framing reader ends its call, and so has the packet reader. -/
def Finishes (socket : SOCKET) (kept : List β) (before : SocketReads β)
    (outcome : ReadOutcome β) (left : List β) (after : SocketReads β) : Prop :=
  ∃ rest, framing.read kept (before.inbound socket) = (outcome, left, rest) ∧
    Touches socket before rest after ∧ After socket after outcome left

section Steps

variable {socket : SOCKET} {kept grown left consumed ahead body : List β}
  {queue : SocketQueue β} {before middle after reads : SocketReads β}
  {outcome : ReadOutcome β}

omit [Octet β] in
theorem Touches.trans {first second : RecvSource β} (start : Touches socket before first middle)
    (next : Touches socket middle second after) : Touches socket before second after where
  inbound := by rw [next.inbound, start.inbound, Function.update_idem]
  others other different :=
    (next.others other different).trans (start.others other different)

omit [Octet β] in
theorem Touches.inbound_self {rest : RecvSource β}
    (touches : Touches socket before rest after) : after.inbound socket = rest := by
  rw [touches.inbound, Function.update_self]

theorem Proceeds.trans {further : List β} (start : Proceeds socket kept before grown middle)
    (next : Proceeds socket grown middle further after) :
    Proceeds socket kept before further after := by
  rcases start with ⟨first, startRead, startTouches⟩
  rcases next with ⟨second, nextRead, nextTouches⟩
  rw [startTouches.inbound_self] at nextRead
  exact ⟨second, startRead.trans nextRead, startTouches.trans nextTouches⟩

theorem Proceeds.finishes (start : Proceeds socket kept before grown middle)
    (finish : Finishes socket grown middle outcome left after) :
    Finishes socket kept before outcome left after := by
  rcases start with ⟨first, startRead, startTouches⟩
  rcases finish with ⟨second, nextRead, nextTouches, ended⟩
  rw [startTouches.inbound_self] at nextRead
  exact ⟨second, startRead.trans nextRead, startTouches.trans nextTouches, ended⟩

omit [Octet β] in
theorem Touches.of_onlyAt {buffer : SocketBuffer β}
    (only : reads.buffer.OnlyAt socket buffer) (rest : RecvSource β) :
    Touches socket reads rest
      ⟨buffer, Function.update reads.inbound socket rest⟩ where
  inbound := rfl
  others := only.others

omit [Octet β] in
theorem recv_eq {count : Nat} {event : RecvEvent β} {rest : RecvSource β}
    (received : (reads.inbound socket).recv count = (event, rest)) (buffer : SocketBuffer β) :
    (reads.withBuffer buffer).recv socket count =
      (event, ⟨buffer, Function.update reads.inbound socket rest⟩) := by
  simp only [SocketReads.recv, SocketReads.withBuffer, received]

theorem InField.need (inField : InField consumed) : framing.need consumed = .more 0 := by
  cases consumed with
  | nil => rfl
  | cons first field => exact need_of_incomplete inField

theorem InField.shape (inField : InField consumed) : HeaderShape consumed := by
  cases consumed with
  | nil => trivial
  | cons first field => exact .inl inField

theorem Stored.body_eq_nil (stored : Stored queue consumed body)
    (inField : InField consumed) : body = [] := by
  by_contra nonempty
  rcases stored.expected nonempty with ⟨first, field, length, rfl, scanned, _⟩
  rw [InField, scanned] at inField
  cases inField

/-! ### The queue in use during a call -/

theorem InUse.of_onlyAt (inUse : InUse socket consumed ahead body queue reads)
    {buffer : SocketBuffer β} {changed : SocketQueue β} {reached later data : List β}
    (current : buffer.Current socket changed) (only : reads.buffer.OnlyAt socket buffer)
    (inbound : SOCKET → RecvSource β) (index : changed.index = reached.length)
    (stored : Stored changed (reached ++ later) data)
    (shape : later ≠ [] → HeaderShape (reached ++ later))
    (default : reads.saved socket = none → later = [] ∧
      changed.socket = if reached = [] then 0 else socket) :
    InUse socket reached later data changed ⟨buffer, inbound⟩ where
  positive := inUse.positive
  current := current
  index := index
  stored := stored
  shape := shape
  default absent := default (only.presence.mp absent)
  unused saved := by
    have present : reads.saved socket ≠ none := fun absent => saved (only.presence.mpr absent)
    rw [SocketReads.defQueue, only.defQueue present]
    exact inUse.unused present

theorem InCall.failed (inCall : InCall socket consumed [] body queue reads)
    (same : consumed = [] → kept = []) : After socket reads .failed kept := by
  have stored := inCall.stored
  rw [List.append_nil] at stored
  refine .failed ?_ ?_
  · intro other found rewound
    have equal : other = queue := by
      cases inCall.current with
      | saved present => exact Option.some.inj (found.symm.trans present)
      | default absent _ => rw [SocketReads.saved, absent] at found; cases found
    subst equal
    have start : consumed = [] := by simpa [rewound] using inCall.index.symm
    subst start
    have noBody := stored.body_eq_nil trivial
    subst noBody
    exact ⟨rewound, [], [], same rfl, inCall.datalen, trivial, stored⟩
  · intro free
    by_cases absent : reads.saved socket = none
    · have queued : reads.defQueue = queue := by
        cases inCall.current with
        | saved present => rw [SocketReads.saved, present] at absent; cases absent
        | default _ equal => exact equal
      have owner := (inCall.default absent).2
      rw [queued] at free ⊢
      have start : consumed = [] := by
        by_contra nonempty
        rw [if_neg nonempty] at owner
        exact inCall.positive (owner.symm.trans free)
      subst start
      have noBody := stored.body_eq_nil trivial
      subst noBody
      exact ⟨⟨free, inCall.index, stored.fixedHeader, inCall.datalen, stored.room⟩,
        fun _ => same rfl⟩
    · exact ⟨inCall.unused absent, fun none => (absent none).elim⟩

theorem InUse.interrupted (inUse : InUse socket consumed [] body queue reads)
    (shape : HeaderShape consumed) :
    let after : SocketReads β := ⟨reads.buffer.interrupted socket body.length, reads.inbound⟩
    After socket after .interrupted (consumed ++ body) ∧
      ∀ other, other ≠ socket → after.saved other = reads.saved other := by
  rcases inUse.current.interrupted body.length with ⟨saved, default⟩
  have stored := inUse.stored
  rw [List.append_nil] at stored
  refine ⟨.interrupted ((congrFun saved socket).trans (Function.update_self ..)) ?_ ?_, ?_⟩
  · exact ⟨rfl, consumed, body, rfl, rfl, shape,
      ⟨stored.fixedHeader, stored.stored, stored.room, stored.expected⟩⟩
  · rw [SocketReads.defQueue, default]
    split
    · exact .newDefQ
    · rename_i present
      exact inUse.unused present
  · intro other different
    rw [SocketReads.saved, saved, Function.update_of_ne different]
    rfl

theorem After.complete (current : reads.buffer.Current socket queue)
    (room : queue.buflen ≤ queue.buf.length) (bytes : List β) :
    let after : SocketReads β := ⟨reads.buffer.complete socket, reads.inbound⟩
    After socket after (.packet bytes) [] ∧
      ∀ other, other ≠ socket → after.saved other = reads.saved other := by
  rcases current.complete with ⟨saved, default⟩
  refine ⟨.packet ?_ ?_, ?_⟩
  · rw [SocketReads.saved, saved, Function.update_self]
  · rw [SocketReads.defQueue, default]
    exact ⟨rfl, rfl, rfl, rfl, room⟩
  · intro other different
    rw [SocketReads.saved, saved, Function.update_of_ne different]
    rfl

/-! ### `Socket_getch` -/

theorem InCall.getch_ahead {c : β}
    (inCall : InCall socket consumed (c :: ahead) body queue reads) :
    ∃ queue after, Socket.getch socket reads = (.ok c, after) ∧
      InCall socket (consumed ++ [c]) ahead body queue after ∧
      Touches socket reads (reads.inbound socket) after := by
  have saved : reads.saved socket ≠ none := fun absent => by
    simpa using (inCall.default absent).1
  have header : queue.fixedHeader = consumed ++ c :: ahead := inCall.stored.fixedHeader
  have more : queue.index < queue.headerlen := by
    rw [inCall.index, SocketQueue.headerlen, header, List.length_append, List.length_cons]
    omega
  rcases inCall.current.getQueuedChar saved more with ⟨buffer, read, current, only⟩
  have char : queue.fixedHeader[queue.index] = c := by
    simp [header, inCall.index]
  rw [char] at read
  refine ⟨queue.advance, ⟨buffer, reads.inbound⟩, ?_, ?_, ?_⟩
  · rw [Socket.getch, read]
    rfl
  · have rest := queue.advance_rest
    refine ⟨inCall.of_onlyAt current only _ ?_ ?_ ?_ fun absent => (saved absent).elim,
      rest.2.1.trans inCall.datalen, fun absent => (saved (only.presence.mp absent)).elim⟩
    · rw [SocketQueue.index_advance more, inCall.index, List.length_append,
        List.length_singleton]
    · rw [List.append_assoc, List.singleton_append]
      refine ⟨rest.1.trans header, rest.2.2.1 ▸ inCall.stored.stored, ?_, ?_⟩
      · rw [rest.2.2.1, rest.2.2.2]
        exact inCall.stored.room
      · rw [rest.2.2.2]
        exact inCall.stored.expected
    · intro _
      rw [List.append_assoc, List.singleton_append]
      exact inCall.shape (by simp)
  · simpa using Touches.of_onlyAt only (reads.inbound socket)

theorem InCall.queueChar (inCall : InCall socket consumed [] [] queue reads)
    (short : consumed.length ≤ 4) (c : β) (inbound : SOCKET → RecvSource β) :
    ∃ queue, InCall socket (consumed ++ [c]) [] [] queue
        ⟨reads.buffer.queueChar socket c, inbound⟩ ∧
      reads.buffer.OnlyAt socket (reads.buffer.queueChar socket c) := by
  have stored := inCall.stored
  rw [List.append_nil] at stored
  have owner : reads.buffer.saved socket = none → queue.socket = 0 ∨ queue.socket = socket := by
    intro absent
    have owned := (inCall.default absent).2
    split at owned
    · exact .inl owned
    · exact .inr owned
  rcases inCall.current.queueChar inCall.positive c owner with ⟨base, current, only, origin⟩
  -- taking the unowned default queue changes its owner only
  have based : base.index = consumed.length ∧ base.fixedHeader = consumed ∧
      base.datalen = 0 ∧ base.buf = queue.buf ∧ base.buflen = queue.buflen ∧
      (reads.saved socket = none → base.socket = socket) := by
    rcases origin with ⟨rfl, owned⟩ | ⟨absent, free, rfl⟩
    · exact ⟨inCall.index, stored.fixedHeader, inCall.datalen, rfl, rfl, owned⟩
    · have start : consumed = [] := by
        by_contra nonempty
        have owned := (inCall.default absent).2
        rw [if_neg nonempty, free] at owned
        exact inCall.positive owned.symm
      subst start
      exact ⟨rfl, stored.fixedHeader, rfl, rfl, rfl, fun _ => rfl⟩
  rcases based with ⟨index, header, datalen, buf, buflen, owned⟩
  have room : base.index ≤ 4 := by omega
  have written := SocketQueue.fixedHeader_putChar room c
  have rest := base.putChar_rest c
  refine ⟨base.putChar c, ⟨inCall.of_onlyAt current only inbound ?_ ?_ (by simp) ?_,
    rest.1.trans datalen, fun _ => rfl⟩, only⟩
  · rw [written.2, index, List.length_append, List.length_singleton]
  · rw [List.append_nil]
    refine ⟨?_, List.nil_prefix, ?_, fun nonempty => (nonempty rfl).elim⟩
    · rw [written.1, header, index, List.take_length]
    · rw [rest.2.1, rest.2.2, buf, buflen]
      exact stored.room
  · intro absent
    refine ⟨rfl, ?_⟩
    rw [if_neg (by simp), SocketQueue.socket_putChar]
    exact owned absent

def StandsFor (rc : Int) (outcome : ReadOutcome β) : Prop :=
  rc = tcpsocketInterrupted ∧ outcome = .interrupted ∨ rc = socketError ∧ outcome = .failed

omit [Octet β] in
theorem getch_receive {buffer : SocketBuffer β} {event : RecvEvent β} {rest : RecvSource β}
    (read : reads.buffer.getQueuedChar socket = (.error tcpsocketInterrupted, buffer))
    (received : (reads.inbound socket).recv 1 = (event, rest)) :
    Socket.getch socket reads =
      let inbound := Function.update reads.inbound socket rest
      match event with
      | .data (c :: _) => (.ok c, ⟨buffer.queueChar socket c, inbound⟩)
      | .wouldBlock => (.error tcpsocketInterrupted, ⟨buffer.interrupted socket 0, inbound⟩)
      | _ => (.error socketError, ⟨buffer, inbound⟩) := by
  rw [Socket.getch, read]
  dsimp only
  rw [if_neg (by simp), recv_eq received]
  cases event with
  | data bytes => cases bytes <;> rfl
  | wouldBlock => rfl
  | endOfFile => rfl
  | failed => rfl

theorem InCall.getch_recv (inCall : InCall socket consumed [] body queue reads)
    (inField : InField consumed) (short : consumed.length ≤ 4) :
    (∃ c queue after, Socket.getch socket reads = (.ok c, after) ∧
        InCall socket (consumed ++ [c]) [] [] queue after ∧
        Proceeds socket consumed reads (consumed ++ [c]) after) ∨
      ∃ rc outcome after, Socket.getch socket reads = (.error rc, after) ∧
        StandsFor rc outcome ∧ Finishes socket consumed reads outcome consumed after := by
  have stored := inCall.stored
  rw [List.append_nil] at stored
  have noBody := stored.body_eq_nil inField
  subst noBody
  have exhausted : queue.index = queue.headerlen := by
    rw [inCall.index, SocketQueue.headerlen, stored.fixedHeader]
  have room : queue.index ≤ 4 := by rw [inCall.index]; exact short
  rcases inCall.current.getQueuedChar_exhausted exhausted room with ⟨buffer, read, current, only⟩
  cases received : (reads.inbound socket).recv 1 with
  | mk event rest =>
  have waiting : InCall socket consumed [] [] queue
      ⟨buffer, Function.update reads.inbound socket rest⟩ :=
    ⟨inCall.of_onlyAt current only _ inCall.index inCall.stored (by simp) inCall.default,
      inCall.datalen, fun _ => rfl⟩
  have touches := Touches.of_onlyAt only rest
  have called := getch_receive read received
  cases event with
  | data bytes =>
      rcases RecvSource.recv_data (by decide) received with ⟨nonempty, asked, _⟩
      rcases List.length_eq_one_iff.mp (Nat.le_antisymm asked
        (List.length_pos_of_ne_nil nonempty)) with ⟨c, rfl⟩
      rcases waiting.queueChar short c (Function.update reads.inbound socket rest) with
        ⟨queued, next, onlyNext⟩
      refine .inl ⟨c, queued, _, called, next, rest, ?_, ?_⟩
      · exact Framing.read_full inField.need received rfl
      · exact Touches.of_onlyAt (only.trans onlyNext) rest
  | wouldBlock =>
      rcases waiting.interrupted inField.shape with ⟨ended, others⟩
      rw [List.append_nil] at ended
      refine .inr ⟨_, .interrupted, _, called, .inl ⟨rfl, rfl⟩, rest, ?_, ?_, ended⟩
      · exact Framing.read_wouldBlock inField.need received
      · exact ⟨rfl, fun other different => (others other different).trans
          (touches.others other different)⟩
  | endOfFile =>
      exact .inr ⟨_, .failed, _, called, .inr ⟨rfl, rfl⟩, rest,
        Framing.read_failed inField.need received id, touches, waiting.failed id⟩
  | failed =>
      exact .inr ⟨_, .failed, _, called, .inr ⟨rfl, rfl⟩, rest,
        Framing.read_failed inField.need received id, touches, waiting.failed id⟩

theorem InCall.getch (inCall : InCall socket consumed ahead body queue reads)
    (inField : InField consumed) (short : consumed.length ≤ 4) :
    (∃ c later queue after, Socket.getch socket reads = (.ok c, after) ∧
        InCall socket (consumed ++ [c]) later body queue after ∧
        Proceeds socket (consumed ++ ahead ++ body) reads
          (consumed ++ [c] ++ later ++ body) after) ∨
      ∃ rc outcome after, Socket.getch socket reads = (.error rc, after) ∧
        StandsFor rc outcome ∧
        Finishes socket (consumed ++ ahead ++ body) reads outcome consumed after := by
  cases ahead with
  | cons c later =>
      rcases inCall.getch_ahead with ⟨queue, after, called, next, touches⟩
      exact .inl ⟨c, later, queue, after, called, next, _, by simp, touches⟩
  | nil =>
      have stored := inCall.stored
      rw [List.append_nil] at stored
      have noBody := stored.body_eq_nil inField
      subst noBody
      simp only [List.append_nil]
      rcases inCall.getch_recv inField short with
        ⟨c, queue, after, called, next, proceeds⟩ | ended
      · exact .inl ⟨c, [], queue, after, called, next, by simpa using proceeds⟩
      · exact .inr ended

/-! ### `MQTTPacket_decode` -/

theorem InCall.decodeLoop (remaining : Nat) : ∀ {first : β} {field ahead : List β}
    {multiplier value : Nat} {queue : SocketQueue β} {reads : SocketReads β},
    InCall socket (first :: field) ahead body queue reads →
    Resumes maxNoOfRemainingLengthBytes (field.map toUInt8) remaining multiplier value →
    field.length + remaining = 4 →
    (∃ chars length queue after,
        decodeLoop socket remaining multiplier value reads = (chars, .ok length, after) ∧
        scan maxNoOfRemainingLengthBytes ((field ++ chars).map toUInt8) = .value length [] ∧
        InCall socket (first :: (field ++ chars)) [] body queue after ∧
        Proceeds socket (first :: (field ++ ahead ++ body)) reads
          (first :: (field ++ chars ++ body)) after) ∨
      ∃ chars rc outcome after,
        decodeLoop socket remaining multiplier value reads = (chars, .error rc, after) ∧
        StandsFor rc outcome ∧
        Finishes socket (first :: (field ++ ahead ++ body)) reads outcome
          (first :: (field ++ chars)) after := by
  induction remaining with
  | zero =>
      intro first field ahead multiplier value queue reads inCall resumes digits
      have overlong := resumes.overlong []
      rw [List.append_nil] at overlong
      have bound := queue.header_le
      rw [inCall.stored.fixedHeader, List.length_append, List.length_cons] at bound
      have noAhead : ahead = [] := List.length_eq_zero_iff.mp (by omega)
      subst noAhead
      have noBody : body = [] := by
        by_contra nonempty
        rcases inCall.stored.expected nonempty with ⟨_, _, _, split, scanned, _⟩
        rw [List.append_nil, List.cons.injEq] at split
        rw [← split.2, overlong] at scanned
        cases scanned
      subst noBody
      refine .inr ⟨[], socketError, .failed, reads, rfl, .inr ⟨rfl, rfl⟩, reads.inbound socket,
        ?_, ⟨by simp, fun _ _ => rfl⟩, inCall.failed (by simp)⟩
      have malformed : framing.need (first :: field) = .malformed := need_of_overlong overlong
      simpa using Framing.read_malformed malformed _
  | succ remaining induction =>
      intro first field ahead multiplier value queue reads inCall resumes digits
      have inField : InField (first :: field) := resumes.incomplete
      rcases inCall.getch inField (by simp only [List.length_cons]; omega) with
        ⟨c, later, queue, after, called, next, proceeds⟩ | ⟨rc, outcome, after, called, ends⟩
      · rw [MQTTPacket.decodeLoop, called]
        dsimp only
        simp only [List.cons_append] at next proceeds
        split
        · rename_i continued
          have resumed := resumes.digit continued
          rw [← List.map_singleton, ← List.map_append] at resumed
          rcases induction next resumed (by simp; omega) with
            ⟨chars, length, queue, final, looped, scanned, reached, further⟩ |
            ⟨chars, rc, outcome, final, looped, stands, finishes⟩
          · rw [looped]
            simp only [List.append_assoc, List.singleton_append] at scanned reached further
            refine .inl ⟨c :: chars, length, queue, final, rfl, scanned, reached, ?_⟩
            simpa using proceeds.trans (by simpa using further)
          · rw [looped]
            refine .inr ⟨c :: chars, rc, outcome, final, rfl, stands, ?_⟩
            simpa using proceeds.finishes (by simpa using finishes)
        · rename_i ended
          have last := resumes.last (Nat.lt_of_not_le ended)
          have scanned := last []
          rw [List.append_nil, ← List.map_singleton, ← List.map_append] at scanned
          have noLater : later = [] := by
            by_contra nonempty
            have shape := next.shape nonempty
            have behind := last (later.map toUInt8)
            rw [← List.map_singleton, ← List.map_append, ← List.map_append] at behind
            rw [List.cons_append, HeaderShape, behind] at shape
            simp [nonempty] at shape
          subst noLater
          refine .inl ⟨[c], _, queue, after, rfl, scanned, next, ?_⟩
          simpa using proceeds
      · rw [MQTTPacket.decodeLoop, called]
        exact .inr ⟨[], rc, outcome, after, rfl, ends.1, by simpa using ends.2⟩

/-! ### `Socket_getdata` -/

theorem Stored.enlarge {first : β} {field : List β} {length : Nat}
    (stored : Stored queue (first :: field) body) (datalen : queue.datalen = body.length)
    (scanned : scan maxNoOfRemainingLengthBytes (field.map toUInt8) = .value length []) :
    Stored (queue.enlarge length) (first :: field) body ∧
      length ≤ (queue.enlarge length).buflen := by
  unfold SocketQueue.enlarge
  split
  · rename_i larger
    -- a queue that holds part of a body has had its room made already
    have noBody : body = [] := by
      by_contra nonempty
      rcases stored.expected nonempty with ⟨_, _, other, split, again, _, room⟩
      cases split
      rw [scanned] at again
      cases again
      omega
    subst noBody
    rw [if_neg (by simp [datalen])]
    refine ⟨⟨stored.fixedHeader, List.nil_prefix, ?_, by simp⟩, Nat.le_refl _⟩
    simp only [SocketQueue.realloc, List.length_append, List.length_take,
      List.length_replicate]
    omega
  · rename_i smaller
    exact ⟨stored, by omega⟩

theorem Stored.receive {first : β} {field : List β} {length : Nat}
    (stored : Stored queue (first :: field) body) (room : length ≤ queue.buflen)
    {data : List β}
    (fits : body.length + data.length ≤ length) :
    (body ++ data).map some <+: (queue.receive body.length data).buf ∧
      (queue.receive body.length data).buf.length = queue.buf.length := by
  have bound := stored.room
  rcases stored.stored with ⟨others, split⟩
  have front : queue.buf.take body.length = body.map some := by
    rw [← split, List.take_append_of_le_length (by simp), List.take_of_length_le (by simp)]
  constructor
  · rw [SocketQueue.receive, front, List.map_append]
    exact List.prefix_append _ _
  · simp only [SocketQueue.receive, List.length_append, List.length_take, List.length_map,
      List.length_drop]
    omega

inductive BodyRead (socket : SOCKET) (header body : List β) (length : Nat)
    (before : SocketReads β) : Getdata β × SocketReads β → Prop
  | whole {block : List (Option β)} {data : List β} {after : SocketReads β}
      (taken : block.take length = data.map some) (measured : data.length = length)
      (finishes : Finishes socket (header ++ body) before (.packet (header ++ data)) [] after) :
      BodyRead socket header body length before (.buffer block length, after)
  | part {block : List (Option β)} {data : List β} {after : SocketReads β}
      (taken : block.take data.length = data.map some) (short : data.length < length)
      (finishes : Finishes socket (header ++ body) before .interrupted (header ++ data) after) :
      BodyRead socket header body length before (.buffer block data.length, after)
  | null {after : SocketReads β}
      (finishes : Finishes socket (header ++ body) before .failed (header ++ body) after) :
      BodyRead socket header body length before (.null, after)

omit [Octet β] in
private theorem take_of_isPrefix {data : List β} {block : List (Option β)}
    (isPrefix : data.map some <+: block) : block.take data.length = data.map some := by
  have taken := List.prefix_iff_eq_take.mp isPrefix
  rw [List.length_map] at taken
  exact taken.symm

private theorem InCall.getdata_zero {first : β} {field : List β}
    (inCall : InCall socket (first :: field) [] body queue reads)
    (scanned : scan maxNoOfRemainingLengthBytes (field.map toUInt8) = .value 0 []) :
    BodyRead socket (first :: field) body 0 reads (Socket.getdata socket 0 0 reads) := by
  have noBody : body = [] := by
    by_contra nonempty
    rcases inCall.stored.expected nonempty with ⟨_, _, length, split, again, shorter, _⟩
    rw [List.append_nil, List.cons.injEq] at split
    rw [← split.2, scanned] at again
    cases again
    omega
  subst noBody
  rcases After.complete inCall.current inCall.stored.room (first :: (field ++ [])) with
    ⟨ended, others⟩
  rw [Socket.getdata, if_pos rfl]
  refine .whole (show List.take 0 _ = ([] : List β).map some from rfl) rfl
    ⟨reads.inbound socket, ?_, ⟨?_, others⟩, ended⟩
  · rw [List.cons_append]
    refine Framing.read_complete ?_ _
    rw [need_of_value scanned, if_neg (by simp)]
  · exact (Function.update_eq_self _ _).symm

private theorem finishes_whole {first : β} {field data : List β}
    {found : Option (ListElement (SocketQueue β))} {rest : RecvSource β}
    {buffer : SocketBuffer β} (points : buffer.Points socket queue found)
    (stored : data.map some <+: queue.buf) (room : queue.buflen ≤ queue.buf.length)
    (read : framing.read (first :: field ++ body) (reads.inbound socket) =
      (.packet (first :: (field ++ data)), [], rest))
    (touches : Touches socket reads rest
      ⟨buffer, Function.update reads.inbound socket rest⟩) :
    BodyRead socket (first :: field) body data.length reads
      (Socket.gotData socket data.length data.length found
        ⟨buffer, Function.update reads.inbound socket rest⟩) := by
  let reached : SocketReads β := ⟨buffer, Function.update reads.inbound socket rest⟩
  have current : reached.buffer.Current socket queue := points.current
  have ends := After.complete current room (first :: (field ++ data))
  rw [Socket.gotData, Socket.block_of_points points, if_pos rfl]
  exact .whole (take_of_isPrefix stored) rfl ⟨rest, read, ⟨rfl, fun other different =>
    (ends.2 other different).trans (touches.others other different)⟩, ends.1⟩

private theorem InUse.finishes_part {first : β} {field data : List β} {length : Nat}
    {found : Option (ListElement (SocketQueue β))} {rest : RecvSource β}
    {buffer : SocketBuffer β}
    (inUse : InUse socket (first :: field) [] data queue
      ⟨buffer, Function.update reads.inbound socket rest⟩)
    (points : buffer.Points socket queue found)
    (scanned : scan maxNoOfRemainingLengthBytes (field.map toUInt8) = .value length [])
    (short : data.length < length)
    (read : framing.read (first :: field ++ body) (reads.inbound socket) =
      (.interrupted, first :: (field ++ data), rest))
    (touches : Touches socket reads rest
      ⟨buffer, Function.update reads.inbound socket rest⟩) :
    BodyRead socket (first :: field) body length reads
      (Socket.gotData socket length data.length found
        ⟨buffer, Function.update reads.inbound socket rest⟩) := by
  rcases inUse.interrupted (.inr ⟨length, scanned⟩) with ⟨ended, others⟩
  rw [Socket.gotData, Socket.block_of_points points, if_neg (by omega)]
  exact .part (take_of_isPrefix inUse.stored.stored) short ⟨rest, read, ⟨rfl,
    fun other different => (others other different).trans (touches.others other different)⟩,
    ended⟩

omit [Octet β] in
private theorem getdata_receive {length actualLen : Nat} {buffer : SocketBuffer β}
    {found : Option (ListElement (SocketQueue β))} {event : RecvEvent β} {rest : RecvSource β}
    (positive : length ≠ 0)
    (read : reads.buffer.getQueuedData socket length = (found, actualLen, buffer))
    (fits : ¬actualLen > length)
    (received : (reads.inbound socket).recv (length - actualLen) = (event, rest)) :
    Socket.getdata socket length 0 reads =
      let inbound := Function.update reads.inbound socket rest
      match event with
      | .wouldBlock => Socket.gotData socket length actualLen found ⟨buffer, inbound⟩
      | .data (c :: data) =>
          Socket.gotData socket length (actualLen + (c :: data).length) found
            ⟨buffer.modifyFound found (.receive actualLen (c :: data))
              (SocketQueue.socket_receive actualLen (c :: data)), inbound⟩
      | _ => (.null, ⟨buffer, inbound⟩) := by
  rw [Socket.getdata, if_neg positive, read]
  dsimp only
  rw [if_neg fits, recv_eq received]
  cases event with
  | data bytes => cases bytes <;> rfl
  | wouldBlock => rfl
  | endOfFile => rfl
  | failed => rfl

private theorem Stored.shorter {first : β} {field : List β} {length : Nat}
    (stored : Stored queue (first :: field) body)
    (scanned : scan maxNoOfRemainingLengthBytes (field.map toUInt8) = .value length [])
    (positive : length ≠ 0) : body.length < length := by
  by_cases empty : body = []
  · rw [empty, List.length_nil]
    omega
  · rcases stored.expected empty with ⟨_, _, other, split, again, shorter, _⟩
    cases split
    rw [scanned] at again
    cases again
    exact shorter

/-- `recv` gives all that is missing of the body, or some of it. -/
private theorem InUse.receive_data {first byte : β} {field more : List β} {length : Nat}
    {found : Option (ListElement (SocketQueue β))} {rest : RecvSource β} {buffer : SocketBuffer β}
    (inUse : InUse socket (first :: field) [] body queue
      ⟨buffer, Function.update reads.inbound socket rest⟩)
    (points : buffer.Points socket queue found) (only : reads.buffer.OnlyAt socket buffer)
    (scanned : scan maxNoOfRemainingLengthBytes (field.map toUInt8) = .value length [])
    (room : length ≤ queue.buflen) (fits : body.length + (byte :: more).length ≤ length)
    (received : (reads.inbound socket).recv (length - body.length - 1 + 1) =
      (.data (byte :: more), rest)) :
    BodyRead socket (first :: field) body length reads
      (Socket.gotData socket length (body.length + (byte :: more).length) found
        ⟨buffer.modifyFound found (.receive body.length (byte :: more))
          (SocketQueue.socket_receive body.length (byte :: more)),
          Function.update reads.inbound socket rest⟩) := by
  have enlarged := inUse.stored
  rw [List.append_nil] at enlarged
  have needed : framing.need (first :: (field ++ body)) = _ := need_of_value scanned body
  rw [List.length_cons] at fits
  rw [if_pos (by omega)] at needed
  rw [← List.length_cons] at fits
  rcases enlarged.receive room fits with ⟨content, same⟩
  rcases points.modifyFound (.receive body.length (byte :: more))
    (SocketQueue.socket_receive body.length (byte :: more)) with ⟨written, onlyNext⟩
  have touchesNext := Touches.of_onlyAt (only.trans onlyNext) rest
  have roomNext : queue.buflen ≤ (queue.receive body.length (byte :: more)).buf.length := by
    rw [same]
    exact enlarged.room
  rw [← List.length_append]
  by_cases full : (body ++ byte :: more).length = length
  · rw [← full]
    refine finishes_whole written content roomNext ?_ touchesNext
    have all : (byte :: more).length = length - body.length - 1 + 1 := by
      rw [List.length_append] at full
      omega
    have complete : framing.need (first :: (field ++ (body ++ byte :: more))) = .complete := by
      rw [need_of_value scanned, if_neg (by omega)]
    rw [List.cons_append, Framing.read_full needed received all, List.cons_append,
      List.append_assoc]
    exact Framing.read_complete complete rest
  · rw [List.length_append] at full
    have short : (body ++ byte :: more).length < length := by
      rw [List.length_append]
      omega
    refine InUse.finishes_part ?_ written scanned short ?_ touchesNext
    · exact inUse.of_onlyAt written.current onlyNext _ inUse.index
        (by
          rw [List.append_nil]
          exact ⟨enlarged.fixedHeader, content, roomNext, fun _ =>
            ⟨first, field, length, rfl, scanned, short, room⟩⟩)
        (by simp) inUse.default
    · have missing : (byte :: more).length ≠ length - body.length - 1 + 1 := by omega
      rw [List.cons_append, Framing.read_short needed received missing, List.cons_append,
        List.append_assoc]

theorem InCall.getdata {first : β} {field : List β} {length : Nat}
    (inCall : InCall socket (first :: field) [] body queue reads)
    (scanned : scan maxNoOfRemainingLengthBytes (field.map toUInt8) = .value length []) :
    BodyRead socket (first :: field) body length reads
      (Socket.getdata socket length 0 reads) := by
  by_cases zero : length = 0
  · subst zero
    exact inCall.getdata_zero scanned
  have stored := inCall.stored
  rw [List.append_nil] at stored
  have shorter := stored.shorter scanned zero
  rcases inCall.current.getQueuedData length
      (fun absent => by rw [inCall.datalen, inCall.noBody absent, List.length_nil]) with
    ⟨found, buffer, read, points, only⟩
  rw [inCall.datalen] at read
  rcases stored.enlarge inCall.datalen scanned with ⟨enlarged, room⟩
  have header := queue.enlarge_header length
  have needed : framing.need (first :: (field ++ body)) = _ := need_of_value scanned body
  rw [if_pos shorter] at needed
  have asked : length - body.length - 1 + 1 = length - body.length := by omega
  cases received : (reads.inbound socket).recv (length - body.length) with
  | mk event rest =>
  have called := getdata_receive zero read (by omega) received
  rw [← asked] at received
  have inUse : InUse socket (first :: field) [] body (queue.enlarge length)
      ⟨buffer, Function.update reads.inbound socket rest⟩ :=
    inCall.of_onlyAt points.current only _ (header.2.1.trans inCall.index)
      (by rw [List.append_nil]; exact enlarged) (by simp)
      (fun absent => by rw [SocketQueue.socket_enlarge]; exact inCall.default absent)
  have touches := Touches.of_onlyAt only rest
  have failed : After socket ⟨buffer, Function.update reads.inbound socket rest⟩ .failed
      (first :: (field ++ body)) := by
    refine InCall.failed ⟨inUse, header.2.2.trans inCall.datalen, fun absent => ?_⟩ (by simp)
    exact inCall.noBody (only.presence.mp absent)
  cases event with
  | endOfFile | failed =>
      rw [called]
      exact .null ⟨rest, Framing.read_failed needed received id, touches, failed⟩
  | wouldBlock =>
      rw [called]
      exact inUse.finishes_part points scanned shorter
        (Framing.read_wouldBlock needed received) touches
  | data bytes =>
      rcases RecvSource.recv_data (Nat.succ_pos _) received with ⟨nonempty, bounded, _⟩
      rcases List.exists_cons_of_ne_nil nonempty with ⟨byte, more, rfl⟩
      rw [called]
      exact inUse.receive_data points only scanned room (by omega) received

/-! ### `MQTTPacket_Factory` -/

structure Refines (MQTTVersion : Int) (socket : SOCKET) (kept : List β)
    (before : SocketReads β) (outcome : ReadOutcome β) (left : List β)
    (call : FactoryCall β × SocketReads β) : Prop where
  finishes : Finishes socket kept before outcome left call.2
  result : call.1.result = resultOfOutcome MQTTVersion outcome
  chars : ∀ c ∈ call.1.chars, c ∈ outcome.bytes ++ left
  data : ∀ stored ∈ call.1.data, ∃ byte ∈ outcome.bytes ++ left, stored = some byte

theorem mapM_stored (data : List β) :
    ((data.map some).mapM fun stored => stored.map toUInt8) = some (data.map toUInt8) := by
  induction data with
  | nil => rfl
  | cons byte data induction =>
      rw [List.map_cons, List.mapM_cons, induction]
      rfl

theorem StandsFor.result {rc : Int} (stands : StandsFor rc outcome) (MQTTVersion : Int) :
    .returned rc none = resultOfOutcome MQTTVersion outcome := by
  rcases stands with ⟨rfl, rfl⟩ | ⟨rfl, rfl⟩ <;> rfl

theorem InCall.refines (inCall : InCall socket [] ahead body queue reads)
    (MQTTVersion : Int) :
    ∃ outcome left, Refines MQTTVersion socket (ahead ++ body) reads outcome left
      (factory MQTTVersion socket reads) := by
  rcases inCall.getch trivial (by simp) with
    ⟨header, later, headerQueue, afterHeader, called, next, proceeds⟩ |
    ⟨rc, outcome, after, called, stands, finishes⟩
  case inr =>
    refine ⟨outcome, [], ?_⟩
    rw [factory, called]
    exact ⟨by simpa using finishes, stands.result MQTTVersion, by simp, by simp⟩
  simp only [List.nil_append] at next proceeds
  rcases next.decodeLoop 4 (.start 4) rfl with
    ⟨field, length, fieldQueue, afterField, looped, scanned, reached, further⟩ |
    ⟨field, rc, outcome, after, looped, stands, finishes⟩
  case inr =>
    refine ⟨outcome, header :: field, ?_⟩
    rw [factory, called]
    simp only [decode, looped]
    exact ⟨proceeds.finishes finishes, stands.result MQTTVersion,
      fun c member => List.mem_append_right _ member, by simp⟩
  rw [List.nil_append] at scanned reached further
  have read := reached.getdata scanned
  rw [factory, called]
  simp only [decode, looped]
  have start := proceeds.trans further
  rw [List.nil_append] at start
  have inPart (data : List β) : ∀ stored ∈ data.map some,
      ∃ byte ∈ header :: field ++ data, stored = some byte := by
    intro stored member
    rcases List.mem_map.mp member with ⟨byte, present, rfl⟩
    exact ⟨byte, List.mem_append_right _ present, rfl⟩
  cases got : Socket.getdata socket length 0 afterField with
  | mk data after =>
  rw [got] at read
  cases read with
  | @whole block whole _ taken measured finishes =>
      refine ⟨.packet (header :: field ++ whole), [], ?_⟩
      dsimp only
      rw [if_neg (Nat.lt_irrefl length), taken, parseBlock, mapM_stored]
      refine ⟨start.finishes finishes, ?_, ?_, ?_⟩
      · rw [resultOfOutcome, List.cons_append, resultOfBytes_of_value scanned]
      · rw [ReadOutcome.bytes, List.append_nil]
        exact fun c member => List.mem_append_left _ member
      · rw [ReadOutcome.bytes, List.append_nil]
        exact inPart whole
  | @part block part _ taken short finishes =>
      refine ⟨.interrupted, header :: field ++ part, ?_⟩
      dsimp only
      rw [if_pos short, taken]
      exact ⟨start.finishes finishes, rfl,
        fun c member => List.mem_append_right _ (List.mem_append_left _ member), inPart part⟩
  | null finishes =>
      exact ⟨.failed, header :: field ++ body, start.finishes finishes, rfl,
        fun c member => List.mem_append_right _ (List.mem_append_left _ member), by simp⟩

end Steps

/-! ## Whole states -/

/-- The queues represent the bytes kept for every socket. A queue that is not
rewound, or a default queue that is still owned, represents nothing. -/
structure Represents (reads : SocketReads β) (kept : SOCKET → List β) : Prop where
  default : reads.defQueue.socket = 0 → Unused reads.defQueue
  saved : ∀ socket queue, reads.saved socket = some queue → queue.index = 0 →
    Holds queue (kept socket)
  absent : reads.defQueue.socket = 0 → ∀ socket, reads.saved socket = none →
    kept socket = []

omit [Octet β] in
/-- The queues are at rest for a socket: nobody owns the default queue, and the
queue saved for the socket is rewound. -/
def AtRest (socket : SOCKET) (reads : SocketReads β) : Prop :=
  reads.defQueue.socket = 0 ∧ ∀ queue, reads.saved socket = some queue → queue.index = 0

theorem Represents.start (inbound : SOCKET → RecvSource β) :
    Represents ⟨.start, inbound⟩ fun _ => [] where
  default _ := .newDefQ
  saved socket queue found := by simp [SocketReads.saved] at found
  absent _ _ _ := rfl

omit [Octet β] in
theorem AtRest.start (socket : SOCKET) (inbound : SOCKET → RecvSource β) :
    AtRest socket ⟨.start, inbound⟩ :=
  ⟨rfl, fun queue found => by simp [SocketReads.saved] at found⟩

theorem Represents.inCall {reads : SocketReads β} {kept : SOCKET → List β} {socket : SOCKET}
    (represents : Represents reads kept) (atRest : AtRest socket reads)
    (positive : socket ≠ 0) :
    ∃ header body queue, kept socket = header ++ body ∧
      InCall socket [] header body queue reads := by
  have unused := represents.default atRest.1
  cases found : reads.saved socket with
  | some queue =>
      have index := atRest.2 queue found
      rcases represents.saved socket queue found index with
        ⟨_, header, body, split, datalen, shape, stored⟩
      refine ⟨header, body, queue, split, ⟨positive, .saved found, index, stored,
        fun _ => shape, fun absent => ?_, fun _ => unused⟩, datalen, fun absent => ?_⟩
      all_goals
        rw [found] at absent
        cases absent
  | none =>
      refine ⟨[], [], reads.defQueue, represents.absent atRest.1 socket found,
        ⟨positive, .default found rfl, unused.index, ?_, by simp, fun _ => ⟨rfl, unused.socket⟩,
        fun present => (present found).elim⟩, unused.datalen, fun _ => rfl⟩
      exact ⟨unused.fixedHeader, List.nil_prefix, unused.room, by simp⟩

theorem Finishes.represents {reads after : SocketReads β} {kept : SOCKET → List β}
    {socket : SOCKET} {outcome : ReadOutcome β} {left : List β}
    (finishes : Finishes socket (kept socket) reads outcome left after)
    (represents : Represents reads kept) (atRest : AtRest socket reads) :
    Represents after (Function.update kept socket left) ∧
      (outcome ≠ .failed → AtRest socket after) := by
  rcases finishes with ⟨rest, _, touches, ended⟩
  have here : (after.defQueue.socket = 0 → Unused after.defQueue) ∧
      (∀ queue, after.saved socket = some queue → queue.index = 0 → Holds queue left) ∧
      (after.defQueue.socket = 0 → after.saved socket = none → left = []) ∧
      (outcome ≠ .failed → AtRest socket after) := by
    cases ended with
    | packet absent unused =>
        refine ⟨fun _ => unused, ?_, fun _ _ => rfl, fun _ => ⟨unused.socket, ?_⟩⟩
        all_goals
          intro queue found
          rw [absent] at found
          cases found
    | @interrupted queue _ found holds unused =>
        refine ⟨fun _ => unused, ?_, ?_, fun _ => ⟨unused.socket, ?_⟩⟩
        · intro other same _
          rw [found] at same
          cases same
          exact holds
        · intro _ absent
          rw [found] at absent
          cases absent
        · intro other same
          rw [found] at same
          cases same
          exact holds.1
    | failed saved default =>
        exact ⟨fun free => (default free).1, saved, fun free => (default free).2,
          fun different => (different rfl).elim⟩
  rcases here with ⟨unused, saved, absent, rested⟩
  refine ⟨⟨unused, ?_, ?_⟩, rested⟩
  · intro other queue found index
    by_cases same : other = socket
    · subst other
      rw [Function.update_self]
      exact saved queue found index
    · rw [Function.update_of_ne same]
      rw [touches.others other same] at found
      exact represents.saved other queue found index
  · intro free other none
    by_cases same : other = socket
    · subst other
      rw [Function.update_self]
      exact absent free none
    · rw [Function.update_of_ne same]
      rw [touches.others other same] at none
      exact represents.absent atRest.1 other none

theorem Represents.refines {reads : SocketReads β} {kept : SOCKET → List β}
    {socket : SOCKET} (represents : Represents reads kept) (atRest : AtRest socket reads)
    (positive : socket ≠ 0) (MQTTVersion : Int) :
    ∃ outcome left, Refines MQTTVersion socket (kept socket) reads outcome left
        (factory MQTTVersion socket reads) ∧
      Represents (factory MQTTVersion socket reads).2 (Function.update kept socket left) ∧
      (outcome ≠ .failed → AtRest socket (factory MQTTVersion socket reads).2) := by
  rcases represents.inCall atRest positive with ⟨header, body, queue, split, inCall⟩
  rcases inCall.refines MQTTVersion with ⟨outcome, left, refines⟩
  rw [← split] at refines
  exact ⟨outcome, left, refines, refines.finishes.represents represents atRest⟩

end MqttClient.MQTTPacket
