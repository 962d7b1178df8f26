import MqttClient.Socket.Reads
import MqttClient.Socket.Writes

/-! # `WebSocket`: raw data

`WebSocket_getRawSocketData` reads through the frame buffer, which keeps the bytes of a
frame until all of it is there. `recv` is taken with the limits that the lengths of frames
can reach. Allocation succeeds.
-/

namespace MqttClient

open Foundation

namespace WebSocket

abbrev eagain : Int := 11

/-- The errno of a receive that fails. Nothing distinguishes it from any other but `EAGAIN`;
none is zero or -1. -/
abbrev econnreset : Int := 104

/-- How many bytes `recv` takes at most: its count goes through `int` and is unsigned then. -/
def recvCount (bytes : Nat) : Nat :=
  if toInt bytes < 0 then maxRwCount else min (toInt bytes).toNat maxRwCount

/-- The end of `Socket_getdata` behind its `recv`. -/
def received (socket : SOCKET) (bytes actualLen : Nat)
    (found : Option (ListElement (SocketQueue UInt8))) :
    RecvEvent UInt8 × SocketReads UInt8 → Getdata UInt8 × Int × SocketReads UInt8
  | (.wouldBlock, reads) =>
      let got := Socket.gotData socket bytes actualLen found reads
      (got.1, eagain, got.2)
  | (.data (c :: data), reads) =>
      let got := Socket.gotData socket bytes (actualLen + (c :: data).length) found
        (reads.withBuffer (reads.buffer.modifyFound found (.receive actualLen (c :: data))
          (SocketQueue.socket_receive actualLen (c :: data))))
      (got.1, (c :: data).length, got.2)
  | (.data [], reads) => (.null, 0, reads)
  | (.endOfFile, reads) => (.null, 0, reads)
  | (.failed, reads) => (.null, econnreset, reads)

/-- `Socket_getdata` with its `*rc`, which is left alone if no bytes are asked for, and the
limits of its `recv`. `*actual_len` is zero before. -/
def socketGetdata (socket : SOCKET) (bytes : Nat) (rc : Int) (reads : SocketReads UInt8) :
    Getdata UInt8 × Int × SocketReads UInt8 :=
  if bytes = 0 then
    let buffer := reads.buffer.complete socket
    (.buffer buffer.defQueue.buf 0, rc, reads.withBuffer buffer)
  else
    let (found, actualLen, buffer) := reads.buffer.getQueuedData socket bytes
    let reads := reads.withBuffer buffer
    if actualLen > bytes then (.undefined, rc, reads)
    else if recvCount (bytes - actualLen) = 0 then (.null, 0, reads)
    else received socket bytes actualLen found
      (reads.recv socket (recvCount (bytes - actualLen)))

theorem recvCount_of_le {bytes : Nat} (small : bytes ≤ maxRwCount) : recvCount bytes = bytes := by
  have bound : bytes < 2147483648 := small.trans_lt (by decide)
  rw [recvCount, toInt_of_lt (by omega) (by omega), if_neg (by omega), Int.toNat_natCast,
    min_eq_left small]

theorem recvCount_le (bytes : Nat) : recvCount bytes ≤ bytes % 4294967296 := by
  unfold recvCount toInt maxRwCount
  split <;> omega

theorem recvCount_ne_zero {bytes : Nat} (positive : 0 < bytes) (small : bytes < 4294967296) :
    recvCount bytes ≠ 0 := by
  unfold recvCount toInt maxRwCount
  split <;> omega

/-- Where the limits do not matter, the two models of `Socket_getdata` agree. -/
theorem socketGetdata_eq (socket : SOCKET) {bytes : Nat} (rc : Int) (reads : SocketReads UInt8)
    (small : bytes ≤ maxRwCount) (more : (reads.buffer.getQueuedData socket bytes).2.1 ≠ bytes) :
    ((socketGetdata socket bytes rc reads).1, (socketGetdata socket bytes rc reads).2.2) =
      Socket.getdata socket bytes 0 reads := by
  unfold socketGetdata Socket.getdata
  split
  · rfl
  · rcases queued : reads.buffer.getQueuedData socket bytes with ⟨found, actualLen, buffer⟩
    rw [queued] at more
    dsimp only at more ⊢
    split
    · rfl
    · rw [recvCount_of_le ((Nat.sub_le ..).trans small), if_neg (by omega)]
      rcases SocketReads.recv socket _ _ with ⟨event, reads⟩
      cases event with
      | data bytes => cases bytes <;> rfl
      | wouldBlock | endOfFile | failed => rfl

/-! ## The frame buffer -/

/-- `frame_buffer` with `frame_buffer_index`; an empty one is NULL. -/
structure FrameBuffer where
  data : List UInt8
  index : Nat
  index_le : index ≤ data.length

namespace FrameBuffer

theorem index_le_empty : 0 ≤ ([] : List UInt8).length := Nat.le_refl 0

def empty : FrameBuffer := ⟨[], 0, index_le_empty⟩

def ahead (buffer : FrameBuffer) : List UInt8 := buffer.data.drop buffer.index

/-- Move the index over `bytes` bytes, or to the end. -/
def advance (bytes : Nat) (buffer : FrameBuffer) : FrameBuffer :=
  { buffer with
    index := min (buffer.index + bytes) buffer.data.length
    index_le := Nat.min_le_right .. }

def append (received : List UInt8) (buffer : FrameBuffer) : FrameBuffer where
  data := buffer.data ++ received
  index := buffer.index
  index_le := by
    rw [List.length_append]
    exact Nat.le_add_right_of_le buffer.index_le

def rewind (buffer : FrameBuffer) : FrameBuffer := ⟨buffer.data, 0, Nat.zero_le _⟩

section

variable {buffer : FrameBuffer} {bytes : Nat} {received : List UInt8}

@[simp] theorem data_advance : (buffer.advance bytes).data = buffer.data := rfl

@[simp] theorem index_advance :
    (buffer.advance bytes).index = min (buffer.index + bytes) buffer.data.length := rfl

@[simp] theorem data_append : (buffer.append received).data = buffer.data ++ received := rfl

@[simp] theorem index_append : (buffer.append received).index = buffer.index := rfl

@[simp] theorem length_ahead : buffer.ahead.length = buffer.data.length - buffer.index :=
  List.length_drop

@[simp] theorem ahead_append : (buffer.append received).ahead = buffer.ahead ++ received :=
  List.drop_append_of_le_length buffer.index_le

end

end FrameBuffer

/-- The frame buffer, and the read side of the socket. -/
structure RawSocket where
  frameBuffer : FrameBuffer
  reads : SocketReads UInt8

/-- What `WebSocket_getRawSocketData` returns: the `actual_len` bytes at the pointer, unless
that is NULL, and `*rc`. -/
structure RawData where
  block : Option (List UInt8)
  rc : Int

/-- `WebSocket_getRawSocketData`. With `bytes` zero it clears the frame buffer. -/
def getRawSocketData (socket : SOCKET) (bytes : Nat) (rc : Int) (raw : RawSocket) :
    Option (RawData × RawSocket) :=
  let kept := raw.frameBuffer.ahead.length
  if 0 < bytes ∧ bytes ≤ kept then
    some (⟨some (raw.frameBuffer.ahead.take bytes), toInt bytes⟩,
      { raw with frameBuffer := raw.frameBuffer.advance bytes })
  else
    let (data, rc, reads) := socketGetdata socket (bytes - kept) rc raw.reads
    match data with
    | .undefined => none
    | .null => some (⟨none, if rc = 0 then socketError else rc⟩, { raw with reads := reads })
    | .buffer block actualLen =>
        if rc = 0 then some (⟨some [], socketError⟩, { raw with reads := reads })
        else if bytes = 0 then some (⟨some [], rc⟩, ⟨.empty, reads⟩)
        else if actualLen = 0 then some (⟨some [], rc⟩, { raw with reads := reads })
        else
          ((block.take actualLen).mapM id).map fun received =>
            let frameBuffer := raw.frameBuffer.append received
            (⟨some (frameBuffer.ahead.take bytes), rc⟩,
              ⟨frameBuffer.advance bytes, reads.withBuffer (reads.buffer.complete socket)⟩)

/-! ## What a read of raw data does -/

def Roomy (socket : SOCKET) (buffer : SocketBuffer UInt8) : Prop :=
  ∃ queue, buffer.Current socket queue ∧ queue.buflen ≤ queue.buf.length

def Drained (socket : SOCKET) (buffer : SocketBuffer UInt8) : Prop :=
  ∃ queue, buffer.Current socket queue ∧ queue.buflen ≤ queue.buf.length ∧ queue.datalen = 0

section Queue

variable {socket : SOCKET} {buffer : SocketBuffer UInt8} {bytes : Nat}

theorem Roomy.complete (roomy : Roomy socket buffer) : Drained socket (buffer.complete socket) := by
  rcases roomy with ⟨queue, current, room⟩
  rcases current.complete with ⟨saved, default⟩
  exact ⟨queue.reset, .default (by rw [saved, Function.update_self]) default, room, rfl⟩

theorem Roomy.interrupted (roomy : Roomy socket buffer) (actualLen : Nat) :
    ∃ queue, (buffer.interrupted socket actualLen).Current socket queue ∧
      queue.buflen ≤ queue.buf.length ∧ queue.datalen = actualLen := by
  rcases roomy with ⟨queue, current, room⟩
  rcases current.interrupted actualLen with ⟨saved, _⟩
  exact ⟨{ queue with socket := socket }.rewind actualLen,
    .saved (by rw [saved, Function.update_self]), room, rfl⟩

theorem Drained.roomy (drained : Drained socket buffer) : Roomy socket buffer := by
  rcases drained with ⟨queue, current, room, _⟩
  exact ⟨queue, current, room⟩

theorem Drained.getQueuedData (drained : Drained socket buffer) (bytes : Nat) :
    ∃ queue found after, buffer.getQueuedData socket bytes = (found, 0, after) ∧
      after.Points socket queue found ∧ queue.buflen ≤ queue.buf.length ∧
      queue.datalen = 0 ∧ bytes ≤ queue.buf.length := by
  rcases drained with ⟨queue, current, room, empty⟩
  rcases current.getQueuedData bytes (fun _ => empty) with ⟨found, after, read, points, _⟩
  rw [empty] at read
  refine ⟨queue.enlarge bytes, found, after, read, points, ?_⟩
  rw [SocketQueue.enlarge, empty]
  split
  · rw [if_neg (Nat.lt_irrefl 0)]
    have made : bytes ≤ (SocketQueue.realloc bytes queue.buf).length := by
      simp only [SocketQueue.realloc, List.length_append, List.length_take, List.length_replicate]
      omega
    exact ⟨made, rfl, made⟩
  · exact ⟨room, empty, by omega⟩

end Queue

theorem mapM_id_map_some (bytes : List UInt8) : (bytes.map some).mapM id = some bytes := by
  induction bytes with
  | nil => rfl
  | cons byte bytes induction =>
      rw [List.map_cons, List.mapM_cons, induction]
      rfl

section Socket

variable {socket : SOCKET} {reads : SocketReads UInt8} {bytes : Nat}

theorem socketGetdata_zero (rc : Int) (drained : Drained socket reads.buffer) :
    ∃ (block : List (Option UInt8)) (buffer : SocketBuffer UInt8), socketGetdata socket 0 rc reads =
      (.buffer block 0, rc, ⟨buffer, reads.inbound⟩) ∧ Drained socket buffer :=
  ⟨_, reads.buffer.complete socket, if_pos rfl, drained.roomy.complete⟩

theorem socketGetdata_closed (rc : Int) (drained : Drained socket reads.buffer)
    (positive : bytes ≠ 0)
    (closed : recvCount bytes = 0) :
    ∃ buffer, socketGetdata socket bytes rc reads = (.null, 0, ⟨buffer, reads.inbound⟩) ∧
      Drained socket buffer := by
  rcases drained.getQueuedData bytes with ⟨queue, found, buffer, read, points, room, empty, _⟩
  refine ⟨buffer, ?_, queue, points.current, room, empty⟩
  rw [socketGetdata, if_neg positive, read]
  dsimp only
  rw [if_neg (by omega), Nat.sub_zero, if_pos closed]
  rfl

theorem socketGetdata_wouldBlock (rc : Int) (drained : Drained socket reads.buffer)
    (positive : bytes ≠ 0)
    (opened : recvCount bytes ≠ 0) {rest : RecvSource UInt8}
    (next : (reads.inbound socket).recv (recvCount bytes) = (.wouldBlock, rest)) :
    ∃ (block : List (Option UInt8)) (buffer : SocketBuffer UInt8),
      socketGetdata socket bytes rc reads =
        (.buffer block 0, eagain, ⟨buffer, Function.update reads.inbound socket rest⟩) ∧
      Drained socket buffer := by
  rcases drained.getQueuedData bytes with ⟨queue, found, buffer, read, points, room, empty, _⟩
  refine ⟨Socket.block found buffer, buffer.interrupted socket 0, ?_,
    Roomy.interrupted ⟨queue, points.current, room⟩ 0⟩
  rw [socketGetdata, if_neg positive, read]
  dsimp only
  rw [if_neg (by omega), Nat.sub_zero, if_neg opened, SocketReads.recv]
  dsimp only [SocketReads.withBuffer]
  rw [next, received, Socket.gotData, if_neg (Ne.symm positive)]
  rfl

theorem roomy_gotData (bytes actualLen : Nat)
    (found : Option (ListElement (SocketQueue UInt8))) (roomy : Roomy socket reads.buffer) :
    Roomy socket (Socket.gotData socket bytes actualLen found reads).2.buffer := by
  rw [Socket.gotData]
  dsimp only [SocketReads.withBuffer]
  split
  · exact roomy.complete.roomy
  · rcases roomy.interrupted actualLen with ⟨queue, current, room, _⟩
    exact ⟨queue, current, room⟩

theorem socketGetdata_data (rc : Int) (drained : Drained socket reads.buffer) (positive : bytes ≠ 0)
    (opened : recvCount bytes ≠ 0) {data : List UInt8} {rest : RecvSource UInt8}
    (next : (reads.inbound socket).recv (recvCount bytes) = (.data data, rest)) :
    ∃ (block : List (Option UInt8)) (after : SocketReads UInt8),
      socketGetdata socket bytes rc reads =
        (.buffer block data.length, Int.ofNat data.length, after) ∧
      block.take data.length = data.map some ∧
      after.inbound = Function.update reads.inbound socket rest ∧
      Roomy socket after.buffer := by
  rcases drained.getQueuedData bytes with
    ⟨queue, found, buffer, read, points, room, empty, enough⟩
  rcases RecvSource.recv_data (Nat.pos_of_ne_zero opened) next with ⟨nonempty, bounded, _⟩
  rcases List.exists_cons_of_ne_nil nonempty with ⟨c, more, rfl⟩
  rcases points.modifyFound (.receive 0 (c :: more)) (SocketQueue.socket_receive 0 (c :: more)) with
    ⟨written, _⟩
  have count := (recvCount_le bytes).trans (Nat.mod_le ..)
  have kept : (queue.receive 0 (c :: more)).buflen ≤ (queue.receive 0 (c :: more)).buf.length := by
    simp only [SocketQueue.receive, List.take_zero, List.nil_append, List.length_append,
      List.length_map, List.length_drop]
    omega
  let stored : SocketReads UInt8 :=
    ⟨buffer.modifyFound found (.receive 0 (c :: more)) (SocketQueue.socket_receive 0 (c :: more)),
      Function.update reads.inbound socket rest⟩
  have roomy : Roomy socket stored.buffer := ⟨_, written.current, kept⟩
  refine ⟨(queue.receive 0 (c :: more)).buf, _, ?_, ?_, rfl,
    roomy_gotData bytes (c :: more).length found roomy⟩
  · rw [socketGetdata, if_neg positive, read]
    dsimp only
    rw [if_neg (by omega), Nat.sub_zero, if_neg opened, SocketReads.recv]
    dsimp only [SocketReads.withBuffer]
    rw [next, received, Nat.zero_add]
    have block : (Socket.gotData socket bytes (c :: more).length found stored).1 =
        .buffer (queue.receive 0 (c :: more)).buf (c :: more).length := by
      rw [Socket.gotData, Socket.block_of_points written]
    exact Prod.ext block rfl
  · have front : ((c :: more).map some).length = (c :: more).length := List.length_map some
    rw [SocketQueue.receive, List.take_zero, List.nil_append, List.take_left' front]

end Socket

structure Held (socket : SOCKET) (stream : List UInt8) (raw : RawSocket) : Prop where
  drained : Drained socket raw.reads.buffer
  healthy : (raw.reads.inbound socket).Healthy
  stream : raw.frameBuffer.data ++ (raw.reads.inbound socket).bytes = stream

def available (socket : SOCKET) (raw : RawSocket) : Nat :=
  raw.frameBuffer.ahead.length + (raw.reads.inbound socket).ready

inductive ShortRead (socket : SOCKET) (stream : List UInt8) (bytes : Nat) (raw : RawSocket) :
    RawData × RawSocket → Prop
  | closed (closed : recvCount (bytes - raw.frameBuffer.ahead.length) = 0)
      (reads : SocketReads UInt8) :
      ShortRead socket stream bytes raw (⟨none, socketError⟩, { raw with reads := reads })
  | wouldBlock {reads : SocketReads UInt8}
      (held : Held socket stream { raw with reads := reads })
      (nothing : (raw.reads.inbound socket).ready = 0)
      (progress : (raw.reads.inbound socket).bytes = [] ∨
        (reads.inbound socket).size < (raw.reads.inbound socket).size) :
      ShortRead socket stream bytes raw (⟨some [], eagain⟩, { raw with reads := reads })
  | data {data : List UInt8} {reads : SocketReads UInt8}
      (held : Held socket stream ⟨(raw.frameBuffer.append data).advance bytes, reads⟩)
      (nonempty : data ≠ [])
      (count : data.length = min (recvCount (bytes - raw.frameBuffer.ahead.length))
        (raw.reads.inbound socket).ready)
      (ready : (raw.reads.inbound socket).ready ≤ data.length + (reads.inbound socket).ready)
      (progress : (reads.inbound socket).size < (raw.reads.inbound socket).size) :
      ShortRead socket stream bytes raw
        (⟨some ((raw.frameBuffer.append data).ahead.take bytes), data.length⟩,
          ⟨(raw.frameBuffer.append data).advance bytes, reads⟩)

section Raw

variable {socket : SOCKET} {stream : List UInt8} {raw : RawSocket} {bytes : Nat}

theorem getRawSocketData_kept (rc : Int) (positive : 0 < bytes)
    (enough : bytes ≤ raw.frameBuffer.ahead.length) :
    getRawSocketData socket bytes rc raw =
      some (⟨some (raw.frameBuffer.ahead.take bytes), toInt bytes⟩,
        { raw with frameBuffer := raw.frameBuffer.advance bytes }) :=
  if_pos ⟨positive, enough⟩

theorem getRawSocketData_zero {rc : Int} (held : Held socket stream raw) (nonzero : rc ≠ 0) :
    ∃ reads, getRawSocketData socket 0 rc raw = some (⟨some [], rc⟩, ⟨.empty, reads⟩) ∧
      Drained socket reads.buffer ∧ reads.inbound = raw.reads.inbound := by
  rcases socketGetdata_zero rc held.drained with ⟨block, buffer, read, drained⟩
  refine ⟨⟨buffer, raw.reads.inbound⟩, ?_, drained, rfl⟩
  rw [getRawSocketData]
  dsimp only
  rw [if_neg (fun both => absurd both.1 (Nat.lt_irrefl 0)), Nat.zero_sub, read]
  dsimp only
  rw [if_neg nonzero, if_pos rfl]

theorem getRawSocketData_short (rc : Int) (held : Held socket stream raw)
    (short : raw.frameBuffer.ahead.length < bytes) :
    ∃ result, getRawSocketData socket bytes rc raw = some result ∧
      ShortRead socket stream bytes raw result := by
  have missing : bytes - raw.frameBuffer.ahead.length ≠ 0 := by omega
  have positive : bytes ≠ 0 := by omega
  rw [getRawSocketData]
  dsimp only
  rw [if_neg (fun both => absurd both.2 (by omega))]
  by_cases closed : recvCount (bytes - raw.frameBuffer.ahead.length) = 0
  · rcases socketGetdata_closed rc held.drained missing closed with ⟨buffer, read, _⟩
    rw [read]
    exact ⟨_, rfl, .closed closed _⟩
  cases next : (raw.reads.inbound socket).recv
      (recvCount (bytes - raw.frameBuffer.ahead.length)) with
  | mk event rest =>
  have healthy := held.healthy.recv (recvCount (bytes - raw.frameBuffer.ahead.length))
  rw [next] at healthy
  cases event with
  | endOfFile => exact healthy.1.elim
  | failed => exact healthy.1.elim
  | wouldBlock =>
      rcases socketGetdata_wouldBlock rc held.drained missing closed next with
        ⟨block, buffer, read, drained⟩
      rcases RecvSource.recv_wouldBlock next with ⟨same, progress⟩
      rw [read]
      dsimp only
      rw [if_neg (by decide), if_neg positive, if_pos rfl]
      refine ⟨_, rfl, .wouldBlock ⟨drained, ?_, ?_⟩ (RecvSource.ready_of_wouldBlock next) ?_⟩
      · dsimp only
        rw [Function.update_self]
        exact healthy.2
      · dsimp only
        rw [Function.update_self, ← same]
        exact held.stream
      · dsimp only
        rw [Function.update_self]
        exact progress.imp_left fun empty => by rw [empty]; rfl
  | data data =>
      rcases socketGetdata_data rc held.drained missing closed next with
        ⟨block, after, read, stored, inbound, roomy⟩
      rcases RecvSource.recv_data (Nat.pos_of_ne_zero closed) next with
        ⟨nonempty, bounded, conserved, smaller⟩
      rcases RecvSource.recv_data_ready next with ⟨count, ready⟩
      have some_data := List.length_pos_of_ne_nil nonempty
      have target : after.inbound socket = rest := by rw [inbound, Function.update_self]
      have nonzero : Int.ofNat data.length ≠ 0 := Int.natCast_ne_zero.mpr some_data.ne'
      rw [read]
      dsimp only
      rw [if_neg nonzero, if_neg positive, if_neg some_data.ne', stored, mapM_id_map_some]
      refine ⟨_, rfl, .data ⟨roomy.complete, ?_, ?_⟩ nonempty count ?_ ?_⟩
      · dsimp only [SocketReads.withBuffer]
        rw [target]
        exact healthy.2
      · dsimp only [SocketReads.withBuffer]
        rw [target, ← held.stream, conserved, ← List.append_assoc]
        rfl
      all_goals
        dsimp only [SocketReads.withBuffer]
        rw [target]
      · exact ready
      · exact smaller

theorem length_block_le {rc : Int} {after : RawSocket} {data : RawData} {block : List UInt8}
    (read : getRawSocketData socket bytes rc raw = some (data, after))
    (given : data.block = some block) : block.length ≤ bytes := by
  rw [getRawSocketData] at read
  dsimp only at read
  by_cases kept : 0 < bytes ∧ bytes ≤ raw.frameBuffer.ahead.length
  · rw [if_pos kept] at read
    cases read
    cases given
    exact List.length_take_le ..
  · rw [if_neg kept] at read
    generalize socketGetdata socket _ rc raw.reads = got at read
    rcases got with ⟨got, rc, reads⟩
    cases got with
    | undefined => cases read
    | null =>
        cases read
        cases given
    | buffer stored actualLen =>
        dsimp only at read
        by_cases closed : rc = 0
        · rw [if_pos closed] at read
          cases read
          cases given
          exact Nat.zero_le _
        rw [if_neg closed] at read
        by_cases none : bytes = 0
        · rw [if_pos none] at read
          cases read
          cases given
          exact Nat.zero_le _
        rw [if_neg none] at read
        by_cases nothing : actualLen = 0
        · rw [if_pos nothing] at read
          cases read
          cases given
          exact Nat.zero_le _
        rw [if_neg nothing] at read
        cases written : (stored.take actualLen).mapM id with
        | none =>
            rw [written] at read
            cases read
        | some received =>
            rw [written] at read
            cases read
            cases given
            exact List.length_take_le ..

theorem getRawSocketData_zero_ends (rc : Int) (raw : RawSocket) :
    ∃ data after, getRawSocketData socket 0 rc raw = some (data, after) := by
  rw [getRawSocketData]
  dsimp only
  rw [if_neg (fun both => absurd both.1 (Nat.lt_irrefl 0)), Nat.zero_sub, socketGetdata,
    if_pos rfl]
  dsimp only
  by_cases closed : rc = 0
  · rw [if_pos closed]
    exact ⟨_, _, rfl⟩
  · rw [if_neg closed, if_pos rfl]
    exact ⟨_, _, rfl⟩

end Raw

end WebSocket

end MqttClient
