import MqttClient.SocketBuffer.PendingWrites

/-! # `Socket`: writing

`Socket_putdatas` and `Socket_continueWrites` over the pending writes and what
`writev` will do on each socket. Allocation succeeds, and no write-complete or
write-available callback is set.
-/

namespace MqttClient

/-- What a call of `writev` does: accept at most `count` bytes, or fail because it
would have to wait, or fail otherwise. -/
inductive WritevEvent
  | accept (count : Nat)
  | wouldBlock
  | failed
  deriving DecidableEq, Repr

/-- The most bytes that one `writev` accepts: `MAX_RW_COUNT` of Linux. -/
abbrev maxRwCount : Nat := 0x7ffff000

/-- The write side of the module's state, the events that `writev` has in store for
each socket, and the bytes that the kernel has accepted on it. -/
structure SocketWrites where
  writePending : LinkedList SOCKET
  pendingWset : SOCKET → Bool
  writes : LinkedList PendingWrites
  outbound : SOCKET → List WritevEvent
  accepted : SOCKET → List UInt8

/-- `PacketBuffers`: there is room for four of them behind the first buffer. -/
structure PacketBuffers where
  buffers : List (List UInt8)
  count_le : buffers.length ≤ 4

namespace SocketWrites

def start (outbound : SOCKET → List WritevEvent) : SocketWrites :=
  ⟨.zero, fun _ => false, .zero, outbound, fun _ => []⟩

/-- `FD_SET` and `FD_CLR` on `pending_wset`. -/
def setPending (socket : SOCKET) (set : Bool) (writes : SocketWrites) : SocketWrites :=
  { writes with pendingWset := Function.update writes.pendingWset socket set }

end SocketWrites

namespace Socket

open LinkedList

def noPendingWrites (socket : SOCKET) (state : SocketWrites) : Bool × SocketWrites :=
  let found := state.writePending.findItem (hasKey id socket)
  (found.1.isNone, { state with writePending := found.2 })

/-- `Socket_writev`: the return code, the bytes written, and the state. -/
def writev (socket : SOCKET) (iovecs : List (List UInt8)) (state : SocketWrites) :
    Int × Nat × SocketWrites :=
  match state.outbound socket with
  | [] => (tcpsocketInterrupted, 0, state)
  | event :: rest =>
      let state := { state with outbound := Function.update state.outbound socket rest }
      match event with
      | .wouldBlock => (tcpsocketInterrupted, 0, state)
      | .failed => (socketError, 0, state)
      | .accept count =>
          let bytes := min count (min iovecs.flatten.length maxRwCount)
          (bytes, bytes,
            { state with
              accepted := Function.update state.accepted socket
                (state.accepted socket ++ iovecs.flatten.take bytes) })

def putdatas (socket : SOCKET) (buf0 : List UInt8) (bufs : PacketBuffers)
    (state : SocketWrites) : Int × SocketWrites :=
  let (noPending, state) := noPendingWrites socket state
  if !noPending then (socketError, state)
  else
    let iovecs := buf0 :: bufs.buffers
    let total := (iovecs.map List.length).sum
    let (rc, bytes, state) := writev socket iovecs state
    if rc ≠ socketError then
      if bytes = total then (tcpsocketComplete, state)
      else
        let writes := SocketBuffer.pendingWrite socket iovecs total bytes state.writes
        let state :=
          { state with writes := writes, writePending := state.writePending.append socket }
        (tcpsocketInterrupted, state.setPending socket true)
    else (rc, state)

def Accepts (socket : SOCKET) (length : Nat) (state : SocketWrites) : Prop :=
  ∃ count rest, state.outbound socket = .accept count :: rest ∧ length ≤ min count maxRwCount

def Idle (socket : SOCKET) (state : SocketWrites) : Prop := (noPendingWrites socket state).1 = true

instance (socket : SOCKET) (state : SocketWrites) : Decidable (Idle socket state) :=
  inferInstanceAs (Decidable (_ = true))

theorem writev_of_accepts {socket : SOCKET} {iovecs : List (List UInt8)} {state : SocketWrites}
    (accepts : Accepts socket iovecs.flatten.length state) :
    ∃ rc after, writev socket iovecs state = (rc, iovecs.flatten.length, after) ∧
      rc ≠ socketError ∧
      after.accepted = Function.update state.accepted socket
        (state.accepted socket ++ iovecs.flatten) := by
  rcases accepts with ⟨count, rest, next, enough⟩
  have whole : min count (min iovecs.flatten.length maxRwCount) = iovecs.flatten.length := by
    omega
  unfold writev
  rw [next]
  dsimp only
  rw [whole, List.take_length]
  refine ⟨iovecs.flatten.length, _, rfl, ?_, rfl⟩
  unfold socketError
  omega

theorem accepts_of_writev {socket : SOCKET} {iovecs : List (List UInt8)} {state : SocketWrites}
    (nonempty : 0 < iovecs.flatten.length)
    (whole : (writev socket iovecs state).2.1 = iovecs.flatten.length) :
    Accepts socket iovecs.flatten.length state := by
  unfold writev at whole
  split at whole
  · exact absurd whole (by dsimp only; omega)
  · rename_i event rest next
    cases event with
    | wouldBlock => exact absurd whole (by dsimp only; omega)
    | failed => exact absurd whole (by dsimp only; omega)
    | accept count =>
        dsimp only at whole
        exact ⟨count, rest, next, by omega⟩

theorem putdatas_of_accepts {socket : SOCKET} {buf0 : List UInt8} {bufs : PacketBuffers}
    {state : SocketWrites} (idle : Idle socket state)
    (accepts : Accepts socket (buf0 :: bufs.buffers).flatten.length state) :
    ∃ after, putdatas socket buf0 bufs state = (tcpsocketComplete, after) ∧
      after.accepted = Function.update state.accepted socket
        (state.accepted socket ++ (buf0 :: bufs.buffers).flatten) := by
  have offered : Accepts socket (buf0 :: bufs.buffers).flatten.length
      (noPendingWrites socket state).2 := accepts
  rcases writev_of_accepts offered with ⟨rc, after, wrote, success, accepted⟩
  refine ⟨after, ?_, accepted⟩
  unfold Idle at idle
  rw [putdatas]
  dsimp only
  rw [idle, Bool.not_true, if_neg Bool.false_ne_true, wrote]
  dsimp only
  rw [if_pos success, List.length_flatten, if_pos rfl]

theorem noPendingWrites_of_idle {socket : SOCKET} {state : SocketWrites}
    (idle : Idle socket state) : noPendingWrites socket state = (true, state) := by
  have none : (state.writePending.findItem (hasKey id socket)).1 = none :=
    Option.isNone_iff_eq_none.mp idle
  unfold noPendingWrites
  dsimp only
  rw [none, findItem_snd_of_none none]
  rfl

theorem putdatas_whole {socket : SOCKET} {buf0 : List UInt8} {bufs : PacketBuffers}
    {state : SocketWrites} {count : Nat} {rest : List WritevEvent} (idle : Idle socket state)
    (next : state.outbound socket = .accept count :: rest)
    (enough : (buf0 :: bufs.buffers).flatten.length ≤ min count maxRwCount) :
    putdatas socket buf0 bufs state = (tcpsocketComplete,
      { state with
        outbound := Function.update state.outbound socket rest
        accepted := Function.update state.accepted socket
          (state.accepted socket ++ (buf0 :: bufs.buffers).flatten) }) := by
  have whole : min count (min (buf0 :: bufs.buffers).flatten.length maxRwCount) =
      (buf0 :: bufs.buffers).flatten.length := by
    omega
  have success : Int.ofNat (buf0 :: bufs.buffers).flatten.length ≠ socketError :=
    Int.noConfusion
  have wrote : writev socket (buf0 :: bufs.buffers) state =
      (Int.ofNat (buf0 :: bufs.buffers).flatten.length, (buf0 :: bufs.buffers).flatten.length,
        { state with
          outbound := Function.update state.outbound socket rest
          accepted := Function.update state.accepted socket
            (state.accepted socket ++ (buf0 :: bufs.buffers).flatten) }) := by
    rw [writev, next]
    dsimp only
    rw [whole, List.take_length]
    rfl
  rw [putdatas, noPendingWrites_of_idle idle]
  dsimp only
  rw [Bool.not_true, if_neg Bool.false_ne_true, wrote]
  dsimp only
  rw [if_pos success, List.length_flatten, if_pos rfl]

theorem accepts_of_putdatas {socket : SOCKET} {buf0 : List UInt8} {bufs : PacketBuffers}
    {state : SocketWrites} (nonempty : buf0 ≠ [])
    (complete : (putdatas socket buf0 bufs state).1 = tcpsocketComplete) :
    Idle socket state ∧ Accepts socket (buf0 :: bufs.buffers).flatten.length state := by
  rw [putdatas] at complete
  dsimp only at complete
  by_cases idle : (noPendingWrites socket state).1 = true
  · refine ⟨idle, ?_⟩
    rw [idle, Bool.not_true, if_neg Bool.false_ne_true, ← List.length_flatten] at complete
    have positive : 0 < (buf0 :: bufs.buffers).flatten.length := by
      rw [List.flatten_cons, List.length_append]
      have := List.length_pos_of_ne_nil nonempty
      omega
    split at complete
    · split at complete
      · rename_i whole
        have accepts : Accepts socket _ (noPendingWrites socket state).2 :=
          accepts_of_writev positive whole
        exact accepts
      · change tcpsocketInterrupted = tcpsocketComplete at complete
        exact absurd complete (by decide)
    · rename_i failed
      rw [complete] at failed
      exact absurd failed (by decide)
  · rw [Bool.not_eq_true] at idle
    rw [idle] at complete
    change socketError = tcpsocketComplete at complete
    exact absurd complete (by decide)

/-- The part of the buffers behind the first `bytes` bytes, from a buffer on in front
of which there are `curbuflen` bytes. -/
def remainingIovecs (bytes : Nat) : (curbuflen : Nat) → List (List UInt8) →
    List (List UInt8)
  | _, [] => []
  | curbuflen, iovec :: iovecs =>
      let rest := remainingIovecs bytes (curbuflen + iovec.length) iovecs
      if bytes ≤ curbuflen then iovec :: rest
      else if bytes < curbuflen + iovec.length then iovec.drop (bytes - curbuflen) :: rest
      else rest

/-- `Socket_continueWrite`: 0 for incomplete, 1 for complete, -1 for a socket error.
Without a pending write it dereferences NULL. -/
def continueWrite (socket : SOCKET) (state : SocketWrites) : Option (Int × SocketWrites) :=
  match SocketBuffer.getWrite socket state.writes with
  | (none, _) => none
  | (some element, writes) =>
      let pw := element.value
      let (rc, bytes, state) :=
        writev socket (remainingIovecs pw.bytes 0 pw.iovecs) { state with writes := writes }
      if rc ≠ socketError then
        let state :=
          { state with writes := state.writes.update element.content (.addBytes bytes) }
        some (if pw.bytes + bytes = pw.total then 1 else 0, state)
      else some (rc, state)

/-- The elements from `current` on. -/
def fromCurrent (list : LinkedList SOCKET) : List (ListElement SOCKET) :=
  match list.current with
  | none => []
  | some content => list.elements.dropWhile fun element => element.content != content

theorem writePending_writev (socket : SOCKET) (iovecs : List (List UInt8))
    (state : SocketWrites) : (writev socket iovecs state).2.2.writePending =
      state.writePending := by
  unfold writev
  split
  · rfl
  · dsimp only
    split <;> rfl

theorem writePending_continueWrite {socket : SOCKET} {state after : SocketWrites} {rc : Int}
    (continued : continueWrite socket state = some (rc, after)) :
    after.writePending = state.writePending := by
  unfold continueWrite at continued
  split at continued
  · cases continued
  · rename_i element writes search
    have kept := writePending_writev socket
      (remainingIovecs element.value.bytes 0 element.value.iovecs) { state with writes := writes }
    dsimp only at continued kept
    split at continued
    all_goals
      cases continued
      exact kept

theorem length_fromCurrent_le (list : LinkedList SOCKET) :
    (fromCurrent list).length ≤ list.elements.length := by
  unfold fromCurrent
  split
  · exact Nat.zero_le _
  · exact (List.dropWhile_sublist _).length_le

/-- The loop of `Socket_continueWrites`, with the elements from `curpending` on. After
a removal it goes on at the list's cached `current`. -/
def continueWritesLoop (pwset : SOCKET → Bool) (rc1 : Int) (sock : SOCKET)
    (curpending : List (ListElement SOCKET)) (state : SocketWrites) :
    Option (Int × SOCKET × SocketWrites) :=
  match curpending with
  | [] => some (rc1, sock, state)
  | element :: later =>
      let socket := element.value
      if pwset socket then
        match _continued : continueWrite socket state with
        | none => none
        | some (rc, state') =>
            if rc ≠ 0 then
              let writes := (SocketBuffer.writeComplete socket state'.writes).2
              match _removed : state'.writePending.remove element.content with
              | (none, _) => none
              | (some _, writePending) =>
                  let report := if rc = socketError then (socketError, socket) else (rc1, sock)
                  continueWritesLoop pwset report.1 report.2 (fromCurrent writePending)
                    ({ state' with writes := writes, writePending := writePending }.setPending
                      socket false)
            else continueWritesLoop pwset rc1 sock later state'
      else continueWritesLoop pwset rc1 sock later state
termination_by state.writePending.elements.length * state.writePending.elements.length +
  curpending.length
decreasing_by
  · have shorter := LinkedList.length_remove _removed
    rw [writePending_continueWrite _continued] at shorter
    have rest := length_fromCurrent_le writePending
    -- a list that is shorter by one makes up for starting over
    have square := Nat.mul_le_mul (Nat.succ_le_of_lt shorter) (Nat.succ_le_of_lt shorter)
    rw [Nat.succ_mul, Nat.mul_succ] at square
    change writePending.elements.length * writePending.elements.length +
      (fromCurrent writePending).length < _
    rw [List.length_cons]
    omega
  · rw [writePending_continueWrite _continued]
    exact Nat.lt_succ_self _
  · exact Nat.lt_succ_self _

/-- `Socket_continueWrites`, for the sockets that `select` found writable. -/
def continueWrites (pwset : SOCKET → Bool) (sock : SOCKET) (state : SocketWrites) :
    Option (Int × SOCKET × SocketWrites) :=
  continueWritesLoop pwset 0 sock state.writePending.elements state

end Socket

end MqttClient
