import MqttClient.Foundation.SendStream
import MqttClient.Socket.Writes

/-! # `Socket`: the bytes on the wire

`Socket_putdatas` and `Socket_continueWrites` put whole packets on every socket, in
the order of the calls, however the socket accepts them: they refine the sender of
packets on a stream.
-/

namespace MqttClient

open Foundation LinkedList

namespace SocketWrites

def pending (state : SocketWrites) (socket : SOCKET) : Option PendingWrites :=
  state.writes.lookup PendingWrites.socket socket

def pendingPacket (state : SocketWrites) (socket : SOCKET) : Option (PartialPacket UInt8) :=
  (state.pending socket).map fun write => ⟨write.packet, write.bytes⟩

/-- The two lists of pending writes agree, have at most one entry for a socket, and
every write lacks some of its bytes. -/
structure Consistent (state : SocketWrites) : Prop where
  pendingDistinct : state.writePending.Distinct id
  writesDistinct : state.writes.Distinct PendingWrites.socket
  agree : ∀ socket, state.writePending.lookup id socket = none ↔ state.pending socket = none
  measured : ∀ socket write, state.pending socket = some write →
    write.total = write.packet.length ∧ write.bytes < write.total

def Sends (state : SocketWrites) (taken : SOCKET → List (List UInt8)) : Prop :=
  ∀ socket, SendsAs (state.accepted socket) (state.pendingPacket socket) (taken socket)

/-- No `writev` will fail, other than because it would have to wait. -/
def Healthy (state : SocketWrites) : Prop := ∀ socket, .failed ∉ state.outbound socket

theorem Consistent.start (outbound : SOCKET → List WritevEvent) :
    (start outbound).Consistent where
  pendingDistinct := .zero
  writesDistinct := .zero
  agree _ := ⟨fun _ => rfl, fun _ => rfl⟩
  measured _ _ found := by cases found

theorem Consistent.of_lists {before after : SocketWrites} (consistent : before.Consistent)
    (samePending : after.writePending = before.writePending)
    (sameWrites : after.writes = before.writes) : after.Consistent := by
  have pending : after.pending = before.pending := by
    funext socket
    rw [pending, sameWrites]
    rfl
  refine ⟨samePending ▸ consistent.pendingDistinct, sameWrites ▸ consistent.writesDistinct,
    fun socket => ?_, fun socket => ?_⟩
  · rw [samePending, pending]
    exact consistent.agree socket
  · rw [pending]
    exact consistent.measured socket

theorem Sends.start (outbound : SOCKET → List WritevEvent) :
    (start outbound).Sends fun _ => [] :=
  fun _ => .start

theorem Healthy.of_suffix {before after : SocketWrites} (healthy : before.Healthy)
    (suffixes : ∀ socket, after.outbound socket <:+ before.outbound socket) : after.Healthy :=
  fun socket member => healthy socket ((suffixes socket).subset member)

end SocketWrites

namespace Socket

variable {state after : SocketWrites} {socket : SOCKET}

theorem flatten_remainingIovecs (bytes curbuflen : Nat) (iovecs : List (List UInt8)) :
    (remainingIovecs bytes curbuflen iovecs).flatten =
      iovecs.flatten.drop (bytes - curbuflen) := by
  induction iovecs generalizing curbuflen with
  | nil => simp [remainingIovecs]
  | cons iovec iovecs induction =>
      rw [remainingIovecs, List.flatten_cons, List.drop_append]
      have behind : bytes - curbuflen - iovec.length = bytes - (curbuflen + iovec.length) := by
        omega
      rw [behind, ← induction]
      split
      · rename_i none
        rw [Nat.sub_eq_zero_of_le none, List.drop_zero, List.flatten_cons]
      · split
        · rw [List.flatten_cons]
        · rw [List.drop_eq_nil_of_le (by omega), List.nil_append]

theorem writev_spec (socket : SOCKET) (iovecs : List (List UInt8)) (state : SocketWrites) :
    ∃ rc bytes outbound, writev socket iovecs state = (rc, bytes,
        { state with
          outbound := outbound
          accepted := Function.update state.accepted socket
            (state.accepted socket ++ iovecs.flatten.take bytes) }) ∧
      bytes ≤ iovecs.flatten.length ∧ (∀ other, outbound other <:+ state.outbound other) ∧
      (rc = socketError → bytes = 0 ∧ .failed ∈ state.outbound socket) := by
  have unchanged : Function.update state.accepted socket (state.accepted socket ++
      iovecs.flatten.take 0) = state.accepted := by
    rw [List.take_zero, List.append_nil, Function.update_eq_self]
  have suffixes {event : WritevEvent} {rest : List WritevEvent}
      (next : state.outbound socket = event :: rest) :
      ∀ other, Function.update state.outbound socket rest other <:+ state.outbound other := by
    intro other
    by_cases same : other = socket
    · subst other
      rw [Function.update_self, next]
      exact List.suffix_cons _ _
    · have kept : Function.update state.outbound socket rest other = state.outbound other :=
        Function.update_of_ne same ..
      exact kept.symm ▸ List.suffix_refl _
  unfold writev
  split
  · refine ⟨_, 0, state.outbound, by rw [unchanged], Nat.zero_le _, fun _ => List.suffix_refl _,
      by simp⟩
  · rename_i event rest next
    cases event with
    | wouldBlock =>
        exact ⟨_, 0, _, by rw [unchanged], Nat.zero_le _, suffixes next, by simp⟩
    | failed =>
        exact ⟨_, 0, _, by rw [unchanged], Nat.zero_le _, suffixes next,
          fun _ => ⟨rfl, by simp [next]⟩⟩
    | accept count =>
        refine ⟨_, _, _, rfl, ?_, suffixes next, ?_⟩
        · omega
        · intro error
          have positive := Int.natCast_nonneg (min count (min iovecs.flatten.length maxRwCount))
          rw [error] at positive
          exact absurd positive (by decide)

theorem noPendingWrites_spec (consistent : state.Consistent) (socket : SOCKET) :
    ∃ writePending, noPendingWrites socket state =
        ((state.pending socket).isNone, { state with writePending := writePending }) ∧
      SocketWrites.Consistent { state with writePending := writePending } := by
  refine ⟨(state.writePending.findItem (hasKey id socket)).2, ?_,
    ⟨consistent.pendingDistinct.findItem _, consistent.writesDistinct, ?_, consistent.measured⟩⟩
  · rw [noPendingWrites]
    congr 1
    rw [Bool.eq_iff_iff, Option.isNone_iff_eq_none, Option.isNone_iff_eq_none,
      findItem_hasKey_eq_none_iff]
    exact consistent.agree socket
  · intro other
    rw [lookup_findItem]
    exact consistent.agree other

/-- What `Socket_putdatas` does: it refuses or fails and leaves the stream alone, or
the kernel accepts a front of the packet, and the packet is registered as pending
unless that front is all of it. -/
inductive Putdatas (socket : SOCKET) (iovecs : List (List UInt8)) (before : SocketWrites) :
    Int × SocketWrites → Prop
  | unwritten {after : SocketWrites} (accepted : after.accepted = before.accepted)
      (pending : after.pending = before.pending) :
      Putdatas socket iovecs before (socketError, after)
  | written {rc : Int} {bytes : Nat} {after : SocketWrites} (idle : before.pending socket = none)
      (front : bytes ≤ iovecs.flatten.length)
      (accepted : after.accepted = Function.update before.accepted socket
        (before.accepted socket ++ iovecs.flatten.take bytes))
      (pending : after.pending = Function.update before.pending socket
        (if bytes = iovecs.flatten.length then none
          else some ⟨socket, iovecs.flatten.length, bytes, iovecs⟩))
      (code : rc = if bytes = iovecs.flatten.length then tcpsocketComplete
        else tcpsocketInterrupted) :
      Putdatas socket iovecs before (rc, after)

theorem register_pending (consistent : state.Consistent) (idle : state.pending socket = none)
    (write : PendingWrites) (owner : write.socket = socket)
    (measured : write.total = write.packet.length ∧ write.bytes < write.total) :
    let after := { state with
      writes := state.writes.append write
      writePending := state.writePending.append socket }
    SocketWrites.Consistent after ∧
      after.pending = Function.update state.pending socket (some write) := by
  intro after
  have pending : after.pending = Function.update state.pending socket (some write) := by
    funext other
    change (state.writes.append write).lookup PendingWrites.socket other = _
    rw [lookup_append]
    by_cases same : other = socket
    · subst other
      have none : state.writes.lookup PendingWrites.socket socket = none := idle
      rw [Function.update_self, none, if_pos owner, Option.none_or]
    · rw [Function.update_of_ne same, if_neg fun equal => same (equal.symm.trans owner),
        Option.or_none]
      rfl
  refine ⟨⟨?_, ?_, ?_, ?_⟩, pending⟩
  · exact consistent.pendingDistinct.append ((consistent.agree socket).mpr idle)
  · exact consistent.writesDistinct.append (by rw [owner]; exact idle)
  · intro other
    rw [pending]
    change (state.writePending.append socket).lookup id other = none ↔ _
    rw [lookup_append]
    by_cases same : other = socket
    · subst other
      simp
    · rw [Function.update_of_ne same, if_neg (by simpa using fun equal => same equal.symm),
        Option.or_none]
      exact consistent.agree other
  · intro other found present
    rw [pending] at present
    by_cases same : other = socket
    · subst other
      rw [Function.update_self] at present
      cases present
      exact measured
    · rw [Function.update_of_ne same] at present
      exact consistent.measured other found present

theorem putdatas_spec (consistent : state.Consistent) (socket : SOCKET) (buf0 : List UInt8)
    (bufs : PacketBuffers) :
    Putdatas socket (buf0 :: bufs.buffers) state (putdatas socket buf0 bufs state) ∧
      (putdatas socket buf0 bufs state).2.Consistent ∧
      ∀ other, (putdatas socket buf0 bufs state).2.outbound other <:+ state.outbound other := by
  rcases noPendingWrites_spec consistent socket with ⟨writePending, asked, searched⟩
  rw [putdatas, asked]
  dsimp only
  cases idle : state.pending socket with
  | some write =>
      exact ⟨.unwritten rfl rfl, searched, fun _ => List.suffix_refl _⟩
  | none =>
      rcases writev_spec socket (buf0 :: bufs.buffers) { state with writePending := writePending }
        with ⟨rc, bytes, outbound, wrote, front, suffixes, failed⟩
      simp only [wrote, Option.isNone_none, Bool.not_true, Bool.false_eq_true, if_false]
      have total : ((buf0 :: bufs.buffers).map List.length).sum =
          (buf0 :: bufs.buffers).flatten.length := by
        rw [List.length_flatten]
      rw [total]
      by_cases error : rc = socketError
      · rw [if_neg (by simp [error]), error]
        refine ⟨.unwritten ?_ rfl, searched.of_lists rfl rfl, suffixes⟩
        rw [(failed error).1]
        simp
      · rw [if_pos error]
        by_cases whole : bytes = (buf0 :: bufs.buffers).flatten.length
        · rw [if_pos whole]
          refine ⟨.written idle front rfl ?_ (if_pos whole).symm,
            searched.of_lists rfl rfl, suffixes⟩
          rw [if_pos whole, ← idle, Function.update_eq_self]
          rfl
        · rw [if_neg whole]
          let written : SocketWrites := { state with
            writePending := writePending
            outbound := outbound
            accepted := Function.update state.accepted socket
              (state.accepted socket ++ (buf0 :: bufs.buffers).flatten.take bytes) }
          have consistent : written.Consistent := searched.of_lists rfl rfl
          have registered := register_pending consistent idle
            ⟨socket, (buf0 :: bufs.buffers).flatten.length, bytes, buf0 :: bufs.buffers⟩ rfl
            ⟨rfl, by
              change bytes < (buf0 :: bufs.buffers).flatten.length
              omega⟩
          refine ⟨.written idle front rfl ?_ (if_neg whole).symm, ?_, suffixes⟩
          · rw [if_neg whole]
            exact registered.2
          · exact registered.1.of_lists rfl rfl

/-! ## `Socket_continueWrites` -/

/-- What `Socket_continueWrite` does on a pending write: the kernel accepts some of
what is left of it, and an error means none. -/
structure Continued (socket : SOCKET) (pw : PendingWrites) (before : SocketWrites) (rc : Int)
    (bytes : Nat) (after : SocketWrites) : Prop where
  writePending : after.writePending = before.writePending
  distinct : after.writes.Distinct PendingWrites.socket
  pending : after.pending = Function.update before.pending socket (some (pw.addBytes bytes))
  accepted : after.accepted = Function.update before.accepted socket
    (before.accepted socket ++ (pw.packet.drop pw.bytes).take bytes)
  bounded : bytes ≤ pw.packet.length - pw.bytes
  outbound : ∀ other, after.outbound other <:+ before.outbound other
  error : rc = socketError → bytes = 0 ∧ .failed ∈ before.outbound socket
  code : rc ≠ socketError → rc = if pw.bytes + bytes = pw.total then 1 else 0

theorem continueWrite_spec (consistent : state.Consistent) {pw : PendingWrites}
    (found : state.pending socket = some pw) :
    ∃ rc bytes after, continueWrite socket state = some (rc, after) ∧
      Continued socket pw state rc bytes after := by
  rcases consistent.writesDistinct.findItem_of_lookup found with
    ⟨element, writes, search, value, member, distinct, lookups⟩
  subst value
  have owner : element.value.socket = socket :=
    (consistent.writesDistinct.lookup_eq_some_iff.mp found).2
  rcases writev_spec socket (remainingIovecs element.value.bytes 0 element.value.iovecs)
    { state with writes := writes } with ⟨rc, bytes, outbound, wrote, front, suffixes, failed⟩
  rw [flatten_remainingIovecs, Nat.sub_zero] at wrote front
  rw [continueWrite, SocketBuffer.getWrite, search]
  simp only [wrote]
  have bounded : bytes ≤ element.value.packet.length - element.value.bytes := by
    rwa [List.length_drop] at front
  by_cases error : rc = socketError
  · rw [if_neg (by simp [error])]
    refine ⟨rc, bytes, _, rfl, ⟨rfl, distinct, ?_, rfl, bounded, suffixes, failed,
      fun different => (different error).elim⟩⟩
    have none : element.value.addBytes bytes = element.value := by
      rw [(failed error).1]
      rfl
    rw [none, ← found, Function.update_eq_self]
    funext other
    exact lookups other
  · rw [if_pos error]
    have keeps (write : PendingWrites) : (write.addBytes bytes).socket = write.socket := rfl
    refine ⟨_, bytes, _, rfl, ⟨rfl, distinct.update _ keeps, ?_, rfl, bounded, suffixes,
      fun wrong => ?_, fun _ => rfl⟩⟩
    · funext other
      by_cases same : other = socket
      · subst other
        rw [Function.update_self, ← owner]
        exact distinct.lookup_update member keeps
      · rw [Function.update_of_ne same]
        exact (distinct.lookup_update_of_ne member keeps (by rwa [owner])).trans (lookups other)
    · split at wrong
      · exact absurd wrong (by decide)
      · exact absurd wrong (by decide)

theorem exists_pending (consistent : state.Consistent) {element : ListElement SOCKET}
    (member : element ∈ state.writePending.elements) :
    ∃ pw, state.pending element.value = some pw := by
  cases found : state.pending element.value with
  | some pw => exact ⟨pw, rfl⟩
  | none =>
      have absent := (consistent.agree element.value).mpr found
      exact (lookup_eq_none_iff.mp absent element.value (List.mem_map_of_mem member) rfl).elim

theorem Continued.code_of_healthy {pw : PendingWrites} {rc : Int} {bytes : Nat}
    (continued : Continued socket pw state rc bytes after) (healthy : state.Healthy) :
    rc = if pw.bytes + bytes = pw.total then 1 else 0 :=
  continued.code fun error => healthy socket (continued.error error).2

theorem Continued.consistent {pw : PendingWrites} {rc : Int} {bytes : Nat}
    (continued : Continued socket pw state rc bytes after) (consistent : state.Consistent)
    (found : state.pending socket = some pw) (incomplete : pw.bytes + bytes ≠ pw.total) :
    after.Consistent where
  pendingDistinct := continued.writePending ▸ consistent.pendingDistinct
  writesDistinct := continued.distinct
  agree other := by
    rw [continued.writePending, continued.pending, consistent.agree]
    by_cases same : other = socket
    · subst other
      simp [found]
    · rw [Function.update_of_ne same]
  measured other write present := by
    have measured := consistent.measured socket pw found
    have bounded := continued.bounded
    rw [continued.pending] at present
    by_cases same : other = socket
    · subst other
      rw [Function.update_self] at present
      cases present
      refine ⟨measured.1, ?_⟩
      change pw.bytes + bytes < pw.total
      omega
    · rw [Function.update_of_ne same] at present
      exact consistent.measured other write present

def removePending (socket : SOCKET) (writePending : LinkedList SOCKET)
    (state : SocketWrites) : SocketWrites :=
  { state with
    writes := (SocketBuffer.writeComplete socket state.writes).2
    writePending := writePending }.setPending socket false

theorem Continued.removePending {pw : PendingWrites} {rc : Int} {bytes : Nat}
    (continued : Continued socket pw state rc bytes after) (consistent : state.Consistent)
    {element : ListElement SOCKET} (member : element ∈ state.writePending.elements)
    (owner : element.value = socket) :
    ∃ writePending, after.writePending.remove element.content = (some element, writePending) ∧
      (removePending socket writePending after).Consistent ∧
      (Socket.removePending socket writePending after).pending =
        Function.update state.pending socket none := by
  rw [continued.writePending]
  refine ⟨state.writePending.detachElement element, remove_of_mem member, ?_⟩
  rcases continued.distinct.unlink_hasKey socket with ⟨distinct, absent, others⟩
  have pending : (Socket.removePending socket (state.writePending.detachElement element)
      after).pending = Function.update state.pending socket none := by
    funext other
    by_cases same : other = socket
    · subst other
      rw [Function.update_self]
      exact absent
    · rw [Function.update_of_ne same]
      have kept := congrFun continued.pending other
      rw [Function.update_of_ne same] at kept
      exact (others other same).trans kept
  subst owner
  refine ⟨⟨consistent.pendingDistinct.detachElement element, distinct, ?_, ?_⟩, pending⟩
  · intro other
    rw [pending]
    by_cases same : other = element.value
    · subst other
      rw [Function.update_self]
      exact iff_of_true (consistent.pendingDistinct.lookup_detachElement member) rfl
    · rw [Function.update_of_ne same, ← consistent.agree]
      exact Eq.congr_left (consistent.pendingDistinct.lookup_detachElement_of_ne member same)
  · intro other write present
    rw [pending] at present
    by_cases same : other = element.value
    · subst other
      rw [Function.update_self] at present
      cases present
    · rw [Function.update_of_ne same] at present
      exact consistent.measured other write present

theorem Continued.sends {pw : PendingWrites} {rc : Int} {bytes : Nat} {final : SocketWrites}
    {taken : SOCKET → List (List UInt8)}
    (continued : Continued socket pw state rc bytes after) (consistent : state.Consistent)
    (found : state.pending socket = some pw) (sends : state.Sends taken)
    (accepted : final.accepted = after.accepted)
    (pending : final.pending = Function.update state.pending socket
      (if pw.bytes + bytes = pw.total then none else some (pw.addBytes bytes))) :
    final.Sends taken := by
  have measured := consistent.measured socket pw found
  intro other
  rw [accepted, continued.accepted, SocketWrites.pendingPacket, pending]
  by_cases same : other = socket
  · subst other
    have here := sends socket
    rw [SocketWrites.pendingPacket, found] at here
    have resumed := SendsAs.resume here bytes
    rw [Function.update_self, Function.update_self]
    rw [SendsAs.remaining, ← measured.1] at resumed
    split
    · rename_i whole
      rwa [if_pos whole] at resumed
    · rename_i part
      rwa [if_neg part] at resumed
  · rw [Function.update_of_ne same, Function.update_of_ne same]
    exact sends other

theorem mem_of_fromCurrent {list : LinkedList SOCKET} {element : ListElement SOCKET}
    (member : element ∈ fromCurrent list) : element ∈ list.elements := by
  unfold fromCurrent at member
  split at member
  · cases member
  · exact (List.dropWhile_sublist _).subset member

theorem exists_continued (consistent : state.Consistent) {element : ListElement SOCKET} {rc : Int}
    (member : element ∈ state.writePending.elements)
    (called : continueWrite element.value state = some (rc, after)) :
    ∃ pw bytes, state.pending element.value = some pw ∧
      Continued element.value pw state rc bytes after := by
  rcases exists_pending consistent member with ⟨pw, found⟩
  rcases continueWrite_spec consistent found with ⟨rc, bytes, after, spec, continued⟩
  rw [spec] at called
  cases called
  exact ⟨pw, bytes, found, continued⟩

/-- The rule for a pass over the pending writes: it keeps what holds behind a write that
stays pending and behind one that is removed, and it never meets a write without its
record. -/
theorem continueWritesLoop_invariant (Invariant : SocketWrites → Prop)
    (stays : ∀ {socket : SOCKET} {pw : PendingWrites} {before after : SocketWrites} {bytes : Nat},
      before.Consistent → Invariant before → before.pending socket = some pw →
      continueWrite socket before = some (0, after) → Continued socket pw before 0 bytes after →
      pw.bytes + bytes ≠ pw.total → Invariant after)
    (leaves : ∀ {socket : SOCKET} {pw : PendingWrites} {before after : SocketWrites} {bytes : Nat}
      {rc : Int} {writePending : LinkedList SOCKET},
      before.Consistent → Invariant before → before.pending socket = some pw →
      continueWrite socket before = some (rc, after) → Continued socket pw before rc bytes after →
      rc ≠ 0 → (removePending socket writePending after).pending =
        Function.update before.pending socket none →
      Invariant (removePending socket writePending after))
    (pwset : SOCKET → Bool) (rc1 : Int) (sock : SOCKET) (curpending : List (ListElement SOCKET))
    (state : SocketWrites) (consistent : state.Consistent) (initial : Invariant state)
    (members : ∀ element ∈ curpending, element ∈ state.writePending.elements) :
    ∃ rc reported after,
      continueWritesLoop pwset rc1 sock curpending state = some (rc, reported, after) ∧
      after.Consistent ∧ Invariant after := by
  fun_induction continueWritesLoop pwset rc1 sock curpending state with
  | case1 rc1 sock state => exact ⟨rc1, sock, state, rfl, consistent, initial⟩
  | case2 rc1 sock state element later socket writable called =>
      -- NULL is never dereferenced: the socket has a pending write
      rcases exists_pending consistent (members element (List.mem_cons_self ..)) with ⟨pw, found⟩
      rcases continueWrite_spec consistent found with ⟨rc, bytes, after, spec, _⟩
      rw [spec] at called
      cases called
  | case3 rc1 sock state element later socket writable rc after called finished _ removed =>
      have member := members element (List.mem_cons_self ..)
      rcases exists_continued consistent member called with ⟨pw, bytes, _, continued⟩
      rcases continued.removePending consistent member rfl with ⟨_, removal, _⟩
      rw [removal] at removed
      cases removed
  | case4 rc1 sock state element later socket writable rc after called finished writes _
      writePending removed report induction =>
      have member := members element (List.mem_cons_self ..)
      rcases exists_continued consistent member called with ⟨pw, bytes, found, continued⟩
      rcases continued.removePending consistent member rfl with
        ⟨_, removal, consistentAfter, pending⟩
      rw [removal] at removed
      cases removed
      exact induction consistentAfter
        (leaves consistent initial found called continued finished pending)
        fun other present => mem_of_fromCurrent present
  | case5 rc1 sock state element later socket writable rc after called unfinished induction =>
      rcases exists_continued consistent (members element (List.mem_cons_self ..)) called with
        ⟨pw, bytes, found, continued⟩
      rw [ne_eq, Decidable.not_not] at unfinished
      subst unfinished
      have part : pw.bytes + bytes ≠ pw.total := by
        intro whole
        have code := continued.code (by decide)
        rw [if_pos whole] at code
        exact absurd code (by decide)
      refine induction (continued.consistent consistent found part)
        (stays consistent initial found called continued part) fun other present => ?_
      rw [continued.writePending]
      exact members other (List.mem_cons_of_mem _ present)
  | case6 rc1 sock state element later socket _ induction =>
      exact induction consistent initial
        fun other present => members other (List.mem_cons_of_mem _ present)

theorem continueWritesLoop_spec (pwset : SOCKET → Bool) (rc1 : Int) (sock : SOCKET)
    (curpending : List (ListElement SOCKET)) (state : SocketWrites)
    {taken : SOCKET → List (List UInt8)} (consistent : state.Consistent)
    (healthy : state.Healthy) (sends : state.Sends taken)
    (members : ∀ element ∈ curpending, element ∈ state.writePending.elements) :
    ∃ rc reported after,
      continueWritesLoop pwset rc1 sock curpending state = some (rc, reported, after) ∧
      after.Consistent ∧ after.Healthy ∧ after.Sends taken := by
  refine continueWritesLoop_invariant
    (fun state => state.Healthy ∧ state.Sends taken) ?_ ?_ pwset rc1 sock curpending
    state consistent ⟨healthy, sends⟩ members
  · intro socket pw before after bytes consistent invariant found _ continued part
    refine ⟨invariant.1.of_suffix continued.outbound,
      continued.sends consistent found invariant.2 rfl ?_⟩
    rw [if_neg part]
    exact continued.pending
  · intro socket pw before after bytes rc writePending consistent invariant found _ continued
      finished pending
    have whole : pw.bytes + bytes = pw.total := by
      by_contra part
      have code := continued.code_of_healthy invariant.1
      rw [if_neg part] at code
      exact finished code
    refine ⟨invariant.1.of_suffix continued.outbound,
      continued.sends consistent found invariant.2 rfl ?_⟩
    rw [if_pos whole]
    exact pending

/-! ## Runs -/

/-- What a run does to the write side: offer a packet, or make a pass over the
pending writes with the sockets that `select` found writable. -/
inductive WriteAction
  | putdatas (socket : SOCKET) (buf0 : List UInt8) (bufs : PacketBuffers)
  | continueWrites (pwset : SOCKET → Bool) (sock : SOCKET)

/-- A call of `Socket_putdatas`: the socket, the packet, and the return code. -/
structure Offered where
  socket : SOCKET
  packet : List UInt8
  rc : Int
  deriving DecidableEq

/-- The calls of `Socket_putdatas` in a run, and the state that it reaches. -/
def runWrites : List WriteAction → SocketWrites → Option (List Offered × SocketWrites)
  | [], state => some ([], state)
  | .putdatas socket buf0 bufs :: actions, state =>
      let called := putdatas socket buf0 bufs state
      (runWrites actions called.2).map fun later =>
        (⟨socket, (buf0 :: bufs.buffers).flatten, called.1⟩ :: later.1, later.2)
  | .continueWrites pwset sock :: actions, state =>
      (continueWrites pwset sock state).bind fun called => runWrites actions called.2.2

/-- The packets that a socket took, in the order of the calls: those whose call
returned anything but `SOCKET_ERROR`. -/
def takenOn (socket : SOCKET) (offers : List Offered) : List (List UInt8) :=
  (offers.filter fun offer => offer.socket = socket ∧ offer.rc ≠ socketError).map
    Offered.packet

theorem putdatas_sends {taken : SOCKET → List (List UInt8)} (consistent : state.Consistent)
    (sends : state.Sends taken) (socket : SOCKET) (buf0 : List UInt8) (bufs : PacketBuffers) :
    let called := putdatas socket buf0 bufs state
    called.2.Sends fun other => taken other ++
      takenOn other [⟨socket, (buf0 :: bufs.buffers).flatten, called.1⟩] := by
  intro called other
  have spec := (putdatas_spec consistent socket buf0 bufs).1
  change Putdatas socket _ state called at spec
  generalize called = result at spec ⊢
  cases spec with
  | unwritten accepted pending =>
      have here := sends other
      rw [SocketWrites.pendingPacket] at here
      rw [accepted, SocketWrites.pendingPacket, pending]
      simpa [takenOn] using here
  | @written rc bytes after idle front accepted pending code =>
      have success : rc ≠ socketError := by
        rw [code]
        split <;> decide
      rw [accepted, SocketWrites.pendingPacket, pending]
      by_cases same : other = socket
      · subst other
        have here := sends socket
        rw [SocketWrites.pendingPacket, idle] at here
        have submitted := SendsAs.submit here (buf0 :: bufs.buffers).flatten bytes
        rw [Function.update_self, Function.update_self]
        simp only [takenOn, success, List.filter_cons, ne_eq, not_false_eq_true, and_self,
          decide_true, if_true, List.filter_nil, List.map_cons, List.map_nil]
        rw [SendsAs.remaining] at submitted
        split
        · rename_i whole
          rwa [if_pos whole] at submitted
        · rename_i part
          rwa [if_neg part] at submitted
      · have different : ¬socket = other := fun equal => same equal.symm
        have here := sends other
        rw [SocketWrites.pendingPacket] at here
        rw [Function.update_of_ne same, Function.update_of_ne same]
        simpa [takenOn, different] using here

theorem takenOn_append (socket : SOCKET) (first later : List Offered) :
    takenOn socket (first ++ later) = takenOn socket first ++ takenOn socket later := by
  simp [takenOn]

theorem runWrites_spec (actions : List WriteAction) {taken : SOCKET → List (List UInt8)}
    (consistent : state.Consistent) (healthy : state.Healthy) (sends : state.Sends taken) :
    ∃ offers after, runWrites actions state = some (offers, after) ∧ after.Consistent ∧
      after.Sends fun socket => taken socket ++ takenOn socket offers := by
  induction actions generalizing state taken with
  | nil =>
      refine ⟨[], state, rfl, consistent, fun socket => ?_⟩
      simpa [takenOn] using sends socket
  | cons action actions induction =>
      cases action with
      | putdatas socket buf0 bufs =>
          rcases putdatas_spec consistent socket buf0 bufs with ⟨_, next, suffixes⟩
          rcases induction next (healthy.of_suffix suffixes)
            (putdatas_sends consistent sends socket buf0 bufs) with
            ⟨offers, after, ran, final, sent⟩
          refine ⟨_, after, by rw [runWrites, ran]; rfl, final, fun other => ?_⟩
          have here := sent other
          dsimp only at here ⊢
          rwa [List.append_assoc, ← takenOn_append] at here
      | continueWrites pwset sock =>
          rcases continueWritesLoop_spec pwset 0 sock state.writePending.elements state
            consistent healthy sends fun _ member => member with
            ⟨rc, reported, next, called, nextConsistent, nextHealthy, nextSends⟩
          rcases induction nextConsistent nextHealthy nextSends with
            ⟨offers, after, ran, final, sent⟩
          refine ⟨offers, after, ?_, final, sent⟩
          rw [runWrites, continueWrites, called]
          exact ran

/-- Every run on sockets that do not fail is defined, and leaves on each socket the
packets that the socket took, whole and in order, except that of the packet still
pending the kernel has accepted just the first `bytes` bytes. -/
theorem accepted_eq_of_runWrites (actions : List WriteAction)
    {outbound : SOCKET → List WritevEvent}
    (healthy : ∀ socket, .failed ∉ outbound socket) :
    ∃ offers after, runWrites actions (.start outbound) = some (offers, after) ∧
      ∀ socket, match after.pending socket with
        | none => after.accepted socket = (takenOn socket offers).flatten
        | some pw => ∃ front, takenOn socket offers = front ++ [pw.packet] ∧
            after.accepted socket = front.flatten ++ pw.packet.take pw.bytes := by
  rcases runWrites_spec actions (.start outbound) healthy (.start outbound) with
    ⟨offers, after, ran, _, sends⟩
  refine ⟨offers, after, ran, fun socket => ?_⟩
  have here := sends socket
  dsimp only at here
  rw [SocketWrites.pendingPacket, List.nil_append] at here
  cases pending : after.pending socket with
  | none =>
      rw [pending] at here
      generalize after.accepted socket = accepted at here ⊢
      generalize takenOn socket offers = taken at here ⊢
      cases here
      rfl
  | some pw =>
      rw [pending] at here
      generalize after.accepted socket = accepted at here ⊢
      generalize takenOn socket offers = taken at here ⊢
      cases here with
      | busy => exact ⟨_, rfl, rfl⟩

/-- A packet of four buffers, one of them empty, that the socket accepts in three
pieces, with a packet in between that is refused. -/
theorem accepted_eq_of_runWrites_three :
    let outbound : SOCKET → List WritevEvent := fun socket =>
      if socket = 3 then [.accept 3, .accept 0, .wouldBlock, .accept 100] else []
    let actions : List WriteAction :=
      [.putdatas 3 [0x32, 5] ⟨[[0, 1], [], [97], [0, 9]], by decide⟩,
        .continueWrites (fun _ => true) 0, .putdatas 3 [0xc0] ⟨[[0]], by decide⟩,
        .continueWrites (fun _ => true) 0, .continueWrites (fun _ => true) 0]
    ∃ offers after, runWrites actions (.start outbound) = some (offers, after) ∧
      ∀ socket, match after.pending socket with
        | none => after.accepted socket = (takenOn socket offers).flatten
        | some pw => ∃ front, takenOn socket offers = front ++ [pw.packet] ∧
            after.accepted socket = front.flatten ++ pw.packet.take pw.bytes := by
  intro outbound actions
  refine accepted_eq_of_runWrites actions fun socket => ?_
  simp only [outbound]
  split <;> simp

end Socket

end MqttClient
