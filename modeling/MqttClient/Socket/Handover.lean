import MqttClient.Socket.Writes

/-! # `Socket`: what becomes of a packet

A packet that is handed to `Socket_putdatas` is on its way, or nothing of it is written.
-/

namespace MqttClient.Socket

open LinkedList

/-- The next `writev` on a socket fails. -/
def Fails (socket : SOCKET) (state : SocketWrites) : Prop :=
  (state.outbound socket).head? = some .failed

instance (socket : SOCKET) (state : SocketWrites) : Decidable (Fails socket state) :=
  inferInstanceAs (Decidable (_ = _))

def OnItsWay (socket : SOCKET) (packet : List UInt8) (before after : SocketWrites) : Prop :=
  (after.writes.values = before.writes.values ∧ after.accepted =
      Function.update before.accepted socket (before.accepted socket ++ packet)) ∨
    ∃ pw : PendingWrites, pw.socket = socket ∧ pw.packet = packet ∧
      after.writes.values = before.writes.values ++ [pw] ∧
      after.accepted = Function.update before.accepted socket
        (before.accepted socket ++ packet.take pw.bytes)

structure Unwritten (before after : SocketWrites) : Prop where
  writes : after.writes.values = before.writes.values
  accepted : after.accepted = before.accepted

section Outcome

variable {socket : SOCKET} {packet other : List UInt8} {before after state : SocketWrites}

theorem Unwritten.refl (state : SocketWrites) : Unwritten state state := ⟨rfl, rfl⟩

theorem Unwritten.not_onItsWay (unwritten : Unwritten before after) (nonempty : packet ≠ []) :
    ¬OnItsWay socket packet before after := by
  rintro (⟨_, written⟩ | ⟨pw, _, _, registered, _⟩)
  · have same := congrFun written socket
    rw [unwritten.accepted, Function.update_self, eq_comm, List.append_right_eq_self] at same
    exact nonempty same
  · rw [unwritten.writes, eq_comm, List.append_right_eq_self] at registered
    exact List.cons_ne_nil _ _ registered

theorem writev_outcome (socket : SOCKET) (iovecs : List (List UInt8)) (state : SocketWrites) :
    ∃ rc bytes after, writev socket iovecs state = (rc, bytes, after) ∧
      after.writes = state.writes ∧
      (rc = socketError ↔ Fails socket state) ∧
      after.accepted = Function.update state.accepted socket
        (state.accepted socket ++ iovecs.flatten.take bytes) ∧
      (rc = socketError → bytes = 0) := by
  have unchanged : state.accepted = Function.update state.accepted socket
      (state.accepted socket ++ iovecs.flatten.take 0) := by
    rw [List.take_zero, List.append_nil, Function.update_eq_self]
  unfold writev Fails
  split
  · rename_i none
    exact ⟨_, _, _, rfl, rfl, by simp [none], unchanged, by simp⟩
  · rename_i event rest next
    rw [next]
    cases event with
    | wouldBlock => exact ⟨_, _, _, rfl, rfl, by simp, unchanged, by simp⟩
    | failed => exact ⟨_, _, _, rfl, rfl, by simp, unchanged, fun _ => rfl⟩
    | accept count =>
        refine ⟨_, _, _, rfl, rfl, ⟨fun wrong => ?_, by simp⟩, rfl, fun wrong => ?_⟩
        all_goals
          have natural := Int.natCast_nonneg (min count (min iovecs.flatten.length maxRwCount))
          rw [wrong] at natural
          exact absurd natural (by decide)

theorem complete_ne_error : tcpsocketComplete ≠ socketError := by decide

theorem interrupted_ne_error : tcpsocketInterrupted ≠ socketError := by decide

theorem putdatas_outcome (socket : SOCKET) (buf0 : List UInt8) (bufs : PacketBuffers)
    (state : SocketWrites) :
    if Idle socket state ∧ ¬Fails socket state then
      (putdatas socket buf0 bufs state).1 ≠ socketError ∧
        OnItsWay socket (buf0 :: bufs.buffers).flatten state (putdatas socket buf0 bufs state).2
    else (putdatas socket buf0 bufs state).1 = socketError ∧
      Unwritten state (putdatas socket buf0 bufs state).2 := by
  rw [putdatas]
  dsimp only
  by_cases idle : (noPendingWrites socket state).1 = true
  · rcases writev_outcome socket (buf0 :: bufs.buffers) (noPendingWrites socket state).2 with
      ⟨rc, bytes, after, wrote, writes, failed, accepted, none⟩
    change rc = socketError ↔ Fails socket state at failed
    change after.writes = state.writes at writes
    change after.accepted = Function.update state.accepted socket
      (state.accepted socket ++ _) at accepted
    rw [idle, Bool.not_true, if_neg Bool.false_ne_true, wrote, ← List.length_flatten]
    dsimp only
    by_cases error : rc = socketError
    · rw [if_neg (fun both => both.2 (failed.mp error)), if_neg (not_not_intro error)]
      refine ⟨error, congrArg values writes, ?_⟩
      rw [accepted, none error, List.take_zero, List.append_nil, Function.update_eq_self]
    · rw [if_pos ⟨idle, fun fails => error (failed.mpr fails)⟩, if_pos error]
      by_cases whole : bytes = (buf0 :: bufs.buffers).flatten.length
      · rw [if_pos whole]
        refine ⟨complete_ne_error, .inl ⟨congrArg values writes, ?_⟩⟩
        rw [accepted, whole, List.take_length]
      · rw [if_neg whole]
        refine ⟨interrupted_ne_error, .inr ⟨⟨socket, (buf0 :: bufs.buffers).flatten.length, bytes,
          buf0 :: bufs.buffers⟩, rfl, rfl, ?_, accepted⟩⟩
        change (SocketBuffer.pendingWrite _ _ _ _ after.writes).values = _
        rw [SocketBuffer.pendingWrite, values_append, writes]
  · rw [if_neg (fun both => idle both.1), (Bool.not_eq_true _).mp idle, Bool.not_false,
      if_pos rfl]
    exact ⟨rfl, rfl, rfl⟩

end Outcome

end MqttClient.Socket
