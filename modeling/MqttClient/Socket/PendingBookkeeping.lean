import MqttClient.Socket.Registry
import MqttClient.Socket.WriteStream

/-! # `Socket`: the books on pending writes

A pending write is recorded three times: in `write_pending`, in the list of
`SocketBuffer` and in `pending_wset`. The three agree in every run of `Socket_putdatas`,
`Socket_continueWrites` and `Socket_close`.
-/

namespace MqttClient

open LinkedList

/-- The bit of a socket in `pending_wset` says whether a write is pending on it. -/
def SocketWrites.Flagged (state : SocketWrites) : Prop :=
  ∀ socket, state.pendingWset socket = (state.pending socket).isSome

namespace Socket

variable {state after : SocketWrites} {socket : SOCKET}

theorem flagged_of_update {write : Option PendingWrites} (flagged : state.Flagged)
    (pending : after.pending = Function.update state.pending socket write)
    (wset : after.pendingWset = Function.update state.pendingWset socket write.isSome) :
    after.Flagged := by
  intro other
  rw [pending, wset]
  by_cases same : other = socket
  · subst other
    rw [Function.update_self, Function.update_self]
  · rw [Function.update_of_ne same, Function.update_of_ne same]
    exact flagged other

theorem pendingWset_continueWrite {rc : Int}
    (continued : continueWrite socket state = some (rc, after)) :
    after.pendingWset = state.pendingWset := by
  unfold continueWrite at continued
  split at continued
  · cases continued
  · rename_i element writes search
    rcases writev_spec socket (remainingIovecs element.value.bytes 0 element.value.iovecs)
      { state with writes := writes } with ⟨rc, bytes, outbound, wrote, _⟩
    simp only [wrote] at continued
    split at continued
    all_goals
      cases continued
      rfl

theorem putdatas_flagged (consistent : state.Consistent) (flagged : state.Flagged)
    (socket : SOCKET) (buf0 : List UInt8) (bufs : PacketBuffers) :
    (putdatas socket buf0 bufs state).2.Flagged := by
  rcases noPendingWrites_spec consistent socket with ⟨writePending, asked, searched⟩
  rw [putdatas, asked]
  dsimp only
  cases idle : state.pending socket with
  | some write => exact flagged
  | none =>
      rcases writev_spec socket (buf0 :: bufs.buffers) { state with writePending := writePending }
        with ⟨rc, bytes, outbound, wrote, front, _⟩
      simp only [wrote, Option.isNone_none, Bool.not_true, Bool.false_eq_true, if_false]
      have total : ((buf0 :: bufs.buffers).map List.length).sum =
          (buf0 :: bufs.buffers).flatten.length := by
        rw [List.length_flatten]
      rw [total]
      split
      · split
        · exact flagged
        · rename_i part
          let written : SocketWrites := { state with
            writePending := writePending
            outbound := outbound
            accepted := Function.update state.accepted socket
              (state.accepted socket ++ (buf0 :: bufs.buffers).flatten.take bytes) }
          have consistent : written.Consistent := searched.of_lists rfl rfl
          have registered := (register_pending consistent idle
            ⟨socket, (buf0 :: bufs.buffers).flatten.length, bytes, buf0 :: bufs.buffers⟩ rfl
            ⟨rfl, by
              change bytes < (buf0 :: bufs.buffers).flatten.length
              omega⟩).2
          exact flagged_of_update flagged registered rfl
      · exact flagged

theorem continueWrites_flagged (consistent : state.Consistent) (flagged : state.Flagged)
    (pwset : SOCKET → Bool) (sock : SOCKET) :
    ∃ rc reported after, continueWrites pwset sock state = some (rc, reported, after) ∧
      after.Consistent ∧ after.Flagged := by
  refine continueWritesLoop_invariant SocketWrites.Flagged ?_ ?_ pwset 0 sock
    state.writePending.elements state consistent flagged fun _ member => member
  · intro socket pw before after bytes _ flagged found called continued _
    refine flagged_of_update flagged continued.pending ?_
    have bit := flagged socket
    rw [found] at bit
    rw [pendingWset_continueWrite called, Option.isSome_some, ← Option.isSome_some (a := pw),
      ← bit, Function.update_eq_self]
  · intro socket pw before after bytes rc writePending _ flagged _ called _ _ pending
    refine flagged_of_update flagged pending ?_
    rw [← pendingWset_continueWrite called]
    rfl

theorem closeWrites_consistent (consistent : state.Consistent) (socket : SOCKET) :
    (closeWrites socket state).Consistent ∧
      (closeWrites socket state).pending = Function.update state.pending socket none := by
  have found := consistent.writesDistinct.findItem (hasKey PendingWrites.socket socket)
  rcases found.unlink_hasKey socket with ⟨writesDistinct, absent, others⟩
  rcases consistent.pendingDistinct.unlink_hasKey socket with
    ⟨pendingDistinct, removed, pendingOthers⟩
  have pending : (closeWrites socket state).pending =
      Function.update state.pending socket none := by
    funext other
    by_cases same : other = socket
    · subst other
      rw [Function.update_self]
      exact absent
    · rw [Function.update_of_ne same]
      exact (others other same).trans (lookup_findItem ..)
  refine ⟨⟨pendingDistinct, writesDistinct, fun other => ?_, fun other write present => ?_⟩,
    pending⟩
  · rw [pending]
    by_cases same : other = socket
    · subst other
      rw [Function.update_self]
      exact iff_of_true removed rfl
    · rw [Function.update_of_ne same, ← consistent.agree]
      exact Eq.congr_left (pendingOthers other same)
  · rw [pending] at present
    by_cases same : other = socket
    · subst other
      rw [Function.update_self] at present
      cases present
    · rw [Function.update_of_ne same] at present
      exact consistent.measured other write present

theorem closeWrites_spec (consistent : state.Consistent) (flagged : state.Flagged)
    (socket : SOCKET) : (closeWrites socket state).Consistent ∧
      (closeWrites socket state).Flagged := by
  rcases closeWrites_consistent consistent socket with ⟨closed, pending⟩
  exact ⟨closed, flagged_of_update flagged pending rfl⟩

/-! ## Runs -/

/-- A call that changes the pending writes. -/
inductive PendingAction
  | putdatas (socket : SOCKET) (buf0 : List UInt8) (bufs : PacketBuffers)
  | continueWrites (pwset : SOCKET → Bool) (sock : SOCKET)
  | close (socket : SOCKET)

def stepPending (state : SocketWrites) : PendingAction → Option SocketWrites
  | .putdatas socket buf0 bufs => some (putdatas socket buf0 bufs state).2
  | .continueWrites pwset sock => (continueWrites pwset sock state).map fun called => called.2.2
  | .close socket => some (closeWrites socket state)

/-- The state behind a run of calls; `none` is a pending write without its record. -/
def runPending : List PendingAction → SocketWrites → Option SocketWrites
  | [], state => some state
  | action :: actions, state => (stepPending state action).bind (runPending actions)

theorem stepPending_spec (consistent : state.Consistent) (flagged : state.Flagged)
    (action : PendingAction) :
    ∃ after, stepPending state action = some after ∧ after.Consistent ∧ after.Flagged := by
  cases action with
  | putdatas socket buf0 bufs =>
      exact ⟨_, rfl, (putdatas_spec consistent socket buf0 bufs).2.1,
        putdatas_flagged consistent flagged socket buf0 bufs⟩
  | continueWrites pwset sock =>
      rcases continueWrites_flagged consistent flagged pwset sock with
        ⟨rc, reported, after, called, spec⟩
      exact ⟨after, by rw [stepPending, called, Option.map_some], spec⟩
  | close socket => exact ⟨_, rfl, closeWrites_spec consistent flagged socket⟩

theorem runPending_spec (actions : List PendingAction) (consistent : state.Consistent)
    (flagged : state.Flagged) :
    ∃ after, runPending actions state = some after ∧ after.Consistent ∧ after.Flagged := by
  induction actions generalizing state with
  | nil => exact ⟨state, rfl, consistent, flagged⟩
  | cons action actions induction =>
      rcases stepPending_spec consistent flagged action with ⟨middle, stepped, spec⟩
      rw [runPending, stepped, Option.bind_some]
      exact induction spec.1 spec.2

/-- Whatever the calls and whatever `writev` does, the run goes through, the three
records of pending writes agree, none has two entries for a socket, and every pending
write lacks some of its bytes. -/
theorem pendingRecords_agree (actions : List PendingAction)
    (outbound : SOCKET → List WritevEvent) :
    ∃ state, runPending actions (.start outbound) = some state ∧
      (∀ socket, (socket ∈ state.writePending.values ↔
          socket ∈ state.writes.values.map PendingWrites.socket) ∧
        (socket ∈ state.writePending.values ↔ state.pendingWset socket = true)) ∧
      state.writePending.values.Nodup ∧
      (state.writes.values.map PendingWrites.socket).Nodup ∧
      ∀ write ∈ state.writes.values, write.bytes < write.total ∧
        write.total = (write.iovecs.map List.length).sum := by
  rcases runPending_spec actions (.start outbound) (fun _ => rfl) with
    ⟨state, ran, consistent, flagged⟩
  have listed (socket : SOCKET) :
      socket ∈ state.writePending.values ↔ (state.pending socket).isSome = true := by
    rw [Option.isSome_iff_ne_none, ne_eq, ← consistent.agree, lookup_eq_none_iff]
    simp
  have recorded (socket : SOCKET) : socket ∈ state.writes.values.map PendingWrites.socket ↔
      (state.pending socket).isSome = true := by
    rw [Option.isSome_iff_ne_none, ne_eq, SocketWrites.pending, lookup_eq_none_iff]
    simp
  refine ⟨state, ran, fun socket => ⟨?_, ?_⟩, ?_, consistent.writesDistinct,
    fun write member => ?_⟩
  · rw [listed, recorded]
  · rw [listed, flagged]
  · simpa [Distinct] using consistent.pendingDistinct
  · have measured := consistent.measured write.socket write
      (consistent.writesDistinct.lookup_eq_some_iff.mpr ⟨member, rfl⟩)
    rw [PendingWrites.packet, List.length_flatten] at measured
    exact ⟨measured.2, measured.1⟩

end Socket

end MqttClient
