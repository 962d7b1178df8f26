import MqttClient.Socket.PendingBookkeeping

/-! # `Socket`: the stream on one socket

What the functions of the module do to the packets on one socket, whatever they do to the
others: `writev` may fail there.
-/

namespace MqttClient.Socket

open Foundation LinkedList

/-- On a socket that does not fail, the kernel has accepted some packets except for what the
pending write lacks. -/
structure Carries (socket : SOCKET) (taken : List (List UInt8)) (state : SocketWrites) : Prop where
  healthy : .failed ∉ state.outbound socket
  sends : SendsAs (state.accepted socket) (state.pendingPacket socket) taken

structure Rests (socket : SOCKET) (bytes : List UInt8) (state : SocketWrites) : Prop where
  idle : state.pending socket = none
  accepted : state.accepted socket = bytes

structure Advances (socket : SOCKET) (before after : SocketWrites) : Prop where
  carries : ∀ taken, Carries socket taken before → Carries socket taken after
  rests : ∀ bytes, Rests socket bytes before → Rests socket bytes after

/-- A socket is offered a packet, and refuses it or has it as its next one. -/
structure Offers (socket : SOCKET) (packet : List UInt8) (before after : SocketWrites) : Prop where
  here : ∀ taken, Carries socket taken before →
    Carries socket taken after ∨ Carries socket (taken ++ [packet]) after
  elsewhere : ∀ other, other ≠ socket → Advances other before after

section Relations

variable {socket : SOCKET} {packet : List UInt8} {before middle after : SocketWrites}

theorem Advances.refl (socket : SOCKET) (state : SocketWrites) : Advances socket state state :=
  ⟨fun _ => id, fun _ => id⟩

theorem Advances.trans (first : Advances socket before middle)
    (second : Advances socket middle after) : Advances socket before after :=
  ⟨fun taken carries => second.carries taken (first.carries taken carries),
    fun bytes rests => second.rests bytes (first.rests bytes rests)⟩

theorem Advances.of_eq (outbound : after.outbound socket <:+ before.outbound socket)
    (accepted : after.accepted socket = before.accepted socket)
    (pending : after.pending socket = before.pending socket) : Advances socket before after where
  carries taken carries := by
    refine ⟨fun fails => carries.healthy (outbound.subset fails), ?_⟩
    rw [SocketWrites.pendingPacket, accepted, pending]
    exact carries.sends
  rests bytes rests := ⟨pending.trans rests.idle, accepted.trans rests.accepted⟩

theorem Offers.trans (offers : Offers socket packet before middle)
    (advances : ∀ other, Advances other middle after) : Offers socket packet before after where
  here taken carries :=
    (offers.here taken carries).imp ((advances socket).carries _) ((advances socket).carries _)
  elsewhere other different := (offers.elsewhere other different).trans (advances other)

theorem Offers.of_advances (advances : ∀ other, Advances other before middle)
    (offers : Offers socket packet middle after) : Offers socket packet before after where
  here taken carries := offers.here taken ((advances socket).carries taken carries)
  elsewhere other different := (advances other).trans (offers.elsewhere other different)

theorem Carries.rests {taken : List (List UInt8)} (carries : Carries socket taken before)
    (idle : before.pending socket = none) : Rests socket taken.flatten before := by
  have sends := carries.sends
  rw [SocketWrites.pendingPacket, idle] at sends
  exact ⟨idle, sends.eq_of_idle⟩

theorem Rests.carries (rests : Rests socket [] before)
    (healthy : .failed ∉ before.outbound socket) : Carries socket [] before := by
  refine ⟨healthy, ?_⟩
  rw [SocketWrites.pendingPacket, rests.idle, rests.accepted]
  exact .start

end Relations

section Writes

variable {state after : SocketWrites} {socket : SOCKET}

theorem noPendingWrites_advances (socket other : SOCKET) (state : SocketWrites) :
    Advances other state (noPendingWrites socket state).2 :=
  .of_eq (List.suffix_refl _) rfl rfl

theorem putdatas_offers (consistent : state.Consistent) (socket : SOCKET) (buf0 : List UInt8)
    (bufs : PacketBuffers) :
    Offers socket (buf0 :: bufs.buffers).flatten state (putdatas socket buf0 bufs state).2 := by
  rcases putdatas_spec consistent socket buf0 bufs with ⟨spec, _, suffixes⟩
  generalize putdatas socket buf0 bufs state = called at spec suffixes
  cases spec with
  | unwritten accepted pending =>
      have advances (other : SOCKET) : Advances other state _ :=
        .of_eq (suffixes other) (congrFun accepted other) (congrFun pending other)
      exact ⟨fun taken carries => .inl ((advances socket).carries taken carries),
        fun other _ => advances other⟩
  | @written rc bytes after idle front accepted pending code =>
      refine ⟨fun taken carries => .inr ⟨fun fails => carries.healthy
        ((suffixes socket).subset fails), ?_⟩, fun other different => .of_eq (suffixes other) ?_ ?_⟩
      · have sends := carries.sends
        rw [SocketWrites.pendingPacket, idle] at sends
        have submitted := SendsAs.submit sends (buf0 :: bufs.buffers).flatten bytes
        rw [SocketWrites.pendingPacket, accepted, pending, Function.update_self,
          Function.update_self]
        rw [SendsAs.remaining] at submitted
        split
        · rename_i whole
          rwa [if_pos whole] at submitted
        · rename_i part
          rwa [if_neg part] at submitted
      · rw [accepted, Function.update_of_ne different]
      · rw [pending, Function.update_of_ne different]

theorem Continued.carries {pw : PendingWrites} {rc : Int} {bytes : Nat} {final : SocketWrites}
    {taken : List (List UInt8)} (continued : Continued socket pw state rc bytes after)
    (consistent : state.Consistent) (found : state.pending socket = some pw)
    (carries : Carries socket taken state) (outbound : final.outbound = after.outbound)
    (accepted : final.accepted = after.accepted)
    (pending : final.pending socket =
      if pw.bytes + bytes = pw.total then none else some (pw.addBytes bytes)) :
    Carries socket taken final := by
  have measured := consistent.measured socket pw found
  constructor
  · rw [outbound]
    exact fun fails => carries.healthy ((continued.outbound socket).subset fails)
  · have sends := carries.sends
    rw [SocketWrites.pendingPacket, found] at sends
    have resumed := SendsAs.resume sends bytes
    rw [SocketWrites.pendingPacket, accepted, continued.accepted, pending, Function.update_self]
    rw [SendsAs.remaining, ← measured.1] at resumed
    split
    · rename_i whole
      rwa [if_pos whole] at resumed
    · rename_i part
      rwa [if_neg part] at resumed

theorem Continued.elsewhere {pw : PendingWrites} {rc : Int} {bytes : Nat} {final : SocketWrites}
    {write : Option PendingWrites} (continued : Continued socket pw state rc bytes after)
    (outbound : final.outbound = after.outbound) (accepted : final.accepted = after.accepted)
    (pending : final.pending = Function.update state.pending socket write) {other : SOCKET}
    (different : other ≠ socket) : Advances other state final := by
  refine .of_eq ?_ ?_ ?_
  · rw [outbound]
    exact continued.outbound other
  · rw [accepted, continued.accepted, Function.update_of_ne different]
  · rw [pending, Function.update_of_ne different]

theorem continueWrites_advances (consistent : state.Consistent) {pwset : SOCKET → Bool}
    {sock reported : SOCKET} {rc : Int}
    (ran : continueWrites pwset sock state = some (rc, reported, after)) :
    after.Consistent ∧ ∀ other, Advances other state after := by
  have keeps (Invariant : SocketWrites → Prop) (initial : Invariant state)
      (kept : ∀ {socket : SOCKET} {pw : PendingWrites} {before middle final : SocketWrites}
        {rc : Int} {bytes : Nat}, before.Consistent → Invariant before →
        before.pending socket = some pw → Continued socket pw before rc bytes middle →
        final.outbound = middle.outbound → final.accepted = middle.accepted →
        (rc = socketError ∧ final.pending = Function.update before.pending socket none ∨
          rc ≠ socketError ∧ final.pending = Function.update before.pending socket
            (if pw.bytes + bytes = pw.total then none else some (pw.addBytes bytes))) →
        Invariant final) : after.Consistent ∧ Invariant after := by
    have passed := continueWritesLoop_invariant Invariant
      (fun consistent invariant found _ continued part => by
        refine kept consistent invariant found continued rfl rfl (.inr ⟨by decide, ?_⟩)
        rw [if_neg part]
        exact continued.pending)
      (fun {socket pw before middle bytes rc writePending} consistent invariant found _ continued
          finished pending => by
        refine kept consistent invariant found continued rfl rfl ?_
        by_cases error : rc = socketError
        · exact .inl ⟨error, pending⟩
        · have whole : pw.bytes + bytes = pw.total := by
            by_contra part
            have code := continued.code error
            rw [if_neg part] at code
            exact finished code
          refine .inr ⟨error, ?_⟩
          rw [if_pos whole]
          exact pending)
      pwset 0 sock state.writePending.elements state consistent initial fun _ member => member
    rcases passed with ⟨_, _, _, same, consistent, invariant⟩
    cases ran.symm.trans same
    exact ⟨consistent, invariant⟩
  refine ⟨(keeps (fun _ => True) trivial fun _ _ _ _ _ _ _ => trivial).1, fun other => ⟨fun taken
    carries => (keeps (Carries other taken) carries ?_).2, fun bytes rests =>
    (keeps (Rests other bytes) rests ?_).2⟩⟩
  · intro socket pw before middle final rc bytes consistent carries found continued outbound
      accepted pending
    by_cases here : other = socket
    · subst other
      rcases pending with ⟨error, _⟩ | ⟨_, pending⟩
      · exact absurd (continued.error error).2 carries.healthy
      · refine continued.carries consistent found carries outbound accepted ?_
        rw [pending, Function.update_self]
    · rcases pending with ⟨_, pending⟩ | ⟨_, pending⟩
      · exact (continued.elsewhere outbound accepted pending here).carries taken carries
      · exact (continued.elsewhere outbound accepted pending here).carries taken carries
  · intro socket pw before middle final rc bytes consistent rests found continued outbound
      accepted pending
    have here : other ≠ socket := by
      rintro rfl
      exact absurd (rests.idle.symm.trans found) (Option.some_ne_none pw).symm
    rcases pending with ⟨_, pending⟩ | ⟨_, pending⟩
    · exact (continued.elsewhere outbound accepted pending here).rests _ rests
    · exact (continued.elsewhere outbound accepted pending here).rests _ rests

theorem closeWrites_advances (consistent : state.Consistent)
    (idle : state.pending socket = none) (other : SOCKET) :
    Advances other state (closeWrites socket state) := by
  refine .of_eq (List.suffix_refl _) rfl ?_
  rw [(closeWrites_consistent consistent socket).2, ← idle, Function.update_eq_self]

theorem updateWrite_advances (consistent : state.Consistent)
    (counted : ∀ pw, state.pending socket = some pw → pw.count ≠ 4) (topic payload : List UInt8) :
    let after := { state with
      writes := SocketBuffer.updateWrite socket topic payload state.writes }
    after.Consistent ∧ ∀ other, Advances other state after := by
  intro after
  have spec : after.writes.Distinct PendingWrites.socket ∧ after.pending = state.pending := by
    change (SocketBuffer.updateWrite socket topic payload state.writes).Distinct _ ∧
      (fun other => (SocketBuffer.updateWrite socket topic payload state.writes).lookup _ other) = _
    rw [SocketBuffer.updateWrite, SocketBuffer.getWrite]
    cases found : state.pending socket with
    | none =>
        have missed := findItem_hasKey_eq_none_iff.mpr found
        generalize searched : state.writes.findItem (hasKey PendingWrites.socket socket) = result
          at missed
        rcases result with ⟨none | element, writes⟩
        · have same : (state.writes.findItem (hasKey PendingWrites.socket socket)).2 = writes := by
            rw [searched]
          rw [← same]
          exact ⟨consistent.writesDistinct.findItem _, funext fun other => lookup_findItem ..⟩
        · cases missed
    | some pw =>
        rcases consistent.writesDistinct.findItem_of_lookup found with
          ⟨element, writes, search, value, member, distinct, lookups⟩
        have owner : element.value.socket = socket :=
          value ▸ (consistent.writesDistinct.lookup_eq_some_iff.mp found).2
        have keeps (write : PendingWrites) :
            (write.redirect topic payload).socket = write.socket := by
          rw [PendingWrites.redirect]
          split <;> rfl
        have unchanged : element.value.redirect topic payload = element.value :=
          if_neg (value ▸ counted pw found)
        rw [search]
        refine ⟨distinct.update _ keeps, funext fun other => ?_⟩
        by_cases same : other = element.value.socket
        · rw [same, distinct.lookup_update member keeps, unchanged, owner, found, value]
        · exact (distinct.lookup_update_of_ne member keeps same).trans (lookups other)
  refine ⟨⟨consistent.pendingDistinct, spec.1, fun other => ?_, fun other => ?_⟩, fun other =>
    .of_eq (List.suffix_refl _) rfl (congrFun spec.2 other)⟩
  · rw [spec.2]
    exact consistent.agree other
  · rw [spec.2]
    exact consistent.measured other

end Writes

section Ready

variable {sockets : Sockets} {writes : SocketWrites}

theorem isReady_advances (consistent : writes.Consistent) (socket : SOCKET) (sockets : Sockets) :
    (isReady socket sockets writes).2.2.Consistent ∧
      ∀ other, Advances other writes (isReady socket sockets writes).2.2 := by
  rcases noPendingWrites_spec consistent socket with ⟨writePending, asked, searched⟩
  unfold isReady
  dsimp only
  split
  · exact ⟨consistent, fun other => .refl other writes⟩
  · split
    · rw [asked]
      exact ⟨searched, fun other => .of_eq (List.suffix_refl _) rfl rfl⟩
    · exact ⟨consistent, fun other => .refl other writes⟩

theorem findReady_advances (elements : List (ListElement SOCKET)) (consistent : writes.Consistent)
    (sockets : Sockets) :
    (findReady elements sockets writes).2.2.Consistent ∧
      ∀ other, Advances other writes (findReady elements sockets writes).2.2 := by
  induction elements generalizing sockets writes with
  | nil => exact ⟨consistent, fun other => .refl other writes⟩
  | cons element later induction =>
      have here := isReady_advances consistent element.value sockets
      rw [findReady]
      split
      · rename_i asked
        rw [asked] at here
        exact here
      · rename_i asked
        rw [asked] at here
        rename_i after books
        rcases induction here.1 after with ⟨further, advances⟩
        exact ⟨further, fun other => (here.2 other).trans (advances other)⟩

theorem selectReady_advances {read write : SelectResult} (consistent : writes.Consistent)
    {called : SOCKET × Int × Sockets × SocketWrites}
    (ran : selectReady read write sockets writes = some called) :
    called.2.2.2.Consistent ∧ ∀ other, Advances other writes called.2.2.2 := by
  have unchanged : writes.Consistent ∧ ∀ other, Advances other writes writes :=
    ⟨consistent, fun other => .refl other writes⟩
  rw [selectReady] at ran
  split at ran
  · cases ran
    exact unchanged
  · split at ran
    · cases ran
      exact unchanged
    · dsimp only at ran
      split at ran
      · cases ran
      · rename_i continued
        have passed := continueWrites_advances consistent continued
        split at ran
        · cases ran
          exact passed
        · split at ran
          · cases ran
            exact passed
          · split at ran
            · cases ran
              exact passed
            · cases ran
              rw [takeReady_writes]
              rcases findReady_advances _ passed.1 _ with ⟨found, advances⟩
              exact ⟨found, fun other => (passed.2 other).trans (advances other)⟩

theorem getReadySocket_advances {read write : SelectResult} (consistent : writes.Consistent)
    {called : SOCKET × Int × Sockets × SocketWrites}
    (ran : getReadySocket read write sockets writes = some called) :
    called.2.2.2.Consistent ∧ ∀ other, Advances other writes called.2.2.2 := by
  rw [getReadySocket] at ran
  split at ran
  · cases ran
    exact ⟨consistent, fun other => .refl other writes⟩
  · have found := findReady_advances (elementsFrom sockets.curClientsds sockets.clientsds)
      consistent sockets
    dsimp only at ran
    split at ran
    · rcases selectReady_advances found.1 ran with ⟨selected, advances⟩
      exact ⟨selected, fun other => (found.2 other).trans (advances other)⟩
    · cases ran
      rw [takeReady_writes]
      exact found

end Ready

end MqttClient.Socket
