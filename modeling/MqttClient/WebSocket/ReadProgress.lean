import MqttClient.WebSocket.Receive

/-! # `WebSocket`: no call adds to what will be received

The parts of `WebSocket_receiveFrame` only take events off the source of a socket.
-/

namespace MqttClient

open Foundation

namespace WebSocket

variable {socket : SOCKET}

def stored (socket : SOCKET) (reads : SocketReads UInt8) : Nat := (reads.inbound socket).size

theorem stored_recv (count : Nat) (reads : SocketReads UInt8) :
    stored socket (reads.recv socket count).2 ≤ stored socket reads := by
  rw [stored, SocketReads.recv]
  dsimp only
  rw [Function.update_self]
  exact RecvSource.size_recv_le ..

theorem stored_received {bytes actualLen : Nat} {found : Option (ListElement (SocketQueue UInt8))}
    (got : RecvEvent UInt8 × SocketReads UInt8) :
    stored socket (received socket bytes actualLen found got).2.2 = stored socket got.2 := by
  rcases got with ⟨event, reads⟩
  cases event with
  | data data => cases data <;> rfl
  | wouldBlock | endOfFile | failed => rfl

theorem stored_socketGetdata (bytes : Nat) (rc : Int) (reads : SocketReads UInt8) :
    stored socket (socketGetdata socket bytes rc reads).2.2 ≤ stored socket reads := by
  rw [socketGetdata]
  split
  · exact le_rfl
  · dsimp only
    split
    · exact le_rfl
    · split
      · exact le_rfl
      · rw [stored_received]
        exact @stored_recv socket _ (reads.withBuffer _)

theorem stored_getRawSocketData {bytes : Nat} {rc : Int} {raw after : RawSocket} {data : RawData}
    (read : getRawSocketData socket bytes rc raw = some (data, after)) :
    stored socket after.reads ≤ stored socket raw.reads := by
  rw [getRawSocketData] at read
  dsimp only at read
  split at read
  · cases read
    exact le_rfl
  · have fewer := @stored_socketGetdata socket (bytes - raw.frameBuffer.ahead.length) rc raw.reads
    generalize socketGetdata socket _ rc raw.reads = got at read fewer
    rcases got with ⟨got, code, reads⟩
    cases got with
    | undefined => cases read
    | null =>
        cases read
        exact fewer
    | buffer block actualLen =>
        dsimp only at read
        split at read
        · cases read
          exact fewer
        · split at read
          · cases read
            exact fewer
          · split at read
            · cases read
              exact fewer
            · rcases Option.map_eq_some_iff.mp read with ⟨_, _, same⟩
              cases same
              exact fewer

/-- A part of `WebSocket_receiveFrame` does not add to what the source has in store. -/
structure Spends {α : Type} (socket : SOCKET) (part : Receive α) : Prop where
  stored_le : ∀ {raw after : RawSocket} {result : Except Int α}, part raw = some (result, after) →
    stored socket after.reads ≤ stored socket raw.reads

section Parts

variable {α β : Type} {first second : Receive α} {next : α → Receive β}

theorem Spends.done (value : α) : Spends socket (Receive.done value) := by
  constructor
  rintro raw _ _ ⟨⟩
  exact le_rfl

theorem Spends.fail (rc : Int) : Spends socket (Receive.fail rc : Receive α) := by
  constructor
  rintro raw _ _ ⟨⟩
  exact le_rfl

theorem Spends.ite {condition : Prop} [Decidable condition] (one : Spends socket first)
    (other : Spends socket second) : Spends socket (if condition then first else second) := by
  split
  · exact one
  · exact other

theorem Spends.andThen (start : Spends socket first)
    (continues : ∀ value, Spends socket (next value)) : Spends socket (first.andThen next) := by
  constructor
  intro raw after result ran
  rcases Option.bind_eq_some_iff.mp ran with ⟨⟨middle, reached⟩, began, ran⟩
  have fewer := start.stored_le began
  cases middle with
  | error rc =>
      cases ran
      exact fewer
  | ok value => exact ((continues value).stored_le ran).trans fewer

theorem Spends.obtain (bytes : Nat) (absent rcs : Int) :
    Spends socket (WebSocket.obtain socket bytes absent rcs) := by
  constructor
  intro raw after result ran
  rcases Option.map_eq_some_iff.mp ran with ⟨⟨data, reached⟩, read, same⟩
  have fewer := @stored_getRawSocketData socket bytes rcs raw reached data read
  dsimp only at same
  split at same
  · cases same
    exact fewer
  · split at same
    · cases same
      exact fewer
    · split at same
      · cases same
        exact fewer
      · cases same
        exact fewer

theorem spends_receiveStart (opcode : Nat) : Spends socket (receiveStart socket opcode) := by
  refine (Spends.obtain 2 _ _).andThen ?_
  rintro ⟨bytes, rcs⟩
  match bytes with
  | _ :: _ :: _ => exact .ite (.done _) (.fail _)
  | [] => exact .fail _
  | [_] => exact .fail _

theorem spends_receiveLength (payloadCode : Nat) (rcs : Int) :
    Spends socket (receiveLength socket payloadCode rcs) :=
  .ite ((Spends.obtain 2 _ _).andThen fun _ => .done _)
    (.ite ((Spends.obtain 8 _ _).andThen fun _ => .done _) (.done _))

theorem spends_receiveKey (hasMask : Bool) (rcs : Int) :
    Spends socket (receiveKey socket hasMask rcs) :=
  .ite ((Spends.obtain 4 _ _).andThen fun _ => .done _) (.done _)

theorem spends_receiveFragment (opcode : Nat) : Spends socket (receiveFragment socket opcode) := by
  have header : Spends socket (receiveHeader socket opcode) :=
    (spends_receiveStart opcode).andThen fun start =>
      (spends_receiveLength start.1.payloadCode start.2).andThen fun _ =>
        (spends_receiveKey start.1.hasMask _).andThen fun _ => .done _
  exact header.andThen fun parts => (Spends.obtain parts.2.1 _ _).andThen fun _ => .done _

theorem spends_clear (rcs : Int) : Spends socket (clear socket rcs) := by
  constructor
  intro raw after result ran
  rcases Option.map_eq_some_iff.mp ran with ⟨⟨data, reached⟩, read, same⟩
  have fewer := @stored_getRawSocketData socket 0 rcs raw reached data read
  dsimp only at same
  split at same
  · cases same
    exact fewer
  · cases same
    exact fewer

end Parts

end WebSocket

end MqttClient
