import MqttClient.WebSocket.FrameLoop
import MqttClient.WebSocket.Restoration

/-! # `WebSocket`: data and control frames

What the server sends, the data of it, and how `WebSocket_pong` answers a PING.
-/

namespace MqttClient.WebSocket

open Foundation

/-! ## What the server sends -/

/-- A frame with data of the stream. -/
def IsData (frame : WebSocketFrame) : Prop := (frame.opcode : Nat) ≤ opBinary

instance (frame : WebSocketFrame) : Decidable (IsData frame) := inferInstanceAs (Decidable (_ ≤ _))

def IsPing (frame : WebSocketFrame) : Prop := (frame.opcode : Nat) = opPing

instance (frame : WebSocketFrame) : Decidable (IsPing frame) := inferInstanceAs (Decidable (_ = _))

structure IsControl (frame : WebSocketFrame) : Prop where
  opcode : IsPing frame ∨ (frame.opcode : Nat) = opPong
  fin : frame.fin = true
  short : frame.payload.length ≤ 125

/-- An unmasked data frame, PING or PONG, with a payload that the socket layer can count. -/
structure Plain (frame : WebSocketFrame) : Prop where
  unmasked : frame.key = none
  small : frame.payload.length < 4294967296
  kind : IsData frame ∨ IsControl frame

def dataOf (frames : List WebSocketFrame) : List UInt8 :=
  frames.flatMap fun frame => if IsData frame then frame.payload else []

/-- No data frame is empty. -/
def NoneEmpty (frames : List WebSocketFrame) : Prop :=
  ∀ frame ∈ frames, IsData frame → frame.payload ≠ []

def pings (frames : List WebSocketFrame) : List WebSocketFrame :=
  frames.filter fun frame => decide (IsPing frame)

structure IsPongOf (ping pong : WebSocketFrame) : Prop where
  fin : pong.fin = true
  opcode : (pong.opcode : Nat) = opPong
  masked : pong.key.isSome = true
  payload : pong.payload = ping.payload

def Answers (pings : List WebSocketFrame) (before after : List UInt8) : Prop :=
  ∃ pongs, List.Forall₂ IsPongOf pings pongs ∧ after = before ++ WebSocketFrame.encodeAll pongs

section Frames

variable {frame : WebSocketFrame} {frames more : List WebSocketFrame}
  {first second third : List UInt8}

theorem IsControl.not_isData (control : IsControl frame) : ¬IsData frame := by
  rw [IsData]
  rcases control.opcode with ping | pong
  · rw [IsPing] at ping
    rw [ping]
    decide
  · rw [pong]
    decide

theorem IsData.not_isPing (isData : IsData frame) : ¬IsPing frame := by
  intro ping
  rw [IsData, ping] at isData
  exact absurd isData (by decide)

theorem Plain.masked (plain : Plain frame) : frame.masked = frame.payload := by
  rw [WebSocketFrame.masked, plain.unmasked]

theorem dataOf_append : dataOf (frames ++ more) = dataOf frames ++ dataOf more :=
  List.flatMap_append

theorem dataOf_concat_data (isData : IsData frame) :
    dataOf (frames ++ [frame]) = dataOf frames ++ frame.payload := by
  rw [dataOf_append, dataOf, dataOf, List.flatMap_singleton, if_pos isData]

theorem dataOf_concat_control (control : IsControl frame) :
    dataOf (frames ++ [frame]) = dataOf frames := by
  rw [dataOf_append, dataOf, dataOf, List.flatMap_singleton, if_neg control.not_isData,
    List.append_nil]

theorem pings_concat_ping (ping : IsPing frame) :
    pings (frames ++ [frame]) = pings frames ++ [frame] := by
  have kept : pings [frame] = [frame] := List.filter_cons_of_pos (decide_eq_true ping)
  rw [pings, List.filter_append, ← pings, ← pings, kept]

theorem pings_concat_other (other : ¬IsPing frame) : pings (frames ++ [frame]) = pings frames := by
  have left : pings [frame] = [] := List.filter_cons_of_neg (by rwa [decide_eq_true_eq])
  rw [pings, List.filter_append, ← pings, ← pings, left, List.append_nil]

theorem Answers.nil : Answers [] first first := ⟨[], .nil, (List.append_nil first).symm⟩

theorem Answers.trans {pings others : List WebSocketFrame} (one : Answers pings first second)
    (other : Answers others second third) : Answers (pings ++ others) first third := by
  rcases one with ⟨pongs, answers, rfl⟩
  rcases other with ⟨more, further, rfl⟩
  refine ⟨pongs ++ more, List.rel_append answers further, ?_⟩
  rw [WebSocketFrame.encodeAll, WebSocketFrame.encodeAll, WebSocketFrame.encodeAll, List.map_append,
    List.flatten_append, List.append_assoc]

end Frames

/-! ## Answering a PING -/

def pongLength (dataLen : Nat) : Nat := 6 + dataLen

theorem opPong_lt : opPong < 16 := by decide

section Pong

variable {rand : Nat → Nat} {appData : List UInt8}

def pongFrame (rand : Nat → Nat) (appData : List UInt8) : WebSocketFrame :=
  sentFrame rand ⟨opPong, opPong_lt⟩ [] (withoutMask ⟨[appData], length_single_le appData⟩)

theorem dataLength_single :
    dataLength [] (withoutMask ⟨[appData], length_single_le appData⟩) = appData.length := by
  rw [dataLength, List.length_nil, Nat.zero_add]
  exact Nat.add_zero _

theorem payload_pongFrame : (pongFrame rand appData).payload = appData := by
  have fits : FitsInt [] ⟨[appData], length_single_le appData⟩ :=
    Nat.lt_of_le_of_lt (calculateFrameHeaderSize_le _) (by decide)
  rw [pongFrame, (payload_sentFrame_iff _).mpr (.inl fits)]
  exact List.append_nil appData

theorem length_pongFrame (short : appData.length ≤ 125) :
    (pongFrame rand appData).encode.length = pongLength appData.length := by
  have key : (pongFrame rand appData).key.isSome = true := rfl
  rw [WebSocketFrame.length_encode, WebSocketFrame.header, List.length_cons, List.length_cons,
    List.length_append, WebSocketFrame.length_extendedLength, WebSocketFrame.length_keyBytes,
    payload_pongFrame, if_pos (by omega), if_pos key, pongLength]

/-- What `WebSocket_pong` leaves on the socket and in the module. -/
structure Ponged (socket : SOCKET) (ping : WebSocketFrame) (before after : WebSocketState) :
    Prop where
  raw : after.toRawSocket = before.toRawSocket
  inFrames : after.inFrames = before.inFrames
  websocket : after.websocket = before.websocket
  idle : Socket.Idle socket after.writes
  answers : Answers [ping] (before.writes.accepted socket) (after.writes.accepted socket)

theorem pong_answers {socket : SOCKET} {state : WebSocketState} {ping : WebSocketFrame}
    (websocket : state.websocket = true) (short : ping.payload.length ≤ 125)
    (idle : Socket.Idle socket state.writes)
    (accepts : Socket.Accepts socket (pongLength ping.payload.length) state.writes) :
    ∃ after, state.pong socket ping.payload = some after ∧ Ponged socket ping state after := by
  have fits : dataLength [] (withoutMask ⟨[ping.payload], length_single_le ping.payload⟩) <
      0xFFFFFFFFFFFFFFFF := by
    rw [dataLength_single]
    omega
  rcases (⟨_, if_pos fits⟩ : ∃ fd, buildFrame state.rand ⟨opPong, opPong_lt⟩ []
      (withoutMask ⟨[ping.payload], length_single_le ping.payload⟩) = some fd) with ⟨fd, built⟩
  have encoded : (fd.1 :: fd.2.buffers).flatten =
      (pongFrame state.rand ping.payload).encode := (buildFrame_encode built).2
  rcases accepts with ⟨count, rest, next, enough⟩
  have taken : (fd.1 :: fd.2.buffers).flatten.length ≤ min count maxRwCount := by
    rw [encoded, length_pongFrame short]
    exact enough
  have ponged : ∃ writes, WebSocket.pong socket state.rand ping.payload state.writes = some writes ∧
      Socket.Idle socket writes ∧ writes.accepted socket =
        state.writes.accepted socket ++ (pongFrame state.rand ping.payload).encode := by
    refine ⟨_, congrArg (Option.map _) built, ?_⟩
    dsimp only
    rw [Socket.putdatas_whole idle next taken, ← encoded]
    exact ⟨idle, Function.update_self ..⟩
  rcases ponged with ⟨writes, ponged, idle, accepted⟩
  refine ⟨{ state with writes := writes, rand := fun i => state.rand (i + 4) }, ?_, rfl, rfl, rfl,
    idle, [pongFrame state.rand ping.payload], .cons ⟨rfl, rfl, rfl, payload_pongFrame⟩ .nil, ?_⟩
  · rw [WebSocketState.pong, if_pos websocket, ponged, Option.map_some]
  · rw [accepted]
    exact congrArg _ (List.append_nil _).symm

end Pong

end MqttClient.WebSocket
