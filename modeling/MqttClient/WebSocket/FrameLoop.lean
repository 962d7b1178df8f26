import MqttClient.WebSocket.Fragments

/-! # `WebSocket`: the loop over the frames

What `WebSocket_receiveFrame` does between one frame and the next.
-/

namespace MqttClient.WebSocket

open Foundation

/-- Between two calls: the bytes of the stream, of which the frame buffer holds less than
`limit`. -/
structure Waiting (socket : SOCKET) (limit : Nat) (stream : List UInt8) (raw : RawSocket) :
    Prop where
  held : Held socket stream raw
  index : raw.frameBuffer.index = 0
  short : raw.frameBuffer.data.length < limit

section

variable {socket : SOCKET} {limit fuel opcode : Nat} {stream more : List UInt8}
  {raw after : RawSocket} {frame : WebSocketFrame} {res : Option WsFrame} {state : WebSocketState}

theorem Waiting.reading (waiting : Waiting socket limit stream raw) :
    Reading socket limit [] stream raw :=
  ⟨waiting.held, waiting.index, .inl waiting.short⟩

theorem Held.rewind (held : Held socket stream raw) (short : raw.frameBuffer.data.length < limit) :
    Waiting socket limit stream { raw with frameBuffer := raw.frameBuffer.rewind } :=
  ⟨⟨held.drained, held.healthy, held.stream⟩, rfl, short⟩

theorem Behind.clear {rcs : Int} (positive : Positive rcs) (behind : Behind socket more raw) :
    ∃ cleared, WebSocket.clear socket rcs raw = some (.ok (), cleared) ∧
      Held socket more cleared ∧ cleared.frameBuffer = .empty ∧
      cleared.reads.inbound = raw.reads.inbound := by
  have held : Held socket (raw.frameBuffer.data ++ more) raw :=
    ⟨behind.drained, behind.healthy, by rw [behind.bytes]⟩
  rcases getRawSocketData_zero held positive.1 with ⟨reads, read, drained, inbound⟩
  refine ⟨⟨.empty, reads⟩, ?_, ⟨drained, ?_, ?_⟩, rfl, inbound⟩
  · rw [WebSocket.clear, read]
    dsimp only [Option.map_some]
    rw [if_neg positive.2]
  · dsimp only
    rw [inbound]
    exact behind.healthy
  · dsimp only
    rw [inbound]
    exact behind.bytes

inductive LoopStep (socket : SOCKET) (fuel opcode : Nat) (res : Option WsFrame)
    (frame : WebSocketFrame) (more : List UInt8) (state : WebSocketState) : Prop
  | interrupted {after : RawSocket}
      (ends : receiveLoop socket (fuel + 1) opcode res state =
        some (.error tcpsocketInterrupted, state.withRaw after))
      (held : Held socket (frame.encode ++ more) after)
      (short : after.frameBuffer.data.length < frame.encode.length)
      (wait : available socket state.toRawSocket < frame.encode.length ∨
        maxRwCount < frame.payload.length)
      (progress : (after.reads.inbound socket).size < (state.reads.inbound socket).size)
  | read {after : RawSocket}
      (goesOn : receiveLoop socket (fuel + 1) opcode res state =
        afterFragment socket (receiveLoop socket fuel) frame.fin (opcodeOf frame opcode)
          (.extend res frame.masked)
          ((state.withRaw after).setFirst (.frame (.extend res frame.masked))))
      (held : Held socket more after)
      (cleared : after.frameBuffer = .empty)
      (ready : available socket state.toRawSocket ≤
        frame.encode.length + available socket after)

theorem receiveLoop_read {isFinal : Bool} {opcode' : Nat} {b : List UInt8} {rcs : Int}
    {middle : RawSocket}
    (ran : receiveFragment socket opcode state.toRawSocket =
      some (.ok (isFinal, opcode', b, rcs), middle))
    (cleared : clear socket rcs middle = some (.ok (), after)) :
    receiveLoop socket (fuel + 1) opcode res state =
      afterFragment socket (receiveLoop socket fuel) isFinal opcode' (.extend res b)
        ((state.withRaw after).setFirst (.frame (.extend res b))) := by
  rw [receiveLoop, ran]
  dsimp only [Option.bind_some]
  rw [show ((state.withRaw middle).setFirst (.frame (.extend res b))).toRawSocket = middle from rfl,
    cleared]
  rfl

theorem receiveLoop_step
    (waiting : Waiting socket frame.encode.length (frame.encode ++ more) state.toRawSocket)
    (small : frame.payload.length < 4294967296) (known : KnownOpcode (opcodeOf frame opcode)) :
    LoopStep socket fuel opcode res frame more state := by
  rcases receiveFragment_spec waiting.reading small known with ⟨result, ran, read⟩
  cases read with
  | interrupted held short wait progress =>
      refine .interrupted ?_ held short wait progress
      rw [receiveLoop, ran]
      rfl
  | @ok rcs middle positive behind ready =>
      rcases behind.clear positive with ⟨after, cleared, held, empty, inbound⟩
      refine .read (receiveLoop_read ran cleared) held empty ?_
      have here : available socket after =
          after.frameBuffer.ahead.length + (middle.reads.inbound socket).ready := by
        rw [available, inbound]
      omega

def queuedFrame : Option InFrame → Option WsFrame
  | some (.frame frame) => some frame
  | _ => none

theorem inFrames_of_queuedFrame {inFrames : Option InFrame} {frame : WsFrame}
    (queued : queuedFrame inFrames = some frame) : inFrames = some (.frame frame) := by
  unfold queuedFrame at queued
  split at queued
  · cases queued
    rfl
  · cases queued

theorem receiveFrame_eq (socket : SOCKET) (queued : state.inFrames ≠ some .freed) :
    receiveFrame socket state = (receiveLoop socket (state.left socket + 1) opBinary
      (queuedFrame state.inFrames) state).map WebSocketState.finish := by
  unfold receiveFrame
  cases here : state.inFrames with
  | none => rfl
  | some content =>
      cases content with
      | frame frame => rfl
      | freed => exact absurd here queued

theorem Held.start {inbound : SOCKET → RecvSource UInt8} (healthy : (inbound socket).Healthy)
    (bytes : (inbound socket).bytes = stream) (outbound : SOCKET → List WritevEvent)
    (rand : Nat → Nat) :
    Held socket stream (WebSocketState.start inbound outbound rand).toRawSocket :=
  ⟨⟨.newDefQ, .default rfl rfl, Nat.zero_le _, rfl⟩, healthy, bytes⟩

end

end MqttClient.WebSocket
