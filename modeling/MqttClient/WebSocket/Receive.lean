import MqttClient.Foundation.Machine
import MqttClient.WebSocket.RawSocket
import MqttClient.WebSocket.Send

/-! # `WebSocket`: receiving

`WebSocket_receiveFrame`, `WebSocket_getch` and `WebSocket_getdata` on a connection with
`net->websocket` set. Allocation succeeds. The result is `none` where freed or unwritten
memory is used.
-/

namespace MqttClient.WebSocket

open Foundation

/-! ## One frame -/

/-- A part of `WebSocket_receiveFrame` that can leave for its exit with a return code. -/
abbrev Receive (α : Type) := RawSocket → Option (Except Int α × RawSocket)

namespace Receive

variable {α β : Type}

def andThen (first : Receive α) (next : α → Receive β) : Receive β := fun raw =>
  (first raw).bind fun
    | (.ok value, raw) => next value raw
    | (.error rc, raw) => some (.error rc, raw)

def done (value : α) : Receive α := fun raw => some (.ok value, raw)

def fail (rc : Int) : Receive α := fun raw => some (.error rc, raw)

theorem andThen_ok {first : Receive α} {next : α → Receive β} {raw after : RawSocket} {value : α}
    (ends : first raw = some (.ok value, after)) : first.andThen next raw = next value after := by
  rw [andThen, ends]
  rfl

theorem andThen_error {first : Receive α} {next : α → Receive β} {raw after : RawSocket} {rc : Int}
    (ends : first raw = some (.error rc, after)) :
    first.andThen next raw = some (.error rc, after) := by
  rw [andThen, ends]
  rfl

end Receive

/-- A call of `WebSocket_getRawSocketData` with the checks behind it: the bytes, if all of them
are there, and `rcs`. `absent` is the return code if there is no pointer. -/
def obtain (socket : SOCKET) (bytes : Nat) (absent rcs : Int) : Receive (List UInt8 × Int) :=
  fun raw =>
    (getRawSocketData socket bytes rcs raw).map fun (data, raw) =>
      if data.rc = socketError then (.error socketError, raw)
      else
        match data.block with
        | none => (.error absent, raw)
        | some b =>
            if b.length < bytes then (.error tcpsocketInterrupted, raw) else (.ok (b, data.rc), raw)

structure FrameStart where
  isFinal : Bool
  opcode : Nat
  hasMask : Bool
  payloadCode : Nat

def KnownOpcode (opcode : Nat) : Prop := opcode ≤ opPong ∧ ¬(opBinary < opcode ∧ opcode < opClose)

instance (opcode : Nat) : Decidable (KnownOpcode opcode) := inferInstanceAs (Decidable (_ ∧ _))

def receiveStart (socket : SOCKET) (opcode : Nat) : Receive (FrameStart × Int) :=
  (obtain socket 2 tcpsocketInterrupted 0).andThen fun
    | (first :: second :: _, rcs) =>
        let tmpOpcode := first.toNat % 16
        let opcode := if tmpOpcode ≠ 0 then tmpOpcode else opcode
        if KnownOpcode opcode then
          .done (⟨decide (128 ≤ first.toNat), opcode, decide (128 ≤ second.toNat),
            second.toNat % 128⟩, rcs)
        else .fail socketError
    | (_, _) => .fail tcpsocketInterrupted

/-- `payload_len`, from the header or behind it. -/
def receiveLength (socket : SOCKET) (payloadCode : Nat) (rcs : Int) : Receive (Nat × Int) :=
  if payloadCode = 126 then
    (obtain socket 2 socketError rcs).andThen fun (b, rcs) => .done (ofBigEndian b, rcs)
  else if payloadCode = 127 then
    (obtain socket 8 socketError rcs).andThen fun (b, rcs) => .done (ofBigEndian b, rcs)
  else .done (payloadCode, rcs)

def receiveKey (socket : SOCKET) (hasMask : Bool) (rcs : Int) : Receive Int :=
  if hasMask then (obtain socket 4 socketError rcs).andThen fun (_, rcs) => .done rcs
  else .done rcs

/-- The `mask` with which the data is unmasked: as it was declared. -/
def outerMask : Nat → UInt8 := fun _ => 0

def receiveHeader (socket : SOCKET) (opcode : Nat) : Receive (FrameStart × Nat × Int) :=
  (receiveStart socket opcode).andThen fun (start, rcs) =>
    (receiveLength socket start.payloadCode rcs).andThen fun (payloadLen, rcs) =>
      (receiveKey socket start.hasMask rcs).andThen fun rcs => .done (start, payloadLen, rcs)

/-- One frame: whether it is final, the opcode, the data, and `rcs`. -/
def receiveFragment (socket : SOCKET) (opcode : Nat) :
    Receive (Bool × Nat × List UInt8 × Int) :=
  (receiveHeader socket opcode).andThen fun (start, payloadLen, rcs) =>
    (obtain socket payloadLen socketError rcs).andThen fun (b, rcs) =>
      .done (start.isFinal, start.opcode, if start.hasMask then mask outerMask 0 b else b, rcs)

def clear (socket : SOCKET) (rcs : Int) : Receive Unit := fun raw =>
  (getRawSocketData socket 0 rcs raw).map fun (data, raw) =>
    if data.rc = socketError then (.error socketError, raw) else (.ok (), raw)

/-! ## Frames that belong together -/

/-- `struct ws_frame` with the data behind it. -/
structure WsFrame where
  data : List UInt8
  pos : Nat
  pos_le : pos ≤ data.length

namespace WsFrame

def extend (res : Option WsFrame) (b : List UInt8) : WsFrame :=
  match res with
  | none => ⟨b, 0, Nat.zero_le _⟩
  | some res => ⟨res.data ++ b, res.pos, by
      rw [List.length_append]
      exact Nat.le_add_right_of_le res.pos_le⟩

def unread (frame : WsFrame) : List UInt8 := frame.data.drop frame.pos

def advance (bytes : Nat) (frame : WsFrame) (fits : bytes ≤ frame.unread.length) : WsFrame where
  data := frame.data
  pos := frame.pos + bytes
  pos_le := by
    rw [unread, List.length_drop] at fits
    have := frame.pos_le
    omega

end WsFrame

inductive InFrame
  | frame (frame : WsFrame)
  | freed

/-- The static variables of the module, the connection it reads from and writes to, and the
numbers that `rand` will give. `in_frames` has one element at most: a frame is appended only if
there is none. -/
structure WebSocketState extends RawSocket where
  websocket : Bool
  inFrames : Option InFrame
  writes : SocketWrites
  rand : Nat → Nat

namespace WebSocketState

def start (inbound : SOCKET → RecvSource UInt8) (outbound : SOCKET → List WritevEvent)
    (rand : Nat → Nat) : WebSocketState where
  frameBuffer := .empty
  reads := ⟨.start, inbound⟩
  websocket := true
  inFrames := none
  writes := .start outbound
  rand := rand

def withRaw (state : WebSocketState) (raw : RawSocket) : WebSocketState :=
  { state with toRawSocket := raw }

def setFirst (state : WebSocketState) (content : InFrame) : WebSocketState :=
  { state with inFrames := state.inFrames.map fun _ => content }

/-- `WebSocket_pong`, if the connection still is a WebSocket. -/
def pong (socket : SOCKET) (appData : List UInt8) (state : WebSocketState) :
    Option WebSocketState :=
  if state.websocket then
    (WebSocket.pong socket state.rand appData state.writes).map fun writes =>
      { state with writes := writes, rand := fun i => state.rand (i + 4) }
  else some state

/-- `WebSocket_close` without a reason. -/
def close (socket : SOCKET) (statusCode : Nat) (state : WebSocketState) :
    Option WebSocketState :=
  if state.websocket then
    (sendClose socket state.rand statusCode state.writes).map fun writes =>
      { state with
        writes := writes, rand := fun i => state.rand (i + 4), websocket := false }
  else some state

end WebSocketState

/-- What `WebSocket_receiveFrame` does behind a frame: it goes on behind one that is not final,
behind a PING, which it answers, and behind a PONG; it closes the connection behind a CLOSE. -/
def afterFragment (socket : SOCKET)
    (again : (opcode : Nat) → Option WsFrame → WebSocketState →
      Option (Except Int WsFrame × WebSocketState))
    (isFinal : Bool) (opcode : Nat) (res : WsFrame) (state : WebSocketState) :
    Option (Except Int WsFrame × WebSocketState) :=
  if isFinal = false then again opcode (some res) state
  else if opcode = opPing then
    (state.pong socket res.data).bind fun state => again opcode none (state.setFirst .freed)
  else if opcode = opPong then again opcode none (state.setFirst .freed)
  else if opcode = opClose then
    ((state.setFirst .freed).close socket closeGoingAway).map fun state =>
      (.error socketError, state)
  else some (.ok res, state)

/-- The two loops of `WebSocket_receiveFrame`, of which the outer one is entered again behind a
PING or a PONG. Each frame takes bytes off the stream, so that `fuel` need not be larger than
their number. -/
def receiveLoop (socket : SOCKET) :
    (fuel opcode : Nat) → (res : Option WsFrame) → WebSocketState →
      Option (Except Int WsFrame × WebSocketState)
  | 0, _, _, _ => none
  | fuel + 1, opcode, res, state =>
      (receiveFragment socket opcode state.toRawSocket).bind fun
        | (.error rc, raw) => some (.error rc, state.withRaw raw)
        | (.ok (isFinal, opcode, b, rcs), raw) =>
            let res := WsFrame.extend res b
            let state := (state.withRaw raw).setFirst (.frame res)
            (clear socket rcs state.toRawSocket).bind fun
              | (.error rc, raw) => some (.error rc, state.withRaw raw)
              | (.ok (), raw) =>
                  afterFragment socket (receiveLoop socket fuel) isFinal opcode res
                    (state.withRaw raw)

def WebSocketState.left (socket : SOCKET) (state : WebSocketState) : Nat :=
  state.frameBuffer.data.length + (state.reads.inbound socket).bytes.length

def WebSocketState.finish : Except Int WsFrame × WebSocketState → Int × WebSocketState
  | (.error rc, state) =>
      (rc,
        if rc = tcpsocketInterrupted then
          state.withRaw { state.toRawSocket with frameBuffer := state.frameBuffer.rewind }
        else state)
  | (.ok res, state) =>
      (tcpsocketComplete,
        if state.inFrames.isNone then { state with inFrames := some (.frame res) } else state)

def receiveFrame (socket : SOCKET) (state : WebSocketState) : Option (Int × WebSocketState) :=
  match state.inFrames with
  | none =>
      (receiveLoop socket (state.left socket + 1) opBinary none state).map WebSocketState.finish
  | some (.frame res) =>
      (receiveLoop socket (state.left socket + 1) opBinary (some res) state).map
        WebSocketState.finish
  | some .freed => none

/-! ## Reading the data -/

/-- The end of `WebSocket_getch`, with a frame or not. -/
def takeChar (state : WebSocketState) : Option (Int × Option UInt8 × WebSocketState) :=
  match state.inFrames with
  | none => some (tcpsocketComplete, none, state)
  | some .freed => none
  | some (.frame frame) =>
      if more : frame.pos < frame.data.length then
        some (tcpsocketComplete, some frame.data[frame.pos],
          { state with inFrames := some (.frame ⟨frame.data, frame.pos + 1, more⟩) })
      else some (tcpsocketComplete, none, state)

/-- `WebSocket_getch`: the return code, and the character if one was stored. -/
def getch (socket : SOCKET) (state : WebSocketState) :
    Option (Int × Option UInt8 × WebSocketState) :=
  let receive (_ : Unit) := (receiveFrame socket state).bind fun (rc, state) =>
    if rc ≠ tcpsocketComplete then some (rc, none, state) else takeChar state
  if state.websocket then
    match state.inFrames with
    | none => receive ()
    | some .freed => none
    | some (.frame frame) =>
        if frame.data.length = frame.pos then receive () else takeChar state
  else
    match Socket.getch socket state.reads with
    | (.ok c, reads) => some (tcpsocketComplete, some c, { state with reads := reads })
    | (.error rc, reads) => some (rc, none, { state with reads := reads })

/-- The loop of `WebSocket_getdata` and what is behind it: the `actual_len` bytes at the pointer
that it returns. If a frame cannot be received, the pointer may be an old one; there are fewer
bytes then than were asked for. -/
def gatherFrames (socket : SOCKET) (bytes : Nat) :
    (fuel : Nat) → WsFrame → WebSocketState → Option (List UInt8 × WebSocketState)
  | 0, _, _ => none
  | fuel + 1, frame, state =>
      if frame.unread.length < bytes then
        (receiveFrame socket state).bind fun (rc, state) =>
          if rc ≠ tcpsocketComplete then some (frame.unread, state)
          else
            match state.inFrames with
            | some (.frame frame) => gatherFrames socket bytes fuel frame state
            | _ => none
      else if more : bytes < frame.unread.length then
        some (frame.unread,
          { state with inFrames := some (.frame (frame.advance bytes more.le)) })
      else some (frame.unread, { state with inFrames := none })

/-- `WebSocket_getdata`: the `actual_len` bytes at the pointer that it returns, unless that is
NULL. `*actual_len` is zero before. -/
def getdata (socket : SOCKET) (bytes : Nat) (state : WebSocketState) :
    Option (Option (List UInt8) × WebSocketState) :=
  let gather (frame : WsFrame) (state : WebSocketState) :=
    (gatherFrames socket bytes (state.left socket + 1) frame state).map fun (data, state) =>
      (some data, state)
  if state.websocket then
    if bytes = 0 then
      match state.inFrames with
      | none => some (none, state)
      | some .freed => none
      | some (.frame frame) =>
          if frame.pos = frame.data.length then
            some (some [], { state with inFrames := none })
          else some (none, state)
    else
      match state.inFrames with
      | none =>
          (receiveFrame socket state).bind fun (rc, state) =>
            if rc ≠ tcpsocketComplete then some (none, state)
            else
              match state.inFrames with
              | none => some (none, state)
              | some .freed => none
              | some (.frame frame) => gather frame state
      | some .freed => none
      | some (.frame frame) => gather frame state
  else
    match socketGetdata socket bytes 0 state.reads with
    | (.undefined, _, _) => none
    | (.null, _, reads) => some (none, { state with reads := reads })
    | (.buffer block actualLen, _, reads) =>
        ((block.take actualLen).mapM id).map fun data => (some data, { state with reads := reads })

/-! ## Reading the stream -/

inductive Call
  | getch
  | getdata (bytes : Nat)
  deriving DecidableEq, Repr

/-- What a call delivers: a character for a `WebSocket_getch` that completes, with `none` for one
that was not stored; the bytes asked for from `WebSocket_getdata`, if it returns as many. -/
def step (socket : SOCKET) (call : Call) (state : WebSocketState) :
    Option (List (Option UInt8) × WebSocketState) :=
  match call with
  | .getch =>
      (WebSocket.getch socket state).map fun (rc, c, state) =>
        (if rc = tcpsocketComplete then [c] else [], state)
  | .getdata bytes =>
      (WebSocket.getdata socket bytes state).map fun (data, state) =>
        match data with
        | none => ([], state)
        | some data => (if data.length < bytes then [] else (data.take bytes).map some, state)

def machine (socket : SOCKET) : Machine WebSocketState Call (Option UInt8) := ⟨step socket⟩

end MqttClient.WebSocket
