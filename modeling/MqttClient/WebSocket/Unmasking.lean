import MqttClient.WebSocket.BuiltFrame
import MqttClient.WebSocket.FrameLoop

/-! # `WebSocket`: what comes back of a masked frame

`WebSocket_receiveFrame` reads the frames that `WebSocket_buildFrame` makes, whatever their
length below 2^32 bytes and however they arrive, but leaves the data masked.
-/

namespace MqttClient.WebSocket

open Foundation

/-- `WebSocket_receiveFrame`, called again while it is interrupted. -/
def receiveWhole (socket : SOCKET) : (calls : Nat) → WebSocketState →
    Option (Int × WebSocketState)
  | 0, state => some (tcpsocketInterrupted, state)
  | calls + 1, state =>
      (receiveFrame socket state).bind fun (rc, state) =>
        if rc = tcpsocketInterrupted then receiveWhole socket calls state else some (rc, state)

def queuedData : Option InFrame → List UInt8
  | some (.frame frame) => frame.data
  | _ => []

/-- A frame is received, and the data that is queued for it is `data`. -/
def Receives (socket : SOCKET) (data : List UInt8) (state : WebSocketState) : Prop :=
  ∃ calls after, receiveWhole socket calls state = some (tcpsocketComplete, after) ∧
    ∃ frame, after.inFrames = some (.frame frame) ∧ frame.data = queuedData state.inFrames ++ data

/-- Between two frames: nothing is in the frame buffer, `stream` is what will be received, and
no freed frame is queued. -/
structure AtRest (socket : SOCKET) (stream : List UInt8) (state : WebSocketState) : Prop where
  held : Held socket stream state.toRawSocket
  empty : state.frameBuffer = .empty
  queued : state.inFrames ≠ some .freed

section

variable {socket : SOCKET} {state first second : WebSocketState} {frame : WebSocketFrame}
  {more : List UInt8}

theorem receiveWhole_unique {calls others : Nat}
    (one : receiveWhole socket calls state = some (tcpsocketComplete, first))
    (other : receiveWhole socket others state = some (tcpsocketComplete, second)) :
    first = second := by
  induction calls generalizing others state with
  | zero => cases one
  | succ calls induction =>
      cases others with
      | zero => cases other
      | succ others =>
          rcases Option.bind_eq_some_iff.mp one with ⟨⟨rc, after⟩, received, one⟩
          rw [receiveWhole, received, Option.bind_some] at other
          dsimp only at one other
          split at one
          · rename_i interrupted
            rw [if_pos interrupted] at other
            exact induction one other
          · rename_i ended
            rw [if_neg ended] at other
            cases one
            cases other
            rfl

theorem Receives.unique {data other : List UInt8} (one : Receives socket data state)
    (another : Receives socket other state) : data = other := by
  rcases one with ⟨calls, after, ran, frame, queued, same⟩
  rcases another with ⟨others, _, again, _, found, different⟩
  cases receiveWhole_unique ran again
  cases queued.symm.trans found
  exact List.append_cancel_left (same.symm.trans different)

theorem receives_of_receiveFrame {data : List UInt8} {after : WebSocketState} {frame : WsFrame}
    (received : receiveFrame socket state = some (tcpsocketComplete, after))
    (queued : after.inFrames = some (.frame frame))
    (same : frame.data = queuedData state.inFrames ++ data) : Receives socket data state :=
  ⟨1, after, by rw [receiveWhole, received]; rfl, frame, queued, same⟩

theorem AtRest.waiting {stream : List UInt8} {limit : Nat} (rest : AtRest socket stream state)
    (positive : 0 < limit) : Waiting socket limit stream state.toRawSocket :=
  ⟨rest.held, by rw [rest.empty]; rfl, by rw [rest.empty]; exact positive⟩

theorem queuedData_finish {after : RawSocket} {b : List UInt8}
    (queued : state.inFrames ≠ some .freed) :
    ∃ frame, (WebSocketState.finish (.ok (.extend (queuedFrame state.inFrames) b),
        (state.withRaw after).setFirst
          (.frame (.extend (queuedFrame state.inFrames) b)))).2.inFrames =
          some (.frame frame) ∧ frame.data = queuedData state.inFrames ++ b := by
  refine ⟨.extend (queuedFrame state.inFrames) b, ?_, ?_⟩
  · rw [WebSocketState.finish, WebSocketState.setFirst, WebSocketState.withRaw]
    cases state.inFrames <;> rfl
  · cases here : state.inFrames with
    | none => rfl
    | some content =>
        cases content with
        | frame frame => rfl
        | freed => exact absurd here queued

theorem receives_masked (final : frame.fin = true) (binary : (frame.opcode : Nat) = opBinary)
    (small : frame.payload.length < 4294967296)
    (waiting : Waiting socket frame.encode.length (frame.encode ++ more) state.toRawSocket)
    (queued : state.inFrames ≠ some .freed) : Receives socket frame.masked state := by
  have opcode : opcodeOf frame opBinary = opBinary := by rw [opcodeOf, binary, if_pos (by decide)]
  have known : KnownOpcode (opcodeOf frame opBinary) := by
    rw [opcode]
    decide
  -- each interrupted call takes an event off the source
  induction size : (state.reads.inbound socket).size using Nat.strong_induction_on
    generalizing state with
  | h size induction =>
      have called := receiveFrame_eq socket queued
      have step : LoopStep socket (state.left socket) opBinary (queuedFrame state.inFrames) frame
        more
        state := receiveLoop_step waiting small known
      cases step with
      | @interrupted after ends held short wait progress =>
          rw [ends] at called
          have again : Receives socket frame.masked
              (state.withRaw { after with frameBuffer := after.frameBuffer.rewind }) :=
            induction _ (size ▸ progress) (held.rewind short) queued rfl
          rcases again with ⟨calls, last, ran, received⟩
          exact ⟨calls + 1, last, by rw [receiveWhole, called]; exact ran, received⟩
      | @read after goesOn held cleared ready =>
          rw [goesOn, final, opcode] at called
          exact ⟨1, _, by rw [receiveWhole, called]; rfl, queuedData_finish queued⟩

theorem not_receives_huge (limit : Nat) {data : List UInt8}
    (binary : (frame.opcode : Nat) = opBinary)
    (huge : limit + 4294967296 = frame.encode.length + 1)
    (large : 4294967296 ≤ frame.payload.length)
    (small : frame.payload.length < 18446744073709551616)
    (waiting : Waiting socket limit (frame.encode ++ more) state.toRawSocket)
    (queued : state.inFrames ≠ some .freed) : ¬Receives socket data state := by
  rintro ⟨calls, after, ran, received⟩
  clear received
  have opcode : opcodeOf frame opBinary = opBinary := by rw [opcodeOf, binary, if_pos (by decide)]
  have known : KnownOpcode (opcodeOf frame opBinary) := by
    rw [opcode]
    decide
  induction calls generalizing state with
  | zero => cases ran
  | succ calls induction =>
      rcases receiveFragment_huge waiting.reading huge large small known with
        ⟨rc, raw, read, ends⟩
      have called := receiveFrame_eq socket queued
      rw [receiveLoop, read] at called
      rw [receiveWhole, called] at ran
      rcases ends with rfl | ⟨rfl, held, short⟩
      · cases ran
      · have next : Waiting socket limit (frame.encode ++ more)
            (state.withRaw { raw with frameBuffer := raw.frameBuffer.rewind }).toRawSocket :=
          held.rewind short
        exact induction next queued ran

/-! ## The buffers that are sent -/

variable {rand : Nat → Nat} {buf0 : List UInt8} {bufs : MaskedBuffers}
  {wsdata : List UInt8 × MaskedBuffers}

/-- `WebSocket_receiveFrame` queues the buffers that `WebSocket_buildFrame` put into a frame
exactly if every byte of the masking key that is used is zero, and there are fewer than 2^32
bytes. -/
theorem receives_original_iff
    (built : buildFrame rand ⟨opBinary, by decide⟩ buf0 bufs = some wsdata)
    (rest : AtRest socket ((wsdata.1 :: wsdata.2.buffers).flatten ++ more) state) :
    Receives socket (original rand buf0 bufs) state ↔
      (∀ i < maskedLength buf0 bufs + (bufs.buffers.map List.length).sum,
        WebSocketFrame.keyStream (maskingKey rand bufs) i = 0) ∧
      dataLength buf0 bufs < 4294967296 := by
  rcases buildFrame_encode built with ⟨fits, encoded⟩
  rw [encoded] at rest
  have length := length_sentFrame rand ⟨opBinary, by decide⟩ buf0 bufs
  by_cases small : dataLength buf0 bufs < 4294967296
  · have received := receives_masked rfl rfl (length.trans_lt small) (rest.waiting (Nat.succ_pos _))
      rest.queued
    rw [masked_sentFrame] at received
    rw [and_iff_left small, ← sentPayload_eq_original_iff]
    exact ⟨fun other => received.unique other, fun same => same ▸ received⟩
  · have whole := (sentFrame rand ⟨opBinary, by decide⟩ buf0 bufs).length_encode
    have limit : 4294967295 + 1 ≤
        (sentFrame rand ⟨opBinary, by decide⟩ buf0 bufs).encode.length := by
      omega
    refine iff_of_false (not_receives_huge (_ + 1 - 4294967296) rfl
      (Nat.sub_add_cancel (limit.trans (Nat.le_succ _))) (by omega) (by omega)
      (rest.waiting (by omega)) rest.queued) fun both => small both.2

end

def arrives (wire : List UInt8) : WebSocketState :=
  .start (fun _ => [.data wire]) (fun _ => []) (fun _ => 0)

theorem atRest_arrives (socket : SOCKET) (wire : List UInt8) :
    AtRest socket wire (arrives wire) := by
  have healthy : RecvSource.Healthy [RecvEvent.data wire] := by
    intro event member
    rw [List.mem_singleton.mp member]
    trivial
  have bytes : RecvSource.bytes [RecvEvent.data wire] = wire := by
    rw [RecvSource.bytes_cons, RecvSource.bytes_nil, List.append_nil]
    rfl
  exact ⟨.start healthy bytes _ _, rfl, fun same => by cases same⟩

/-- A PINGREQ in a frame with a key of zeros is received. -/
theorem receives_original_iff_zero :
    Receives 3 [0xC0, 0] (arrives [0x82, 0x82, 0, 0, 0, 0, 0xC0, 0]) := by
  have built : buildFrame (fun _ => 0) ⟨opBinary, by decide⟩ [0xC0, 0]
      ⟨⟨[], by decide⟩, fun _ => 0⟩ = some ([0x82, 0x82, 0, 0, 0, 0, 0xC0, 0], _) := rfl
  exact (receives_original_iff built (atRest_arrives 3 _)).mpr ⟨fun i _ => rfl, by decide⟩

/-- A PINGREQ in a frame with a key of ones is not: its bytes stay masked. -/
theorem not_receives_original_ones : ∃ wsdata,
    buildFrame (fun _ => 1) ⟨opBinary, by decide⟩ [0xC0, 0] ⟨⟨[], by decide⟩, fun _ => 0⟩ =
        some wsdata ∧
      AtRest 3 (wsdata.1 :: wsdata.2.buffers).flatten
        (arrives (wsdata.1 :: wsdata.2.buffers).flatten) ∧
      ¬Receives 3 [0xC0, 0] (arrives (wsdata.1 :: wsdata.2.buffers).flatten) := by
  have built : buildFrame (fun _ => 1) ⟨opBinary, by decide⟩ [0xC0, 0]
      ⟨⟨[], by decide⟩, fun _ => 0⟩ = some ([0x82, 0x82, 1, 1, 1, 1, 0xC1, 1], _) := rfl
  refine ⟨_, built, atRest_arrives 3 _, fun received => ?_⟩
  have masked : Receives 3 [0xC1, 1] (arrives [0x82, 0x82, 1, 1, 1, 1, 0xC1, 1]) := by
    have observed : (receiveFrame 3 (arrives [0x82, 0x82, 1, 1, 1, 1, 0xC1, 1])).map
        (fun reached => (reached.1, (queuedFrame reached.2.inFrames).map WsFrame.data)) =
          some (tcpsocketComplete, some [0xC1, 1]) := by
      decide +kernel
    rcases Option.map_eq_some_iff.mp observed with ⟨⟨rc, after⟩, received, same⟩
    rw [Prod.mk.injEq] at same
    rcases same with ⟨rfl, same⟩
    rcases Option.map_eq_some_iff.mp same with ⟨frame, queued, same⟩
    exact receives_of_receiveFrame received (inFrames_of_queuedFrame queued) same
  exact absurd (masked.unique received) (by decide)

end MqttClient.WebSocket
