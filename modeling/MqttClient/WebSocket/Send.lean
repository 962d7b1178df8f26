import MqttClient.Foundation.WebSocketFrame
import MqttClient.Socket.Handover

/-! # `WebSocket`: sending

The functions of `WebSocket.c` that put buffers into a masked frame and hand it to the
socket, on a connection with `net->websocket` set. Allocation succeeds.
-/

namespace MqttClient.WebSocket

open Foundation

abbrev opContinue : Nat := 0
abbrev opText : Nat := 1
abbrev opBinary : Nat := 2
abbrev opClose : Nat := 8
abbrev opPing : Nat := 9
abbrev opPong : Nat := 10

theorem opContinue_lt : opContinue < 16 := by decide

theorem opBinary_lt : opBinary < 16 := by decide

theorem opPing_lt : opPing < 16 := by decide

abbrev closeGoingAway : Nat := 1001

/-- `PacketBuffers` with the mask, which is all zero if there is none. -/
structure MaskedBuffers extends PacketBuffers where
  mask : Fin 4 → UInt8

def calculateFrameHeaderSize (maskData : Bool) (dataLen : Nat) : Nat :=
  (if dataLen < 126 then 2 else if dataLen < 65536 then 4
    else if dataLen < 0xFFFFFFFFFFFFFFFF then 10 else 0) + if maskData then 4 else 0

def lengthBytes (maskData : Bool) (dataLen : Nat) : List UInt8 :=
  let bit : UInt8 := if maskData then 0x80 else 0
  if dataLen < 126 then [bit ||| UInt8.ofNat dataLen]
  else if dataLen < 65536 then (bit ||| 126) :: bigEndian 2 dataLen
  else (bit ||| 127) :: bigEndian 8 dataLen

/-- The loop over the variable buffers, from the buffer `i` on. With a mask that was there
before, the third buffer and the last one are masked already, and it breaks at the first of
them. -/
def maskBuffers (newMask : Bool) (stream : Nat → UInt8) (count : Nat) :
    (i idx : Nat) → List (List UInt8) → List (List UInt8)
  | _, _, [] => []
  | i, idx, buffer :: buffers =>
      if newMask = false ∧ (i = 2 ∨ i + 1 = count) then buffer :: buffers
      else mask stream idx buffer ::
        maskBuffers newMask stream count (i + 1) (idx + buffer.length) buffers

@[simp] theorem length_maskBuffers (newMask : Bool) (stream : Nat → UInt8) (count i idx : Nat)
    (buffers : List (List UInt8)) :
    (maskBuffers newMask stream count i idx buffers).length = buffers.length := by
  induction buffers generalizing i idx with
  | nil => rfl
  | cons buffer buffers induction =>
      rw [maskBuffers]
      split
      · rfl
      · rw [List.length_cons, List.length_cons, induction]

def maskingKey (rand : Nat → Nat) (bufs : MaskedBuffers) : Fin 4 → UInt8 :=
  if bufs.mask 0 = 0 then fun i => UInt8.ofNat (rand i % 255) else bufs.mask

/-- `data_len`: the length of the buffers together. -/
def dataLength (buf0 : List UInt8) (bufs : MaskedBuffers) : Nat :=
  buf0.length + (bufs.buffers.map List.length).sum

/-- How many bytes of the first buffer are masked. Both ends of the loop over it are converted
to `int`. -/
def maskedLength (buf0 : List UInt8) (bufs : MaskedBuffers) : Nat :=
  let headerSize := calculateFrameHeaderSize true (dataLength buf0 bufs)
  (toInt (headerSize + buf0.length) - toInt headerSize).toNat

def frameHeader (opcode : Fin 16) (dataLen : Nat) (key : Fin 4 → UInt8) : List UInt8 :=
  (0x80 ||| UInt8.ofNat opcode) :: lengthBytes true dataLen ++ [key 0, key 1, key 2, key 3]

/-- `WebSocket_buildFrame` with `mask_data` set: the first buffer, in front of which there is
the header, and the others. The empty list is also a `*pbuf0` that is NULL. `none` when the
length does not fit into a header: then it writes in front of the block. -/
def buildFrame (rand : Nat → Nat) (opcode : Fin 16) (buf0 : List UInt8) (bufs : MaskedBuffers) :
    Option (List UInt8 × MaskedBuffers) :=
  if dataLength buf0 bufs < 0xFFFFFFFFFFFFFFFF then
    let newMask := decide (bufs.mask 0 = 0)
    let key := maskingKey rand bufs
    let stream := WebSocketFrame.keyStream key
    let idx := maskedLength buf0 bufs
    some (frameHeader opcode (dataLength buf0 bufs) key ++
        (mask stream 0 (buf0.take idx) ++ buf0.drop idx),
      { buffers := maskBuffers newMask stream bufs.buffers.length 0 idx bufs.buffers
        count_le := by rw [length_maskBuffers]; exact bufs.count_le
        mask := key })
  else none

def unmaskData (idx : Nat) (bufs : MaskedBuffers) : MaskedBuffers where
  buffers := maskBuffers true (WebSocketFrame.keyStream bufs.mask) bufs.buffers.length 0 idx
    bufs.buffers
  count_le := by rw [length_maskBuffers]; exact bufs.count_le
  mask _ := 0

def putdatas (socket : SOCKET) (rand : Nat → Nat) (buf0 : List UInt8) (bufs : MaskedBuffers)
    (state : SocketWrites) : Option (Int × MaskedBuffers × SocketWrites) :=
  (buildFrame rand ⟨opBinary, by decide⟩ buf0 bufs).map fun wsdata =>
    let sent := Socket.putdatas socket wsdata.1 wsdata.2.toPacketBuffers state
    (sent.1, if sent.1 ≠ tcpsocketInterrupted then unmaskData buf0.length wsdata.2 else wsdata.2,
      sent.2)

theorem length_single_le (buffer : List UInt8) : [buffer].length ≤ 4 := by simp

/-- `WebSocket_pong`, which does not look at how `Socket_putdatas` ends. -/
def pong (socket : SOCKET) (rand : Nat → Nat) (appData : List UInt8) (state : SocketWrites) :
    Option SocketWrites :=
  (buildFrame rand ⟨opPong, by decide⟩ []
    ⟨⟨[appData], length_single_le appData⟩, fun _ => 0⟩).map fun fd =>
    (Socket.putdatas socket fd.1 fd.2.toPacketBuffers state).2

/-- What `WebSocket_close` sends, without a reason. -/
def sendClose (socket : SOCKET) (rand : Nat → Nat) (statusCode : Nat) (state : SocketWrites) :
    Option SocketWrites :=
  (buildFrame rand ⟨opClose, by decide⟩ (bigEndian 2 statusCode)
    ⟨⟨[], by simp⟩, fun _ => 0⟩).map fun fd =>
      (Socket.putdatas socket fd.1 ⟨[], by simp⟩ state).2

end MqttClient.WebSocket
