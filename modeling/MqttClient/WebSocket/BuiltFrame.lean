import MqttClient.WebSocket.Send

/-! # `WebSocket`: the frame that is sent

`WebSocket_buildFrame` makes a masked frame of the WebSocket protocol.
-/

namespace MqttClient.WebSocket

open Foundation

section Buffers

variable {stream : Nat → UInt8} {count i idx : Nat} {buffers : List (List UInt8)}

def originalBuffers (newMask : Bool) (stream : Nat → UInt8) (count : Nat) :
    (i idx : Nat) → List (List UInt8) → List (List UInt8)
  | _, _, [] => []
  | i, idx, buffer :: buffers =>
      if newMask = false ∧ (i = 2 ∨ i + 1 = count) then
        maskBuffers true stream count i idx (buffer :: buffers)
      else buffer :: originalBuffers newMask stream count (i + 1) (idx + buffer.length) buffers

theorem flatten_maskBuffers_new :
    (maskBuffers true stream count i idx buffers).flatten = mask stream idx buffers.flatten := by
  induction buffers generalizing i idx with
  | nil => rfl
  | cons buffer buffers induction =>
      rw [maskBuffers, if_neg (fun both => Bool.noConfusion both.1), List.flatten_cons, induction,
        List.flatten_cons, mask_append]

theorem flatten_maskBuffers (newMask : Bool) :
    (maskBuffers newMask stream count i idx buffers).flatten =
      mask stream idx (originalBuffers newMask stream count i idx buffers).flatten := by
  induction buffers generalizing i idx with
  | nil => rfl
  | cons buffer buffers induction =>
      rw [maskBuffers, originalBuffers]
      split
      · rw [flatten_maskBuffers_new, mask_mask]
      · rw [List.flatten_cons, induction, List.flatten_cons, mask_append]

theorem length_flatten_maskBuffers (newMask : Bool) :
    (maskBuffers newMask stream count i idx buffers).flatten.length =
      buffers.flatten.length := by
  induction buffers generalizing i idx with
  | nil => rfl
  | cons buffer buffers induction =>
      rw [maskBuffers]
      split
      · rfl
      · rw [List.flatten_cons, List.length_append, length_mask, induction, List.flatten_cons,
          List.length_append]

end Buffers

/-! ## The header -/

theorem final_opcode (opcode : Fin 16) :
    (0x80 : UInt8) ||| UInt8.ofNat opcode = UInt8.ofNat (128 + opcode) := by
  revert opcode
  decide

theorem masked_code (code : Fin 128) :
    (0x80 : UInt8) ||| UInt8.ofNat code = UInt8.ofNat (128 + code) := by
  revert code
  decide

theorem lengthBytes_eq (length : Nat) :
    lengthBytes true length =
      UInt8.ofNat (128 + WebSocketFrame.lengthCode length) ::
        WebSocketFrame.extendedLength length := by
  unfold lengthBytes WebSocketFrame.lengthCode WebSocketFrame.extendedLength
  by_cases tiny : length < 126
  · rw [if_pos tiny, if_pos tiny, if_pos tiny, if_pos rfl]
    exact congrArg (fun byte => [byte]) (masked_code ⟨length, by omega⟩)
  · rw [if_neg tiny, if_neg tiny, if_neg tiny]
    split
    · rfl
    · rfl

theorem frameHeader_eq (opcode : Fin 16) (key : Fin 4 → UInt8) (payload : List UInt8) :
    frameHeader opcode payload.length key =
      (⟨true, opcode, some key, payload⟩ : WebSocketFrame).header := by
  rw [frameHeader, final_opcode, lengthBytes_eq]
  rfl

theorem length_frameHeader (opcode : Fin 16) (key : Fin 4 → UInt8) {length : Nat}
    (fits : length < 0xFFFFFFFFFFFFFFFF) :
    (frameHeader opcode length key).length = calculateFrameHeaderSize true length := by
  rw [frameHeader, lengthBytes_eq, List.length_append, List.length_cons, List.length_cons,
    WebSocketFrame.length_extendedLength, calculateFrameHeaderSize, if_pos rfl]
  by_cases tiny : length < 126
  · rw [if_pos tiny, if_pos tiny]
    rfl
  · rw [if_neg tiny, if_neg tiny]
    by_cases medium : length < 65536
    · rw [if_pos medium, if_pos medium]
      rfl
    · rw [if_neg medium, if_neg medium, if_pos fits]
      rfl

/-! ## The frame -/

section Frame

variable {rand : Nat → Nat} {opcode : Fin 16} {buf0 : List UInt8} {bufs : MaskedBuffers}
  {wsdata : List UInt8 × MaskedBuffers}

def original (rand : Nat → Nat) (buf0 : List UInt8) (bufs : MaskedBuffers) : List UInt8 :=
  buf0 ++ (originalBuffers (decide (bufs.mask 0 = 0))
    (WebSocketFrame.keyStream (maskingKey rand bufs)) bufs.buffers.length 0
    (maskedLength buf0 bufs) bufs.buffers).flatten

theorem maskedLength_le : maskedLength buf0 bufs ≤ buf0.length := by
  have small : calculateFrameHeaderSize true (dataLength buf0 bufs) ≤ 14 := by
    unfold calculateFrameHeaderSize
    split
    · decide
    · split
      · decide
      · split <;> decide
  rw [maskedLength]
  unfold toInt
  omega

def sentPayload (rand : Nat → Nat) (buf0 : List UInt8) (bufs : MaskedBuffers) : List UInt8 :=
  let stream := WebSocketFrame.keyStream (maskingKey rand bufs)
  let idx := maskedLength buf0 bufs
  mask stream 0 (buf0.take idx) ++ (buf0.drop idx ++
    (maskBuffers (decide (bufs.mask 0 = 0)) stream bufs.buffers.length 0 idx bufs.buffers).flatten)

def sentFrame (rand : Nat → Nat) (opcode : Fin 16) (buf0 : List UInt8) (bufs : MaskedBuffers) :
    WebSocketFrame :=
  ⟨true, opcode, some (maskingKey rand bufs),
    mask (WebSocketFrame.keyStream (maskingKey rand bufs)) 0 (sentPayload rand buf0 bufs)⟩

theorem masked_sentFrame :
    (sentFrame rand opcode buf0 bufs).masked = sentPayload rand buf0 bufs := by
  rw [sentFrame, WebSocketFrame.masked]
  dsimp only
  rw [mask_mask]

theorem length_sentPayload :
    (sentPayload rand buf0 bufs).length = dataLength buf0 bufs := by
  have split := congrArg List.length (List.take_append_drop (maskedLength buf0 bufs) buf0)
  rw [List.length_append] at split
  rw [sentPayload, dataLength, List.length_append, List.length_append, length_mask,
    length_flatten_maskBuffers, List.length_flatten]
  omega

theorem length_sentFrame (rand : Nat → Nat) (opcode : Fin 16) (buf0 : List UInt8)
    (bufs : MaskedBuffers) :
    (sentFrame rand opcode buf0 bufs).payload.length = dataLength buf0 bufs := by
  rw [sentFrame, length_mask, length_sentPayload]

theorem payload_sentFrame (whole : maskedLength buf0 bufs = buf0.length) :
    (sentFrame rand opcode buf0 bufs).payload = original rand buf0 bufs := by
  rw [sentFrame, sentPayload, original, flatten_maskBuffers, whole]
  dsimp only
  rw [List.take_length, List.drop_length, List.nil_append, mask_append, mask_mask, length_mask,
    Nat.zero_add, mask_mask]

theorem buildFrame_encode (built : buildFrame rand opcode buf0 bufs = some wsdata) :
    dataLength buf0 bufs < 0xFFFFFFFFFFFFFFFF ∧
      (wsdata.1 :: wsdata.2.buffers).flatten = (sentFrame rand opcode buf0 bufs).encode := by
  rcases Option.ite_none_right_eq_some.mp built with ⟨fits, made⟩
  refine ⟨fits, ?_⟩
  rw [← Option.some.inj made, List.flatten_cons, WebSocketFrame.encode, masked_sentFrame, sentFrame,
    ← frameHeader_eq, length_mask, length_sentPayload, sentPayload, List.append_assoc,
    List.append_assoc]

theorem sentPayload_eq_original_iff :
    sentPayload rand buf0 bufs = original rand buf0 bufs ↔
      ∀ i < maskedLength buf0 bufs + (bufs.buffers.map List.length).sum,
        WebSocketFrame.keyStream (maskingKey rand bufs) i = 0 := by
  have inside : (buf0.take (maskedLength buf0 bufs)).length = maskedLength buf0 bufs := by
    rw [List.length_take, min_eq_left maskedLength_le]
  have whole : original rand buf0 bufs = buf0.take (maskedLength buf0 bufs) ++
      (buf0.drop (maskedLength buf0 bufs) ++
        (originalBuffers (decide (bufs.mask 0 = 0))
          (WebSocketFrame.keyStream (maskingKey rand bufs)) bufs.buffers.length 0
          (maskedLength buf0 bufs) bufs.buffers).flatten) := by
    rw [← List.append_assoc, List.take_append_drop, original]
  have parts := mask_parts_eq_iff (WebSocketFrame.keyStream (maskingKey rand bufs))
    (buf0.take (maskedLength buf0 bufs)) (buf0.drop (maskedLength buf0 bufs))
    (originalBuffers (decide (bufs.mask 0 = 0))
      (WebSocketFrame.keyStream (maskingKey rand bufs)) bufs.buffers.length 0
      (maskedLength buf0 bufs) bufs.buffers).flatten
  have lengths : (originalBuffers (decide (bufs.mask 0 = 0))
      (WebSocketFrame.keyStream (maskingKey rand bufs)) bufs.buffers.length 0
      (maskedLength buf0 bufs) bufs.buffers).flatten.length =
        (bufs.buffers.map List.length).sum := by
    rw [← List.length_flatten, ← length_mask, ← flatten_maskBuffers, length_flatten_maskBuffers]
  rw [inside, lengths] at parts
  rw [whole, sentPayload, flatten_maskBuffers]
  exact parts

end Frame

end MqttClient.WebSocket
