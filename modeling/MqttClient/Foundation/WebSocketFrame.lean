import MqttClient.Foundation.Masking
import MqttClient.Foundation.NetworkOrder

/-! # WebSocket frames

The frames of the WebSocket protocol as bytes: a header of two bytes, a longer length
where it is needed, the masking key of a masked frame, and the payload.
-/

namespace MqttClient.Foundation

/-! ## Frames -/

instance neZero_keyLength : NeZero 4 := ⟨by decide⟩

/-- A frame, with the payload as it is before it is masked. -/
structure WebSocketFrame where
  fin : Bool
  opcode : Fin 16
  key : Option (Fin 4 → UInt8)
  payload : List UInt8

namespace WebSocketFrame

def keyStream (key : Fin 4 → UInt8) (index : Nat) : UInt8 :=
  key ⟨index % 4, Nat.mod_lt index (by decide)⟩

def lengthCode (length : Nat) : Nat :=
  if length < 126 then length else if length < 65536 then 126 else 127

def extendedLength (length : Nat) : List UInt8 :=
  if length < 126 then [] else if length < 65536 then bigEndian 2 length else bigEndian 8 length

def firstByte (frame : WebSocketFrame) : UInt8 :=
  UInt8.ofNat ((if frame.fin then 128 else 0) + frame.opcode)

def secondByte (frame : WebSocketFrame) : UInt8 :=
  UInt8.ofNat ((if frame.key.isSome then 128 else 0) + lengthCode frame.payload.length)

def keyBytes (frame : WebSocketFrame) : List UInt8 :=
  match frame.key with
  | none => []
  | some key => [key 0, key 1, key 2, key 3]

def masked (frame : WebSocketFrame) : List UInt8 :=
  match frame.key with
  | none => frame.payload
  | some key => mask (keyStream key) 0 frame.payload

def header (frame : WebSocketFrame) : List UInt8 :=
  frame.firstByte :: frame.secondByte :: (extendedLength frame.payload.length ++ frame.keyBytes)

def encode (frame : WebSocketFrame) : List UInt8 := frame.header ++ frame.masked

def encodeAll (frames : List WebSocketFrame) : List UInt8 := (frames.map encode).flatten

section Bytes

variable {frame : WebSocketFrame}

theorem toNat_firstByte :
    frame.firstByte.toNat = (if frame.fin then 128 else 0) + frame.opcode := by
  have bound := frame.opcode.isLt
  rw [firstByte, UInt8.toNat_ofNat']
  split <;> omega

theorem lengthCode_lt (length : Nat) : lengthCode length < 128 := by
  unfold lengthCode
  split
  · omega
  · split <;> decide

theorem toNat_secondByte : frame.secondByte.toNat =
    (if frame.key.isSome then 128 else 0) + lengthCode frame.payload.length := by
  have bound := lengthCode_lt frame.payload.length
  rw [secondByte, UInt8.toNat_ofNat']
  split <;> omega

@[simp] theorem length_masked : frame.masked.length = frame.payload.length := by
  unfold masked
  split
  · rfl
  · rw [length_mask]

theorem length_keyBytes :
    frame.keyBytes.length = if frame.key.isSome then 4 else 0 := by
  unfold keyBytes
  split
  all_goals
    rename_i key
    rw [key]
    rfl

theorem length_extendedLength (length : Nat) :
    (extendedLength length).length =
      if length < 126 then 0 else if length < 65536 then 2 else 8 := by
  unfold extendedLength
  split
  · rfl
  · split
    · exact length_bigEndian ..
    · exact length_bigEndian ..

theorem length_header (frame : WebSocketFrame) :
    2 ≤ frame.header.length ∧ frame.header.length ≤ 14 := by
  rw [header, List.length_cons, List.length_cons, List.length_append, length_extendedLength,
    length_keyBytes]
  have extended : (if frame.payload.length < 126 then 0
      else if frame.payload.length < 65536 then 2 else 8) ≤ 8 := by
    split
    · decide
    · split <;> decide
  have key : (if frame.key.isSome then 4 else 0) ≤ 4 := by
    split <;> decide
  omega

theorem length_encode (frame : WebSocketFrame) :
    frame.encode.length = frame.header.length + frame.payload.length := by
  rw [encode, List.length_append, length_masked]

theorem encodeAll_cons (frame : WebSocketFrame) (frames : List WebSocketFrame) :
    encodeAll (frame :: frames) = frame.encode ++ encodeAll frames := rfl

end Bytes

end WebSocketFrame

end MqttClient.Foundation
