import MqttClient.Foundation.VariableByte
import MqttClient.TypeDefine

/-! # `MQTTPacket`: writing fields

The functions of `MQTTPacket.c` that write a field behind a pointer, as the bytes
that they write.
-/

namespace MqttClient.MQTTPacket

open Foundation

/-- A value converted to `char`. -/
def toChar (value : Int) : UInt8 := UInt8.ofNat (value % 256).toNat

/-- `MQTTPacket_encode`, which returns the number of bytes it writes. -/
def encode (length : Nat) : List UInt8 :=
  let d := UInt8.ofNat (length % 128)
  if length / 128 > 0 then (d ||| 0x80) :: encode (length / 128) else [d]

def writeChar (c : UInt8) : List UInt8 := [c]

def writeInt (anInt : Int) : List UInt8 := [toChar (anInt.tdiv 256), toChar (anInt.tmod 256)]

def writeInt4 (anInt : Int) : List UInt8 :=
  let second := anInt.tmod 16777216
  let third := second.tmod 65536
  [toChar (anInt.tdiv 16777216), toChar (second.tdiv 65536), toChar (third.tdiv 256),
    toChar (third.tmod 256)]

def writeUTF (string : CString) : List UInt8 :=
  writeInt (toInt string.bytes.length) ++ string.bytes

def writeData (data : List UInt8) : List UInt8 := writeInt data.length ++ data

/-- `writeMQTTLenString`; the string covers the bytes of its length. -/
def writeMQTTLenString (lenstring : List UInt8) : List UInt8 :=
  writeInt lenstring.length ++ lenstring

def vbiLen (remLen : Int) : Int :=
  if remLen < 128 then 1
  else if remLen < 16384 then 2
  else if remLen < 2097152 then 3
  else 4

@[simp] theorem length_writeInt (anInt : Int) : (writeInt anInt).length = 2 := rfl

private theorem digit_or (digit : Fin 128) :
    UInt8.ofNat digit.val ||| 0x80 = UInt8.ofNat (digit.val + 128) := by
  revert digit
  decide

theorem encode_eq (length : Nat) : encode length = VariableByte.encode length := by
  induction length using Nat.strongRecOn with
  | ind length induction =>
  rw [encode, VariableByte.encode]
  by_cases small : length < 128
  · rw [if_neg (by omega), if_pos small, Nat.mod_eq_of_lt small]
  · rw [if_pos (by omega), if_neg small, induction (length / 128) (by omega)]
    exact congrArg (fun digit => digit :: _) (digit_or ⟨length % 128, Nat.mod_lt _ (by decide)⟩)

theorem toNat_toChar {value : Int} (nonnegative : 0 ≤ value) (small : value < 256) :
    ((toChar value).toNat : Int) = value := by
  rw [toChar, UInt8.toNat_ofNat']
  omega

end MqttClient.MQTTPacket
