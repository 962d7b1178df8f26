import Mathlib.Algebra.GroupWithZero.Nat
import Mathlib.Data.List.Basic
import Mathlib.Data.List.TakeWhile
import Mathlib.Tactic.Common

/-! # `TypeDefine`

The constants and records of `TypeDefine.h` and `Socket.h` that the modelled
functions read and write.
-/

namespace MqttClient

abbrev SOCKET := Int

/-! ## Return codes -/

abbrev tcpsocketComplete : Int := 0
abbrev socketError : Int := -1
abbrev tcpsocketInterrupted : Int := -22

abbrev mqttclientSuccess : Int := 0
abbrev mqttclientFailure : Int := -1
abbrev mqttclientMaxMessagesInflight : Int := -4

abbrev maxMsgId : Int := 65535

/-- A value converted to the 32-bit `int`. -/
def toInt (value : Int) : Int := (value + 2147483648) % 4294967296 - 2147483648

theorem toInt_of_lt {value : Int} (nonnegative : 0 ≤ value) (small : value < 2147483648) :
    toInt value = value := by
  unfold toInt
  omega

theorem toInt_eq_self_iff {value : Int} :
    toInt value = value ↔ -2147483648 ≤ value ∧ value < 2147483648 := by
  unfold toInt
  omega

/-! ## C strings -/

/-- The bytes of a C string in front of its terminator. -/
def CString := { bytes : List UInt8 // 0 ∉ bytes }

namespace CString

instance : DecidableEq CString := inferInstanceAs (DecidableEq { bytes : List UInt8 // 0 ∉ bytes })

def bytes (string : CString) : List UInt8 := string.val

/-- What `strlen` and `strcpy` see of a block: the bytes before the first NUL. -/
def ofBlock (block : List UInt8) : CString :=
  ⟨block.takeWhile (· != 0), fun member => by
    simpa using (List.mem_takeWhile_imp member)⟩

def strlen (block : List UInt8) : Nat := (ofBlock block).bytes.length

theorem ofBlock_of_notMem {block : List UInt8} (noNul : 0 ∉ block) :
    (ofBlock block).bytes = block := by
  refine List.takeWhile_eq_self_iff.mpr fun byte member => ?_
  simp only [bne_iff_ne, ne_eq]
  exact fun equal => noNul (equal ▸ member)

@[simp] theorem ofBlock_bytes (string : CString) :
    (ofBlock string.bytes).bytes = string.bytes :=
  ofBlock_of_notMem string.property

end CString

/-! ## Message types -/

namespace MsgType

abbrev connect : Nat := 1
abbrev connack : Nat := 2
abbrev publish : Nat := 3
abbrev puback : Nat := 4
abbrev pubrec : Nat := 5
abbrev pubrel : Nat := 6
abbrev pubcomp : Nat := 7
abbrev subscribe : Nat := 8
abbrev suback : Nat := 9
abbrev disconnect : Nat := 14
abbrev auth : Nat := 15

end MsgType

/-- The union `Header`: a byte, and its bit fields from the lowest bit up. -/
structure Header where
  byte : UInt8
  deriving DecidableEq, Repr

namespace Header

def retain (header : Header) : Nat := header.byte.toNat % 2
def qos (header : Header) : Nat := header.byte.toNat / 2 % 4
def dup (header : Header) : Nat := header.byte.toNat / 8 % 2
def type (header : Header) : Nat := header.byte.toNat / 16

def ofBits (type : Nat) (dup qos retain : Int) : Header :=
  ⟨UInt8.ofNat ((retain % 2).toNat + 2 * (qos % 4).toNat + 8 * (dup % 2).toNat +
    16 * (type % 16))⟩

theorem byte_ofBits (type : Nat) (dup qos retain : Int) :
    (ofBits type dup qos retain).byte.toNat =
      (retain % 2).toNat + 2 * (qos % 4).toNat + 8 * (dup % 2).toNat + 16 * (type % 16) := by
  unfold ofBits
  rw [UInt8.toNat_ofNat']
  omega

@[simp] theorem retain_ofBits (type : Nat) (dup qos retain : Int) :
    (ofBits type dup qos retain).retain = (retain % 2).toNat := by
  rw [Header.retain, byte_ofBits]
  omega

@[simp] theorem qos_ofBits (type : Nat) (dup qos retain : Int) :
    (ofBits type dup qos retain).qos = (qos % 4).toNat := by
  rw [Header.qos, byte_ofBits]
  omega

@[simp] theorem dup_ofBits (type : Nat) (dup qos retain : Int) :
    (ofBits type dup qos retain).dup = (dup % 2).toNat := by
  rw [Header.dup, byte_ofBits]
  omega

@[simp] theorem type_ofBits (type : Nat) (dup qos retain : Int) :
    (ofBits type dup qos retain).type = type % 16 := by
  rw [Header.type, byte_ofBits]
  omega

theorem type_lt (header : Header) : header.type < 16 := by
  have bound := header.byte.toNat_lt
  unfold type
  omega

end Header

/-! ## MQTT 5 properties -/

/-- The members of the union in `MQTTProperty`; the property's type says which
of them is in use. A string is the bytes it points to. -/
structure PropertyValue where
  byte : UInt8 := 0
  integer2 : UInt16 := 0
  integer4 : UInt32 := 0
  data : List UInt8 := []
  value : List UInt8 := []
  deriving DecidableEq, Repr

structure MQTTProperty where
  identifier : Nat
  value : PropertyValue
  deriving DecidableEq, Repr

/-- `MQTTProperties`; `array` holds the first `count` entries, NULL as `none`. -/
structure MQTTProperties where
  count : Nat
  maxCount : Nat
  length : Int
  array : Option (List MQTTProperty)
  deriving DecidableEq, Repr

def MQTTProperties.zero : MQTTProperties := ⟨0, 0, 0, none⟩

/-! ## Packets -/

/-- `Publish`. The websocket mask is left out: it stays zero on a plain socket. -/
structure Publish where
  header : Header
  topic : List UInt8
  topiclen : Int
  msgId : Int
  payload : List UInt8
  payloadlen : Int
  mqttVersion : Int
  properties : MQTTProperties
  deriving DecidableEq, Repr

/-- The fields of a `Connack` that the parser assigns. -/
structure Connack where
  header : Header
  flags : UInt8
  rc : UInt8
  mqttVersion : Int
  deriving DecidableEq, Repr

/-- The fields of an `Ack` that the parser assigns; it leaves `msgId` unset in a
DISCONNECT. -/
structure Ack where
  header : Header
  msgId : Option Int
  mqttVersion : Int
  deriving DecidableEq, Repr

/-- The fields of a `Suback` that the parser assigns. -/
structure Suback where
  header : Header
  msgId : Int
  mqttVersion : Int
  qoss : List UInt32
  deriving DecidableEq, Repr

inductive Packet
  | connack (pack : Connack)
  | publish (pack : Publish)
  | ack (pack : Ack)
  | suback (pack : Suback)
  deriving DecidableEq, Repr

def Packet.header : Packet → Header
  | .connack pack => pack.header
  | .publish pack => pack.header
  | .ack pack => pack.header
  | .suback pack => pack.header

def Packet.Typed : Packet → Prop
  | .connack pack => pack.header.type = MsgType.connack
  | .publish pack => pack.header.type = MsgType.publish
  | .ack pack => pack.header.type ≠ MsgType.connack ∧ pack.header.type ≠ MsgType.publish ∧
      pack.header.type ≠ MsgType.suback
  | .suback pack => pack.header.type = MsgType.suback

end MqttClient
