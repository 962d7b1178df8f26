import MqttClient.MQTTPacket.Writers

/-! # `MQTTProperties`

Property lists of MQTT 5, as `MQTTProperties.c` builds, measures and writes them.
Allocation succeeds, and a list takes up less than 2 GiB.
-/

namespace MqttClient

inductive MQTTPropertyType
  | byte
  | twoByteInteger
  | fourByteInteger
  | variableByteInteger
  | binaryData
  | utf8EncodedString
  | utf8StringPair
  deriving DecidableEq, Repr

abbrev mqttInvalidPropertyId : Int := -2

namespace MQTTProperty

def namesToTypes : List (Nat × MQTTPropertyType) :=
  [(1, .byte), (2, .fourByteInteger), (3, .utf8EncodedString), (8, .utf8EncodedString),
    (9, .binaryData), (11, .variableByteInteger), (17, .fourByteInteger),
    (18, .utf8EncodedString), (19, .twoByteInteger), (21, .utf8EncodedString),
    (22, .binaryData), (23, .byte), (24, .fourByteInteger), (25, .byte),
    (26, .utf8EncodedString), (28, .utf8EncodedString), (31, .utf8EncodedString),
    (33, .twoByteInteger), (34, .twoByteInteger), (35, .twoByteInteger), (36, .byte),
    (37, .byte), (38, .utf8StringPair), (39, .fourByteInteger), (40, .byte), (41, .byte),
    (42, .byte)]

/-- `MQTTProperty_getType`; `none` is its -1. -/
def getType (value : Nat) : Option MQTTPropertyType :=
  (namesToTypes.find? fun entry => entry.1 = value).map Prod.snd

/-- The bytes that `MQTTProperty_write` writes, and what it returns. -/
def write (prop : MQTTProperty) : List UInt8 × Int :=
  let value := prop.value
  match getType prop.identifier with
  | none => ([], -1 + 1)
  | some type =>
      let (bytes, rc) : List UInt8 × Int :=
        match type with
        | .byte => (MQTTPacket.writeChar value.byte, 1)
        | .twoByteInteger => (MQTTPacket.writeInt value.integer2.toNat, 2)
        | .fourByteInteger => (MQTTPacket.writeInt4 (toInt value.integer4.toNat), 4)
        | .variableByteInteger =>
            let bytes := MQTTPacket.encode value.integer4.toNat
            (bytes, bytes.length)
        | .binaryData | .utf8EncodedString =>
            (MQTTPacket.writeMQTTLenString value.data, value.data.length + 2)
        | .utf8StringPair =>
            (MQTTPacket.writeMQTTLenString value.data ++ MQTTPacket.writeMQTTLenString value.value,
              value.data.length + value.value.length + 4)
      (MQTTPacket.writeChar (MQTTPacket.toChar prop.identifier) ++ bytes, rc + 1)

end MQTTProperty

namespace MQTTProperties

def len (props : MQTTProperties) : Int := props.length + MQTTPacket.vbiLen props.length

/-- What `MQTTProperties_add` counts for a value. -/
def valueLen (value : PropertyValue) : MQTTPropertyType → Int
  | .byte => 1
  | .twoByteInteger => 2
  | .fourByteInteger => 4
  | .variableByteInteger => MQTTPacket.vbiLen (toInt value.integer4.toNat)
  | .binaryData | .utf8EncodedString => 2 + value.data.length
  | .utf8StringPair => 2 + value.data.length + (2 + value.value.length)

/-- `MQTTProperties_add`; the copied strings hold the bytes of the given ones. -/
def add (props : MQTTProperties) (prop : MQTTProperty) : Int × MQTTProperties :=
  match MQTTProperty.getType prop.identifier with
  | none => (mqttInvalidPropertyId, props)
  | some type =>
      let (maxCount, array) :=
        match props.array with
        | none => (10, [])
        | some array =>
            (if props.count = props.maxCount then props.maxCount + 10 else props.maxCount, array)
      (0, ⟨props.count + 1, maxCount, props.length + (valueLen prop.value type + 1),
        some (array ++ [prop])⟩)

def entries (props : MQTTProperties) : List MQTTProperty := props.array.getD []

def writeLoop : List MQTTProperty → (len : Int) → List UInt8 × Int
  | [], len => ([], len)
  | prop :: props, len =>
      let (bytes, rc) := prop.write
      if rc < 0 then (bytes, rc)
      else
        let (rest, result) := writeLoop props (len + rc)
        (bytes ++ rest, result)

/-- The bytes that `MQTTProperties_write` writes, and what it returns. -/
def write (props : MQTTProperties) : List UInt8 × Int :=
  let (bytes, rc) := writeLoop props.entries 1
  (MQTTPacket.encode props.length.toNat ++ bytes, rc)

/-- `MQTTProperties_copy`, which logs a failing `MQTTProperties_add` and goes on. -/
def copy (props : MQTTProperties) : MQTTProperties :=
  props.entries.foldl (fun result prop => (result.add prop).2) .zero

/-- A length of two bytes can be written in front of the string. -/
def Fits (string : List UInt8) : Prop := string.length ≤ 65535

/-- The identifier is known, and the value can be written in the format of its type. -/
def InRange (prop : MQTTProperty) : Prop :=
  match MQTTProperty.getType prop.identifier with
  | none => False
  | some .variableByteInteger => prop.value.integer4.toNat < 268435456
  | some .binaryData | some .utf8EncodedString => Fits prop.value.data
  | some .utf8StringPair => Fits prop.value.data ∧ Fits prop.value.value
  | some _ => True

inductive Built : MQTTProperties → Prop
  | zero : Built .zero
  | add {props : MQTTProperties} {prop : MQTTProperty} :
      Built props → InRange prop → Built (props.add prop).2

theorem length_encode {value : Nat} (small : value < 268435456) :
    ((MQTTPacket.encode value).length : Int) = MQTTPacket.vbiLen value := by
  have digit {value : Nat} (small : value < 128) : (MQTTPacket.encode value).length = 1 := by
    rw [MQTTPacket.encode, if_neg (by omega), List.length_singleton]
  have more {value : Nat} (large : 128 ≤ value) :
      (MQTTPacket.encode value).length = (MQTTPacket.encode (value / 128)).length + 1 := by
    rw [MQTTPacket.encode, if_pos (by omega), List.length_cons]
  unfold MQTTPacket.vbiLen
  split
  · rw [digit (by omega), Nat.cast_one]
  · rw [more (by omega)]
    split
    · rw [digit (by omega)]
      rfl
    · rw [more (by omega)]
      split
      · rw [digit (by omega)]
        rfl
      · rw [more (by omega), digit (by omega)]
        rfl

theorem length_writeProperty {prop : MQTTProperty} {type : MQTTPropertyType}
    (typed : MQTTProperty.getType prop.identifier = some type) (inRange : InRange prop) :
    (prop.write.1.length : Int) = valueLen prop.value type + 1 ∧
      prop.write.2 = valueLen prop.value type + 1 := by
  rw [InRange, typed] at inRange
  unfold MQTTProperty.write
  rw [typed]
  cases type with
  | byte => exact ⟨rfl, rfl⟩
  | twoByteInteger => exact ⟨rfl, rfl⟩
  | fourByteInteger => exact ⟨rfl, rfl⟩
  | variableByteInteger =>
      have counted := length_encode inRange
      have inInt : toInt prop.value.integer4.toNat = prop.value.integer4.toNat :=
        toInt_of_lt (by omega) (by dsimp only at inRange; omega)
      simp only [MQTTPacket.writeChar, List.length_append, List.length_singleton, valueLen, inInt]
      omega
  | binaryData =>
      simp only [MQTTPacket.writeChar, MQTTPacket.writeMQTTLenString, MQTTPacket.length_writeInt,
        List.length_append, List.length_singleton, valueLen]
      omega
  | utf8EncodedString =>
      simp only [MQTTPacket.writeChar, MQTTPacket.writeMQTTLenString, MQTTPacket.length_writeInt,
        List.length_append, List.length_singleton, valueLen]
      omega
  | utf8StringPair =>
      simp only [MQTTPacket.writeChar, MQTTPacket.writeMQTTLenString, MQTTPacket.length_writeInt,
        List.length_append, List.length_singleton, valueLen]
      omega

theorem entries_add (props : MQTTProperties) {prop : MQTTProperty} {type : MQTTPropertyType}
    (typed : MQTTProperty.getType prop.identifier = some type) :
    (props.add prop).2.entries = props.entries ++ [prop] ∧
      (props.add prop).2.length = props.length + (valueLen prop.value type + 1) := by
  unfold add
  rw [typed]
  rcases props with ⟨count, maxCount, length, array⟩
  cases array <;> exact ⟨rfl, rfl⟩

theorem InRange.typed {prop : MQTTProperty} (inRange : InRange prop) :
    ∃ type, MQTTProperty.getType prop.identifier = some type := by
  rw [InRange] at inRange
  cases typed : MQTTProperty.getType prop.identifier with
  | none => rw [typed] at inRange; exact inRange.elim
  | some type => exact ⟨type, rfl⟩

theorem Built.length_eq {props : MQTTProperties} (built : Built props) :
    props.length = (props.entries.map fun prop => (prop.write.1.length : Int)).sum ∧
      ∀ prop ∈ props.entries, InRange prop := by
  induction built with
  | zero => exact ⟨rfl, fun _ member => (nomatch member)⟩
  | @add props prop built inRange induction =>
      rcases inRange.typed with ⟨type, typed⟩
      rcases props.entries_add typed with ⟨entries, length⟩
      rw [entries, length, induction.1]
      refine ⟨?_, ?_⟩
      · simp [(length_writeProperty typed inRange).1]
      · intro other member
        rcases List.mem_append.mp member with member | member
        · exact induction.2 other member
        · rw [List.mem_singleton.mp member]
          exact inRange

theorem writeLoop_eq {props : List MQTTProperty} (inRange : ∀ prop ∈ props, InRange prop)
    (len : Int) :
    ((writeLoop props len).1.length : Int) =
        (props.map fun prop => (prop.write.1.length : Int)).sum ∧
      (writeLoop props len).2 = len + (writeLoop props len).1.length := by
  induction props generalizing len with
  | nil => exact ⟨rfl, by simp [writeLoop]⟩
  | cons prop props induction =>
      have here := inRange prop (List.mem_cons_self ..)
      rcases here.typed with ⟨type, typed⟩
      rcases length_writeProperty typed here with ⟨bytes, rc⟩
      rcases induction (fun other member => inRange other (List.mem_cons_of_mem _ member))
        (len + prop.write.2) with ⟨sum, result⟩
      have written : ¬prop.write.2 < 0 := by omega
      simp only [writeLoop, if_neg written, List.length_append, List.map_cons, List.sum_cons]
      omega

theorem Built.length_write {props : MQTTProperties} (built : Built props)
    (small : props.length < 268435456) : (props.write.1.length : Int) = props.len := by
  rcases built.length_eq with ⟨length, inRange⟩
  have loop := (writeLoop_eq inRange 1).1
  have nonnegative : 0 ≤ props.length := by omega
  have field := length_encode (show props.length.toNat < 268435456 by omega)
  rw [Int.toNat_of_nonneg nonnegative] at field
  simp only [write, len, List.length_append]
  omega

theorem write_ne_nil (props : MQTTProperties) : props.write.1 ≠ [] := by
  have field := Foundation.VariableByte.encode_ne_nil props.length.toNat
  rw [← MQTTPacket.encode_eq] at field
  exact List.append_ne_nil_of_left_ne_nil field _

end MQTTProperties

end MqttClient
