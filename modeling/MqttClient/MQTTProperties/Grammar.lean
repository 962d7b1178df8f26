import MqttClient.MQTTPacket.Send
import MqttClient.MQTTPacket.WrittenFields
import MqttClient.MQTTProperties.Storage

/-! # `MQTTProperties`: the bytes of a list

How long a property list is and what it says, by the format that MQTT 5 gives it, and
when the bytes that `MQTTProperties_write` writes are in it.
-/

namespace MqttClient

open Foundation Reader MQTTProperties

/-! ## The format -/

inductive PropertyField
  | byte (value : UInt8)
  | twoByteInteger (value : Nat)
  | fourByteInteger (value : Nat)
  | variableByteInteger (value : Nat)
  | binaryData (data : List UInt8)
  | utf8EncodedString (string : List UInt8)
  | utf8StringPair (name value : List UInt8)
  deriving DecidableEq, Repr

namespace PropertyField

def typeOf (identifier : Nat) : Option MQTTPropertyType :=
  if identifier ∈ [1, 23, 25, 36, 37, 40, 41, 42] then some .byte
  else if identifier ∈ [19, 33, 34, 35] then some .twoByteInteger
  else if identifier ∈ [2, 17, 24, 39] then some .fourByteInteger
  else if identifier = 11 then some .variableByteInteger
  else if identifier ∈ [9, 22] then some .binaryData
  else if identifier ∈ [3, 8, 18, 21, 26, 28, 31] then some .utf8EncodedString
  else if identifier = 38 then some .utf8StringPair
  else none

def value : MQTTPropertyType → Reader PropertyField
  | .byte => .byte <$> Reader.byte
  | .twoByteInteger => .twoByteInteger <$> number 2
  | .fourByteInteger => .fourByteInteger <$> number 4
  | .variableByteInteger => .variableByteInteger <$> numeral 4
  | .binaryData => .binaryData <$> prefixed
  | .utf8EncodedString => .utf8EncodedString <$> prefixed
  | .utf8StringPair => prefixed >>= fun name => .utf8StringPair name <$> prefixed

def property : Reader (Nat × PropertyField) := do
  let identifier ← numeral 4
  let type ← ofOption (typeOf identifier)
  let field ← value type
  return (identifier, field)

def list : Reader (List (Nat × PropertyField)) := numeral 4 >>= fun length =>
  block length (items property)

end PropertyField

def PropertyValue.field (value : PropertyValue) : MQTTPropertyType → PropertyField
  | .byte => .byte value.byte
  | .twoByteInteger => .twoByteInteger value.integer2.toNat
  | .fourByteInteger => .fourByteInteger value.integer4.toNat
  | .variableByteInteger => .variableByteInteger value.integer4.toNat
  | .binaryData => .binaryData value.data
  | .utf8EncodedString => .utf8EncodedString value.data
  | .utf8StringPair => .utf8StringPair value.data value.value

def PropertyValue.width (value : PropertyValue) : MQTTPropertyType → Nat
  | .byte => 1
  | .twoByteInteger => 2
  | .fourByteInteger => 4
  | .variableByteInteger => (VariableByte.encode value.integer4.toNat).length
  | .binaryData | .utf8EncodedString => 2 + value.data.length
  | .utf8StringPair => 2 + value.data.length + (2 + value.value.length)

namespace MQTTProperty

def contents (prop : MQTTProperty) : Option (Nat × PropertyField) :=
  (getType prop.identifier).map fun type => (prop.identifier, prop.value.field type)

def width (prop : MQTTProperty) : Nat :=
  match getType prop.identifier with
  | none => 0
  | some type => 1 + prop.value.width type

/-- A variable byte integer has no more than four bytes. -/
def Narrow (prop : MQTTProperty) : Prop :=
  getType prop.identifier = some .variableByteInteger → prop.value.integer4.toNat ≤ 268435455

/-- An integer of four bytes is one that the signed arithmetic of `writeInt4` gets right. -/
def Exact (prop : MQTTProperty) : Prop :=
  getType prop.identifier = some .fourByteInteger →
    prop.value.integer4.toNat < 2147483648 ∨ prop.value.integer4.toNat % 16777216 = 0

/-! ## The table of the types -/

theorem getType_eq (identifier : Nat) : getType identifier = PropertyField.typeOf identifier := by
  rcases Nat.lt_or_ge identifier 43 with small | large
  · have table : ∀ known : Fin 43, getType known = PropertyField.typeOf known := by decide
    exact table ⟨identifier, small⟩
  · have absent (known : List Nat) (bounded : ∀ other ∈ known, other < 43) :
        identifier ∉ known := fun member => Nat.not_le_of_lt (bounded identifier member) large
    have listed : ∀ entry ∈ namesToTypes, entry.1 < 43 := by decide
    have none : getType identifier = none := by
      rw [getType, Option.map_eq_none_iff, List.find?_eq_none]
      intro entry member same
      have bound := listed entry member
      simp only [decide_eq_true_eq] at same
      omega
    rw [none, PropertyField.typeOf, if_neg (absent _ (by decide)), if_neg (absent _ (by decide)),
      if_neg (absent _ (by decide)), if_neg (by omega), if_neg (absent _ (by decide)),
      if_neg (absent _ (by decide)), if_neg (by omega)]

theorem identifier_lt {prop : MQTTProperty} {type : MQTTPropertyType}
    (typed : getType prop.identifier = some type) : prop.identifier < 43 := by
  rw [getType, Option.map_eq_some_iff] at typed
  rcases typed with ⟨entry, found, _⟩
  have listed : ∀ entry ∈ namesToTypes, entry.1 < 43 := by decide
  have same := List.find?_some found
  have bound := listed entry (List.mem_of_find?_eq_some found)
  simp only [decide_eq_true_eq] at same
  omega

/-! ## Lengths -/

theorem length_write (prop : MQTTProperty) : prop.write.1.length = prop.width := by
  unfold write width
  cases getType prop.identifier with
  | none => rfl
  | some type =>
      cases type with
      | byte => rfl
      | twoByteInteger => rfl
      | fourByteInteger => rfl
      | variableByteInteger =>
          simp only [MQTTPacket.encode_eq, MQTTPacket.writeChar, List.length_append,
            List.length_singleton, PropertyValue.width]
      | _ =>
          simp only [MQTTPacket.writeMQTTLenString, MQTTPacket.writeChar, List.length_append,
            List.length_singleton, MQTTPacket.length_writeInt, PropertyValue.width]

theorem write_nonneg {prop : MQTTProperty} (known : MQTTPropertyArray.Known prop) :
    ¬prop.write.2 < 0 := by
  rcases Option.isSome_iff_exists.mp known with ⟨type, typed⟩
  unfold write
  rw [typed]
  cases type <;> simp only <;> omega

theorem vbiLen_le {value : Nat} (bound : value < 4294967296) :
    MQTTPacket.vbiLen (toInt value) ≤ (VariableByte.encode value).length ∧
      (MQTTPacket.vbiLen (toInt value) = (VariableByte.encode value).length ↔
        value ≤ 268435455) := by
  rcases Nat.lt_or_ge value 268435456 with small | large
  · have counted := MQTTProperties.length_encode small
    rw [MQTTPacket.encode_eq] at counted
    rw [toInt_of_lt (by omega) (by omega), counted]
    exact ⟨Int.le_refl _, fun _ => by omega, fun _ => rfl⟩
  · have long := VariableByte.lt_encode_length 4 (show 128 ^ 4 ≤ value by omega)
    have most : MQTTPacket.vbiLen (toInt value) ≤ 4 := by
      unfold MQTTPacket.vbiLen
      split
      · decide
      · split
        · decide
        · split <;> decide
    exact ⟨by omega, fun same => by omega, fun small => by omega⟩

theorem counted_le (prop : MQTTProperty) :
    MQTTPropertyArray.counted prop ≤ prop.width ∧
      (MQTTPropertyArray.counted prop = prop.width ↔ prop.Narrow) := by
  unfold MQTTPropertyArray.counted width Narrow
  cases typed : getType prop.identifier with
  | none => exact ⟨Int.le_refl 0, ⟨fun _ other => (nomatch other), fun _ => rfl⟩⟩
  | some type =>
      by_cases isNumeral : type = .variableByteInteger
      · subst isNumeral
        have counted := vbiLen_le prop.value.integer4.toNat_lt
        simp only [valueLen, PropertyValue.width, forall_const]
        omega
      · have same : valueLen prop.value type + 1 = (1 + prop.value.width type : Nat) := by
          cases type with
          | variableByteInteger => exact absurd rfl isNumeral
          | _ =>
              simp only [valueLen, PropertyValue.width]
              omega
        refine ⟨Int.le_of_eq same, ⟨fun _ other => ?_, fun _ => same⟩⟩
        exact absurd (Option.some.inj other) isNumeral

end MQTTProperty

namespace MQTTPropertyArray

open MQTTProperty

theorem sum_counted_le (entries : List MQTTProperty) :
    (entries.map counted).sum ≤ ((entries.map width).sum : Nat) ∧
      ((entries.map counted).sum = ((entries.map width).sum : Nat) ↔
        ∀ prop ∈ entries, prop.Narrow) := by
  induction entries with
  | nil => exact ⟨Int.le_refl 0, ⟨fun _ _ member => (nomatch member), fun _ => rfl⟩⟩
  | cons prop entries induction =>
      have here := counted_le prop
      rw [List.map_cons, List.sum_cons, List.map_cons, List.sum_cons, Nat.cast_add,
        List.forall_mem_cons, ← here.2, ← induction.2]
      omega

theorem writeLoop_bytes : ∀ {entries : List MQTTProperty}, (∀ prop ∈ entries, Known prop) →
    ∀ len, (writeLoop entries len).1 = (entries.map fun prop => prop.write.1).flatten
  | [], _, _ => rfl
  | prop :: entries, known, len => by
      have here := write_nonneg (known prop (List.mem_cons_self ..))
      have rest := writeLoop_bytes fun other member => known other (List.mem_cons_of_mem _ member)
      rw [writeLoop]
      dsimp only
      rw [if_neg here, rest, List.map_cons, List.flatten_cons]

theorem counted_of_unknown {prop : MQTTProperty} (unknown : ¬Known prop) :
    counted prop = 0 ∧ prop.width = 0 := by
  rw [Known, Option.not_isSome_iff_eq_none] at unknown
  rw [counted, width, unknown]
  exact ⟨rfl, rfl⟩

theorem sum_filter_known {M : Type} [AddMonoid M] {size : MQTTProperty → M}
    (nothing : ∀ prop, ¬Known prop → size prop = 0) (added : List MQTTProperty) :
    ((added.filter Known).map size).sum = (added.map size).sum := by
  induction added with
  | nil => rfl
  | cons prop added induction =>
      by_cases known : Known prop
      · rw [List.filter_cons_of_pos (by simpa using known), List.map_cons, List.sum_cons, induction,
          List.map_cons, List.sum_cons]
      · rw [List.filter_cons_of_neg (by simpa using known), induction, List.map_cons,
          List.sum_cons, nothing prop known, zero_add]

theorem Holds.bytes {props : MQTTPropertyArray} {entries : List MQTTProperty}
    (holds : Holds props entries) : ∃ rc, props.write =
      some (MQTTPacket.encode props.length.toNat ++
        (entries.map fun prop => prop.write.1).flatten, rc) := by
  rw [holds.write, writeLoop_bytes holds.known, holds.length]
  exact ⟨_, rfl⟩

theorem length_flatten_write (entries : List MQTTProperty) :
    (entries.map fun prop => prop.write.1).flatten.length = (entries.map width).sum := by
  rw [List.length_flatten, List.map_map]
  exact congrArg List.sum (List.map_congr_left fun prop _ => prop.length_write)

theorem Holds.view_write {props : MQTTPropertyArray} {entries : List MQTTProperty}
    (holds : Holds props entries) : props.write = some (view props entries).write := by
  have same : (view props entries).entries = entries := by
    unfold MQTTProperties.entries view
    cases array : props.array with
    | some stored => rfl
    | none =>
        have none := holds.fits
        rw [holds.empty array, Nat.le_zero, List.length_eq_zero_iff] at none
        rw [none]
        rfl
  rw [holds.write, ← holds.length, MQTTProperties.write, same]
  rfl

/-- The bytes of a list are as many as its length says, and the buffer of a PUBLISH packet
is filled exactly. -/
def Fills (added : List MQTTProperty) : Prop :=
  ∃ props bytes rc, zero.addAll added = some props ∧ props.write = some (bytes, rc) ∧
    (bytes.length : Int) = props.len ∧
    ∀ (pack : Publish) (qos : Int), pack.properties = view props (added.filter Known) →
      ((MQTTPacket.publishSection pack qos).length : Int) = MQTTPacket.publishBuflen pack qos

theorem built_lengths {added : List MQTTProperty} {props : MQTTPropertyArray}
    (built : zero.addAll added = some props) :
    props.length = (added.map counted).sum ∧ props.length < 2147483648 ∧
      ∃ bytes rc, props.write = some (bytes, rc) ∧ bytes.length =
        (VariableByte.encode props.length.toNat).length + (added.map width).sum := by
  rcases holds_of_addAll built with ⟨holds, small⟩
  rcases holds.bytes with ⟨rc, written⟩
  refine ⟨?_, small, _, rc, written, ?_⟩
  · rw [holds.length, sum_filter_known fun _ unknown => (counted_of_unknown unknown).1]
  · rw [List.length_append, length_flatten_write, MQTTPacket.encode_eq,
      sum_filter_known fun _ unknown => (counted_of_unknown unknown).2]

theorem built_of_small {added : List MQTTProperty}
    (small : (added.map counted).sum < 2147483648) :
    ∃ props, zero.addAll added = some props ∧ Holds props (added.filter Known) := by
  have sum : zero.length + (added.map counted).sum < 2147483648 := by
    rw [show zero.length = 0 from rfl, Int.zero_add]
    exact small
  exact holds_zero.addAll sum

/-- The lengths agree exactly when every variable byte integer and the length of all
properties are encoded in at most four bytes. -/
theorem fills_iff (added : List MQTTProperty) :
    Fills added ↔ (∀ prop ∈ added, prop.Narrow) ∧ (added.map width).sum ≤ 268435455 := by
  rcases sum_counted_le added with ⟨atMost, exactly⟩
  have nonnegative := sum_counted_nonneg added
  constructor
  · rintro ⟨props, bytes, rc, built, written, agree, _⟩
    rcases built_lengths built with ⟨length, small, bytes', rc', written', total⟩
    rw [written'] at written
    cases written
    rcases vbiLen_le (show props.length.toNat < 4294967296 by omega) with ⟨field, fieldExact⟩
    rw [Int.toNat_of_nonneg (by omega), toInt_of_lt (by omega) small] at field fieldExact
    rw [len, total] at agree
    have same : (added.map counted).sum = ((added.map width).sum : Nat) := by omega
    exact ⟨exactly.mp same, by omega⟩
  · rintro ⟨narrow, small⟩
    have same := exactly.mpr narrow
    rcases built_of_small (show (added.map counted).sum < 2147483648 by omega) with
      ⟨props, built, holds⟩
    rcases built_lengths built with ⟨length, inInt, bytes, rc, written, total⟩
    have field := MQTTProperties.length_encode (show props.length.toNat < 268435456 by omega)
    rw [MQTTPacket.encode_eq, Int.toNat_of_nonneg (by omega)] at field
    have agree : (bytes.length : Int) = props.len := by
      rw [len, total]
      omega
    refine ⟨props, bytes, rc, built, written, agree, fun pack qos held => ?_⟩
    have sameBytes := holds.view_write
    rw [written, Option.some.injEq] at sameBytes
    have sameLen : (view props (added.filter Known)).len = props.len := rfl
    rw [MQTTPacket.publishSection, MQTTPacket.publishBuflen, held, ← sameBytes, sameLen, ← agree]
    split
    · split <;> simp
    · split <;> simp

/-- A subscription identifier of five bytes is counted as one of four. -/
theorem not_fills_subscriptionIdentifier : ¬Fills [⟨11, { integer4 := 268435456 }⟩] := by
  rintro ⟨props, bytes, rc, built, written, agree, _⟩
  rcases built_lengths built with ⟨length, _, bytes', rc', written', total⟩
  rw [written'] at written
  cases written
  have counted : props.length = 5 := length.trans (by decide +kernel)
  have large : 128 ^ 4 ≤ 268435456 := by norm_num
  have long := VariableByte.lt_encode_length 4 large
  have width : (([⟨11, { integer4 := 268435456 }⟩] : List MQTTProperty).map width).sum =
      1 + (VariableByte.encode 268435456).length := by
    simp [MQTTProperty.width, PropertyValue.width, getType, namesToTypes]
  rw [len, total, counted, width] at agree
  have field : MQTTPacket.vbiLen 5 = 1 := by decide
  have positive := VariableByte.encode_length_pos (5 : Int).toNat
  omega

/-! ## What the bytes say -/

def readBack (value : PropertyValue) : MQTTPropertyType → PropertyField
  | .fourByteInteger => .fourByteInteger (MQTTPacket.readBack4 value.integer4)
  | type => value.field type

def found (prop : MQTTProperty) : Option (Nat × PropertyField) :=
  (getType prop.identifier).map fun type => (prop.identifier, readBack prop.value type)

theorem readBack_eq_iff {prop : MQTTProperty} {type : MQTTPropertyType}
    (typed : getType prop.identifier = some type) :
    readBack prop.value type = prop.value.field type ↔ prop.Exact := by
  unfold MQTTProperty.Exact
  rw [typed]
  cases type with
  | fourByteInteger =>
      rw [readBack, PropertyValue.field, PropertyField.fourByteInteger.injEq,
        MQTTPacket.readBack4_eq_iff]
      exact ⟨fun exact _ => exact, fun exact => exact rfl⟩
  | _ => exact ⟨fun _ other => (nomatch other), fun _ => rfl⟩

theorem reads_value {prop : MQTTProperty} {type : MQTTPropertyType}
    (typed : getType prop.identifier = some type) (inRange : InRange prop) :
    ∃ bytes, prop.write.1 = MQTTPacket.writeChar (MQTTPacket.toChar prop.identifier) ++ bytes ∧
      Reads (PropertyField.value type) bytes (readBack prop.value type) := by
  rw [InRange, typed] at inRange
  unfold MQTTProperty.write
  rw [typed]
  refine ⟨_, rfl, ?_⟩
  cases type with
  | byte => exact (MQTTPacket.reads_writeChar _).map _
  | twoByteInteger => exact (MQTTPacket.reads_writeInt prop.value.integer2.toNat_lt).map _
  | fourByteInteger => exact (MQTTPacket.reads_writeInt4 _).map _
  | variableByteInteger =>
      exact (MQTTPacket.reads_encode (Nat.le_of_lt_succ inRange)).map _
  | binaryData => exact (MQTTPacket.reads_writeMQTTLenString inRange).map _
  | utf8EncodedString => exact (MQTTPacket.reads_writeMQTTLenString inRange).map _
  | utf8StringPair =>
      exact (MQTTPacket.reads_writeMQTTLenString inRange.1).bind
        ((MQTTPacket.reads_writeMQTTLenString inRange.2).map _)

theorem reads_property {prop : MQTTProperty} {type : MQTTPropertyType}
    (typed : getType prop.identifier = some type) (inRange : InRange prop) :
    Reads PropertyField.property prop.write.1
      (prop.identifier, readBack prop.value type) := by
  rcases reads_value typed inRange with ⟨bytes, written, reads⟩
  have small := identifier_lt typed
  have identifier : Reads (numeral 4) (MQTTPacket.writeChar (MQTTPacket.toChar prop.identifier))
      prop.identifier := by
    have one : VariableByte.encode prop.identifier =
        MQTTPacket.writeChar (MQTTPacket.toChar prop.identifier) := by
      rw [VariableByte.encode, if_pos (by omega), MQTTPacket.toChar, MQTTPacket.writeChar,
        show ((prop.identifier : Int) % 256).toNat = prop.identifier by omega]
    rw [← one]
    exact reads_numeral (by rw [one, MQTTPacket.writeChar, List.length_singleton]; omega)
  have identified : Reads (ofOption (PropertyField.typeOf prop.identifier)) [] type :=
    reads_ofOption (getType_eq _ ▸ typed)
  rw [written, ← List.append_nil bytes, ← List.nil_append (bytes ++ [])]
  exact Reads.bind identifier (Reads.bind identified (Reads.bind reads (reads_pure _)))

theorem reads_entries : ∀ {entries : List MQTTProperty}, (∀ prop ∈ entries, InRange prop) →
    List.Forall₂ (fun field value => field ≠ [] ∧ Reads PropertyField.property field value)
      (entries.map fun prop => prop.write.1) (entries.filterMap found)
  | [], _ => .nil
  | prop :: entries, inRange => by
      have here := inRange prop (List.mem_cons_self ..)
      rcases here.typed with ⟨type, typed⟩
      have reads := reads_property typed here
      have nonempty : prop.write.1 ≠ [] := by
        rcases reads_value typed here with ⟨bytes, written, _⟩
        rw [written]
        exact List.cons_ne_nil _ _
      have others := reads_entries fun other member => inRange other (List.mem_cons_of_mem _ member)
      rw [List.map_cons, List.filterMap_cons_some (b := (prop.identifier, readBack prop.value type))
        (by rw [found, typed, Option.map_some])]
      exact .cons ⟨nonempty, reads⟩ others

theorem filter_known {entries : List MQTTProperty} (inRange : ∀ prop ∈ entries, InRange prop) :
    entries.filter Known = entries := by
  refine List.filter_eq_self.mpr fun prop member => ?_
  rcases (inRange prop member).typed with ⟨type, typed⟩
  simp [Known, typed]

theorem sum_counted {entries : List MQTTProperty} (inRange : ∀ prop ∈ entries, InRange prop) :
    (entries.map counted).sum = ((entries.map width).sum : Nat) := by
  refine (sum_counted_le entries).2.mpr fun prop member typed => ?_
  have here := inRange prop member
  rw [InRange, typed] at here
  exact Nat.le_of_lt_succ here

theorem list_written {added : List MQTTProperty} (inRange : ∀ prop ∈ added, InRange prop)
    (small : (added.map width).sum ≤ 268435455) :
    ∃ props bytes rc, zero.addAll added = some props ∧ props.write = some (bytes, rc) ∧
      PropertyField.list.toEnd bytes = some (added.filterMap found) := by
  have same := sum_counted inRange
  rcases built_of_small (show (added.map counted).sum < 2147483648 by omega) with
    ⟨props, built, holds⟩
  rw [filter_known inRange] at holds
  rcases holds.bytes with ⟨rc, written⟩
  have length : props.length.toNat = (added.map fun prop => prop.write.1).flatten.length := by
    rw [length_flatten_write, holds.length, same, Int.toNat_natCast]
  refine ⟨props, _, rc, built, written, ?_⟩
  rw [length]
  refine (Reads.bind (MQTTPacket.reads_encode ?_)
    (reads_block (toEnd_items (reads_entries inRange)))).toEnd
  rwa [length_flatten_write]

theorem list_overlong {added : List MQTTProperty} (inRange : ∀ prop ∈ added, InRange prop)
    (large : 268435455 < (added.map width).sum) {props : MQTTPropertyArray}
    {bytes : List UInt8} {rc : Int} (built : zero.addAll added = some props)
    (written : props.write = some (bytes, rc)) : PropertyField.list.toEnd bytes = none := by
  have same := sum_counted inRange
  rcases holds_of_addAll built with ⟨holds, _⟩
  rw [filter_known inRange] at holds
  rcases holds.bytes with ⟨other, written'⟩
  rw [written'] at written
  cases written
  have length : props.length.toNat = (added.map width).sum := by
    rw [holds.length, same, Int.toNat_natCast]
  have long := VariableByte.lt_encode_length 4
    (show 128 ^ 4 ≤ props.length.toNat by omega)
  rw [MQTTPacket.encode_eq]
  exact toEnd_bind_of_none (numeral_overlong long _) _

/-- Decoding what is written of a list gives what was added to it. -/
def Survives (added : List MQTTProperty) : Prop :=
  ∃ props bytes rc, zero.addAll added = some props ∧ props.write = some (bytes, rc) ∧
    PropertyField.list.toEnd bytes = some (added.filterMap contents)

theorem found_eq_iff {entries : List MQTTProperty} (inRange : ∀ prop ∈ entries, InRange prop) :
    entries.filterMap found = entries.filterMap contents ↔ ∀ prop ∈ entries, prop.Exact := by
  induction entries with
  | nil => exact ⟨fun _ _ member => (nomatch member), fun _ => rfl⟩
  | cons prop entries induction =>
      have others := induction fun other member => inRange other (List.mem_cons_of_mem _ member)
      rcases (inRange prop (List.mem_cons_self ..)).typed with ⟨type, typed⟩
      rw [List.forall_mem_cons, ← others, ← readBack_eq_iff typed]
      simp [found, contents, typed]

/-- Values in range survive exactly when the integers of four bytes are ones that
`writeInt4` gets right and the length has at most four bytes. -/
theorem survives_iff {added : List MQTTProperty} (inRange : ∀ prop ∈ added, InRange prop) :
    Survives added ↔ (∀ prop ∈ added, prop.Exact) ∧ (added.map width).sum ≤ 268435455 := by
  rcases Nat.lt_or_ge 268435455 (added.map width).sum with large | small
  · refine ⟨fun ⟨props, bytes, rc, built, written, decoded⟩ => ?_, fun ⟨_, small⟩ => ?_⟩
    · rw [list_overlong inRange large built written] at decoded
      cases decoded
    · omega
  · rcases list_written inRange small with ⟨props, bytes, rc, built, written, decoded⟩
    rw [← found_eq_iff inRange]
    refine ⟨fun ⟨props', bytes', rc', built', written', decoded'⟩ => ⟨?_, small⟩,
      fun ⟨same, _⟩ => ⟨props, bytes, rc, built, written, by rw [decoded, same]⟩⟩
    rw [built, Option.some.injEq] at built'
    subst built'
    rw [written, Option.some.injEq, Prod.mk.injEq] at written'
    rw [← written'.1, decoded, Option.some.injEq] at decoded'
    exact decoded'

/-- The payload format indicator, an expiry interval, a content type and a user property. -/
def fourProperties : List MQTTProperty :=
  [⟨1, { byte := 1 }⟩, ⟨2, { integer4 := 60 }⟩, ⟨3, { data := [0x61, 0x62] }⟩,
    ⟨38, { data := [0x6b], value := [0x76] }⟩]

theorem survives_iff_four : Survives fourProperties := by
  have inRange : ∀ prop ∈ fourProperties, InRange prop := by
    simp only [fourProperties, List.forall_mem_cons]
    have short {length : Nat} (small : length ≤ 2) : length ≤ 65535 := by omega
    exact ⟨trivial, trivial, short le_rfl, ⟨short one_le_two, short one_le_two⟩,
      List.forall_mem_nil _⟩
  refine (survives_iff inRange).mpr ⟨?_, by decide +kernel⟩
  simp [fourProperties, Exact]

/-- The largest expiry interval is written as 255. -/
theorem not_survives_expiry : ¬Survives [⟨2, { integer4 := 4294967295 }⟩] := by
  have inRange : ∀ prop ∈ ([⟨2, { integer4 := 4294967295 }⟩] : List MQTTProperty),
      InRange prop := fun prop member => by
    rw [List.mem_singleton.mp member]
    exact trivial
  rcases list_written inRange (by decide +kernel) with ⟨props, bytes, rc, built, written, decoded⟩
  rintro ⟨props', bytes', rc', built', written', decoded'⟩
  rw [built, Option.some.injEq] at built'
  subst built'
  rw [written, Option.some.injEq, Prod.mk.injEq] at written'
  rw [← written'.1, decoded, Option.some.injEq, found_eq_iff inRange] at decoded'
  have exact := decoded' _ (List.mem_singleton_self _) rfl
  revert exact
  decide +kernel

end MQTTPropertyArray

end MqttClient
