import MqttClient.Foundation.CheckedMemory
import MqttClient.MQTTPacket.PublishRoundTrip

/-! # The parsers, with every access checked

The parsers of `MQTTPacket.c` once more, on a body of `datalen` bytes in memory: a pointer
into the body is an index, and every byte that they read and every field that they use
is checked. They do what the parsers on lists of bytes say. Allocation succeeds, but in
`MQTTPacket_suback` it may fail where the parser has an exit for it.
-/

namespace MqttClient.MQTTPacket.Checked

open Foundation CheckedMemory

/-! ## Reading -/

/-- `readInt`, behind which the pointer moves on by two. -/
def readInt (data : List UInt8) (ptr : Nat) : Except Fault Int := do
  let high ← readAt data ptr
  let low ← readAt data (ptr + 1)
  return 256 * high.toNat + low.toNat

/-- `readChar`, behind which the pointer moves on by one. -/
def readChar (data : List UInt8) (ptr : Nat) : Except Fault UInt8 := readAt data ptr

/-- `readUTFlen`: the string, and what `*len` and `*pptr` are behind it. -/
def readUTFlen (data : List UInt8) (ptr : Nat) (len : Int) :
    Except Fault (Option (List UInt8) × Int × Nat) :=
  if (data.length : Int) - ptr > 1 then do
    let len ← readInt data ptr
    let ptr := ptr + 2
    if ptr + len ≤ data.length then do
      let string ← readBlock data len.toNat ptr
      return (some string, len, ptr + len.toNat)
    else return (none, len, ptr)
  else return (none, len, ptr)

/-! ## The parsers -/

/-- `MQTTPacket_publish`, whose structure is zeroed first. -/
def publish (MQTTVersion : Int) (aHeader : UInt8) (data : List UInt8) :
    Except Fault (Option Publish) := do
  let header : Header := ⟨aHeader⟩
  let (topic, topiclen, curdata) ← readUTFlen data 0 0
  match topic with
  | none => return none
  | some topic =>
      if header.qos > 0 then
        if (data.length : Int) - curdata < 2 then return none
        else do
          let msgId ← readInt data curdata
          let curdata := curdata + 2
          return some ⟨header, topic, topiclen, msgId, data.drop curdata,
            toInt ((data.length : Int) - curdata), MQTTVersion, .zero⟩
      else
        return some ⟨header, topic, topiclen, 0, data.drop curdata,
          toInt ((data.length : Int) - curdata), MQTTVersion, .zero⟩

def ack (MQTTVersion : Int) (aHeader : UInt8) (data : List UInt8) : Except Fault (Option Ack) :=
  let header : Header := ⟨aHeader⟩
  if header.type ≠ MsgType.disconnect then
    if (data.length : Int) - (0 : Nat) < 2 then return none
    else do
      let msgId ← readInt data 0
      return some ⟨header, some msgId, MQTTVersion⟩
  else return some ⟨header, none, MQTTVersion⟩

def connack (MQTTVersion : Int) (aHeader : UInt8) (data : List UInt8) :
    Except Fault (Option Connack) :=
  if data.length < 2 then return none
  else do
    let flags ← readChar data 0
    let rc ← readChar data 1
    return some ⟨⟨aHeader⟩, flags, rc, MQTTVersion⟩

/-- A `Suback` between `malloc` and the return; `none` is a field that has not been
assigned. -/
structure SubackBlock where
  header : Option Header := none
  msgId : Option Int := none
  mqttVersion : Option Int := none
  array : Option (Option (List MQTTProperty)) := none
  qoss : Option (List UInt32) := none
  deriving DecidableEq, Repr

/-- The answers of `malloc` in `MQTTPacket_suback`: for the structure, and for the QoS at
an index of the body. -/
structure Mallocs where
  pack : Bool
  newint : Nat → Bool

/-- `if (pack->properties.array) free(pack->properties.array)`. -/
def freeArray (pack : SubackBlock) : Except Fault Unit := do
  let _ ← load pack.array

/-- The loop of `MQTTPacket_suback`; `none` when it is left with NULL. -/
def subackLoop (mallocs : Mallocs) (data : List UInt8) (pack : SubackBlock) (curdata : Nat) :
    Except Fault (Option SubackBlock) :=
  if curdata < data.length then
    if !mallocs.newint curdata then do
      freeArray pack
      return none
    else do
      let newint ← readChar data curdata
      let qoss ← load pack.qoss
      subackLoop mallocs data
        { pack with qoss := some (qoss ++ [UInt32.ofNat newint.toNat]) } (curdata + 1)
  else return some pack
termination_by data.length - curdata

def suback (mallocs : Mallocs) (MQTTVersion : Int) (aHeader : UInt8) (data : List UInt8) :
    Except Fault (Option SubackBlock) :=
  if !mallocs.pack then return none
  else
    let pack : SubackBlock := { mqttVersion := some MQTTVersion, header := some ⟨aHeader⟩ }
    if (data.length : Int) - (0 : Nat) < 2 then return none
    else do
      let msgId ← readInt data 0
      let pack := { pack with msgId := some msgId, qoss := some [] }
      let looped ← subackLoop mallocs data pack 2
      match looped with
      | none => return none
      | some pack => do
          let qoss ← load pack.qoss
          if qoss.length = 0 then do
            freeArray pack
            return none
          else return some pack

/-! ## What the parsers make of a body -/

def uint16 (high low : UInt8) : Nat := 256 * high.toNat + low.toNat

section Bodies

variable {MQTTVersion : Int} {aHeader high low : UInt8} {data rest : List UInt8} {ptr : Nat}

theorem writeInt_uint16 (high low : UInt8) : writeInt (uint16 high low) = [high, low] := by
  have bound := low.toNat_lt
  have split : (uint16 high low : Int).tdiv 256 = high.toNat ∧
      (uint16 high low : Int).tmod 256 = low.toNat := by
    unfold uint16
    rw [Int.tdiv_eq_ediv_of_nonneg (by omega), Int.tmod_eq_emod_of_nonneg (by omega)]
    omega
  have byte (value : UInt8) : toChar value.toNat = value := by
    have bound := value.toNat_lt
    rw [toChar, Int.emod_eq_of_lt (by omega) (by omega), Int.toNat_natCast, UInt8.ofNat_toNat]
  rw [writeInt, split.1, split.2, byte, byte]

theorem readInt_cons (high low : UInt8) (rest : List UInt8) :
    readInt (high :: low :: rest) 0 = .ok (uint16 high low : Int) := rfl

theorem readInt_of_le (inside : ptr + 2 ≤ data.length) :
    readInt data ptr = .ok (MQTTPacket.readInt (data.drop ptr)).1 := by
  rw [readInt, readAt_of_lt (by omega), readAt_of_lt (by omega), MQTTPacket.readInt]
  simp only [List.getD_eq_getElem?_getD, List.getElem?_drop, Nat.add_zero,
    List.getElem?_eq_getElem (show ptr < data.length by omega),
    List.getElem?_eq_getElem (show ptr + 1 < data.length by omega)]
  rfl

theorem readUTFlen_cons (high low : UInt8) (rest : List UInt8) (len : Int) :
    readUTFlen (high :: low :: rest) 0 len =
      .ok (if uint16 high low ≤ rest.length then
          (some (rest.take (uint16 high low)), uint16 high low, 2 + uint16 high low)
        else (none, uint16 high low, 2)) := by
  rw [readUTFlen, if_pos (by simp only [List.length_cons]; omega), readInt_cons]
  change
    (if (0 + 2 : Nat) + (uint16 high low : Int) ≤ (high :: low :: rest).length then _ else _) = _
  rw [Int.toNat_natCast, List.length_cons, List.length_cons]
  by_cases fits : uint16 high low ≤ rest.length
  · rw [if_pos (by omega), if_pos fits, readBlock_of_le (by simp only [List.length_cons]; omega)]
    rfl
  · rw [if_neg (by omega), if_neg fits]
    rfl

def publishOf (MQTTVersion : Int) (header : Header) (len : Nat) (rest : List UInt8) : Publish :=
  let idLen := if header.qos = 0 then 0 else 2
  let payload := rest.drop (len + idLen)
  ⟨header, rest.take len, len, if header.qos = 0 then 0 else (MQTTPacket.readInt (rest.drop len)).1,
    payload, toInt payload.length, MQTTVersion, .zero⟩

theorem publish_cons (high low : UInt8) (rest : List UInt8) :
    publish MQTTVersion aHeader (high :: low :: rest) =
      .ok (if uint16 high low + (if (Header.mk aHeader).qos = 0 then 0 else 2) ≤ rest.length then
        some (publishOf MQTTVersion ⟨aHeader⟩ (uint16 high low) rest)
      else none) := by
  rw [publish, readUTFlen_cons]
  generalize uint16 high low = len
  by_cases fits : len ≤ rest.length
  · rw [if_pos fits]
    change (if (Header.mk aHeader).qos > 0 then
      if ((high :: low :: rest).length : Int) - (2 + len : Nat) < 2 then _ else _ else _) = _
    have behind {index more : Nat} (same : index = 2 + more) :
        (high :: low :: rest).drop index = rest.drop more := by
      rw [same, Nat.add_comm, List.drop_succ_cons, List.drop_succ_cons]
    have left {index more : Nat} (same : index = 2 + more) (inside : more ≤ rest.length) :
        ((high :: low :: rest).length : Int) - (index : Nat) = (rest.drop more).length := by
      rw [List.length_drop, List.length_cons, List.length_cons]
      omega
    by_cases qos0 : (Header.mk aHeader).qos = 0
    · rw [if_neg (by omega), if_pos qos0, Nat.add_zero, if_pos fits, publishOf, if_pos qos0,
        if_pos qos0, Nat.add_zero, behind rfl, left rfl fits]
      rfl
    · rw [if_pos (Nat.pos_of_ne_zero qos0), if_neg qos0]
      by_cases id : len + 2 ≤ rest.length
      · rw [if_neg (by simp only [List.length_cons]; omega), if_pos id,
          readInt_of_le (by simp only [List.length_cons]; omega), publishOf, if_neg qos0,
          if_neg qos0, behind rfl]
        change (Except.ok (some (Publish.mk _ _ _ _ ((high :: low :: rest).drop (2 + len + 2))
          (toInt (((high :: low :: rest).length : Int) - (2 + len + 2 : Nat))) _ _)) :
            Except Fault (Option Publish)) = _
        rw [behind (Nat.add_assoc 2 len 2), left (Nat.add_assoc 2 len 2) id]
      · rw [if_pos (by simp only [List.length_cons]; omega), if_neg id]
        rfl
  · rw [if_neg fits, if_neg (by omega)]
    rfl

theorem publish_of_short (short : data.length < 2) :
    publish MQTTVersion aHeader data = .ok none := by
  rw [publish, readUTFlen, if_neg (by omega)]
  rfl

theorem ack_cons (other : (Header.mk aHeader).type ≠ MsgType.disconnect) :
    ack MQTTVersion aHeader (high :: low :: rest) =
      .ok (some ⟨⟨aHeader⟩, some (uint16 high low), MQTTVersion⟩) := by
  rw [ack, if_pos other, if_neg (by simp only [List.length_cons]; omega), readInt_cons]
  rfl

theorem ack_of_short (other : (Header.mk aHeader).type ≠ MsgType.disconnect)
    (short : data.length < 2) : ack MQTTVersion aHeader data = .ok none := by
  rw [ack, if_pos other, if_pos (by omega)]
  rfl

theorem connack_cons :
    connack MQTTVersion aHeader (high :: low :: rest) =
      .ok (some ⟨⟨aHeader⟩, high, low, MQTTVersion⟩) := by
  rw [connack, if_neg (by simp only [List.length_cons]; omega)]
  rfl

theorem connack_of_short (short : data.length < 2) :
    connack MQTTVersion aHeader data = .ok none := by
  rw [connack, if_pos short]
  rfl

def qossOf (bytes : List UInt8) : List UInt32 := bytes.map fun qos => UInt32.ofNat qos.toNat

theorem subackLoop_eq {mallocs : Mallocs} {pack : SubackBlock} {qoss : List UInt32}
    {curdata : Nat} (assigned : pack.qoss = some qoss) (unset : pack.array = none) :
    subackLoop mallocs data pack curdata =
      if ∀ index < data.length, curdata ≤ index → mallocs.newint index = true then
        .ok (some { pack with qoss := some (qoss ++ qossOf (data.drop curdata)) })
      else .error .unassigned := by
  induction left : data.length - curdata generalizing curdata pack qoss with
  | zero =>
      have none : data.drop curdata = [] := List.drop_eq_nil_of_le (by omega)
      rw [subackLoop, if_neg (by omega), if_pos (fun index inside above => by omega), none, qossOf,
        List.map_nil, List.append_nil, ← assigned]
      rfl
  | succ left induction =>
      have here : curdata < data.length := by omega
      rw [subackLoop, if_pos here]
      cases allocated : mallocs.newint curdata with
      | false =>
          rw [Bool.not_false, if_pos rfl, freeArray, unset, if_neg]
          · rfl
          · intro all
            rw [all curdata here le_rfl] at allocated
            cases allocated
      | true =>
          rw [Bool.not_true, if_neg Bool.false_ne_true, readChar, readAt_of_lt here, assigned]
          change subackLoop mallocs data
            { pack with qoss := some (qoss ++ [UInt32.ofNat data[curdata].toNat]) }
            (curdata + 1) = _
          have unset : ({ pack with
            qoss := some (qoss ++ [UInt32.ofNat data[curdata].toNat]) } : SubackBlock).array =
              none := unset
          rw [induction rfl unset (by omega), List.drop_eq_getElem_cons here, qossOf, qossOf,
            List.map_cons, List.append_assoc]
          refine if_congr ⟨fun later index inside above => ?_, fun all index inside above =>
            all index inside (by omega)⟩ rfl rfl
          rcases Nat.eq_or_lt_of_le above with same | above
          · rw [← same]
            exact allocated
          · exact later index inside above

theorem newint_cons (mallocs : Mallocs) (high low : UInt8) (rest : List UInt8) :
    (∀ index < (high :: low :: rest).length, 2 ≤ index → mallocs.newint index = true) ↔
      ∀ index < rest.length, mallocs.newint (index + 2) = true := by
  simp only [List.length_cons]
  constructor
  · intro all index inside
    exact all (index + 2) (by omega) (by omega)
  · intro all index inside above
    have here := all (index - 2) (by omega)
    rwa [Nat.sub_add_cancel above] at here

theorem suback_cons {mallocs : Mallocs} (allocated : mallocs.pack = true) :
    suback mallocs MQTTVersion aHeader (high :: low :: rest) =
      if rest ≠ [] ∧ ∀ index < rest.length, mallocs.newint (index + 2) = true then
        .ok (some ⟨some ⟨aHeader⟩, some (uint16 high low), some MQTTVersion, none,
          some (qossOf rest)⟩)
      else .error .unassigned := by
  rw [suback, allocated, Bool.not_true, if_neg Bool.false_ne_true]
  dsimp only
  rw [if_neg (by simp only [List.length_cons]; omega), readInt_cons]
  change (subackLoop mallocs (high :: low :: rest)
    ⟨some ⟨aHeader⟩, some (uint16 high low), some MQTTVersion, none, some []⟩ 2 >>= _) = _
  rw [subackLoop_eq rfl rfl]
  rw [if_congr (newint_cons mallocs high low rest) rfl rfl]
  by_cases all : ∀ index < rest.length, mallocs.newint (index + 2) = true
  · rw [if_pos all]
    cases rest with
    | nil => rfl
    | cons qos rest =>
        rw [if_pos ⟨List.cons_ne_nil _ _, all⟩]
        rfl
  · rw [if_neg all, if_neg fun both => all both.2]
    rfl

theorem suback_of_unallocated {mallocs : Mallocs} (failed : mallocs.pack = false) :
    suback mallocs MQTTVersion aHeader data = .ok none := by
  rw [suback, failed]
  rfl

theorem suback_of_short {mallocs : Mallocs} (short : data.length < 2) :
    suback mallocs MQTTVersion aHeader data = .ok none := by
  rw [suback]
  split
  · rfl
  · dsimp only
    rw [if_pos (by omega)]
    rfl

theorem short_or_cons (data : List UInt8) :
    data.length < 2 ∨ ∃ high low rest, data = high :: low :: rest := by
  match data with
  | [] => exact .inl (by decide)
  | [_] => exact .inl (Nat.lt_succ_self 1)
  | high :: low :: rest => exact .inr ⟨high, low, rest, rfl⟩

/-! ## The parsers on lists -/

def outcome {α : Type} (wrap : α → Packet) : Except Fault (Option α) → Parsed
  | .ok (some pack) => .pack (wrap pack)
  | .ok none => .null
  | .error _ => .undefined

/-- The checked parser of PUBLISH packets is the parser of the packet reader, which reads a list. -/
theorem publish_outcome :
    outcome .publish (publish MQTTVersion aHeader data) =
      MQTTPacket.publish MQTTVersion aHeader data := by
  rcases short_or_cons data with short | ⟨high, low, rest, rfl⟩
  · rw [publish_of_short short, MQTTPacket.publish, MQTTPacket.readUTFlen, if_neg (by omega)]
    rfl
  · have topic : MQTTPacket.readUTFlen (high :: low :: rest) =
        if uint16 high low ≤ rest.length then
          some (rest.take (uint16 high low), (uint16 high low : Int), rest.drop (uint16 high low))
        else none := by
      rw [MQTTPacket.readUTFlen, if_pos (by simp only [List.length_cons]; omega)]
      exact if_congr Int.ofNat_le rfl rfl
    rw [publish_cons, MQTTPacket.publish, topic]
    generalize uint16 high low = len
    by_cases fits : len ≤ rest.length
    · rw [if_pos fits]
      dsimp only
      by_cases qos0 : (Header.mk aHeader).qos = 0
      · rw [if_pos qos0, Nat.add_zero, if_pos fits, if_neg (by omega), publishOf, if_pos qos0,
          if_pos qos0]
        rfl
      · rw [if_neg qos0, if_pos (Nat.pos_of_ne_zero qos0), List.length_drop]
        by_cases id : len + 2 ≤ rest.length
        · rw [if_pos id, if_neg (by omega), publishOf, if_neg qos0, if_neg qos0, ← List.drop_drop]
          rfl
        · rw [if_neg id, if_pos (by omega)]
          rfl
    · rw [if_neg fits, if_neg (by omega)]
      rfl

theorem ack_outcome :
    outcome .ack (ack MQTTVersion aHeader data) = MQTTPacket.ack MQTTVersion aHeader data := by
  rw [MQTTPacket.ack]
  by_cases other : (Header.mk aHeader).type ≠ MsgType.disconnect
  · rw [if_pos other]
    rcases short_or_cons data with short | ⟨high, low, rest, rfl⟩
    · rw [ack_of_short other short, if_pos short]
      rfl
    · rw [ack_cons other, if_neg (by simp only [List.length_cons]; omega)]
      rfl
  · rw [if_neg other, ack, if_neg other]
    rfl

theorem connack_outcome :
    outcome .connack (connack MQTTVersion aHeader data) =
      MQTTPacket.connack MQTTVersion aHeader data := by
  rw [MQTTPacket.connack]
  rcases short_or_cons data with short | ⟨high, low, rest, rfl⟩
  · rw [connack_of_short short, if_pos short]
    rfl
  · rw [connack_cons, if_neg (by simp only [List.length_cons]; omega)]
    rfl

def SubackBlock.pack (block : SubackBlock) : Packet :=
  .suback ⟨block.header.getD ⟨0⟩, block.msgId.getD 0, block.mqttVersion.getD 0,
    block.qoss.getD []⟩

/-- If `malloc` never fails, the checked parser of SUBACK packets is that of the packet reader. -/
theorem suback_outcome :
    outcome SubackBlock.pack (suback ⟨true, fun _ => true⟩ MQTTVersion aHeader data) =
      MQTTPacket.suback MQTTVersion aHeader data := by
  rw [MQTTPacket.suback]
  rcases short_or_cons data with short | ⟨high, low, rest, rfl⟩
  · rw [suback_of_short short, if_pos short]
    rfl
  · have long : ¬(high :: low :: rest).length < 2 := Nat.not_lt.mpr (Nat.le_add_left 2 rest.length)
    rw [suback_cons rfl, if_neg long]
    cases rest with
    | nil => rfl
    | cons qos rest =>
        rw [if_pos ⟨List.cons_ne_nil _ _, fun _ _ => rfl⟩]
        rfl

end Bodies

end MqttClient.MQTTPacket.Checked
