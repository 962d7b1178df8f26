import Mathlib.Tactic.IntervalCases
import MqttClient.TypeDefine

/-! # `MQTTPacket`: the parsers

The functions of `MQTTPacket.c` that turn the body of a packet into a structure,
and the table that selects one by the packet type. A pointer into the body is the
list of bytes from there to its end.
-/

namespace MqttClient.MQTTPacket

def readInt (ptr : List UInt8) : Int × List UInt8 :=
  (256 * (ptr.getD 0 0).toNat + (ptr.getD 1 0).toNat, ptr.drop 2)

def readUTFlen (ptr : List UInt8) : Option (List UInt8 × Int × List UInt8) :=
  if ptr.length > 1 then
    let (len, ptr) := readInt ptr
    if len ≤ ptr.length then some (ptr.take len.toNat, len, ptr.drop len.toNat) else none
  else none

def readChar (ptr : List UInt8) : UInt8 × List UInt8 := (ptr.getD 0 0, ptr.drop 1)

/-- What a parser returns. `undefined` marks a use of memory that nothing has
initialised. -/
inductive Parsed
  | pack (pack : Packet)
  | null
  | undefined
  deriving DecidableEq, Repr

/-- `MQTTPacket_publish`. The structure is zeroed first. -/
def publish (MQTTVersion : Int) (aHeader : UInt8) (data : List UInt8) : Parsed :=
  let header : Header := ⟨aHeader⟩
  match readUTFlen data with
  | none => .null
  | some (topic, topiclen, curdata) =>
      if header.qos > 0 then
        if curdata.length < 2 then .null
        else
          let (msgId, curdata) := readInt curdata
          .pack (.publish ⟨header, topic, topiclen, msgId, curdata, toInt curdata.length,
            MQTTVersion, .zero⟩)
      else
        .pack (.publish ⟨header, topic, topiclen, 0, curdata, toInt curdata.length,
          MQTTVersion, .zero⟩)

def connack (MQTTVersion : Int) (aHeader : UInt8) (data : List UInt8) : Parsed :=
  if data.length < 2 then .null
  else
    let (flags, curdata) := readChar data
    let (rc, _) := readChar curdata
    .pack (.connack ⟨⟨aHeader⟩, flags, rc, MQTTVersion⟩)

def ack (MQTTVersion : Int) (aHeader : UInt8) (data : List UInt8) : Parsed :=
  let header : Header := ⟨aHeader⟩
  if header.type ≠ MsgType.disconnect then
    if data.length < 2 then .null
    else .pack (.ack ⟨header, some (readInt data).1, MQTTVersion⟩)
  else .pack (.ack ⟨header, none, MQTTVersion⟩)

/-- `MQTTPacket_suback`. Without a single QoS it frees `properties.array`, which
it has never assigned. -/
def suback (MQTTVersion : Int) (aHeader : UInt8) (data : List UInt8) : Parsed :=
  if data.length < 2 then .null
  else
    let (msgId, curdata) := readInt data
    if curdata.length = 0 then .undefined
    else
      .pack (.suback ⟨⟨aHeader⟩, msgId, MQTTVersion,
        curdata.map fun qos => UInt32.ofNat qos.toNat⟩)

def newPackets : List (Option (Int → UInt8 → List UInt8 → Parsed)) :=
  [none, none, some connack, some publish, some ack, some ack, some ack, some ack, none,
    some suback, none, some ack, some ack]

/-- What `MQTTPacket_Factory` returns: `*error` and the packet. `undefined` marks
a call whose behaviour C leaves open. -/
inductive FactoryResult
  | returned (error : Int) (pack : Option Packet)
  | undefined
  deriving DecidableEq, Repr

/-- The end of `MQTTPacket_Factory`, once the whole packet is there. A type that
the checks let through but the table does not reach is read from behind it. -/
def dispatch (MQTTVersion : Int) (aHeader : UInt8) (data : List UInt8) : FactoryResult :=
  let ptype := (Header.mk aHeader).type
  if ptype < MsgType.connect ∨ (MQTTVersion < 5 ∧ ptype ≥ MsgType.disconnect) ∨
      (MQTTVersion ≥ 5 ∧ ptype > MsgType.auth) then
    .returned tcpsocketComplete none
  else
    match newPackets[ptype]? with
    | none => .undefined
    | some none => .returned tcpsocketComplete none
    | some (some parse) =>
        match parse MQTTVersion aHeader data with
        | .pack pack => .returned tcpsocketComplete (some pack)
        | .null => .returned socketError none
        | .undefined => .undefined

/-! ## Every parser returns its own kind of packet -/

variable {MQTTVersion : Int} {aHeader : UInt8} {data : List UInt8} {pack : Packet}

theorem connack_eq_pack (parsed : connack MQTTVersion aHeader data = .pack pack) :
    ∃ connack, pack = .connack connack ∧ connack.header = ⟨aHeader⟩ := by
  unfold connack at parsed
  split at parsed
  · cases parsed
  · cases parsed
    exact ⟨_, rfl, rfl⟩

theorem publish_eq_pack (parsed : publish MQTTVersion aHeader data = .pack pack) :
    ∃ publish, pack = .publish publish ∧ publish.header = ⟨aHeader⟩ := by
  unfold publish at parsed
  dsimp only at parsed
  split at parsed
  · cases parsed
  · split at parsed
    · split at parsed
      · cases parsed
      · cases parsed
        exact ⟨_, rfl, rfl⟩
    · cases parsed
      exact ⟨_, rfl, rfl⟩

theorem ack_eq_pack (parsed : ack MQTTVersion aHeader data = .pack pack) :
    ∃ ack, pack = .ack ack ∧ ack.header = ⟨aHeader⟩ := by
  unfold ack at parsed
  dsimp only at parsed
  split at parsed
  · split at parsed
    · cases parsed
    · cases parsed
      exact ⟨_, rfl, rfl⟩
  · cases parsed
    exact ⟨_, rfl, rfl⟩

theorem suback_eq_pack (parsed : suback MQTTVersion aHeader data = .pack pack) :
    ∃ suback, pack = .suback suback ∧ suback.header = ⟨aHeader⟩ := by
  unfold suback at parsed
  split at parsed
  · cases parsed
  · dsimp only at parsed
    split at parsed
    · cases parsed
    · cases parsed
      exact ⟨_, rfl, rfl⟩

theorem newPackets_typed {parse : Int → UInt8 → List UInt8 → Parsed}
    (selected : newPackets[(Header.mk aHeader).type]? = some (some parse))
    (parsed : parse MQTTVersion aHeader data = .pack pack) : pack.Typed := by
  generalize type : (Header.mk aHeader).type = ptype at selected
  have bound : ptype < 13 := (List.getElem?_eq_some_iff.mp selected).1
  have entry := selected
  interval_cases ptype <;> simp only [newPackets, List.getElem?_cons_succ,
    List.getElem?_cons_zero, Option.some.injEq, reduceCtorEq] at entry <;> subst entry
  case «2» =>
    rcases connack_eq_pack parsed with ⟨connack, rfl, header⟩
    rw [Packet.Typed, header, type]
  case «3» =>
    rcases publish_eq_pack parsed with ⟨publish, rfl, header⟩
    rw [Packet.Typed, header, type]
  case «9» =>
    rcases suback_eq_pack parsed with ⟨suback, rfl, header⟩
    rw [Packet.Typed, header, type]
  all_goals
    rcases ack_eq_pack parsed with ⟨ack, rfl, header⟩
    rw [Packet.Typed, header, type]
    decide

theorem dispatch_typed {error : Int}
    (returned : dispatch MQTTVersion aHeader data = .returned error (some pack)) :
    pack.Typed ∧ error = tcpsocketComplete := by
  unfold dispatch at returned
  dsimp only at returned
  split at returned
  · cases returned
  · split at returned
    · cases returned
    · cases returned
    · rename_i parse selected
      split at returned
      · rename_i parsed
        cases returned
        exact ⟨newPackets_typed selected parsed, rfl⟩
      · cases returned
      · cases returned

end MqttClient.MQTTPacket
