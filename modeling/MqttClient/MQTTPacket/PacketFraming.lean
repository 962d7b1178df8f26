import MqttClient.Foundation.Framing
import MqttClient.Foundation.VariableByte
import MqttClient.MQTTPacket.Factory

/-! # The framing of MQTT packets

A packet is a header byte, a remaining length of at most four digits and as many
bytes as that says. This is the rule by which the packet reader can be described
without its queues.
-/

namespace MqttClient.MQTTPacket

open Foundation Foundation.VariableByte

variable {β : Type} [Octet β]

def needBehindHeader (bytes : List UInt8) : Need :=
  match scan maxNoOfRemainingLengthBytes bytes with
  | .incomplete => .more 0
  | .overlong => .malformed
  | .value length rest =>
      if rest.length < length then .more (length - rest.length - 1) else .complete

def need : List β → Need
  | [] => .more 0
  | _ :: bytes => needBehindHeader (bytes.map toUInt8)

def framing : Framing β where
  need := need
  start := ⟨0, rfl⟩

/-- A well-framed packet: the scan of its length field ends with the field and
gives the length of its body. -/
structure Frame (β : Type) [Octet β] where
  header : β
  field : List β
  body : List β
  scanned : scan maxNoOfRemainingLengthBytes (field.map toUInt8) = .value body.length []

namespace Frame

def bytes (frame : Frame β) : List β := frame.header :: (frame.field ++ frame.body)

/-- What `MQTTPacket_Factory` returns when it has read the frame. -/
def result (MQTTVersion : Int) (frame : Frame β) : FactoryResult :=
  dispatch MQTTVersion (toUInt8 frame.header) (frame.body.map toUInt8)

end Frame

/-- What `MQTTPacket_Factory` returns when it has read the bytes of a packet. -/
def resultOfBytes (MQTTVersion : Int) (bytes : List β) : FactoryResult :=
  match bytes.map toUInt8 with
  | [] => .undefined
  | header :: bytes =>
      match scan maxNoOfRemainingLengthBytes bytes with
      | .value _ body => dispatch MQTTVersion header body
      | _ => .undefined

/-- What `MQTTPacket_Factory` returns for an outcome of the framing reader. -/
def resultOfOutcome (MQTTVersion : Int) : ReadOutcome β → FactoryResult
  | .packet bytes => resultOfBytes MQTTVersion bytes
  | .interrupted => .returned tcpsocketInterrupted none
  | .failed => .returned socketError none

theorem need_of_incomplete {header : β} {field : List β}
    (scanned : scan maxNoOfRemainingLengthBytes (field.map toUInt8) = .incomplete) :
    framing.need (header :: field) = .more 0 := by
  change needBehindHeader (field.map toUInt8) = _
  rw [needBehindHeader, scanned]

theorem need_of_overlong {header : β} {field : List β}
    (scanned : scan maxNoOfRemainingLengthBytes (field.map toUInt8) = .overlong) :
    framing.need (header :: field) = .malformed := by
  change needBehindHeader (field.map toUInt8) = _
  rw [needBehindHeader, scanned]

/-- Behind the length field the rule asks for the rest of the body. -/
theorem need_of_value {header : β} {field : List β} {length : Nat}
    (scanned : scan maxNoOfRemainingLengthBytes (field.map toUInt8) = .value length [])
    (body : List β) :
    framing.need (header :: (field ++ body)) =
      if body.length < length then .more (length - body.length - 1) else .complete := by
  change needBehindHeader ((field ++ body).map toUInt8) = _
  rw [needBehindHeader, List.map_append, scan_append scanned]
  simp

/-- In a proper prefix of a frame's bytes that reaches into the body, the rule asks
for exactly what is missing. -/
private theorem Frame.need_body (frame : Frame β) {body others : List β}
    (split : frame.body = body ++ others) (missing : others ≠ []) :
    ∃ extra, framing.need (frame.header :: (frame.field ++ body)) = .more extra ∧
      (frame.header :: (frame.field ++ body)).length + extra + 1 ≤ frame.bytes.length := by
  have positive := List.length_pos_of_ne_nil missing
  have lengths := congrArg List.length split
  rw [List.length_append] at lengths
  refine ⟨frame.body.length - body.length - 1, ?_, ?_⟩
  · rw [need_of_value frame.scanned, if_pos (by omega)]
  · simp only [Frame.bytes, List.length_cons, List.length_append]
    omega

private theorem Frame.need_field (frame : Frame β) {front others : List β}
    (split : frame.field = front ++ others) (missing : others ≠ []) :
    ∃ extra, framing.need (frame.header :: front) = .more extra ∧
      (frame.header :: front).length + extra + 1 ≤ frame.bytes.length := by
  have positive := List.length_pos_of_ne_nil missing
  have lengths := congrArg List.length split
  rw [List.length_append] at lengths
  refine ⟨0, need_of_incomplete ?_, ?_⟩
  · refine scan_proper_prefix frame.scanned ?_ ?_
    · rw [split, List.map_append]
      exact List.prefix_append _ _
    · intro equal
      have same := congrArg List.length equal
      simp only [List.length_map] at same
      omega
  · simp only [Frame.bytes, List.length_cons, List.length_append]
    omega

theorem Frame.isFrame (frame : Frame β) : framing.IsFrame frame.bytes where
  complete := by
    rw [Frame.bytes, need_of_value frame.scanned, if_neg (Nat.lt_irrefl _)]
  within := by
    rintro front ⟨others, split⟩ different
    have missing : others ≠ [] := by
      rintro rfl
      exact different (by simpa using split)
    cases front with
    | nil => exact ⟨0, rfl, by simp [Frame.bytes]⟩
    | cons header front =>
        rw [List.cons_append, Frame.bytes, List.cons.injEq] at split
        rcases split with ⟨rfl, split⟩
        rcases List.append_eq_append_iff.mp split with ⟨rest, field, tail⟩ | ⟨body, field, tail⟩
        · by_cases ended : rest = []
          · -- the prefix is the header byte and the whole length field
            subst ended
            rw [List.append_nil] at field
            have needed := frame.need_body
              (show frame.body = [] ++ others by simpa using tail.symm) missing
            rwa [List.append_nil, field] at needed
          · exact frame.need_field field ended
        · rw [field]
          exact frame.need_body tail missing

theorem resultOfBytes_of_value {header : β} {field : List β} {length : Nat}
    (scanned : scan maxNoOfRemainingLengthBytes (field.map toUInt8) = .value length [])
    (MQTTVersion : Int) (body : List β) :
    resultOfBytes MQTTVersion (header :: (field ++ body)) =
      dispatch MQTTVersion (toUInt8 header) (body.map toUInt8) := by
  rw [resultOfBytes, List.map_cons, List.map_append]
  dsimp only
  rw [scan_append scanned, List.nil_append]

theorem Frame.resultOfBytes (frame : Frame β) (MQTTVersion : Int) :
    resultOfBytes MQTTVersion frame.bytes = frame.result MQTTVersion :=
  resultOfBytes_of_value frame.scanned MQTTVersion frame.body

end MqttClient.MQTTPacket
