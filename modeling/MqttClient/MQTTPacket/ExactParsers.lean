import MqttClient.MQTTPacket.CheckedParsers

/-! # What the parsers accept

Exactly which bodies the parsers accept, what is in the packets, and which accesses they
make on the way, for bodies of every length.
-/

namespace MqttClient.MQTTPacket.Checked

open Foundation CheckedMemory

/-! ## PUBLISH, acknowledgements and CONNACK -/

/-- A body begins with a topic, behind which there is room for the message id that the header
asks for. -/
def PublishBody (header : Header) (data : List UInt8) : Prop :=
  ∃ high low rest, data = high :: low :: rest ∧ 2 + uint16 high low ≤ data.length ∧
    (header.qos ≠ 0 → 2 + uint16 high low + 2 ≤ data.length)

/-- The fields of a PUBLISH packet, one behind the other, are the body. -/
structure GivesBack (pack : Publish) (MQTTVersion : Int) (aHeader : UInt8) (data : List UInt8) :
    Prop where
  header : pack.header = ⟨aHeader⟩
  mqttVersion : pack.mqttVersion = MQTTVersion
  topic : pack.topiclen = pack.topic.length ∧ pack.topiclen ≤ 65535
  msgId : 0 ≤ pack.msgId ∧ pack.msgId ≤ maxMsgId
  payload : pack.payloadlen = toInt pack.payload.length
  body : writeInt pack.topiclen ++ pack.topic ++
    (if pack.header.qos = 0 then [] else writeInt pack.msgId) ++ pack.payload = data

section Exact

variable {MQTTVersion : Int} {aHeader : UInt8} {data : List UInt8}

theorem uint16_le (high low : UInt8) : uint16 high low ≤ 65535 := by
  have highBound := high.toNat_lt
  have lowBound := low.toNat_lt
  unfold uint16
  omega

theorem publishOf_givesBack {header : Header} {high low : UInt8} {rest : List UInt8}
    (fits : uint16 high low + (if header.qos = 0 then 0 else 2) ≤ rest.length) :
    GivesBack (publishOf MQTTVersion header (uint16 high low) rest) MQTTVersion header.byte
      (high :: low :: rest) := by
  have bound := uint16_le high low
  have topic : (rest.take (uint16 high low)).length = uint16 high low :=
    List.length_take_of_le (by omega)
  have front : writeInt (uint16 high low) ++ rest.take (uint16 high low) ++
      rest.drop (uint16 high low) = high :: low :: rest := by
    rw [writeInt_uint16, List.append_assoc, List.take_append_drop]
    rfl
  unfold publishOf
  by_cases qos0 : header.qos = 0
  · simp only [if_pos qos0, Nat.add_zero] at fits ⊢
    refine ⟨rfl, rfl, ⟨by rw [topic], by dsimp only; omega⟩,
      ⟨le_rfl, show (0 : Int) ≤ 65535 by decide⟩, rfl, ?_⟩
    rw [if_pos qos0, List.append_nil]
    exact front
  · simp only [if_neg qos0] at fits ⊢
    rcases short_or_cons (rest.drop (uint16 high low)) with short | ⟨first, second, payload, behind⟩
    · rw [List.length_drop] at short
      omega
    · have id : (MQTTPacket.readInt (first :: second :: payload)).1 = (uint16 first second : Int) :=
        rfl
      have idBound := uint16_le first second
      rw [← List.drop_drop, behind, id]
      refine ⟨rfl, rfl, ⟨by rw [topic], by dsimp only; omega⟩, ⟨by dsimp only; omega, ?_⟩, rfl, ?_⟩
      · change (uint16 first second : Int) ≤ 65535
        omega
      · dsimp only
        rw [if_neg qos0, writeInt_uint16 first second, List.append_assoc _ [first, second]]
        rw [behind] at front
        exact front

theorem publishBody_cons_iff {header : Header} {high low : UInt8} {rest : List UInt8} :
    PublishBody header (high :: low :: rest) ↔
      uint16 high low + (if header.qos = 0 then 0 else 2) ≤ rest.length := by
  constructor
  · rintro ⟨_, _, _, same, topic, id⟩
    rw [List.cons.injEq, List.cons.injEq] at same
    rcases same with ⟨rfl, rfl, rfl⟩
    simp only [List.length_cons] at topic id
    split
    · omega
    · rename_i qos
      have room := id qos
      omega
  · intro fits
    refine ⟨high, low, rest, rfl, ?_, fun qos => ?_⟩
    · rw [List.length_cons, List.length_cons]
      omega
    · rw [if_neg qos] at fits
      rw [List.length_cons, List.length_cons]
      omega

theorem publish_exact : ∃ result, publish MQTTVersion aHeader data = .ok result ∧
    (result ≠ none ↔ PublishBody ⟨aHeader⟩ data) ∧
    ∀ pack ∈ result, GivesBack pack MQTTVersion aHeader data := by
  rcases short_or_cons data with short | ⟨high, low, rest, rfl⟩
  · refine ⟨none, publish_of_short short, iff_of_false (not_not_intro rfl) ?_, nofun⟩
    rintro ⟨high, low, rest, rfl, _⟩
    simp only [List.length_cons] at short
    omega
  · rw [publish_cons, publishBody_cons_iff]
    by_cases fits : uint16 high low + (if (Header.mk aHeader).qos = 0 then 0 else 2) ≤ rest.length
    · rw [if_pos fits]
      refine ⟨_, rfl, iff_of_true (Option.some_ne_none _) fits, ?_⟩
      rintro pack ⟨⟩
      exact publishOf_givesBack fits
    · rw [if_neg fits]
      exact ⟨none, rfl, iff_of_false (not_not_intro rfl) fits, nofun⟩

theorem ack_exact (other : (Header.mk aHeader).type ≠ MsgType.disconnect) :
    ∃ result, ack MQTTVersion aHeader data = .ok result ∧ (result ≠ none ↔ 2 ≤ data.length) ∧
      ∀ pack ∈ result, ∃ high low rest, data = high :: low :: rest ∧
        pack = ⟨⟨aHeader⟩, some (uint16 high low), MQTTVersion⟩ := by
  rcases short_or_cons data with short | ⟨high, low, rest, rfl⟩
  · exact ⟨none, ack_of_short other short, iff_of_false (not_not_intro rfl) (by omega), nofun⟩
  · refine ⟨_, ack_cons other, iff_of_true (Option.some_ne_none _) (Nat.le_add_left 2 _), ?_⟩
    rintro pack here
    exact ⟨high, low, rest, rfl, (Option.mem_some_iff.mp here).symm⟩

theorem connack_exact :
    ∃ result, connack MQTTVersion aHeader data = .ok result ∧ (result ≠ none ↔ 2 ≤ data.length) ∧
      ∀ pack ∈ result, ∃ flags rc rest, data = flags :: rc :: rest ∧
        pack = ⟨⟨aHeader⟩, flags, rc, MQTTVersion⟩ := by
  rcases short_or_cons data with short | ⟨flags, rc, rest, rfl⟩
  · exact ⟨none, connack_of_short short, iff_of_false (not_not_intro rfl) (by omega), nofun⟩
  · refine ⟨_, connack_cons, iff_of_true (Option.some_ne_none _) (Nat.le_add_left 2 _), ?_⟩
    rintro pack here
    exact ⟨flags, rc, rest, rfl, (Option.mem_some_iff.mp here).symm⟩

theorem suback_inside (mallocs : Mallocs) (index : Nat) :
    suback mallocs MQTTVersion aHeader data ≠ .error (.outside index) := by
  rcases short_or_cons data with short | ⟨high, low, rest, rfl⟩
  · rw [suback_of_short short]
    intro same
    cases same
  · cases allocated : mallocs.pack with
    | false =>
        rw [suback_of_unallocated allocated]
        intro same
        cases same
    | true =>
        rw [suback_cons allocated]
        intro same
        split at same <;> cases same

/-- The parsers of PUBLISH packets, of acknowledgements but DISCONNECT, and of CONNACK packets
accept exactly the bodies that are long enough, and keep all that is in them. No parser reads
a byte behind the body. And `MQTTPacket_ack` reads back every message id that
`MQTTPacket_send_puback` writes. -/
theorem parsers_exact (MQTTVersion : Int) (aHeader : UInt8) (data : List UInt8) :
    (∃ result, publish MQTTVersion aHeader data = .ok result ∧
      (result ≠ none ↔ PublishBody ⟨aHeader⟩ data) ∧
      ∀ pack ∈ result, GivesBack pack MQTTVersion aHeader data) ∧
    ((Header.mk aHeader).type ≠ MsgType.disconnect →
      ∃ result, ack MQTTVersion aHeader data = .ok result ∧ (result ≠ none ↔ 2 ≤ data.length) ∧
        ∀ pack ∈ result, ∃ high low rest, data = high :: low :: rest ∧
          pack = ⟨⟨aHeader⟩, some (uint16 high low), MQTTVersion⟩) ∧
    (∃ result, connack MQTTVersion aHeader data = .ok result ∧
      (result ≠ none ↔ 2 ≤ data.length) ∧
      ∀ pack ∈ result, ∃ flags rc rest, data = flags :: rc :: rest ∧
        pack = ⟨⟨aHeader⟩, flags, rc, MQTTVersion⟩) ∧
    (∀ mallocs index, suback mallocs MQTTVersion aHeader data ≠ .error (.outside index)) ∧
    ((Header.mk aHeader).type ≠ MsgType.disconnect → ∀ msgid : Int, 0 ≤ msgid → msgid ≤ maxMsgId →
      ∃ body, (∀ socket state, sendPuback msgid socket state =
          send socket (.ofBits MsgType.puback 0 0 0) body state) ∧
        ack MQTTVersion aHeader body = .ok (some ⟨⟨aHeader⟩, some msgid, MQTTVersion⟩)) := by
  refine ⟨publish_exact, ack_exact, connack_exact, suback_inside, ?_⟩
  intro other msgid nonneg small
  refine ⟨writeInt msgid, fun _ _ => rfl, ?_⟩
  have parsed := MQTTPacket.readInt_writeInt nonneg (Int.lt_add_one_of_le small) []
  rw [List.append_nil] at parsed
  rw [ack, if_pos other, if_neg (by rw [length_writeInt]; decide),
    readInt_of_le (by rw [length_writeInt]), List.drop_zero, parsed]
  rfl

end Exact

/-! ## SUBACK -/

/-- A SUBACK parser that accepts exactly the bodies with a QoS, keeps all that is in them, and
neither reads behind the body nor uses a field that it has not assigned. -/
def SubackExact (mallocs : Mallocs) (MQTTVersion : Int) (aHeader : UInt8) (data : List UInt8) :
    Prop :=
  ∃ result, suback mallocs MQTTVersion aHeader data = .ok result ∧
    (result ≠ none ↔ 3 ≤ data.length) ∧
    ∀ pack ∈ result, ∃ high low rest, data = high :: low :: rest ∧
      pack.header = some ⟨aHeader⟩ ∧ pack.mqttVersion = some MQTTVersion ∧
      pack.msgId = some (uint16 high low) ∧
      pack.qoss = some (rest.map fun qos => UInt32.ofNat qos.toNat)

/-- The exit of the parser for an empty list is not taken, nor one for a failed `malloc` of a
QoS; and a body with a QoS finds memory for the structure. -/
def SubackRegular (mallocs : Mallocs) (data : List UInt8) : Prop :=
  if mallocs.pack then
    data.length ≠ 2 ∧ ∀ index < data.length, 2 ≤ index → mallocs.newint index = true
  else data.length < 3

/-- The SUBACK parser is exact and safe exactly if the body does not end behind the message id,
and no `malloc` in the way fails. -/
theorem suback_exact_iff (mallocs : Mallocs) (MQTTVersion : Int) (aHeader : UInt8)
    (data : List UInt8) :
    SubackExact mallocs MQTTVersion aHeader data ↔ SubackRegular mallocs data := by
  unfold SubackExact SubackRegular
  cases allocated : mallocs.pack with
  | false =>
      rw [suback_of_unallocated allocated, if_neg Bool.false_ne_true]
      constructor
      · rintro ⟨_, ⟨⟩, enough, _⟩
        by_contra long
        exact enough.mpr (Nat.not_lt.mp long) rfl
      · intro short
        exact ⟨none, rfl, iff_of_false (not_not_intro rfl) (Nat.not_le.mpr short), nofun⟩
  | true =>
      rw [if_pos rfl]
      rcases short_or_cons data with short | ⟨high, low, rest, rfl⟩
      · rw [suback_of_short short]
        refine iff_of_true ⟨none, rfl, iff_of_false (not_not_intro rfl) (by omega), nofun⟩ ⟨?_, ?_⟩
        · omega
        · intro index inside above
          omega
      · rw [suback_cons allocated]
        rw [newint_cons]
        have regular : (high :: low :: rest).length ≠ 2 ↔ rest ≠ [] := by
          rw [List.length_cons, List.length_cons, ← List.length_pos_iff]
          omega
        rw [regular]
        by_cases met : rest ≠ [] ∧ ∀ index < rest.length, mallocs.newint (index + 2) = true
        · rw [if_pos met]
          refine iff_of_true ⟨_, rfl, iff_of_true (Option.some_ne_none _) ?_, ?_⟩ met
          · have nonempty := List.length_pos_of_ne_nil met.1
            rw [List.length_cons, List.length_cons]
            omega
          · rintro pack ⟨⟩
            exact ⟨high, low, rest, rfl, rfl, rfl, rfl, rfl⟩
        · rw [if_neg met]
          refine iff_of_false ?_ met
          rintro ⟨_, ⟨⟩, _⟩

/-- A SUBACK packet without a QoS. -/
theorem not_subackExact_empty : ¬SubackExact ⟨true, fun _ => true⟩ 4 0x90 [0, 1] := by
  rintro ⟨_, parsed, _⟩
  rw [suback_cons rfl, if_neg fun both => both.1 rfl] at parsed
  cases parsed

end MqttClient.MQTTPacket.Checked
