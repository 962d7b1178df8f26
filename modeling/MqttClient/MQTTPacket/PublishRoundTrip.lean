import MqttClient.MQTTPacket.FactoryRuns

/-! # Sending and reading back a PUBLISH packet

Before version 5, `MQTTPacket_Factory` reads back what `MQTTPacket_send_publish`
sent. In version 5 the parser takes the properties that the encoder writes for the
start of the payload.
-/

namespace MqttClient.MQTTPacket

open Foundation

theorem readInt_writeInt {value : Int} (nonnegative : 0 ≤ value) (small : value < 65536)
    (rest : List UInt8) : readInt (writeInt value ++ rest) = (value, rest) := by
  have high := toNat_toChar (show 0 ≤ value.tdiv 256 from Int.tdiv_nonneg nonnegative (by decide))
    (by rw [Int.tdiv_eq_ediv_of_nonneg nonnegative]; omega)
  have low := toNat_toChar (show 0 ≤ value.tmod 256 from Int.tmod_nonneg _ nonnegative)
    (Int.tmod_lt_of_pos _ (by decide))
  rw [Int.tdiv_eq_ediv_of_nonneg nonnegative] at high
  rw [Int.tmod_eq_emod_of_nonneg nonnegative] at low
  unfold readInt writeInt
  rw [Int.tdiv_eq_ediv_of_nonneg nonnegative, Int.tmod_eq_emod_of_nonneg nonnegative]
  simp only [List.cons_append, List.nil_append, List.getD_cons_zero, List.getD_cons_succ,
    List.drop_succ_cons, List.drop_zero, high, low, Prod.mk.injEq, and_true]
  omega

theorem readUTFlen_writeInt {string : List UInt8} (fits : string.length ≤ 65535)
    (rest : List UInt8) :
    readUTFlen (writeInt string.length ++ (string ++ rest)) =
      some (string, (string.length : Int), rest) := by
  rw [readUTFlen, readInt_writeInt (by omega) (by omega),
    if_pos (by simp only [List.length_append, length_writeInt]; omega)]
  dsimp only
  rw [if_pos (by simp), Int.toNat_natCast, List.take_left, List.drop_left]

theorem flatten_publishBuffers {pack : Publish} {qos : Int} {topic : CString}
    {bufs : PacketBuffers} (named : pack.topic = topic.bytes)
    (fits : topic.bytes.length ≤ 65535) (measured : pack.payloadlen = pack.payload.length)
    (built : publishBuffers pack qos = some bufs) :
    bufs.buffers.flatten = writeInt topic.bytes.length ++ (topic.bytes ++
      (publishSection pack qos ++ pack.payload)) := by
  have bound : (topic.bytes.length : Int) < 2147483648 := by omega
  have length := toInt_of_lt (Int.natCast_nonneg _) bound
  simp only [publishBuffers, named, CString.ofBlock_bytes, length, measured] at built
  split at built
  · cases built
    simp
  · cases built

theorem publishBuffers_isSome {pack : Publish} (old : pack.mqttVersion < 5)
    (measured : pack.payloadlen = pack.payload.length) (qos : Int) :
    ∃ bufs, publishBuffers pack qos = some bufs := by
  have notNew : ¬pack.mqttVersion ≥ 5 := by omega
  have filled : (publishSection pack qos).length = publishBuflen pack qos := by
    rw [publishSection, publishBuflen, if_neg notNew, if_neg notNew]
    split <;> simp
  rw [publishBuffers, if_pos ⟨filled, by omega, by omega⟩]
  exact ⟨_, rfl⟩

theorem publishBuffers_isSome_of_built {pack : Publish}
    (built : pack.properties.Built) (small : pack.properties.length < 268435456)
    (measured : pack.payloadlen = pack.payload.length) (qos : Int) :
    ∃ bufs, publishBuffers pack qos = some bufs := by
  have written := built.length_write small
  have filled : (publishSection pack qos).length = publishBuflen pack qos := by
    rw [publishSection, publishBuflen, List.length_append]
    split <;> split <;> simp <;> omega
  rw [publishBuffers, if_pos ⟨filled, by omega, by omega⟩]
  exact ⟨_, rfl⟩

theorem publish_writeInt {topic : List UInt8} (fits : topic.length ≤ 65535)
    (MQTTVersion : Int) (aHeader : UInt8) (rest : List UInt8) :
    publish MQTTVersion aHeader (writeInt topic.length ++ (topic ++ rest)) =
      let header : Header := ⟨aHeader⟩
      if header.qos > 0 then
        if rest.length < 2 then .null
        else .pack (.publish ⟨header, topic, topic.length, (readInt rest).1, (readInt rest).2,
          toInt (readInt rest).2.length, MQTTVersion, .zero⟩)
      else .pack (.publish ⟨header, topic, topic.length, 0, rest, toInt rest.length,
        MQTTVersion, .zero⟩) := by
  rw [publish, readUTFlen_writeInt fits]

theorem publish_flatten {pack : Publish} {qos : Int} {topic : CString}
    {bufs : PacketBuffers} (named : pack.topic = topic.bytes)
    (fits : topic.bytes.length ≤ 65535) (measured : pack.payloadlen = pack.payload.length)
    (qosRange : 0 ≤ qos ∧ qos ≤ 2) (idRange : 0 ≤ pack.msgId ∧ pack.msgId ≤ 65535)
    (built : publishBuffers pack qos = some bufs) (dup retained MQTTVersion : Int) :
    let header := Header.ofBits MsgType.publish dup qos retained
    let payload :=
      (if pack.mqttVersion ≥ 5 then pack.properties.write.1 else []) ++ pack.payload
    publish MQTTVersion header.byte bufs.buffers.flatten =
      .pack (.publish ⟨header, topic.bytes, topic.bytes.length,
        if qos > 0 then pack.msgId else 0, payload, toInt payload.length, MQTTVersion, .zero⟩) := by
  intro header payload
  have sameQos : (header.qos : Int) = qos := by
    rw [Header.qos_ofBits]
    omega
  rw [flatten_publishBuffers named fits measured built, publish_writeInt fits, publishSection]
  dsimp only
  by_cases positive : qos > 0
  · rw [if_pos (by change header.qos > 0; omega), if_pos positive, if_pos positive,
      List.append_assoc, readInt_writeInt idRange.1 (by omega),
      if_neg (by simp only [List.length_append, length_writeInt]; omega)]
  · rw [if_neg (by change ¬header.qos > 0; omega), if_neg positive, if_neg positive,
      List.nil_append]

theorem dispatch_publish {MQTTVersion : Int} {aHeader : UInt8} {body : List UInt8}
    {parsed : Packet} (type : (Header.mk aHeader).type = MsgType.publish)
    (pack : publish MQTTVersion aHeader body = .pack parsed) :
    dispatch MQTTVersion aHeader body = .returned tcpsocketComplete (some parsed) := by
  rw [dispatch, type]
  rw [if_neg (by unfold MsgType.publish MsgType.connect MsgType.disconnect MsgType.auth; omega)]
  simp only [newPackets, MsgType.publish, List.getElem?_cons_succ, List.getElem?_cons_zero]
  rw [pack]

theorem result_sentFrame {header : Header} {body : List UInt8}
    (small : body.length ≤ maxRemainingLength) (MQTTVersion : Int) :
    (sentFrame header body small).result MQTTVersion = dispatch MQTTVersion header.byte body :=
  congrArg (dispatch MQTTVersion header.byte) (List.map_id body)

/-- Whatever the state of the socket, `MQTTPacket_send_publish` offers it one packet,
and one call of `MQTTPacket_Factory` on a connection that starts with the packet's
bytes reads the publish back and leaves what is behind them. -/
theorem factory_sendPublish {pack : Publish} {dup qos retained : Int} {topic : CString}
    (old : pack.mqttVersion < 5) (named : pack.topic = topic.bytes)
    (fits : topic.bytes.length ≤ 65535) (measured : pack.payloadlen = pack.payload.length)
    (small : 2 + topic.bytes.length + 2 + pack.payload.length ≤ maxRemainingLength)
    (qosRange : qos = 1 ∨ qos = 2) (dupBit : dup = 0 ∨ dup = 1)
    (retainBit : retained = 0 ∨ retained = 1)
    (idRange : 1 ≤ pack.msgId ∧ pack.msgId ≤ 65535) :
    ∃ (first : List UInt8) (bufs : PacketBuffers) (header : Header),
      (header.dup = dup ∧ header.qos = qos ∧ header.retain = retained) ∧
      (∀ socket writes, sendPublish pack dup qos retained socket writes =
        some (Socket.putdatas socket first bufs writes)) ∧
      ∀ (MQTTVersion : Int) (socket : SOCKET) (rest : List UInt8), 0 < socket →
        let bytes := (first :: bufs.buffers).flatten
        let called := factory MQTTVersion socket
          ⟨.start, fun _ => RecvSource.putBack (bytes ++ rest) []⟩
        called.1.result = .returned tcpsocketComplete (some (.publish ⟨header, topic.bytes,
            topic.bytes.length, pack.msgId, pack.payload, pack.payload.length, MQTTVersion,
            .zero⟩)) ∧
          called.2.inbound socket = RecvSource.putBack rest [] := by
  rcases publishBuffers_isSome old measured qos with ⟨bufs, built⟩
  have positive : qos > 0 := by omega
  have notNew : ¬pack.mqttVersion ≥ 5 := by omega
  have body := flatten_publishBuffers named fits measured built
  have length : bufs.buffers.flatten.length ≤ maxRemainingLength := by
    rw [body, publishSection, if_pos positive, if_neg notNew]
    simp only [List.length_append, length_writeInt, List.length_nil]
    omega
  let header := Header.ofBits MsgType.publish dup qos retained
  let frame := sentFrame header bufs.buffers.flatten length
  refine ⟨buf0 header bufs.buffers.flatten.length, bufs, header, ?_, ?_, ?_⟩
  · simp only [header, Header.dup_ofBits, Header.qos_ofBits, Header.retain_ofBits]
    omega
  · intro socket writes
    rw [sendPublish, if_pos (.inl positive), built, Option.map_some, sends,
      List.length_flatten]
  · intro MQTTVersion socket rest isSocket bytes called
    have read := factory_frame frame rest MQTTVersion isSocket rfl
    have parsed := publish_flatten named fits measured (by omega) (by omega) built dup retained
      MQTTVersion
    dsimp only at parsed
    have counted : toInt pack.payload.length = pack.payload.length :=
      toInt_of_lt (Int.natCast_nonneg _) (by unfold maxRemainingLength at small; omega)
    rw [if_neg notNew, if_pos positive, List.nil_append, counted] at parsed
    refine ⟨read.1.trans ?_, read.2.1⟩
    rw [result_sentFrame]
    exact dispatch_publish (Header.type_ofBits ..) parsed

/-- QoS 2 with the duplicate and the retain bit, without payload, and a packet behind it. -/
theorem factory_sendPublish_qos2 :
    let pack : Publish := ⟨⟨0⟩, [97, 47, 98], 3, 65535, [], 0, 4, .zero⟩
    ∃ (first : List UInt8) (bufs : PacketBuffers) (header : Header),
      ((header.dup : Int) = 1 ∧ (header.qos : Int) = 2 ∧ (header.retain : Int) = 1) ∧
      (∀ socket writes, sendPublish pack 1 2 1 socket writes =
        some (Socket.putdatas socket first bufs writes)) ∧
      let called := factory 4 3
        ⟨.start, fun _ => RecvSource.putBack ((first :: bufs.buffers).flatten ++ [0xd0, 0]) []⟩
      called.1.result = .returned tcpsocketComplete
          (some (.publish ⟨header, [97, 47, 98], 3, 65535, [], 0, 4, .zero⟩)) ∧
        called.2.inbound 3 = RecvSource.putBack [0xd0, 0] [] := by
  intro pack
  rcases @factory_sendPublish pack 1 2 1 ⟨[97, 47, 98], by decide⟩ (by decide) rfl (by decide)
    rfl (by decide) (.inr rfl) (.inr rfl) (.inr rfl) (by decide) with
    ⟨first, bufs, header, bits, sent, read⟩
  exact ⟨first, bufs, header, bits, sent, read 4 3 [0xd0, 0] (by decide)⟩

/-! ## Version 5 -/

/-- The parser of version 5 gives back the topic, the message id and the payload of the
packet that is sent in version 5. -/
def RoundTrips (pack : Publish) (dup qos retained : Int) : Prop :=
  ∃ bufs parsed, publishBuffers pack qos = some bufs ∧
    publish 5 (Header.ofBits MsgType.publish dup qos retained).byte bufs.buffers.flatten =
      .pack (.publish parsed) ∧
    parsed.topic = pack.topic ∧ (qos > 0 → parsed.msgId = pack.msgId) ∧
    parsed.payload = pack.payload

/-- In version 5 no PUBLISH packet is read back: the parser returns the property section
that the encoder wrote as the start of the payload. -/
theorem not_roundTrips {pack : Publish} {dup qos retained : Int} {topic : CString}
    (new : pack.mqttVersion ≥ 5) (named : pack.topic = topic.bytes)
    (fits : topic.bytes.length ≤ 65535) (measured : pack.payloadlen = pack.payload.length)
    (qosRange : 0 ≤ qos ∧ qos ≤ 2) (idRange : 0 ≤ pack.msgId ∧ pack.msgId ≤ 65535) :
    (pack.properties.Built → pack.properties.length < 268435456 →
      ∃ bufs parsed, publishBuffers pack qos = some bufs ∧
        publish 5 (Header.ofBits MsgType.publish dup qos retained).byte bufs.buffers.flatten =
          .pack (.publish parsed) ∧
        parsed.payload = pack.properties.write.1 ++ pack.payload) ∧
      ¬RoundTrips pack dup qos retained := by
  have parse {bufs : PacketBuffers} (buffers : publishBuffers pack qos = some bufs) :=
    publish_flatten named fits measured qosRange idRange buffers dup retained 5
  rw [if_pos new] at parse
  refine ⟨fun built small => ?_, ?_⟩
  · rcases publishBuffers_isSome_of_built built small measured qos with ⟨bufs, buffers⟩
    exact ⟨bufs, _, buffers, parse buffers, rfl⟩
  · rintro ⟨bufs, parsed, buffers, returned, _, _, payload⟩
    rw [parse buffers] at returned
    cases returned
    exact pack.properties.write_ne_nil (List.append_left_eq_self.mp payload)

/-- A publish of QoS 2 with both flags and two properties, the payload format indicator and the
expiry interval. -/
theorem not_roundTrips_properties :
    let properties :=
      ((MQTTProperties.zero.add ⟨1, { byte := 1 }⟩).2.add ⟨2, { integer4 := 60 }⟩).2
    let pack : Publish := ⟨⟨0⟩, [97, 47, 98], 3, 65535, [120, 121], 2, 5, properties⟩
    (∃ bufs parsed, publishBuffers pack 2 = some bufs ∧
      publish 5 (Header.ofBits MsgType.publish 1 2 1).byte bufs.buffers.flatten =
        .pack (.publish parsed) ∧
      parsed.payload = properties.write.1 ++ [120, 121]) ∧ ¬RoundTrips pack 1 2 1 := by
  intro properties pack
  have built : properties.Built := .add (.add .zero trivial) trivial
  have result := @not_roundTrips pack 1 2 1 ⟨[97, 47, 98], by decide⟩ (by decide) rfl (by decide)
    rfl (by decide) (by decide)
  exact ⟨result.1 built (by decide), result.2⟩

/-- Without properties, the length 0 that the encoder writes for them comes back as the
first byte of the payload. -/
theorem not_roundTrips_empty :
    ¬RoundTrips ⟨⟨0⟩, [97], 1, 1, [120], 1, 5, .zero⟩ 0 1 0 := by
  rintro ⟨bufs, parsed, buffers, returned, _, _, payload⟩
  have named : (Publish.mk ⟨0⟩ [97] 1 1 [120] 1 5 .zero).topic =
      CString.bytes ⟨[97], by decide⟩ := rfl
  rw [publish_flatten named (by decide) rfl (by decide) (by decide) buffers 0 0 5] at returned
  cases returned
  have same : (MQTTProperties.zero.write.1 ++ [120] : List UInt8) = [120] := payload
  exact MQTTProperties.zero.write_ne_nil (List.append_left_eq_self.mp same)

end MqttClient.MQTTPacket
