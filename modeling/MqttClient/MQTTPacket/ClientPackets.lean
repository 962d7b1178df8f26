import MqttClient.MQTTPacket.FactoryRuns
import MqttClient.MQTTPacket.RequestBodies
import MqttClient.Socket.OneStream

/-! # The packets of a client

The functions that send offer a socket one packet of four kinds, or nothing.
-/

namespace MqttClient.MQTTPacket

open Foundation Socket

inductive FromClient : Frame UInt8 → Prop
  | connect {client : Clients} {MQTTVersion : Int} {body : List UInt8}
      (built : connectBody client MQTTVersion = some body)
      (small : body.length ≤ maxRemainingLength) :
      FromClient (sentFrame (.ofBits MsgType.connect 0 0 0) body small)
  | publish {pack : Publish} {qos retained : Int} {bufs : PacketBuffers}
      (built : publishBuffers pack qos = some bufs)
      (small : bufs.buffers.flatten.length ≤ maxRemainingLength) :
      FromClient (sentFrame (.ofBits MsgType.publish 0 qos retained) bufs.buffers.flatten small)
  | puback {msgid : Int} (small : (writeInt msgid).length ≤ maxRemainingLength) :
      FromClient (sentFrame (.ofBits MsgType.puback 0 0 0) (writeInt msgid) small)
  | subscribe {topic : CString} {qos : Int}
      (small : (subscribeBody [(topic, qos)] 0).length ≤ maxRemainingLength) :
      FromClient
        (sentFrame (.ofBits MsgType.subscribe 0 1 0) (subscribeBody [(topic, qos)] 0) small)

/-- A frame of a CONNECT packet. -/
def Frame.IsConnect (frame : Frame UInt8) : Prop := (Header.mk frame.header).type = MsgType.connect

instance (frame : Frame UInt8) : Decidable frame.IsConnect :=
  inferInstanceAs (Decidable (_ = _))

theorem isConnect_sentFrame {type : Nat} {dup qos retained : Int} {body : List UInt8}
    (small : body.length ≤ maxRemainingLength) :
    (sentFrame (.ofBits type dup qos retained) body small).IsConnect ↔
      type % 16 = MsgType.connect := by
  rw [← Header.type_ofBits type dup qos retained]
  rfl

inductive Sending (kind : Frame UInt8 → Prop) (socket : SOCKET) (before after : SocketWrites) : Prop
  | unsent (advances : ∀ other, Advances other before after)
  | offered {frame : Frame UInt8} (is : kind frame)
      (offers : Offers socket frame.bytes before after)

section Send

variable {state after : SocketWrites} {socket : SOCKET} {client : Clients} {rc : Int}

theorem Sending.of_eq {kind : Frame UInt8 → Prop} (same : after = state) :
    Sending kind socket state after := by
  subst same
  exact .unsent fun other => .refl other after

theorem sends_offers (consistent : state.Consistent) (socket : SOCKET) (header : Header)
    (bufs : PacketBuffers) (small : bufs.buffers.flatten.length ≤ maxRemainingLength) :
    (sends socket header bufs state).2.Consistent ∧
      Offers socket (sentFrame header bufs.buffers.flatten small).bytes state
        (sends socket header bufs state).2 := by
  have offers := putdatas_offers consistent socket
    (buf0 header (bufs.buffers.map List.length).sum) bufs
  have whole : (buf0 header (bufs.buffers.map List.length).sum :: bufs.buffers).flatten =
      (sentFrame header bufs.buffers.flatten small).bytes := by
    rw [List.flatten_cons, ← List.length_flatten]
    rfl
  rw [whole] at offers
  exact ⟨(putdatas_spec consistent socket _ bufs).2.1, offers⟩

theorem send_offers (consistent : state.Consistent) (socket : SOCKET) (header : Header)
    {buffer : List UInt8} (small : buffer.length ≤ maxRemainingLength) :
    (send socket header buffer state).2.Consistent ∧
      Offers socket (sentFrame header buffer small).bytes state
        (send socket header buffer state).2 := by
  have offers := putdatas_offers consistent socket (buf0 header buffer.length) ⟨[buffer], by simp⟩
  have whole : (buf0 header buffer.length :: [buffer]).flatten =
      (sentFrame header buffer small).bytes := by
    rw [List.flatten_cons, List.flatten_singleton]
    rfl
  rw [whole] at offers
  exact ⟨(putdatas_spec consistent socket _ _).2.1, offers⟩

structure ShortStrings (client : Clients) : Prop where
  clientID : client.clientID.bytes.length ≤ 65535
  username : ∀ username, client.username = .string username → username.bytes.length ≤ 65535
  password : ∀ password, client.password = .string password → password.bytes.length ≤ 65535

theorem length_optional {username : CharPtr} {string : Option CString}
    (read : optionalString username = some string) (write : CString → List UInt8)
    (short : ∀ string, username = .string string → (write string).length ≤ 65537) :
    ((string.map write).getD []).length ≤ 65537 := by
  cases username with
  | null =>
      cases read
      exact Nat.zero_le _
  | freed => cases read
  | string given =>
      cases read
      exact short given rfl

theorem ShortStrings.connectBody (short : ShortStrings client) {MQTTVersion : Int}
    {body : List UInt8} (built : connectBody client MQTTVersion = some body) :
    body.length ≤ maxRemainingLength := by
  cases hasUsername : optionalString client.username with
  | none =>
      rw [MQTTPacket.connectBody, hasUsername] at built
      cases built
  | some username =>
      cases hasPassword : optionalString client.password with
      | none =>
          rw [MQTTPacket.connectBody, hasUsername, hasPassword] at built
          cases built
      | some password =>
          rw [connectBody_eq hasUsername hasPassword MQTTVersion, Option.some.injEq] at built
          have user := length_optional hasUsername writeUTF fun string here => by
            have fits := short.username string here
            rw [length_writeUTF]
            omega
          have pass := length_optional hasPassword
            (fun password => writeData (password.bytes.take client.passwordlen.toNat))
            fun string here => by
              have fits := short.password string here
              have taken := List.length_take_le' client.passwordlen.toNat string.bytes
              rw [writeData, List.length_append, length_writeInt]
              omega
          have named := short.clientID
          have protocol : (writeUTF ⟨[0x4d, 0x51, 0x54, 0x54], by decide⟩).length = 6 := rfl
          rw [← built]
          simp only [List.length_append, length_writeUTF client.clientID, length_writeInt,
            protocol, writeChar, List.length_singleton]
          unfold maxRemainingLength
          omega

theorem sendConnect_sending (consistent : state.Consistent) (short : ShortStrings client)
    {MQTTVersion : Int} (sent : sendConnect client MQTTVersion state = some (rc, after)) :
    after.Consistent ∧
      Sending (fun frame => FromClient frame ∧ frame.IsConnect) client.socket state after := by
  rcases Option.map_eq_some_iff.mp sent with ⟨block, filled, same⟩
  cases block with
  | none =>
      cases same
      exact ⟨consistent, .of_eq rfl⟩
  | some body =>
      have built := connectBlock_eq_some filled
      have small := short.connectBody built
      rcases send_offers consistent client.socket (.ofBits MsgType.connect 0 0 0) small with
        ⟨kept, offers⟩
      change send client.socket _ body state = _ at same
      rw [same] at kept offers
      exact ⟨kept, .offered ⟨.connect built small, (isConnect_sentFrame small).mpr rfl⟩ offers⟩

theorem sendSubscribe_sending (consistent : state.Consistent) {topic : CString} {qos : Int}
    (short : topic.bytes.length ≤ 65535)
    (sent : sendSubscribe [(topic, qos)] 0 0 client state = some (rc, after)) :
    after.Consistent ∧
      Sending (fun frame => FromClient frame ∧ ¬frame.IsConnect) client.socket state after := by
  rcases Option.map_eq_some_iff.mp sent with ⟨block, filled, same⟩
  cases block with
  | none =>
      cases same
      exact ⟨consistent, .of_eq rfl⟩
  | some data =>
      cases (fillBlock_eq_some filled).1
      have small : (subscribeBody [(topic, qos)] 0).length ≤ maxRemainingLength := by
        simp only [subscribeBody, List.length_append, length_writeInt, List.map_singleton,
          List.flatten_singleton, length_writeUTF, writeChar, List.length_singleton]
        unfold maxRemainingLength
        omega
      rcases send_offers consistent client.socket (.ofBits MsgType.subscribe 0 1 0) small with
        ⟨kept, offers⟩
      change send client.socket _ (subscribeBody [(topic, qos)] 0) state = _ at same
      rw [same] at kept offers
      exact ⟨kept, .offered ⟨.subscribe small, mt (isConnect_sentFrame small).mp (by decide)⟩
        offers⟩

theorem sendPuback_sending (consistent : state.Consistent) (msgid : Int) (socket : SOCKET) :
    (sendPuback msgid socket state).2.Consistent ∧
      Sending (fun frame => FromClient frame ∧ ¬frame.IsConnect) socket state
        (sendPuback msgid socket state).2 := by
  have small : (writeInt msgid).length ≤ maxRemainingLength := by
    rw [length_writeInt]
    decide
  rcases send_offers consistent socket (.ofBits MsgType.puback 0 0 0) small with ⟨kept, offers⟩
  exact ⟨kept, .offered ⟨.puback small, mt (isConnect_sentFrame small).mp (by decide)⟩ offers⟩

theorem length_publishBuffers {pack : Publish} {qos : Int} {bufs : PacketBuffers} {topic : CString}
    (named : pack.topic = topic.bytes) (measured : pack.payloadlen = pack.payload.length)
    (built : publishBuffers pack qos = some bufs) :
    bufs.buffers.length = 4 ∧ (bufs.buffers.flatten.length : Int) =
      2 + topic.bytes.length + publishBuflen pack qos + pack.payload.length := by
  simp only [publishBuffers, named, CString.ofBlock_bytes, measured] at built
  split at built
  · rename_i filled
    cases built
    refine ⟨rfl, ?_⟩
    rw [← filled.1]
    simp only [List.flatten_cons, List.flatten_nil, List.length_append, length_writeInt,
      Int.toNat_natCast, List.take_length, List.length_nil]
    omega
  · cases built

theorem sendPublish_sending (consistent : state.Consistent) (topic : CString) {pack : Publish}
    {qos retained : Int} (named : pack.topic = topic.bytes)
    (measured : pack.payloadlen = pack.payload.length)
    (fits : 2 + topic.bytes.length + publishBuflen pack qos + pack.payload.length ≤
      maxRemainingLength)
    (sent : sendPublish pack 0 qos retained socket state = some (rc, after)) :
    after.Consistent ∧
      Sending (fun frame => FromClient frame ∧ ¬frame.IsConnect) socket state after ∧
      (rc = tcpsocketInterrupted → ∀ pw, after.pending socket = some pw → pw.count ≠ 4) := by
  unfold sendPublish at sent
  dsimp only at sent
  split at sent
  · rcases Option.map_eq_some_iff.mp sent with ⟨bufs, built, same⟩
    rcases length_publishBuffers named measured built with ⟨four, length⟩
    have small : bufs.buffers.flatten.length ≤ maxRemainingLength := by omega
    rcases sends_offers consistent socket (.ofBits MsgType.publish 0 qos retained) bufs small with
      ⟨kept, offers⟩
    rw [same] at kept offers
    refine ⟨kept, .offered ⟨.publish built small, mt (isConnect_sentFrame small).mp (by decide)⟩
      offers, fun interrupted pw pending => ?_⟩
    have spec := (putdatas_spec consistent socket (buf0 (.ofBits MsgType.publish 0 qos retained)
      (bufs.buffers.map List.length).sum) bufs).1
    change Socket.putdatas _ _ _ _ = _ at same
    rw [same] at spec
    cases spec with
    | unwritten accepted unchanged => exact absurd interrupted (by decide)
    | written idle front accepted registered code =>
        rw [registered, Function.update_self] at pending
        split at pending
        · cases pending
        · cases pending
          rw [PendingWrites.count, List.length_cons, four]
          decide
  · cases sent
    exact ⟨consistent, .of_eq rfl, fun interrupted => absurd interrupted (by decide)⟩

end Send

end MqttClient.MQTTPacket
