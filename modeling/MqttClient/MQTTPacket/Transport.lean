import MqttClient.MQTTPacket.Fragmentation
import MqttClient.MQTTPacket.PublishRoundTrip
import MqttClient.Socket.WriteStream

/-! # Packets from one end of a connection to the other

One end sends PUBLISH and PUBACK packets and continues its partial writes; the other calls
`MQTTPacket_Factory` on the bytes that the first end's kernel has accepted. However the bytes are
cut on either side, the packets arrive whole and in order.
-/

namespace MqttClient.MQTTPacket

open Foundation

/-! ## What is sent -/

inductive Outgoing
  | publish (pack : Publish) (dup qos retained : Int)
  | puback (msgid : Int)
  deriving DecidableEq

structure PublishReadable (pack : Publish) (dup qos retained : Int) : Prop where
  old : pack.mqttVersion < 5
  named : ∃ topic : CString, pack.topic = topic.bytes
  topicFits : pack.topic.length ≤ 65535
  measured : pack.payloadlen = pack.payload.length
  small : 2 + pack.topic.length + 2 + pack.payload.length ≤ maxRemainingLength
  qosRange : qos = 1 ∨ qos = 2
  dupBit : dup = 0 ∨ dup = 1
  retainBit : retained = 0 ∨ retained = 1
  idRange : 1 ≤ pack.msgId ∧ pack.msgId ≤ 65535

theorem no_buffers : ([] : List (List UInt8)).length ≤ 4 := Nat.zero_le 4

theorem one_buffer (msgid : Int) : [writeInt msgid].length ≤ 4 := Nat.le_add_left 1 3

namespace Outgoing

def Readable : Outgoing → Prop
  | publish pack dup qos retained => PublishReadable pack dup qos retained
  | puback msgid => 0 ≤ msgid ∧ msgid ≤ 65535

def send (outgoing : Outgoing) (socket : SOCKET) (state : SocketWrites) :
    Option (Int × SocketWrites) :=
  match outgoing with
  | publish pack dup qos retained => sendPublish pack dup qos retained socket state
  | puback msgid => some (sendPuback msgid socket state)

def header : Outgoing → Header
  | publish _ dup qos retained => .ofBits MsgType.publish dup qos retained
  | puback _ => .ofBits MsgType.puback 0 0 0

def buffers : Outgoing → PacketBuffers
  | publish pack _ qos _ => (publishBuffers pack qos).getD ⟨[], no_buffers⟩
  | puback msgid => ⟨[writeInt msgid], one_buffer msgid⟩

def first (outgoing : Outgoing) : List UInt8 :=
  buf0 outgoing.header (outgoing.buffers.buffers.map List.length).sum

def wire (outgoing : Outgoing) : List UInt8 :=
  (outgoing.first :: outgoing.buffers.buffers).flatten

def received (MQTTVersion : Int) : Outgoing → Packet
  | publish pack dup qos retained =>
      .publish ⟨.ofBits MsgType.publish dup qos retained, pack.topic, pack.topic.length, pack.msgId,
        pack.payload, pack.payloadlen, MQTTVersion, .zero⟩
  | puback msgid => .ack ⟨.ofBits MsgType.puback 0 0 0, some msgid, MQTTVersion⟩

variable {outgoing : Outgoing}

theorem send_eq (readable : outgoing.Readable) (socket : SOCKET) (state : SocketWrites) :
    outgoing.send socket state =
      some (Socket.putdatas socket outgoing.first outgoing.buffers state) := by
  cases outgoing with
  | publish pack dup qos retained =>
      rcases publishBuffers_isSome readable.old readable.measured qos with ⟨bufs, built⟩
      have positive : qos > 0 := by
        have := readable.qosRange
        omega
      rw [send, sendPublish, if_pos (.inl positive), built, Option.map_some, sends, first, buffers,
        built]
      rfl
  | puback msgid =>
      rw [send, sendPuback, sendAck, MQTTPacket.send, first, buffers, List.map_singleton,
        List.sum_singleton]
      rfl

theorem dispatch_puback {msgid : Int} (range : 0 ≤ msgid ∧ msgid ≤ 65535) (MQTTVersion : Int) :
    dispatch MQTTVersion (Header.ofBits MsgType.puback 0 0 0).byte (writeInt msgid) =
      .returned tcpsocketComplete
        (some (.ack ⟨.ofBits MsgType.puback 0 0 0, some msgid, MQTTVersion⟩)) := by
  have type : (Header.ofBits MsgType.puback 0 0 0).type = MsgType.puback := Header.type_ofBits ..
  have other : MsgType.puback ≠ MsgType.disconnect := by decide
  have read := readInt_writeInt range.1 (by omega) []
  rw [List.append_nil] at read
  rw [dispatch, type]
  rw [if_neg (by unfold MsgType.puback MsgType.connect MsgType.disconnect MsgType.auth; omega)]
  simp only [newPackets, MsgType.puback, List.getElem?_cons_succ, List.getElem?_cons_zero]
  change (Header.mk (Header.ofBits MsgType.puback 0 0 0).byte).type = MsgType.puback at type
  rw [ack, type, if_pos other, length_writeInt, if_neg (Nat.lt_irrefl 2), read]

theorem length_buffers_le (readable : outgoing.Readable) :
    outgoing.buffers.buffers.flatten.length ≤ maxRemainingLength := by
  cases outgoing with
  | publish pack dup qos retained =>
      rcases readable.named with ⟨topic, named⟩
      rcases publishBuffers_isSome readable.old readable.measured qos with ⟨bufs, built⟩
      have small := readable.small
      have fits := readable.topicFits
      rw [named] at small fits
      have positive : qos > 0 := by
        have := readable.qosRange
        omega
      have notNew : ¬pack.mqttVersion ≥ 5 := by
        have := readable.old
        omega
      rw [buffers, built, Option.getD_some,
        flatten_publishBuffers named fits readable.measured built, publishSection,
        if_pos positive, if_neg notNew]
      simp only [List.length_append, length_writeInt, List.length_nil]
      omega
  | puback msgid =>
      rw [buffers, List.flatten_singleton, length_writeInt]
      decide

theorem dispatch_buffers (readable : outgoing.Readable) (MQTTVersion : Int) :
    dispatch MQTTVersion outgoing.header.byte outgoing.buffers.buffers.flatten =
      .returned tcpsocketComplete (some (outgoing.received MQTTVersion)) := by
  cases outgoing with
  | publish pack dup qos retained =>
      rcases readable.named with ⟨topic, named⟩
      rcases publishBuffers_isSome readable.old readable.measured qos with ⟨bufs, built⟩
      have qosRange := readable.qosRange
      have idRange := readable.idRange
      have small := readable.small
      have fits := readable.topicFits
      rw [named] at fits
      have positive : qos > 0 := by omega
      have notNew : ¬pack.mqttVersion ≥ 5 := by
        have := readable.old
        omega
      have parsed := publish_flatten named fits readable.measured (by omega) (by omega) built
        dup retained MQTTVersion
      dsimp only at parsed
      have counted : toInt pack.payload.length = pack.payload.length :=
        toInt_of_lt (Int.natCast_nonneg _) (by unfold maxRemainingLength at small; omega)
      rw [if_neg notNew, if_pos positive, List.nil_append, counted] at parsed
      rw [header, buffers, built, Option.getD_some, received, named, readable.measured]
      exact dispatch_publish (Header.type_ofBits ..) parsed
  | puback msgid =>
      rw [buffers, List.flatten_singleton]
      exact dispatch_puback readable MQTTVersion

theorem exists_frame (readable : outgoing.Readable) :
    ∃ frame : Frame UInt8, frame.bytes = outgoing.wire ∧ ∀ MQTTVersion,
      frame.result MQTTVersion =
        .returned tcpsocketComplete (some (outgoing.received MQTTVersion)) := by
  refine ⟨sentFrame outgoing.header outgoing.buffers.buffers.flatten
    (length_buffers_le readable), ?_, fun MQTTVersion => ?_⟩
  · rw [wire, first, List.flatten_cons, ← List.length_flatten]
    rfl
  · rw [result_sentFrame, dispatch_buffers readable]

end Outgoing

/-! ## Runs -/

/-- An operation of the sending end. -/
inductive SendAction
  | send (outgoing : Outgoing) (socket : SOCKET)
  | continueWrites (pwset : SOCKET → Bool) (sock : SOCKET)

structure Sent where
  socket : SOCKET
  outgoing : Outgoing
  rc : Int

def runSends : List SendAction → SocketWrites → Option (List Sent × SocketWrites)
  | [], state => some ([], state)
  | .send outgoing socket :: actions, state =>
      (outgoing.send socket state).bind fun called =>
        (runSends actions called.2).map fun later =>
          (⟨socket, outgoing, called.1⟩ :: later.1, later.2)
  | .continueWrites pwset sock :: actions, state =>
      (Socket.continueWrites pwset sock state).bind fun called => runSends actions called.2.2

def sentOn (socket : SOCKET) (sents : List Sent) : List Outgoing :=
  (sents.filter fun sent => sent.socket = socket ∧ sent.rc ≠ socketError).map Sent.outgoing

namespace SendAction

def Readable : SendAction → Prop
  | send outgoing _ => outgoing.Readable
  | continueWrites .. => True

def toWrite : SendAction → Socket.WriteAction
  | send outgoing socket => .putdatas socket outgoing.first outgoing.buffers
  | continueWrites pwset sock => .continueWrites pwset sock

end SendAction

def Sent.offered (sent : Sent) : Socket.Offered := ⟨sent.socket, sent.outgoing.wire, sent.rc⟩

theorem exists_runSends {actions : List SendAction}
    (readable : ∀ action ∈ actions, action.Readable) {state after : SocketWrites}
    {offers : List Socket.Offered}
    (run : Socket.runWrites (actions.map SendAction.toWrite) state = some (offers, after)) :
    ∃ sents, runSends actions state = some (sents, after) ∧ sents.map Sent.offered = offers ∧
      ∀ sent ∈ sents, sent.outgoing.Readable := by
  induction actions generalizing state offers with
  | nil =>
      cases run
      exact ⟨[], rfl, rfl, by simp⟩
  | cons action actions induction =>
      have here := readable action (List.mem_cons_self ..)
      have others := fun other member => readable other (List.mem_cons_of_mem action member)
      rw [List.map_cons] at run
      cases action with
      | send outgoing socket =>
          have sent := Outgoing.send_eq here socket state
          rcases Option.map_eq_some_iff.mp run with ⟨⟨later, final⟩, ran, same⟩
          cases same
          rcases induction others ran with ⟨sents, sentRun, rfl, sentReadable⟩
          refine ⟨⟨socket, outgoing, _⟩ :: sents, ?_, rfl, ?_⟩
          · rw [runSends, sent, Option.bind_some, sentRun, Option.map_some]
          · intro sent member
            rcases List.mem_cons.mp member with rfl | member
            · exact here
            · exact sentReadable sent member
      | continueWrites pwset sock =>
          rcases Option.bind_eq_some_iff.mp run with ⟨called, continued, ran⟩
          rcases induction others ran with ⟨sents, sentRun, rest⟩
          refine ⟨sents, ?_, rest⟩
          rw [runSends, continued, Option.bind_some, sentRun]

theorem takenOn_offered (socket : SOCKET) (sents : List Sent) :
    Socket.takenOn socket (sents.map Sent.offered) = (sentOn socket sents).map Outgoing.wire := by
  unfold Socket.takenOn sentOn
  rw [List.filter_map, List.map_map, List.map_map]
  rfl

theorem exists_frames {outgoings : List Outgoing}
    (readable : ∀ outgoing ∈ outgoings, outgoing.Readable) :
    ∃ frames : List (Frame UInt8), frames.map Frame.bytes = outgoings.map Outgoing.wire ∧
      ∀ MQTTVersion, frames.map (Frame.result MQTTVersion) = outgoings.map fun outgoing =>
        .returned tcpsocketComplete (some (outgoing.received MQTTVersion)) := by
  induction outgoings with
  | nil => exact ⟨[], rfl, fun _ => rfl⟩
  | cons outgoing outgoings induction =>
      rcases Outgoing.exists_frame (readable outgoing (List.mem_cons_self ..)) with
        ⟨frame, bytes, result⟩
      rcases induction fun other member => readable other (List.mem_cons_of_mem _ member) with
        ⟨frames, later, results⟩
      refine ⟨frame :: frames, ?_, fun MQTTVersion => ?_⟩
      · rw [List.map_cons, List.map_cons, bytes, later]
      · rw [List.map_cons, List.map_cons, result, results]

/-- Whatever packets are sent, in whatever pieces the first end's kernel takes them and in
whatever pieces they reach the other end, what is read there is at every moment the first of the
packets that the socket took, in order and unchanged. Once nothing is pending and everything has
arrived, it is all of them. -/
theorem obtained_of_runSends {actions : List SendAction}
    (readable : ∀ action ∈ actions, action.Readable) {outbound : SOCKET → List WritevEvent}
    (healthy : ∀ socket, .failed ∉ outbound socket) :
    ∃ sents after, runSends actions (.start outbound) = some (sents, after) ∧
      ∀ (socket peer : SOCKET) (inbound : SOCKET → RecvSource UInt8) (MQTTVersion : Int),
        0 < peer → (inbound peer).Healthy →
        let results := (sentOn socket sents).map fun outgoing =>
          .returned tcpsocketComplete (some (outgoing.received MQTTVersion))
        ((inbound peer).bytes <+: after.accepted socket → ∀ calls,
          obtained MQTTVersion peer calls ⟨.start, inbound⟩ <+: results) ∧
        (after.pending socket = none → (inbound peer).bytes = after.accepted socket → ∀ calls,
          (inbound peer).size + results.length ≤ calls →
            obtained MQTTVersion peer calls ⟨.start, inbound⟩ = results) := by
  rcases Socket.runWrites_spec (actions.map SendAction.toWrite) (.start outbound) healthy
    (.start outbound) with ⟨offers, after, run, _, sends⟩
  rcases exists_runSends readable run with ⟨sents, ran, rfl, sentReadable⟩
  refine ⟨sents, after, ran, fun socket peer inbound MQTTVersion positive healthy => ?_⟩
  intro results
  have taken : ∀ outgoing ∈ sentOn socket sents, outgoing.Readable := by
    intro outgoing member
    rcases List.mem_map.mp member with ⟨sent, kept, rfl⟩
    exact sentReadable sent (List.mem_of_mem_filter kept)
  rcases exists_frames taken with ⟨frames, bytes, framed⟩
  have wires : (frames.flatMap Frame.bytes) =
      (Socket.takenOn socket (sents.map Sent.offered)).flatten := by
    rw [List.flatMap, bytes, takenOn_offered]
  have stream := sends socket
  dsimp only at stream
  rw [List.nil_append] at stream
  have same : frames.map (Frame.result MQTTVersion) = results := framed MQTTVersion
  rw [← same]
  constructor
  · intro arrived calls
    refine obtained_prefix_results MQTTVersion positive healthy (arrived.trans ?_) calls
    rw [wires]
    exact stream.accepted_prefix
  · intro quiet arrived calls enough
    rw [List.length_map] at enough
    refine obtained_eq_results MQTTVersion positive healthy ?_ enough
    rw [SocketWrites.pendingPacket, quiet] at stream
    rw [arrived, wires, stream.eq_of_idle]

/-- Two packets on one socket, the first cut on both sides. -/
theorem obtained_of_runSends_two :
    let pack : Publish := ⟨⟨0⟩, [97], 1, 9, [104, 105], 2, 4, .zero⟩
    let outbound : SOCKET → List WritevEvent := fun _ => [.accept 3, .wouldBlock, .accept 90,
      .accept 90]
    let actions : List SendAction := [.send (.publish pack 0 1 0) 3,
      .continueWrites (fun _ => true) 0, .continueWrites (fun _ => true) 0, .send (.puback 7) 3]
    let inbound : RecvSource UInt8 := [.data [0x32, 7, 0], .wouldBlock,
      .data [1, 97, 0, 9, 104, 105, 0x40], .data [2, 0, 7]]
    ∃ sents after, runSends actions (.start outbound) = some (sents, after) ∧
      sentOn 3 sents = [.publish pack 0 1 0, .puback 7] ∧
      obtained 4 5 19 ⟨.start, fun _ => inbound⟩ =
        [.returned 0 (some (.publish ⟨⟨0x32⟩, [97], 1, 9, [104, 105], 2, 4, .zero⟩)),
          .returned 0 (some (.ack ⟨⟨0x40⟩, some 7, 4⟩))] := by
  intro pack outbound actions inbound
  have readable : ∀ action ∈ actions, action.Readable := by
    intro action member
    simp only [actions, List.mem_cons, List.not_mem_nil, or_false] at member
    rcases member with rfl | rfl | rfl | rfl
    · exact ⟨by decide, ⟨⟨[97], by decide⟩, rfl⟩, by decide, rfl, by decide, .inl rfl, .inl rfl,
        .inl rfl, by decide⟩
    · trivial
    · trivial
    · exact ⟨by decide, by decide⟩
  rcases @obtained_of_runSends actions readable outbound (fun _ => by decide) with
    ⟨sents, after, run, obtains⟩
  have final : (runSends actions (.start outbound)).map (fun run =>
      (sentOn 3 run.1, (run.2.pending 3).isNone, run.2.accepted 3)) =
      some ([.publish pack 0 1 0, .puback 7], true,
        [0x32, 7, 0, 1, 97, 0, 9, 104, 105, 0x40, 2, 0, 7]) := by
    decide +kernel
  rw [run, Option.map_some, Option.some.injEq, Prod.mk.injEq, Prod.mk.injEq,
    Option.isNone_iff_eq_none] at final
  rcases final with ⟨sent, quiet, accepted⟩
  refine ⟨sents, after, run, sent, ?_⟩
  have arrives := (obtains 3 5 (fun _ => inbound) 4 (by decide)
    (by simp [inbound, RecvSource.Healthy, RecvEvent.Healthy])).2 quiet accepted.symm 19
  rw [sent] at arrives
  exact arrives (by decide)

end MqttClient.MQTTPacket
