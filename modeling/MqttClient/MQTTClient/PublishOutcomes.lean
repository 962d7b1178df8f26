import MqttClient.MQTTClient.Window
import MqttClient.MQTTPacket.PublishRoundTrip

/-! # What a publish comes to

The return code of `MQTTClient_publish5`, what it has written by then, and what it has
kept.
-/

namespace MqttClient.MQTTClient

open Foundation LinkedList MQTTPacket MQTTProtocol Socket

def PublishCall.header (call : PublishCall) : Header :=
  .ofBits MsgType.publish 0 call.qos call.retained

def PublishCall.packet (call : PublishCall) (msgid mqttVersion : Int) : Option (List UInt8) :=
  (publishBuffers (keptPublish (call.publish msgid mqttVersion)) call.qos).map fun bufs =>
    buf0 call.header bufs.buffers.flatten.length ++ bufs.buffers.flatten

section Packet

variable {call : PublishCall} {msgid mqttVersion : Int} {socket : SOCKET} {state : SocketWrites}

theorem length_publishSection (call : PublishCall) (msgid other mqttVersion : Int) :
    (publishSection (keptPublish (call.publish other mqttVersion)) call.qos).length =
      (publishSection (keptPublish (call.publish msgid mqttVersion)) call.qos).length := by
  rw [publishSection, publishSection, List.length_append, List.length_append]
  congr 1
  split <;> simp

theorem PublishCall.length_packet {packet : List UInt8} (other : Int)
    (whole : call.packet msgid mqttVersion = some packet) :
    ∃ same, call.packet other mqttVersion = some same ∧ same.length = packet.length := by
  rcases Option.map_eq_some_iff.mp whole with ⟨bufs, built, rfl⟩
  have lengths := length_publishSection call msgid other mqttVersion
  unfold publishBuffers at built
  rcases Option.ite_none_right_eq_some.mp built with ⟨fits, same⟩
  cases same
  rw [← lengths] at fits
  refine ⟨_, congrArg (Option.map _) (if_pos fits), ?_⟩
  simp [buf0, lengths]
  rfl

theorem sendPublish_packet (positive : call.qos > 0) (msgid mqttVersion : Int) (socket : SOCKET)
    (state : SocketWrites) :
    match call.packet msgid mqttVersion with
    | none => sendPublish (keptPublish (call.publish msgid mqttVersion)) 0 call.qos call.retained
        socket state = none
    | some packet => ∃ first bufs, first ≠ [] ∧ packet = first ++ bufs.buffers.flatten ∧
        sendPublish (keptPublish (call.publish msgid mqttVersion)) 0 call.qos call.retained
          socket state = some (putdatas socket first bufs state) := by
  rw [sendPublish, if_pos (.inl positive), PublishCall.packet]
  cases publishBuffers (keptPublish (call.publish msgid mqttVersion)) call.qos with
  | none => rfl
  | some bufs =>
      refine ⟨buf0 call.header bufs.buffers.flatten.length, bufs, List.cons_ne_nil _ _, rfl, ?_⟩
      rw [Option.map_some, List.length_flatten]
      rfl

end Packet

section Outcome

variable {m : Nat} {call : PublishCall} {before : Library}

theorem publish5_outcome (positive : call.qos > 0) (numbered : (before.client m).Numbered) :
    (¬(before.client m).IdAvailable ∧ ∃ after,
      publish5 m call before = some (⟨mqttclientMaxMessagesInflight, none, 0⟩, after) ∧
        after.writes = before.writes ∧ after.publications = before.publications ∧
        (after.client m).outboundMsgs.elements = (before.client m).outboundMsgs.elements) ∨
    ((before.client m).IdAvailable ∧
      ∃ (msgid : Int) (message : Messages) (library : Library), msgid ≠ 0 ∧
      (library.client m).outboundMsgs.values =
        (before.client m).outboundMsgs.values ++ [message] ∧
      publish5 m call before =
        (sendPublish (keptPublish (call.publish msgid (before.client m).mqttVersion)) 0 call.qos
          call.retained (before.client m).socket before.writes).map fun sent =>
            (⟨sent.1, some msgid, msgid⟩, { library with writes := sent.2 })) := by
  rcases publish5_of_qos12 positive numbered with
    ⟨msgid, outboundMsgs, elements, free, library, sets, publications, writes, equation⟩
  by_cases none : msgid = 0
  · rw [if_neg (not_not_intro none)] at free
    rw [if_pos none] at equation
    refine .inl ⟨free, library, equation, writes, publications, ?_⟩
    rw [sets.client_self]
    exact elements
  · rw [if_pos none] at free
    rw [if_neg none] at equation
    have socket : (library.client m).socket = (before.client m).socket := by
      rw [sets.client_self]
      rfl
    have kept := withMessage_sets m (call.publish msgid (before.client m).mqttVersion) call.qos
      call.retained library
    refine .inr ⟨⟨msgid, free⟩, msgid, keptMessage (call.publish msgid
      (before.client m).mqttVersion) call.qos call.retained library,
      withMessage m (call.publish msgid (before.client m).mqttVersion) call.qos call.retained
        library, none, ?_, ?_⟩
    · rw [kept.client_self, sets.client_self]
      change (outboundMsgs.append _).values = _
      rw [values_append, values, elements, values]
    · rw [equation, startPublish_eq positive, socket, writes, Option.map_map]
      rfl

end Outcome

/-! ## All or nothing -/

def Transferred (m : Nat) (call : PublishCall) (msgid : Int) (before after : Library) : Prop :=
  let socket := (before.client m).socket
  ∃ packet, call.packet msgid (before.client m).mqttVersion = some packet ∧
    (after.writes.accepted =
        Function.update before.writes.accepted socket (before.writes.accepted socket ++ packet) ∨
      ∃ pw : PendingWrites, pw.socket = socket ∧ pw.packet = packet ∧
        after.writes.writes.values = before.writes.writes.values ++ [pw] ∧
        after.writes.accepted = Function.update before.writes.accepted socket
          (before.writes.accepted socket ++ packet.take pw.bytes))

structure Undone (m : Nat) (before after : Library) : Prop where
  outboundMsgs : (after.client m).outboundMsgs.values = (before.client m).outboundMsgs.values
  publications : after.publications.elements = before.publications.elements
  free : ∀ msgid, (after.client m).Free msgid ↔ (before.client m).Free msgid

/-- `MQTTClient_publish5` succeeds exactly when the packet is on its way, and otherwise
keeps nothing. -/
def AllOrNothing (m : Nat) (call : PublishCall) (before : Library) : Prop :=
  ∃ result after, publish5 m call before = some (result, after) ∧
    (result.rc = mqttclientSuccess ↔ Transferred m call result.msgid before after) ∧
    (result.rc ≠ mqttclientSuccess → Undone m before after)

/-- The packet of a call can be written at once. -/
def WritesAtOnce (m : Nat) (call : PublishCall) (before : Library) : Prop :=
  ∃ msgid packet, call.packet msgid (before.client m).mqttVersion = some packet ∧
    Idle (before.client m).socket before.writes ∧
    Accepts (before.client m).socket packet.length before.writes

section Outcome

variable {m : Nat} {call : PublishCall} {before after : Library}

theorem PublishCall.packet_ne_nil {msgid mqttVersion : Int} {packet : List UInt8}
    (whole : call.packet msgid mqttVersion = some packet) : packet ≠ [] := by
  rcases Option.map_eq_some_iff.mp whole with ⟨bufs, _, rfl⟩
  exact List.cons_ne_nil _ _

theorem not_transferred {msgid : Int} (unwritten : after.writes = before.writes) :
    ¬Transferred m call msgid before after := by
  rintro ⟨packet, whole, written | ⟨pw, _, _, registered, _⟩⟩
  · have same := congrFun written (before.client m).socket
    rw [unwritten, Function.update_self, eq_comm, List.append_right_eq_self] at same
    exact PublishCall.packet_ne_nil whole same
  · rw [unwritten, eq_comm, List.append_right_eq_self] at registered
    exact List.cons_ne_nil _ _ registered

theorem allOrNothing_of_unavailable (positive : call.qos > 0)
    (numbered : (before.client m).Numbered) (unavailable : ¬(before.client m).IdAvailable) :
    AllOrNothing m call before := by
  rcases publish5_outcome positive numbered with ⟨_, after, published, writes, publications, same⟩ |
    ⟨available, _⟩
  · have failed : mqttclientMaxMessagesInflight ≠ mqttclientSuccess := by decide
    refine ⟨_, after, published, iff_of_false failed (not_transferred writes), fun _ => ?_⟩
    refine ⟨by rw [values, values, same], by rw [publications], fun msgid => ?_⟩
    rw [Clients.Free, Clients.Free, lookup, lookup, values, values, same]
  · exact absurd available unavailable

theorem allOrNothing_of_writesAtOnce (positive : call.qos > 0)
    (numbered : (before.client m).Numbered) (writes : WritesAtOnce m call before)
    (available : (before.client m).IdAvailable) : AllOrNothing m call before := by
  rcases publish5_outcome positive numbered with ⟨unavailable, _⟩ |
    ⟨_, msgid, message, library, _, _, published⟩
  · exact absurd available unavailable
  rcases writes with ⟨other, sample, whole, idle, accepts⟩
  rcases PublishCall.length_packet msgid whole with ⟨packet, built, length⟩
  have sent := sendPublish_packet positive msgid (before.client m).mqttVersion
    (before.client m).socket before.writes
  rw [built] at sent
  rcases sent with ⟨first, bufs, _, rfl, equation⟩
  rw [← length] at accepts
  rcases putdatas_of_accepts idle accepts with ⟨after, complete, accepted⟩
  rw [equation, complete, Option.map_some] at published
  have success : tcpsocketComplete = mqttclientSuccess := rfl
  exact ⟨_, _, published, iff_of_true success ⟨_, built, .inl accepted⟩,
    fun failed => absurd success failed⟩

theorem writesAtOnce_of_allOrNothing (positive : call.qos > 0)
    (numbered : (before.client m).Numbered) (available : (before.client m).IdAvailable)
    (whole : AllOrNothing m call before) : WritesAtOnce m call before := by
  rcases whole with ⟨result, after, published, _, undone⟩
  rcases publish5_outcome positive numbered with ⟨unavailable, _⟩ |
    ⟨_, msgid, message, library, _, kept, equation⟩
  · exact absurd available unavailable
  rw [equation] at published
  rcases Option.map_eq_some_iff.mp published with ⟨sent, handed, same⟩
  cases same
  have success : sent.1 = mqttclientSuccess := by
    by_contra failed
    have same := (undone failed).outboundMsgs
    change (library.client m).outboundMsgs.values = _ at same
    rw [kept, List.append_right_eq_self] at same
    exact List.cons_ne_nil _ _ same
  have packet := sendPublish_packet positive msgid (before.client m).mqttVersion
    (before.client m).socket before.writes
  rw [handed] at packet
  cases built : call.packet msgid (before.client m).mqttVersion with
  | none =>
      rw [built] at packet
      cases packet
  | some bytes =>
      rw [built] at packet
      rcases packet with ⟨first, bufs, nonempty, rfl, put⟩
      cases put
      exact ⟨msgid, _, built, accepts_of_putdatas nonempty success⟩

end Outcome

/-- In every reachable state a publish of QoS 1 or 2 is all or nothing exactly when no
message id is left, or its packet can be written at once. In every other case the message
is kept and a failure is returned: also when the rest of the packet is a pending write. -/
theorem allOrNothing_iff {actions : List Action} {events : List Event} {final : System}
    {inbound : SOCKET → RecvSource UInt8} {outbound : SOCKET → List WritevEvent}
    (ran : machine.run actions (.start inbound outbound) = some (events, final)) (m : Nat)
    {call : PublishCall} (positive : call.qos > 0) :
    AllOrNothing m call final.library ↔
      ¬(final.library.client m).IdAvailable ∨ WritesAtOnce m call final.library := by
  have numbered := ((windowed_of_run ran).1 m).1
  by_cases available : (final.library.client m).IdAvailable
  · constructor
    · exact fun whole => .inr (writesAtOnce_of_allOrNothing positive numbered available whole)
    · rintro (unavailable | writes)
      · exact absurd available unavailable
      · exact allOrNothing_of_writesAtOnce positive numbered writes available
  · exact iff_of_true (allOrNothing_of_unavailable positive numbered available) (.inl available)

/-- A publish of an empty payload to the topic `a`. -/
def PublishCall.sample (qos : Int) : PublishCall :=
  ⟨.ofBlock [0x61], [], qos, 0, ⟨⟨0⟩, [], 0, 0, [], 0, 4, .zero⟩⟩

theorem allOrNothing_iff_connected : ∃ events final,
    machine.run oneClient (.receiving []) = some (events, final) ∧
      AllOrNothing 0 (.sample 1) final.library := by
  have observed : (machine.run oneClient (.receiving [])).map (fun reached =>
      let client := reached.2.library.client 0
      decide ((PublishCall.sample 1).packet 1 client.mqttVersion =
          some [0x32, 5, 0, 1, 0x61, 0, 1] ∧
        Idle client.socket reached.2.library.writes ∧
        reached.2.library.writes.outbound client.socket = List.replicate 7 (.accept 1000))) =
      some true := by
    decide +kernel
  rcases Option.map_eq_some_iff.mp observed with ⟨⟨events, final⟩, ran, same⟩
  rcases of_decide_eq_true same with ⟨built, idle, outbound⟩
  have writes : WritesAtOnce 0 (.sample 1) final.library :=
    ⟨1, _, built, idle, 1000, _, outbound, by decide⟩
  exact ⟨events, final, ran, (allOrNothing_iff ran 0 (by decide)).mpr (.inr writes)⟩

/-- The socket accepts nothing of the PUBLISH packet. It is registered as pending and its
message is kept; `MQTTClient_publish5` returns `TCPSOCKET_INTERRUPTED`. -/
theorem not_allOrNothing_interrupted : ∃ events final,
    machine.run oneClient (.start (fun _ => []) fun _ => [.accept 1000, .wouldBlock]) =
        some (events, final) ∧
      ¬AllOrNothing 0 (.sample 1) final.library := by
  have observed : ((machine.run oneClient
      (.start (fun _ => []) fun _ => [.accept 1000, .wouldBlock])).bind fun reached =>
        (publish5 0 (.sample 1) reached.2.library).map fun published =>
          decide (published.1.rc = tcpsocketInterrupted ∧
            (published.2.client 0).outboundMsgs.values ≠
              (reached.2.library.client 0).outboundMsgs.values)) = some true := by
    decide +kernel
  rcases Option.bind_eq_some_iff.mp observed with ⟨⟨events, final⟩, ran, observed⟩
  rcases Option.map_eq_some_iff.mp observed with ⟨⟨result, after⟩, published, same⟩
  rcases of_decide_eq_true same with ⟨interrupted, kept⟩
  refine ⟨events, final, ran, ?_⟩
  rintro ⟨_, _, equation, _, undone⟩
  rw [published] at equation
  cases equation
  refine kept (undone ?_).outboundMsgs
  rw [interrupted]
  decide

/-! ## Reaching the wire -/

def PublishCall.wire (call : PublishCall) (msgid : Int) : List UInt8 :=
  let body := writeInt call.topicName.bytes.length ++ (call.topicName.bytes ++
    ((if call.qos > 0 then writeInt msgid else []) ++ call.payload))
  UInt8.ofNat (0x30 + 2 * call.qos.toNat + call.retained.toNat) :: (encode body.length ++ body)

/-- A call that a PUBLISH packet of MQTT 3.1.1 can carry. -/
structure PublishCall.Sendable (call : PublishCall) : Prop where
  qos : 0 ≤ call.qos ∧ call.qos ≤ 2
  retained : 0 ≤ call.retained ∧ call.retained ≤ 1
  topic : call.topicName.bytes.length ≤ 65535
  remaining : 2 + call.topicName.bytes.length + (if call.qos > 0 then 2 else 0) +
    call.payload.length ≤ 268435455

/-- `MQTTClient_publish5` writes the PUBLISH packet of a call, nothing else, and succeeds. -/
def Publishes (m : Nat) (call : PublishCall) (before : Library) : Prop :=
  let socket := (before.client m).socket
  ∃ result after, publish5 m call before = some (result, after) ∧
    result.rc = mqttclientSuccess ∧
    after.writes.accepted = Function.update before.writes.accepted socket
      (before.writes.accepted socket ++ call.wire result.msgid)

section Wire

variable {m : Nat} {call : PublishCall} {before : Library}

theorem PublishCall.Sendable.header_byte (sendable : call.Sendable) :
    call.header.byte = UInt8.ofNat (0x30 + 2 * call.qos.toNat + call.retained.toNat) := by
  rcases sendable with ⟨⟨qosLow, qosHigh⟩, ⟨retainLow, retainHigh⟩, _⟩
  have qos : call.qos = 0 ∨ call.qos = 1 ∨ call.qos = 2 := by omega
  have retained : call.retained = 0 ∨ call.retained = 1 := by omega
  rw [PublishCall.header]
  rcases qos with same | same | same
  all_goals
    rw [same]
    rcases retained with same | same
    all_goals
      rw [same]
      rfl

theorem PublishCall.Sendable.packet_eq (sendable : call.Sendable) (msgid : Int) :
    call.packet msgid 4 = some (call.wire msgid) := by
  have measured : (keptPublish (call.publish msgid 4)).payloadlen =
      (keptPublish (call.publish msgid 4)).payload.length := rfl
  have old : (keptPublish (call.publish msgid 4)).mqttVersion < 5 := show (4 : Int) < 5 by decide
  rcases publishBuffers_isSome old measured call.qos with ⟨bufs, built⟩
  have named : (keptPublish (call.publish msgid 4)).topic = call.topicName.bytes := rfl
  have body := flatten_publishBuffers named sendable.topic measured built
  have section_eq : publishSection (keptPublish (call.publish msgid 4)) call.qos =
      if call.qos > 0 then writeInt msgid else [] := List.append_nil _
  rw [section_eq] at body
  rw [PublishCall.packet, built, Option.map_some, body, buf0, sendable.header_byte]
  rfl

theorem publish5_unsent (qos0 : ¬call.qos > 0) (old : (before.client m).mqttVersion = 4) :
    ∃ after, publish5 m call before = some (⟨socketError, none, 0⟩, after) ∧
      after.writes = before.writes := by
  have version : ¬(call.publish 0 (before.client m).mqttVersion).mqttVersion ≥ 5 := by
    change ¬(before.client m).mqttVersion ≥ 5
    omega
  have failed : ¬(call.qos = 0 ∧ socketError = tcpsocketInterrupted) := by
    rintro ⟨_, same⟩
    exact absurd same (by decide)
  rw [publish5, if_neg qos0]
  dsimp only
  rw [if_neg (fun both => qos0 both.1), MQTTProtocol.startPublish, if_neg qos0,
    startPublishCommon, sendPublish, if_neg (not_or_intro qos0 version)]
  dsimp only
  rw [if_neg failed, if_neg qos0]
  exact ⟨_, rfl, rfl⟩

theorem publishes_of_available (numbered : (before.client m).Numbered)
    (old : (before.client m).mqttVersion = 4) (sendable : call.Sendable)
    (idle : Idle (before.client m).socket before.writes)
    (accepts : Accepts (before.client m).socket (call.wire 0).length before.writes)
    (positive : call.qos > 0) (available : (before.client m).IdAvailable) :
    Publishes m call before := by
  rcases publish5_outcome positive numbered with ⟨unavailable, _⟩ |
    ⟨_, msgid, message, library, _, _, published⟩
  · exact absurd available unavailable
  rcases PublishCall.length_packet msgid (sendable.packet_eq 0) with ⟨packet, built, length⟩
  rw [sendable.packet_eq msgid] at built
  cases built
  have sent := sendPublish_packet positive msgid 4 (before.client m).socket before.writes
  rw [sendable.packet_eq msgid] at sent
  rcases sent with ⟨first, bufs, _, whole, equation⟩
  rw [← length, whole] at accepts
  rcases putdatas_of_accepts idle accepts with ⟨after, complete, accepted⟩
  rw [old, equation, complete, Option.map_some] at published
  rw [List.flatten_cons, ← whole] at accepted
  exact ⟨_, _, published, rfl, accepted⟩

end Wire

/-- In every reachable state, for a client of MQTT 3.1.1 whose socket has no pending output
and accepts the whole packet, a publish reaches the wire exactly when its QoS is 1 or 2
and a message id is left. -/
theorem publishes_iff {actions : List Action} {events : List Event} {final : System}
    {inbound : SOCKET → RecvSource UInt8} {outbound : SOCKET → List WritevEvent}
    (ran : machine.run actions (.start inbound outbound) = some (events, final)) {m : Nat}
    (old : (final.library.client m).mqttVersion = 4) {call : PublishCall}
    (sendable : call.Sendable)
    (idle : Idle (final.library.client m).socket final.library.writes)
    (accepts : Accepts (final.library.client m).socket (call.wire 0).length
      final.library.writes) :
    Publishes m call final.library ↔ call.qos > 0 ∧ (final.library.client m).IdAvailable := by
  have numbered := ((windowed_of_run ran).1 m).1
  constructor
  · rintro ⟨result, after, published, success, _⟩
    by_cases positive : call.qos > 0
    · rcases publish5_outcome positive numbered with ⟨_, other, refused, _⟩ | ⟨available, _⟩
      · rw [refused] at published
        cases published
        exact absurd success (by decide)
      · exact ⟨positive, available⟩
    · rcases publish5_unsent positive old with ⟨other, failed, _⟩
      rw [failed] at published
      cases published
      exact absurd success (by decide)
  · rintro ⟨positive, available⟩
    exact publishes_of_available numbered old sendable idle accepts positive available

theorem PublishCall.sendable_sample {qos : Int} (range : 0 ≤ qos ∧ qos ≤ 2) :
    (PublishCall.sample qos).Sendable := by
  refine ⟨range, show (0 : Int) ≤ 0 ∧ (0 : Int) ≤ 1 by decide, show 1 ≤ 65535 by decide, ?_⟩
  change 2 + 1 + (if qos > 0 then 2 else 0) + 0 ≤ 268435455
  split <;> omega

theorem publishes_iff_connected : ∃ events final,
    connectedClient = some (events, final) ∧ Publishes 0 (.sample 1) final.library := by
  have observed : connectedClient.map (fun reached =>
      let client := reached.2.library.client 0
      decide (client.mqttVersion = 4 ∧ client.msgID = 0 ∧ client.outboundMsgs.values = [] ∧
        Idle client.socket reached.2.library.writes ∧
        reached.2.library.writes.outbound client.socket = List.replicate 7 (.accept 1000))) =
      some true := by
    decide +kernel
  rcases Option.map_eq_some_iff.mp observed with ⟨⟨events, final⟩, ran, same⟩
  rcases of_decide_eq_true same with ⟨old, last, none, idle, outbound⟩
  have available : (final.library.client 0).IdAvailable := by
    refine ⟨1, ⟨by decide, by decide, ?_⟩, by rw [last]; decide⟩
    rw [lookup, none]
    rfl
  exact ⟨events, final, ran, (publishes_iff ran old (PublishCall.sendable_sample (by decide)) idle
    ⟨1000, _, outbound, by decide +kernel⟩).mpr ⟨by decide, available⟩⟩

/-- A connected client publishes with QoS 0 on a socket that would accept the packet:
nothing is written, and `SOCKET_ERROR` is returned. -/
theorem not_publishes_qos0 : ∃ events final,
    connectedClient = some (events, final) ∧
      events.filterMap Event.connectReturn = [(0, mqttclientSuccess)] ∧
      (final.library.client 0).mqttVersion = 4 ∧ (PublishCall.sample 0).Sendable ∧
      Idle (final.library.client 0).socket final.library.writes ∧
      Accepts (final.library.client 0).socket ((PublishCall.sample 0).wire 0).length
        final.library.writes ∧
      ¬Publishes 0 (.sample 0) final.library := by
  have observed : (connectedClient.bind fun reached =>
      (publish5 0 (.sample 0) reached.2.library).map fun published =>
        let client := reached.2.library.client 0
        decide (reached.1.filterMap Event.connectReturn = [(0, mqttclientSuccess)] ∧
          client.mqttVersion = 4 ∧ Idle client.socket reached.2.library.writes ∧
          reached.2.library.writes.outbound client.socket = List.replicate 7 (.accept 1000) ∧
          published.1.rc = socketError)) = some true := by
    decide +kernel
  rcases Option.bind_eq_some_iff.mp observed with ⟨⟨events, final⟩, ran, observed⟩
  rcases Option.map_eq_some_iff.mp observed with ⟨⟨result, after⟩, published, same⟩
  rcases of_decide_eq_true same with ⟨connected, old, idle, outbound, failed⟩
  refine ⟨events, final, ran, connected, old, PublishCall.sendable_sample (by decide), idle,
    ⟨1000, _, outbound, by decide +kernel⟩, ?_⟩
  rintro ⟨_, _, equation, success, _⟩
  rw [published] at equation
  cases equation
  rw [failed] at success
  exact absurd success (by decide)

end MqttClient.MQTTClient
