import MqttClient.MQTTPacket.Transport
import MqttClient.WebSocket.Restoration

/-! # Packets in WebSocket frames

On a connection with `net->websocket` set every packet goes out as one WebSocket frame. However
the kernel takes the bytes, the other end finds the packets that have been taken in the frames.
-/

namespace MqttClient.MQTTPacket

open Foundation WebSocket

/-- `MQTTPacket_sends`, and with one buffer `MQTTPacket_send`, on a connection with
`net->websocket` set. The buffers come without a mask. -/
def framedSends (socket : SOCKET) (header : Header) (bufs : PacketBuffers) (rand : Nat → Nat)
    (state : SocketWrites) : Option (Int × SocketWrites) :=
  let total := (bufs.buffers.map List.length).sum
  (WebSocket.putdatas socket rand (buf0 header total) (withoutMask bufs) state).map fun called =>
    (called.1, called.2.2)

/-- `MQTTPacket_send_publish` there. -/
def framedPublish (pack : Publish) (dup qos retained : Int) (socket : SOCKET) (rand : Nat → Nat)
    (state : SocketWrites) : Option (Int × SocketWrites) :=
  if qos > 0 ∨ pack.mqttVersion ≥ 5 then
    (publishBuffers pack qos).bind fun bufs =>
      framedSends socket (.ofBits MsgType.publish dup qos retained) bufs rand state
  else some (socketError, state)

/-- `MQTTPacket_send_puback` there. -/
def framedPuback (msgid : Int) (socket : SOCKET) (rand : Nat → Nat) (state : SocketWrites) :
    Option (Int × SocketWrites) :=
  framedSends socket (.ofBits MsgType.puback 0 0 0) ⟨[writeInt msgid], one_buffer msgid⟩ rand state

/-- A frame that carries a packet: a final one, binary and masked. -/
structure Carries (outgoing : Outgoing) (frame : WebSocketFrame) : Prop where
  fin : frame.fin = true
  opcode : (frame.opcode : Nat) = opBinary
  masked : frame.key.isSome
  payload : frame.payload = outgoing.wire

namespace Outgoing

variable {outgoing : Outgoing}

def sendFramed (outgoing : Outgoing) (socket : SOCKET) (rand : Nat → Nat) (state : SocketWrites) :
    Option (Int × SocketWrites) :=
  match outgoing with
  | publish pack dup qos retained => framedPublish pack dup qos retained socket rand state
  | puback msgid => framedPuback msgid socket rand state

theorem sendFramed_eq (readable : outgoing.Readable) (socket : SOCKET) (rand : Nat → Nat)
    (state : SocketWrites) :
    outgoing.sendFramed socket rand state =
      (WebSocket.putdatas socket rand outgoing.first (withoutMask outgoing.buffers) state).map
        fun called => (called.1, called.2.2) := by
  cases outgoing with
  | publish pack dup qos retained =>
      rcases publishBuffers_isSome readable.old readable.measured qos with ⟨bufs, built⟩
      have positive : qos > 0 := by
        have := readable.qosRange
        omega
      rw [sendFramed, framedPublish, if_pos (.inl positive), built, Option.bind_some, framedSends,
        first, buffers, built]
      rfl
  | puback msgid => rfl

theorem length_first_le (readable : outgoing.Readable) : outgoing.first.length ≤ 5 := by
  have small := length_buffers_le readable
  rw [List.length_flatten] at small
  have digits := VariableByte.encode_length_le 3 (Nat.lt_succ_of_le small)
  rw [first, buf0, encode_eq, List.length_cons]
  omega

theorem dataLength_le (readable : outgoing.Readable) :
    dataLength outgoing.first (withoutMask outgoing.buffers) ≤ 5 + maxRemainingLength := by
  have small := length_buffers_le readable
  rw [List.length_flatten] at small
  exact Nat.add_le_add (length_first_le readable) small

theorem fitsInt (readable : outgoing.Readable) : FitsInt outgoing.first outgoing.buffers := by
  have first := length_first_le readable
  have header := calculateFrameHeaderSize_le
    (dataLength outgoing.first (withoutMask outgoing.buffers))
  unfold FitsInt
  omega

theorem exists_carries (readable : outgoing.Readable) (rand : Nat → Nat) :
    ∃ (wsdata : List UInt8) (bufs : PacketBuffers) (frame : WebSocketFrame),
      Carries outgoing frame ∧ (wsdata :: bufs.buffers).flatten = frame.encode ∧
        frame.payload.length < 2 ^ 63 ∧ ∀ socket state, outgoing.sendFramed socket rand state =
          some (Socket.putdatas socket wsdata bufs state) := by
  have small := dataLength_le readable
  have fits : dataLength outgoing.first (withoutMask outgoing.buffers) < 0xFFFFFFFFFFFFFFFF := by
    unfold maxRemainingLength at small
    omega
  obtain ⟨wsdata, built⟩ : ∃ wsdata,
      buildFrame rand ⟨opBinary, opBinary_lt⟩ outgoing.first (withoutMask outgoing.buffers) =
        some wsdata := ⟨_, if_pos fits⟩
  refine ⟨wsdata.1, wsdata.2.toPacketBuffers,
    WebSocket.sentFrame rand ⟨opBinary, opBinary_lt⟩ outgoing.first
      (withoutMask outgoing.buffers),
    ⟨rfl, rfl, rfl, (payload_sentFrame_iff _).mpr (.inl (fitsInt readable))⟩,
    (buildFrame_encode built).2, ?_, fun socket state => ?_⟩
  · rw [length_sentFrame]
    unfold maxRemainingLength at small
    omega
  · rw [sendFramed_eq readable, putdatas_of_built built socket state rfl, Option.map_some]

end Outgoing

/-! ## Runs -/

/-- The packets sent in a run on connections with `net->websocket` set, and the state that it
reaches. Every frame takes four numbers for its masking key. -/
def runFramed : List SendAction → (rand : Nat → Nat) → SocketWrites →
    Option (List Sent × SocketWrites)
  | [], _, state => some ([], state)
  | .send outgoing socket :: actions, rand, state =>
      (outgoing.sendFramed socket rand state).bind fun called =>
        (runFramed actions (fun index => rand (index + 4)) called.2).map fun later =>
          (⟨socket, outgoing, called.1⟩ :: later.1, later.2)
  | .continueWrites pwset sock :: actions, rand, state =>
      (Socket.continueWrites pwset sock state).bind fun called =>
        runFramed actions rand called.2.2

structure OfferedIn (sent : Sent) (offer : Socket.Offered) (frame : WebSocketFrame) : Prop where
  socket : offer.socket = sent.socket
  rc : offer.rc = sent.rc
  packet : offer.packet = frame.encode
  carries : Carries sent.outgoing frame
  small : frame.payload.length < 2 ^ 63

theorem exists_runFramed {actions : List SendAction}
    (readable : ∀ action ∈ actions, action.Readable) (rand : Nat → Nat) (state : SocketWrites) :
    ∃ writes, ∀ offers after, Socket.runWrites writes state = some (offers, after) →
      ∃ sents, runFramed actions rand state = some (sents, after) ∧
        List.Forall₂ (fun sent offer => ∃ frame, OfferedIn sent offer frame) sents offers := by
  induction actions generalizing rand state with
  | nil =>
      refine ⟨[], fun offers after run => ?_⟩
      cases run
      exact ⟨[], rfl, .nil⟩
  | cons action actions induction =>
      have here := readable action (List.mem_cons_self ..)
      have others := fun other member => readable other (List.mem_cons_of_mem action member)
      cases action with
      | send outgoing socket =>
          rcases Outgoing.exists_carries here rand with
            ⟨wsdata, bufs, frame, carries, encoded, small, sent⟩
          rcases induction others (fun index => rand (index + 4))
            (Socket.putdatas socket wsdata bufs state).2 with ⟨writes, later⟩
          refine ⟨.putdatas socket wsdata bufs :: writes, fun offers after run => ?_⟩
          rcases Option.map_eq_some_iff.mp run with ⟨⟨rest, final⟩, ran, same⟩
          cases same
          rcases later rest final ran with ⟨sents, framed, matched⟩
          refine ⟨⟨socket, outgoing, _⟩ :: sents, ?_,
            .cons ⟨frame, rfl, rfl, encoded, carries, small⟩ matched⟩
          rw [runFramed, sent, Option.bind_some, framed, Option.map_some]
      | continueWrites pwset sock =>
          cases called : Socket.continueWrites pwset sock state with
          | none =>
              refine ⟨[.continueWrites pwset sock], fun offers after run => ?_⟩
              rw [Socket.runWrites, called, Option.bind_none] at run
              cases run
          | some result =>
              rcases induction others rand result.2.2 with ⟨writes, later⟩
              refine ⟨.continueWrites pwset sock :: writes, fun offers after run => ?_⟩
              rw [Socket.runWrites, called, Option.bind_some] at run
              rcases later offers after run with ⟨sents, framed, matched⟩
              exact ⟨sents, by rw [runFramed, called, Option.bind_some, framed], matched⟩

theorem exists_takenOn {sents : List Sent} {offers : List Socket.Offered}
    (matched : List.Forall₂ (fun sent offer => ∃ frame, OfferedIn sent offer frame) sents offers)
    (socket : SOCKET) :
    ∃ frames : List WebSocketFrame,
      Socket.takenOn socket offers = frames.map WebSocketFrame.encode ∧
        List.Forall₂ Carries (sentOn socket sents) frames ∧
        ∀ frame ∈ frames, frame.payload.length < 2 ^ 63 := by
  induction matched with
  | nil => exact ⟨[], rfl, .nil, by simp⟩
  | @cons sent offer sents offers here _ induction =>
      rcases here with ⟨frame, same⟩
      rcases induction with ⟨frames, taken, carried, small⟩
      unfold Socket.takenOn sentOn at *
      rw [List.filter_cons, List.filter_cons, same.socket, same.rc]
      by_cases takes : sent.socket = socket ∧ sent.rc ≠ socketError
      · rw [if_pos (decide_eq_true takes), if_pos (decide_eq_true takes), List.map_cons,
          List.map_cons, taken, same.packet]
        exact ⟨frame :: frames, rfl, .cons same.carries carried,
          List.forall_mem_cons.mpr ⟨same.small, small⟩⟩
      · rw [if_neg (by simpa using takes), if_neg (by simpa using takes)]
        exact ⟨frames, taken, carried, small⟩

theorem parseAll_sendsAs {accepted : List UInt8} {pending : Option (PartialPacket UInt8)}
    {frames : List WebSocketFrame}
    (stream : SendsAs accepted pending (frames.map WebSocketFrame.encode))
    (small : ∀ frame ∈ frames, frame.payload.length < 2 ^ 63)
    (incomplete : ∀ packet ∈ pending, packet.sent < packet.packet.length) :
    WebSocketFrame.parseAll accepted = if pending.isNone then frames else frames.dropLast := by
  cases pending with
  | none =>
      have whole := @WebSocketFrame.parseAll_encodeAll [] frames small rfl
      rw [List.append_nil] at whole
      rw [stream.eq_of_idle]
      exact whole
  | some packet =>
      have missing := incomplete packet rfl
      rcases stream.eq_of_busy with ⟨front, split, rfl⟩
      rcases List.map_eq_append_iff.mp split with ⟨whole, last, rfl, rfl, single⟩
      rcases List.map_eq_singleton_iff.mp single with ⟨frame, rfl, encoded⟩
      have part : WebSocketFrame.parse (packet.packet.take packet.sent) = none := by
        rw [← encoded] at missing ⊢
        refine WebSocketFrame.parse_part (small frame (by simp)) (List.take_prefix ..) fun all => ?_
        have lengths := congrArg List.length all
        rw [List.length_take] at lengths
        omega
      have parsed := WebSocketFrame.parseAll_encodeAll
        (fun other member => small other (List.mem_append_left _ member)) part
      exact parsed.trans (List.dropLast_concat).symm

/-- Whatever packets are sent and in whatever pieces the kernel takes them, the bytes that it has
taken on a socket are, one behind the other, final masked binary frames that carry the packets
which the socket took, in order and unchanged; of a packet that is still pending a part of its
frame is there. -/
theorem parseAll_of_runFramed {actions : List SendAction}
    (readable : ∀ action ∈ actions, action.Readable) (rand : Nat → Nat)
    {outbound : SOCKET → List WritevEvent} (healthy : ∀ socket, .failed ∉ outbound socket) :
    ∃ sents after, runFramed actions rand (.start outbound) = some (sents, after) ∧
      ∀ socket, List.Forall₂ Carries
        (if (after.pending socket).isNone then sentOn socket sents
          else (sentOn socket sents).dropLast)
        (WebSocketFrame.parseAll (after.accepted socket)) := by
  rcases exists_runFramed readable rand (.start outbound) with ⟨writes, framed⟩
  rcases Socket.runWrites_spec writes (.start outbound) healthy (.start outbound) with
    ⟨offers, after, run, consistent, sends⟩
  rcases framed offers after run with ⟨sents, ran, matched⟩
  refine ⟨sents, after, ran, fun socket => ?_⟩
  rcases exists_takenOn matched socket with ⟨frames, taken, carried, small⟩
  have stream := sends socket
  dsimp only at stream
  rw [List.nil_append, taken, SocketWrites.pendingPacket] at stream
  have incomplete : ∀ packet ∈ (after.pending socket).map fun write =>
      (⟨write.packet, write.bytes⟩ : PartialPacket UInt8), packet.sent < packet.packet.length := by
    intro packet member
    rcases Option.map_eq_some_iff.mp member with ⟨write, found, rfl⟩
    have measured := consistent.measured socket write found
    exact measured.1 ▸ measured.2
  rw [parseAll_sendsAs stream small incomplete, Option.isNone_map]
  split
  · exact carried
  · rw [List.dropLast_eq_take, List.dropLast_eq_take, carried.length_eq]
    exact List.forall₂_take _ carried

/-- Two packets on one socket, behind the first three bytes of which it has to wait. -/
theorem parseAll_of_runFramed_two :
    let pack : Publish := ⟨⟨0⟩, [97], 1, 9, [104, 105], 2, 4, .zero⟩
    let outbound : SOCKET → List WritevEvent := fun _ => [.accept 3, .wouldBlock, .accept 90,
      .accept 90]
    let actions : List SendAction := [.send (.publish pack 0 1 0) 3,
      .continueWrites (fun _ => true) 0, .continueWrites (fun _ => true) 0, .send (.puback 7) 3]
    ∃ sents after, runFramed actions (fun index => index + 1) (.start outbound) =
        some (sents, after) ∧
      sentOn 3 sents = [.publish pack 0 1 0, .puback 7] ∧
      List.Forall₂ Carries [.publish pack 0 1 0, .puback 7]
        (WebSocketFrame.parseAll (after.accepted 3)) := by
  intro pack outbound actions
  have readable : ∀ action ∈ actions, action.Readable := by
    intro action member
    simp only [actions, List.mem_cons, List.not_mem_nil, or_false] at member
    rcases member with rfl | rfl | rfl | rfl
    · exact ⟨by decide, ⟨⟨[97], by decide⟩, rfl⟩, by decide, rfl, by decide, .inl rfl, .inl rfl,
        .inl rfl, by decide⟩
    · trivial
    · trivial
    · exact ⟨by decide, by decide⟩
  rcases @parseAll_of_runFramed actions readable (fun index => index + 1) outbound
    (fun _ => by decide) with ⟨sents, after, run, carried⟩
  have final : (runFramed actions (fun index => index + 1) (.start outbound)).map (fun run =>
      (sentOn 3 run.1, (run.2.pending 3).isNone)) =
      some ([.publish pack 0 1 0, .puback 7], true) := by
    decide +kernel
  rw [run, Option.map_some, Option.some.injEq, Prod.mk.injEq] at final
  have here := carried 3
  rw [final.1, final.2, if_pos rfl] at here
  exact ⟨sents, after, run, final.1, here⟩

end MqttClient.MQTTPacket
