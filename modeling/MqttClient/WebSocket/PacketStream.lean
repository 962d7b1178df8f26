import MqttClient.WebSocket.PacketReader

/-! # Packets from a WebSocket

What `MQTTPacket_Factory` returns depends neither on how the packets are put into frames nor on
how the frames are cut into what `recv` returns.
-/

namespace MqttClient.WebSocket

open Foundation MQTTPacket

/-- How a call of the packet reader ends, with the data of the packets in `done` behind it and
`packets` before it. -/
inductive Returned (socket : SOCKET) (frames : List WebSocketFrame) (sent done : List UInt8)
    (MQTTVersion : Int) (packets : List (Frame UInt8)) (before : WebSocketState) :
    FactoryResult × PacketReader → Prop
  | packet {packet : Frame UInt8} {others : List (Frame UInt8)} {after : PacketReader}
      (head : packets = packet :: others)
      (delivers : Delivers (AccountsFor socket frames sent) (done ++ packet.bytes)
        after.toWebSocketState)
      (less : work socket after.toWebSocketState ≤ work socket before) :
      Returned socket frames sent done MQTTVersion packets before
        (packet.result MQTTVersion, after)
  | interrupted {after : PacketReader}
      (delivers : Delivers (AccountsFor socket frames sent) done after.toWebSocketState)
      (progress : work socket after.toWebSocketState < work socket before ∨ packets = []) :
      Returned socket frames sent done MQTTVersion packets before
        (.returned tcpsocketInterrupted none, after)

section

variable {socket : SOCKET} {frames : List WebSocketFrame} {sent done consumed : List UInt8}
  {start : Nat} {state : WebSocketState} {good : WebSocketState → Bool}

theorem Returned.mono {MQTTVersion : Int} {packets : List (Frame UInt8)} {middle : WebSocketState}
    {result : FactoryResult × PacketReader}
    (returned : Returned socket frames sent done MQTTVersion packets middle result)
    (less : work socket middle ≤ work socket state) :
    Returned socket frames sent done MQTTVersion packets state result := by
  cases returned with
  | packet head delivers fewer => exact .packet head delivers (fewer.trans less)
  | interrupted delivers progress =>
      exact .interrupted delivers (progress.imp_left fun fewer => fewer.trans_le less)

theorem Delivers.within (delivers : Delivers (AccountsFor socket frames sent) done state) :
    ∃ start, framePos state = some start ∧ Within socket frames sent done start [] state := by
  have accounts := delivers.accounts
  rw [← List.append_nil done] at accounts
  cases here : state.inFrames with
  | none =>
      refine ⟨0, by rw [framePos, here], accounts, ?_⟩
      rw [here]
      exact ⟨rfl, rfl⟩
  | some content =>
      cases content with
      | freed => exact absurd here delivers.queued
      | frame frame =>
          refine ⟨frame.pos, by rw [framePos, here], accounts, ?_⟩
          rw [here]
          exact ⟨rfl, rfl⟩

theorem Within.seek (within : Within socket frames sent done start consumed state) :
    ∃ after, framePosSeekTo start state = some after ∧
      Delivers (AccountsFor socket frames sent) done after ∧
      work socket after = work socket state := by
  have peeked := within.peeked
  have accounts := within.accounts
  cases here : state.inFrames with
  | none =>
      rw [here] at peeked accounts
      rcases peeked with ⟨rfl, rfl⟩
      refine ⟨state, by rw [framePosSeekTo, here], ⟨?_, within.peeked.not_freed⟩, rfl⟩
      rw [here, ← List.append_nil done]
      exact accounts
  | some content =>
      cases content with
      | freed => exact absurd here within.peeked.not_freed
      | frame frame =>
          rw [here] at peeked accounts
          rcases peeked with ⟨position, ahead⟩
          have inside : start ≤ frame.data.length := by
            have := frame.pos_le
            omega
          refine ⟨{ state with inFrames := some (.frame ⟨frame.data, start, inside⟩) }, ?_,
            ⟨?_, nofun⟩, rfl⟩
          · rw [framePosSeekTo, here]
            dsimp only
            rw [dif_pos inside]
          · rw [List.append_assoc] at accounts
            have again : unread (some (.frame ⟨frame.data, start, inside⟩)) =
                consumed ++ unread (some (.frame frame)) := ahead
            rw [← again] at accounts
            exact accounts.withInFrames _

theorem Within.leave_interrupted {header : UInt8}
    (within : Within socket frames sent done start consumed state) :
    ∃ after, leave start header (.returned tcpsocketInterrupted none) state =
        some (.returned tcpsocketInterrupted none, after) ∧
      Delivers (AccountsFor socket frames sent) done after.toWebSocketState ∧
      work socket after.toWebSocketState = work socket state := by
  rcases within.seek with ⟨after, sought, delivers, same⟩
  refine ⟨⟨after, header⟩, ?_, delivers, same⟩
  rw [leave, if_pos rfl, sought, Option.map_some]

theorem leave_of_ne {header : UInt8} {result : FactoryResult}
    (other : result ≠ .returned tcpsocketInterrupted none) :
    leave start header result state = some (result, ⟨state, header⟩) :=
  if_neg other

section

variable {packet : Frame UInt8} {packets others : List (Frame UInt8)}

theorem scan_field (packet : Frame UInt8) :
    VariableByte.scan maxNoOfRemainingLengthBytes packet.field = .value packet.body.length [] := by
  have scanned := packet.scanned
  rwa [show packet.field.map toUInt8 = packet.field from List.map_id _] at scanned

theorem result_eq_dispatch (packet : Frame UInt8) (MQTTVersion : Int) :
    packet.result MQTTVersion = dispatch MQTTVersion packet.header packet.body := by
  rw [Frame.result, show packet.body.map toUInt8 = packet.body from List.map_id _]
  rfl

theorem flatMap_bytes_cons : (packet :: others).flatMap Frame.bytes =
    packet.header :: (packet.field ++ (packet.body ++ others.flatMap Frame.bytes)) := by
  rw [List.flatMap_cons, Frame.bytes, List.cons_append, List.append_assoc]

theorem flatMap_bytes_eq_nil (empty : packets.flatMap Frame.bytes = []) : packets = [] := by
  cases packets with
  | nil => rfl
  | cons packet others =>
      rw [flatMap_bytes_cons] at empty
      cases empty

theorem exists_packet {c : UInt8} (part : [c] <+: packets.flatMap Frame.bytes) :
    ∃ packet others, packets = packet :: others ∧ packet.header = c := by
  cases packets with
  | nil => exact absurd (List.prefix_nil.mp part) (List.cons_ne_nil _ _)
  | cons packet others =>
      rw [flatMap_bytes_cons, List.cons_prefix_cons] at part
      exact ⟨packet, others, rfl, part.1.symm⟩

theorem scan_stream {field rest : List UInt8}
    (split : packet.header :: field ++ rest = (packet :: others).flatMap Frame.bytes) :
    VariableByte.scan maxNoOfRemainingLengthBytes (field ++ rest) =
      .value packet.body.length (packet.body ++ others.flatMap Frame.bytes) := by
  rw [flatMap_bytes_cons, List.cons_append, List.cons.injEq] at split
  rw [split.2, VariableByte.scan_append (scan_field packet), List.nil_append]

theorem field_eq {field rest : List UInt8} {remainingLength : Nat}
    (split : packet.header :: field ++ rest = (packet :: others).flatMap Frame.bytes)
    (scanned : VariableByte.scan maxNoOfRemainingLengthBytes field = .value remainingLength []) :
    field = packet.field ∧ remainingLength = packet.body.length := by
  have found := scan_stream split
  rw [VariableByte.scan_append scanned, VariableByte.Scan.value.injEq, List.nil_append] at found
  rw [flatMap_bytes_cons, List.cons_append, List.cons.injEq, found.2] at split
  exact ⟨List.append_cancel_right split.2, found.1⟩

end

theorem Within.packets (plain : ∀ frame ∈ frames, Plain frame) {packets : List (Frame UInt8)}
    (stream : dataOf frames = done ++ packets.flatMap Frame.bytes)
    (within : Within socket frames sent done start consumed state) :
    consumed <+: packets.flatMap Frame.bytes := by
  have part := within.isPrefix plain
  rw [stream] at part
  exact (List.prefix_append_right_inj _).mp part

theorem Within.readBody (plain : ∀ frame ∈ frames, Plain frame)
    (sound : Sound socket frames sent good) (MQTTVersion : Int)
    {packet : Frame UInt8} {others : List (Frame UInt8)}
    (stream : dataOf frames = done ++ (packet :: others).flatMap Frame.bytes)
    (within : Within socket frames sent done start (packet.header :: packet.field) state)
    (goes : callGood socket good (.getdata packet.body.length) state = true) :
    ∃ called, WebSocket.readBody socket MQTTVersion start packet.header packet.body.length state =
        some called ∧
      Returned socket frames sent done MQTTVersion (packet :: others) state called := by
  have parsed := dispatch_ne_interrupted MQTTVersion packet.header packet.body
  rw [← result_eq_dispatch] at parsed
  rw [WebSocket.readBody]
  by_cases empty : packet.body.length = 0
  · rw [empty]
    rcases within.getdata_zero plain with ⟨data, after, called, delivers, same⟩
    have none : packet.body = [] := List.eq_nil_of_length_eq_zero empty
    rw [called, Option.bind_some]
    dsimp only
    rw [if_neg (fun both => both.1 rfl), if_neg (Nat.not_lt_zero _), List.take_zero, ← none,
      ← result_eq_dispatch, leave_of_ne parsed]
    refine ⟨_, rfl, .packet rfl ?_ same.le⟩
    rw [Frame.bytes, none, List.append_nil]
    exact delivers
  · rcases within.getdata plain sound empty (List.cons_ne_nil _ _) goes with
      ⟨data, after, called, read⟩
    rw [called, Option.bind_some]
    dsimp only
    rw [if_neg (fun both => Option.some_ne_none _ both.2), Option.getD_some]
    cases read with
    | short short within progress =>
        rw [if_pos short]
        rcases within.leave_interrupted with ⟨last, left, delivers, same⟩
        refine ⟨_, left, .interrupted delivers ?_⟩
        rw [same]
        refine .inl (progress.resolve_right fun all => ?_)
        -- at the end of the stream the body would be there
        rw [stream, List.append_assoc, List.append_cancel_left_eq, flatMap_bytes_cons,
          List.cons_append, List.cons.injEq, List.append_cancel_left_eq] at all
        have length := congrArg List.length all.2
        rw [List.length_append] at length
        omega
    | whole enough delivers less =>
        rw [if_neg (Nat.not_lt.mpr enough)]
        have part := (List.prefix_append ..).trans
          ((receiveFrame_keeps plain).bounded delivers.accounts)
        rw [stream, List.append_assoc, List.prefix_append_right_inj, flatMap_bytes_cons,
          List.cons_append, List.cons_prefix_cons, List.prefix_append_right_inj] at part
        have body : data.take packet.body.length = packet.body := by
          refine List.IsPrefix.eq_of_length
            (List.prefix_of_prefix_length_le part.2 (List.prefix_append ..) ?_) ?_
          · rw [List.length_take]
            exact min_le_left ..
          · rw [List.length_take, min_eq_left enough]
        rw [body] at delivers ⊢
        rw [← result_eq_dispatch, leave_of_ne parsed]
        refine ⟨_, rfl, .packet rfl ?_ less⟩
        rw [Frame.bytes, ← List.cons_append, ← List.append_assoc]
        exact delivers

theorem Delivers.packetFactory (plain : ∀ frame ∈ frames, Plain frame) (full : NoneEmpty frames)
    (sound : Sound socket frames sent good) (MQTTVersion : Int) {packets : List (Frame UInt8)}
    {reader : PacketReader}
    (stream : dataOf frames = done ++ packets.flatMap Frame.bytes)
    (delivers : Delivers (AccountsFor socket frames sent) done reader.toWebSocketState)
    (goes : packetGood socket good reader.toWebSocketState = true) :
    ∃ called, WebSocket.packetFactory socket MQTTVersion reader = some called ∧
      Returned socket frames sent done MQTTVersion packets reader.toWebSocketState called := by
  rcases delivers.within with ⟨start, position, within⟩
  rw [packetGood, Bool.and_eq_true] at goes
  rcases within.getch plain full sound goes.1 with ⟨result, called, read⟩
  have later := goes.2
  rw [called] at later
  rw [WebSocket.packetFactory, position, Option.bind_some, called, Option.bind_some]
  cases read with
  | interrupted within progress =>
      rcases within.leave_interrupted with ⟨last, left, delivers, same⟩
      refine ⟨_, left, .interrupted delivers ?_⟩
      rw [same]
      refine progress.imp_right fun all => flatMap_bytes_eq_nil ?_
      rw [stream, List.append_nil, List.self_eq_append_right] at all
      exact all
  | @read c after within less =>
      rcases exists_packet (within.packets plain stream) with ⟨packet, others, rfl, rfl⟩
      dsimp only at later ⊢
      rw [Bool.and_eq_true] at later
      rcases Within.decodeLoop plain full sound none (.start maxNoOfRemainingLengthBytes) within
        later.1 with ⟨result, decoded, ends⟩
      have behind := later.2
      have same : decode socket after = some result := decoded
      rw [same] at behind
      rw [if_neg (not_not_intro rfl), same, Option.bind_some, Option.getD_some]
      cases ends with
      | overlong never within =>
          rcases within.packets plain stream with ⟨rest, split⟩
          have found := scan_stream split
          rw [never] at found
          cases found
      | @interrupted field last scanned within progress =>
          rcases within.leave_interrupted with ⟨left, sought, delivers, same⟩
          refine ⟨_, sought, .interrupted delivers ?_⟩
          rw [same]
          refine .inl ((progress.resolve_right fun all => ?_).trans_le less)
          -- at the end of the stream the length would be there
          rw [stream, List.append_cancel_left_eq] at all
          have found := scan_stream ((List.append_nil _).trans all)
          rw [List.append_nil, scanned] at found
          cases found
      | @value field remainingLength last scanned within fewer =>
          rcases within.packets plain stream with ⟨rest, split⟩
          rcases field_eq split scanned with ⟨rfl, rfl⟩
          rcases within.readBody plain sound MQTTVersion stream behind with ⟨called, read, returned⟩
          exact ⟨called, read, returned.mono (fewer.trans less)⟩

/-! ## Runs -/

/-- Calls of the packet reader, each with its `MQTTVersion`. -/
def packetMachine (socket : SOCKET) : Machine PacketReader Int FactoryResult :=
  ⟨fun MQTTVersion reader =>
    (WebSocket.packetFactory socket MQTTVersion reader).map fun called => ([called.1], called.2)⟩

def uninterrupted (results : List FactoryResult) : List FactoryResult :=
  results.filter (· ≠ .returned tcpsocketInterrupted none)

/-- Every call of `WebSocket_receiveFrame` in a run starts in a good state. -/
abbrev GoodPackets (socket : SOCKET) (good : WebSocketState → Bool) (MQTTVersions : List Int)
    (reader : PacketReader) : Prop :=
  (packetMachine socket).Along
    (fun _ reader => packetGood socket good reader.toWebSocketState = true) MQTTVersions reader

theorem Delivers.run_packetFactory (plain : ∀ frame ∈ frames, Plain frame)
    (full : NoneEmpty frames) (sound : Sound socket frames sent good) (MQTTVersion : Int)
    {packets : List (Frame UInt8)} {reader : PacketReader}
    (stream : dataOf frames = done ++ packets.flatMap Frame.bytes)
    (delivers : Delivers (AccountsFor socket frames sent) done reader.toWebSocketState)
    {count : Nat}
    (along : GoodPackets socket good (List.replicate count MQTTVersion) reader) :
    ∃ results after, (packetMachine socket).run (List.replicate count MQTTVersion) reader =
        some (results, after) ∧
      uninterrupted results <+: packets.map (Frame.result MQTTVersion) ∧
      (work socket reader.toWebSocketState + packets.length ≤ count →
        uninterrupted results = packets.map (Frame.result MQTTVersion)) := by
  induction count generalizing done packets reader with
  | zero =>
      refine ⟨[], reader, rfl, List.nil_prefix, fun enough => ?_⟩
      rw [List.length_eq_zero_iff.mp (by omega : packets.length = 0)]
      rfl
  | succ count induction =>
      rcases delivers.packetFactory plain full sound MQTTVersion stream along.1 with
        ⟨called, ran, returned⟩
      have stepped : (packetMachine socket).step MQTTVersion reader =
          some ([called.1], called.2) := by
        change (WebSocket.packetFactory socket MQTTVersion reader).map _ = _
        rw [ran, Option.map_some]
      have later := along.2 _ stepped
      rw [List.replicate_succ, Machine.run, stepped, Option.bind_some]
      cases returned with
      | @packet packet others after head delivers less =>
          subst head
          rw [List.flatMap_cons, ← List.append_assoc] at stream
          rcases induction stream delivers later with ⟨results, last, rest, part, whole⟩
          have parsed := dispatch_ne_interrupted MQTTVersion packet.header packet.body
          rw [← result_eq_dispatch] at parsed
          have kept : uninterrupted (packet.result MQTTVersion :: results) =
              packet.result MQTTVersion :: uninterrupted results :=
            List.filter_cons_of_pos (decide_eq_true parsed)
          refine ⟨packet.result MQTTVersion :: results, last, by rw [rest]; rfl, ?_,
            fun enough => ?_⟩
          · rw [kept, List.map_cons]
            exact (List.prefix_cons_inj _).mpr part
          · rw [List.length_cons] at enough
            rw [kept, List.map_cons, whole (by omega)]
      | @interrupted after delivers progress =>
          rcases induction stream delivers later with ⟨results, last, rest, part, whole⟩
          have dropped : uninterrupted (.returned tcpsocketInterrupted none :: results) =
              uninterrupted results := rfl
          refine ⟨.returned tcpsocketInterrupted none :: results, last, by rw [rest]; rfl, ?_,
            fun enough => ?_⟩
          · rw [dropped]
            exact part
          · rw [dropped]
            rcases progress with less | rfl
            · exact whole (by omega)
            · exact List.prefix_nil.mp part

end

section

variable {socket : SOCKET} {frames : List WebSocketFrame} {packets : List (Frame UInt8)}
  {inbound : SOCKET → RecvSource UInt8} {outbound : SOCKET → List WritevEvent} {rand : Nat → Nat}

/-- What a run from the start returns. -/
def ReturnsPackets (socket : SOCKET) (frames : List WebSocketFrame)
    (packets : List (Frame UInt8)) (inbound : SOCKET → RecvSource UInt8)
    (outbound : SOCKET → List WritevEvent) (rand : Nat → Nat) (MQTTVersion : Int)
    (count : Nat) : Prop :=
  ∃ results after, (packetMachine socket).run (List.replicate count MQTTVersion)
      ⟨.start inbound outbound rand, 0⟩ = some (results, after) ∧
    uninterrupted results <+: packets.map (Frame.result MQTTVersion) ∧
    ((WebSocketFrame.encodeAll frames).length + (inbound socket).size + packets.length ≤ count →
      uninterrupted results = packets.map (Frame.result MQTTVersion))

theorem returnsPackets (plain : ∀ frame ∈ frames, Plain frame) (full : NoneEmpty frames)
    {good : WebSocketState → Bool} (sound : Sound socket frames [] good)
    (stream : dataOf frames = packets.flatMap Frame.bytes) (healthy : (inbound socket).Healthy)
    (bytes : (inbound socket).bytes = WebSocketFrame.encodeAll frames) (MQTTVersion : Int)
    {count : Nat} (along : GoodPackets socket good (List.replicate count MQTTVersion)
      ⟨.start inbound outbound rand, 0⟩) :
    ReturnsPackets socket frames packets inbound outbound rand MQTTVersion count := by
  have delivers : Delivers (AccountsFor socket frames []) []
      (PacketReader.mk (.start inbound outbound rand) 0).toWebSocketState :=
    delivers_start healthy bytes
  have all : work socket (WebSocketState.start inbound outbound rand) =
      (WebSocketFrame.encodeAll frames).length + (inbound socket).size := by
    rw [work, ← bytes]
    exact congrArg (· + _) (Nat.zero_add _)
  rcases delivers.run_packetFactory plain full sound MQTTVersion stream along with
    ⟨results, after, ran, part, whole⟩
  exact ⟨results, after, ran, part, fun enough => whole (all ▸ enough)⟩

/-- A run whose calls lose nothing returns the packets of the stream in order, however they are put
into frames and however the frames are cut into reads: the first of them after any number of
calls, and all of them after enough. -/
theorem packets_of_steady (plain : ∀ frame ∈ frames, Plain frame) (full : NoneEmpty frames)
    (stream : dataOf frames = packets.flatMap Frame.bytes) (healthy : (inbound socket).Healthy)
    (bytes : (inbound socket).bytes = WebSocketFrame.encodeAll frames) (MQTTVersion : Int)
    {count : Nat} (along : GoodPackets socket (steadyCall socket)
      (List.replicate count MQTTVersion) ⟨.start inbound outbound rand, 0⟩) :
    ReturnsPackets socket frames packets inbound outbound rand MQTTVersion count :=
  returnsPackets plain full (fun _ _ _ steady => steady) stream healthy bytes MQTTVersion along

def pingAndPubacks : List WebSocketFrame :=
  [⟨true, ⟨opPing, opPing_lt⟩, .none, [97]⟩, ⟨false, ⟨opBinary, opBinary_lt⟩, .none, [0x40]⟩,
    ⟨true, ⟨opContinue, opContinue_lt⟩, .none, [2, 0]⟩,
    ⟨true, ⟨opBinary, opBinary_lt⟩, .none, [7, 0x40, 2, 0, 8]⟩]

def inPieces : SOCKET → RecvSource UInt8 := fun _ =>
  [.data [0x89, 1], .wouldBlock, .data [97, 2], .data [1, 0x40, 0x80, 2, 2, 0, 0x82, 5],
    .wouldBlock, .data [7, 0x40, 2, 0, 8]]

theorem plain_pingAndPubacks :
    (∀ frame ∈ pingAndPubacks, Plain frame) ∧ NoneEmpty pingAndPubacks := by
  have all : ∀ frame ∈ pingAndPubacks, frame.key = .none ∧ frame.payload.length < 4294967296 ∧
      frame.payload ≠ [] ∧
      (IsData frame ∨ IsPing frame ∧ frame.fin = true ∧ frame.payload.length ≤ 125) := by
    rw [pingAndPubacks, List.forall_mem_cons, List.forall_mem_cons, List.forall_mem_cons,
      List.forall_mem_singleton]
    decide
  refine ⟨fun frame member => ?_, fun frame member _ => (all frame member).2.2.1⟩
  rcases all frame member with ⟨unmasked, small, _, isData | ⟨ping, fin, short⟩⟩
  · exact ⟨unmasked, small, .inl isData⟩
  · exact ⟨unmasked, small, .inr ⟨.inl ping, fin, short⟩⟩

theorem healthy_inPieces : (inPieces 3).Healthy := by
  intro event member
  simp only [inPieces, List.mem_cons, List.not_mem_nil, or_false] at member
  rcases member with rfl | rfl | rfl | rfl | rfl | rfl <;> trivial

theorem packets_of_steady_inPieces : ∃ results after,
    (packetMachine 3).run (List.replicate 42 4) ⟨.start inPieces (fun _ => [.accept 100])
        fun _ => 0, 0⟩ = some (results, after) ∧
      uninterrupted results = [.returned 0 (some (.ack ⟨⟨0x40⟩, some 7, 4⟩)),
        .returned 0 (some (.ack ⟨⟨0x40⟩, some 8, 4⟩))] := by
  have steady : GoodPackets 3 (steadyCall 3) (List.replicate 42 4)
      ⟨.start inPieces (fun _ => [.accept 100]) fun _ => 0, 0⟩ := by
    decide +kernel
  rcases @packets_of_steady 3 pingAndPubacks [⟨0x40, [2], [0, 7], by decide⟩,
    ⟨0x40, [2], [0, 8], by decide⟩] inPieces _ _ plain_pingAndPubacks.1 plain_pingAndPubacks.2
    (by decide) healthy_inPieces (by decide) 4 42 steady with ⟨results, after, ran, _, whole⟩
  exact ⟨results, after, ran, (whole (by decide)).trans (by decide)⟩

/-- From a server that sends nothing but data frames and does not fragment its messages, every run
returns the packets. -/
theorem packets_of_unfragmented (plain : ∀ frame ∈ frames, Plain frame) (full : NoneEmpty frames)
    (unfragmented : ∀ frame ∈ frames, IsData frame ∧ frame.fin = true)
    (stream : dataOf frames = packets.flatMap Frame.bytes) (healthy : (inbound socket).Healthy)
    (bytes : (inbound socket).bytes = WebSocketFrame.encodeAll frames)
    (outbound : SOCKET → List WritevEvent) (rand : Nat → Nat) (MQTTVersion : Int) (count : Nat) :
    ReturnsPackets socket frames packets inbound outbound rand MQTTVersion count := by
  have sound : Sound socket frames [] fun _ => true := fun _ _ accounts _ =>
    steadyCall_of_unfragmented plain unfragmented accounts
  refine returnsPackets plain full sound stream healthy bytes MQTTVersion ?_
  exact Machine.along_of_forall (fun _ reader => packetGood_of_forall (fun _ => rfl) _) _ _

/-- Two PUBACK packets in three frames, one of which comes in two pieces. -/
theorem packets_of_unfragmented_two :
    let frames : List WebSocketFrame :=
      [⟨true, 2, .none, [0x40, 2]⟩, ⟨true, 2, .none, [0, 7, 0x40]⟩, ⟨true, 2, .none, [2, 0, 8]⟩]
    let packets : List (Frame UInt8) :=
      [⟨0x40, [2], [0, 7], by decide⟩, ⟨0x40, [2], [0, 8], by decide⟩]
    ReturnsPackets 3 frames packets (fun _ => [.data [0x82, 2, 0x40, 2, 0x82, 3, 0],
      .wouldBlock, .data [7, 0x40, 0x82, 3, 2, 0, 8]]) (fun _ => []) (fun _ => 0) 4 33 := by
  intro frames packets
  have all : ∀ frame ∈ frames, frame.key = .none ∧ frame.payload.length < 4294967296 ∧
      frame.payload ≠ [] ∧ IsData frame ∧ frame.fin = true := by
    simp only [frames]
    rw [List.forall_mem_cons, List.forall_mem_cons, List.forall_mem_singleton]
    decide
  refine packets_of_unfragmented (fun frame member => ?_) (fun frame member _ => ?_)
    (fun frame member => ?_) (by decide) (fun event member => ?_) (by decide) _ _ 4 33
  · exact ⟨(all frame member).1, (all frame member).2.1, .inl (all frame member).2.2.2.1⟩
  · exact (all frame member).2.2.1
  · exact (all frame member).2.2.2
  · simp only [List.mem_cons, List.not_mem_nil, or_false] at member
    rcases member with rfl | rfl | rfl <;> trivial

end

end MqttClient.WebSocket
