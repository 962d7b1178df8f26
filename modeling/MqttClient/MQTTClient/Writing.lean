import MqttClient.MQTTClient.Acknowledgements
import MqttClient.MQTTClient.ConnectPackets
import MqttClient.MQTTClient.Feeding
import MqttClient.MQTTPacket.ClientPackets

/-! # What a step does to the streams

All threads write through the same sockets. A step offers at most one packet, to the socket of
a client.
-/

namespace MqttClient.MQTTClient

open Foundation LinkedList MQTTPacket MQTTProtocol Socket

def Prepared (library : Library) : Prop :=
  library.initialized = true → library.writes.Consistent

inductive Writes (Puts : Nat → SOCKET → Frame UInt8 → Prop) (before after : Library) : Prop
  | unwritten (same : after.writes = before.writes)
      (initialized : after.initialized = before.initialized)
  | kept (consistent : after.writes.Consistent)
      (advances : ∀ sock, Advances sock before.writes after.writes)
  | put {m : Nat} {sock : SOCKET} {frame : Frame UInt8} (puts : Puts m sock frame)
      (fromClient : FromClient frame) (consistent : after.writes.Consistent)
      (offers : Offers sock frame.bytes before.writes after.writes)
  | forgot (alone : before.handles.values = [] ∨ after.handles.values = [])
      (prepared : Prepared after) (outbound : after.writes.outbound = before.writes.outbound)
      (accepted : after.writes.accepted = before.writes.accepted)
      (forgotten : ∀ sock, after.writes.pending sock = none)

/-- A publish whose packet fits: what `MQTTProtocol_startPublish` sends in version 5 are the
properties that it is given, or their copy. -/
def PublishCall.Fits (mqttVersion : Int) (call : PublishCall) : Prop :=
  4 + call.topicName.bytes.length + call.payload.length ≤ maxRemainingLength ∧
    (5 ≤ mqttVersion → ∀ properties ∈ [call.memory.properties, call.memory.properties.copy],
      4 + call.topicName.bytes.length + call.payload.length + properties.len ≤ maxRemainingLength)

instance (mqttVersion : Int) (call : PublishCall) : Decidable (call.Fits mqttVersion) :=
  inferInstanceAs (Decidable (_ ∧ (_ → ∀ _ ∈ _, _)))

section Writes

variable {Puts : Nat → SOCKET → Frame UInt8 → Prop} {before after : Library} {m : Nat}

theorem Writes.of_eq (consistent : before.writes.Consistent)
    (same : after.writes = before.writes) : Writes Puts before after :=
  .kept (same ▸ consistent) fun sock => same ▸ .refl sock before.writes

theorem Writes.imp {Other : Nat → SOCKET → Frame UInt8 → Prop} (writes : Writes Puts before after)
    (imp : ∀ m sock frame, Puts m sock frame → Other m sock frame) :
    Writes Other before after := by
  cases writes with
  | unwritten same initialized => exact .unwritten same initialized
  | kept consistent advances => exact .kept consistent advances
  | put puts fromClient consistent offers =>
      exact .put (imp _ _ _ puts) fromClient consistent offers
  | forgot alone prepared outbound accepted forgotten =>
      exact .forgot alone prepared outbound accepted forgotten

theorem Writes.of_sending {kind : Frame UInt8 → Prop} {sock : SOCKET}
    (sending : Sending (fun frame => FromClient frame ∧ kind frame) sock before.writes
      after.writes) (consistent : after.writes.Consistent)
    (puts : ∀ frame, kind frame → Puts m sock frame) : Writes Puts before after := by
  cases sending with
  | unsent advances => exact .kept consistent advances
  | offered is offers => exact .put (puts _ is.2) is.1 consistent offers

theorem Writes.of_writes {library : Library} (writes : Writes Puts before after)
    (same : library.writes = before.writes) (initialized : library.initialized = before.initialized)
    (handles : library.handles.values = before.handles.values) : Writes Puts library after := by
  cases writes with
  | unwritten unchanged kept =>
      exact .unwritten (unchanged.trans same.symm) (kept.trans initialized.symm)
  | kept consistent advances => exact .kept consistent (same ▸ advances)
  | put puts fromClient consistent offers =>
      exact .put puts fromClient consistent (same ▸ offers)
  | forgot alone prepared outbound accepted forgotten =>
      exact .forgot (handles.symm ▸ alone) prepared (same ▸ outbound) (same ▸ accepted) forgotten

end Writes

section Cycle

variable {before after : Library} {m : Nat}

structure Acknowledges (sock : SOCKET) (library : Library) (m : Nat) (other : SOCKET)
    (frame : Frame UInt8) : Prop where
  here : other = sock
  member : m ∈ library.clients.values
  owner : (library.client m).socket = sock
  notConnect : ¬frame.IsConnect

structure Answers (sock : SOCKET) (library : Library) (m : Nat) (other : SOCKET)
    (frame : Frame UInt8) : Prop extends Acknowledges sock library m other frame where
  reader : ∃ reader ∈ library.handles.values, (library.client reader).socket = sock ∧
    (library.client reader).connectState ≠ .tcpInProgress

theorem handlePublishes_writes {publish : Publish} {sock : SOCKET} {rc : Int}
    (consistent : before.writes.Consistent)
    (handled : handlePublishes publish sock before = some (rc, after)) :
    Writes (Acknowledges sock before) before after := by
  unfold handlePublishes at handled
  split at handled
  · cases handled
  · rename_i client library found
    have writes := Library.writes_findClient found
    rcases Library.findClient_eq_some found with ⟨member, owner, searched⟩
    have asked := noPendingWrites_spec (writes.symm ▸ consistent) sock
    have advances (other : SOCKET) : Advances other before.writes
        (noPendingWrites sock library.writes).2 :=
      writes ▸ noPendingWrites_advances sock other library.writes
    rcases asked with ⟨writePending, asked, searchedWrites⟩
    unfold handleFound at handled
    split at handled
    · cases handled
      exact .of_eq consistent writes
    · rw [asked] at handled advances
      dsimp only at handled
      split at handled
      · split at handled
        · cases handled
          exact .kept searchedWrites advances
        · cases handled
          have socket : ((processPublication publish client { library with
              writes := { library.writes with writePending := writePending } }).client
                client).socket = sock := by
            rw [(processPublication_sets publish client _).client_self]
            change (library.client client).socket = sock
            rw [searched.client, owner]
          rw [socket]
          rcases sendPuback_sending searchedWrites publish.msgId sock with ⟨kept, sending⟩
          cases sending with
          | unsent further =>
              exact .kept kept fun other => (advances other).trans (further other)
          | offered is offers =>
              exact @Writes.put _ _ _ client _ _ ⟨rfl, member, owner, is.2⟩ is.1 kept
                (offers.of_advances advances)
      · split at handled
        · rcases Option.map_eq_some_iff.mp handled with ⟨stored, storing, same⟩
          have kept : after.writes =
              { library.writes with writePending := writePending } := by
            split at same
            all_goals
              cases same
              exact (storeInbound_keeps storing).1
          refine .kept ?_ fun other => ?_
          · rw [kept]
            exact searchedWrites
          · rw [kept]
            exact advances other
        · cases handled
          exact .kept searchedWrites advances

theorem handlePubacks_writes_eq {msgid : Int} {sock : SOCKET} {client : Nat}
    (handled : handlePubacks msgid sock before = some (client, after)) :
    after.writes = before.writes := by
  unfold handlePubacks at handled
  split at handled
  · cases handled
  · rename_i found library searched
    rcases Option.map_eq_some_iff.mp handled with ⟨final, acknowledged, same⟩
    cases same
    rw [← Library.writes_findClient searched]
    unfold acknowledge at acknowledged
    dsimp only at acknowledged
    split at acknowledged
    · cases acknowledged
      rfl
    · split at acknowledged
      · cases acknowledged
        rfl
      · rcases Option.map_eq_some_iff.mp acknowledged with ⟨_, _, rfl⟩
        rfl

theorem cycleReady_writes {sock : SOCKET} {result : List Event × Option Packet × Int × Library}
    (consistent : before.writes.Consistent) (cycled : cycleReady sock before = some result) :
    Writes (Answers sock before) before result.2.2.2 := by
  unfold cycleReady at cycled
  split at cycled
  · rename_i library found
    cases cycled
    exact .of_eq consistent (Library.writes_findHandle found)
  · rename_i m library found
    have same := Library.writes_findHandle found
    rcases Library.findHandle_eq found with ⟨owns, searched⟩
    rcases owns m rfl with ⟨reader, reads⟩
    dsimp only at cycled
    split at cycled
    · cases cycled
      exact .of_eq consistent same
    · rename_i connected
      rw [searched.client] at connected
      split at cycled
      · cases cycled
      · cases cycled
        exact .of_eq consistent same
      · rcases Option.map_eq_some_iff.mp cycled with ⟨handled, handling, rfl⟩
        unfold handlePacket at handling
        split at handling
        · split at handling
          · rcases Option.map_eq_some_iff.mp handling with ⟨⟨rc, after⟩, published, rfl⟩
            have writes := (handlePublishes_writes (same.symm ▸ consistent) published).of_writes
              same.symm searched.initialized.symm searched.handles.symm
            refine writes.imp fun client other frame acknowledges => ?_
            rcases acknowledges with ⟨here, member, owner, notConnect⟩
            change client ∈ library.clients.values at member
            rw [searched.clients] at member
            change (library.client client).socket = sock at owner
            rw [searched.client] at owner
            exact ⟨⟨here, member, owner, notConnect⟩, m, reader, reads, connected⟩
          · cases handling
        · split at handling
          · split at handling
            · rcases Option.map_eq_some_iff.mp handling with ⟨⟨rc, after⟩, acknowledged, rfl⟩
              exact .of_eq consistent ((handlePubacks_writes_eq acknowledged).trans same)
            · cases handling
          · cases handling
            exact .of_eq consistent same

theorem getReadySocket_writes {Puts : Nat → SOCKET → Frame UInt8 → Prop} {choice : Choice}
    {sock : SOCKET} {rc : Int} (consistent : before.writes.Consistent)
    (ready : getReadySocket choice before = some (sock, rc, after)) :
    Writes Puts before after := by
  unfold getReadySocket at ready
  split at ready
  · cases ready
  · rename_i ran
    rcases Option.ite_none_right_eq_some.mp ready with ⟨_, same⟩
    cases same
    rcases getReadySocket_advances consistent ran with ⟨kept, advances⟩
    exact .kept kept advances

theorem post_writes_eq (choice : Choice) (m : Nat) (pack : Option Packet) (library : Library) :
    (post choice m pack library).writes = library.writes := by
  unfold post
  split
  · split
    · rfl
    · split <;> rfl
  · split <;> rfl

def Serves (sock? : Option SOCKET) (library : Library) (m : Nat) (other : SOCKET)
    (frame : Frame UInt8) : Prop :=
  ∃ sock, sock? = some sock ∧ Answers sock library m other frame

theorem Registered.ready {library : Library} (registered : Registered library)
    (member : m ∈ library.handles.values) : library.initialized = true := by
  by_contra off
  rw [registered.initialized ((Bool.not_eq_true _).mp off)] at member
  cases member

theorem LoopState.ready_of_alive {loop : LoopState} (registered : Registered before)
    (alive : ¬loop.Dangles before) (started : loop ≠ .starting) : before.initialized = true := by
  cases loop with
  | starting => exact absurd rfl started
  | callback m qe pack => exact registered.ready (Decidable.not_not.mp alive)
  | ready | selected | cycled => exact (Bool.not_eq_false _).mp alive

theorem loopStep_writes {choice : Choice} {loop : LoopState}
    {result : List Event × LoopState × Library} (registered : Registered before)
    (prepared : Prepared before) (stepped : loopStep choice before loop = some result) :
    Writes (Serves loop.serves before) before result.2.2 := by
  rcases Option.ite_none_left_eq_some.mp stepped with ⟨alive, stepped⟩
  have ready (started : loop ≠ .starting) : before.writes.Consistent :=
    prepared (loop.ready_of_alive registered alive started)
  cases loop with
  | starting =>
      cases stepped
      exact .unwritten rfl rfl
  | ready =>
      have consistent := ready LoopState.noConfusion
      rcases Option.map_eq_some_iff.mp stepped with ⟨ready, found, rfl⟩
      exact getReadySocket_writes consistent found
  | selected sock =>
      have consistent := ready LoopState.noConfusion
      rcases Option.map_eq_some_iff.mp stepped with ⟨cycled, ready, rfl⟩
      exact (cycleReady_writes consistent ready).imp fun _ _ _ puts => ⟨sock, rfl, puts⟩
  | cycled sock pack =>
      have consistent := ready LoopState.noConfusion
      simp only [loopBody] at stepped
      split at stepped
      · rename_i library found
        cases stepped
        exact .of_eq consistent (Library.writes_findHandle found)
      · rename_i m library found
        have same := Library.writes_findHandle found
        split at stepped
        · split at stepped
          · cases stepped
            exact .of_eq consistent same
          · cases stepped
            exact .of_eq consistent ((post_writes_eq ..).trans same)
        · cases stepped
          exact .of_eq consistent ((post_writes_eq ..).trans same)
  | callback m qe pack =>
      cases stepped
      refine .of_eq (ready LoopState.noConfusion) ((post_writes_eq ..).trans ?_)
      split <;> rfl

theorem waitforStep_writes {choice : Choice} {packetType : Nat} {waiting : Waiting}
    {result : List Event × Waiting × Library} (consistent : before.writes.Consistent)
    (stepped : waitforStep choice m packetType before waiting = some result) :
    Writes (Serves waiting.serves before) before result.2.2 := by
  cases waiting with
  | waitfor =>
      simp only [waitforStep] at stepped
      split at stepped
      · cases stepped
        exact .of_eq consistent rfl
      · split at stepped
        all_goals
          cases stepped
          exact .of_eq consistent rfl
  | semaphore =>
      simp only [waitforStep] at stepped
      split at stepped
      all_goals
        rcases Option.map_eq_some_iff.mp stepped with ⟨_, _, rfl⟩
        exact .of_eq consistent rfl
  | awake rc =>
      cases stepped
      exact .of_eq consistent rfl
  | polling =>
      rcases Option.map_eq_some_iff.mp stepped with ⟨ready, found, rfl⟩
      exact getReadySocket_writes consistent found
  | selected sock =>
      rcases Option.map_eq_some_iff.mp stepped with ⟨cycled, ready, rfl⟩
      exact (cycleReady_writes consistent ready).imp fun _ _ _ puts => ⟨sock, rfl, puts⟩
  | polled sock pack rc =>
      cases stepped
      exact .of_eq consistent rfl
  | done pack rc => cases stepped

end Cycle

section Interface

variable {before after : Library} {m : Nat}

structure Uses (client : Nat) (library : Library) (m : Nat) (sock : SOCKET)
    (frame : Frame UInt8) : Prop where
  here : m = client
  owner : (library.client client).socket = sock
  notConnect : ¬frame.IsConnect

theorem PublishCall.Fits.length {mqttVersion : Int} {call : PublishCall}
    (fits : call.Fits mqttVersion) (pack : Publish) (version : pack.mqttVersion = mqttVersion)
    (copied : 5 ≤ mqttVersion →
      pack.properties ∈ [call.memory.properties, call.memory.properties.copy]) (qos : Int) :
    2 + (call.topicName.bytes.length : Int) + publishBuflen pack qos + call.payload.length ≤
      maxRemainingLength := by
  have plain := fits.1
  have section_le : (if qos > 0 then (2 : Int) else 0) ≤ 2 := by
    split <;> decide
  rw [publishBuflen]
  by_cases new : pack.mqttVersion ≥ 5
  · rw [version] at new
    have whole := fits.2 new _ (copied new)
    rw [version, if_pos new]
    omega
  · rw [if_neg new]
    omega

theorem startPublishCommon_writes {publish : Publish} {qos retained rc : Int}
    (consistent : before.writes.Consistent) (topic : CString)
    (named : publish.topic = topic.bytes)
    (measured : publish.payloadlen = publish.payload.length)
    (fits : 2 + topic.bytes.length + publishBuflen publish qos + publish.payload.length ≤
      maxRemainingLength)
    (started : startPublishCommon m publish qos retained before = some (rc, after)) :
    Writes (Uses m before) before after := by
  unfold startPublishCommon at started
  split at started
  · cases started
  · rename_i sent writes sending
    rcases sendPublish_sending consistent topic named measured fits sending with
      ⟨kept, sends, counted⟩
    have written : Writes (Uses m before) before { before with writes := writes } :=
      .of_sending sends kept fun frame notConnect => ⟨rfl, rfl, notConnect⟩
    dsimp only at started
    split at started
    · rename_i interrupted
      cases started
      rcases updateWrite_advances kept (counted interrupted.2) publish.topic publish.payload with
        ⟨updated, advances⟩
      cases written with
      | unwritten same _ =>
          exact .kept updated fun other => same ▸ advances other
      | kept _ further =>
          exact .kept updated fun other => (further other).trans (advances other)
      | put puts fromClient _ offers => exact .put puts fromClient updated (offers.trans advances)
      | forgot alone _ outbound accepted forgotten =>
          exact .forgot alone (fun _ => updated) outbound accepted fun sock =>
            ((advances sock).rests _ ⟨forgotten sock, rfl⟩).idle
    · cases started
      exact written

theorem publish5_writes {call : PublishCall} {result : Published}
    (consistent : before.writes.Consistent) (fits : call.Fits (before.client m).mqttVersion)
    (published : publish5 m call before = some (result, after)) :
    Writes (Uses m before) before after := by
  unfold publish5 at published
  split at published
  · cases published
  · rename_i msgid client numbering
    have sent : client.socket = (before.client m).socket ∧
        client.mqttVersion = (before.client m).mqttVersion := by
      by_cases positive : call.qos > 0
      · rw [if_pos positive] at numbering
        rcases assignMsgId_eq numbering with ⟨msgID, outboundMsgs, same, _⟩
        rw [same]
        exact ⟨rfl, rfl⟩
      · rw [if_neg positive] at numbering
        cases numbering
        exact ⟨rfl, rfl⟩
    have numbered := Library.modifyClient_sets m (fun _ => client) before
    have socket : ((before.modifyClient m fun _ => client).client m).socket =
        (before.client m).socket := by
      rw [numbered.client_self, sent.1]
    rw [← sent.2] at fits
    dsimp only at published
    split at published
    · cases published
      exact .of_eq consistent rfl
    · rcases Option.map_eq_some_iff.mp published with ⟨⟨rc, final⟩, started, same⟩
      cases same
      by_cases positive : call.qos > 0
      · rw [startPublish_eq positive, socket] at started
        rcases Option.map_eq_some_iff.mp started with ⟨⟨code, writes⟩, sending, same⟩
        cases same
        have copied (new : 5 ≤ client.mqttVersion) :
            (keptPublish (call.publish msgid client.mqttVersion)).properties ∈
              [call.memory.properties, call.memory.properties.copy] := by
          rw [keptPublish]
          dsimp only
          rw [if_pos (show (call.publish msgid client.mqttVersion).mqttVersion ≥ 5 from new)]
          exact List.mem_cons_of_mem _ List.mem_cons_self
        have length := fits.length (keptPublish (call.publish msgid client.mqttVersion)) rfl copied
          call.qos
        rcases sendPublish_sending consistent call.topicName rfl rfl length sending with
          ⟨kept, sends, _⟩
        exact .of_sending sends kept fun frame notConnect => ⟨rfl, rfl, notConnect⟩
      · rw [startPublish, if_neg positive] at started
        have length := fits.length (call.publish msgid client.mqttVersion) rfl
          (fun _ => List.mem_cons_self) call.qos
        have kept : (before.modifyClient m fun _ => client).writes.Consistent := consistent
        have writes := startPublishCommon_writes kept call.topicName rfl rfl length started
        have renamed := writes.imp fun other sock frame uses =>
          show Uses m before other sock frame from
            ⟨uses.here, socket.symm.trans uses.owner, uses.notConnect⟩
        exact renamed.of_writes rfl rfl rfl

theorem subscribe_writes {topic : CString} {qos rc : Int} (consistent : before.writes.Consistent)
    (short : topic.bytes.length ≤ 65535)
    (subscribed : subscribe m topic qos before = some (rc, after)) :
    Writes (Uses m before) before after := by
  unfold subscribe at subscribed
  rcases Option.map_eq_some_iff.mp subscribed with ⟨⟨code, writes⟩, sent, same⟩
  rw [Prod.mk.injEq] at same
  rcases same with ⟨_, rfl⟩
  rcases sendSubscribe_sending consistent short sent with ⟨kept, sends⟩
  exact .of_sending sends kept fun frame notConnect => ⟨rfl, rfl, notConnect⟩

theorem create_writes {Puts : Nat → SOCKET → Frame UInt8 → Prop} (registered : Registered before)
    (prepared : Prepared before) (clientId : CString) :
    Writes Puts before (create clientId before) := by
  cases ready : before.initialized with
  | true =>
      refine .of_eq (prepared ready) ?_
      simp [create, ready]
  | false =>
      have writes : (create clientId before).writes =
          { before.writes with
            writePending := .zero
            pendingWset := fun _ => false
            writes := .zero } := by
        simp [create, ready, initializeLibrary]
      refine .forgot (.inl (registered.initialized ready)) (fun _ => ?_) ?_ ?_ fun sock => ?_
      all_goals rw [writes]
      · exact (SocketWrites.Consistent.start before.writes.outbound).of_lists rfl rfl
      · rfl

theorem destroy_writes {Puts : Nat → SOCKET → Frame UInt8 → Prop}
    (consistent : before.writes.Consistent) (destroyed : destroy m before = some after) :
    Writes Puts before after := by
  rcases Option.map_eq_some_iff.mp destroyed with ⟨publications, _, same⟩
  dsimp only at same
  split at same
  · rw [← same]
    exact .forgot (.inr rfl) (fun on => Bool.noConfusion on) rfl rfl fun sock => rfl
  · rw [← same]
    exact .of_eq consistent rfl

theorem setCallbacks_writes {Puts : Nat → SOCKET → Frame UInt8 → Prop}
    (consistent : before.writes.Consistent) (m : Nat) (ma dc : Bool) :
    Writes Puts before (setCallbacks m ma dc before).2 := by
  refine .of_eq consistent ?_
  unfold setCallbacks
  split <;> rfl

end Interface

section Connect

variable {before after : Library} {m : Nat}

structure Opens (client : Nat) (before after : Library) (m : Nat) (sock : SOCKET)
    (frame : Frame UInt8) : Prop where
  here : m = client
  fresh : 0 ≤ sock ∧ sock ∉ before.descriptors
  owner : (after.client client).socket = sock
  isConnect : frame.IsConnect
  state : (after.client client).connectState ≠ .tcpInProgress

structure Introduces (call : ConnectCall) (outcome : ConnectOutcome) (library : Library) (m : Nat)
    (sock : SOCKET) (frame : Frame UInt8) : Prop where
  here : m = call.m
  phase : call.packetType = MsgType.connect
  owner : (library.client call.m).socket = sock
  isConnect : frame.IsConnect
  next : ∀ next, outcome = .waits next → next.packetType = MsgType.connack

def Unused (library : Library) : Prop :=
  ∀ sock, 0 ≤ sock → sock ∉ library.descriptors → library.writes.pending sock = none

theorem socketNew_advances {newSocket : NewSocket} {rc : Int} {sock : SOCKET}
    (consistent : before.writes.Consistent) (unused : Unused before)
    (fresh : newSocket.Fresh before)
    (created : socketNew newSocket before = some (rc, sock, after)) :
    after.writes.Consistent ∧ (∀ other, Advances other before.writes after.writes) ∧
      (rc = 0 → 0 ≤ sock ∧ sock ∉ before.descriptors) := by
  cases newSocket with
  | failed error other opened =>
      cases opened with
      | none =>
          cases created
          exact ⟨consistent, fun sock => .refl sock before.writes, fun success =>
            absurd success other.1⟩
      | some opened =>
          cases created
          exact ⟨(closeWrites_consistent consistent opened).1,
            closeWrites_advances consistent (unused opened fresh.1 fresh.2),
            fun success => absurd success other.1⟩
  | inProgress opened =>
      rcases Option.ite_none_left_eq_some.mp created with ⟨_, same⟩
      cases same
      exact ⟨consistent, fun sock => .refl sock before.writes, fun success =>
        absurd success (by decide)⟩
  | connected opened =>
      rcases Option.ite_none_left_eq_some.mp created with ⟨_, same⟩
      cases same
      exact ⟨consistent, fun sock => .refl sock before.writes, fun _ => fresh⟩

theorem protocolConnect_writes {mqttVersion rc : Int} {newSocket : NewSocket}
    {events : List Event} (consistent : before.writes.Consistent) (unused : Unused before)
    (short : ShortStrings (before.client m)) (fresh : newSocket.Fresh before)
    (connected : protocolConnect m mqttVersion newSocket before = some (events, rc, after)) :
    Writes (Opens m before after) before after := by
  rcases Option.bind_eq_some_iff.mp connected with ⟨⟨new, sock, library⟩, created, rest⟩
  rcases socketNew_advances consistent unused fresh created with ⟨kept, advances, opened⟩
  have client := (socketNew_spec (m := m) fresh created).1.client_self
  have takes := modifyClient_reconnects (fun client => { client with socket := sock }) m library
  dsimp only at rest
  split at rest
  · cases rest
    exact .kept kept advances
  · split at rest
    · rename_i success
      rcases Option.map_eq_some_iff.mp rest with ⟨⟨sends, rc, final⟩, sent, same⟩
      cases same
      have reconnects := (sendConnect_spec sent).2.1
      rcases Option.bind_eq_some_iff.mp sent with ⟨block, _, sent⟩
      rcases Option.map_eq_some_iff.mp sent with ⟨⟨code, writes⟩, sending, same⟩
      cases same
      rw [takes.client_self, client] at sending reconnects
      have state := modifyClient_reconnects (fun client => { client with
        connectState := if code = 0 then .waitForConnack else .notInProgress }) m
          { library.modifyClient m fun client => { client with socket := sock } with
            writes := writes }
      have shortened : ShortStrings { before.client m with socket := sock } :=
        ⟨short.clientID, short.username, short.password⟩
      rcases sendConnect_sending kept shortened sending with ⟨keptAfter, sends⟩
      cases sends with
      | unsent further => exact .kept keptAfter fun other => (advances other).trans (further other)
      | offered is offers =>
          change Offers sock _ library.writes writes at offers
          refine .put ⟨rfl, opened success, ?_, is.2, ?_⟩ is.1 keptAfter
            (offers.of_advances advances)
          · rw [state.client_self, reconnects.client_self]
          · rw [state.client_self]
            dsimp only
            split <;> exact ConnectState.noConfusion
    · cases rest
      exact .kept kept advances

theorem replaceString_short {old result : CharPtr} {new : Option CString}
    (replaced : replaceString old new = some result)
    (short : ∀ string ∈ new, string.bytes.length ≤ 65535) :
    ∀ string, result = .string string → string.bytes.length ≤ 65535 := by
  intro string here
  subst here
  cases new with
  | none => cases old <;> cases replaced
  | some given =>
      have same : given = string := by
        cases old <;> cases replaced <;> rfl
      exact same ▸ short given rfl

theorem applyOptions_short {options : ConnectOptions} {client changed : Clients}
    (short : ShortStrings client) (fits : options.Short)
    (applied : applyOptions options client = some changed) : ShortStrings changed := by
  rcases Option.bind_eq_some_iff.mp applied with ⟨username, replaced, rest⟩
  rcases Option.bind_eq_some_iff.mp rest with ⟨password, replacedPassword, same⟩
  cases same
  exact ⟨short.clientID, replaceString_short replaced fits.1,
    replaceString_short replacedPassword fits.2⟩

theorem beginConnect_writes {options : ConnectOptions} {attempt : Attempt}
    {result : List Event × Bool × ConnectOutcome × Library}
    (consistent : before.writes.Consistent) (unused : Unused before)
    (short : ShortStrings (before.client m)) (fits : options.Short)
    (began : beginConnect m options attempt before = some result) :
    Writes (Opens m before result.2.2.2) before result.2.2.2 := by
  unfold beginConnect at began
  split at began
  · cases began
  · rename_i client applied
    have applies := modifyClient_reconnects (fun _ => client) m before
    have kept : (before.modifyClient m fun _ => client).writes.Consistent := consistent
    dsimp only at began
    split at began
    · cases began
      exact .of_eq consistent rfl
    · split at began
      · cases began
        exact .of_eq consistent rfl
      · split at began
        · rename_i fresh
          rcases Option.map_eq_some_iff.mp began with ⟨⟨events, rc, after⟩, connected, rfl⟩
          have shortened : ShortStrings ((before.modifyClient m fun _ => client).client m) := by
            rw [applies.client_self]
            exact applyOptions_short short fits applied
          have writes := protocolConnect_writes kept unused shortened fresh connected
          have renamed := writes.imp fun other sock frame opens =>
            show Opens m before after other sock frame from
              ⟨opens.here, opens.fresh, opens.owner, opens.isConnect, opens.state⟩
          exact renamed.of_writes rfl rfl rfl
        · cases began

theorem connectStep_writes {choice : Choice} {call : ConnectCall}
    {result : List Event × ConnectOutcome × Library} (consistent : before.writes.Consistent)
    (short : ShortStrings (before.client call.m))
    (stepped : connectStep choice call before = some result) :
    Writes (fun m sock frame => Introduces call result.2.1 before m sock frame ∨
      Serves call.waiting.serves before m sock frame) before result.2.2 := by
  unfold connectStep at stepped
  split at stepped
  · unfold resumeConnect at stepped
    split at stepped
    · rename_i phase
      split at stepped
      · cases stepped
        exact .of_eq consistent rfl
      · rcases Option.map_eq_some_iff.mp stepped with ⟨⟨events, rc, after⟩, sent, same⟩
        have waits := modifyClient_reconnects
          (fun client => { client with connectState := .waitForConnack }) call.m before
        rcases Option.bind_eq_some_iff.mp sent with ⟨block, _, sent⟩
        rcases Option.map_eq_some_iff.mp sent with ⟨⟨code, writes⟩, sending, written⟩
        cases written
        rw [waits.client_self] at sending
        have kept : (before.modifyClient call.m fun client =>
            { client with connectState := .waitForConnack }).writes.Consistent := consistent
        have shortened : ShortStrings
            { before.client call.m with connectState := .waitForConnack } :=
          ⟨short.clientID, short.username, short.password⟩
        rcases sendConnect_sending kept shortened sending with ⟨keptAfter, sends⟩
        dsimp only at same
        split at same
        · cases same
          exact .of_sending sends keptAfter fun frame isConnect =>
            .inl ⟨rfl, phase, rfl, isConnect, fun _ wrong => ConnectOutcome.noConfusion wrong⟩
        · cases same
          refine .of_sending sends keptAfter fun frame isConnect =>
            .inl ⟨rfl, phase, rfl, isConnect, fun next same => ?_⟩
          cases same
          rfl
    · cases stepped
      exact .of_eq consistent rfl
  · rcases Option.map_eq_some_iff.mp stepped with ⟨waited, waits, rfl⟩
    exact (waitforStep_writes consistent waits).imp fun _ _ _ serves => .inr serves

end Connect

section System

/-- The strings and the payload of a call fit into a packet. -/
def Fits (action : Action) (before : System) : Prop :=
  match action with
  | .create clientId => clientId.bytes.length ≤ 65535
  | .publish m call => call.Fits (before.library.client m).mqttVersion
  | .subscribe _ topic _ => topic.bytes.length ≤ 65535
  | .connect _ options _ => options.Short
  | .destroy _ | .setCallbacks _ _ _ | .connectStep _ | .loopStep _ _ => True

instance (before : System) : (action : Action) → Decidable (Fits action before)
  | .create _ => inferInstanceAs (Decidable (_ ≤ _))
  | .publish _ call => inferInstanceAs (Decidable (call.Fits _))
  | .subscribe _ _ _ => inferInstanceAs (Decidable (_ ≤ _))
  | .connect _ options _ => inferInstanceAs (Decidable options.Short)
  | .destroy _ | .setCallbacks _ _ _ | .connectStep _ | .loopStep _ _ => .isTrue trivial

def Greeted (m : Nat) (library : Library) : Prop :=
  0 < (library.client m).socket → library.writes.accepted (library.client m).socket ≠ []

instance (m : Nat) (library : Library) : Decidable (Greeted m library) :=
  inferInstanceAs (Decidable (_ → _))

/-- The application uses a connection, and the peer sends something on it, only when the first
bytes of the CONNECT packet have been written. -/
def Courteous (action : Action) (before : System) : Prop :=
  match action with
  | .publish m _ | .subscribe m _ _ => Greeted m before.library
  | .connectStep _ | .loopStep _ _ => ∀ m ∈ before.library.handles.values,
      served action before = some (before.library.client m).socket →
        (before.library.client m).connectState = .tcpInProgress ∨ Greeted m before.library
  | .create _ | .destroy _ | .setCallbacks _ _ _ | .connect _ _ _ => True

instance (before : System) : (action : Action) → Decidable (Courteous action before)
  | .publish m _ | .subscribe m _ _ => inferInstanceAs (Decidable (Greeted m _))
  | .connectStep _ | .loopStep _ _ => inferInstanceAs (Decidable (∀ _ ∈ _, _ → _ ∨ _))
  | .create _ | .destroy _ | .setCallbacks _ _ _ | .connect _ _ _ => .isTrue trivial

inductive Action.Puts (action : Action) (before after : System) :
    Nat → SOCKET → Frame UInt8 → Prop
  | opens {m : Nat} {sock : SOCKET} {frame : Frame UInt8} (isConnect : frame.IsConnect)
      (fresh : 0 ≤ sock ∧ sock ∉ before.library.descriptors)
      (owner : (after.library.client m).socket = sock)
      (left : ∀ call, after.connecting = some call → call.packetType ≠ MsgType.connect) :
      action.Puts before after m sock frame
  | introduces {call : ConnectCall} {frame : Frame UInt8} (isConnect : frame.IsConnect)
      (here : before.connecting = some call) (phase : call.packetType = MsgType.connect)
      (left : ∀ call, after.connecting = some call → call.packetType ≠ MsgType.connect) :
      action.Puts before after call.m (before.library.client call.m).socket frame
  | uses {m : Nat} {frame : Frame UInt8} (notConnect : ¬frame.IsConnect)
      (member : m ∈ before.library.handles.values)
      (courteous : Courteous action before → 0 < (before.library.client m).socket →
        before.library.writes.accepted (before.library.client m).socket ≠ []) :
      action.Puts before after m (before.library.client m).socket frame

variable {before : System} {action : Action} {result : List Event × System} {m : Nat}
  {sock : SOCKET} {frame : Frame UInt8}

theorem Uses.puts {after : System} (uses : Uses m before.library m sock frame)
    (member : m ∈ before.library.handles.values)
    (greeted : Courteous action before → Greeted m before.library) :
    action.Puts before after m sock frame := by
  rcases uses with ⟨_, rfl, notConnect⟩
  exact .uses notConnect member greeted

theorem Serves.puts {after : System} (registered : Registered before.library)
    (serves : Serves (served action before) before.library m sock frame)
    (courteous : Courteous action before → ∀ reader ∈ before.library.handles.values,
      served action before = some (before.library.client reader).socket →
        (before.library.client reader).connectState = .tcpInProgress ∨
          Greeted reader before.library) :
    action.Puts before after m sock frame := by
  rcases serves with ⟨served, here, ⟨rfl, member, owner, notConnect⟩, reader, known, reads, state⟩
  rw [registered.clients] at member
  rw [← owner]
  refine .uses notConnect member fun polite => ?_
  rw [← reads] at here
  have greeted := (courteous polite reader known here).resolve_left state
  rw [Greeted, reads] at greeted
  rwa [owner]

theorem left_of_conclude {client : Nat} {events : List Event} {outcome : ConnectOutcome}
    {system : System}
    (left : ∀ call, outcome = .waits call → call.packetType ≠ MsgType.connect) :
    ∀ call, (System.conclude client events outcome system).2.connecting = some call →
      call.packetType ≠ MsgType.connect := by
  intro call here
  cases outcome with
  | waits waiting =>
      cases here
      exact left call rfl
  | returns rc => cases here

theorem step_writes (wellFormed : before.WellFormed) (prepared : Prepared before.library)
    (unused : Unused before.library) (short : ∀ m, ShortStrings (before.library.client m))
    (fits : Fits action before) (stepped : step action before = some result) :
    Writes (action.Puts before result.2) before.library result.2.library := by
  have ready {m : Nat} (member : m ∈ before.library.handles.values) :
      before.library.writes.Consistent :=
    prepared (wellFormed.registered.ready member)
  cases action with
  | create clientId =>
      cases stepped
      exact create_writes wellFormed.registered prepared clientId
  | destroy m =>
      rcases Option.ite_none_right_eq_some.mp stepped with ⟨_, stepped⟩
      rcases System.call_eq_some stepped with ⟨member, events, library, called, rfl⟩
      rcases Option.map_eq_some_iff.mp called with ⟨library, destroyed, same⟩
      cases same
      exact destroy_writes (ready member) destroyed
  | setCallbacks m ma dc =>
      rcases System.call_eq_some stepped with ⟨member, events, library, called, rfl⟩
      cases called
      exact setCallbacks_writes (ready member) m ma dc
  | publish m call =>
      rcases System.call_eq_some stepped with ⟨member, events, library, called, rfl⟩
      rcases Option.map_eq_some_iff.mp called with ⟨⟨result, library⟩, published, same⟩
      cases same
      refine (publish5_writes (ready member) fits published).imp fun other sock frame uses => ?_
      cases uses.here
      exact uses.puts member id
  | subscribe m topic qos =>
      rcases System.call_eq_some stepped with ⟨member, events, library, called, rfl⟩
      rcases Option.map_eq_some_iff.mp called with ⟨⟨rc, after⟩, subscribed, same⟩
      rw [Prod.mk.injEq] at same
      rcases same with ⟨rfl, rfl⟩
      refine (subscribe_writes (ready member) fits subscribed).imp fun other sock frame uses => ?_
      cases uses.here
      exact uses.puts member id
  | connect m options attempt =>
      rcases Option.ite_none_right_eq_some.mp stepped with ⟨⟨member, _⟩, stepped⟩
      rcases Option.map_eq_some_iff.mp stepped with ⟨⟨events, starts, outcome, library⟩, began, rfl⟩
      have first := (beginConnect_spec began).first
      have writes := beginConnect_writes (ready member) unused (short m) fits began
      rw [System.conclude_library]
      refine writes.imp fun other sock frame opens => ?_
      rcases opens with ⟨rfl, fresh, owner, isConnect, state⟩
      refine .opens isConnect fresh ?_ (left_of_conclude fun call waits phase => ?_)
      · rw [System.conclude_library]
        exact owner
      subst waits
      rcases first.2.2.2 with ⟨_, inProgress⟩ | ⟨connack, _⟩
      · exact state inProgress
      · exact absurd (phase.symm.trans connack) (by decide)
  | connectStep choice =>
      rcases connectStep_eq_some stepped with
        ⟨call, events, outcome, library, here, connected, rfl⟩
      have member := wellFormed.connecting call here
      have writes := connectStep_writes (ready member) (short call.m) connected
      have serves : served (.connectStep choice) before = call.waiting.serves := by
        rw [served, here]
        rfl
      rw [System.conclude_library]
      refine writes.imp fun other sock frame puts => ?_
      rcases puts with introduces | acknowledges
      · rcases introduces with ⟨rfl, phase, rfl, isConnect, next⟩
        refine .introduces isConnect here phase (left_of_conclude fun call waits phase => ?_)
        exact absurd (phase.symm.trans (next call waits)) (by decide)
      · rw [← serves] at acknowledges
        exact acknowledges.puts wellFormed.registered id
  | loopStep index choice =>
      simp only [step, System.stepLoop] at stepped
      cases found : before.loops[index]? with
      | none =>
          rw [found] at stepped
          cases stepped
      | some loop =>
          rw [found] at stepped
          rcases Option.map_eq_some_iff.mp stepped with ⟨⟨events, next, library⟩, looped, rfl⟩
          have serves : served (.loopStep index choice) before = loop.serves := by
            rw [served, found]
            rfl
          have writes := loopStep_writes wellFormed.registered prepared looped
          rw [← serves] at writes
          exact writes.imp fun other sock frame acknowledges =>
            acknowledges.puts wellFormed.registered id

end System

end MqttClient.MQTTClient
