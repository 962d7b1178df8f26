import MqttClient.MQTTClient.PublishOutcomes
import MqttClient.MQTTClient.References

/-! # Message ids over whole runs

`MQTTProtocol_assignMsgId` in every state that a program reaches. It compares the next id
with the one given out last before it has looked for a message with it, and so never
gives out the same id twice in a row.
-/

namespace MqttClient.MQTTClient

open Foundation LinkedList MQTTPacket MQTTProtocol Socket

/-! ## A client that uses up its ids -/

/-- The QoS 1 publishes with the ids 1 to `k`. -/
def firstIds (k : Nat) : List InFlight := (List.range k).map fun i : Nat => ⟨i + 1, 1, 0⟩

theorem firstIds_succ (k : Nat) : firstIds (k + 1) = firstIds k ++ [⟨k + 1, 1, 0⟩] := by
  rw [firstIds, List.range_succ, List.map_append]
  rfl

theorem mem_firstIds {k : Nat} {publish : InFlight} (member : publish ∈ firstIds k) :
    1 ≤ publish.msgid ∧ publish.msgid ≤ k := by
  rcases List.mem_map.mp member with ⟨i, within, rfl⟩
  rw [List.mem_range] at within
  change 1 ≤ (i : Int) + 1 ∧ (i : Int) + 1 ≤ k
  omega

theorem retire_firstIds (k : Nat) :
    (firstIds (k + 1)).filter (fun publish => ¬(publish.msgid = (k : Int) + 1 ∧ publish.qos = 1)) =
      firstIds k := by
  rw [firstIds_succ, List.filter_append, List.filter_eq_self.mpr, List.filter_eq_nil_iff.mpr,
    List.append_nil]
  · intro publish here
    rw [List.mem_singleton.mp here]
    simp
  · intro publish member
    have range := mem_firstIds member
    exact decide_eq_true fun both => by omega

section Window

variable {client : Clients} {k : Nat}

theorem WindowOf.free_iff {publishes : List InFlight} (holds : WindowOf publishes client)
    (id : Int) : client.Free id ↔
      1 ≤ id ∧ id ≤ 65535 ∧ ∀ publish ∈ publishes, publish.msgid ≠ id := by
  rw [Clients.Free, lookup_eq_none_iff, ← holds.2]
  simp only [List.forall_mem_map]
  exact Iff.rfl

theorem free_firstIds (holds : WindowOf (firstIds k) client) (id : Int) :
    client.Free id ↔ k < id ∧ id ≤ 65535 := by
  rw [holds.free_iff]
  constructor
  · rintro ⟨low, high, unused⟩
    refine ⟨?_, high⟩
    by_contra within
    have member : (⟨(id.toNat - 1 : Nat) + 1, 1, 0⟩ : InFlight) ∈ firstIds k :=
      List.mem_map_of_mem (List.mem_range.mpr (by omega))
    exact unused _ member (by change ((id.toNat - 1 : Nat) : Int) + 1 = id; omega)
  · rintro ⟨low, high⟩
    refine ⟨by omega, high, fun publish member same => ?_⟩
    have range := mem_firstIds member
    omega

theorem assignMsgId_firstIds (holds : WindowOf (firstIds k) client) (last : client.msgID = k)
    (more : k < 65535) : ∃ outboundMsgs,
      outboundMsgs.elements = client.outboundMsgs.elements ∧
      assignMsgId client = some ((k : Int) + 1, client.withOutbound (k + 1) outboundMsgs) := by
  rcases assignMsgId_spec holds.1 with ⟨msgid, outboundMsgs, elements, assigned, free⟩
  have next : client.Free ((k : Int) + 1) := (free_firstIds holds _).mpr (by omega)
  have given : msgid ≠ 0 := by
    intro none
    rw [if_neg (not_not_intro none)] at free
    exact free ⟨k + 1, next, by omega⟩
  rcases assignMsgId_first holds.1 assigned given with ⟨steps, _, place, _, before⟩
  have same : msgid = (k : Int) + 1 := by
    cases steps with
    | zero =>
        rw [last] at place
        omega
    | succ steps =>
        refine absurd ?_ (before 0 (Nat.succ_pos steps))
        rw [last, show ((k : Int) + (0 : Nat)) % 65535 + 1 = k + 1 by omega]
        exact next
  subst same
  rw [if_pos given] at assigned
  exact ⟨outboundMsgs, elements, assigned⟩

end Window

/-- A client that is connected on descriptor 3 and has published `k` times, while a thread
is about to read a PUBACK packet with the id 65535. -/
structure Filling (k : Nat) (system : System) : Prop where
  handles : system.library.handles.values = [0]
  clients : system.library.clients.values = [0]
  initialized : system.library.initialized = true
  loops : system.loops = [.selected 3]
  socket : (system.library.client 0).socket = 3
  version : (system.library.client 0).mqttVersion = 4
  connectState : (system.library.client 0).connectState ≠ .tcpInProgress
  answered : (MQTTPacket.factory 4 3 system.library.reads).1.result =
    .returned tcpsocketComplete (some (.ack ⟨.ofBits MsgType.puback 0 0 0, some 65535, 4⟩))
  window : WindowOf (firstIds k) (system.library.client 0)
  last : (system.library.client 0).msgID = k

theorem sendPublish_sample (msgid : Int) (socket : SOCKET) (state : SocketWrites) :
    ∃ sent, sendPublish (keptPublish ((PublishCall.sample 1).publish msgid 4)) 0 1 0 socket state =
      some sent := by
  have whole : ((PublishCall.sample 1).packet 1 4).isSome = true := by decide
  rcases Option.isSome_iff_exists.mp whole with ⟨packet, whole⟩
  rcases PublishCall.length_packet msgid whole with ⟨same, built, _⟩
  have positive : (PublishCall.sample 1).qos > 0 := by decide
  have sent := sendPublish_packet positive msgid 4 socket state
  rw [built] at sent
  rcases sent with ⟨first, bufs, _, _, sent⟩
  exact ⟨_, sent⟩

theorem Filling.publish {k : Nat} {system : System} (filling : Filling k system)
    (more : k < 65535) : ∃ events after,
      machine.step (.publish 0 (.sample 1)) system = some (events, after) ∧
        Filling (k + 1) after := by
  rcases system with ⟨library, loops, connecting⟩
  rcases assignMsgId_firstIds filling.window filling.last more with
    ⟨outboundMsgs, elements, assigned⟩
  let numbered := library.modifyClient 0 fun _ =>
    (library.client 0).withOutbound (k + 1) outboundMsgs
  have sets : library.SetsClient 0 _ numbered := Library.modifyClient_sets 0 _ library
  have kept := withMessage_sets 0 ((PublishCall.sample 1).publish (k + 1) 4) 1 0 numbered
  have socket : (numbered.client 0).socket = 3 := by
    rw [sets.client_self]
    exact filling.socket
  rcases sendPublish_sample (k + 1) 3 numbered.writes with ⟨sent, sending⟩
  have started : startPublish 0 ((PublishCall.sample 1).publish (k + 1) 4) 1 0 numbered =
      some (sent.1, { withMessage 0 ((PublishCall.sample 1).publish (k + 1) 4) 1 0 numbered with
        writes := sent.2 }) := by
    rw [startPublish_eq (by decide), socket, sending]
    rfl
  have published : publish5 0 (.sample 1) library = some (⟨sent.1, some (k + 1), k + 1⟩,
      { withMessage 0 ((PublishCall.sample 1).publish (k + 1) 4) 1 0 numbered with writes := sent.2 }) := by
    have version : ((library.client 0).withOutbound (k + 1) outboundMsgs).mqttVersion = 4 :=
      filling.version
    rw [publish5, if_pos (by decide), assigned]
    dsimp only
    rw [if_neg (by omega), version]
    exact congrArg (Option.map _) started
  let final :=
    { withMessage 0 ((PublishCall.sample 1).publish (k + 1) 4) 1 0 numbered with writes := sent.2 }
  have client : final.client 0 = (library.client 0).withOutbound (k + 1)
      (outboundMsgs.append (keptMessage ((PublishCall.sample 1).publish (k + 1) 4) 1 0 numbered)) := by
    have here := kept.client_self
    rw [sets.client_self] at here
    exact here
  have window := (publish5_windowOf published filling.window).1
  have obtained : (k : Int) + 1 ≠ 0 := by omega
  rw [if_pos ⟨by decide, obtained⟩] at window
  refine ⟨[.published 0 (.sample 1) ⟨sent.1, some (k + 1), k + 1⟩],
    ⟨final, loops, connecting⟩, ?_, ?_⟩
  · change System.call 0 ⟨library, loops, connecting⟩ _ = _
    rw [System.call, if_pos (by rw [filling.handles]; exact List.mem_cons_self)]
    change Option.map _ (Option.map _ (publish5 0 (.sample 1) library)) = _
    rw [published]
    rfl
  · constructor
    · exact filling.handles
    · exact filling.clients
    · exact filling.initialized
    · exact filling.loops
    · exact client ▸ filling.socket
    · exact client ▸ filling.version
    · exact client ▸ filling.connectState
    · exact filling.answered
    · rw [firstIds_succ]
      exact window
    · exact client ▸ rfl

theorem Filling.cycleReady {k : Nat} {system : System} (filling : Filling (k + 1) system)
    (last : (k : Int) + 1 = 65535) (counts : Exact system.library) : ∃ events final,
      MQTTClient.cycleReady 3 system.library = some (events, none, tcpsocketComplete, final) ∧
        WindowOf (firstIds k) (final.client 0) ∧ (final.client 0).msgID = 65535 := by
  rcases system with ⟨library, loops, connecting⟩
  have member : 0 ∈ library.handles.values := by simp [filling.handles]
  rcases Library.exists_findHandle member filling.socket with ⟨m, searched, found⟩
  rcases Library.findHandle_eq found with ⟨owns, keeps⟩
  have first : m = 0 := by
    have member := (owns m rfl).1
    rwa [filling.handles, List.mem_singleton] at member
  subst first
  have client := keeps.client 0
  generalize call : MQTTPacket.factory 4 3 library.reads = called
  rcases called with ⟨call, reads⟩
  have answered := filling.answered
  rw [call] at answered
  let received : Library := { searched with reads := reads }
  have received_client : received.client 0 = library.client 0 := client
  have clients : received.clients.values = [0] := by
    rw [← filling.clients, ← keeps.clients]
  have kept : library.KeepsPublications received := ⟨keeps.publications, keeps.pendingWrites⟩
  have exact : Exact received := counts.of_offline kept keeps.clients keeps.keepsMessages.offline
  have client_member : 0 ∈ received.clients.values := by simp [clients]
  rcases exact.handlePubacks client_member 65535 with ⟨owner, final, handled⟩
  rw [received_client, filling.socket] at handled
  rcases handlePubacks_spec handled with ⟨member, _, outboundMsgs, sets, values⟩
  rw [clients, List.mem_singleton] at member
  subst member
  rw [received_client] at sets values
  have cycled : ∃ events, MQTTClient.cycleReady 3 library =
      some (events, none, tcpsocketComplete, final) := by
    have waits : ¬(searched.client 0).connectState = .tcpInProgress := by
      rw [client]
      exact filling.connectState
    rw [MQTTClient.cycleReady, found]
    dsimp only
    rw [if_neg waits, client, filling.version, filling.socket, Library.reads_findHandle found, call]
    dsimp only
    rw [answered]
    dsimp only
    rw [handlePacket, if_neg (by decide), if_pos (by decide)]
    dsimp only
    rw [handled]
    exact ⟨_, rfl⟩
  rcases cycled with ⟨events, cycled⟩
  refine ⟨events, final, cycled, ?_, ?_⟩
  · have retired := filling.window.retire (values filling.window.1.distinct)
    rw [← last, retire_firstIds] at retired
    rw [sets.client_self]
    exact retired
  · rw [sets.client_self]
    exact filling.last.trans (by exact_mod_cast last)

theorem Filling.acknowledged {k : Nat} {system : System} (filling : Filling (k + 1) system)
    (last : (k : Int) + 1 = 65535) (counts : Exact system.library) : ∃ events after,
      machine.step (.loopStep 0 {}) system = some (events, after) ∧
        WindowOf (firstIds k) (after.library.client 0) ∧
        (after.library.client 0).msgID = 65535 := by
  rcases filling.cycleReady last counts with ⟨events, final, cycled, window, msgID⟩
  refine ⟨events, ⟨final, [.cycled 3 none], system.connecting⟩, ?_, window, msgID⟩
  change System.stepLoop 0 {} system = _
  have dangles : ¬(LoopState.selected 3).Dangles system.library := by
    intro missing
    change system.library.initialized = false at missing
    rw [filling.initialized] at missing
    cases missing
  rw [System.stepLoop, filling.loops]
  dsimp only [List.getElem?_cons_zero]
  rw [loopStep, if_neg dangles, loopBody, cycled]
  rfl

/-! ## The allocation of ids -/

/-- In every state that a program reaches, `MQTTProtocol_assignMsgId` returns, with the
first free id if there is one, if and only if the id given out last is not the only free
one. -/
theorem assignMsgId_allocates {actions : List Action} {events : List Event} {final : System}
    {inbound : SOCKET → RecvSource UInt8} {outbound : SOCKET → List WritevEvent}
    (ran : machine.run actions (.start inbound outbound) = some (events, final)) (m : Nat) :
    Allocates (final.library.client m) ↔
      (final.library.client m).IdAvailable ∨ ∀ id, ¬(final.library.client m).Free id :=
  allocates_iff ((windowed_of_run ran).1 m).1

/-- Behind one publish the next id can be given out. -/
theorem assignMsgId_allocates_two : ∃ events final,
    machine.run (oneClient ++ [publishOne]) (.receiving []) = some (events, final) ∧
      (final.library.client 0).msgID = 1 ∧ Allocates (final.library.client 0) := by
  have observed : (machine.run (oneClient ++ [publishOne]) (.receiving [])).map
      (fun reached => ((reached.2.library.client 0).msgID,
        (reached.2.library.client 0).outboundMsgs.lookup Messages.msgid 2)) =
          some (1, none) := by
    decide +kernel
  rcases Option.map_eq_some_iff.mp observed with ⟨⟨events, final⟩, ran, both⟩
  rw [Prod.mk.injEq] at both
  have free : (final.library.client 0).Free 2 := ⟨by decide, by decide, both.2⟩
  refine ⟨events, final, ran, both.1, (assignMsgId_allocates ran 0).mpr (.inl ⟨2, free, ?_⟩)⟩
  rw [both.1]
  decide

def aboutToRead : List Action :=
  oneClient ++ oneRound ++ List.replicate 4 (.connectStep {}) ++ [.loopStep 0 .ready]

/-- The CONNACK packet and a PUBACK packet with the id 65535 are received, and every write
is accepted. -/
def System.accepting : System :=
  .start (fun sock => if sock = 3 then [.data [0x20, 2, 0, 0, 0x40, 2, 0xFF, 0xFF]] else [])
    fun _ => List.replicate 65536 (.accept 1000)

def LoopState.reading : LoopState → Option SOCKET
  | .selected sock => some sock
  | _ => none

theorem LoopState.eq_of_reading {loop : LoopState} {sock : SOCKET}
    (reads : loop.reading = some sock) : loop = .selected sock := by
  cases loop <;> cases reads
  rfl

theorem filling_zero : ∃ events system,
    machine.run aboutToRead .accepting = some (events, system) ∧ Filling 0 system := by
  have observed : (machine.run aboutToRead .accepting).map (fun reached =>
      let library := reached.2.library
      let client := library.client 0
      decide (library.handles.values = [0] ∧ library.clients.values = [0] ∧
        library.initialized = true ∧ reached.2.loops.map LoopState.reading = [some 3] ∧
        client.socket = 3 ∧ client.mqttVersion = 4 ∧ client.connectState ≠ .tcpInProgress ∧
        (MQTTPacket.factory 4 3 library.reads).1.result = .returned tcpsocketComplete
          (some (.ack ⟨.ofBits MsgType.puback 0 0 0, some 65535, 4⟩)) ∧
        client.outboundMsgs.values.isEmpty = true ∧ client.msgID = 0)) = some true := by
    decide +kernel
  rcases Option.map_eq_some_iff.mp observed with ⟨⟨events, system⟩, ran, seen⟩
  rcases of_decide_eq_true seen with ⟨handles, clients, initialized, loops, socket, version,
    connectState, answered, outboundMsgs, msgID⟩
  have numbered := ((windowed_of_run ran).1 0).1
  refine ⟨events, system, ran, ⟨handles, clients, initialized, ?_, socket, version, connectState,
    answered, ⟨numbered, ?_⟩, msgID⟩⟩
  · rcases List.map_eq_singleton_iff.mp loops with ⟨loop, same, reads⟩
    rw [same, LoopState.eq_of_reading reads]
  · rw [List.isEmpty_iff.mp outboundMsgs]
    rfl

/-- A client is connected, publishes 65535 messages, and reads the PUBACK packet for the
last of them. -/
def allButLast : List Action :=
  aboutToRead ++ List.replicate 65535 (.publish 0 (.sample 1)) ++ [.loopStep 0 {}]

/-- All ids but the last one are in use. It is free, and 0 is returned. -/
theorem assignMsgId_misses_last : ∃ events final,
    machine.run allButLast .accepting = some (events, final) ∧
      (final.library.client 0).msgID = 65535 ∧ (final.library.client 0).Free 65535 ∧
      (∃ after, assignMsgId (final.library.client 0) = some (0, after)) ∧
      ¬Allocates (final.library.client 0) := by
  rcases filling_zero with ⟨connected, start, ran, filling⟩
  rcases Machine.exists_run_replicate Filling
    (fun _ _ more filling => filling.publish more) filling 65535 (Nat.zero_add 65535).le with
    ⟨published, full, publishing, filling⟩
  have ran := Machine.run_append ran publishing
  rcases Filling.acknowledged (k := 65534) filling (by norm_num) (exact_of_run ran) with
    ⟨read, final, stepped, window, msgID⟩
  have once : machine.run [.loopStep 0 {}] full = some (read, final) := by
    rw [Machine.run, stepped]
    exact congrArg (fun events => some (events, final)) (List.append_nil read)
  have free : (final.library.client 0).Free 65535 := (free_firstIds window _).mpr (by omega)
  have unavailable : ¬(final.library.client 0).IdAvailable := by
    rintro ⟨id, other, different⟩
    have range := (free_firstIds window id).mp other
    omega
  refine ⟨_, final, Machine.run_append ran once, msgID, free, ?_, ?_⟩
  · rcases assignMsgId_spec window.1 with ⟨msgid, _, _, assigned, given⟩
    by_cases none : msgid = 0
    · exact ⟨_, none ▸ assigned⟩
    · rw [if_pos none] at given
      exact absurd ⟨msgid, given⟩ unavailable
  · rw [allocates_iff window.1]
    rintro (available | allUsed)
    · exact unavailable available
    · exact allUsed 65535 free

end MqttClient.MQTTClient
