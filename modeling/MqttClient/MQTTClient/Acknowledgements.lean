import MqttClient.MQTTClient.Connections

/-! # Acknowledging PUBLISH packets

What `MQTTProtocol_handlePublishes` does about the acknowledgement of a packet of QoS 1
or 2, and what becomes of the acknowledgements that it queues.
-/

namespace MqttClient.MQTTClient

open Foundation LinkedList MQTTPacket MQTTProtocol Socket

def ackType (publish : Publish) : Nat :=
  if publish.header.qos = 1 then MsgType.puback else MsgType.pubrec

def ackFrame (publish : Publish) : List UInt8 :=
  UInt8.ofNat (16 * ackType publish) :: 2 :: writeInt publish.msgId

/-- A PUBLISH packet is acknowledged once: its acknowledgement has been written to the
socket; or output was pending on the socket, and the acknowledgement has been put into the
client's `outboundQueue`. -/
def Acknowledged (publish : Publish) (sock : SOCKET) (before after : Library) : Prop :=
  ∃ client ∈ before.clients.values, (before.client client).socket = sock ∧
    let outboundQueue := (before.client client).outboundQueue.values
    ((after.client client).outboundQueue.values = outboundQueue ∧
        after.writes.accepted = Function.update before.writes.accepted sock
          (before.writes.accepted sock ++ ackFrame publish) ∨
      ¬Idle sock before.writes ∧ after.writes.accepted = before.writes.accepted ∧
        (after.client client).outboundQueue.values =
          outboundQueue ++ [⟨publish.msgId, ackType publish⟩])

section Send

variable {state after : SocketWrites} {socket : SOCKET}

theorem accepted_of_sendPuback {msgid : Int}
    (sent : sendPuback msgid socket state = (tcpsocketComplete, after)) :
    after.accepted = Function.update state.accepted socket
      (state.accepted socket ++ (0x40 :: 2 :: writeInt msgid)) := by
  have written := accepts_of_putdatas (List.cons_ne_nil _ _) (congrArg Prod.fst sent)
  rcases putdatas_of_accepts written.1 written.2 with ⟨final, complete, accepted⟩
  have same : final = after := (congrArg Prod.snd complete).symm.trans (congrArg Prod.snd sent)
  have frame : (buf0 (.ofBits MsgType.puback 0 0 0) (writeInt msgid).length ::
      [writeInt msgid]).flatten = 0x40 :: 2 :: writeInt msgid := by
    have head : buf0 (.ofBits MsgType.puback 0 0 0) 2 = [0x40, 2] := by decide +kernel
    change buf0 (.ofBits MsgType.puback 0 0 0) 2 ++ (writeInt msgid ++ []) = _
    rw [head, List.append_nil]
    rfl
  rw [← same, accepted]
  exact congrArg (fun packet => Function.update state.accepted socket
    (state.accepted socket ++ packet)) frame

end Send

section Found

variable {publish : Publish} {sock : SOCKET} {client : Nat} {rc : Int} {before after : Library}

theorem storeInbound_keeps (stored : storeInbound publish client before = some after) :
    after.writes = before.writes ∧
      (after.client client).outboundQueue = (before.client client).outboundQueue := by
  rcases storeInbound_spec stored with ⟨inboundMsgs, sets⟩
  refine ⟨?_, by rw [sets.client_self]; rfl⟩
  unfold storeInbound at stored
  dsimp only at stored
  split at stored
  · rcases Option.map_eq_some_iff.mp stored with ⟨_, _, rfl⟩
    rfl
  · cases stored
    rfl

theorem handleFound_qos1_idle (qos1 : publish.header.qos = 1)
    (owner : (before.client client).socket = sock) (idle : Idle sock before.writes)
    (handled : handleFound publish sock client before = some (tcpsocketComplete, after)) :
    (after.client client).outboundQueue = (before.client client).outboundQueue ∧
      after.writes.accepted = Function.update before.writes.accepted sock
        (before.writes.accepted sock ++ ackFrame publish) := by
  have processed := processPublication_sets publish client
    { before with writes := (noPendingWrites sock before.writes).2 }
  unfold Idle at idle
  rw [handleFound, if_neg (by omega)] at handled
  dsimp only at handled
  rw [if_pos qos1, idle, Bool.not_true, if_neg Bool.false_ne_true, processed.client_self] at handled
  generalize sent : sendPuback _ _ _ = result at handled
  rcases result with ⟨rc, writes⟩
  cases handled
  change sendPuback publish.msgId (before.client client).socket
    (noPendingWrites sock before.writes).2 = _ at sent
  rw [owner] at sent
  have outboundQueue := congrArg Clients.outboundQueue processed.client_self
  refine ⟨outboundQueue, ?_⟩
  rw [ackFrame, ackType, if_pos qos1]
  have accepted := accepted_of_sendPuback sent
  exact accepted

theorem handleFound_pending (qos12 : publish.header.qos = 1 ∨ publish.header.qos = 2)
    (pending : ¬Idle sock before.writes)
    (handled : handleFound publish sock client before = some (rc, after)) :
    after.writes.accepted = before.writes.accepted ∧
      (after.client client).outboundQueue.values =
        (before.client client).outboundQueue.values ++ [⟨publish.msgId, ackType publish⟩] := by
  unfold Idle at pending
  rw [Bool.not_eq_true] at pending
  rw [handleFound, if_neg (by omega)] at handled
  dsimp only at handled
  rcases qos12 with qos1 | qos2
  · rw [if_pos qos1, pending, Bool.not_false, if_pos rfl] at handled
    cases handled
    refine ⟨rfl, ?_⟩
    rw [(queueAck_sets ..).client_self, (processPublication_sets ..).client_self, ackType,
      if_pos qos1]
    exact values_append ..
  · rw [if_neg (by omega), if_pos qos2] at handled
    rcases Option.map_eq_some_iff.mp handled with ⟨library, storing, same⟩
    rcases storeInbound_keeps storing with ⟨writes, outboundQueue⟩
    rw [pending, Bool.not_false, if_pos rfl] at same
    cases same
    have accepted := congrArg SocketWrites.accepted writes
    refine ⟨accepted, ?_⟩
    rw [(queueAck_sets ..).client_self, ackType, if_neg (by omega)]
    change ((library.client client).outboundQueue.append _).values = _
    rw [values_append, outboundQueue]
    rfl

theorem handleFound_qos2_idle (qos2 : publish.header.qos = 2) (idle : Idle sock before.writes)
    (handled : handleFound publish sock client before = some (rc, after)) :
    after.writes.accepted = before.writes.accepted := by
  unfold Idle at idle
  rw [handleFound, if_neg (by omega)] at handled
  dsimp only at handled
  rw [if_neg (by omega), if_pos qos2] at handled
  rcases Option.map_eq_some_iff.mp handled with ⟨library, storing, same⟩
  rw [idle, Bool.not_true, if_neg Bool.false_ne_true] at same
  cases same
  have accepted := congrArg SocketWrites.accepted (storeInbound_keeps storing).1
  exact accepted

theorem not_acknowledged_qos2 (qos2 : publish.header.qos = 2) (idle : Idle sock before.writes)
    (handled : handlePublishes publish sock before = some (rc, after)) :
    ¬Acknowledged publish sock before after := by
  unfold handlePublishes at handled
  split at handled
  · cases handled
  · rename_i client library found
    have writes := Library.writes_findClient found
    have unwritten := handleFound_qos2_idle qos2 (writes ▸ idle) handled
    rw [writes] at unwritten
    rintro ⟨other, _, _, ⟨_, accepted⟩ | ⟨pending, _⟩⟩
    · have here := congrFun accepted sock
      rw [unwritten, Function.update_self] at here
      have length := congrArg List.length here
      rw [List.length_append, ackFrame, List.length_cons] at length
      omega
    · exact pending idle

end Found

/-- A PUBLISH packet of QoS 1 or 2 that is handled with success is acknowledged, exactly if
its QoS is 1 or output is pending on the socket. -/
theorem acknowledged_iff {publish : Publish} {sock : SOCKET} {before after : Library}
    (qos12 : publish.header.qos = 1 ∨ publish.header.qos = 2)
    (handled : handlePublishes publish sock before = some (tcpsocketComplete, after)) :
    Acknowledged publish sock before after ↔
      publish.header.qos = 1 ∨ ¬Idle sock before.writes := by
  constructor
  · intro acknowledged
    by_contra neither
    rw [not_or, not_not] at neither
    exact not_acknowledged_qos2 (by omega) neither.2 handled acknowledged
  · intro condition
    unfold handlePublishes at handled
    split at handled
    · cases handled
    · rename_i client library found
      rcases Library.findClient_eq_some found with ⟨member, owner, keeps⟩
      have writes := Library.writes_findClient found
      have ownerAfter : (library.client client).socket = sock := by rw [keeps.client, owner]
      refine ⟨client, member, owner, ?_⟩
      by_cases idle : Idle sock before.writes
      · have qos1 := condition.resolve_right (fun pending => pending idle)
        rcases handleFound_qos1_idle qos1 ownerAfter (writes ▸ idle) handled with
          ⟨outboundQueue, accepted⟩
        rw [writes] at accepted
        refine .inl ⟨?_, accepted⟩
        rw [outboundQueue, keeps.client]
      · rcases handleFound_pending qos12 (writes ▸ idle) handled with ⟨accepted, outboundQueue⟩
        rw [writes] at accepted
        rw [keeps.client] at outboundQueue
        exact .inr ⟨idle, accepted, outboundQueue⟩

def oneConnected : Option Library :=
  (machine.run oneClient (.receiving [])).map fun reached => reached.2.library

/-- A PUBLISH packet with the topic `a`, the message id 7 and a header byte. -/
def publishSeven (header : UInt8) : Publish := ⟨⟨header⟩, [0x61, 0], 1, 7, [], 0, 4, .zero⟩

theorem acknowledged_iff_qos1 : ∃ before after, oneConnected = some before ∧
    handlePublishes (publishSeven 0x32) 3 before = some (tcpsocketComplete, after) ∧
    Acknowledged (publishSeven 0x32) 3 before after := by
  have observed : (oneConnected.bind fun before =>
      (handlePublishes (publishSeven 0x32) 3 before).map Prod.fst) = some tcpsocketComplete := by
    decide +kernel
  rcases Option.bind_eq_some_iff.mp observed with ⟨before, connected, observed⟩
  rcases Option.map_eq_some_iff.mp observed with ⟨⟨rc, after⟩, handled, rfl⟩
  exact ⟨before, after, connected, handled,
    (acknowledged_iff (.inl (by decide)) handled).mpr (.inl (by decide))⟩

/-- A PUBLISH packet of QoS 2 on a socket without pending output. -/
theorem not_acknowledged_seven : ∃ before after, oneConnected = some before ∧
    handlePublishes (publishSeven 0x34) 3 before = some (tcpsocketComplete, after) ∧
    ¬Acknowledged (publishSeven 0x34) 3 before after := by
  have observed : (oneConnected.bind fun before =>
      (handlePublishes (publishSeven 0x34) 3 before).map fun handled =>
        (handled.1, (noPendingWrites 3 before.writes).1)) = some (tcpsocketComplete, true) := by
    decide +kernel
  rcases Option.bind_eq_some_iff.mp observed with ⟨before, connected, observed⟩
  rcases Option.map_eq_some_iff.mp observed with ⟨⟨rc, after⟩, handled, same⟩
  rcases Prod.mk.inj same with ⟨rfl, idle⟩
  exact ⟨before, after, connected, handled,
    not_acknowledged_qos2 (by decide) idle handled⟩

/-! ## Queued acknowledgements -/

def Answerable (before : Library) : Event → Prop
  | .received _ sock (.publish publish) =>
      publish.header.qos = 1 ∨ publish.header.qos = 2 → Idle sock before.writes
  | _ => True

instance (before : Library) : (event : Event) → Decidable (Answerable before event)
  | .received _ _ (.publish _) => inferInstanceAs (Decidable (_ → Idle _ _))
  | .received _ _ (.connack _) | .received _ _ (.ack _) | .received _ _ (.suback _)
  | .published _ _ _ | .reads _ _ | .puback _ _ _ | .deliveryComplete _ _
  | .messageArrived _ _ _ _ | .connectCalled _ _ | .opened _ | .connectSent _ _
  | .connectReturned _ _ => .isTrue trivial

/-- Every PUBLISH packet that a step receives can be answered at once. -/
def PublishesAnswerable (action : Action) (before : System) : Prop :=
  ∀ result ∈ step action before, ∀ event ∈ result.1, Answerable before.library event

instance (action : Action) (before : System) : Decidable (PublishesAnswerable action before) :=
  inferInstanceAs (Decidable (∀ result ∈ step action before, ∀ event ∈ result.1, _))

section Unqueued

variable {publish : Publish} {sock : SOCKET} {client : Nat} {rc : Int} {before after : Library}
  {events : List Event}

theorem handleFound_unqueued
    (answerable : publish.header.qos = 1 ∨ publish.header.qos = 2 → Idle sock before.writes)
    (handled : handleFound publish sock client before = some (rc, after)) :
    (after.client client).outboundQueue = (before.client client).outboundQueue := by
  have processed := processPublication_sets publish client
  unfold Idle at answerable
  rw [handleFound] at handled
  by_cases qos0 : publish.header.qos = 0
  · rw [if_pos qos0] at handled
    cases handled
    rw [(processed before).client_self]
    rfl
  · rw [if_neg qos0] at handled
    dsimp only at handled
    by_cases qos1 : publish.header.qos = 1
    · rw [if_pos qos1, answerable (.inl qos1), Bool.not_true, if_neg Bool.false_ne_true] at handled
      cases handled
      have queue := congrArg Clients.outboundQueue
        (processed { before with writes := (noPendingWrites sock before.writes).2 }).client_self
      exact queue
    · rw [if_neg qos1] at handled
      by_cases qos2 : publish.header.qos = 2
      · rw [if_pos qos2] at handled
        rcases Option.map_eq_some_iff.mp handled with ⟨library, storing, same⟩
        rw [answerable (.inr qos2), Bool.not_true, if_neg Bool.false_ne_true] at same
        cases same
        exact (storeInbound_keeps storing).2
      · rw [if_neg qos2] at handled
        cases handled
        rfl

theorem handlePublishes_unqueued
    (answerable : publish.header.qos = 1 ∨ publish.header.qos = 2 → Idle sock before.writes)
    (handled : handlePublishes publish sock before = some (rc, after)) (m : Nat) :
    (after.client m).outboundQueue = (before.client m).outboundQueue := by
  unfold handlePublishes at handled
  split at handled
  · cases handled
  · rename_i client library found
    rcases Library.findClient_eq_some found with ⟨_, _, keeps⟩
    have writes := Library.writes_findClient found
    rcases handleFound_spec handled with ⟨inboundMsgs, outboundQueue, sets⟩
    rw [← keeps.client m]
    by_cases here : m = client
    · rw [here]
      exact handleFound_unqueued (writes ▸ answerable) handled
    · rw [sets.client_of_ne here]

def AllAcknowledged (library : Library) : Prop :=
  ∀ m, (library.client m).outboundQueue.values = []

theorem AllAcknowledged.of_sets {object : MQTTClients} (acknowledged : AllAcknowledged before)
    (sets : before.Sets client object after)
    (same : object.c.outboundQueue = (before.client client).outboundQueue) :
    AllAcknowledged after := by
  intro m
  have stable := sets.stable (fun object => object.c.outboundQueue) same m
  exact (congrArg values stable).trans (acknowledged m)

theorem AllAcknowledged.of_offline (acknowledged : AllAcknowledged before)
    (offline : ∀ m, (after.client m).offline = (before.client m).offline) :
    AllAcknowledged after := by
  intro m
  have same := congrArg Clients.outboundQueue (offline m)
  exact (congrArg values same).trans (acknowledged m)

theorem Changed.allAcknowledged (changed : Changed before events after)
    (registered : Registered before) (answerable : ∀ event ∈ events, Answerable before event)
    (acknowledged : AllAcknowledged before) : AllAcknowledged after := by
  cases changed with
  | created =>
      intro m
      rw [Library.client, (create_spec registered _).objects]
      by_cases here : m = before.created
      · rw [here, Function.update_self]
        rfl
      · rw [Function.update_of_ne here]
        exact acknowledged m
  | published member published =>
      rcases publish5_sets published with ⟨_, _, sets⟩
      exact acknowledged.of_sets sets rfl
  | cycled spec =>
      cases spec with
      | nothing reads searched => exact acknowledged.of_offline searched.keepsMessages.offline
      | returned member owner typed notPublish searched =>
          exact acknowledged.of_offline searched.keepsMessages.offline
      | publish member owner searched writes handled clientMember clientOwner sets =>
          have here := answerable (.received _ _ (.publish _))
            (List.mem_cons_of_mem _ List.mem_cons_self)
          intro m
          rw [handlePublishes_unqueued (writes.symm ▸ here) handled m, searched.client]
          exact acknowledged m
      | puback member owner id searched handled clientMember clientOwner sets values =>
          exact acknowledged.of_sets sets rfl
  | delivered member publications delivered keeps =>
      exact (acknowledged.of_sets delivered rfl).of_offline keeps.offline
  | kept silent keeps => exact acknowledged.of_offline keeps.offline

theorem Stepped.allAcknowledged {before : System} {action : Action}
    {result : List Event × System} (stepped : Stepped before action result)
    (wellFormed : before.WellFormed)
    (answerable : ∀ event ∈ result.1, Answerable before.library event)
    (acknowledged : AllAcknowledged before.library) : AllAcknowledged result.2.library := by
  rcases stepped.changed wellFormed.numbered with
    ⟨m, library, member, idle, destroyed, _, rfl⟩ | changed
  · have objects := (destroy_spec wellFormed.registered destroyed).objects
    intro m
    rw [Library.client, objects]
    exact acknowledged m
  · exact changed.allAcknowledged wellFormed.registered answerable acknowledged

end Unqueued

/-- In every run in which a PUBLISH packet of QoS 1 or 2 only comes in while no output is
pending on its socket, no client ever has an acknowledgement in its queue. -/
theorem outboundQueue_empty {actions : List Action} {events : List Event} {final : System}
    {inbound : SOCKET → RecvSource UInt8} {outbound : SOCKET → List WritevEvent}
    (along : machine.Along PublishesAnswerable actions (.start inbound outbound))
    (ran : machine.run actions (.start inbound outbound) = some (events, final)) (m : Nat) :
    (final.library.client m).outboundQueue.values = [] :=
  (run_invariant (fun _ system => AllAcknowledged system.library)
    (fun wellFormed acknowledged answerable stepped =>
      (step_spec stepped).allAcknowledged wellFormed (answerable _ stepped) acknowledged)
    (System.start_wellFormed inbound outbound) (fun _ => rfl) along ran).1 m

/-- The PUBLISH packet `publishSeven 0x32`, received on descriptor 3 where a write may take
all or one byte. -/
def System.receivingSeven : System :=
  .start (fun sock => if sock = 3 then [.data [0x32, 5, 0, 1, 0x61, 0, 7]] else [])
    fun _ => [.accept 1000, .accept 1, .accept 1000]

def oneDelivered : List Action :=
  [.loopStep 0 .ready, .loopStep 0 {}, .loopStep 0 {}, .loopStep 0 {}]

theorem outboundQueue_empty_seven : ∃ events final,
    machine.run (oneClient ++ oneDelivered) .receivingSeven = some (events, final) ∧
      (final.library.client 0).outboundQueue.values = [] := by
  have observed : (machine.run (oneClient ++ oneDelivered) .receivingSeven).isSome = true := by
    decide +kernel
  rcases Option.isSome_iff_exists.mp observed with ⟨⟨events, final⟩, ran⟩
  exact ⟨events, final, ran, outboundQueue_empty (by decide +kernel) ran 0⟩

/-- A thread is in front of `MQTTClient_cycle`. -/
def LoopState.isReady : LoopState → Bool
  | .ready => true
  | _ => false

/-- A thread in `MQTTClient_run` goes through a round in which nothing is pending on a
socket. -/
structure QuietRound (sock : SOCKET) (index : Nat) (actions : List Action) (before after : System) :
    Prop where
  ran : (machine.run actions before).map Prod.snd = some after
  starts : before.loops[index]?.map LoopState.isReady = some true
  steps : ∃ choice, .loopStep index choice ∈ actions
  ends : after.loops[index]?.map LoopState.isReady = some true
  quiet : machine.Along (fun _ state => Idle sock state.library.writes) actions before
  idle : Idle sock after.library.writes

/-- A publish leaves output pending behind `Socket_getReadySocket`, and the packet is
handled; the next round writes what is pending. -/
def publishedBetween : List Action :=
  oneClient ++ [.loopStep 0 .ready, publishOne, .loopStep 0 {}, .loopStep 0 {}, .loopStep 0 {},
    .loopStep 0 .ready, .loopStep 0 {}, .loopStep 0 {}]

/-- Behind another round the acknowledgement is still in the queue. -/
theorem outboundQueue_kept : ∃ events middle final,
    machine.run publishedBetween .receivingSeven = some (events, middle) ∧
      (final.library.client 0).socket = 3 ∧ QuietRound 3 0 oneRound middle final ∧
      (final.library.client 0).outboundQueue.values = [⟨7, MsgType.puback⟩] := by
  have observed : ((machine.run publishedBetween .receivingSeven).bind fun reached =>
      (machine.run oneRound reached.2).map fun later =>
        decide ((later.2.library.client 0).socket = 3 ∧
          reached.2.loops[0]?.map LoopState.isReady = some true ∧
          later.2.loops[0]?.map LoopState.isReady = some true ∧
          machine.Along (fun _ state => Idle 3 state.library.writes) oneRound reached.2 ∧
          Idle 3 later.2.library.writes ∧
          (later.2.library.client 0).outboundQueue.values = [⟨7, MsgType.puback⟩])) =
      some true := by
    decide +kernel
  rcases Option.bind_eq_some_iff.mp observed with ⟨⟨events, middle⟩, ran, observed⟩
  rcases Option.map_eq_some_iff.mp observed with ⟨⟨more, final⟩, rest, same⟩
  rcases of_decide_eq_true same with ⟨socket, starts, ends, quiet, idle, queued⟩
  exact ⟨events, middle, final, ran, socket,
    ⟨by rw [rest]; rfl, starts, ⟨_, List.mem_cons_self⟩, ends, quiet, idle⟩, queued⟩

end MqttClient.MQTTClient
