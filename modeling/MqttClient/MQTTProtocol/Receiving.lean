import MqttClient.MQTTProtocol.Publishing

/-! # `MQTTProtocol`: received packets

The functions of `MQTTProtocol.c` that handle a PUBLISH and a PUBACK packet. The
payload of a packet lies in the read buffer and is copied out of it before the
buffer is used again.
-/

namespace MqttClient.MQTTProtocol

open LinkedList

/-- What `Protocol_processPublication` queues for the application. -/
def queueEntry (publish : Publish) : QEntry where
  msg :=
    { payload := publish.payload
      payloadlen := publish.payloadlen
      qos := publish.header.qos
      retained := publish.header.retain
      dup := if publish.header.qos = 2 then 0 else publish.header.dup
      msgid := publish.msgId
      properties := if publish.mqttVersion ≥ 5 then publish.properties.copy else .zero }
  topicName := publish.topic
  topicLen := publish.topiclen

def processPublication (publish : Publish) (client : Nat) (library : Library) : Library :=
  library.modifyClient client fun client =>
    { client with messageQueue := client.messageQueue.append (queueEntry publish) }

def queueAck (client : Nat) (ackType : Nat) (msgId : Int) (library : Library) : Library :=
  library.modifyClient client fun client =>
    { client with outboundQueue := client.outboundQueue.append ⟨msgId, ackType⟩ }

def storeInbound (publish : Publish) (client : Nat) (library : Library) : Option Library :=
  let (p, publications) := storePublication publish library.publications
  let m : Messages := ⟨p, publish.msgId, publish.header.qos, publish.header.retain,
    publish.mqttVersion, .zero⟩
  match (library.client client).inboundMsgs.findItem (hasKey Messages.msgid m.msgid) with
  | (some listElem, inboundMsgs) =>
      (removePublication listElem.value.publish publications).map fun publications =>
        let inboundMsgs := inboundMsgs.insertBefore m listElem.content
        { library with publications := publications }.modifyClient client fun client =>
          { client with inboundMsgs := (inboundMsgs.remove listElem.content).2 }
  | (none, inboundMsgs) =>
      some <| { library with publications := publications }.modifyClient client fun client =>
        { client with inboundMsgs := inboundMsgs.append m }

/-- `MQTTProtocol_handlePublishes` once it has found the client. -/
def handleFound (publish : Publish) (sock : SOCKET) (client : Nat) (library : Library) :
    Option (Int × Library) :=
  if publish.header.qos = 0 then
    some (tcpsocketComplete, processPublication publish client library)
  else
    let (noPending, writes) := Socket.noPendingWrites sock library.writes
    let library := { library with writes := writes }
    if publish.header.qos = 1 then
      let library := processPublication publish client library
      if !noPending then some (0, queueAck client MsgType.puback publish.msgId library)
      else
        let (rc, writes) :=
          MQTTPacket.sendPuback publish.msgId (library.client client).socket library.writes
        some (rc, { library with writes := writes })
    else if publish.header.qos = 2 then
      (storeInbound publish client library).map fun library =>
        if !noPending then (0, queueAck client MsgType.pubrec publish.msgId library)
        else (tcpsocketComplete, library)
    else some (tcpsocketComplete, library)

def handlePublishes (publish : Publish) (sock : SOCKET) (library : Library) :
    Option (Int × Library) :=
  match library.findClient sock with
  | none => none
  | some (client, library) => handleFound publish sock client library

/-- `MQTTProtocol_handlePubacks` once it has found the client. -/
def acknowledge (msgId : Int) (client : Nat) (library : Library) : Option Library :=
  let (found, outboundMsgs) :=
    (library.client client).outboundMsgs.findItem (hasKey Messages.msgid msgId)
  let library := library.modifyClient client fun client =>
    { client with outboundMsgs := outboundMsgs }
  match found with
  | none => some library
  | some m =>
      if m.value.qos ≠ 1 then some library
      else
        (removePublication m.value.publish library.publications).map fun publications =>
          { library with publications := publications }.modifyClient client fun client =>
            { client with outboundMsgs := (client.outboundMsgs.remove m.content).2 }

/-- `MQTTProtocol_handlePubacks`: the client it has found, and the state. -/
def handlePubacks (msgId : Int) (sock : SOCKET) (library : Library) : Option (Nat × Library) :=
  match library.findClient sock with
  | none => none
  | some (client, library) =>
      (acknowledge msgId client library).map fun library => (client, library)

/-! ## What a received packet changes -/

variable {before after library : Library}

def queued (publish : Publish) (messageQueue : LinkedList QEntry) : LinkedList QEntry :=
  if publish.header.qos = 0 ∨ publish.header.qos = 1 then
    messageQueue.append (queueEntry publish)
  else messageQueue

theorem processPublication_sets (publish : Publish) (client : Nat) (library : Library) :
    library.SetsClient client
      ((library.client client).withQueues (library.client client).inboundMsgs
        ((library.client client).messageQueue.append (queueEntry publish))
        (library.client client).outboundQueue)
      (processPublication publish client library) :=
  ⟨⟨rfl, rfl, rfl, rfl, rfl, rfl⟩, rfl⟩

theorem queueAck_sets (client ackType : Nat) (msgId : Int) (library : Library) :
    library.SetsClient client
      ((library.client client).withQueues (library.client client).inboundMsgs
        (library.client client).messageQueue
        ((library.client client).outboundQueue.append ⟨msgId, ackType⟩))
      (queueAck client ackType msgId library) :=
  ⟨⟨rfl, rfl, rfl, rfl, rfl, rfl⟩, rfl⟩

theorem storeInbound_spec {publish : Publish} {client : Nat}
    (stored : storeInbound publish client before = some after) :
    ∃ inboundMsgs, before.SetsClient client
      ((before.client client).withQueues inboundMsgs (before.client client).messageQueue
        (before.client client).outboundQueue) after := by
  unfold storeInbound at stored
  dsimp only at stored
  split at stored
  · rcases Option.map_eq_some_iff.mp stored with ⟨publications, _, rfl⟩
    exact ⟨_, ⟨rfl, rfl, rfl, rfl, rfl, rfl⟩, rfl⟩
  · cases stored
    exact ⟨_, ⟨rfl, rfl, rfl, rfl, rfl, rfl⟩, rfl⟩

theorem queueAck_after {client ackType : Nat} {msgId : Int} {inboundMsgs : LinkedList Messages}
    {messageQueue : LinkedList QEntry} {outboundQueue : LinkedList AckRequest}
    (sets : before.SetsClient client
      ((before.client client).withQueues inboundMsgs messageQueue outboundQueue) library) :
    before.SetsClient client
      ((before.client client).withQueues inboundMsgs messageQueue
        (outboundQueue.append ⟨msgId, ackType⟩)) (queueAck client ackType msgId library) := by
  have acked := queueAck_sets client ackType msgId library
  rw [sets.client_self] at acked
  exact sets.trans acked

theorem handleFound_spec {publish : Publish} {sock : SOCKET} {client : Nat} {rc : Int}
    (handled : handleFound publish sock client before = some (rc, after)) :
    ∃ inboundMsgs outboundQueue, before.SetsClient client
      ((before.client client).withQueues inboundMsgs
        (queued publish (before.client client).messageQueue) outboundQueue) after := by
  have searched : before.KeepsObjects
      { before with writes := (Socket.noPendingWrites sock before.writes).2 } :=
    ⟨⟨rfl, rfl, rfl, rfl, rfl, rfl⟩, rfl⟩
  unfold handleFound at handled
  unfold queued
  by_cases qos0 : publish.header.qos = 0
  · rw [if_pos qos0] at handled
    cases handled
    rw [if_pos (.inl qos0)]
    exact ⟨_, _, processPublication_sets publish client before⟩
  · rw [if_neg qos0] at handled
    by_cases qos1 : publish.header.qos = 1
    · have processed := searched.setsClient (processPublication_sets publish client _)
      rw [searched.client] at processed
      rw [if_pos (.inr qos1)]
      dsimp only at handled
      rw [if_pos qos1] at handled
      split at handled
      · cases handled
        exact ⟨_, _, queueAck_after processed⟩
      · cases handled
        exact ⟨_, _, processed.keepsObjects ⟨⟨rfl, rfl, rfl, rfl, rfl, rfl⟩, rfl⟩⟩
    · rw [if_neg (by simp [qos0, qos1])]
      dsimp only at handled
      rw [if_neg qos1] at handled
      split at handled
      · rcases Option.map_eq_some_iff.mp handled with ⟨library, storing, finished⟩
        rcases storeInbound_spec storing with ⟨inboundMsgs, sets⟩
        have stored := searched.setsClient sets
        rw [searched.client] at stored
        split at finished
        · cases finished
          exact ⟨_, _, queueAck_after stored⟩
        · cases finished
          exact ⟨_, _, stored⟩
      · cases handled
        exact ⟨_, _, searched.toKeeps, (Function.update_eq_self ..).symm⟩

theorem handlePublishes_spec {publish : Publish} {sock : SOCKET} {rc : Int}
    (handled : handlePublishes publish sock before = some (rc, after)) :
    ∃ client ∈ before.clients.values, (before.client client).socket = sock ∧
      ∃ inboundMsgs outboundQueue, before.SetsClient client
        ((before.client client).withQueues inboundMsgs
          (queued publish (before.client client).messageQueue) outboundQueue) after := by
  unfold handlePublishes at handled
  split at handled
  · cases handled
  · rename_i client library found
    rcases Library.findClient_eq_some found with ⟨member, owner, keeps⟩
    rcases handleFound_spec handled with ⟨inboundMsgs, outboundQueue, sets⟩
    rw [keeps.client] at sets
    exact ⟨client, member, owner, inboundMsgs, outboundQueue,
      keeps.toKeepsObjects.setsClient sets⟩

def retired (msgId : Int) (messages : List Messages) : List Messages :=
  messages.filter fun message => ¬(message.msgid = msgId ∧ message.qos = 1)

theorem acknowledge_spec {msgId : Int} {client : Nat}
    (handled : acknowledge msgId client before = some after) :
    ∃ outboundMsgs, before.SetsClient client
        ((before.client client).withOutbound (before.client client).msgID outboundMsgs) after ∧
      ((before.client client).outboundMsgs.Distinct Messages.msgid →
        outboundMsgs.values = retired msgId (before.client client).outboundMsgs.values) := by
  unfold acknowledge at handled
  have elements := elements_findItem (before.client client).outboundMsgs
    (hasKey Messages.msgid msgId)
  have values := values_findItem (before.client client).outboundMsgs
    (hasKey Messages.msgid msgId)
  have missed : ((before.client client).outboundMsgs.findItem (hasKey Messages.msgid msgId)).1 =
      none ↔ (before.client client).outboundMsgs.lookup Messages.msgid msgId = none :=
    findItem_hasKey_eq_none_iff
  have hit {element : ListElement Messages} (found : ((before.client client).outboundMsgs.findItem
      (hasKey Messages.msgid msgId)).1 = some element) := findItem_hasKey_eq_some found
  generalize (before.client client).outboundMsgs.findItem (hasKey Messages.msgid msgId) = searched
    at handled elements values missed hit
  rcases searched with ⟨found, outboundMsgs⟩
  cases found with
  | none =>
      cases handled
      refine ⟨outboundMsgs, ⟨⟨rfl, rfl, rfl, rfl, rfl, rfl⟩, rfl⟩, fun _ => values.trans ?_⟩
      refine (List.filter_eq_self.mpr fun message member => ?_).symm
      have other := lookup_eq_none_iff.mp (missed.mp rfl) message member
      simp [other]
  | some element =>
      rcases hit rfl with ⟨member, id⟩
      dsimp only at handled
      by_cases notQos1 : element.value.qos ≠ 1
      · rw [if_pos notQos1] at handled
        cases handled
        refine ⟨outboundMsgs, ⟨⟨rfl, rfl, rfl, rfl, rfl, rfl⟩, rfl⟩, fun distinct => ?_⟩
        refine values.trans ?_
        refine (List.filter_eq_self.mpr fun message present => ?_).symm
        rcases mem_values.mp present with ⟨other, otherMember, rfl⟩
        -- the only message with this id is the one that was found
        have exempt : ¬(other.value.msgid = msgId ∧ other.value.qos = 1) := by
          rintro ⟨sameId, qos1⟩
          have same := distinct.eq_of_key_eq otherMember member (sameId.trans id.symm)
          rw [same] at qos1
          exact notQos1 qos1
        exact decide_eq_true exempt
      · rw [if_neg notQos1] at handled
        rcases Option.map_eq_some_iff.mp handled with ⟨publications, _, rfl⟩
        have still : element ∈ outboundMsgs.elements := by
          rw [elements]
          exact member
        refine ⟨outboundMsgs.detachElement element, ⟨⟨rfl, rfl, rfl, rfl, rfl, rfl⟩, ?_⟩,
          fun distinct => ?_⟩
        · simp [Library.modifyClient, Library.modify, remove_of_mem still, Library.client,
            Clients.withOutbound]
        · have distinctAfter : outboundMsgs.Distinct Messages.msgid := by
            rw [Distinct, values]
            exact distinct
          rw [distinctAfter.values_detachElement still, values]
          refine List.filter_congr fun message present => ?_
          rcases mem_values.mp present with ⟨other, otherMember, rfl⟩
          by_cases sameId : other.value.msgid = msgId
          · have same := distinct.eq_of_key_eq otherMember member (sameId.trans id.symm)
            rw [ne_eq, Decidable.not_not] at notQos1
            simp [same, id, notQos1]
          · simp [sameId, id]

theorem handlePubacks_spec {msgId : Int} {sock : SOCKET} {client : Nat}
    (handled : handlePubacks msgId sock before = some (client, after)) :
    client ∈ before.clients.values ∧ (before.client client).socket = sock ∧
      ∃ outboundMsgs, before.SetsClient client
          ((before.client client).withOutbound (before.client client).msgID outboundMsgs) after ∧
        ((before.client client).outboundMsgs.Distinct Messages.msgid →
          outboundMsgs.values = retired msgId (before.client client).outboundMsgs.values) := by
  unfold handlePubacks at handled
  split at handled
  · cases handled
  · rename_i found library searched
    rcases Option.map_eq_some_iff.mp handled with ⟨final, acknowledged, same⟩
    cases same
    rcases Library.findClient_eq_some searched with ⟨member, owner, keeps⟩
    rcases acknowledge_spec acknowledged with ⟨outboundMsgs, sets, values⟩
    rw [keeps.client] at sets values
    exact ⟨member, owner, outboundMsgs, keeps.toKeepsObjects.setsClient sets, values⟩

structure Unchanged (before after : Library) : Prop extends before.KeepsPublications after where
  clients : ∀ m, ∃ outboundMsgs,
    outboundMsgs.values = (before.client m).outboundMsgs.values ∧
    after.client m = (before.client m).withOutbound (before.client m).msgID outboundMsgs

theorem handlePubacks_unmatched {msgid : Int} {sock : SOCKET} {client : Nat}
    (handled : handlePubacks msgid sock before = some (client, after))
    (unmatched : ∀ message ∈ (before.client client).outboundMsgs.values,
      ¬(message.msgid = msgid ∧ message.qos = 1)) : Unchanged before after := by
  unfold handlePubacks at handled
  split at handled
  · cases handled
  · rename_i found library searched
    rcases Option.map_eq_some_iff.mp handled with ⟨final, acknowledged, same⟩
    cases same
    rcases Library.findClient_eq_some searched with ⟨_, _, keeps⟩
    -- what is left is a search of the list, which moves its cached `current`
    have unmatched : ∀ element, ((library.client client).outboundMsgs.findItem
        (hasKey Messages.msgid msgid)).1 = some element → element.value.qos ≠ 1 := by
      intro element here qos1
      rcases findItem_hasKey_eq_some here with ⟨member, id⟩
      rw [keeps.client] at member
      exact unmatched element.value (mem_values.mpr ⟨element, member, rfl⟩) ⟨id, qos1⟩
    have same : after = library.modifyClient client fun old => { old with
        outboundMsgs := ((library.client client).outboundMsgs.findItem
          (hasKey Messages.msgid msgid)).2 } := by
      unfold acknowledge at acknowledged
      dsimp only at acknowledged
      split at acknowledged
      · exact (Option.some.inj acknowledged).symm
      · rename_i element here
        rw [if_pos (unmatched element here)] at acknowledged
        exact (Option.some.inj acknowledged).symm
    subst same
    refine ⟨⟨keeps.publications, keeps.pendingWrites⟩, fun m => ?_⟩
    by_cases here : m = client
    · subst here
      refine ⟨_, values_findItem (before.client m).outboundMsgs (hasKey Messages.msgid msgid), ?_⟩
      rw [(Library.modifyClient_sets m _ library).client_self, keeps.client]
      rfl
    · refine ⟨_, rfl, ?_⟩
      rw [(Library.modifyClient_sets client _ library).client_of_ne here, keeps.client]
      rfl

end MqttClient.MQTTProtocol
