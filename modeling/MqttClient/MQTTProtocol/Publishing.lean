import MqttClient.Library
import MqttClient.MQTTPacket.Send
import MqttClient.MQTTProtocol.MessageIds

/-! # `MQTTProtocol`: publishing

The functions of `MQTTProtocol.c` that keep a message and send its PUBLISH packet.
A topic or a payload that is moved from one record to another is the same bytes.
-/

namespace MqttClient.MQTTProtocol

open LinkedList

/-- `MQTTProtocol_storePublication`: the address of the record, and the list with it. -/
def storePublication (publish : Publish) (publications : LinkedList Publications) :
    Nat × LinkedList Publications :=
  (publications.nextContent,
    publications.append ⟨publish.topic, publish.payload, publish.payloadlen, 1⟩)

/-- `MQTTProtocol_removePublication`; `none` for a record that is not there any more. -/
def removePublication (p : Nat) (publications : LinkedList Publications) :
    Option (LinkedList Publications) :=
  match publications.find p with
  | none => none
  | some element =>
      let refcount := element.value.refcount - 1
      let publications := publications.update p fun p => { p with refcount := refcount }
      if refcount = 0 then some (publications.remove p).2 else some publications

/-- `MQTTProtocol_emptyMessageList`, for the messages that are in the list. -/
def emptyMessageList : List Messages → LinkedList Publications → Option (LinkedList Publications)
  | [], publications => some publications
  | m :: messages, publications =>
      (removePublication m.publish publications).bind (emptyMessageList messages)

/-- `MQTTProtocol_freeClient`; a second `free` of a string is undefined. -/
def freeClient (client : Clients) (publications : LinkedList Publications) :
    Option (LinkedList Publications) :=
  if client.username = .freed ∨ client.password = .freed then none
  else
    (emptyMessageList client.outboundMsgs.values publications).bind
      (emptyMessageList client.inboundMsgs.values)

/-- `MQTTProtocol_createMessage` without an earlier message. The properties are only
set in version 5. -/
def createMessage (publish : Publish) (qos retained : Int)
    (publications : LinkedList Publications) : Messages × LinkedList Publications :=
  let (p, publications) := storePublication publish publications
  ({ publish := p
     msgid := publish.msgId
     qos := qos
     retain := retained
     mqttVersion := publish.mqttVersion
     properties := if publish.mqttVersion ≥ 5 then publish.properties.copy else .zero },
    publications)

def storeQoS0 (m : Nat) (publish : Publish) (library : Library) : Library :=
  let socket := (library.client m).socket
  let (p, publications) := storePublication publish library.publications
  { library with
    publications := publications
    pendingWrites := library.pendingWrites.append (socket, p)
    writes :=
      { library.writes with
        writes :=
          SocketBuffer.updateWrite socket publish.topic publish.payload library.writes.writes } }

def startPublishCommon (m : Nat) (publish : Publish) (qos retained : Int) (library : Library) :
    Option (Int × Library) :=
  match MQTTPacket.sendPublish publish 0 qos retained (library.client m).socket
    library.writes with
  | none => none
  | some (rc, writes) =>
      let library := { library with writes := writes }
      if qos = 0 ∧ rc = tcpsocketInterrupted then some (rc, storeQoS0 m publish library)
      else some (rc, library)

/-- `MQTTProtocol_startPublish`. The packet is sent from the saved publication. -/
def startPublish (m : Nat) (publish : Publish) (qos retained : Int) (library : Library) :
    Option (Int × Library) :=
  if qos > 0 then
    let (mm, publications) := createMessage publish qos retained library.publications
    let library := { library with publications := publications }.modifyClient m fun client =>
      { client with outboundMsgs := client.outboundMsgs.append mm }
    startPublishCommon m
      { publish with properties := mm.properties, mqttVersion := mm.mqttVersion } qos retained
      library
  else startPublishCommon m publish qos retained library

/-! ## What publishing changes -/

variable {before after : Library} {m : Nat} {publish : Publish} {qos retained rc : Int}

theorem startPublishCommon_keepsObjects
    (started : startPublishCommon m publish qos retained before = some (rc, after)) :
    before.KeepsObjects after := by
  unfold startPublishCommon at started
  split at started
  · cases started
  · dsimp only at started
    split at started
    all_goals
      cases started
      exact ⟨⟨rfl, rfl, rfl, rfl, rfl, rfl⟩, rfl⟩

/-- The message that `MQTTProtocol_startPublish` keeps, and the publish that it sends. -/
def keptMessage (publish : Publish) (qos retained : Int) (library : Library) : Messages :=
  (createMessage publish qos retained library.publications).1

def keptPublish (publish : Publish) : Publish :=
  { publish with
    properties := if publish.mqttVersion ≥ 5 then publish.properties.copy else .zero }

def withMessage (m : Nat) (publish : Publish) (qos retained : Int) (library : Library) :
    Library :=
  { library with
    publications := (createMessage publish qos retained library.publications).2 }.modifyClient m
      fun client => client.withOutbound client.msgID
        (client.outboundMsgs.append (keptMessage publish qos retained library))

theorem withMessage_sets (m : Nat) (publish : Publish) (qos retained : Int) (library : Library) :
    library.SetsClient m
      ((library.client m).withOutbound (library.client m).msgID
        ((library.client m).outboundMsgs.append (keptMessage publish qos retained library)))
      (withMessage m publish qos retained library) :=
  ⟨⟨rfl, rfl, rfl, rfl, rfl, rfl⟩, rfl⟩

theorem startPublish_eq (positive : qos > 0) (library : Library) :
    startPublish m publish qos retained library =
      (MQTTPacket.sendPublish (keptPublish publish) 0 qos retained (library.client m).socket
        library.writes).map fun sent =>
          (sent.1, { withMessage m publish qos retained library with writes := sent.2 }) := by
  have notQos0 : ¬qos = 0 := by omega
  have socket : ((withMessage m publish qos retained library).client m).socket =
      (library.client m).socket := by
    rw [(withMessage_sets m publish qos retained library).client_self]
    rfl
  rw [startPublish, if_pos positive]
  change startPublishCommon m (keptPublish publish) qos retained
    (withMessage m publish qos retained library) = _
  rw [startPublishCommon, socket]
  change (match MQTTPacket.sendPublish (keptPublish publish) 0 qos retained
    (library.client m).socket library.writes with
    | none => none
    | some (rc, writes) => _) = _
  cases MQTTPacket.sendPublish (keptPublish publish) 0 qos retained (library.client m).socket
    library.writes with
  | none => rfl
  | some sent =>
      dsimp only [Option.map_some]
      rw [if_neg (fun both => notQos0 both.1)]

end MqttClient.MQTTProtocol
