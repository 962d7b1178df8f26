import MqttClient.LinkedList
import MqttClient.TypeDefine

/-! # The records of a client

The records of `TypeDefine.h` behind a client handle. Time stamps, lengths that
are only added up, and fields that no function reads are left out.
-/

namespace MqttClient

/-- A `char*` of the program: NULL, a string, or memory that has been freed. -/
inductive CharPtr
  | null
  | string (string : CString)
  | freed
  deriving DecidableEq

/-- `Publications`. The payload is the bytes it points to. -/
structure Publications where
  topic : List UInt8
  payload : List UInt8
  payloadlen : Int
  refcount : Int
  deriving DecidableEq, Repr

/-- `Messages`; `publish` is the address of a record in the list of publications. -/
structure Messages where
  publish : Nat
  msgid : Int
  qos : Int
  retain : Int
  mqttVersion : Int
  properties : MQTTProperties
  deriving DecidableEq, Repr

structure Message where
  payload : List UInt8
  payloadlen : Int
  qos : Int
  retained : Int
  dup : Int
  msgid : Int
  properties : MQTTProperties
  deriving DecidableEq, Repr

structure QEntry where
  msg : Message
  topicName : List UInt8
  topicLen : Int
  deriving DecidableEq, Repr

structure AckRequest where
  messageId : Int
  ackType : Nat
  deriving DecidableEq, Repr

inductive ConnectState
  | notInProgress
  | tcpInProgress
  | waitForConnack
  deriving DecidableEq, Repr

structure Clients where
  clientID : CString
  username : CharPtr
  password : CharPtr
  passwordlen : Int
  connectState : ConnectState
  socket : SOCKET
  msgID : Int
  keepAliveInterval : Int
  inboundMsgs : LinkedList Messages
  outboundMsgs : LinkedList Messages
  messageQueue : LinkedList QEntry
  outboundQueue : LinkedList AckRequest
  mqttVersion : Int

def Clients.withQueues (client : Clients) (inboundMsgs : LinkedList Messages)
    (messageQueue : LinkedList QEntry) (outboundQueue : LinkedList AckRequest) : Clients :=
  { client with
    inboundMsgs := inboundMsgs
    messageQueue := messageQueue
    outboundQueue := outboundQueue }

def Clients.withOutbound (client : Clients) (msgID : Int) (outboundMsgs : LinkedList Messages) :
    Clients :=
  { client with msgID := msgID, outboundMsgs := outboundMsgs }

def Clients.withConnection (client : Clients) (mqttVersion : Int) (username password : CharPtr)
    (passwordlen : Int) (connectState : ConnectState) (socket : SOCKET) : Clients :=
  { client with
    mqttVersion := mqttVersion
    username := username
    password := password
    passwordlen := passwordlen
    connectState := connectState
    socket := socket }

def Clients.withTcp (client : Clients) (connectState : ConnectState) (socket : SOCKET) : Clients :=
  { client with connectState := connectState, socket := socket }

def Clients.offline (client : Clients) : Clients :=
  client.withConnection 0 .null .null 0 .notInProgress 0

/-- `MQTTClients`. Of a callback only matters whether it is set. -/
structure MQTTClients where
  c : Clients
  ma : Bool
  dc : Bool
  connectSem : Nat
  connackSem : Nat
  subackSem : Nat
  rc : Int
  pack : Option Packet

def MQTTClients.withWaits (object : MQTTClients) (connectState : ConnectState)
    (connectSem connackSem subackSem : Nat) (rc : Int) (pack : Option Packet) : MQTTClients :=
  { object with
    c := { object.c with connectState := connectState }
    connectSem := connectSem
    connackSem := connackSem
    subackSem := subackSem
    rc := rc
    pack := pack }

structure Stable {τ : Type} (datum : MQTTClients → τ) : Prop where
  queues : ∀ object inboundMsgs messageQueue outboundQueue, datum { object with
    c := object.c.withQueues inboundMsgs messageQueue outboundQueue } = datum object
  outbound : ∀ object msgID outboundMsgs,
    datum { object with c := object.c.withOutbound msgID outboundMsgs } = datum object
  waits : ∀ object connectState connectSem connackSem subackSem rc pack,
    datum (object.withWaits connectState connectSem connackSem subackSem rc pack) = datum object
  callbacks : ∀ object ma dc, datum { object with ma := ma, dc := dc } = datum object
  tcp : ∀ object connectState,
    datum { object with c := object.c.withTcp connectState object.c.socket } = datum object

theorem stable_socket : Stable fun object => object.c.socket :=
  ⟨fun _ _ _ _ => rfl, fun _ _ _ => rfl, fun _ _ _ _ _ _ _ => rfl, fun _ _ _ => rfl,
    fun _ _ => rfl⟩

end MqttClient
