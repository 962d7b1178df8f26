import MqttClient.Clients
import MqttClient.MQTTProperties
import MqttClient.Socket.Writes

/-! # `MQTTPacket`: sending

The functions of `MQTTPacket.c` that build a packet and hand it to the socket. On
a plain connection `WebSocket_putdatas` is `Socket_putdatas`.
-/

namespace MqttClient.MQTTPacket

def buf0 (header : Header) (total : Nat) : List UInt8 := header.byte :: encode total

def send (socket : SOCKET) (header : Header) (buffer : List UInt8) (state : SocketWrites) :
    Int × SocketWrites :=
  Socket.putdatas socket (buf0 header buffer.length) ⟨[buffer], by simp⟩ state

def sends (socket : SOCKET) (header : Header) (bufs : PacketBuffers) (state : SocketWrites) :
    Int × SocketWrites :=
  let total := (bufs.buffers.map List.length).sum
  Socket.putdatas socket (buf0 header total) bufs state

def sendAck (msgid : Int) (socket : SOCKET) (state : SocketWrites) : Int × SocketWrites :=
  send socket (.ofBits MsgType.puback 0 0 0) (writeInt msgid) state

def sendPuback (msgid : Int) (socket : SOCKET) (state : SocketWrites) : Int × SocketWrites :=
  sendAck msgid socket state

def publishBuflen (pack : Publish) (qos : Int) : Int :=
  (if qos > 0 then 2 else 0) + if pack.mqttVersion ≥ 5 then pack.properties.len else 0

def publishSection (pack : Publish) (qos : Int) : List UInt8 :=
  (if qos > 0 then writeInt pack.msgId else []) ++
    if pack.mqttVersion ≥ 5 then pack.properties.write.1 else []

/-- The buffers that `MQTTPacket_send_publish` hands on. `none` when the bytes
written behind the topic do not fill exactly the block that was allocated for them,
or the payload has fewer bytes than `payloadlen`. -/
def publishBuffers (pack : Publish) (qos : Int) : Option PacketBuffers :=
  let topic := CString.ofBlock pack.topic
  if (publishSection pack qos).length = publishBuflen pack qos ∧ 0 ≤ pack.payloadlen ∧
      pack.payloadlen ≤ pack.payload.length then
    some ⟨[writeInt (toInt topic.bytes.length), topic.bytes, publishSection pack qos,
      pack.payload.take pack.payloadlen.toNat], by simp⟩
  else none

/-- `MQTTPacket_send_publish`, which sends nothing for QoS 0 before version 5. `none`
is undefined behaviour. -/
def sendPublish (pack : Publish) (dup qos retained : Int) (socket : SOCKET)
    (state : SocketWrites) : Option (Int × SocketWrites) :=
  let header := Header.ofBits MsgType.publish dup qos retained
  if qos > 0 ∨ pack.mqttVersion ≥ 5 then
    (publishBuffers pack qos).map fun bufs => sends socket header bufs state
  else some (socketError, state)

/-- A string that is read through a pointer; `none` for memory that has been freed. -/
def optionalString : CharPtr → Option (Option CString)
  | .null => some none
  | .string string => some (some string)
  | .freed => none

def connectBody (client : Clients) (MQTTVersion : Int) : Option (List UInt8) := do
  let username ← optionalString client.username
  let password ← optionalString client.password
  let flags := (if username.isSome then 128 else 0) + if password.isSome then 64 else 0
  return writeUTF ⟨[0x4d, 0x51, 0x54, 0x54], by decide⟩ ++ writeChar (toChar MQTTVersion) ++
    writeChar (UInt8.ofNat flags) ++ writeInt client.keepAliveInterval ++
    writeUTF client.clientID ++ (username.map writeUTF).getD [] ++
    (password.map fun password =>
      writeData (password.bytes.take client.passwordlen.toNat)).getD []

def connectLen (client : Clients) : Int :=
  10 + toInt client.clientID.bytes.length + 2 +
    (match client.username with
      | .string username => toInt username.bytes.length + 2
      | _ => 0) +
    match client.password with
      | .string _ => client.passwordlen + 2
      | _ => 0

/-- A block of `len` bytes that is filled with some bytes: `malloc` gives none when `len` is
negative. `none` when `len` is too large for an `int`, or the bytes do not fill the block. -/
def fillBlock (len : Int) (bytes : List UInt8) : Option (Option (List UInt8)) :=
  if toInt len ≠ len then none
  else if len < 0 then some none
  else if bytes.length = len then some (some bytes)
  else none

/-- The block that `MQTTPacket_send_connect` fills. -/
def connectBlock (client : Clients) (MQTTVersion : Int) : Option (Option (List UInt8)) :=
  (connectBody client MQTTVersion).bind (fillBlock (connectLen client))

theorem fillBlock_eq_some {len : Int} {bytes block : List UInt8}
    (filled : fillBlock len bytes = some (some block)) : block = bytes ∧ bytes.length = len := by
  unfold fillBlock at filled
  split at filled
  · cases filled
  · split at filled
    · cases filled
    · split at filled
      · rename_i fits
        cases filled
        exact ⟨rfl, fits⟩
      · cases filled

theorem connectBlock_eq_some {client : Clients} {MQTTVersion : Int} {body : List UInt8}
    (filled : connectBlock client MQTTVersion = some (some body)) :
    connectBody client MQTTVersion = some body := by
  rcases Option.bind_eq_some_iff.mp filled with ⟨bytes, built, filled⟩
  rw [built, (fillBlock_eq_some filled).1]

def sendConnect (client : Clients) (MQTTVersion : Int) (state : SocketWrites) :
    Option (Int × SocketWrites) :=
  (connectBlock client MQTTVersion).map fun
    | none => (socketError, state)
    | some body => send client.socket (.ofBits MsgType.connect 0 0 0) body state

def subscribeBody (topics : List (CString × Int)) (msgid : Int) : List UInt8 :=
  writeInt msgid ++ (topics.map fun topic =>
    writeUTF topic.1 ++ writeChar (toChar topic.2)).flatten

def subscribeDatalen (topics : List (CString × Int)) : Int :=
  2 + topics.length * 3 + (topics.map fun topic => toInt topic.1.bytes.length).sum

def sendSubscribe (topics : List (CString × Int)) (msgid dup : Int) (client : Clients)
    (state : SocketWrites) : Option (Int × SocketWrites) :=
  (fillBlock (subscribeDatalen topics) (subscribeBody topics msgid)).map fun
    | none => (-1, state)
    | some data => send client.socket (.ofBits MsgType.subscribe dup 1 0) data state

end MqttClient.MQTTPacket
