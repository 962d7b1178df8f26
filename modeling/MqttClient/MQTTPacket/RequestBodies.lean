import MqttClient.MQTTPacket.Send
import MqttClient.MQTTPacket.WrittenFields

/-! # `MQTTPacket`: the bodies of requests

The formats that MQTT 3.1.1 gives the bodies of CONNECT and SUBSCRIBE packets, and what
is read in these formats from the blocks that `MQTTPacket_send_connect` and
`MQTTPacket_send_subscribe` fill.
-/

namespace MqttClient.MQTTPacket

open Foundation Reader

/-! ## CONNECT -/

structure ConnectFields where
  protocol : List UInt8
  level : UInt8
  flags : UInt8
  keepAlive : Nat
  clientId : List UInt8
  will : Option (List UInt8 × List UInt8)
  username : Option (List UInt8)
  password : Option (List UInt8)
  deriving DecidableEq, Repr

def flag (flags : UInt8) (bit : Nat) : Bool := flags.toNat / 2 ^ bit % 2 = 1

def connectFields : Reader ConnectFields := do
  let protocol ← prefixed
  let level ← byte
  let flags ← byte
  let keepAlive ← number 2
  let clientId ← prefixed
  let will ← optional (flag flags 2) (prefixed >>= fun topic => (topic, ·) <$> prefixed)
  let username ← optional (flag flags 7) prefixed
  let password ← optional (flag flags 6) prefixed
  return ⟨protocol, level, flags, keepAlive, clientId, will, username, password⟩

def connectFlags (username password : Option CString) : UInt8 :=
  UInt8.ofNat ((if username.isSome then 128 else 0) + if password.isSome then 64 else 0)

theorem flag_connectFlags (username password : Option CString) :
    flag (connectFlags username password) 2 = false ∧
      flag (connectFlags username password) 7 = username.isSome ∧
      flag (connectFlags username password) 6 = password.isSome := by
  unfold connectFlags
  generalize username.isSome = hasUsername
  generalize password.isSome = hasPassword
  revert hasUsername hasPassword
  decide

def recordFields (client : Clients) (MQTTVersion : Int) (username password : Option CString) :
    ConnectFields where
  protocol := [0x4d, 0x51, 0x54, 0x54]
  level := toChar MQTTVersion
  flags := connectFlags username password
  keepAlive := client.keepAliveInterval.toNat
  clientId := client.clientID.bytes
  will := none
  username := username.map CString.bytes
  password := password.map fun password => password.bytes.take client.passwordlen.toNat

section Connect

variable {client : Clients} {username password : Option CString}

theorem connectBody_eq (hasUsername : optionalString client.username = some username)
    (hasPassword : optionalString client.password = some password) (MQTTVersion : Int) :
    connectBody client MQTTVersion = some
      (writeUTF ⟨[0x4d, 0x51, 0x54, 0x54], by decide⟩ ++ (writeChar (toChar MQTTVersion) ++
        (writeChar (connectFlags username password) ++ (writeInt client.keepAliveInterval ++
          (writeUTF client.clientID ++ ((username.map writeUTF).getD [] ++
            (password.map fun password =>
              writeData (password.bytes.take client.passwordlen.toNat)).getD [])))))) := by
  rw [connectBody, hasUsername, hasPassword]
  simp only [List.append_assoc]
  rfl

theorem connectFields_body {MQTTVersion : Int} {body : List UInt8}
    (built : connectBody client MQTTVersion = some body)
    (hasUsername : optionalString client.username = some username)
    (hasPassword : optionalString client.password = some password)
    (keepAlive : 0 ≤ client.keepAliveInterval ∧ client.keepAliveInterval ≤ 65535)
    (named : client.clientID.bytes.length ≤ 65535)
    (shortUsername : ∀ string, username = some string → string.bytes.length ≤ 65535)
    (shortPassword : ∀ string, password = some string → client.passwordlen ≤ 65535) :
    connectFields.toEnd body = some (recordFields client MQTTVersion username password) := by
  rw [connectBody_eq hasUsername hasPassword MQTTVersion, Option.some.injEq] at built
  rcases flag_connectFlags username password with ⟨noWill, withUsername, withPassword⟩
  have alive : client.keepAliveInterval = (client.keepAliveInterval.toNat : Nat) := by omega
  have protocol : Reads prefixed (writeUTF ⟨[0x4d, 0x51, 0x54, 0x54], by decide⟩)
      [0x4d, 0x51, 0x54, 0x54] := reads_writeUTF (by decide)
  have will : Reads (optional (flag (connectFlags username password) 2)
      (prefixed >>= fun topic => (topic, ·) <$> prefixed)) [] none := by
    rw [noWill]
    exact reads_pure none
  have user : Reads (optional (flag (connectFlags username password) 7) prefixed)
      ((username.map writeUTF).getD []) (username.map CString.bytes) := by
    rw [withUsername]
    exact reads_optional fun string present => reads_writeUTF (shortUsername string present)
  have pass : Reads (optional (flag (connectFlags username password) 6) prefixed)
      ((password.map fun password =>
        writeData (password.bytes.take client.passwordlen.toNat)).getD [])
      (password.map fun password => password.bytes.take client.passwordlen.toNat) := by
    rw [withPassword]
    refine reads_optional fun string present => reads_writeData ?_
    have taken := List.length_take_le client.passwordlen.toNat string.bytes
    have short := shortPassword string present
    omega
  rw [← built, alive, ← List.append_nil ((password.map _).getD []),
    ← List.nil_append ((username.map writeUTF).getD [] ++ _)]
  refine Reads.toEnd (Reads.bind protocol (Reads.bind (reads_writeChar _) (Reads.bind
    (reads_writeChar _) (Reads.bind (reads_writeInt (by omega)) (Reads.bind (reads_writeUTF named)
      (Reads.bind will (Reads.bind user (Reads.bind pass (reads_pure _)))))))))

theorem length_writeUTF (string : CString) :
    (writeUTF string).length = 2 + string.bytes.length := by
  rw [writeUTF, List.length_append, length_writeInt]

/-- What `MQTTPacket_send_connect` adds up for the user name. -/
def usernameLen (client : Clients) : Int :=
  match client.username with
  | .string username => toInt username.bytes.length + 2
  | _ => 0

def passwordLen (client : Clients) : Int :=
  match client.password with
  | .string _ => client.passwordlen + 2
  | _ => 0

theorem length_connectBody {MQTTVersion : Int} {body : List UInt8}
    (built : connectBody client MQTTVersion = some body)
    (hasUsername : optionalString client.username = some username)
    (hasPassword : optionalString client.password = some password)
    (named : client.clientID.bytes.length ≤ 65535)
    (shortUsername : ∀ string, username = some string → string.bytes.length ≤ 65535)
    (wholePassword : ∀ string, password = some string →
      0 ≤ client.passwordlen ∧ client.passwordlen ≤ string.bytes.length) :
    (body.length : Int) = connectLen client := by
  have user : (((username.map writeUTF).getD []).length : Int) = usernameLen client := by
    cases pointer : client.username with
    | null =>
        rw [pointer, optionalString, Option.some.injEq] at hasUsername
        rw [← hasUsername, usernameLen, pointer]
        rfl
    | freed =>
        rw [pointer] at hasUsername
        cases hasUsername
    | string string =>
        rw [pointer, optionalString, Option.some.injEq] at hasUsername
        have short := shortUsername string hasUsername.symm
        rw [← hasUsername, Option.map_some, Option.getD_some, length_writeUTF, usernameLen, pointer]
        dsimp only
        rw [toInt_of_lt (by omega) (by omega)]
        omega
  have pass : (((password.map fun password =>
        writeData (password.bytes.take client.passwordlen.toNat)).getD []).length : Int) =
      passwordLen client := by
    cases pointer : client.password with
    | null =>
        rw [pointer, optionalString, Option.some.injEq] at hasPassword
        rw [← hasPassword, passwordLen, pointer]
        rfl
    | freed =>
        rw [pointer] at hasPassword
        cases hasPassword
    | string string =>
        rw [pointer, optionalString, Option.some.injEq] at hasPassword
        have whole := wholePassword string hasPassword.symm
        rw [← hasPassword, Option.map_some, Option.getD_some, writeData, List.length_append,
          length_writeInt, List.length_take, passwordLen, pointer]
        dsimp only
        omega
  rw [connectBody_eq hasUsername hasPassword MQTTVersion, Option.some.injEq] at built
  have sum : connectLen client = 10 + toInt client.clientID.bytes.length + 2 +
      ((username.map writeUTF).getD []).length + ((password.map fun password =>
        writeData (password.bytes.take client.passwordlen.toNat)).getD []).length := by
    rw [user, pass]
    rfl
  have protocol : (writeUTF ⟨[0x4d, 0x51, 0x54, 0x54], by decide⟩).length = 6 := rfl
  rw [← built, sum, toInt_of_lt (by omega) (by omega)]
  simp only [List.length_append, length_writeUTF client.clientID, length_writeInt, protocol,
    writeChar, List.length_singleton]
  omega

/-- The block of a CONNECT packet is filled exactly, and what is sent of it says what the
record holds: its password is the first `passwordlen` bytes behind the pointer. -/
theorem sendConnect_encoding (client : Clients) (MQTTVersion : Int)
    (username password : Option CString)
    (hasUsername : optionalString client.username = some username)
    (hasPassword : optionalString client.password = some password)
    (keepAlive : 0 ≤ client.keepAliveInterval ∧ client.keepAliveInterval ≤ 65535)
    (named : client.clientID.bytes.length ≤ 65535)
    (shortUsername : ∀ string, username = some string → string.bytes.length ≤ 65535)
    (shortPassword : ∀ string, password = some string → 0 ≤ client.passwordlen ∧
      client.passwordlen ≤ string.bytes.length ∧ client.passwordlen ≤ 65535) :
    ∃ body, connectBlock client MQTTVersion = some (some body) ∧
      (body.length : Int) = connectLen client ∧
      connectFields.toEnd body = some (recordFields client MQTTVersion username password) ∧
      ∀ state, sendConnect client MQTTVersion state =
        some (send client.socket (.ofBits MsgType.connect 0 0 0) body state) := by
  rcases built : connectBody client MQTTVersion with - | body
  · rw [connectBody_eq hasUsername hasPassword MQTTVersion] at built
    cases built
  have length := length_connectBody built hasUsername hasPassword named shortUsername
    fun string present => ⟨(shortPassword string present).1, (shortPassword string present).2.1⟩
  have decoded := connectFields_body built hasUsername hasPassword keepAlive named shortUsername
    fun string present => (shortPassword string present).2.2
  have user : ((username.map writeUTF).getD []).length ≤ 65537 := by
    cases username with
    | none => exact Nat.zero_le _
    | some string =>
        have short := shortUsername string rfl
        rw [Option.map_some, Option.getD_some, length_writeUTF]
        omega
  have pass : ((password.map fun password =>
      writeData (password.bytes.take client.passwordlen.toNat)).getD []).length ≤ 65537 := by
    cases password with
    | none => exact Nat.zero_le _
    | some string =>
        have short := shortPassword string rfl
        rw [Option.map_some, Option.getD_some, writeData, List.length_append, length_writeInt,
          List.length_take]
        omega
  have small : body.length ≤ 300000 := by
    have parts := built
    have protocol : (writeUTF ⟨[0x4d, 0x51, 0x54, 0x54], by decide⟩).length = 6 := rfl
    rw [connectBody_eq hasUsername hasPassword MQTTVersion, Option.some.injEq] at parts
    rw [← parts]
    simp only [List.length_append, length_writeUTF client.clientID, length_writeInt, protocol,
      writeChar, List.length_singleton]
    omega
  have filled : connectBlock client MQTTVersion = some (some body) := by
    rw [connectBlock, built, Option.bind_some, fillBlock, if_neg, if_neg (by omega), if_pos length]
    rw [not_not]
    exact toInt_of_lt (by omega) (by omega)
  exact ⟨body, filled, length, decoded, fun state => by rw [sendConnect, filled, Option.map_some]⟩

end Connect

def namedRecord : Clients where
  clientID := .ofBlock [0x63]
  username := .string (.ofBlock [0x75])
  password := .string (.ofBlock [0x70, 0x77])
  passwordlen := 2
  connectState := .notInProgress
  socket := 3
  msgID := 0
  keepAliveInterval := 60
  inboundMsgs := .zero
  outboundMsgs := .zero
  messageQueue := .zero
  outboundQueue := .zero
  mqttVersion := 4

theorem sendConnect_encoding_named :
    ∃ body, connectBlock namedRecord 4 = some (some body) ∧
      (body.length : Int) = connectLen namedRecord ∧
      connectFields.toEnd body = some (recordFields namedRecord 4 (some (.ofBlock [0x75]))
        (some (.ofBlock [0x70, 0x77]))) ∧
      ∀ state, sendConnect namedRecord 4 state =
        some (send namedRecord.socket (.ofBits MsgType.connect 0 0 0) body state) := by
  refine sendConnect_encoding namedRecord 4 _ _ rfl rfl ⟨by decide, by decide⟩ (by decide)
    (fun string same => ?_) fun string same => ?_
  · cases same
    decide
  · cases same
    decide

/-! ## SUBSCRIBE -/

def subscribeFields : Reader (Nat × List (List UInt8 × UInt8)) := number 2 >>= fun msgid =>
  (msgid, ·) <$> items (prefixed >>= fun topic => (topic, ·) <$> byte)

/-- The loop of `MQTTPacket_send_subscribe` over its two lists. `none` when there is no
element to go with a topic. -/
def writeTopics : (topics : List CString) → (qoss : List Int) → Option (List UInt8)
  | [], _ => some []
  | _ :: _, [] => none
  | topic :: topics, qos :: qoss => (writeTopics topics qoss).map fun rest =>
      writeUTF topic ++ (writeChar (toChar qos) ++ rest)

def topicsDatalen (topics : List CString) : Int :=
  2 + topics.length * 3 + (topics.map fun topic => toInt topic.bytes.length).sum

def subscribeBlock (topics : List CString) (qoss : List Int) (msgid : Int) :
    Option (Option (List UInt8)) :=
  (writeTopics topics qoss).bind fun fields =>
    fillBlock (topicsDatalen topics) (writeInt msgid ++ fields)

/-- `MQTTPacket_send_subscribe` with its two lists. -/
def sendSubscribeLists (topics : List CString) (qoss : List Int) (msgid dup : Int)
    (client : Clients) (state : SocketWrites) : Option (Int × SocketWrites) :=
  (subscribeBlock topics qoss msgid).map fun
    | none => (-1, state)
    | some data => send client.socket (.ofBits MsgType.subscribe dup 1 0) data state

section Subscribe

variable {topics : List CString} {qoss : List Int}

theorem writeTopics_eq : ∀ {topics : List CString} {qoss : List Int},
    topics.length = qoss.length →
    writeTopics topics qoss = some ((topics.zip qoss).map fun topic =>
      writeUTF topic.1 ++ writeChar (toChar topic.2)).flatten
  | [], _, _ => rfl
  | _ :: _, [], short => nomatch short
  | topic :: topics, qos :: qoss, same => by
      rw [writeTopics, writeTopics_eq (Nat.succ_inj.mp same), Option.map_some, List.zip_cons_cons,
        List.map_cons, List.flatten_cons, List.append_assoc]

/-- With lists of one length, `sendSubscribeLists` is the `sendSubscribe` of the client. -/
theorem sendSubscribeLists_eq (same : topics.length = qoss.length) (msgid dup : Int)
    (client : Clients) (state : SocketWrites) :
    sendSubscribeLists topics qoss msgid dup client state =
      sendSubscribe (topics.zip qoss) msgid dup client state := by
  have names : (topics.zip qoss).map Prod.fst = topics := List.map_fst_zip (by omega)
  have datalen : topicsDatalen topics = subscribeDatalen (topics.zip qoss) := by
    rw [topicsDatalen, subscribeDatalen, ← List.length_map Prod.fst, names]
    conv_lhs => rw [← names, List.map_map]
    rw [names]
    rfl
  rw [sendSubscribeLists, subscribeBlock, writeTopics_eq same, Option.bind_some, datalen]
  rfl

theorem topicsDatalen_eq (short : ∀ topic ∈ topics, topic.bytes.length ≤ 65535) :
    topicsDatalen topics = 2 + ((topics.map fun topic => 3 + topic.bytes.length).sum : Nat) := by
  have each : ∀ topics : List CString, (∀ topic ∈ topics, topic.bytes.length ≤ 65535) →
      (topics.length * 3 : Int) + (topics.map fun topic => toInt topic.bytes.length).sum =
        ((topics.map fun topic => 3 + topic.bytes.length).sum : Nat) := by
    intro topics
    induction topics with
    | nil => exact fun _ => rfl
    | cons topic topics induction =>
        intro short
        have here := short topic (List.mem_cons_self ..)
        have rest := induction fun other member => short other (List.mem_cons_of_mem _ member)
        rw [List.map_cons, List.sum_cons, List.map_cons, List.sum_cons, List.length_cons,
          toInt_of_lt (by omega) (by omega)]
        omega
  rw [topicsDatalen, Int.add_assoc, each topics short]

theorem length_writeTopics : ∀ {topics : List CString} {qoss : List Int} {fields : List UInt8},
    writeTopics topics qoss = some fields →
    fields.length = (topics.map fun topic => 3 + topic.bytes.length).sum
  | [], _, _, rfl => rfl
  | _ :: _, [], _, walked => nomatch walked
  | topic :: topics, qos :: qoss, _, walked => by
      rcases Option.map_eq_some_iff.mp walked with ⟨rest, others, rfl⟩
      rw [List.length_append, List.length_append, length_writeUTF, length_writeTopics others,
        List.map_cons, List.sum_cons, writeChar, List.length_singleton]
      omega

theorem items_topics {pairs : List (CString × Int)}
    (short : ∀ pair ∈ pairs, pair.1.bytes.length ≤ 65535) :
    List.Forall₂ (fun field value => field ≠ [] ∧
        Reads (prefixed >>= fun topic => (topic, ·) <$> byte) field value)
      (pairs.map fun pair => writeUTF pair.1 ++ writeChar (toChar pair.2))
      (pairs.map fun pair => (pair.1.bytes, toChar pair.2)) := by
  induction pairs with
  | nil => exact .nil
  | cons pair pairs induction =>
      refine .cons ⟨List.cons_ne_nil _ _, ?_⟩
        (induction fun other member => short other (List.mem_cons_of_mem _ member))
      exact Reads.bind (reads_writeUTF (short pair (List.mem_cons_self ..)))
        ((reads_writeChar _).map _)

/-- The data of a subscription fill their buffer exactly, say what the lists hold, and are
sent under the header byte of a SUBSCRIBE packet. -/
def SubscribeEncoded (topics : List CString) (qoss : List Int) (msgid : Int) : Prop :=
  ∃ data, subscribeBlock topics qoss msgid = some (some data) ∧
    (data.length : Int) = topicsDatalen topics ∧
    subscribeFields.toEnd data = some (msgid.toNat,
      (topics.zip qoss).map fun pair => (pair.1.bytes, UInt8.ofNat pair.2.toNat)) ∧
    ∀ client state, ∃ header : Header, header.byte = 0x82 ∧
      sendSubscribeLists topics qoss msgid 0 client state =
        some (send client.socket header data state)

/-- A subscription is encoded exactly when the size of its data can be added up in an `int`. -/
theorem subscribeEncoded_iff {msgid : Int} (same : topics.length = qoss.length)
    (short : ∀ topic ∈ topics, topic.bytes.length ≤ 65535)
    (options : ∀ qos ∈ qoss, 0 ≤ qos ∧ qos ≤ 2) (identified : 0 ≤ msgid ∧ msgid ≤ 65535) :
    SubscribeEncoded topics qoss msgid ↔
      2 + (topics.map fun topic => 3 + topic.bytes.length).sum ≤ 2147483647 := by
  have datalen := topicsDatalen_eq short
  have walked := writeTopics_eq same
  have length := length_writeTopics walked
  constructor
  · rintro ⟨data, filled, _⟩
    rw [subscribeBlock, walked, Option.bind_some, fillBlock] at filled
    split at filled
    · cases filled
    · rename_i inInt
      have bounds := toInt_eq_self_iff.mp (not_not.mp inInt)
      omega
  · intro small
    have filled : subscribeBlock topics qoss msgid = some (some (writeInt msgid ++
        ((topics.zip qoss).map fun topic =>
          writeUTF topic.1 ++ writeChar (toChar topic.2)).flatten)) := by
      rw [subscribeBlock, walked, Option.bind_some, fillBlock, if_neg, if_neg (by omega), if_pos]
      · rw [List.length_append, length_writeInt]
        omega
      · rw [not_not]
        exact toInt_of_lt (by omega) (by omega)
    have sent : ∀ pair ∈ topics.zip qoss,
        (pair.1.bytes, toChar pair.2) = (pair.1.bytes, UInt8.ofNat pair.2.toNat) := by
      intro pair member
      have bounds := options pair.2 (List.of_mem_zip member).2
      rw [toChar, Int.emod_eq_of_lt bounds.1 (by omega)]
    have number : msgid = (msgid.toNat : Nat) := by omega
    refine ⟨_, filled, ?_, ?_, fun client state => ⟨.ofBits MsgType.subscribe 0 1 0, by decide, ?_⟩⟩
    · rw [List.length_append, length_writeInt]
      omega
    · rw [number, subscribeFields, (reads_writeInt (by omega)).toEnd_bind, toEnd_map,
        toEnd_items (items_topics fun pair member => short pair.1 (List.of_mem_zip member).1),
        Option.map_some, List.map_congr_left sent]
      rfl
    · rw [sendSubscribeLists, filled, Option.map_some]

/-- The topics `a/b` and `c` with the options 2 and 0, under the id 513. -/
theorem subscribeEncoded_iff_topics :
    SubscribeEncoded [.ofBlock [0x61, 0x2f, 0x62], .ofBlock [0x63]] [2, 0] 513 :=
  (subscribeEncoded_iff rfl (by decide) (by decide) (by decide)).mpr (by decide)

/-- The size of the data for 40000 topics of 65535 bytes is not one of an `int`. -/
theorem not_subscribeEncoded_long :
    ¬SubscribeEncoded (List.replicate 40000 (.ofBlock (List.replicate 65535 0x61)))
      (List.replicate 40000 0) 1 := by
  have noNul : (0 : UInt8) ∉ List.replicate 65535 0x61 := fun member =>
    absurd (List.eq_of_mem_replicate member) (by decide)
  have length : (CString.ofBlock (List.replicate 65535 0x61)).bytes.length = 65535 := by
    rw [CString.ofBlock_of_notMem noNul, List.length_replicate]
  have datalen : topicsDatalen (List.replicate 40000 (.ofBlock (List.replicate 65535 0x61))) =
      2621520002 := by
    rw [topicsDatalen_eq fun topic member => by
        rw [List.eq_of_mem_replicate member, length], List.map_replicate, length,
      List.sum_replicate_nat]
    rfl
  rintro ⟨data, filled, _⟩
  rw [subscribeBlock] at filled
  rcases Option.bind_eq_some_iff.mp filled with ⟨fields, _, filled⟩
  rw [datalen, fillBlock, if_pos (by decide)] at filled
  cases filled

end Subscribe

end MqttClient.MQTTPacket
