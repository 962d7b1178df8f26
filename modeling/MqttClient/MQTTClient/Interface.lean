import MqttClient.MQTTProtocol.Receiving

/-! # `MQTTClient`: the calls of the application

`MQTTClient_create`, `MQTTClient_destroy`, `MQTTClient_setCallbacks`,
`MQTTClient_publish5` and `MQTTClient_subscribe`. Each is one step: all but the first
hold `mqttclient_mutex` from their first access to the shared state to their last.
-/

namespace MqttClient.MQTTClient

open LinkedList

/-- The record that `MQTTClient_create` makes. -/
def newClient (clientId : CString) : MQTTClients where
  c :=
    { clientID := clientId
      username := .null
      password := .null
      passwordlen := 0
      connectState := .notInProgress
      socket := 0
      msgID := 0
      keepAliveInterval := 0
      inboundMsgs := .zero
      outboundMsgs := .zero
      messageQueue := .zero
      outboundQueue := .zero
      mqttVersion := 4 }
  ma := false
  dc := false
  connectSem := 0
  connackSem := 0
  subackSem := 0
  rc := 0
  pack := none

/-- What `MQTTClient_create` does when `library_initialized` is not set. -/
def initializeLibrary (library : Library) : Library :=
  { library with
    initialized := true
    handles := .zero
    clients := .zero
    sockets := { Sockets.start with wset := library.sockets.wset }
    reads := { library.reads with buffer := .start }
    writes :=
      { library.writes with
        writePending := .zero
        pendingWset := fun _ => false
        writes := .zero } }

def create (clientId : CString) (library : Library) : Library :=
  let m := library.created
  let library := if library.initialized then library else initializeLibrary library
  { library with
    created := m + 1
    handles := library.handles.append m
    clients := library.clients.append m
    objects := Function.update library.objects m (newClient clientId) }

/-- `MQTTClient_terminate`. The lists that it frees are made anew by the next
`MQTTClient_create`. -/
def terminate (library : Library) : Library :=
  { library with
    initialized := false
    handles := .zero
    clients := .zero
    writes := { library.writes with writes := .zero } }

def destroy (m : Nat) (library : Library) : Option Library :=
  (MQTTProtocol.freeClient (library.client m) library.publications).map fun publications =>
    let library :=
      { library with
        publications := publications
        clients := (library.clients.unlink (hasKey id m)).2
        handles := (library.handles.unlink (hasKey id m)).2 }
    if library.clients.count = 0 then terminate library else library

/-- `MQTTClient_setCallbacks`, with whether `ma` and `dc` are not NULL. -/
def setCallbacks (m : Nat) (ma dc : Bool) (library : Library) : Int × Library :=
  if !ma ∨ (library.client m).connectState ≠ .notInProgress then (mqttclientFailure, library)
  else (mqttclientSuccess, library.modify m fun object => { object with ma := ma, dc := dc })

/-- The arguments of `MQTTClient_publish5`, whose `payloadlen` is the length of the
payload, and what the memory that it allocates for the publish contains. -/
structure PublishCall where
  topicName : CString
  payload : List UInt8
  qos : Int
  retained : Int
  memory : Publish

/-- The `Publish` that `MQTTClient_publish5` fills in. It leaves the header, the length
of the topic and the properties as they are in memory. -/
def PublishCall.publish (call : PublishCall) (msgid mqttVersion : Int) : Publish :=
  { call.memory with
    topic := call.topicName.bytes
    payload := call.payload
    payloadlen := call.payload.length
    msgId := msgid
    mqttVersion := mqttVersion }

/-- What `MQTTClient_publish5` returns: the reason code, the delivery token if one was
assigned, and the message id that it obtained or 0. -/
structure Published where
  rc : Int
  deliveryToken : Option Int
  msgid : Int
  deriving DecidableEq, Repr

def publish5 (m : Nat) (call : PublishCall) (library : Library) : Option (Published × Library) :=
  match if call.qos > 0 then MQTTProtocol.assignMsgId (library.client m)
    else some (0, library.client m) with
  | none => none
  | some (msgid, client) =>
      let library := library.modifyClient m fun _ => client
      if call.qos > 0 ∧ msgid = 0 then
        some (⟨mqttclientMaxMessagesInflight, none, 0⟩, library)
      else
        let p := call.publish msgid client.mqttVersion
        (MQTTProtocol.startPublish m p call.qos call.retained library).map fun started =>
          (⟨started.1, if call.qos > 0 then some msgid else none, msgid⟩, started.2)

/-- `MQTTClient_subscribe`: the reason code does not depend on the write. -/
def subscribe (m : Nat) (topic : CString) (qos : Int) (library : Library) :
    Option (Int × Library) :=
  let client := library.client m
  (MQTTPacket.sendSubscribe [(topic, qos)] 0 0 client library.writes).map fun sent =>
    (if qos = 0x80 then 0x80 else 0, { library with writes := sent.2 })

theorem subscribe_searched {m : Nat} {topic : CString} {qos rc : Int} {before after : Library}
    (subscribed : subscribe m topic qos before = some (rc, after)) : before.Searched after := by
  unfold subscribe at subscribed
  rcases Option.map_eq_some_iff.mp subscribed with ⟨sent, _, same⟩
  rw [Prod.mk.injEq] at same
  rcases same with ⟨_, rfl⟩
  exact ⟨⟨⟨rfl, rfl, rfl, rfl, rfl, rfl⟩, rfl⟩, rfl, rfl⟩

/-- The fields of `MQTTClient_connectOptions` that end up in a CONNECT packet, or should:
nothing reads `keepAliveInterval`. -/
structure ConnectOptions where
  username : Option CString := none
  password : Option CString := none
  mqttVersion : Int := 4
  keepAliveInterval : Int := 0

/-! ## What creating and destroying a client changes -/

structure Registered (library : Library) : Prop where
  clients : library.clients.values = library.handles.values
  distinct : library.handles.values.Nodup
  old : ∀ m ∈ library.handles.values, m < library.created
  initialized : library.initialized = false → library.handles.values = []
  blank : ∀ m, library.created ≤ m → ∃ clientId, library.objects m = newClient clientId

/-- What `MQTTClient_create` leaves: one more client. -/
structure Creates (clientId : CString) (before after : Library) : Prop
    extends before.KeepsPublications after where
  initialized : after.initialized = true
  handles : after.handles.values = before.handles.values ++ [before.created]
  clients : after.clients.values = before.clients.values ++ [before.created]
  created : after.created = before.created + 1
  objects : after.objects = Function.update before.objects before.created (newClient clientId)
  descriptors : after.descriptors = before.descriptors
  running : after.running = before.running

theorem create_spec {before : Library} (registered : Registered before) (clientId : CString) :
    Creates clientId before (create clientId before) := by
  cases ready : before.initialized with
  | true =>
      constructor
      all_goals simp [create, ready]
      exact ⟨rfl, rfl⟩
  | false =>
      have none := registered.initialized ready
      have other := registered.clients.trans none
      constructor
      all_goals simp [create, ready, initializeLibrary, none, other]
      exact ⟨rfl, rfl⟩

/-- What `MQTTClient_destroy` leaves: one client less. The records stay in memory. -/
structure Destroys (m : Nat) (before after : Library) : Prop where
  freed : MQTTProtocol.freeClient (before.client m) before.publications = some after.publications
  pendingWrites : after.pendingWrites = before.pendingWrites
  initialized : after.initialized = before.initialized ∨
    after.initialized = false ∧ after.handles.values = []
  handles : after.handles.values = before.handles.values.filter fun other => other ≠ m
  clients : after.clients.values = before.clients.values.filter fun other => other ≠ m
  created : after.created = before.created
  objects : after.objects = before.objects
  descriptors : after.descriptors = before.descriptors
  running : after.running = before.running

theorem destroy_spec {before after : Library} {m : Nat} (registered : Registered before)
    (destroyed : destroy m before = some after) : Destroys m before after := by
  rcases Option.map_eq_some_iff.mp destroyed with ⟨publications, freed, same⟩
  have distinct : before.handles.Distinct id := by
    simpa [Distinct] using registered.distinct
  have clientsDistinct : before.clients.Distinct id := by
    rw [Distinct, registered.clients]
    exact distinct
  have handles := distinct.values_unlink_hasKey m
  have clients := clientsDistinct.values_unlink_hasKey m
  dsimp only at same
  split at same
  · rename_i empty
    have clientsEmpty : (before.clients.unlink (hasKey id m)).2.values = [] := by
      rw [values, List.length_eq_zero_iff.mp empty, List.map_nil]
    rw [clientsEmpty] at clients
    have handlesEmpty := clients
    rw [registered.clients] at handlesEmpty
    subst same
    exact ⟨freed, rfl, .inr ⟨rfl, rfl⟩, handlesEmpty, clients, rfl, rfl, rfl, rfl⟩
  · subst same
    exact ⟨freed, rfl, .inl rfl, handles, clients, rfl, rfl, rfl, rfl⟩

section Registered

variable {before after : Library}

theorem Registered.create (registered : Registered before) (clientId : CString) :
    Registered (create clientId before) := by
  have creates := create_spec registered clientId
  constructor
  · rw [creates.clients, creates.handles, registered.clients]
  · rw [creates.handles]
    refine List.Nodup.append registered.distinct (List.nodup_singleton _) ?_
    intro m member same
    exact absurd (registered.old m member) (by simp [List.mem_singleton.mp same])
  · intro m member
    rw [creates.handles, List.mem_append, List.mem_singleton] at member
    rw [creates.created]
    rcases member with member | rfl
    · exact Nat.lt_succ_of_lt (registered.old m member)
    · exact Nat.lt_succ_self _
  · intro missing
    rw [creates.initialized] at missing
    cases missing
  · intro m fresh
    rw [creates.created] at fresh
    rw [creates.objects, Function.update_of_ne (by omega)]
    exact registered.blank m (by omega)

theorem Registered.destroy {m : Nat} (registered : Registered before)
    (destroyed : destroy m before = some after) : Registered after := by
  have destroys := destroy_spec registered destroyed
  constructor
  · rw [destroys.clients, destroys.handles, registered.clients]
  · rw [destroys.handles]
    exact registered.distinct.filter _
  · intro other member
    rw [destroys.handles] at member
    rw [destroys.created]
    exact registered.old other (List.mem_of_mem_filter member)
  · intro missing
    rcases destroys.initialized with same | ⟨_, empty⟩
    · rw [same] at missing
      rw [destroys.handles, registered.initialized missing, List.filter_nil]
    · exact empty
  · intro other fresh
    rw [destroys.created] at fresh
    rw [destroys.objects]
    exact registered.blank other fresh

theorem Registered.of_keeps (registered : Registered before)
    (initialized : after.initialized = before.initialized)
    (handles : after.handles.values = before.handles.values)
    (clients : after.clients.values = before.clients.values)
    (created : after.created = before.created)
    (untouched : ∀ m, before.created ≤ m → after.objects m = before.objects m) :
    Registered after := by
  constructor
  · rw [clients, handles, registered.clients]
  · rw [handles]
    exact registered.distinct
  · rw [handles, created]
    exact registered.old
  · rw [initialized, handles]
    exact registered.initialized
  · intro m fresh
    rw [created] at fresh
    rw [untouched m fresh]
    exact registered.blank m fresh

theorem Registered.of_keepsMessages (registered : Registered before)
    (keeps : before.KeepsMessages after) : Registered after :=
  registered.of_keeps keeps.initialized keeps.handles keeps.clients keeps.created keeps.untouched

theorem Registered.of_sets (registered : Registered before) {m : Nat} {object : MQTTClients}
    (old : m < before.created) (sets : before.Sets m object after) : Registered after := by
  refine registered.of_keeps sets.initialized sets.handles sets.clients sets.created
    fun other fresh => ?_
  rw [sets.objects, Function.update_of_ne (by omega)]

end Registered

/-! ## What `MQTTClient_publish5` changes -/

variable {before after : Library} {m : Nat} {call : PublishCall} {result : Published}

theorem publish5_sets (published : publish5 m call before = some (result, after)) :
    ∃ msgID outboundMsgs,
      before.SetsClient m ((before.client m).withOutbound msgID outboundMsgs) after := by
  rw [publish5] at published
  split at published
  · cases published
  · rename_i msgid client numbering
    have numbered := Library.modifyClient_sets m (fun _ => client) before
    have sent : ∃ msgID outboundMsgs,
        client = (before.client m).withOutbound msgID outboundMsgs := by
      by_cases positive : call.qos > 0
      · rw [if_pos positive] at numbering
        rcases MQTTProtocol.assignMsgId_eq numbering with ⟨msgID, outboundMsgs, same, _⟩
        exact ⟨msgID, outboundMsgs, same⟩
      · rw [if_neg positive] at numbering
        cases numbering
        exact ⟨_, _, rfl⟩
    rcases sent with ⟨msgID, outboundMsgs, rfl⟩
    dsimp only at published
    split at published
    · cases published
      exact ⟨msgID, outboundMsgs, numbered⟩
    · rcases Option.map_eq_some_iff.mp published with ⟨⟨rc, final⟩, started, same⟩
      cases same
      by_cases positive : call.qos > 0
      · rw [MQTTProtocol.startPublish_eq positive] at started
        rcases Option.map_eq_some_iff.mp started with ⟨sent, _, same⟩
        cases same
        have written (library : Library) :
            library.KeepsObjects { library with writes := sent.2 } :=
          ⟨⟨rfl, rfl, rfl, rfl, rfl, rfl⟩, rfl⟩
        have kept := (numbered.trans (MQTTProtocol.withMessage_sets m
          (call.publish msgid (before.client m).mqttVersion) call.qos call.retained _)).keepsObjects
            (written _)
        rw [numbered.client_self] at kept
        exact ⟨_, _, kept⟩
      · rw [MQTTProtocol.startPublish, if_neg positive] at started
        exact ⟨msgID, outboundMsgs,
          numbered.keepsObjects (MQTTProtocol.startPublishCommon_keepsObjects started)⟩

theorem publish5_of_qos0 (qos0 : ¬call.qos > 0)
    (published : publish5 m call before = some (result, after)) :
    before.KeepsObjects after ∧ result.msgid = 0 := by
  rw [publish5, if_neg qos0] at published
  dsimp only at published
  rw [if_neg (fun both => qos0 both.1)] at published
  rcases Option.map_eq_some_iff.mp published with ⟨⟨rc, final⟩, started, same⟩
  cases same
  rw [MQTTProtocol.startPublish, if_neg qos0] at started
  have unchanged : before.KeepsObjects (before.modifyClient m fun _ => before.client m) :=
    ⟨⟨rfl, rfl, rfl, rfl, rfl, rfl⟩, Function.update_eq_self ..⟩
  exact ⟨unchanged.trans (MQTTProtocol.startPublishCommon_keepsObjects started), rfl⟩

theorem publish5_of_qos12 (positive : call.qos > 0) (numbered : (before.client m).Numbered) :
    ∃ msgid outboundMsgs, outboundMsgs.elements = (before.client m).outboundMsgs.elements ∧
      (if msgid ≠ 0 then (before.client m).Free msgid ∧ msgid ≠ (before.client m).msgID
        else ¬(before.client m).IdAvailable) ∧
      ∃ library, before.SetsClient m
          ((before.client m).withOutbound
            (if msgid ≠ 0 then msgid else (before.client m).msgID) outboundMsgs) library ∧
        library.publications = before.publications ∧ library.writes = before.writes ∧
        publish5 m call before =
          if msgid = 0 then some (⟨mqttclientMaxMessagesInflight, none, 0⟩, library)
          else
            (MQTTProtocol.startPublish m (call.publish msgid (before.client m).mqttVersion)
              call.qos call.retained library).map fun started =>
                (⟨started.1, some msgid, msgid⟩, started.2) := by
  rcases MQTTProtocol.assignMsgId_spec numbered with
    ⟨msgid, outboundMsgs, elements, assigned, free⟩
  refine ⟨msgid, outboundMsgs, elements, free, before.modifyClient m fun _ =>
    (before.client m).withOutbound (if msgid ≠ 0 then msgid else (before.client m).msgID)
      outboundMsgs, ⟨⟨rfl, rfl, rfl, rfl, rfl, rfl⟩, rfl⟩, rfl, rfl, ?_⟩
  rw [publish5, if_pos positive, assigned]
  dsimp only
  by_cases none : msgid = 0
  · rw [if_pos ⟨positive, none⟩, if_pos none]
    rfl
  · rw [if_neg (fun both => none both.2), if_neg none]
    simp only [if_pos positive]
    rfl

end MqttClient.MQTTClient
