import MqttClient.MQTTClient.Interface
import MqttClient.MQTTPacket.Factory

/-! # `MQTTClient`: one cycle

`MQTTClient_cycle` and the loop of `MQTTClient_run` around it, cut where a thread
lets go of `mqttclient_mutex`. What the operating system and the application answer
is a choice that comes from outside.
-/

namespace MqttClient.MQTTClient

open LinkedList

/-- How `Thread_wait_sem` ends: it takes the semaphore, `sem_trywait` fails with an error
other than EAGAIN, the time is up, or it was too short for a single try. -/
inductive SemaphoreWait
  | taken
  | otherError
  | timedOut
  | untried
  deriving DecidableEq, Repr

/-- The answers to one step: what `select` found about reading and pending writes, and
about writing, what the callback returned, whether the time is up, what `getsockopt`
found (`none` if it fails), and how the semaphore answered. -/
structure Choice where
  read : SelectResult := ⟨0, fun _ => false, fun _ => false⟩
  write : SelectResult := ⟨0, fun _ => false, fun _ => false⟩
  answer : Bool := true
  expired : Bool := false
  error : Option Int := some 0
  semaphore : SemaphoreWait := .taken

/-- What can be observed from outside. `reads` is a call of `MQTTPacket_Factory` for a
client's socket and `received` a packet that it returned, `puback` a PUBACK from the
socket of a client that was handled for a client with this socket, `connectSent` the
body of a CONNECT packet that was handed to the socket. -/
inductive Event
  | published (m : Nat) (call : PublishCall) (result : Published)
  | reads (m : Nat) (sock : SOCKET)
  | received (m : Nat) (sock : SOCKET) (pack : Packet)
  | puback (m client : Nat) (msgid : Int)
  | deliveryComplete (m : Nat) (msgid : Int)
  | messageArrived (m : Nat) (qe : QEntry) (topicLen : Int) (answer : Bool)
  | connectCalled (m : Nat) (options : ConnectOptions)
  | opened (sock : SOCKET)
  | connectSent (m : Nat) (body : List UInt8)
  | connectReturned (m : Nat) (rc : Int)

/-- `Socket_getReadySocket`. Descriptors that are not open have no pending writes. -/
def getReadySocket (choice : Choice) (library : Library) : Option (SOCKET × Int × Library) :=
  match Socket.getReadySocket choice.read choice.write library.sockets library.writes with
  | none => none
  | some (sock, rc, sockets, writes) =>
      if sock ∈ library.descriptors then
        some (sock, rc, { library with sockets := sockets, writes := writes })
      else none

/-- A `getsockopt` of `SO_ERROR`, which returns -1 when it fails. -/
def sockopt : Option Int → Int
  | none => -1
  | some error => error

/-- What `MQTTClient_cycle` does with a packet. A packet that it does not handle itself is
returned. -/
def handlePacket (m : Nat) (sock : SOCKET) (pack : Packet) (library : Library) :
    Option (List Event × Option Packet × Int × Library) :=
  if pack.header.type = MsgType.publish then
    match pack with
    | .publish publish =>
        (MQTTProtocol.handlePublishes publish sock library).map fun handled =>
          ([], none, handled.1, handled.2)
    | _ => none
  else if pack.header.type = MsgType.puback then
    match pack with
    | .ack ⟨_, some msgid, _⟩ =>
        (MQTTProtocol.handlePubacks msgid sock library).map fun handled =>
          (.puback m handled.1 msgid ::
            if (library.objects m).dc then [.deliveryComplete m msgid] else [],
            none, tcpsocketComplete, handled.2)
    | _ => none
  else some ([], some pack, tcpsocketComplete, library)

/-- The part of `MQTTClient_cycle` behind `Socket_getReadySocket`, which holds the mutex:
the packet that is returned, and the return code, which is 0 in front of it. -/
def cycleReady (sock : SOCKET) (library : Library) :
    Option (List Event × Option Packet × Int × Library) :=
  match library.findHandle sock with
  | (none, library) => some ([], none, 0, library)
  | (some m, library) =>
      let client := library.client m
      if client.connectState = .tcpInProgress then some ([], none, 0, library)
      else
        let (call, reads) := MQTTPacket.factory client.mqttVersion client.socket library.reads
        let library := { library with reads := reads }
        match call.result with
        | .undefined => none
        | .returned error none =>
            some ([.reads m client.socket], none,
              if error = tcpsocketInterrupted then 0 else error, library)
        | .returned _ (some pack) =>
            (handlePacket m sock pack library).map fun handled =>
              (.reads m client.socket :: .received m sock pack :: handled.1, handled.2)

/-- `MQTTClient_cycle`: the packet, the socket and the return code. The return code of
`Socket_getReadySocket` is overwritten. -/
def cycle (choice : Choice) (library : Library) :
    Option (List Event × Option Packet × SOCKET × Int × Library) :=
  (getReadySocket choice library).bind fun ready =>
    (cycleReady ready.1 ready.2.2).map fun cycled =>
      (cycled.1, cycled.2.1, ready.1, cycled.2.2)

def ReadsFrom (sock : SOCKET) (library : Library) (event : Event) : Prop :=
  ∃ m ∈ library.handles.values, (library.client m).socket = sock ∧ event = .reads m sock

inductive Cycled (sock : SOCKET) (before : Library) :
    List Event × Option Packet × Int × Library → Prop
  | nothing {events : List Event} {rc : Int} {after : Library}
      (reads : ∀ event ∈ events, ReadsFrom sock before event) (searched : before.Searched after) :
      Cycled sock before (events, none, rc, after)
  | returned {m : Nat} {pack : Packet} {after : Library} (member : m ∈ before.handles.values)
      (owner : (before.client m).socket = sock) (typed : pack.Typed)
      (notPublish : pack.header.type ≠ MsgType.publish) (searched : before.Searched after) :
      Cycled sock before
        ([.reads m sock, .received m sock pack], some pack, tcpsocketComplete, after)
  | publish {m client : Nat} {publish : Publish} {library : Library}
      {inboundMsgs : LinkedList Messages} {outboundQueue : LinkedList AckRequest} {rc : Int}
      {after : Library} (member : m ∈ before.handles.values)
      (owner : (before.client m).socket = sock) (searched : before.Searched library)
      (writes : library.writes = before.writes)
      (handled : MQTTProtocol.handlePublishes publish sock library = some (rc, after))
      (clientMember : client ∈ before.clients.values)
      (clientOwner : (before.client client).socket = sock)
      (sets : before.SetsClient client ((before.client client).withQueues inboundMsgs
        (MQTTProtocol.queued publish (before.client client).messageQueue) outboundQueue) after) :
      Cycled sock before
        ([.reads m sock, .received m sock (.publish publish)], none, rc, after)
  | puback {m client : Nat} {ack : Ack} {msgid rc : Int} {outboundMsgs : LinkedList Messages}
      {library after : Library} (member : m ∈ before.handles.values)
      (owner : (before.client m).socket = sock) (id : ack.msgId = some msgid)
      (searched : before.Searched library)
      (handled : MQTTProtocol.handlePubacks msgid sock library = some (client, after))
      (clientMember : client ∈ before.clients.values)
      (clientOwner : (before.client client).socket = sock)
      (sets : before.SetsClient client ((before.client client).withOutbound
        (before.client client).msgID outboundMsgs) after)
      (values : (before.client client).outboundMsgs.Distinct Messages.msgid →
        outboundMsgs.values =
          MQTTProtocol.retired msgid (before.client client).outboundMsgs.values) :
      Cycled sock before (.reads m sock :: .received m sock (.ack ack) :: .puback m client msgid ::
        (if (before.objects m).dc then [.deliveryComplete m msgid] else []), none, rc, after)

theorem handlePacket_spec {m : Nat} {sock : SOCKET} {pack : Packet} {before library : Library}
    {handled : List Event × Option Packet × Int × Library} (typed : pack.Typed)
    (member : m ∈ before.handles.values) (owner : (before.client m).socket = sock)
    (searched : before.Searched library) (writes : library.writes = before.writes)
    (handling : handlePacket m sock pack library = some handled) :
    Cycled sock before (.reads m sock :: .received m sock pack :: handled.1, handled.2) := by
  unfold handlePacket at handling
  split at handling
  · split at handling
    · rename_i publish _
      rcases Option.map_eq_some_iff.mp handling with ⟨⟨rc, after⟩, published, rfl⟩
      rcases MQTTProtocol.handlePublishes_spec published with
        ⟨client, clientMember, clientOwner, inboundMsgs, outboundQueue, sets⟩
      rw [searched.clients] at clientMember
      rw [searched.client] at clientOwner sets
      exact .publish member owner searched writes published clientMember clientOwner
        (searched.toKeepsObjects.setsClient sets)
    · cases handling
  · rename_i notPublish
    split at handling
    · split at handling
      · rename_i msgid _ _
        rcases Option.map_eq_some_iff.mp handling with ⟨⟨client, after⟩, acknowledged, rfl⟩
        rcases MQTTProtocol.handlePubacks_spec acknowledged with
          ⟨clientMember, clientOwner, outboundMsgs, sets, values⟩
        rw [searched.clients] at clientMember
        rw [searched.client] at clientOwner sets values
        dsimp only
        rw [searched.objects]
        exact .puback member owner rfl searched acknowledged clientMember clientOwner
          (searched.toKeepsObjects.setsClient sets) values
      · cases handling
    · cases handling
      exact .returned member owner typed notPublish searched

theorem cycleReady_spec {sock : SOCKET} {before : Library}
    {result : List Event × Option Packet × Int × Library}
    (cycled : cycleReady sock before = some result) : Cycled sock before result := by
  unfold cycleReady at cycled
  split at cycled
  · rename_i library found
    cases cycled
    exact .nothing (List.forall_mem_nil _) (Library.findHandle_eq found).2
  · rename_i m library found
    rcases Library.findHandle_eq found with ⟨owns, searched⟩
    have writes := Library.writes_findHandle found
    rcases owns m rfl with ⟨member, owner⟩
    have socket : (library.client m).socket = sock := by
      rw [searched.client, owner]
    dsimp only at cycled
    by_cases connecting : (library.client m).connectState = .tcpInProgress
    · rw [if_pos connecting] at cycled
      cases cycled
      exact .nothing (List.forall_mem_nil _) searched
    · rw [if_neg connecting] at cycled
      generalize call : MQTTPacket.factory (library.client m).mqttVersion
        (library.client m).socket library.reads = called at cycled
      have reads : before.Searched { library with reads := called.2 } :=
        searched.trans ⟨⟨⟨rfl, rfl, rfl, rfl, rfl, rfl⟩, rfl⟩, rfl, rfl⟩
      rw [socket] at cycled
      split at cycled
      · cases cycled
      · cases cycled
        refine .nothing (fun event here => ?_) reads
        exact ⟨m, member, owner, List.mem_singleton.mp here⟩
      · rename_i error pack returned
        rcases Option.map_eq_some_iff.mp cycled with ⟨handled, handling, rfl⟩
        have typed := (MQTTPacket.factory_typed (by rw [call]; exact returned)).1
        exact handlePacket_spec typed member owner reads writes handling

/-- Where a thread in `MQTTClient_run` stands without holding the mutex: before it sets
`running`, before `MQTTClient_cycle`, in it behind `Socket_getReadySocket`, behind it, and
in the callback with the head of the queue. -/
inductive LoopState
  | starting
  | ready
  | selected (sock : SOCKET)
  | cycled (sock : SOCKET) (pack : Option Packet)
  | callback (m : Nat) (qe : ListElement QEntry) (pack : Option Packet)

/-- What a thread in `MQTTClient_run` touches next has been freed: the lists of the
library, or the client whose callback it is in. -/
def LoopState.Dangles (library : Library) : LoopState → Prop
  | .starting => False
  | .callback m _ _ => m ∉ library.handles.values
  | _ => library.initialized = false

instance (library : Library) : (loop : LoopState) → Decidable (loop.Dangles library)
  | .starting => .isFalse id
  | .callback m _ _ => inferInstanceAs (Decidable (m ∉ library.handles.values))
  | .ready => inferInstanceAs (Decidable (_ = _))
  | .selected _ => inferInstanceAs (Decidable (_ = _))
  | .cycled _ _ => inferInstanceAs (Decidable (_ = _))

/-- `Thread_post_sem`, which never makes the value larger than 1. -/
def postSem (value : Nat) : Nat := if value = 0 then 1 else value

/-- The end of a round of `MQTTClient_run`: the packet is handed to the thread that waits
for it. -/
def post (choice : Choice) (m : Nat) (pack : Option Packet) (library : Library) : Library :=
  match pack with
  | some pack =>
      if pack.header.type = MsgType.connack then
        library.modify m fun object =>
          { object with pack := some pack, connackSem := postSem object.connackSem }
      else if pack.header.type = MsgType.suback then
        library.modify m fun object =>
          { object with pack := some pack, subackSem := postSem object.subackSem }
      else library
  | none =>
      if (library.client m).connectState = .tcpInProgress then
        library.modify m fun object =>
          { object with
            rc := sockopt choice.error
            c := { object.c with connectState := .notInProgress }
            connectSem := postSem object.connectSem }
      else library

def shownTopicLen (qe : QEntry) : Int :=
  if CString.strlen qe.topicName = qe.topicLen then 0 else qe.topicLen

/-- One step of a thread in `MQTTClient_run` in memory that has not been freed. -/
def loopBody (choice : Choice) (library : Library) :
    LoopState → Option (List Event × LoopState × Library)
  | .starting => some ([], .ready, { library with running := true })
  | .ready =>
      (getReadySocket choice library).map fun ready => ([], .selected ready.1, ready.2.2)
  | .selected sock =>
      (cycleReady sock library).map fun cycled => (cycled.1, .cycled sock cycled.2.1, cycled.2.2.2)
  | .cycled sock pack =>
      match library.findHandle sock with
      | (none, library) => some ([], .ready, library)
      | (some m, library) =>
          match (library.client m).messageQueue.first with
          | some qe =>
              if (library.objects m).ma then some ([], .callback m qe pack, library)
              else some ([], .ready, post choice m pack library)
          | none => some ([], .ready, post choice m pack library)
  | .callback m qe pack =>
      let library :=
        if choice.answer then
          library.modifyClient m fun client =>
            { client with messageQueue := (client.messageQueue.remove qe.content).2 }
        else library
      some ([.messageArrived m qe.value (shownTopicLen qe.value) choice.answer], .ready,
        post choice m pack library)

/-- One step of a thread in `MQTTClient_run`; `none` also when it touches memory that has
been freed. -/
def loopStep (choice : Choice) (library : Library) (loop : LoopState) :
    Option (List Event × LoopState × Library) :=
  if loop.Dangles library then none else loopBody choice library loop

theorem getReadySocket_spec {choice : Choice} {before after : Library} {sock : SOCKET} {rc : Int}
    (ready : getReadySocket choice before = some (sock, rc, after)) :
    before.Searched after ∧ sock ∈ before.descriptors := by
  unfold getReadySocket at ready
  split at ready
  · cases ready
  · rcases Option.ite_none_right_eq_some.mp ready with ⟨opened, same⟩
    cases same
    exact ⟨⟨⟨⟨rfl, rfl, rfl, rfl, rfl, rfl⟩, rfl⟩, rfl, rfl⟩, opened⟩

structure Posted (m : Nat) (pack : Option Packet) (before after : Library) : Prop where
  publications : before.KeepsPublications after
  sets : ∃ connectState connectSem connackSem subackSem rc kept,
    before.Sets m ((before.objects m).withWaits connectState connectSem connackSem subackSem rc
      kept) after ∧
    (connectState = (before.client m).connectState ∨
      (before.client m).connectState = .tcpInProgress ∧ connectState = .notInProgress) ∧
    (connackSem = (before.objects m).connackSem ∨
      ∃ packet, pack = some packet ∧ packet.header.type = MsgType.connack)

theorem post_spec (choice : Choice) (m : Nat) (pack : Option Packet) (library : Library) :
    Posted m pack library (post choice m pack library) := by
  have unchanged : library.Sets m
      ((library.objects m).withWaits (library.client m).connectState
        (library.objects m).connectSem (library.objects m).connackSem
        (library.objects m).subackSem (library.objects m).rc (library.objects m).pack) library :=
    ⟨.refl library, (Function.update_eq_self ..).symm⟩
  unfold post
  split
  · rename_i packet
    split
    · rename_i connack
      exact ⟨⟨rfl, rfl⟩, (library.client m).connectState, _, _, _, _, _,
        ⟨⟨rfl, rfl, rfl, rfl, rfl, rfl⟩, rfl⟩, .inl rfl, .inr ⟨packet, rfl, connack⟩⟩
    · split
      · exact ⟨⟨rfl, rfl⟩, (library.client m).connectState, _, _, _, _, _,
          ⟨⟨rfl, rfl, rfl, rfl, rfl, rfl⟩, rfl⟩, .inl rfl, .inl rfl⟩
      · exact ⟨⟨rfl, rfl⟩, _, _, _, _, _, _, unchanged, .inl rfl, .inl rfl⟩
  · split
    · rename_i inProgress
      exact ⟨⟨rfl, rfl⟩, .notInProgress, _, _, _, _, _, ⟨⟨rfl, rfl, rfl, rfl, rfl, rfl⟩, rfl⟩,
        .inr ⟨inProgress, rfl⟩, .inl rfl⟩
    · exact ⟨⟨rfl, rfl⟩, _, _, _, _, _, _, unchanged, .inl rfl, .inl rfl⟩

inductive Looped (before : Library) : LoopState → List Event × LoopState × Library → Prop
  | started {after : Library} (same : after = { before with running := true }) :
      Looped before .starting ([], .ready, after)
  | selected {sock : SOCKET} {after : Library} (searched : before.Searched after)
      (opened : sock ∈ before.descriptors) : Looped before .ready ([], .selected sock, after)
  | cycled {sock : SOCKET} {result : List Event × Option Packet × Int × Library}
      (spec : Cycled sock before result) :
      Looped before (.selected sock) (result.1, .cycled sock result.2.1, result.2.2.2)
  | lost {sock : SOCKET} {pack : Option Packet} {after : Library}
      (searched : before.Searched after) : Looped before (.cycled sock pack) ([], .ready, after)
  | called {sock : SOCKET} {pack : Option Packet} {m : Nat} {qe : ListElement QEntry}
      {after : Library} (member : m ∈ before.handles.values)
      (owner : (before.client m).socket = sock)
      (head : (before.client m).messageQueue.first = some qe)
      (searched : before.Searched after) :
      Looped before (.cycled sock pack) ([], .callback m qe pack, after)
  | posted {sock : SOCKET} {pack : Option Packet} {m : Nat} {after : Library}
      (member : m ∈ before.handles.values) (owner : (before.client m).socket = sock)
      (posted : Posted m pack before after) :
      Looped before (.cycled sock pack) ([], .ready, after)
  | answered {pack : Option Packet} {m : Nat} {qe : ListElement QEntry} {topicLen : Int}
      {answer : Bool} {library after : Library} (member : m ∈ before.handles.values)
      (publications : before.KeepsPublications library)
      (delivered : before.SetsClient m ((before.client m).withQueues
        (before.client m).inboundMsgs
        (if answer then ((before.client m).messageQueue.remove qe.content).2
          else (before.client m).messageQueue) (before.client m).outboundQueue) library)
      (posted : Posted m pack library after) :
      Looped before (.callback m qe pack)
        ([.messageArrived m qe.value topicLen answer], .ready, after)

theorem Posted.of_searched {m : Nat} {pack : Option Packet} {before library after : Library}
    (searched : before.Searched library) (posted : Posted m pack library after) :
    Posted m pack before after := by
  rcases posted with ⟨publications, _, _, _, _, _, _, sets, connectState, connackSem⟩
  rw [searched.client] at connectState
  rw [searched.objects] at sets connackSem
  exact ⟨searched.toKeepsPublications.trans publications, _, _, _, _, _, _,
    searched.toKeepsObjects.sets sets, connectState, connackSem⟩

theorem loopStep_spec {choice : Choice} {before : Library} {loop : LoopState}
    {result : List Event × LoopState × Library}
    (stepped : loopStep choice before loop = some result) : Looped before loop result := by
  rcases Option.ite_none_left_eq_some.mp stepped with ⟨alive, stepped⟩
  cases loop with
  | starting =>
      cases stepped
      exact .started rfl
  | ready =>
      rcases Option.map_eq_some_iff.mp stepped with ⟨⟨sock, rc, after⟩, ready, rfl⟩
      exact .selected (getReadySocket_spec ready).1 (getReadySocket_spec ready).2
  | selected sock =>
      rcases Option.map_eq_some_iff.mp stepped with ⟨result, cycled, rfl⟩
      exact .cycled (cycleReady_spec cycled)
  | cycled sock pack =>
      simp only [loopBody] at stepped
      split at stepped
      · rename_i library found
        cases stepped
        exact .lost (Library.findHandle_eq found).2
      · rename_i m library found
        rcases Library.findHandle_eq found with ⟨owns, searched⟩
        rcases owns m rfl with ⟨member, owner⟩
        have posted := (post_spec choice m pack library).of_searched searched
        split at stepped
        · rename_i qe head
          rw [searched.client] at head
          split at stepped
          · cases stepped
            exact .called member owner head searched
          · cases stepped
            exact .posted member owner posted
        · cases stepped
          exact .posted member owner posted
  | callback m qe pack =>
      have member : m ∈ before.handles.values := Decidable.not_not.mp alive
      cases stepped
      refine .answered member ?_ ?_ (post_spec choice m pack _)
      · split <;> exact ⟨rfl, rfl⟩
      · split
        · exact ⟨⟨rfl, rfl, rfl, rfl, rfl, rfl⟩, rfl⟩
        · exact ⟨.refl before, (Function.update_eq_self ..).symm⟩

end MqttClient.MQTTClient
