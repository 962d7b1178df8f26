import MqttClient.MQTTClient.InboundStore
import MqttClient.MQTTClient.ReadySockets
import MqttClient.MQTTPacket.SharedReader

/-! # What a step does to the read queues

All threads read through the same queues, and only a cycle calls the packet reader.
-/

namespace MqttClient.MQTTClient

open Foundation LinkedList MQTTPacket MQTTProtocol

def Event.heard : Event → Option ((Nat × SOCKET) × Packet)
  | .received m sock pack => some ((m, sock), pack)
  | _ => none

def heard (events : List Event) : List ((Nat × SOCKET) × Packet) := events.filterMap Event.heard

def packetsFrom (m : Nat) (sock : SOCKET) (events : List Event) : List Packet :=
  ((heard events).filter fun entry => entry.1 = (m, sock)).map Prod.snd

inductive Feeds (before : Library) : Option SOCKET → List Event → Library → Prop
  | unread {sock? : Option SOCKET} {events : List Event} {after : Library}
      (unheard : heard events = []) (same : after.reads = before.reads) :
      Feeds before sock? events after
  | initialized {sock? : Option SOCKET} {events : List Event} {after : Library}
      (alone : before.handles.values = []) (unheard : heard events = [])
      (reads : after.reads = ⟨.start, before.reads.inbound⟩) : Feeds before sock? events after
  | closed {sock? : Option SOCKET} {sock : SOCKET} {events : List Event} {after : Library}
      (fresh : 0 ≤ sock ∧ sock ∉ before.descriptors) (unheard : heard events = [])
      (reads : after.reads = before.reads.withBuffer (before.reads.buffer.cleanup sock)) :
      Feeds before sock? events after
  | cycled {m : Nat} {sock : SOCKET} {events : List Event} {after : Library}
      (member : m ∈ before.handles.values) (owner : (before.client m).socket = sock)
      (reads : after.reads = (factory (before.client m).mqttVersion sock before.reads).2)
      (heard_eq : heard events =
        ((factory (before.client m).mqttVersion sock before.reads).1.result.packet.map
          fun pack => ((m, sock), pack)).toList) :
      Feeds before (some sock) events after

section Heard

variable {events more : List Event} {m : Nat} {sock : SOCKET}

theorem heard_append : heard (events ++ more) = heard events ++ heard more :=
  List.filterMap_append

theorem packetsFrom_append :
    packetsFrom m sock (events ++ more) = packetsFrom m sock events ++ packetsFrom m sock more := by
  simp [packetsFrom, heard_append]

theorem packetsFrom_of_unheard (unheard : heard events = []) : packetsFrom m sock events = [] := by
  simp [packetsFrom, unheard]

theorem mem_heard {pack : Packet} :
    ((m, sock), pack) ∈ heard events ↔ .received m sock pack ∈ events := by
  rw [heard, List.mem_filterMap]
  constructor
  · rintro ⟨event, here, same⟩
    cases event with
    | received =>
        cases same
        exact here
    | _ => cases same
  · intro here
    exact ⟨_, here, rfl⟩

theorem heard_silent (silent : ∀ event ∈ events, event.Silent) : heard events = [] := by
  apply List.filterMap_eq_nil_iff.mpr
  intro event here
  have quiet := silent event here
  cases event with
  | published | reads | received | puback | deliveryComplete | messageArrived => exact quiet.elim
  | connectCalled | opened | connectSent | connectReturned => rfl

theorem heard_conclude {system : System} (outcome : ConnectOutcome) :
    heard (System.conclude m events outcome system).1 = heard events := by
  cases outcome with
  | waits call => rfl
  | returns rc => simp [System.conclude, heard, Event.heard]

end Heard

section Reads

variable {before after : Library} {m : Nat}

theorem heard_handlePacket {sock : SOCKET} {pack : Packet}
    {handled : List Event × Option Packet × Int × Library}
    (handling : handlePacket m sock pack before = some handled) : heard handled.1 = [] := by
  apply List.eq_nil_iff_forall_not_mem.mpr
  rintro ⟨⟨owner, other⟩, received⟩ here
  exact handlePacket_received handling (mem_heard.mp here)

theorem reads_handlePacket {sock : SOCKET} {pack : Packet}
    {handled : List Event × Option Packet × Int × Library}
    (handling : handlePacket m sock pack before = some handled) :
    handled.2.2.2.reads = before.reads := by
  unfold handlePacket at handling
  split at handling
  · split at handling
    · rcases Option.map_eq_some_iff.mp handling with ⟨_, published, rfl⟩
      exact reads_handlePublishes published
    · cases handling
  · split at handling
    · split at handling
      · rcases Option.map_eq_some_iff.mp handling with ⟨_, acknowledged, rfl⟩
        exact reads_handlePubacks acknowledged
      · cases handling
    · cases handling
      rfl

theorem cycleReady_feeds {sock : SOCKET} {result : List Event × Option Packet × Int × Library}
    (cycled : cycleReady sock before = some result) :
    Feeds before (some sock) result.1 result.2.2.2 := by
  unfold cycleReady at cycled
  split at cycled
  · rename_i library found
    cases cycled
    exact .unread rfl (Library.reads_findHandle found)
  · rename_i m library found
    rcases Library.findHandle_eq found with ⟨owns, searched⟩
    rcases owns m rfl with ⟨member, owner⟩
    have same := Library.reads_findHandle found
    dsimp only at cycled
    rw [searched.client, owner, same] at cycled
    by_cases connecting : (before.client m).connectState = .tcpInProgress
    · rw [if_pos connecting] at cycled
      cases cycled
      exact .unread rfl same
    · rw [if_neg connecting] at cycled
      split at cycled
      · cases cycled
      · rename_i error returned
        cases cycled
        refine .cycled member owner rfl ?_
        rw [returned]
        rfl
      · rename_i error pack returned
        rcases Option.map_eq_some_iff.mp cycled with ⟨handled, handling, rfl⟩
        refine .cycled member owner (reads_handlePacket handling) ?_
        rw [returned]
        exact congrArg (List.cons ((m, sock), pack)) (heard_handlePacket handling)

theorem reads_getReadySocket {choice : Choice} {sock : SOCKET} {rc : Int}
    (ready : getReadySocket choice before = some (sock, rc, after)) :
    after.reads = before.reads := by
  unfold getReadySocket at ready
  split at ready
  · cases ready
  · rcases Option.ite_none_right_eq_some.mp ready with ⟨_, same⟩
    cases same
    rfl

theorem reads_post (choice : Choice) (m : Nat) (pack : Option Packet) (library : Library) :
    (post choice m pack library).reads = library.reads := by
  unfold post
  split
  · split
    · rfl
    · split <;> rfl
  · split <;> rfl

theorem loopStep_feeds {choice : Choice} {loop : LoopState}
    {result : List Event × LoopState × Library}
    (stepped : loopStep choice before loop = some result) :
    Feeds before loop.serves result.1 result.2.2 := by
  rcases Option.ite_none_left_eq_some.mp stepped with ⟨_, stepped⟩
  cases loop with
  | starting =>
      cases stepped
      exact .unread rfl rfl
  | ready =>
      rcases Option.map_eq_some_iff.mp stepped with ⟨ready, found, rfl⟩
      exact .unread rfl (reads_getReadySocket found)
  | selected sock =>
      rcases Option.map_eq_some_iff.mp stepped with ⟨cycled, ready, rfl⟩
      exact cycleReady_feeds ready
  | cycled sock pack =>
      simp only [loopBody] at stepped
      split at stepped
      · rename_i library found
        cases stepped
        exact .unread rfl (Library.reads_findHandle found)
      · rename_i m library found
        have same := Library.reads_findHandle found
        split at stepped
        · split at stepped
          · cases stepped
            exact .unread rfl same
          · cases stepped
            exact .unread rfl ((reads_post ..).trans same)
        · cases stepped
          exact .unread rfl ((reads_post ..).trans same)
  | callback m qe pack =>
      cases stepped
      refine .unread rfl ((reads_post ..).trans ?_)
      split <;> rfl

theorem sendConnect_reads {mqttVersion rc : Int} {events : List Event}
    (sent : sendConnect m mqttVersion before = some (events, rc, after)) :
    heard events = [] ∧ after.reads = before.reads := by
  refine ⟨heard_silent (sendConnect_spec sent).1.silent, ?_⟩
  rcases Option.bind_eq_some_iff.mp sent with ⟨block, _, sent⟩
  rcases Option.map_eq_some_iff.mp sent with ⟨_, _, same⟩
  cases same
  rfl

theorem waitforStep_feeds {choice : Choice} {packetType : Nat} {waiting : Waiting}
    {result : List Event × Waiting × Library}
    (stepped : waitforStep choice m packetType before waiting = some result) :
    Feeds before waiting.serves result.1 result.2.2 := by
  cases waiting with
  | waitfor =>
      simp only [waitforStep] at stepped
      split at stepped
      · cases stepped
        exact .unread rfl rfl
      · split at stepped
        all_goals
          cases stepped
          exact .unread rfl rfl
  | semaphore =>
      simp only [waitforStep] at stepped
      split at stepped
      all_goals
        rcases Option.map_eq_some_iff.mp stepped with ⟨_, _, rfl⟩
        exact .unread rfl rfl
  | awake rc =>
      cases stepped
      exact .unread rfl rfl
  | polling =>
      rcases Option.map_eq_some_iff.mp stepped with ⟨ready, found, rfl⟩
      exact .unread rfl (reads_getReadySocket found)
  | selected sock =>
      rcases Option.map_eq_some_iff.mp stepped with ⟨cycled, ready, rfl⟩
      exact cycleReady_feeds ready
  | polled sock pack rc =>
      cases stepped
      exact .unread rfl rfl
  | done pack rc => cases stepped

theorem connectStep_feeds {choice : Choice} {call : ConnectCall}
    {result : List Event × ConnectOutcome × Library}
    (stepped : connectStep choice call before = some result) :
    Feeds before call.waiting.serves result.1 result.2.2 := by
  unfold connectStep at stepped
  split at stepped
  · unfold resumeConnect at stepped
    split at stepped
    · split at stepped
      · cases stepped
        exact .unread rfl rfl
      · rcases Option.map_eq_some_iff.mp stepped with ⟨⟨events, rc, after⟩, sent, same⟩
        rcases sendConnect_reads sent with ⟨unheard, reads⟩
        dsimp only at same
        split at same
        all_goals
          cases same
          exact .unread unheard reads
    · cases stepped
      exact .unread rfl rfl
  · rcases Option.map_eq_some_iff.mp stepped with ⟨waited, waits, rfl⟩
    exact waitforStep_feeds waits

theorem socketNew_feeds {newSocket : NewSocket} {rc : Int} {sock : SOCKET}
    (fresh : newSocket.Fresh before)
    (created : socketNew newSocket before = some (rc, sock, after)) :
    Feeds before none [] after := by
  cases newSocket with
  | failed error other opened =>
      cases opened with
      | none =>
          cases created
          exact .unread rfl rfl
      | some opened =>
          cases created
          exact .closed fresh rfl rfl
  | inProgress opened =>
      rcases Option.ite_none_left_eq_some.mp created with ⟨_, same⟩
      cases same
      exact .unread rfl rfl
  | connected opened =>
      rcases Option.ite_none_left_eq_some.mp created with ⟨_, same⟩
      cases same
      exact .unread rfl rfl

theorem Feeds.of_reads {library final : Library} {events : List Event}
    (feeds : Feeds library none [] after) (reads : library.reads = before.reads)
    (descriptors : library.descriptors = before.descriptors)
    (handles : library.handles = before.handles) (unheard : heard events = [])
    (same : final.reads = after.reads) : Feeds before none events final := by
  cases feeds with
  | unread _ unchanged => exact .unread unheard (same.trans (unchanged.trans reads))
  | initialized alone _ anew =>
      rw [handles] at alone
      rw [reads, ← same] at anew
      exact .initialized alone unheard anew
  | closed fresh _ cleaned =>
      rw [descriptors] at fresh
      rw [reads, ← same] at cleaned
      exact .closed fresh unheard cleaned

theorem Feeds.of_heard {sock? : Option SOCKET} {library : Library} {events more : List Event}
    (feeds : Feeds before sock? events after) (same : heard more = heard events)
    (unchanged : library = after) : Feeds before sock? more library := by
  subst unchanged
  cases feeds with
  | unread unheard reads => exact .unread (same.trans unheard) reads
  | initialized alone unheard anew => exact .initialized alone (same.trans unheard) anew
  | closed fresh unheard cleaned => exact .closed fresh (same.trans unheard) cleaned
  | cycled member owner reads heard_eq => exact .cycled member owner reads (same.trans heard_eq)

theorem protocolConnect_feeds {mqttVersion rc : Int} {newSocket : NewSocket}
    {events : List Event} (fresh : newSocket.Fresh before)
    (connected : protocolConnect m mqttVersion newSocket before = some (events, rc, after)) :
    Feeds before none events after := by
  rcases Option.bind_eq_some_iff.mp connected with ⟨⟨new, sock, library⟩, created, rest⟩
  have feeds := socketNew_feeds fresh created
  dsimp only at rest
  split at rest
  · cases rest
    exact feeds.of_reads rfl rfl rfl rfl rfl
  · split at rest
    · rcases Option.map_eq_some_iff.mp rest with ⟨⟨sends, rc, final⟩, sent, same⟩
      cases same
      rcases sendConnect_reads sent with ⟨unheard, reads⟩
      exact feeds.of_reads rfl rfl rfl unheard reads
    · cases rest
      exact feeds.of_reads rfl rfl rfl rfl rfl

theorem beginConnect_feeds {options : ConnectOptions} {attempt : Attempt}
    {result : List Event × Bool × ConnectOutcome × Library}
    (began : beginConnect m options attempt before = some result) :
    Feeds before none result.1 result.2.2.2 := by
  unfold beginConnect at began
  split at began
  · cases began
  · dsimp only at began
    split at began
    · cases began
      exact .unread rfl rfl
    · split at began
      · cases began
        exact .unread rfl rfl
      · split at began
        · rename_i fresh
          rcases Option.map_eq_some_iff.mp began with ⟨⟨events, rc, after⟩, connected, rfl⟩
          have feeds := protocolConnect_feeds fresh connected
          cases feeds with
          | unread unheard same => exact .unread unheard same
          | initialized alone unheard anew => exact .initialized alone unheard anew
          | closed fresh unheard cleaned => exact .closed fresh unheard cleaned
        · cases began

theorem create_feeds (registered : Registered before) (clientId : CString) :
    Feeds before none [] (create clientId before) := by
  cases ready : before.initialized with
  | true =>
      refine .unread rfl ?_
      simp [create, ready]
  | false =>
      refine .initialized (registered.initialized ready) rfl ?_
      simp [create, ready, initializeLibrary]

theorem destroy_reads (destroyed : destroy m before = some after) :
    after.reads = before.reads := by
  rcases Option.map_eq_some_iff.mp destroyed with ⟨publications, _, same⟩
  dsimp only at same
  split at same
  · rw [← same]
    rfl
  · rw [← same]

theorem setCallbacks_reads (m : Nat) (ma dc : Bool) (library : Library) :
    (setCallbacks m ma dc library).2.reads = library.reads := by
  unfold setCallbacks
  split <;> rfl

theorem startPublishCommon_reads {publish : Publish} {qos retained rc : Int}
    (started : startPublishCommon m publish qos retained before = some (rc, after)) :
    after.reads = before.reads := by
  unfold startPublishCommon at started
  split at started
  · cases started
  · dsimp only at started
    split at started
    all_goals
      cases started
      rfl

theorem startPublish_reads {publish : Publish} {qos retained rc : Int}
    (started : startPublish m publish qos retained before = some (rc, after)) :
    after.reads = before.reads := by
  by_cases positive : qos > 0
  · rw [startPublish_eq positive] at started
    rcases Option.map_eq_some_iff.mp started with ⟨sent, _, same⟩
    cases same
    rfl
  · rw [startPublish, if_neg positive] at started
    exact startPublishCommon_reads started

theorem publish5_reads {call : PublishCall} {result : Published}
    (published : publish5 m call before = some (result, after)) : after.reads = before.reads := by
  unfold publish5 at published
  split at published
  · cases published
  · dsimp only at published
    split at published
    · cases published
      rfl
    · rcases Option.map_eq_some_iff.mp published with ⟨⟨rc, final⟩, started, same⟩
      cases same
      rw [startPublish_reads started]
      rfl

theorem subscribe_reads {topic : CString} {qos rc : Int}
    (subscribed : subscribe m topic qos before = some (rc, after)) :
    after.reads = before.reads := by
  unfold subscribe at subscribed
  rcases Option.map_eq_some_iff.mp subscribed with ⟨sent, _, same⟩
  rw [Prod.mk.injEq] at same
  rw [← same.2]

end Reads

theorem step_feeds {action : Action} {before : System} {result : List Event × System}
    (wellFormed : before.WellFormed) (stepped : step action before = some result) :
    Feeds before.library (served action before) result.1 result.2.library := by
  cases action with
  | create clientId =>
      cases stepped
      exact create_feeds wellFormed.registered clientId
  | destroy m =>
      rcases Option.ite_none_right_eq_some.mp stepped with ⟨_, stepped⟩
      rcases System.call_eq_some stepped with ⟨_, events, library, called, rfl⟩
      rcases Option.map_eq_some_iff.mp called with ⟨library, destroyed, same⟩
      cases same
      exact .unread rfl (destroy_reads destroyed)
  | setCallbacks m ma dc =>
      rcases System.call_eq_some stepped with ⟨_, events, library, called, rfl⟩
      cases called
      exact .unread rfl (setCallbacks_reads ..)
  | publish m call =>
      rcases System.call_eq_some stepped with ⟨_, events, library, called, rfl⟩
      rcases Option.map_eq_some_iff.mp called with ⟨⟨result, library⟩, published, same⟩
      cases same
      exact .unread rfl (publish5_reads published)
  | subscribe m topic qos =>
      rcases System.call_eq_some stepped with ⟨_, events, library, called, rfl⟩
      rcases Option.map_eq_some_iff.mp called with ⟨⟨rc, after⟩, subscribed, same⟩
      rw [Prod.mk.injEq] at same
      rcases same with ⟨rfl, rfl⟩
      exact .unread rfl (subscribe_reads subscribed)
  | connect m options attempt =>
      rcases Option.ite_none_right_eq_some.mp stepped with ⟨_, stepped⟩
      rcases Option.map_eq_some_iff.mp stepped with ⟨⟨events, starts, outcome, library⟩, began, rfl⟩
      rw [System.conclude_library]
      exact (beginConnect_feeds began).of_heard (heard_conclude outcome) rfl
  | connectStep choice =>
      rcases connectStep_eq_some stepped with
        ⟨call, events, outcome, library, here, connected, rfl⟩
      rw [served, here, System.conclude_library]
      exact (connectStep_feeds connected).of_heard (heard_conclude outcome) rfl
  | loopStep index choice =>
      simp only [step, System.stepLoop] at stepped
      cases found : before.loops[index]? with
      | none =>
          rw [found] at stepped
          cases stepped
      | some loop =>
          rw [found] at stepped
          rcases Option.map_eq_some_iff.mp stepped with ⟨⟨events, next, library⟩, looped, rfl⟩
          have feeds := loopStep_feeds looped
          rw [served, found]
          exact feeds

end MqttClient.MQTTClient
