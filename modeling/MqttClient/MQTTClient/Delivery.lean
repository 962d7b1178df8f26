import MqttClient.MQTTClient.Connections

/-! # Delivering messages

The messages that `messageArrived` takes, and those that wait in a client's queue, are the
PUBLISH packets received for it, in their order.
-/

namespace MqttClient.MQTTClient

open Foundation LinkedList MQTTProtocol

structure Arrival where
  topic : List UInt8
  topicLen : Int
  payload : List UInt8
  qos : Int
  retain : Int
  dup : Int
  msgid : Int
  deriving DecidableEq

def Arrival.ofPublish (publish : Publish) : Arrival :=
  ⟨publish.topic, publish.topiclen, publish.payload, publish.header.qos, publish.header.retain,
    publish.header.dup, publish.msgId⟩

def Arrival.ofEntry (qe : QEntry) : Arrival :=
  ⟨qe.topicName, qe.topicLen, qe.msg.payload, qe.msg.qos, qe.msg.retained, qe.msg.dup,
    qe.msg.msgid⟩

def arrival (m : Nat) : Event → Option Arrival
  | .received client _ (.publish publish) =>
      if client = m ∧ (publish.header.qos = 0 ∨ publish.header.qos = 1) then
        some (.ofPublish publish)
      else none
  | _ => none

def delivery (m : Nat) : Event → Option Arrival
  | .messageArrived client qe _ answer => if client = m ∧ answer then some (.ofEntry qe) else none
  | _ => none

def arrivals (m : Nat) (events : List Event) : List Arrival := events.filterMap (arrival m)

def deliveries (m : Nat) (events : List Event) : List Arrival := events.filterMap (delivery m)

def waiting (m : Nat) (library : Library) : List Arrival :=
  (library.client m).messageQueue.values.map .ofEntry

def LoopState.AtHead (library : Library) : LoopState → Prop
  | .callback m qe _ => (library.client m).messageQueue.first = some qe
  | _ => True

def Event.Elsewhere (m : Nat) (event : Event) : Prop :=
  arrival m event = none ∧ delivery m event = none

section Steps

variable {before after : Library} {m : Nat} {events : List Event}

theorem arrivals_elsewhere (elsewhere : ∀ event ∈ events, event.Elsewhere m) :
    arrivals m events = [] :=
  List.filterMap_eq_nil_iff.mpr fun event here => (elsewhere event here).1

theorem deliveries_elsewhere (elsewhere : ∀ event ∈ events, event.Elsewhere m) :
    deliveries m events = [] :=
  List.filterMap_eq_nil_iff.mpr fun event here => (elsewhere event here).2

def Ordered (m : Nat) (events : List Event) (before after : Library) : Prop :=
  deliveries m events ++ waiting m after = waiting m before ++ arrivals m events

theorem Ordered.elsewhere (elsewhere : ∀ event ∈ events, event.Elsewhere m)
    (same : (after.client m).messageQueue = (before.client m).messageQueue) :
    Ordered m events before after := by
  rw [Ordered, arrivals_elsewhere elsewhere, deliveries_elsewhere elsewhere, waiting, waiting, same,
    List.nil_append, List.append_nil]

theorem Event.Silent.elsewhere {event : Event} (silent : event.Silent) : event.Elsewhere m := by
  cases event with
  | published | reads | received | puback | deliveryComplete | messageArrived => exact silent.elim
  | connectCalled | opened | connectSent | connectReturned => exact ⟨rfl, rfl⟩

theorem ofEntry_queueEntry {publish : Publish}
    (qos01 : publish.header.qos = 0 ∨ publish.header.qos = 1) :
    Arrival.ofEntry (queueEntry publish) = .ofPublish publish := by
  have qos : publish.header.qos ≠ 2 := by omega
  simp [Arrival.ofEntry, Arrival.ofPublish, queueEntry, qos]

theorem arrivals_received {client : Nat} {sock : SOCKET} {publish : Publish} :
    arrivals m [.reads client sock, .received client sock (.publish publish)] =
      if client = m ∧ (publish.header.qos = 0 ∨ publish.header.qos = 1) then
        [.ofPublish publish]
      else [] := by
  rw [arrivals, List.filterMap_cons_none rfl]
  by_cases here : client = m ∧ (publish.header.qos = 0 ∨ publish.header.qos = 1)
  · have arrived : arrival m (.received client sock (.publish publish)) =
        some (.ofPublish publish) := if_pos here
    rw [if_pos here, List.filterMap_cons_some arrived]
    rfl
  · have none : arrival m (.received client sock (.publish publish)) = none := if_neg here
    rw [if_neg here, List.filterMap_cons_none none]
    rfl

def Attends (m : Nat) (events : List Event) (before : Library) : Prop :=
  ∀ owner sock pack, .received owner sock pack ∈ events → (before.client m).socket = sock →
    0 < sock

theorem Attends.of_positive (positive : 0 < (before.client m).socket) (events : List Event) :
    Attends m events before :=
  fun _ _ _ _ owner => owner ▸ positive

theorem Ordered.publish {client owner : Nat} {publish : Publish} {sock : SOCKET}
    {inboundMsgs : LinkedList Messages} {outboundQueue : LinkedList AckRequest}
    (connections : Connections before)
    (attends : Attends m [.reads owner sock, .received owner sock (.publish publish)] before)
    (owns : (before.client owner).socket = sock)
    (clientOwns : (before.client client).socket = sock)
    (sets : before.SetsClient client ((before.client client).withQueues inboundMsgs
      (queued publish (before.client client).messageQueue) outboundQueue) after) :
    Ordered m [.reads owner sock, .received owner sock (.publish publish)] before after := by
  have positive (own : (before.client m).socket = sock) : 0 < (before.client m).socket :=
    own ▸ attends owner sock _ (List.mem_cons_of_mem _ List.mem_cons_self) own
  by_cases here : client = m
  · subst here
    have same : owner = client := connections.distinct client owner (positive clientOwns)
      (owns.trans clientOwns.symm)
    subst same
    have queue : (after.client owner).messageQueue =
        queued publish (before.client owner).messageQueue :=
      congrArg Clients.messageQueue sets.client_self
    have taken : deliveries owner [.reads owner sock, .received owner sock (.publish publish)] =
        [] := rfl
    rw [Ordered, taken, arrivals_received, waiting, waiting, queue, List.nil_append]
    by_cases qos01 : publish.header.qos = 0 ∨ publish.header.qos = 1
    · rw [queued, if_pos qos01, if_pos ⟨rfl, qos01⟩, values_append, List.map_append,
        ← ofEntry_queueEntry qos01]
      rfl
    · rw [queued, if_neg qos01, if_neg (fun both => qos01 both.2), List.append_nil]
  · have different : owner ≠ m := by
      intro same
      rw [same] at owns
      exact here (connections.distinct m client (positive owns) (clientOwns.trans owns.symm))
    refine .elsewhere (fun event member => ?_) (by rw [sets.client_of_ne (Ne.symm here)])
    rcases List.mem_cons.mp member with rfl | member
    · exact ⟨rfl, rfl⟩
    · rw [List.mem_singleton.mp member]
      exact ⟨if_neg fun both => different both.1, rfl⟩

theorem Cycled.ordered {sock : SOCKET} {result : List Event × Option Packet × Int × Library}
    (cycled : Cycled sock before result) (connections : Connections before)
    (attends : Attends m result.1 before) : Ordered m result.1 before result.2.2.2 := by
  cases cycled with
  | nothing reads searched =>
      refine .elsewhere (fun event here => ?_) (by rw [searched.client])
      rcases reads event here with ⟨other, _, _, rfl⟩
      exact ⟨rfl, rfl⟩
  | returned member owner typed notPublish searched =>
      rename_i other pack library
      refine .elsewhere (fun event here => ?_) (by rw [searched.client])
      rcases List.mem_cons.mp here with rfl | here
      · exact ⟨rfl, rfl⟩
      · rw [List.mem_singleton.mp here]
        cases pack with
        | publish publish => exact absurd typed notPublish
        | connack | ack | suback => exact ⟨rfl, rfl⟩
  | publish member owner searched writes handled clientMember clientOwner sets =>
      exact .publish connections attends owner clientOwner sets
  | puback member owner id searched handled clientMember clientOwner sets values =>
      refine .elsewhere (fun event here => ?_) (sets.stable
        (fun object => object.c.messageQueue) rfl m)
      simp only [List.mem_cons] at here
      rcases here with rfl | rfl | rfl | here
      · exact ⟨rfl, rfl⟩
      · exact ⟨rfl, rfl⟩
      · exact ⟨rfl, rfl⟩
      · split at here
        · rw [List.mem_singleton.mp here]
          exact ⟨rfl, rfl⟩
        · cases here

def Uncalled (events : List Event) : Prop :=
  ∀ client qe topicLen answer, .messageArrived client qe topicLen answer ∉ events

theorem Changed.ordered (changed : Changed before events after) (registered : Registered before)
    (connections : Connections before) (attends : Attends m events before)
    (uncalled : Uncalled events) : Ordered m events before after := by
  cases changed with
  | created =>
      refine .elsewhere (List.forall_mem_nil _) ?_
      rw [Library.client, (create_spec registered _).objects]
      by_cases new : m = before.created
      · rcases registered.blank before.created le_rfl with ⟨clientId, blank⟩
        rw [new, Function.update_self, Library.client, blank]
        rfl
      · rw [Function.update_of_ne new]
        rfl
  | published member published =>
      rcases publish5_sets published with ⟨_, _, sets⟩
      refine .elsewhere (fun event here => ?_) (sets.stable
        (fun object => object.c.messageQueue) rfl m)
      rw [List.mem_singleton.mp here]
      exact ⟨rfl, rfl⟩
  | cycled spec => exact spec.ordered connections attends
  | delivered => exact absurd List.mem_cons_self (uncalled _ _ _ _)
  | kept silent keeps =>
      exact .elsewhere (fun event here => (silent event here).elsewhere) (keeps.messageQueue m)

theorem deliveries_called {client : Nat} {qe : QEntry} {topicLen : Int} {answer : Bool} :
    deliveries m [.messageArrived client qe topicLen answer] =
      if client = m ∧ answer then [.ofEntry qe] else [] := by
  by_cases here : client = m ∧ answer = true
  · have taken : delivery m (.messageArrived client qe topicLen answer) = some (.ofEntry qe) :=
      if_pos here
    rw [if_pos here, deliveries, List.filterMap_cons_some taken]
    rfl
  · have none : delivery m (.messageArrived client qe topicLen answer) = none := if_neg here
    rw [if_neg here, deliveries, List.filterMap_cons_none none]
    rfl

theorem Ordered.answered {client : Nat} {qe : ListElement QEntry} {topicLen : Int} {answer : Bool}
    {library : Library} (head : (before.client client).messageQueue.first = some qe)
    (delivered : before.SetsClient client ((before.client client).withQueues
      (before.client client).inboundMsgs
      (if answer then ((before.client client).messageQueue.remove qe.content).2
        else (before.client client).messageQueue) (before.client client).outboundQueue) library)
    (keeps : library.KeepsMessages after) :
    Ordered m [.messageArrived client qe.value topicLen answer] before after := by
  rcases List.head?_eq_some_iff.mp head with ⟨rest, elements⟩
  have queue : waiting m after = waiting m library := by
    rw [waiting, waiting, keeps.messageQueue]
  have arrived : arrivals m [.messageArrived client qe.value topicLen answer] = [] := rfl
  rw [Ordered, arrived, queue, List.append_nil, deliveries_called]
  by_cases here : client = m
  · subst here
    have left := congrArg Clients.messageQueue delivered.client_self
    rw [waiting, left]
    cases answer with
    | false =>
        rw [if_neg fun both => Bool.false_ne_true both.2]
        rfl
    | true =>
        have member : qe ∈ (before.client client).messageQueue.elements := by
          rw [elements]
          exact List.mem_cons_self
        have removed : ((before.client client).messageQueue.remove qe.content).2 =
            (before.client client).messageQueue.detachElement qe :=
          congrArg Prod.snd (remove_of_mem member)
        rw [if_pos ⟨rfl, rfl⟩, if_pos rfl, removed]
        change [Arrival.ofEntry qe.value] ++
          ((before.client client).messageQueue.detachElement qe).values.map .ofEntry = _
        rw [waiting, values, values, elements_detachElement_head elements, elements]
        rfl
  · rw [if_neg fun both => here both.1, waiting, delivered.client_of_ne (Ne.symm here)]
    rfl

theorem Changed.first (changed : Changed before events after) (registered : Registered before)
    (uncalled : Uncalled events) {qe : ListElement QEntry}
    (first : (before.client m).messageQueue.first = some qe) :
    (after.client m).messageQueue.first = some qe := by
  have stays {client : Nat} {object : MQTTClients} (sets : before.Sets client object after)
      (same : object.c.messageQueue = (before.client client).messageQueue) :
      (after.client m).messageQueue.first = some qe := by
    rw [← first]
    exact congrArg LinkedList.first
      (sets.stable (fun object => object.c.messageQueue) same m)
  cases changed with
  | created =>
      have known : m ≠ before.created := by
        rintro rfl
        rcases registered.blank before.created le_rfl with ⟨clientId, blank⟩
        rw [Library.client, blank] at first
        cases first
      rw [Library.client, (create_spec registered _).objects, Function.update_of_ne known]
      exact first
  | published member published =>
      rcases publish5_sets published with ⟨_, _, sets⟩
      exact stays sets rfl
  | cycled spec =>
      cases spec with
      | nothing reads searched => rwa [searched.client]
      | returned member owner typed notPublish searched => rwa [searched.client]
      | publish member owner searched writes handled clientMember clientOwner sets =>
          rename_i owner client publish library inboundMsgs outboundQueue
          by_cases here : m = client
          · subst here
            have queue : (after.client m).messageQueue =
                queued publish (before.client m).messageQueue :=
              congrArg Clients.messageQueue sets.client_self
            rw [queue, queued]
            split
            · rcases List.head?_eq_some_iff.mp first with ⟨rest, elements⟩
              rw [LinkedList.first, elements_append, elements]
              rfl
            · exact first
          · rwa [sets.client_of_ne here]
      | puback member owner id searched handled clientMember clientOwner sets values =>
          exact stays sets rfl
  | delivered => exact absurd List.mem_cons_self (uncalled _ _ _ _)
  | kept silent keeps => rwa [keeps.messageQueue]

theorem Looped.ordered {loop next : LoopState}
    (looped : Looped before loop (events, next, after)) (registered : Registered before)
    (connections : Connections before) (attends : Attends m events before)
    (head : loop.AtHead before) : Ordered m events before after := by
  have changed := looped.changed registered.old
  cases looped with
  | cycled spec => exact spec.ordered connections attends
  | answered member publications delivered posted =>
      refine .answered head delivered (posted.keepsMessages ?_)
      rw [delivered.created]
      exact registered.old _ member
  | started | selected | lost | called | posted =>
      exact changed.ordered registered connections attends (by simp [Uncalled])

theorem Looped.atHead {loop next : LoopState}
    (looped : Looped before loop (events, next, after)) : next.AtHead after := by
  cases looped with
  | called member owner head searched =>
      rw [LoopState.AtHead, searched.client]
      exact head
  | started | selected | cycled | lost | posted | answered => trivial

end Steps

/-! ## Runs -/

section Run

variable {before : System} {action : Action} {result : List Event × System}

theorem Stepped.uncalled (stepped : Stepped before action result) (wellFormed : before.WellFormed)
    (other : ∀ index choice, action ≠ .loopStep index choice) : Uncalled result.1 := by
  intro client qe topicLen answer called
  cases stepped with
  | created | destroyed | set | subscribed => cases called
  | published => simp at called
  | began member idle spec =>
      rcases System.mem_conclude called with here | ⟨rc, same⟩
      · rcases List.mem_cons.mp here with same | here
        · cases same
        · exact (spec.kept (wellFormed.registered.old _ member)).1 _ here
      · cases same
  | connecting found spec =>
      rcases System.mem_conclude called with here | ⟨rc, same⟩
      · cases spec with
        | waited waited => exact waited.ofCycle _ here
        | sent phase sent reconnects descriptors outcome_eq => exact sent.silent _ here
        | failed | finished => exact absurd here List.not_mem_nil
      · cases same
  | looped => exact other _ _ rfl

theorem Stepped.loops_le (stepped : Stepped before action result) :
    before.loops.length ≤ result.2.loops.length := by
  cases stepped with
  | created | destroyed | set | published | subscribed => exact le_rfl
  | began member idle spec =>
      rw [System.conclude_loops]
      dsimp only
      split
      · rw [List.length_append]
        exact Nat.le_add_right ..
      · exact le_rfl
  | connecting => rw [System.conclude_loops]
  | looped => exact (List.length_set ..).ge

theorem Stepped.ordered {m : Nat} (stepped : Stepped before action result)
    (wellFormed : before.WellFormed) (connections : Connections before.library)
    (heads : ∀ loop ∈ before.loops, loop.AtHead before.library)
    (attends : Attends m result.1 before.library) :
    Ordered m result.1 before.library result.2.library := by
  have registered := wellFormed.registered
  rcases stepped.changed wellFormed.numbered with ⟨_, library, _, _, destroyed, rfl, rfl⟩ | changed
  · refine .elsewhere (List.forall_mem_nil _) ?_
    rw [Library.client, (destroy_spec registered destroyed).objects]
    rfl
  · have uncalled := stepped.uncalled wellFormed
    cases stepped with
    | looped found alive spec =>
        exact spec.ordered registered connections attends
          (heads _ (List.mem_of_getElem? found))
    | created | destroyed | set | published | subscribed | began | connecting =>
        exact changed.ordered registered connections attends (uncalled (by rintro _ _ ⟨⟩))

theorem Stepped.heads (stepped : Stepped before action result)
    (wellFormed : before.WellFormed) (single : result.2.loops.length ≤ 1)
    (heads : ∀ loop ∈ before.loops, loop.AtHead before.library) :
    ∀ loop ∈ result.2.loops, loop.AtHead result.2.library := by
  have registered := wellFormed.registered
  rcases stepped.changed wellFormed.numbered with ⟨_, library, _, _, destroyed, rfl, rfl⟩ | changed
  · have objects := (destroy_spec registered destroyed).objects
    intro loop member
    have head := heads loop member
    cases loop with
    | callback m qe pack =>
        rw [LoopState.AtHead, Library.client, objects]
        exact head
    | starting | ready | selected | cycled => trivial
  · have uncalled := stepped.uncalled wellFormed
    have kept (others : Uncalled result.1) :
        ∀ loop ∈ before.loops, loop.AtHead result.2.library := by
      intro loop member
      have head := heads loop member
      cases loop with
      | callback m qe pack => exact changed.first registered others head
      | starting | ready | selected | cycled => trivial
    cases stepped with
    | looped found alive spec =>
        -- there is no other thread
        rename_i index choice loop next events library
        intro other member
        rw [List.length_set] at single
        have bound := (List.getElem?_eq_some_iff.mp found).1
        rcases List.mem_iff_getElem?.mp member with ⟨position, there⟩
        have here := (List.getElem?_eq_some_iff.mp there).1
        rw [List.length_set] at here
        rw [show position = index by omega, List.getElem?_set_self bound] at there
        cases there
        exact spec.atHead
    | created | destroyed | set | published | subscribed => exact kept (uncalled (by rintro _ _ ⟨⟩))
    | began member idle spec =>
        have still := kept (uncalled (by rintro _ _ ⟨⟩))
        intro loop here
        rw [System.conclude_loops] at here
        dsimp only at here
        split at here
        · rcases List.mem_append.mp here with here | here
          · exact still loop here
          · rw [List.mem_singleton.mp here]
            trivial
        · exact still loop here
    | connecting found spec =>
        have still := kept (uncalled (by rintro _ _ ⟨⟩))
        rw [System.conclude_loops]
        exact still

theorem Changed.answered {before after : Library} {events : List Event} {m client : Nat}
    {qe : QEntry} {topicLen : Int} {answer : Bool} (changed : Changed before events after)
    (called : .messageArrived client qe topicLen answer ∈ events)
    (left : client ≠ m ∨ answer = false) :
    (after.client m).messageQueue = (before.client m).messageQueue := by
  cases changed with
  | created => cases called
  | published => simp at called
  | cycled spec => exact (spec.ofCycle _ called).elim
  | kept silent keeps => exact (silent _ called).elim
  | delivered member publications delivered keeps =>
      rw [keeps.messageQueue]
      cases List.mem_singleton.mp called
      by_cases here : m = client
      · subst here
        rw [delivered.client_self, left.resolve_left fun different => different rfl]
        rfl
      · rw [delivered.client_of_ne here]

theorem Stepped.answered {m client : Nat} {qe : QEntry} {topicLen : Int} {answer : Bool}
    (stepped : Stepped before action result) (wellFormed : before.WellFormed)
    (called : .messageArrived client qe topicLen answer ∈ result.1)
    (left : client ≠ m ∨ answer = false) :
    (result.2.library.client m).messageQueue = (before.library.client m).messageQueue := by
  rcases stepped.changed wellFormed.numbered with ⟨_, library, _, _, destroyed, rfl, rfl⟩ | changed
  · cases called
  · exact changed.answered called left

end Run

structure InOrder (m : Nat) (initial : Library) (past : List Event) (system : System) : Prop where
  connections : Connections system.library
  heads : system.loops.length ≤ 1 → ∀ loop ∈ system.loops, loop.AtHead system.library
  ordered : system.loops.length ≤ 1 → Ordered m past initial system.library

/-- The client is on a socket. -/
def OnSocket (m : Nat) (_ : Action) (before : System) : Prop :=
  0 < (before.library.client m).socket

instance (m : Nat) (action : Action) (before : System) : Decidable (OnSocket m action before) :=
  inferInstanceAs (Decidable (_ < _))

theorem Ordered.trans {m : Nat} {past events : List Event} {initial before after : Library}
    (first : Ordered m past initial before) (second : Ordered m events before after) :
    Ordered m (past ++ events) initial after := by
  unfold Ordered at first second ⊢
  calc deliveries m (past ++ events) ++ waiting m after
      = deliveries m past ++ (deliveries m events ++ waiting m after) := by
        rw [deliveries, List.filterMap_append, List.append_assoc]
        rfl
    _ = (deliveries m past ++ waiting m before) ++ arrivals m events := by
        rw [second, List.append_assoc]
    _ = waiting m initial ++ arrivals m (past ++ events) := by
        rw [first, List.append_assoc, arrivals, arrivals, ← List.filterMap_append]
        rfl

theorem InOrder.attends {m : Nat} {initial : Library} {past : List Event} {before : System}
    {action : Action} {result : List Event × System} (inOrder : InOrder m initial past before)
    (wellFormed : before.WellFormed) (attends : Attends m result.1 before.library)
    (stepped : Stepped before action result) : InOrder m initial (past ++ result.1) result.2 where
  connections := stepped.connections wellFormed inOrder.connections
  heads single := stepped.heads wellFormed single (inOrder.heads (stepped.loops_le.trans single))
  ordered single := by
    have before := stepped.loops_le.trans single
    exact (inOrder.ordered before).trans
      (stepped.ordered wellFormed inOrder.connections (inOrder.heads before) attends)

theorem InOrder.step {m : Nat} {initial : Library} {past : List Event} {before : System}
    {action : Action} {result : List Event × System} (inOrder : InOrder m initial past before)
    (wellFormed : before.WellFormed) (onSocket : OnSocket m action before)
    (stepped : Stepped before action result) : InOrder m initial (past ++ result.1) result.2 :=
  inOrder.attends wellFormed (.of_positive onSocket _) stepped

/-- With one thread in `MQTTClient_run`, from any state that is reached, while a client is on
a socket: the messages that its callback takes, followed by those that are left in its
queue, are those that were in the queue, followed by the PUBLISH packets of QoS 0 and 1
received on its socket; and a callback that does not take its message, or that is another
client's, leaves the queue as it is. -/
theorem delivered_in_order {earlier actions : List Action} {past events : List Event}
    {initial final : System} {inbound : SOCKET → RecvSource UInt8}
    {outbound : SOCKET → List WritevEvent} {m : Nat}
    (reached : machine.run earlier (.start inbound outbound) = some (past, initial))
    (along : machine.Along (OnSocket m) actions initial)
    (ran : machine.run actions initial = some (events, final))
    (single : final.loops.length ≤ 1) :
    deliveries m events ++ waiting m final.library =
        waiting m initial.library ++ arrivals m events ∧
      ∀ action result, step action final = some result →
        ∀ client qe topicLen answer, .messageArrived client qe topicLen answer ∈ result.1 →
          client ≠ m ∨ answer = false →
          waiting m result.2.library = waiting m final.library := by
  have start := run_invariant_always (fun _ system =>
      Connections system.library ∧
        (system.loops.length ≤ 1 → ∀ loop ∈ system.loops, loop.AtHead system.library))
    (fun wellFormed holds stepped =>
      have stepped := step_spec stepped
      ⟨stepped.connections wellFormed holds.1, fun single =>
        stepped.heads wellFormed single (holds.2 (stepped.loops_le.trans single))⟩)
    (System.start_wellFormed inbound outbound)
    ⟨.start inbound outbound, fun _ => List.forall_mem_nil _⟩ reached
  have inOrder := run_invariant (InOrder m initial.library)
    (fun wellFormed inOrder onSocket stepped =>
      inOrder.step wellFormed onSocket (step_spec stepped))
    start.2 ⟨start.1.1, start.1.2, fun _ => .elsewhere (List.forall_mem_nil _) rfl⟩ along ran
  refine ⟨inOrder.1.ordered single, ?_⟩
  intro action result stepped client qe topicLen answer called left
  rw [waiting, waiting, (step_spec stepped).answered inOrder.2 called left]

def twoRounds : List Action :=
  [.loopStep 0 .ready, .loopStep 0 {}, .loopStep 0 {}, .loopStep 0 { answer := false },
    .loopStep 0 .ready, .loopStep 0 {}, .loopStep 0 {}, .loopStep 0 {}]

/-- Two PUBLISH packets, of QoS 1 and 0, of which the first has been taken. -/
theorem delivered_in_order_two : ∃ past initial events final,
    machine.run oneClient (.receiving [0x32, 5, 0, 1, 0x61, 0, 7, 0x30, 4, 0, 1, 0x62, 0x78]) =
      some (past, initial) ∧ machine.run twoRounds initial = some (events, final) ∧
      (deliveries 0 events).length = 1 ∧ (waiting 0 final.library).length = 1 ∧
      deliveries 0 events ++ waiting 0 final.library =
        waiting 0 initial.library ++ arrivals 0 events := by
  have observed : ((machine.run oneClient
      (.receiving [0x32, 5, 0, 1, 0x61, 0, 7, 0x30, 4, 0, 1, 0x62, 0x78])).bind fun reached =>
        (machine.run twoRounds reached.2).map fun later =>
          decide (machine.Along (OnSocket 0) twoRounds reached.2 ∧ later.2.loops.length ≤ 1 ∧
            (deliveries 0 later.1).length = 1 ∧ (waiting 0 later.2.library).length = 1)) =
      some true := by
    decide +kernel
  rcases Option.bind_eq_some_iff.mp observed with ⟨⟨past, initial⟩, reached, observed⟩
  rcases Option.map_eq_some_iff.mp observed with ⟨⟨events, final⟩, ran, same⟩
  rcases of_decide_eq_true same with ⟨along, single, taken, left⟩
  exact ⟨past, initial, events, final, reached, ran, taken, left,
    (delivered_in_order reached along ran single).1⟩

end MqttClient.MQTTClient
