import MqttClient.MQTTClient.Steps

/-! # The sockets of the clients

What only creating and connecting a client changes, and with it the sockets that the
clients have in every reachable state.
-/

namespace MqttClient.MQTTClient

open Foundation LinkedList

section Stable

variable {τ : Type} {datum : MQTTClients → τ} {before after : Library} {m : Nat}
  {events : List Event}

def Holds (datum : MQTTClients → τ) (before after : Library) : Prop :=
  (∀ m, datum (after.objects m) = datum (before.objects m)) ∧
    after.descriptors = before.descriptors

theorem Holds.of_searched (searched : before.Searched after) : Holds datum before after :=
  ⟨fun other => by rw [searched.objects], searched.descriptors⟩

theorem Posted.holds (stable : Stable datum) {pack : Option Packet}
    (posted : Posted m pack before after) : Holds datum before after := by
  rcases posted.sets with ⟨_, _, _, _, _, _, sets, _⟩
  exact ⟨sets.stable _ (stable.waits ..), sets.descriptors⟩

theorem Cycled.keeps {sock : SOCKET} {result : List Event × Option Packet × Int × Library}
    (cycled : Cycled sock before result)
    (queues : ∀ object inboundMsgs messageQueue outboundQueue, datum { object with
      c := object.c.withQueues inboundMsgs messageQueue outboundQueue } = datum object)
    (outbound : ∀ object msgID outboundMsgs,
      datum { object with c := object.c.withOutbound msgID outboundMsgs } = datum object) :
    Holds datum before result.2.2.2 := by
  cases cycled with
  | nothing reads searched => exact .of_searched searched
  | returned member owner typed notPublish searched => exact .of_searched searched
  | publish member owner searched writes handled clientMember clientOwner sets =>
      exact ⟨sets.stable _ (queues ..), sets.descriptors⟩
  | puback member owner id searched handled clientMember clientOwner sets values =>
      exact ⟨sets.stable _ (outbound ..), sets.descriptors⟩

theorem Cycled.holds (stable : Stable datum) {sock : SOCKET}
    {result : List Event × Option Packet × Int × Library} (cycled : Cycled sock before result) :
    Holds datum before result.2.2.2 :=
  cycled.keeps stable.queues stable.outbound

theorem Looped.holds (stable : Stable datum) {loop next : LoopState}
    (looped : Looped before loop (events, next, after)) : Holds datum before after := by
  cases looped with
  | started same =>
      subst same
      exact ⟨fun _ => rfl, rfl⟩
  | selected searched => exact .of_searched searched
  | cycled spec => exact spec.holds stable
  | lost searched => exact .of_searched searched
  | called member owner head searched => exact .of_searched searched
  | posted member owner posted => exact posted.holds stable
  | answered member publications delivered posted =>
      have holds := posted.holds stable
      exact ⟨fun other => (holds.1 other).trans (delivered.stable _ (stable.queues ..) other),
        holds.2.trans delivered.descriptors⟩

theorem Waited.holds (stable : Stable datum) {choice : Choice} {packetType : Nat}
    {waiting next : Waiting}
    (waited : Waited choice m packetType before waiting (events, next, after)) :
    Holds datum before after := by
  cases waited with
  | woken publications sets => exact ⟨sets.stable _ (stable.waits ..), sets.descriptors⟩
  | selected searched => exact .of_searched searched
  | cycled spec => exact spec.holds stable
  | expired | waits | polls | read | checked => exact .of_searched (.refl before)

theorem Connecting.holds (stable : Stable datum) {choice : Choice} {call : ConnectCall}
    {outcome : ConnectOutcome} (connecting : Connecting choice call before
      (events, outcome, after)) : Holds datum before after := by
  cases connecting with
  | waited waited => exact waited.holds stable
  | sent phase sent reconnects descriptors =>
      refine ⟨fun other => ?_, descriptors⟩
      rw [reconnects.objects]
      by_cases here : other = call.m
      · rw [here, Function.update_self]
        exact stable.tcp ..
      · rw [Function.update_of_ne here]
  | failed => exact .of_searched (.refl before)
  | finished => exact .of_searched (.refl before)

theorem Stepped.holds (stable : Stable datum) {before : System} {action : Action}
    {result : List Event × System} (stepped : Stepped before action result)
    (wellFormed : before.WellFormed) :
    (∃ clientId, action = .create clientId ∧
        result = ([], { before with library := create clientId before.library })) ∨
      (∃ m options attempt, action = .connect m options attempt) ∨
      Holds datum before.library result.2.library := by
  cases stepped with
  | created => exact .inl ⟨_, rfl, rfl⟩
  | destroyed member idle destroyed =>
      have destroys := destroy_spec wellFormed.registered destroyed
      exact .inr (.inr ⟨fun other => by rw [destroys.objects], destroys.descriptors⟩)
  | set member publications sets =>
      exact .inr (.inr ⟨sets.stable _ (stable.callbacks ..), sets.descriptors⟩)
  | published member published =>
      rcases publish5_sets published with ⟨_, _, sets⟩
      exact .inr (.inr ⟨sets.stable _ (stable.outbound ..), sets.descriptors⟩)
  | subscribed member searched => exact .inr (.inr (.of_searched searched))
  | began member idle spec => exact .inr (.inl ⟨_, _, _, rfl⟩)
  | connecting here spec =>
      rw [System.conclude_library]
      exact .inr (.inr (spec.holds stable))
  | looped found alive spec => exact .inr (.inr (spec.holds stable))

end Stable

/-! ## Sockets -/

structure Connections (library : Library) : Prop where
  zero : 0 ∈ library.descriptors
  nonneg : ∀ sock ∈ library.descriptors, 0 ≤ sock
  sockets : ∀ m, (library.client m).socket ∈ library.descriptors ∨
    (library.client m).socket = socketError
  distinct : ∀ m other, 0 < (library.client m).socket →
    (library.client other).socket = (library.client m).socket → other = m

section Connections

variable {before after : Library}

theorem Connections.start (inbound : SOCKET → RecvSource UInt8)
    (outbound : SOCKET → List WritevEvent) :
    Connections (System.start inbound outbound).library where
  zero := List.mem_cons_self
  nonneg := by
    change ∀ sock ∈ ([0, 1, 2] : List SOCKET), 0 ≤ sock
    decide
  sockets _ := .inl List.mem_cons_self
  distinct _ _ positive := absurd positive (lt_irrefl 0)

theorem Connections.of_holds (connections : Connections before)
    (holds : Holds (fun object => object.c.socket) before after) : Connections after := by
  have socket (m : Nat) : (after.client m).socket = (before.client m).socket := holds.1 m
  constructor
  · rw [holds.2]
    exact connections.zero
  · rw [holds.2]
    exact connections.nonneg
  · intro m
    rw [socket, holds.2]
    exact connections.sockets m
  · intro m other
    rw [socket, socket]
    exact connections.distinct m other

theorem Connections.update (connections : Connections before) {m : Nat} {sock : SOCKET}
    {object : MQTTClients} (objects : after.objects = Function.update before.objects m object)
    (socket : object.c.socket = sock)
    (zero : 0 ∈ after.descriptors) (nonneg : ∀ sock ∈ after.descriptors, 0 ≤ sock)
    (kept : ∀ sock ∈ before.descriptors, sock ∈ after.descriptors)
    (known : sock ∈ after.descriptors ∨ sock = socketError)
    (fresh : 0 < sock → sock = (before.client m).socket ∨ sock ∉ before.descriptors) :
    Connections after := by
  have self : (after.client m).socket = sock := by
    rw [Library.client, objects, Function.update_self, socket]
  have others {other : Nat} (different : other ≠ m) :
      (after.client other).socket = (before.client other).socket := by
    rw [Library.client, objects, Function.update_of_ne different]
    rfl
  -- a positive new socket is on no other client
  have alone {other : Nat} (different : other ≠ m) (positive : 0 < sock) :
      (before.client other).socket ≠ sock := by
    intro same
    rcases fresh positive with old | new
    · rw [old] at same positive
      exact different (connections.distinct m other positive same)
    · rcases connections.sockets other with there | none
      · exact new (same ▸ there)
      · rw [same] at none
        rw [none] at positive
        exact absurd positive (by decide)
  refine ⟨zero, nonneg, fun other => ?_, fun one other positive same => ?_⟩
  · by_cases here : other = m
    · rw [here, self]
      exact known
    · rw [others here]
      exact (connections.sockets other).imp (kept _) id
  · by_cases oneHere : one = m
    · by_cases otherHere : other = m
      · rw [otherHere, oneHere]
      · rw [oneHere, self] at positive same
        rw [others otherHere] at same
        exact absurd same (alone otherHere positive)
    · by_cases otherHere : other = m
      · rw [otherHere, self, others oneHere] at same
        rw [others oneHere, ← same] at positive
        exact absurd same.symm (alone oneHere positive)
      · rw [others oneHere] at positive same
        rw [others otherHere] at same
        exact connections.distinct one other positive same

theorem Begun.connections {m : Nat} {options : ConnectOptions} {events : List Event}
    {starts : Bool} {outcome : ConnectOutcome}
    (begun : Begun m options before (events, starts, outcome, after))
    (connections : Connections before) : Connections after := by
  cases begun with
  | gaveUp applied reconnects descriptors =>
      rcases applyOptions_eq applied with ⟨_, _, _, _, rfl⟩
      refine connections.update reconnects.objects rfl ?_ ?_ ?_ ?_ fun _ => .inl rfl
      all_goals rw [descriptors]
      · exact connections.zero
      · exact connections.nonneg
      · exact fun _ member => member
      · exact connections.sockets m
  | unopened applied reconnects descriptors =>
      refine connections.update reconnects.objects (show _ = socketError from rfl) ?_ ?_ ?_
        (.inr rfl) fun positive => absurd positive (by decide)
      all_goals rw [descriptors]
      · exact connections.zero
      · exact connections.nonneg
      · exact fun _ member => member
  | opened applied fresh sent reconnects descriptors =>
      refine connections.update reconnects.objects rfl ?_ ?_ ?_ (.inl ?_)
        fun _ => .inr fresh.2
      all_goals rw [descriptors]
      · exact List.mem_cons_of_mem _ connections.zero
      · exact List.forall_mem_cons.mpr ⟨fresh.1, connections.nonneg⟩
      · exact fun _ member => List.mem_cons_of_mem _ member
      · exact List.mem_cons_self

theorem Stepped.connections {before : System} {action : Action} {result : List Event × System}
    (stepped : Stepped before action result) (wellFormed : before.WellFormed)
    (connections : Connections before.library) : Connections result.2.library := by
  rcases stepped.holds stable_socket wellFormed with
    ⟨clientId, _, rfl⟩ | ⟨m, options, attempt, rfl⟩ | holds
  · have creates := create_spec wellFormed.registered clientId
    refine connections.update creates.objects rfl ?_ ?_ ?_ (.inl ?_)
      fun positive => absurd positive (lt_irrefl 0)
    all_goals rw [creates.descriptors]
    · exact connections.zero
    · exact connections.nonneg
    · exact fun _ member => member
    · exact connections.zero
  · cases stepped with
    | began member idle spec =>
        rw [System.conclude_library]
        exact spec.connections connections
  · exact connections.of_holds holds

end Connections

end MqttClient.MQTTClient
