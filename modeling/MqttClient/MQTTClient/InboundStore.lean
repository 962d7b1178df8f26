import MqttClient.MQTTClient.References
import MqttClient.MQTTProtocol.PayloadCopies

/-! # The inbound messages of QoS 2

Behind every run, a client that exists has one inbound message for each id of the PUBLISH
packets of QoS 2 that were handled for it.
-/

namespace MqttClient.MQTTClient

open Foundation LinkedList MQTTProtocol

def inboundEvent (before : Library) : Event → Option (Nat × Inbound)
  | .received _ sock (.publish publish) =>
      if publish.header.qos = 2 then
        (before.findClient sock).map fun found =>
          (found.1, ⟨publish, before.publications.nextContent⟩)
      else none
  | _ => none

def inboundMachine : Machine System Action (Nat × Inbound) :=
  machine.observe fun system => inboundEvent system.library

def inboundOf (m : Nat) (received : List (Nat × Inbound)) : List Inbound :=
  received.filterMap fun (client, inbound) => if client = m then some inbound else none

section Steps

variable {before after : Library} {m : Nat} {events : List Event}

theorem Event.Silent.unreceived {event : Event} (silent : event.Silent) :
    inboundEvent before event = none := by
  cases event with
  | published | reads | received | puback | deliveryComplete | messageArrived => exact silent.elim
  | connectCalled | opened | connectSent | connectReturned => rfl

theorem handlePacket_received {sock other : SOCKET} {pack received : Packet} {owner : Nat}
    {handled : List Event × Option Packet × Int × Library}
    (handling : handlePacket m sock pack before = some handled) :
    .received owner other received ∉ handled.1 := by
  unfold handlePacket at handling
  split at handling
  · split at handling
    · rcases Option.map_eq_some_iff.mp handling with ⟨_, _, rfl⟩
      exact List.not_mem_nil
    · cases handling
  · split at handling
    · split at handling
      · rcases Option.map_eq_some_iff.mp handling with ⟨_, _, rfl⟩
        intro here
        rcases List.mem_cons.mp here with same | here
        · cases same
        · split at here
          · cases List.mem_singleton.mp here
          · cases here
      · cases handling
    · cases handling
      exact List.not_mem_nil

theorem cycleReady_received {sock other : SOCKET} {owner : Nat} {publish : Publish}
    {result : List Event × Option Packet × Int × Library}
    (cycled : cycleReady sock before = some result)
    (here : .received owner other (.publish publish) ∈ result.1) :
    ∃ library rc, library.clients = before.clients ∧ library.objects = before.objects ∧
      library.publications = before.publications ∧
      handlePublishes publish other library = some (rc, result.2.2.2) := by
  unfold cycleReady at cycled
  split at cycled
  · cases cycled
    cases here
  · rename_i m library found
    have clients : library.clients = before.clients :=
      (congrArg (fun result => result.2.clients) found).symm
    have objects : library.objects = before.objects :=
      (congrArg (fun result => result.2.objects) found).symm
    have publications : library.publications = before.publications :=
      (congrArg (fun result => result.2.publications) found).symm
    dsimp only at cycled
    split at cycled
    · cases cycled
      cases here
    · generalize call : MQTTPacket.factory (library.client m).mqttVersion
        (library.client m).socket library.reads = called at cycled
      split at cycled
      · cases cycled
      · cases cycled
        cases List.mem_singleton.mp here
      · rename_i error pack returned
        have typed := (MQTTPacket.factory_typed (by rw [call]; exact returned)).1
        rcases Option.map_eq_some_iff.mp cycled with ⟨handled, handling, rfl⟩
        rcases List.mem_cons.mp here with same | here
        · cases same
        · rcases List.mem_cons.mp here with same | here
          · cases same
            have publishing : (Packet.publish publish).header.type = MsgType.publish := typed
            rw [handlePacket, if_pos publishing] at handling
            rcases Option.map_eq_some_iff.mp handling with ⟨⟨rc, final⟩, published, rfl⟩
            exact ⟨{ library with reads := called.2 }, rc, clients, objects, publications,
              published⟩
          · exact absurd here (handlePacket_received handling)

theorem connectStep_received {choice : Choice} {call : ConnectCall} {sock : SOCKET}
    {owner : Nat} {publish : Publish} {result : List Event × ConnectOutcome × Library}
    (stepped : connectStep choice call before = some result)
    (here : .received owner sock (.publish publish) ∈ result.1) :
    ∃ library rc, library.clients = before.clients ∧ library.objects = before.objects ∧
      library.publications = before.publications ∧
      handlePublishes publish sock library = some (rc, result.2.2) := by
  cases connectStep_spec stepped with
  | sent phase sent => exact (sent.silent _ here).elim
  | failed | finished => cases here
  | waited waited =>
      generalize waiting : call.waiting = state at waited
      cases waited with
      | expired | waits | polls | woken | read | selected | checked => cases here
      | cycled =>
          rw [connectStep, waiting] at stepped
          rcases Option.map_eq_some_iff.mp stepped with ⟨_, waited, same⟩
          rcases Option.map_eq_some_iff.mp waited with ⟨cycled, ready, rfl⟩
          rw [← congrArg (fun result => result.2.2) same]
          rw [← congrArg Prod.fst same] at here
          exact cycleReady_received ready here

theorem loopStep_received {choice : Choice} {loop : LoopState} {sock : SOCKET}
    {owner : Nat} {publish : Publish} {result : List Event × LoopState × Library}
    (stepped : loopStep choice before loop = some result)
    (here : .received owner sock (.publish publish) ∈ result.1) :
    ∃ library rc, library.clients = before.clients ∧ library.objects = before.objects ∧
      library.publications = before.publications ∧
      handlePublishes publish sock library = some (rc, result.2.2) := by
  cases loopStep_spec stepped with
  | started | selected | lost | called | posted => cases here
  | answered => cases List.mem_singleton.mp here
  | cycled =>
      rcases Option.ite_none_left_eq_some.mp stepped with ⟨_, stepped⟩
      rcases Option.map_eq_some_iff.mp stepped with ⟨cycled, ready, same⟩
      rw [← congrArg (fun result => result.2.2) same]
      rw [← congrArg Prod.fst same] at here
      exact cycleReady_received ready here

theorem step_received {action : Action} {before : System} {result : List Event × System}
    {owner : Nat} {sock : SOCKET} {publish : Publish} (wellFormed : before.WellFormed)
    (stepped : step action before = some result)
    (here : .received owner sock (.publish publish) ∈ result.1) :
    ∃ library rc, library.clients = before.library.clients ∧
      library.objects = before.library.objects ∧
      library.publications = before.library.publications ∧
      handlePublishes publish sock library = some (rc, result.2.library) := by
  cases step_spec stepped with
  | created | destroyed | set | subscribed => cases here
  | published => cases List.mem_singleton.mp here
  | began member idle spec =>
      rcases System.mem_conclude here with here | ⟨rc, same⟩
      · rcases List.mem_cons.mp here with same | here
        · cases same
        · exact ((spec.kept (wellFormed.registered.old _ member)).1 _ here).elim
      · cases same
  | connecting found spec =>
      rcases connectStep_eq_some stepped with ⟨call, events, outcome, library, _, connected, same⟩
      rw [same] at here ⊢
      rw [System.conclude_library]
      rcases System.mem_conclude here with here | ⟨rc, same⟩
      · exact connectStep_received connected here
      · cases same
  | looped found alive spec =>
      simp only [step, System.stepLoop, found] at stepped
      rcases Option.map_eq_some_iff.mp stepped with ⟨⟨events, next, library⟩, looped, same⟩
      rw [← congrArg (fun result => result.2.library) same]
      rw [← congrArg Prod.fst same] at here
      exact loopStep_received looped here

theorem findClient_congr {library : Library} {sock : SOCKET}
    (clients : library.clients = before.clients) (objects : library.objects = before.objects) :
    (library.findClient sock).map Prod.fst = (before.findClient sock).map Prod.fst := by
  have owns : library.ownsSocket sock = before.ownsSocket sock := by
    funext element
    rw [Library.ownsSocket, Library.ownsSocket, Library.client, Library.client, objects]
  unfold Library.findClient
  rw [clients, owns]
  rcases before.clients.findItem (before.ownsSocket sock) with ⟨none | element, list⟩
  · rfl
  · rfl

/-! ## The references -/

theorem Exact.nodup (counts : Exact before) (single : Single before.publications) :
    (references before).Nodup := by
  rw [List.nodup_iff_count_le_one]
  intro p
  by_cases member : p ∈ references before
  · have count := counts.of_mem member
    rcases Option.map_eq_some_iff.mp count with ⟨element, found, same⟩
    rw [single.find found] at same
    omega
  · rw [List.count_eq_zero_of_not_mem member]
    exact Nat.zero_le 1

theorem Exact.apart (counts : Exact before) (single : Single before.publications)
    (member : m ∈ before.clients.values) :
    (publishes (before.client m).outboundMsgs).Disjoint
        (publishes (before.client m).inboundMsgs) ∧
      ∀ other ∈ before.clients.values, other ≠ m →
        (held (before.client m)).Disjoint (held (before.client other)) := by
  have nodup := (references_perm member).nodup_iff.mp (counts.nodup single)
  have parts := List.nodup_append'.mp nodup
  refine ⟨(List.nodup_append'.mp parts.1).2.2, fun other present different p here there => ?_⟩
  refine parts.2.2 here (List.mem_append_left _ ?_)
  exact List.mem_flatMap.mpr ⟨other, (List.mem_erase_of_ne different).mpr present, there⟩

structure InboundKept (received : List (Nat × Inbound)) (library : Library) : Prop where
  single : Single library.publications
  counts : Exact library
  stores : ∀ m ∈ library.clients.values,
    Stores (inboundOf m received) (library.client m).inboundMsgs library.publications
  fresh : ∀ m, library.created ≤ m → inboundOf m received = []

variable {received : List (Nat × Inbound)}

theorem InboundKept.spares {given : List Nat} (kept : InboundKept received before)
    (counts : Exact after) (created : before.created ≤ after.created)
    (spares : Spares given before.publications after.publications)
    (clients : ∀ m ∈ after.clients.values, m ∈ before.clients.values ∧
      (publishes (before.client m).inboundMsgs).Disjoint given ∧
      (after.client m).inboundMsgs.values = (before.client m).inboundMsgs.values) :
    InboundKept received after where
  single := spares.single kept.single
  counts := counts
  stores m member := by
    rcases clients m member with ⟨old, apart, same⟩
    exact (kept.stores m old).spares spares (fun _ here there => apart here there) same
  fresh m new := kept.fresh m (created.trans new)

theorem InboundKept.stable (kept : InboundKept received before) (counts : Exact after)
    (created : before.created ≤ after.created)
    (spares : Spares [] before.publications after.publications)
    (clients : after.clients.values = before.clients.values)
    (inboundMsgs : ∀ m, (after.client m).inboundMsgs = (before.client m).inboundMsgs) :
    InboundKept received after :=
  kept.spares counts created spares fun m member =>
    ⟨clients ▸ member, List.disjoint_nil_right _, by rw [inboundMsgs]⟩

theorem InboundKept.create (kept : InboundKept received before) (registered : Registered before)
    (clientId : CString) : InboundKept received (create clientId before) := by
  have creates := create_spec registered clientId
  have publications := creates.publications
  refine ⟨by rw [publications]; exact kept.single, kept.counts.create registered clientId,
    fun m member => ?_, fun m new => kept.fresh m ?_⟩
  · rw [publications, Library.client, creates.objects]
    rw [creates.clients] at member
    rcases List.mem_append.mp member with member | member
    · have old : m ≠ before.created := by
        rw [registered.clients] at member
        exact Nat.ne_of_lt (registered.old m member)
      rw [Function.update_of_ne old]
      exact kept.stores m member
    · rw [List.mem_singleton.mp member, Function.update_self, kept.fresh _ le_rfl]
      exact .nil before.publications
  · rw [creates.created] at new
    omega

theorem InboundKept.destroy (kept : InboundKept received before) (registered : Registered before)
    (member : m ∈ before.handles.values) (destroyed : destroy m before = some after) :
    InboundKept received after := by
  have destroys := destroy_spec registered destroyed
  refine kept.spares (kept.counts.destroy registered member destroyed) destroys.created.ge
    (freeClient_spares kept.single destroys.freed) fun other present => ?_
  rw [destroys.clients, List.mem_filter] at present
  have different : other ≠ m := of_decide_eq_true present.2
  refine ⟨present.1, ?_, by rw [Library.client, destroys.objects]; rfl⟩
  rw [← registered.clients] at member
  have apart := (kept.counts.apart kept.single member).2 other present.1 different
  exact fun p here there => apart there (List.mem_append_right _ here)

theorem publish5_spares {call : PublishCall} {result : Published}
    (published : publish5 m call before = some (result, after)) :
    Spares [] before.publications after.publications := by
  rw [publish5] at published
  split at published
  · cases published
  · dsimp only at published
    split at published
    · cases published
      exact .refl _ _
    · rcases Option.map_eq_some_iff.mp published with ⟨⟨rc, final⟩, started, same⟩
      cases same
      have spares := startPublish_spares started
      exact spares

theorem inboundOf_append (m : Nat) (received more : List (Nat × Inbound)) :
    inboundOf m (received ++ more) = inboundOf m received ++ inboundOf m more := by
  rw [inboundOf, List.filterMap_append]
  rfl

theorem InboundKept.handle {owner : Nat} {sock : SOCKET} {publish : Publish} {library : Library}
    {rc : Int} (kept : InboundKept received before) (registered : Registered before)
    (counts : Exact after) (created : before.created ≤ after.created)
    (clients : library.clients = before.clients) (objects : library.objects = before.objects)
    (publications : library.publications = before.publications)
    (handled : handlePublishes publish sock library = some (rc, after)) :
    InboundKept (received ++
      [.reads owner sock, .received owner sock (.publish publish)].filterMap (inboundEvent before))
      after := by
  have same (m : Nat) : library.client m = before.client m := by
    rw [Library.client, Library.client, objects]
  rcases handlePublishes_handled handled with
    ⟨client, found, member, others, clientsAfter, effect⟩
  rw [findClient_congr clients objects] at found
  rw [clients] at member clientsAfter
  have none : inboundEvent before (.reads owner sock) = none := rfl
  rw [List.filterMap_cons_none none]
  by_cases qos2 : publish.header.qos = 2
  · rcases effect.stored qos2 with ⟨stored, replaced, inboundMsgs, publicationsAfter⟩
    rw [publications, same] at replaced
    have event : inboundEvent before (.received owner sock (.publish publish)) =
        some (client, ⟨publish, before.publications.nextContent⟩) := by
      rcases Option.map_eq_some_iff.mp found with ⟨result, searched, rfl⟩
      rw [inboundEvent, if_pos qos2, searched]
      rfl
    have own (m : Nat) : inboundOf m (received ++
        [(client, ⟨publish, before.publications.nextContent⟩)]) = inboundOf m received ++
          if client = m then [⟨publish, before.publications.nextContent⟩] else [] := by
      rw [inboundOf_append]
      congr 1
      by_cases here : client = m <;> simp [inboundOf, here]
    rcases (kept.stores client member).replace kept.single publish with
      ⟨_, again, stores, single⟩
    cases again.symm.trans replaced
    have created' := spares_storePublication publish before.publications
    have spares : Spares (publishes (before.client client).inboundMsgs) before.publications
        after.publications := by
      rw [publicationsAfter]
      exact (created'.mono (List.nil_subset _)).trans
        (replaceMessage_spares (created'.single kept.single) replaced)
    rw [List.filterMap_cons_some event, List.filterMap_nil]
    refine ⟨by rwa [publicationsAfter], counts, fun m present => ?_, fun m new => ?_⟩
    · rw [own]
      by_cases here : client = m
      · subst here
        rw [if_pos rfl, inboundMsgs, publicationsAfter]
        exact stores
      · rw [clientsAfter] at present
        have apart := (kept.counts.apart kept.single member).2 m present (Ne.symm here)
        rw [if_neg here, List.append_nil]
        refine (kept.stores m present).spares spares (fun p mine theirs => ?_)
          (by rw [others m (Ne.symm here), same])
        exact apart (List.mem_append_right _ theirs) (List.mem_append_right _ mine)
    · have known : client ≠ m := by
        rw [registered.clients] at member
        have old := registered.old client member
        omega
      rw [own, if_neg known, List.append_nil, kept.fresh m (created.trans new)]
  · have event : inboundEvent before (.received owner sock (.publish publish)) = Option.none :=
      if_neg qos2
    rw [List.filterMap_cons_none event, List.filterMap_nil, List.append_nil]
    rcases effect.other qos2 with ⟨publicationsAfter, inboundMsgs⟩
    refine kept.stable counts created ?_ clientsAfter fun m => ?_
    · rw [publicationsAfter, publications]
      exact .refl _ _
    · by_cases here : m = client
      · rw [here, inboundMsgs, same]
      · rw [others m here, same]

theorem Changed.inboundKept (changed : Changed before events after)
    (registered : Registered before) (kept : InboundKept received before)
    (handled : ∀ owner sock publish, .received owner sock (.publish publish) ∈ events →
      ∃ library rc, library.clients = before.clients ∧ library.objects = before.objects ∧
        library.publications = before.publications ∧
        handlePublishes publish sock library = some (rc, after)) :
    InboundKept (received ++ events.filterMap (inboundEvent before)) after := by
  have counts := changed.exact registered kept.counts
  have created := changed.created_le registered
  have unseen (none : ∀ event ∈ events, inboundEvent before event = Option.none)
      (kept : InboundKept received after) :
      InboundKept (received ++ events.filterMap (inboundEvent before)) after := by
    rwa [List.filterMap_eq_nil_iff.mpr none, List.append_nil]
  have searches {library : Library} (searched : before.Searched library) (counts : Exact library) :
      InboundKept received library :=
    kept.stable counts searched.created.ge (by rw [searched.publications]; exact .refl _ _)
      searched.clients fun m => by rw [searched.client]
  cases changed with
  | created => exact unseen (List.forall_mem_nil _) (kept.create registered _)
  | published member published =>
      rcases publish5_sets published with ⟨_, _, sets⟩
      refine unseen (List.forall_mem_singleton.mpr rfl) ?_
      exact kept.stable counts created (publish5_spares published) sets.clients fun m =>
        sets.stable (fun object => object.c.inboundMsgs) rfl m
  | cycled spec =>
      cases spec with
      | nothing reads searched =>
          refine unseen (fun event here => ?_) (searches searched counts)
          rcases reads event here with ⟨other, _, _, rfl⟩
          rfl
      | returned member owner typed notPublish searched =>
          rename_i other pack
          refine unseen (List.forall_mem_cons.mpr ⟨rfl, List.forall_mem_singleton.mpr ?_⟩)
            (searches searched counts)
          cases pack with
          | publish publish => exact absurd typed notPublish
          | connack | ack | suback => rfl
      | publish member owner searched =>
          rcases handled _ _ _ (List.mem_cons_of_mem _ List.mem_cons_self) with
            ⟨library, rc, clients, objects, publications, handled⟩
          exact kept.handle registered counts created clients objects publications handled
      | puback member owner id searched handled clientMember clientOwner sets values =>
          rename_i owner client ack msgid rc outboundMsgs library
          have spares := handlePubacks_spares (by rw [searched.publications]; exact kept.single)
            handled
          rw [searched.publications, searched.client] at spares
          have apart := kept.counts.apart kept.single clientMember
          refine unseen (fun event here => ?_) (kept.spares counts created spares
            fun m present => ?_)
          · simp only [List.mem_cons] at here
            rcases here with rfl | rfl | rfl | here
            · rfl
            · rfl
            · rfl
            · split at here
              · rw [List.mem_singleton.mp here]
                rfl
              · cases here
          · rw [sets.clients] at present
            refine ⟨present, ?_, congrArg LinkedList.values
              (sets.stable (fun object => object.c.inboundMsgs) rfl m)⟩
            by_cases same : m = client
            · rw [same]
              exact fun p here there => apart.1 there here
            · exact fun p here there => apart.2 m present same
                (List.mem_append_left _ there) (List.mem_append_right _ here)
  | delivered member publications delivered keeps =>
      refine unseen (List.forall_mem_singleton.mpr rfl) (kept.stable counts created ?_
        (keeps.clients.trans delivered.clients) fun m => ?_)
      · rw [keeps.publications, publications.publications]
        exact .refl _ _
      · rw [keeps.inboundMsgs]
        exact delivered.stable (fun object => object.c.inboundMsgs) rfl m
  | kept silent keeps =>
      refine unseen (fun event here => (silent event here).unreceived)
        (kept.stable counts created ?_ keeps.clients fun m => ?_)
      · rw [keeps.publications]
        exact .refl _ _
      · exact keeps.inboundMsgs m

end Steps

theorem inboundKept_of_run {actions : List Action} {received : List (Nat × Inbound)}
    {final : System} {inbound : SOCKET → RecvSource UInt8}
    {outbound : SOCKET → List WritevEvent}
    (ran : inboundMachine.run actions (.start inbound outbound) = some (received, final)) :
    InboundKept received final.library := by
  have start : InboundKept [] (System.start inbound outbound).library :=
    ⟨fun _ member => absurd member List.not_mem_nil, fun _ => rfl,
      fun _ member => absurd member List.not_mem_nil, fun _ _ => rfl⟩
  refine (Machine.run_invariant_always
    (fun received system => InboundKept received system.library ∧ system.WellFormed)
    (fun received before action more after invariant stepped => ?_) []
    ⟨start, System.start_wellFormed inbound outbound⟩ ran).1
  rcases Option.map_eq_some_iff.mp stepped with ⟨result, taken, same⟩
  cases same
  rcases invariant with ⟨kept, wellFormed⟩
  have spec := step_spec taken
  refine ⟨?_, spec.wellFormed wellFormed⟩
  rcases spec.changed wellFormed.numbered with ⟨m, library, member, _, destroyed, _, rfl⟩ | changed
  · rw [List.filterMap_nil, List.append_nil]
    exact kept.destroy wellFormed.registered member destroyed
  · exact changed.inboundKept wellFormed.registered kept fun owner sock publish here =>
      step_received wellFormed taken here

/-- Behind every run, each client has one inbound message for each id of the PUBLISH packets
of QoS 2 that were handled for it, in the order in which the ids came first, with a
publication of its own that has the topic and the payload of the latest packet with this id;
and the publications of all other packets are gone. And whatever the buffers that such packets
are read into hold later, the payloads are there. -/
theorem inboundMsgs_latest :
    (∀ {actions : List Action} {received : List (Nat × Inbound)} {final : System}
      {inbound : SOCKET → RecvSource UInt8} {outbound : SOCKET → List WritevEvent},
      inboundMachine.run actions (.start inbound outbound) = some (received, final) →
      ∀ m ∈ final.library.clients.values,
        ((final.library.client m).inboundMsgs.values.map Messages.msgid =
          ((inboundOf m received).map Inbound.msgid).eraseDups) ∧
        (∀ message ∈ (final.library.client m).inboundMsgs.values, ∃ packet,
          latest Inbound.msgid message.msgid (inboundOf m received) = some packet ∧
          message.publish = packet.p ∧
          final.library.publications.find packet.p = some ⟨packet.p, packet.publish.topic,
            packet.publish.payload, packet.publish.payloadlen, 1⟩) ∧
        ∀ packet ∈ inboundOf m received,
          latest Inbound.msgid packet.msgid (inboundOf m received) ≠ some packet →
          final.library.publications.find packet.p = none) ∧
    ∀ {packets : List BufferedPublish} {start : InboundMemory}
      {publications : LinkedList Publications},
      (∀ packet ∈ packets, packet.Lies) → Copied [] start publications →
      ∃ after received, storeAllAt packets start = some after ∧
        received.map Inbound.publish = packets.map BufferedPublish.publish ∧
        (after.inboundMsgs.values.map Messages.msgid =
          (received.map Inbound.msgid).eraseDups) ∧
        (∀ message ∈ after.inboundMsgs.values, ∃ packet element,
          latest Inbound.msgid message.msgid received = some packet ∧
          after.publications.find message.publish = some element ∧
          element.value.topic = packet.publish.topic ∧
          ∀ buffer, (after.heap.refill buffer).read packet.publish.payloadlen.toNat
            element.value.payload = some packet.publish.payload) ∧
        ∀ packet ∈ received, latest Inbound.msgid packet.msgid received ≠ some packet →
          after.publications.find packet.p = none := by
  constructor
  · intro actions received final inbound outbound ran m member
    have stores := (inboundKept_of_run ran).stores m member
    refine ⟨stores.msgids, fun message present => ?_, fun packet present later =>
      stores.gone present later⟩
    rcases stores.latest present with ⟨packet, latest, rfl, record⟩
    exact ⟨packet, latest, rfl, record⟩
  · intro packets start publications lie copied
    rcases copied.storeAll lie with ⟨after, final, received, all, publishes, copied⟩
    rw [List.nil_append] at copied
    refine ⟨after, received, all, publishes, copied.stores.msgids, fun message present => ?_,
      fun packet present later => ?_⟩
    · rcases copied.stores.latest present with ⟨packet, latest, rfl, record⟩
      rcases copied.backed.found record with ⟨element, found, reads⟩
      refine ⟨packet, element, latest, found, reads.topic, fun buffer => ?_⟩
      rcases (copied.refill buffer).backed.found record with ⟨other, again, reads⟩
      cases found.symm.trans again
      exact reads.payload
    · have gone := copied.stores.gone present later
      cases found : after.publications.find packet.p with
      | none => rfl
      | some element =>
          rcases copied.backed.reads found with ⟨record, there, _⟩
          cases gone.symm.trans there

def samePlace : List BufferedPublish :=
  [⟨[0x61], 0, ⟨⟨0x34⟩, [0x74], 1, 7, [0x61], 1, 4, .zero⟩⟩,
    ⟨[0x62], 0, ⟨⟨0x34⟩, [0x74], 1, 7, [0x62], 1, 4, .zero⟩⟩]

/-- Packets with the ids 7, 8 and 7 in a run; and two packets with the id 7 whose payloads lie in
the same buffer. -/
theorem inboundMsgs_latest_repeated :
    (∃ received final, inboundMachine.run (oneClient ++ oneRound ++ oneRound ++ oneRound)
      (.receiving [0x34, 5, 0, 1, 0x61, 0, 7, 0x34, 5, 0, 1, 0x62, 0, 8,
        0x34, 6, 0, 1, 0x63, 0, 7, 0x78]) = some (received, final) ∧
      (inboundOf 0 received).length = 3 ∧
      (final.library.client 0).inboundMsgs.values.map Messages.msgid =
        ((inboundOf 0 received).map Inbound.msgid).eraseDups) ∧
    ∃ after, ∃ received : List Inbound,
      storeAllAt samePlace ⟨.zero, .zero, ⟨[], fun _ => none, 0, fun _ _ => rfl⟩⟩ = some after ∧
      received.length = 2 ∧
      after.inboundMsgs.values.map Messages.msgid = (received.map Inbound.msgid).eraseDups := by
  constructor
  · have observed : (inboundMachine.run (oneClient ++ oneRound ++ oneRound ++ oneRound)
        (.receiving [0x34, 5, 0, 1, 0x61, 0, 7, 0x34, 5, 0, 1, 0x62, 0, 8,
          0x34, 6, 0, 1, 0x63, 0, 7, 0x78])).map (fun reached =>
            decide (0 ∈ reached.2.library.clients.values ∧
              (inboundOf 0 reached.1).length = 3)) = some true := by
      decide +kernel
    rcases Option.map_eq_some_iff.mp observed with ⟨⟨received, final⟩, ran, same⟩
    rcases of_decide_eq_true same with ⟨member, three⟩
    exact ⟨received, final, ran, three, (inboundMsgs_latest.1 ran 0 member).1⟩
  · have lie : ∀ packet ∈ samePlace, packet.Lies := by
      simp [samePlace, BufferedPublish.Lies]
    rcases inboundMsgs_latest.2 lie (Copied.start _) with ⟨after, received, all, publishes, ids, _⟩
    have two := congrArg List.length publishes
    rw [List.length_map] at two
    exact ⟨after, received, all, two, ids⟩

end MqttClient.MQTTClient
