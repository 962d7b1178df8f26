import MqttClient.MQTTClient.System

/-! # What a step changes

The steps of the system, told apart by what they change. Whatever holds behind every
run is derived from these.
-/

namespace MqttClient.MQTTClient

open Foundation LinkedList

/-- The socket of a cycle that is behind `Socket_getReadySocket`. -/
def Waiting.serves : Waiting → Option SOCKET
  | .selected sock => some sock
  | _ => none

def LoopState.serves : LoopState → Option SOCKET
  | .selected sock => some sock
  | _ => none

def served : Action → System → Option SOCKET
  | .connectStep _, system => system.connecting.bind fun call => call.waiting.serves
  | .loopStep index _, system => system.loops[index]?.bind LoopState.serves
  | _, _ => none

inductive Stepped (before : System) : Action → List Event × System → Prop
  | created {clientId : CString} :
      Stepped before (.create clientId)
        ([], { before with library := create clientId before.library })
  | destroyed {m : Nat} {library : Library} (member : m ∈ before.library.handles.values)
      (idle : before.connecting = none) (destroyed : destroy m before.library = some library) :
      Stepped before (.destroy m) ([], { before with library := library })
  | set {m : Nat} {ma dc isSet isDcSet : Bool} {library : Library}
      (member : m ∈ before.library.handles.values)
      (publications : before.library.KeepsPublications library)
      (sets : before.library.Sets m
        { before.library.objects m with ma := isSet, dc := isDcSet } library) :
      Stepped before (.setCallbacks m ma dc) ([], { before with library := library })
  | published {m : Nat} {call : PublishCall} {result : Published} {library : Library}
      (member : m ∈ before.library.handles.values)
      (published : publish5 m call before.library = some (result, library)) :
      Stepped before (.publish m call)
        ([.published m call result], { before with library := library })
  | subscribed {m : Nat} {topic : CString} {qos : Int} {library : Library}
      (member : m ∈ before.library.handles.values) (searched : before.library.Searched library) :
      Stepped before (.subscribe m topic qos) ([], { before with library := library })
  | began {m : Nat} {options : ConnectOptions} {attempt : Attempt} {events : List Event}
      {starts : Bool} {outcome : ConnectOutcome} {library : Library}
      (member : m ∈ before.library.handles.values) (idle : before.connecting = none)
      (spec : Begun m options before.library (events, starts, outcome, library)) :
      Stepped before (.connect m options attempt)
        (System.conclude m (.connectCalled m options :: events) outcome
          { before with
            library := library
            loops := if starts then before.loops ++ [.starting] else before.loops })
  | connecting {choice : Choice} {call : ConnectCall} {events : List Event}
      {outcome : ConnectOutcome} {library : Library} (here : before.connecting = some call)
      (spec : Connecting choice call before.library (events, outcome, library)) :
      Stepped before (.connectStep choice)
        (System.conclude call.m events outcome { before with library := library })
  | looped {index : Nat} {choice : Choice} {loop next : LoopState} {events : List Event}
      {library : Library} (found : before.loops[index]? = some loop)
      (alive : ¬loop.Dangles before.library)
      (spec : Looped before.library loop (events, next, library)) :
      Stepped before (.loopStep index choice)
        (events, { before with library := library, loops := before.loops.set index next })

theorem setCallbacks_sets (m : Nat) (ma dc : Bool) (library : Library) :
    library.KeepsPublications (setCallbacks m ma dc library).2 ∧
      ∃ isSet isDcSet, library.Sets m { library.objects m with ma := isSet, dc := isDcSet }
        (setCallbacks m ma dc library).2 := by
  unfold setCallbacks
  split
  · exact ⟨⟨rfl, rfl⟩, _, _, .refl library, (Function.update_eq_self ..).symm⟩
  · exact ⟨⟨rfl, rfl⟩, ma, dc, ⟨rfl, rfl, rfl, rfl, rfl, rfl⟩, rfl⟩

theorem System.call_eq_some {m : Nat} {system : System} {called : Option (List Event × Library)}
    {result : List Event × System} (stepped : system.call m called = some result) :
    m ∈ system.library.handles.values ∧ ∃ events library, called = some (events, library) ∧
      result = (events, { system with library := library }) := by
  rcases Option.ite_none_right_eq_some.mp stepped with ⟨member, stepped⟩
  rcases Option.map_eq_some_iff.mp stepped with ⟨⟨events, library⟩, here, rfl⟩
  exact ⟨member, events, library, here, rfl⟩

theorem connectStep_eq_some {choice : Choice} {before : System} {result : List Event × System}
    (stepped : step (.connectStep choice) before = some result) :
    ∃ call events outcome library, before.connecting = some call ∧
      connectStep choice call before.library = some (events, outcome, library) ∧
      result = System.conclude call.m events outcome { before with library := library } := by
  simp only [step, System.stepConnecting] at stepped
  cases here : before.connecting with
  | none =>
      rw [here] at stepped
      cases stepped
  | some call =>
      rw [here] at stepped
      rcases Option.map_eq_some_iff.mp stepped with ⟨⟨events, outcome, library⟩, connected, rfl⟩
      exact ⟨call, events, outcome, library, rfl, connected, rfl⟩

theorem step_spec {action : Action} {before : System} {result : List Event × System}
    (stepped : step action before = some result) : Stepped before action result := by
  cases action with
  | create clientId =>
      cases stepped
      exact .created
  | destroy m =>
      rcases Option.ite_none_right_eq_some.mp stepped with ⟨idle, stepped⟩
      rcases System.call_eq_some stepped with ⟨member, events, library, called, rfl⟩
      rcases Option.map_eq_some_iff.mp called with ⟨library, destroyed, same⟩
      cases same
      exact .destroyed member (Option.isNone_iff_eq_none.mp idle) destroyed
  | setCallbacks m ma dc =>
      rcases System.call_eq_some stepped with ⟨member, events, library, called, rfl⟩
      cases called
      rcases setCallbacks_sets m ma dc before.library with ⟨publications, _, _, sets⟩
      exact .set member publications sets
  | publish m call =>
      rcases System.call_eq_some stepped with ⟨member, events, library, called, rfl⟩
      rcases Option.map_eq_some_iff.mp called with ⟨⟨result, library⟩, published, same⟩
      cases same
      exact .published member published
  | subscribe m topic qos =>
      rcases System.call_eq_some stepped with ⟨member, events, library, called, rfl⟩
      rcases Option.map_eq_some_iff.mp called with ⟨⟨rc, after⟩, subscribed, same⟩
      rw [Prod.mk.injEq] at same
      rcases same with ⟨rfl, rfl⟩
      exact .subscribed member (subscribe_searched subscribed)
  | connect m options attempt =>
      rcases Option.ite_none_right_eq_some.mp stepped with ⟨⟨member, idle⟩, stepped⟩
      rcases Option.map_eq_some_iff.mp stepped with ⟨⟨events, starts, outcome, library⟩, began, rfl⟩
      exact .began member (Option.isNone_iff_eq_none.mp idle) (beginConnect_spec began)
  | connectStep choice =>
      rcases connectStep_eq_some stepped with
        ⟨call, events, outcome, library, here, connected, rfl⟩
      exact .connecting here (connectStep_spec connected)
  | loopStep index choice =>
      simp only [step, System.stepLoop] at stepped
      cases found : before.loops[index]? with
      | none =>
          rw [found] at stepped
          cases stepped
      | some loop =>
          rw [found] at stepped
          rcases Option.map_eq_some_iff.mp stepped with ⟨⟨events, next, library⟩, looped, rfl⟩
          exact .looped found (Option.ite_none_left_eq_some.mp looped).1 (loopStep_spec looped)

/-! ## The state between steps -/

/-- The lists of clients are in order, and the connect call is on a client that exists. -/
structure System.WellFormed (system : System) : Prop where
  registered : Registered system.library
  connecting : ∀ call, system.connecting = some call → call.m ∈ system.library.handles.values

theorem System.start_wellFormed (inbound : SOCKET → RecvSource UInt8)
    (outbound : SOCKET → List WritevEvent) : (start inbound outbound).WellFormed where
  registered := ⟨rfl, List.nodup_nil, nofun, fun _ => rfl, fun _ _ => ⟨_, rfl⟩⟩
  connecting := nofun

structure System.Numbered (system : System) : Prop where
  old : ∀ m ∈ system.library.handles.values, m < system.library.created
  connecting : ∀ call, system.connecting = some call → call.m < system.library.created

theorem System.WellFormed.numbered {system : System} (wellFormed : system.WellFormed) :
    system.Numbered where
  old := wellFormed.registered.old
  connecting call here := wellFormed.registered.old _ (wellFormed.connecting call here)

def Event.Silent : Event → Prop
  | .connectCalled _ _ | .opened _ | .connectSent _ _ | .connectReturned _ _ => True
  | _ => False

def Event.OfCycle : Event → Prop
  | .reads _ _ | .received _ _ _ | .puback _ _ _ | .deliveryComplete _ _ => True
  | _ => False

structure SameLists (before after : Library) : Prop where
  initialized : after.initialized = before.initialized
  handles : after.handles.values = before.handles.values
  created : after.created = before.created

inductive Changed (before : Library) : List Event → Library → Prop
  | created {clientId : CString} : Changed before [] (create clientId before)
  | published {m : Nat} {call : PublishCall} {result : Published} {after : Library}
      (member : m ∈ before.handles.values)
      (published : publish5 m call before = some (result, after)) :
      Changed before [.published m call result] after
  | cycled {sock : SOCKET} {events : List Event} {pack : Option Packet} {rc : Int}
      {after : Library} (spec : Cycled sock before (events, pack, rc, after)) :
      Changed before events after
  | delivered {m : Nat} {qe : ListElement QEntry} {topicLen : Int} {answer : Bool}
      {library after : Library} (member : m ∈ before.handles.values)
      (publications : before.KeepsPublications library)
      (delivered : before.SetsClient m ((before.client m).withQueues
        (before.client m).inboundMsgs
        (if answer then ((before.client m).messageQueue.remove qe.content).2
          else (before.client m).messageQueue) (before.client m).outboundQueue) library)
      (keeps : library.KeepsMessages after) :
      Changed before [.messageArrived m qe.value topicLen answer] after
  | kept {events : List Event} {after : Library} (silent : ∀ event ∈ events, event.Silent)
      (keeps : before.KeepsMessages after) : Changed before events after

section Changed

variable {before after : Library} {m : Nat} {events : List Event}

theorem Posted.keepsMessages {pack : Option Packet} (posted : Posted m pack before after)
    (old : m < before.created) : before.KeepsMessages after := by
  rcases posted.sets with ⟨_, _, _, _, _, _, sets, _⟩
  exact sets.keepsMessages posted.publications old rfl

theorem Sends.silent {mqttVersion : Int} {client : Clients}
    (sends : Sends m mqttVersion client events) : ∀ event ∈ events, event.Silent := by
  intro event here
  rcases sends event here with ⟨body, rfl, _⟩
  trivial

theorem Cycled.ofCycle {sock : SOCKET} {result : List Event × Option Packet × Int × Library}
    (cycled : Cycled sock before result) : ∀ event ∈ result.1, event.OfCycle := by
  cases cycled with
  | nothing reads searched =>
      intro event here
      rcases reads event here with ⟨m, _, _, rfl⟩
      trivial
  | returned | publish => simp [Event.OfCycle]
  | puback =>
      simp only [List.forall_mem_cons]
      refine ⟨trivial, trivial, trivial, fun event here => ?_⟩
      split at here
      · rw [List.mem_singleton.mp here]
        trivial
      · cases here

theorem Waited.ofCycle {choice : Choice} {packetType : Nat} {waiting next : Waiting}
    (waited : Waited choice m packetType before waiting (events, next, after)) :
    ∀ event ∈ events, event.OfCycle := by
  cases waited with
  | cycled spec => exact spec.ofCycle
  | expired | waits | polls | woken | read | selected | checked => exact List.forall_mem_nil _

theorem Begun.kept {options : ConnectOptions} {starts : Bool} {outcome : ConnectOutcome}
    (begun : Begun m options before (events, starts, outcome, after)) (old : m < before.created) :
    (∀ event ∈ events, event.Silent) ∧ before.KeepsMessages after := by
  cases begun with
  | gaveUp applied reconnects =>
      rcases applyOptions_eq applied with ⟨_, _, _, _, rfl⟩
      exact ⟨List.forall_mem_nil _, reconnects.keepsMessages old rfl⟩
  | unopened applied reconnects =>
      rcases applyOptions_eq applied with ⟨_, _, _, _, rfl⟩
      exact ⟨List.forall_mem_nil _, reconnects.keepsMessages old rfl⟩
  | opened applied fresh sent reconnects =>
      rcases applyOptions_eq applied with ⟨_, _, _, _, rfl⟩
      exact ⟨List.forall_mem_cons.mpr ⟨trivial, sent.silent⟩, reconnects.keepsMessages old rfl⟩

theorem Begun.first {options : ConnectOptions} {starts : Bool} {outcome : ConnectOutcome}
    (begun : Begun m options before (events, starts, outcome, after)) :
    outcome.First m options.mqttVersion (after.client m) := by
  cases begun with
  | gaveUp => rfl
  | unopened applied reconnects descriptors first => exact first
  | opened applied fresh sent reconnects descriptors first => exact first

theorem Waited.changed {choice : Choice} {packetType : Nat} {waiting next : Waiting}
    (waited : Waited choice m packetType before waiting (events, next, after))
    (old : m < before.created) : Changed before events after := by
  cases waited with
  | woken publications sets =>
      exact .kept (List.forall_mem_nil _) (sets.keepsMessages publications old rfl)
  | selected searched => exact .kept (List.forall_mem_nil _) searched.keepsMessages
  | cycled spec => exact .cycled spec
  | expired | waits | polls | read | checked =>
      exact .kept (List.forall_mem_nil _) (Library.Searched.refl before).keepsMessages

theorem Looped.changed {loop next : LoopState}
    (old : ∀ m ∈ before.handles.values, m < before.created)
    (looped : Looped before loop (events, next, after)) : Changed before events after := by
  cases looped with
  | started same =>
      subst same
      exact .kept (List.forall_mem_nil _) ⟨⟨rfl, rfl⟩, rfl, rfl, rfl, rfl, fun _ _ => rfl,
        fun _ => rfl⟩
  | selected searched => exact .kept (List.forall_mem_nil _) searched.keepsMessages
  | cycled spec => exact .cycled spec
  | lost searched => exact .kept (List.forall_mem_nil _) searched.keepsMessages
  | called member owner head searched =>
      exact .kept (List.forall_mem_nil _) searched.keepsMessages
  | posted member owner posted =>
      exact .kept (List.forall_mem_nil _) (posted.keepsMessages (old _ member))
  | answered member publications delivered posted =>
      refine .delivered member publications delivered (posted.keepsMessages ?_)
      rw [delivered.created]
      exact old _ member

theorem System.mem_conclude {outcome : ConnectOutcome} {system : System} {event : Event}
    (here : event ∈ (conclude m events outcome system).1) :
    event ∈ events ∨ ∃ rc, event = .connectReturned m rc := by
  cases outcome with
  | waits call => exact .inl here
  | returns rc =>
      rcases List.mem_append.mp here with here | here
      · exact .inl here
      · exact .inr ⟨rc, List.mem_singleton.mp here⟩

theorem System.conclude_kept {system : System} (outcome : ConnectOutcome)
    (silent : ∀ event ∈ events, event.Silent) (keeps : before.KeepsMessages system.library) :
    Changed before (conclude m events outcome system).1
      (conclude m events outcome system).2.library := by
  cases outcome with
  | waits call => exact .kept silent keeps
  | returns rc =>
      refine .kept (fun event here => ?_) keeps
      rcases List.mem_append.mp here with here | here
      · exact silent event here
      · rw [List.mem_singleton.mp here]
        trivial

theorem Connecting.changed {choice : Choice} {call : ConnectCall} {outcome : ConnectOutcome}
    {system : System} (connecting : Connecting choice call before (events, outcome, system.library))
    (old : call.m < before.created) :
    Changed before (system.conclude call.m events outcome).1
      (system.conclude call.m events outcome).2.library := by
  have unchanged := (Library.Searched.refl before).keepsMessages
  cases connecting with
  | waited waited => exact waited.changed old
  | sent phase sent reconnects =>
      exact System.conclude_kept outcome sent.silent (reconnects.keepsMessages old rfl)
  | failed => exact System.conclude_kept _ (List.forall_mem_nil _) unchanged
  | finished => exact System.conclude_kept _ (List.forall_mem_nil _) unchanged

end Changed

theorem Stepped.changed {before : System} {action : Action} {result : List Event × System}
    (stepped : Stepped before action result) (numbered : before.Numbered) :
    (∃ m library, m ∈ before.library.handles.values ∧ before.connecting = none ∧
        destroy m before.library = some library ∧ action = .destroy m ∧
        result = ([], { before with library := library })) ∨
      Changed before.library result.1 result.2.library := by
  have old := numbered.old
  cases stepped with
  | created => exact .inr .created
  | destroyed member idle destroyed => exact .inl ⟨_, _, member, idle, destroyed, rfl, rfl⟩
  | set member publications sets =>
      exact .inr (.kept (List.forall_mem_nil _)
        (sets.keepsMessages publications (old _ member) rfl))
  | published member published => exact .inr (.published member published)
  | subscribed member searched =>
      exact .inr (.kept (List.forall_mem_nil _) searched.keepsMessages)
  | began member idle spec =>
      rcases spec.kept (old _ member) with ⟨silent, keeps⟩
      refine .inr (System.conclude_kept _ (fun event here => ?_) keeps)
      rcases List.mem_cons.mp here with rfl | here
      · trivial
      · exact silent event here
  | connecting here spec =>
      exact .inr (spec.changed (numbered.connecting _ here))
  | looped found alive spec => exact .inr (spec.changed old)

theorem Cycled.registered {before : Library} {sock : SOCKET}
    {result : List Event × Option Packet × Int × Library} (cycled : Cycled sock before result)
    (registered : Registered before) : Registered result.2.2.2 := by
  have old := registered.old
  rw [← registered.clients] at old
  cases cycled with
  | nothing reads searched => exact registered.of_keepsMessages searched.keepsMessages
  | returned member owner typed notPublish searched =>
      exact registered.of_keepsMessages searched.keepsMessages
  | publish member owner searched writes handled clientMember clientOwner sets =>
      exact registered.of_sets (old _ clientMember) sets
  | puback member owner id searched handled clientMember clientOwner sets values =>
      exact registered.of_sets (old _ clientMember) sets

theorem Changed.registered {before after : Library} {events : List Event}
    (changed : Changed before events after) (registered : Registered before) :
    Registered after := by
  cases changed with
  | created => exact registered.create _
  | published member published =>
      rcases publish5_sets published with ⟨_, _, sets⟩
      exact registered.of_sets (registered.old _ member) sets
  | cycled spec => exact spec.registered registered
  | delivered member publications delivered keeps =>
      exact (registered.of_sets (registered.old _ member) delivered).of_keepsMessages keeps
  | kept silent keeps => exact registered.of_keepsMessages keeps

theorem Cycled.lists {before : Library} {sock : SOCKET}
    {result : List Event × Option Packet × Int × Library} (cycled : Cycled sock before result) :
    SameLists before result.2.2.2 := by
  cases cycled with
  | nothing reads searched => exact ⟨searched.initialized, searched.handles, searched.created⟩
  | returned member owner typed notPublish searched =>
      exact ⟨searched.initialized, searched.handles, searched.created⟩
  | publish member owner searched writes handled clientMember clientOwner sets =>
      exact ⟨sets.initialized, sets.handles, sets.created⟩
  | puback member owner id searched handled clientMember clientOwner sets values =>
      exact ⟨sets.initialized, sets.handles, sets.created⟩

theorem Changed.lists {before after : Library} {events : List Event}
    (changed : Changed before events after) :
    (∃ clientId, after = create clientId before) ∨ SameLists before after := by
  cases changed with
  | created => exact .inl ⟨_, rfl⟩
  | published member published =>
      rcases publish5_sets published with ⟨_, _, sets⟩
      exact .inr ⟨sets.initialized, sets.handles, sets.created⟩
  | cycled spec => exact .inr spec.lists
  | delivered member publications delivered keeps =>
      exact .inr ⟨keeps.initialized.trans delivered.initialized,
        keeps.handles.trans delivered.handles, keeps.created.trans delivered.created⟩
  | kept silent keeps => exact .inr ⟨keeps.initialized, keeps.handles, keeps.created⟩

theorem Changed.handles {before after : Library} {events : List Event}
    (changed : Changed before events after) (registered : Registered before) {m : Nat}
    (member : m ∈ before.handles.values) : m ∈ after.handles.values := by
  rcases changed.lists with ⟨clientId, rfl⟩ | same
  · rw [(create_spec registered _).handles]
    exact List.mem_append_left _ member
  · rwa [same.handles]

theorem Changed.created_le {before after : Library} {events : List Event}
    (changed : Changed before events after) (registered : Registered before) :
    before.created ≤ after.created := by
  rcases changed.lists with ⟨clientId, rfl⟩ | same
  · exact (create_spec registered _).created ▸ Nat.le_succ _
  · exact same.created.ge

theorem System.conclude_library (m : Nat) (events : List Event) (outcome : ConnectOutcome)
    (system : System) : (conclude m events outcome system).2.library = system.library := by
  cases outcome <;> rfl

theorem System.conclude_loops (m : Nat) (events : List Event) (outcome : ConnectOutcome)
    (system : System) : (conclude m events outcome system).2.loops = system.loops := by
  cases outcome <;> rfl

theorem System.conclude_connecting {m : Nat} {events : List Event} {outcome : ConnectOutcome}
    {system : System} (waits : ∀ call, outcome = .waits call → call.m = m) {call : ConnectCall}
    (here : (conclude m events outcome system).2.connecting = some call) : call.m = m := by
  cases outcome with
  | waits other =>
      cases here
      exact waits call rfl
  | returns rc => cases here

theorem Connecting.waits {choice : Choice} {call next : ConnectCall} {before after : Library}
    {events : List Event} (connecting : Connecting choice call before
      (events, .waits next, after)) : next.m = call.m := by
  cases connecting with
  | waited waited => rfl
  | sent phase sent reconnects descriptors outcome_eq =>
      rcases outcome_eq with same | same
      · cases same
      · cases same
        rfl

theorem Stepped.calls {before : System} {action : Action} {result : List Event × System}
    (stepped : Stepped before action result) {call : ConnectCall}
    (here : result.2.connecting = some call) :
    call.m ∈ before.library.handles.values ∨
      ∃ earlier, before.connecting = some earlier ∧ call.m = earlier.m := by
  cases stepped with
  | began member idle spec =>
      have first := spec.first
      rw [System.conclude_connecting (fun other same => by subst same; exact first.1) here]
      exact .inl member
  | connecting found spec =>
      exact .inr ⟨_, found,
        System.conclude_connecting (fun other same => by subst same; exact spec.waits) here⟩
  | created | destroyed | set | published | subscribed | looped => exact .inr ⟨call, here, rfl⟩

theorem Stepped.connects {before : System} {action : Action} {result : List Event × System}
    (stepped : Stepped before action result) (wellFormed : before.WellFormed) {call : ConnectCall}
    (here : result.2.connecting = some call) : call.m ∈ before.library.handles.values := by
  rcases stepped.calls here with member | ⟨earlier, was, same⟩
  · exact member
  · exact same ▸ wellFormed.connecting earlier was

theorem Stepped.created_le {before : System} {action : Action} {result : List Event × System}
    (stepped : Stepped before action result) (wellFormed : before.WellFormed) :
    before.library.created ≤ result.2.library.created := by
  rcases stepped.changed wellFormed.numbered with
    ⟨m, library, member, idle, destroyed, _, rfl⟩ | changed
  · exact (destroy_spec wellFormed.registered destroyed).created.ge
  · exact changed.created_le wellFormed.registered

theorem Stepped.wellFormed {before : System} {action : Action} {result : List Event × System}
    (stepped : Stepped before action result) (wellFormed : before.WellFormed) :
    result.2.WellFormed := by
  rcases stepped.changed wellFormed.numbered with
    ⟨m, library, member, idle, destroyed, _, rfl⟩ | changed
  · exact ⟨wellFormed.registered.destroy destroyed,
      fun call here => absurd (idle.symm.trans here) (Option.some_ne_none call).symm⟩
  · exact ⟨changed.registered wellFormed.registered,
      fun call here => changed.handles wellFormed.registered (stepped.connects wellFormed here)⟩

/-- The rule for invariants of the system: what every step from a well-formed state keeps,
if it meets the condition, holds behind every run along which the condition is met. -/
theorem run_invariant {condition : Action → System → Prop} (Invariant : List Event → System → Prop)
    (preserved : ∀ {past before action result}, System.WellFormed before →
      Invariant past before → condition action before → step action before = some result →
      Invariant (past ++ result.1) result.2)
    {actions : List Action} {events : List Event} {start final : System}
    (wellFormed : start.WellFormed) (initial : Invariant [] start)
    (along : machine.Along condition actions start)
    (ran : machine.run actions start = some (events, final)) :
    Invariant events final ∧ final.WellFormed :=
  Machine.run_invariant
    (fun past state => Invariant past state ∧ System.WellFormed state)
    (fun _ _ _ _ _ invariant meets stepped =>
      ⟨preserved invariant.2 invariant.1 meets stepped, (step_spec stepped).wellFormed invariant.2⟩)
    [] ⟨initial, wellFormed⟩ along ran

/-- The rule for invariants that every step from a well-formed state keeps. -/
theorem run_invariant_always (Invariant : List Event → System → Prop)
    (preserved : ∀ {past before action result}, System.WellFormed before →
      Invariant past before → step action before = some result →
      Invariant (past ++ result.1) result.2)
    {actions : List Action} {events : List Event} {start final : System}
    (wellFormed : start.WellFormed) (initial : Invariant [] start)
    (ran : machine.run actions start = some (events, final)) :
    Invariant events final ∧ final.WellFormed :=
  run_invariant Invariant (fun wellFormed invariant _ => preserved wellFormed invariant) wellFormed
    initial (Machine.along_true actions start) ran

end MqttClient.MQTTClient
