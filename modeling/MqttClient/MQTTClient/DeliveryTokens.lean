import MqttClient.MQTTClient.Window

/-! # The calls of `deliveryComplete`

`MQTTClient_cycle` calls `deliveryComplete` for every PUBACK, whether or not
`MQTTProtocol_handlePubacks` has found a message for it.
-/

namespace MqttClient.MQTTClient

open Foundation LinkedList MQTTProtocol

/-- A call of `deliveryComplete` with a token. -/
def completes (m : Nat) (dt : Int) : Event → Bool
  | .deliveryComplete client msgid => client = m && msgid = dt
  | _ => false

def given (m : Nat) (dt : Int) : Event → Bool
  | .published client call result =>
      client = m && call.qos = 1 && result.deliveryToken = some dt
  | _ => false

def InFlight.awaits (dt : Int) (publish : InFlight) : Bool := publish.qos = 1 && publish.msgid = dt

/-- A call of `deliveryComplete` comes right behind a PUBACK for the same client, which
took a publish of QoS 1 with this token out of flight. -/
def Retires (past : List Event) (event : Event) : Prop :=
  ∀ m dt, event = .deliveryComplete m dt → ∃ earlier, past = earlier ++ [.puback m m dt] ∧
    ∃ publish ∈ window m earlier, publish.awaits dt = true

def Accounted (events : List Event) : Prop :=
  ∀ m dt, events.countP (completes m dt) + (window m events).countP (InFlight.awaits dt) ≤
    events.countP (given m dt)

/-- A PUBACK that is handled for a client with a `deliveryComplete` callback carries the id
of a message of QoS 1 that this client has in flight. -/
def Expected (before : Library) : Event → Prop
  | .puback m client msgid => (before.objects m).dc = true → client = m ∧
      ∃ message ∈ (before.client m).outboundMsgs.values, message.msgid = msgid ∧ message.qos = 1
  | _ => True

instance (before : Library) : (event : Event) → Decidable (Expected before event)
  | .puback _ _ _ => inferInstanceAs (Decidable (_ → _ ∧ _))
  | .published _ _ _ | .reads _ _ | .received _ _ _ | .deliveryComplete _ _
  | .messageArrived _ _ _ _ | .connectCalled _ _ | .opened _ | .connectSent _ _
  | .connectReturned _ _ => .isTrue trivial

/-- Every PUBACK that a step handles is expected. -/
def PubacksExpected (action : Action) (before : System) : Prop :=
  ∀ result ∈ step action before, ∀ event ∈ result.1, Expected before.library event

instance (action : Action) (before : System) : Decidable (PubacksExpected action before) :=
  inferInstanceAs (Decidable (∀ result ∈ step action before, ∀ event ∈ result.1, _))

def Event.Aside : Event → Prop
  | .published _ _ _ | .puback _ _ _ | .deliveryComplete _ _ => False
  | _ => True

theorem Event.Silent.aside {event : Event} (silent : event.Silent) : event.Aside := by
  cases event with
  | published | puback | deliveryComplete => exact silent
  | _ => trivial

section Steps

variable {before after : Library} {past events : List Event}

theorem Accounted.aside (accounted : Accounted past) (aside : ∀ event ∈ events, event.Aside) :
    Accounted (past ++ events) := by
  intro m dt
  have published : events.countP (given m dt) = 0 := by
    refine List.countP_eq_zero.mpr fun event here => ?_
    have other := aside event here
    cases event with
    | published => exact absurd other id
    | _ => exact Bool.false_ne_true
  have completed : events.countP (completes m dt) = 0 := by
    refine List.countP_eq_zero.mpr fun event here => ?_
    have other := aside event here
    cases event with
    | deliveryComplete => exact absurd other id
    | _ => exact Bool.false_ne_true
  have unrelated : window m (past ++ events) = window m past := by
    refine window_unrelated fun event here publishes => ?_
    have other := aside event here
    cases event with
    | published | puback => exact absurd other id
    | _ => rfl
  rw [List.countP_append, List.countP_append, published, completed, unrelated]
  exact accounted m dt

theorem retires_append (always : Machine.Always Retires past) (events : List Event)
    (uncalled : ∀ m dt, .deliveryComplete m dt ∉ events) :
    Machine.Always Retires (past ++ events) := by
  refine always.append fun earlier event later split m dt same => ?_
  subst same
  refine absurd ?_ (uncalled m dt)
  rw [split]
  exact List.mem_append_right _ List.mem_cons_self

theorem retires_puback (always : Machine.Always Retires past) {m client : Nat} {sock : SOCKET}
    {pack : Packet} {msgid : Int} {complete : Bool}
    (expected : complete = true → client = m ∧
      ∃ publish ∈ window m past, publish.awaits msgid = true) :
    Machine.Always Retires (past ++ .reads m sock :: .received m sock pack ::
      .puback m client msgid :: (if complete then [.deliveryComplete m msgid] else [])) := by
  have handled := retires_append always
    [.reads m sock, .received m sock pack, .puback m client msgid] (by simp)
  cases complete with
  | false => exact handled
  | true =>
      rcases expected rfl with ⟨rfl, waiting⟩
      have called : Machine.Always Retires ((past ++ [.reads client sock,
          .received client sock pack, .puback client client msgid]) ++
            [.deliveryComplete client msgid]) := by
        refine handled.append ?_
        intro earlier event later split other dt same
        cases earlier with
        | cons first rest => simp at split
        | nil =>
            rw [List.nil_append, List.cons.injEq] at split
            cases split.1.trans same
            refine ⟨past ++ [.reads client sock, .received client sock pack], by simp, ?_⟩
            rw [window_append]
            exact waiting
      rwa [List.append_assoc] at called

theorem publish5_deliveryToken {m : Nat} {call : PublishCall} {result : Published}
    (published : publish5 m call before = some (result, after)) :
    result.deliveryToken =
      if call.qos > 0 ∧ result.msgid ≠ 0 then some result.msgid else none := by
  rw [publish5] at published
  split at published
  · cases published
  · rename_i msgid client _
    dsimp only at published
    by_cases refused : call.qos > 0 ∧ msgid = 0
    · rw [if_pos refused] at published
      cases published
      rw [if_neg (fun both => both.2 rfl)]
    · rw [if_neg refused] at published
      rcases Option.map_eq_some_iff.mp published with ⟨started, _, same⟩
      cases same
      by_cases positive : call.qos > 0
      · rw [if_pos positive, if_pos ⟨positive, fun none => refused ⟨positive, none⟩⟩]
      · rw [if_neg positive, if_neg (fun both => positive both.1)]

theorem Accounted.published (accounted : Accounted past) {m : Nat} {call : PublishCall}
    {result : Published} (published : publish5 m call before = some (result, after)) :
    Accounted (past ++ [.published m call result]) := by
  intro client dt
  have token := publish5_deliveryToken published
  have bound := accounted client dt
  have completed : [Event.published m call result].countP (completes client dt) = 0 := rfl
  rw [List.countP_append, List.countP_append, completed, window_append, List.foldl_cons,
    List.foldl_nil, inFlight]
  by_cases joins : m = client ∧ call.qos > 0 ∧ result.msgid ≠ 0
  · have same : given client dt (.published m call result) =
        InFlight.awaits dt ⟨result.msgid, call.qos, call.retained⟩ := by
      simp [given, InFlight.awaits, token, joins]
    rw [if_pos joins, List.countP_append, List.countP_singleton, List.countP_singleton]
    simp only [same]
    omega
  · rw [if_neg joins]
    omega

theorem Accounted.puback (accounted : Accounted past) {m client : Nat} {sock : SOCKET}
    {pack : Packet} {msgid : Int} {complete : Bool}
    (expected : complete = true → client = m ∧
      ∃ publish ∈ window m past, publish.awaits msgid = true) :
    Accounted (past ++ .reads m sock :: .received m sock pack :: .puback m client msgid ::
      (if complete then [.deliveryComplete m msgid] else [])) := by
  intro other dt
  have bound := accounted other dt
  have left : (inFlight other (window other past) (.puback m client msgid)).countP
      (InFlight.awaits dt) + (if complete ∧ m = other ∧ msgid = dt then 1 else 0) ≤
        (window other past).countP (InFlight.awaits dt) := by
    rw [inFlight]
    by_cases reported : complete = true ∧ m = other ∧ msgid = dt
    · rcases reported with ⟨called, rfl, rfl⟩
      rcases expected called with ⟨rfl, publish, member, awaited⟩
      have some := List.countP_pos_iff.mpr ⟨publish, member, awaited⟩
      have none : ((window client past).filter fun publish =>
          ¬(publish.msgid = msgid ∧ publish.qos = 1)).countP (InFlight.awaits msgid) = 0 := by
        refine List.countP_eq_zero.mpr fun publish kept awaited => ?_
        have parts : publish.qos = 1 ∧ publish.msgid = msgid := by
          simpa [InFlight.awaits] using awaited
        exact of_decide_eq_true (List.mem_filter.mp kept).2 ⟨parts.2, parts.1⟩
      rw [if_pos rfl, none, if_pos ⟨called, rfl, rfl⟩]
      omega
    · rw [if_neg reported]
      split
      · exact List.filter_sublist.countP_le
      · exact le_rfl
  have completed : (Event.reads m sock :: .received m sock pack :: .puback m client msgid ::
      (if complete then [.deliveryComplete m msgid] else [])).countP (completes other dt) =
        if complete ∧ m = other ∧ msgid = dt then 1 else 0 := by
    cases complete with
    | false => rfl
    | true => simp [completes, List.countP_cons]
  rw [List.countP_append, List.countP_append, window_puback, completed]
  omega

theorem Changed.accounted (changed : Changed before events after) (windowed : Windowed past before)
    (expected : ∀ event ∈ events, Expected before event)
    (always : Machine.Always Retires past) (accounted : Accounted past) :
    Machine.Always Retires (past ++ events) ∧ Accounted (past ++ events) := by
  have aside (calm : ∀ event ∈ events, event.Aside) :
      Machine.Always Retires (past ++ events) ∧ Accounted (past ++ events) :=
    ⟨retires_append always _ fun m dt here => calm _ here, accounted.aside calm⟩
  cases changed with
  | created => exact aside (List.forall_mem_nil _)
  | published member published =>
      exact ⟨retires_append always _ (by simp), accounted.published published⟩
  | cycled spec =>
      cases spec with
      | nothing reads searched =>
          refine aside fun event here => ?_
          rcases reads event here with ⟨m, _, _, rfl⟩
          trivial
      | returned member owner typed notPublish searched => exact aside (by simp [Event.Aside])
      | publish member owner searched writes handled clientMember clientOwner sets =>
          exact aside (by simp [Event.Aside])
      | puback member owner id searched handled clientMember clientOwner sets values =>
          rename_i m client ack msgid outboundMsgs library
          have expected : (before.objects m).dc = true → client = m ∧
              ∃ publish ∈ window m past, publish.awaits msgid = true := by
            intro called
            rcases expected (.puback m client msgid) (by simp) called with
              ⟨same, message, member, id, qos1⟩
            refine ⟨same, .of message, ?_, by simp [InFlight.awaits, InFlight.of, id, qos1]⟩
            rw [← (windowed m).2]
            exact List.mem_map_of_mem member
          exact ⟨retires_puback always expected, accounted.puback expected⟩
  | delivered member publications delivered keeps => exact aside (by simp [Event.Aside])
  | kept silent keeps => exact aside fun event here => (silent event here).aside

end Steps

theorem Stepped.accounted {before : System} {action : Action} {result : List Event × System}
    {past : List Event} (stepped : Stepped before action result) (wellFormed : before.WellFormed)
    (expected : ∀ event ∈ result.1, Expected before.library event)
    (windowed : Windowed past before.library) (always : Machine.Always Retires past)
    (accounted : Accounted past) :
    Machine.Always Retires (past ++ result.1) ∧ Accounted (past ++ result.1) := by
  rcases stepped.changed wellFormed.numbered with
    ⟨m, library, member, idle, destroyed, _, rfl⟩ | changed
  · rw [List.append_nil]
    exact ⟨always, accounted⟩
  · exact changed.accounted windowed expected always accounted

/-- In every run in which a PUBACK for a client with a callback always carries the id of a
message of QoS 1 that the client has in flight, every call of `deliveryComplete` comes
behind a PUBACK that has retired a message of QoS 1 with its token, so that no token is
reported more often than it was given to a publish of QoS 1. -/
theorem deliveryComplete_retires {actions : List Action} {events : List Event} {final : System}
    {inbound : SOCKET → RecvSource UInt8} {outbound : SOCKET → List WritevEvent}
    (along : machine.Along PubacksExpected actions (.start inbound outbound))
    (ran : machine.run actions (.start inbound outbound) = some (events, final)) :
    Machine.Always Retires events ∧
      ∀ m dt, events.countP (completes m dt) ≤ events.countP (given m dt) := by
  have invariant := run_invariant (fun past system =>
      Windowed past system.library ∧ Machine.Always Retires past ∧ Accounted past)
    (fun wellFormed holds expected stepped =>
      ⟨(step_spec stepped).windowed wellFormed holds.1,
        (step_spec stepped).accounted wellFormed (expected _ stepped) holds.1 holds.2.1
          holds.2.2⟩)
    (System.start_wellFormed inbound outbound)
    ⟨fun _ => newClient_windowOf _, .nil, fun _ _ => le_rfl⟩ along ran
  refine ⟨invariant.1.2.1, fun m dt => ?_⟩
  have bound := invariant.1.2.2 m dt
  omega

/-- One publish of QoS 1, and its PUBACK. -/
theorem deliveryComplete_retires_one : ∃ events final,
    machine.run (oneClient ++ [.publish 0 ⟨⟨[0x61], by decide⟩, [], 1, 0, ⟨⟨0⟩, [], 0, 0, [], 0, 4,
      .zero⟩⟩, .loopStep 0 .ready, .loopStep 0 {}]) (.receiving [0x40, 2, 0, 1]) =
        some (events, final) ∧
      Machine.Always Retires events ∧ events.countP (completes 0 1) = 1 := by
  have observed : (machine.run (oneClient ++ [.publish 0 ⟨⟨[0x61], by decide⟩, [], 1, 0,
      ⟨⟨0⟩, [], 0, 0, [], 0, 4, .zero⟩⟩, .loopStep 0 .ready, .loopStep 0 {}])
      (.receiving [0x40, 2, 0, 1])).map (fun reached => reached.1.countP (completes 0 1)) =
        some 1 := by
    decide +kernel
  rcases Option.map_eq_some_iff.mp observed with ⟨⟨events, final⟩, ran, called⟩
  exact ⟨events, final, ran, (deliveryComplete_retires (by decide +kernel) ran).1, called⟩

/-- A PUBACK with an id that was never given out: `deliveryComplete` is called. -/
theorem deliveryComplete_unpublished : ∃ events final,
    machine.run (oneClient ++ [.loopStep 0 .ready, .loopStep 0 {}]) (.receiving [0x40, 2, 0, 9]) =
        some (events, final) ∧
      events.countP (completes 0 9) = 1 ∧ events.countP (given 0 9) = 0 := by
  have observed : (machine.run (oneClient ++ [.loopStep 0 .ready, .loopStep 0 {}])
      (.receiving [0x40, 2, 0, 9])).map (fun reached =>
        (reached.1.countP (completes 0 9), reached.1.countP (given 0 9))) = some (1, 0) := by
    decide +kernel
  rcases Option.map_eq_some_iff.mp observed with ⟨⟨events, final⟩, ran, same⟩
  rcases Prod.mk.inj same with ⟨called, published⟩
  exact ⟨events, final, ran, called, published⟩

end MqttClient.MQTTClient
