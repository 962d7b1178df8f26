import MqttClient.MQTTClient.Connections

/-! # The messages in flight

The list `outboundMsgs` of a client is what its publish calls have put into it and its
PUBACK packets have not taken out.
-/

namespace MqttClient.MQTTClient

open Foundation LinkedList MQTTProtocol

/-- A QoS 1 or 2 publish in flight: its message id, its QoS, and its retain flag. -/
structure InFlight where
  msgid : Int
  qos : Int
  retain : Int
  deriving DecidableEq, Repr

def InFlight.of (message : Messages) : InFlight := ⟨message.msgid, message.qos, message.retain⟩

def inFlight (m : Nat) (window : List InFlight) : Event → List InFlight
  | .published client call result =>
      if client = m ∧ call.qos > 0 ∧ result.msgid ≠ 0 then
        window ++ [⟨result.msgid, call.qos, call.retained⟩]
      else window
  | .puback _ client msgid =>
      if client = m then window.filter fun publish => ¬(publish.msgid = msgid ∧ publish.qos = 1)
      else window
  | _ => window

def window (m : Nat) (events : List Event) : List InFlight := events.foldl (inFlight m) []

theorem window_append (m : Nat) (past events : List Event) :
    window m (past ++ events) = events.foldl (inFlight m) (window m past) :=
  List.foldl_append

theorem window_unrelated {m : Nat} {past events : List Event}
    (unrelated : ∀ event ∈ events, ∀ publishes, inFlight m publishes event = publishes) :
    window m (past ++ events) = window m past := by
  rw [window_append]
  induction events with
  | nil => rfl
  | cons event events induction =>
      have parts := List.forall_mem_cons.mp unrelated
      rw [List.foldl_cons, parts.1]
      exact induction parts.2

theorem Event.Silent.inFlight {event : Event} (silent : event.Silent) (m : Nat)
    (publishes : List InFlight) : MQTTClient.inFlight m publishes event = publishes := by
  cases event with
  | published | puback => exact absurd silent id
  | _ => rfl

theorem window_puback (m handle client : Nat) (sock : SOCKET) (pack : Packet) (msgid : Int)
    (complete : Bool) (past : List Event) :
    window m (past ++ .reads handle sock :: .received handle sock pack ::
        .puback handle client msgid ::
        (if complete then [.deliveryComplete handle msgid] else [])) =
      inFlight m (window m past) (.puback handle client msgid) := by
  rw [window_append, List.foldl_cons, List.foldl_cons, List.foldl_cons]
  split <;> rfl

def WindowOf (publishes : List InFlight) (client : Clients) : Prop :=
  client.Numbered ∧ client.outboundMsgs.values.map InFlight.of = publishes

section Window

variable {publishes : List InFlight} {client : Clients}

theorem numbered_of_eq {other : Clients} (numbered : client.Numbered)
    (outboundMsgs : other.outboundMsgs.values = client.outboundMsgs.values)
    (msgID : other.msgID = client.msgID) : other.Numbered where
  distinct := by
    rw [Distinct, outboundMsgs]
    exact numbered.distinct
  range := by
    rw [outboundMsgs]
    exact numbered.range
  last := by
    rw [msgID]
    exact numbered.last
  unused := by
    rw [msgID, outboundMsgs]
    exact numbered.unused

theorem WindowOf.of_eq {other : Clients} (holds : WindowOf publishes client)
    (outboundMsgs : other.outboundMsgs.values = client.outboundMsgs.values)
    (msgID : other.msgID = client.msgID) : WindowOf publishes other :=
  ⟨numbered_of_eq holds.1 outboundMsgs msgID, by rw [outboundMsgs, holds.2]⟩

theorem newClient_windowOf (clientId : CString) : WindowOf [] (newClient clientId).c :=
  ⟨⟨List.nodup_nil, nofun, ⟨le_rfl, by change (0 : Int) ≤ maxMsgId; decide⟩, fun _ => rfl⟩, rfl⟩

theorem WindowOf.append {outboundMsgs : LinkedList Messages} {message : Messages}
    (holds : WindowOf publishes client) (free : client.Free message.msgid)
    (values : outboundMsgs.values = client.outboundMsgs.values ++ [message]) :
    WindowOf (publishes ++ [.of message]) (client.withOutbound message.msgid outboundMsgs) := by
  refine ⟨⟨?_, ?_, ?_, ?_⟩, ?_⟩
  · have appended := holds.1.distinct.append free.2.2
    rw [Distinct, values_append] at appended
    rw [Distinct]
    change (outboundMsgs.values.map Messages.msgid).Nodup
    rwa [values]
  · intro other member
    change other ∈ outboundMsgs.values at member
    rw [values, List.mem_append, List.mem_singleton] at member
    rcases member with member | rfl
    · exact holds.1.range other member
    · exact ⟨free.1, free.2.1⟩
  · have positive : 1 ≤ message.msgid ∧ message.msgid ≤ maxMsgId := ⟨free.1, free.2.1⟩
    exact ⟨by change 0 ≤ message.msgid; omega, positive.2⟩
  · intro none
    have positive := free.1
    change message.msgid = 0 at none
    omega
  · change outboundMsgs.values.map InFlight.of = _
    rw [values, List.map_append, holds.2]
    rfl

theorem WindowOf.retire {outboundMsgs : LinkedList Messages} {msgid : Int}
    (holds : WindowOf publishes client)
    (values : outboundMsgs.values = retired msgid client.outboundMsgs.values) :
    WindowOf (publishes.filter fun publish => ¬(publish.msgid = msgid ∧ publish.qos = 1))
      (client.withOutbound client.msgID outboundMsgs) := by
  have subset : ∀ message ∈ outboundMsgs.values, message ∈ client.outboundMsgs.values := by
    rw [values]
    exact fun message member => List.mem_of_mem_filter member
  refine ⟨⟨?_, fun message member => holds.1.range message (subset message member),
    holds.1.last, fun none => ?_⟩, ?_⟩
  · change (outboundMsgs.values.map Messages.msgid).Nodup
    rw [values]
    exact (List.filter_sublist.map _).nodup holds.1.distinct
  · change outboundMsgs.values = []
    rw [values, holds.1.unused none]
    rfl
  · change outboundMsgs.values.map InFlight.of = _
    rw [values, ← holds.2, retired, List.filter_map]
    rfl

theorem publish5_windowOf {before after : Library} {m : Nat} {call : PublishCall}
    {result : Published} (published : publish5 m call before = some (result, after))
    (holds : WindowOf publishes (before.client m)) :
    WindowOf (if call.qos > 0 ∧ result.msgid ≠ 0 then
        publishes ++ [⟨result.msgid, call.qos, call.retained⟩] else publishes)
        (after.client m) ∧
      ∀ other, other ≠ m → after.client other = before.client other := by
  by_cases positive : call.qos > 0
  · rcases publish5_of_qos12 positive holds.1 with
      ⟨msgid, outboundMsgs, elements, free, library, sets, _, _, equation⟩
    have values : outboundMsgs.values = (before.client m).outboundMsgs.values := by
      rw [LinkedList.values, elements, LinkedList.values]
    rw [equation] at published
    by_cases none : msgid = 0
    · rw [if_pos none] at published
      cases published
      rw [if_neg (fun both => both.2 rfl), sets.client_self]
      refine ⟨holds.of_eq values ?_, fun other => sets.client_of_ne⟩
      rw [if_neg (by simpa using none)]
      rfl
    · rw [if_neg none] at published
      rcases Option.map_eq_some_iff.mp published with ⟨⟨rc, final⟩, started, same⟩
      cases same
      rw [startPublish_eq positive] at started
      rcases Option.map_eq_some_iff.mp started with ⟨sent, _, same⟩
      cases same
      have kept := withMessage_sets m (call.publish msgid (before.client m).mqttVersion) call.qos
        call.retained library
      rw [if_pos none] at free sets
      have final := (sets.trans kept).client_self
      rw [sets.client_self] at final
      rw [if_pos ⟨positive, none⟩]
      refine ⟨?_, fun other => (sets.trans kept).client_of_ne⟩
      change WindowOf _ ((withMessage m (call.publish msgid (before.client m).mqttVersion)
        call.qos call.retained library).client m)
      rw [final]
      let message := keptMessage (call.publish msgid (before.client m).mqttVersion) call.qos
        call.retained library
      have appended : (outboundMsgs.append message).values =
          (before.client m).outboundMsgs.values ++ [message] := by
        rw [values_append, values]
      exact holds.append free.1 appended
  · rcases publish5_of_qos0 positive published with ⟨keeps, msgid⟩
    rw [if_neg (fun both => positive both.1), keeps.client]
    exact ⟨holds, fun other _ => keeps.client other⟩

end Window

def Windowed (past : List Event) (library : Library) : Prop :=
  ∀ m, WindowOf (window m past) (library.client m)

section Steps

variable {before after : Library} {past events : List Event}

theorem Windowed.of_kept (windowed : Windowed past before)
    (outboundMsgs : ∀ m, (after.client m).outboundMsgs.values =
      (before.client m).outboundMsgs.values)
    (msgID : ∀ m, (after.client m).msgID = (before.client m).msgID)
    (quiet : ∀ m, window m (past ++ events) = window m past) :
    Windowed (past ++ events) after := by
  intro m
  rw [quiet]
  exact (windowed m).of_eq (outboundMsgs m) (msgID m)

theorem Cycled.windowed {sock : SOCKET} {pack : Option Packet} {rc : Int}
    (cycled : Cycled sock before (events, pack, rc, after)) (windowed : Windowed past before) :
    Windowed (past ++ events) after := by
  cases cycled with
  | nothing reads searched =>
      refine windowed.of_kept (fun m => by rw [searched.client]) (fun m => by rw [searched.client])
        fun m => window_unrelated fun event here publishes => ?_
      rcases reads event here with ⟨client, _, _, rfl⟩
      rfl
  | returned member owner typed notPublish searched =>
      refine windowed.of_kept (fun m => by rw [searched.client]) (fun m => by rw [searched.client])
        fun m => by rw [window_append]; rfl
  | publish member owner searched writes handled clientMember clientOwner sets =>
      refine windowed.of_kept ?_ ?_ fun m => by rw [window_append]; rfl
      · exact sets.stable (fun object => object.c.outboundMsgs.values) rfl
      · exact sets.stable (fun object => object.c.msgID) rfl
  | puback member owner id searched handled clientMember clientOwner sets values =>
      rename_i handle client ack msgid outboundMsgs library
      intro m
      rw [window_puback, inFlight]
      by_cases here : client = m
      · subst here
        rw [if_pos rfl, sets.client_self]
        exact (windowed client).retire (values (windowed client).1.distinct)
      · rw [if_neg here, sets.client_of_ne (Ne.symm here)]
        exact windowed m

theorem Changed.windowed (changed : Changed before events after)
    (registered : Registered before) (windowed : Windowed past before) :
    Windowed (past ++ events) after := by
  cases changed with
  | created =>
      rename_i clientId
      have creates := create_spec registered clientId
      intro m
      rw [List.append_nil, Library.client, creates.objects]
      by_cases here : m = before.created
      · -- nothing has been published for a handle that was not given out
        rcases registered.blank before.created le_rfl with ⟨other, blank⟩
        have empty := (windowed before.created).2
        rw [Library.client, blank] at empty
        rw [here, Function.update_self, ← empty]
        exact newClient_windowOf clientId
      · rw [Function.update_of_ne here]
        exact windowed m
  | published member published =>
      rename_i client call result
      intro m
      rw [window_append, List.foldl_cons, List.foldl_nil, inFlight]
      rcases publish5_windowOf published (windowed client) with ⟨here, others⟩
      by_cases same : client = m
      · subst same
        simpa only [true_and] using here
      · rw [if_neg (fun all => same all.1), others m (Ne.symm same)]
        exact windowed m
  | cycled spec => exact spec.windowed windowed
  | delivered member publications delivered keeps =>
      refine windowed.of_kept (fun m => ?_) (fun m => ?_) fun m => by rw [window_append]; rfl
      · rw [keeps.outboundMsgs]
        exact delivered.stable (fun object => object.c.outboundMsgs.values) rfl m
      · rw [keeps.msgID]
        exact delivered.stable (fun object => object.c.msgID) rfl m
  | kept silent keeps =>
      exact windowed.of_kept (fun m => by rw [keeps.outboundMsgs]) (fun m => keeps.msgID m)
        fun m => window_unrelated fun event here => (silent event here).inFlight m

end Steps

theorem Stepped.windowed {before : System} {action : Action} {result : List Event × System}
    {past : List Event} (stepped : Stepped before action result) (wellFormed : before.WellFormed)
    (windowed : Windowed past before.library) :
    Windowed (past ++ result.1) result.2.library := by
  rcases stepped.changed wellFormed.numbered with
    ⟨m, library, member, idle, destroyed, _, rfl⟩ | changed
  · have destroys := destroy_spec wellFormed.registered destroyed
    intro other
    rw [List.append_nil, Library.client, destroys.objects]
    exact windowed other
  · exact changed.windowed wellFormed.registered windowed

theorem windowed_of_run {actions : List Action} {events : List Event} {final : System}
    {inbound : SOCKET → RecvSource UInt8} {outbound : SOCKET → List WritevEvent}
    (ran : machine.run actions (.start inbound outbound) = some (events, final)) :
    Windowed events final.library ∧ final.WellFormed :=
  run_invariant_always (fun past system => Windowed past system.library)
    (fun wellFormed windowed stepped => (step_spec stepped).windowed wellFormed windowed)
    (System.start_wellFormed inbound outbound) (fun _ => newClient_windowOf _) ran

/-- Behind every run, the messages of a client are, in order, the QoS 1 and 2 publishes
that obtained a message id, without those of QoS 1 that a PUBACK has acknowledged since.
Their ids are distinct and lie in 1..65535. A PUBACK that matches no message of QoS 1
changes nothing. -/
theorem outboundMsgs_eq_window {actions : List Action} {events : List Event} {final : System}
    {inbound : SOCKET → RecvSource UInt8} {outbound : SOCKET → List WritevEvent}
    (ran : machine.run actions (.start inbound outbound) = some (events, final)) :
    (∀ m ∈ final.library.handles.values,
      let messages := (final.library.client m).outboundMsgs.values
      messages.map InFlight.of = window m events ∧ (messages.map Messages.msgid).Nodup ∧
        ∀ message ∈ messages, 1 ≤ message.msgid ∧ message.msgid ≤ 65535) ∧
      ∀ msgid sock client after,
        handlePubacks msgid sock final.library = some (client, after) →
        (∀ message ∈ (final.library.client client).outboundMsgs.values,
          ¬(message.msgid = msgid ∧ message.qos = 1)) →
        Unchanged final.library after := by
  have windowed := (windowed_of_run ran).1
  refine ⟨fun m _ => ?_, fun msgid sock client after handled => handlePubacks_unmatched handled⟩
  exact ⟨(windowed m).2, (windowed m).1.distinct, (windowed m).1.range⟩

/-- Three publishes, of which the first is acknowledged, and a PUBACK packet without a match. -/
def publishesAcknowledged : List Action :=
  oneClient ++ oneRound ++ List.replicate 4 (.connectStep {}) ++
    [publishOne, .publish 0 ⟨.ofBlock [0x62], [0x78], 2, 1, ⟨⟨0⟩, [], 0, 0, [], 0, 4, .zero⟩⟩,
      publishOne] ++ oneRound ++ oneRound

theorem outboundMsgs_eq_window_three : ∃ events final,
    machine.run publishesAcknowledged
        (.receiving [0x20, 2, 0, 0, 0x40, 2, 0, 1, 0x40, 2, 0, 9]) = some (events, final) ∧
      final.library.reads.inbound 3 = [] ∧
      (final.library.client 0).outboundMsgs.values.map InFlight.of = [⟨2, 2, 1⟩, ⟨3, 1, 0⟩] ∧
      ((final.library.client 0).outboundMsgs.values.map Messages.msgid).Nodup := by
  have observed : (machine.run publishesAcknowledged
      (.receiving [0x20, 2, 0, 0, 0x40, 2, 0, 1, 0x40, 2, 0, 9])).map (fun reached =>
        decide (0 ∈ reached.2.library.handles.values ∧ reached.2.library.reads.inbound 3 = [] ∧
          window 0 reached.1 = [⟨2, 2, 1⟩, ⟨3, 1, 0⟩])) = some true := by
    decide +kernel
  rcases Option.map_eq_some_iff.mp observed with ⟨⟨events, final⟩, ran, same⟩
  rcases of_decide_eq_true same with ⟨member, empty, published⟩
  rcases (outboundMsgs_eq_window ran).1 0 member with ⟨exact, distinct, _⟩
  exact ⟨events, final, ran, empty, exact.trans published, distinct⟩

end MqttClient.MQTTClient
