import MqttClient.MQTTClient.Steps
import MqttClient.Socket.Handover

/-! # Subscribing

What `MQTTClient_subscribe` writes, and what it tells its caller about it.
-/

namespace MqttClient.MQTTClient

open Foundation LinkedList MQTTPacket Socket

def bodyOf (packet : List UInt8) : List UInt8 :=
  match VariableByte.scan packet.length (packet.drop 1) with
  | .value _ body => body
  | _ => []

def subscribePacket (topic : CString) (qos : Int) : List UInt8 :=
  let body := subscribeBody [(topic, qos)] 0
  buf0 (.ofBits MsgType.subscribe 0 1 0) body.length ++ body

/-- A subscription whose packet is not written: its topic does not fit into a block, output
is pending on the socket, or the write fails. -/
def SubscribeRefused (m : Nat) (topic : CString) (before : Library) : Prop :=
  2147483648 ≤ topic.bytes.length ∨
    ¬(Idle (before.client m).socket before.writes ∧ ¬Fails (before.client m).socket before.writes)

instance (m : Nat) (topic : CString) (before : Library) :
    Decidable (SubscribeRefused m topic before) :=
  inferInstanceAs (Decidable (_ ∨ ¬(_ ∧ _)))

section Subscribe

variable {m : Nat} {topic : CString} {qos rc : Int} {before after : Library}

theorem bodyOf_buf0 (header : Header) (body : List UInt8) :
    bodyOf (buf0 header body.length ++ body) = body := by
  rw [bodyOf, buf0, List.cons_append, List.drop_one, List.tail_cons, encode_eq,
    VariableByte.scan_encode_of_length]
  rw [List.length_cons, List.length_append]
  omega

theorem fillBlock_subscribe {block : Option (List UInt8)}
    (filled : fillBlock (subscribeDatalen [(topic, qos)]) (subscribeBody [(topic, qos)] 0) =
      some block) :
    (2147483648 ≤ topic.bytes.length ∧ block = none) ∨
      (topic.bytes.length < 2147483648 ∧ block = some (subscribeBody [(topic, qos)] 0)) := by
  have length : (subscribeBody [(topic, qos)] 0).length = 5 + topic.bytes.length := by
    simp [subscribeBody, writeUTF, writeChar]
    omega
  have datalen : subscribeDatalen [(topic, qos)] = 5 + toInt topic.bytes.length := by
    rw [subscribeDatalen, List.map_singleton, List.sum_singleton, List.length_singleton]
    rfl
  rw [fillBlock, length, datalen] at filled
  have counted : toInt topic.bytes.length = topic.bytes.length ↔ _ := toInt_eq_self_iff
  have fits : toInt (5 + toInt topic.bytes.length) = 5 + toInt topic.bytes.length ↔ _ :=
    toInt_eq_self_iff
  split at filled
  · cases filled
  · split at filled
    · cases filled
      exact .inl ⟨by omega, rfl⟩
    · split at filled
      · cases filled
        exact .inr ⟨by omega, rfl⟩
      · cases filled

theorem subscribe_outcome (subscribed : subscribe m topic qos before = some (rc, after)) :
    rc = (if qos = 0x80 then 0x80 else mqttclientSuccess) ∧ before.Searched after ∧
      if SubscribeRefused m topic before then Unwritten before.writes after.writes
      else OnItsWay (before.client m).socket (subscribePacket topic qos) before.writes
        after.writes := by
  have searched := subscribe_searched subscribed
  unfold subscribe at subscribed
  rcases Option.map_eq_some_iff.mp subscribed with ⟨sent, sending, same⟩
  rw [Prod.mk.injEq] at same
  rcases same with ⟨rfl, rfl⟩
  refine ⟨rfl, searched, ?_⟩
  rcases Option.map_eq_some_iff.mp sending with ⟨block, filled, rfl⟩
  rcases fillBlock_subscribe filled with ⟨long, rfl⟩ | ⟨short, rfl⟩
  · have refused : SubscribeRefused m topic before := .inl long
    rw [if_pos refused]
    exact .refl _
  · have sent := putdatas_outcome (before.client m).socket
      (buf0 (.ofBits MsgType.subscribe 0 1 0) (subscribeBody [(topic, qos)] 0).length)
      ⟨[subscribeBody [(topic, qos)] 0], by simp⟩ before.writes
    split at sent
    · rename_i writes
      have written : ¬SubscribeRefused m topic before :=
        not_or.mpr ⟨Nat.not_le.mpr short, not_not_intro writes⟩
      rw [if_neg written]
      have packet := sent.2
      rw [List.flatten_cons, List.flatten_singleton] at packet
      exact packet
    · rename_i writes
      have refused : SubscribeRefused m topic before := .inr writes
      rw [if_pos refused]
      exact sent.2

end Subscribe

/-! ## The packet identifier -/

/-- A SUBSCRIBE packet that a step puts on its way carries an id that no message of the client
in flight has. -/
def CarriesFreeId (action : Action) (before : System) : Prop :=
  match action with
  | .subscribe m _ _ => ∀ result, step action before = some result →
      ∀ packet, packet ≠ [] → OnItsWay (before.library.client m).socket packet
        before.library.writes result.2.library.writes →
          (before.library.client m).Free (readInt (bodyOf packet)).1
  | _ => True

/-- A subscription is refused. -/
def SubscriptionsRefused (action : Action) (before : System) : Prop :=
  match action with
  | .subscribe m topic _ => SubscribeRefused m topic before.library
  | _ => True

instance (action : Action) (before : System) : Decidable (SubscriptionsRefused action before) :=
  match action with
  | .subscribe _ _ _ => inferInstanceAs (Decidable (SubscribeRefused _ _ _))
  | .create _ | .destroy _ | .setCallbacks _ _ _ | .publish _ _ | .connect _ _ _
  | .connectStep _ | .loopStep _ _ => .isTrue trivial

theorem readInt_subscribePacket (topic : CString) (qos : Int) :
    (readInt (bodyOf (subscribePacket topic qos))).1 = 0 := by
  rw [subscribePacket, bodyOf_buf0]
  rfl

theorem carriesFreeId_iff {action : Action} {before : System} {result : List Event × System}
    (stepped : step action before = some result) :
    CarriesFreeId action before ↔ SubscriptionsRefused action before := by
  cases action with
  | subscribe m topic qos =>
      have calling := stepped
      rcases System.call_eq_some calling with ⟨_, events, library, called, rfl⟩
      rcases Option.map_eq_some_iff.mp called with ⟨⟨rc, after⟩, subscribed, same⟩
      rw [Prod.mk.injEq] at same
      rcases same with ⟨rfl, rfl⟩
      have written := (subscribe_outcome subscribed).2.2
      constructor
      · intro carries
        by_contra allowed
        change ¬SubscribeRefused m topic before.library at allowed
        rw [if_neg allowed] at written
        have free := carries _ stepped (subscribePacket topic qos) (List.cons_ne_nil _ _) written
        rw [readInt_subscribePacket] at free
        exact absurd free.1 (by decide)
      · intro refused other again packet nonempty onItsWay
        cases stepped.symm.trans again
        change SubscribeRefused m topic before.library at refused
        rw [if_pos refused] at written
        exact absurd onItsWay (written.not_onItsWay nonempty)
  | create | destroy | setCallbacks | publish | connect | connectStep | loopStep => exact Iff.rfl

/-- In a run, all SUBSCRIBE packets carry an id that is not in use exactly if none is
written. -/
theorem subscribe_ids_iff {actions : List Action} {events : List Event} {final : System}
    {inbound : SOCKET → RecvSource UInt8} {outbound : SOCKET → List WritevEvent}
    (ran : machine.run actions (.start inbound outbound) = some (events, final)) :
    machine.Along CarriesFreeId actions (.start inbound outbound) ↔
      machine.Along SubscriptionsRefused actions (.start inbound outbound) :=
  Machine.along_iff (fun _ _ _ stepped => carriesFreeId_iff stepped) ran

/-- A subscription on a connection that takes no byte. -/
theorem subscribe_ids_iff_refused : ∃ events final,
    machine.run (oneClient ++ [.subscribe 0 (.ofBlock [0x61]) 1])
        (.start (fun _ => []) fun _ => [.accept 1000, .failed]) = some (events, final) ∧
      machine.Along CarriesFreeId (oneClient ++ [.subscribe 0 (.ofBlock [0x61]) 1])
        (.start (fun _ => []) fun _ => [.accept 1000, .failed]) := by
  have observed : (machine.run (oneClient ++ [.subscribe 0 (.ofBlock [0x61]) 1])
      (.start (fun _ => []) fun _ => [.accept 1000, .failed])).isSome = true := by
    decide +kernel
  rcases Option.isSome_iff_exists.mp observed with ⟨⟨events, final⟩, ran⟩
  exact ⟨events, final, ran, (subscribe_ids_iff ran).mpr (by decide +kernel)⟩

/-- A subscription of a client that is connected carries the id 0. -/
theorem not_carriesFreeId_connected : ∃ events final,
    machine.run (oneClient ++ [.subscribe 0 (.ofBlock [0x61]) 1]) (.receiving []) =
        some (events, final) ∧
      ¬machine.Along CarriesFreeId (oneClient ++ [.subscribe 0 (.ofBlock [0x61]) 1])
        (.receiving []) := by
  have observed : (machine.run (oneClient ++ [.subscribe 0 (.ofBlock [0x61]) 1])
      (.receiving [])).isSome = true := by
    decide +kernel
  rcases Option.isSome_iff_exists.mp observed with ⟨⟨events, final⟩, ran⟩
  refine ⟨events, final, ran, fun carries => ?_⟩
  have refused := (Machine.along_iff (fun _ _ _ stepped => carriesFreeId_iff stepped) ran).mp
    carries
  exact absurd refused (by decide +kernel)

/-! ## The outcome -/

/-- A subscription that is reported as a success is on its way, and no SUBACK that refuses it
has come in by then. -/
def ReportsSubscription (m : Nat) (topic : CString) (qos rc : Int) (before after : Library) :
    Prop :=
  rc = mqttclientSuccess →
    OnItsWay (before.client m).socket (subscribePacket topic qos) before.writes after.writes ∧
      ∀ pack, (after.objects m).pack = some (.suback pack) → 0x80 ∈ pack.qoss →
        (before.objects m).pack = some (.suback pack)

/-- The outcome of a subscription is reported exactly if its packet is not refused, or 0x80
is the QoS that is asked for. -/
theorem reportsSubscription_iff {m : Nat} {topic : CString} {qos rc : Int}
    {before after : Library} (subscribed : subscribe m topic qos before = some (rc, after)) :
    ReportsSubscription m topic qos rc before after ↔
      qos = 0x80 ∨ ¬SubscribeRefused m topic before := by
  rcases subscribe_outcome subscribed with ⟨rfl, searched, written⟩
  unfold ReportsSubscription
  by_cases bad : qos = 0x80
  · rw [if_pos bad]
    exact iff_of_true (fun success => absurd success (by decide)) (.inl bad)
  · rw [if_neg bad]
    by_cases refused : SubscribeRefused m topic before
    · rw [if_pos refused] at written
      refine iff_of_false (fun reports => ?_) (not_or.mpr ⟨bad, not_not_intro refused⟩)
      exact written.not_onItsWay (List.cons_ne_nil _ _) (reports rfl).1
    · rw [if_neg refused] at written
      refine iff_of_true (fun _ => ⟨written, fun pack stored _ => ?_⟩) (.inr refused)
      rwa [searched.objects] at stored

/-- A subscription of a client that is connected. -/
theorem reportsSubscription_connected : ∃ events system rc after,
    connectedClient = some (events, system) ∧
      subscribe 0 (.ofBlock [0x61]) 1 system.library = some (rc, after) ∧
      ReportsSubscription 0 (.ofBlock [0x61]) 1 rc system.library after := by
  have observed : (connectedClient.bind fun reached =>
      (subscribe 0 (.ofBlock [0x61]) 1 reached.2.library).map fun _ =>
        decide (SubscribeRefused 0 (.ofBlock [0x61]) reached.2.library)) = some false := by
    decide +kernel
  rcases Option.bind_eq_some_iff.mp observed with ⟨⟨events, system⟩, connected, observed⟩
  rcases Option.map_eq_some_iff.mp observed with ⟨⟨rc, after⟩, subscribed, written⟩
  exact ⟨events, system, rc, after, connected, subscribed,
    (reportsSubscription_iff subscribed).mpr (.inr (of_decide_eq_false written))⟩

/-- A subscription while a part of a PUBLISH packet is pending on the socket: nothing of it is
written, and it is reported as a success. -/
theorem not_reportsSubscription_pending : ∃ events system after,
    machine.run (oneClient ++ [publishOne])
        (.start (fun _ => []) fun _ => [.accept 1000, .accept 1]) = some (events, system) ∧
      subscribe 0 (.ofBlock [0x61]) 1 system.library = some (mqttclientSuccess, after) ∧
      ¬ReportsSubscription 0 (.ofBlock [0x61]) 1 mqttclientSuccess system.library after := by
  have observed : ((machine.run (oneClient ++ [publishOne])
      (.start (fun _ => []) fun _ => [.accept 1000, .accept 1])).bind fun reached =>
        (subscribe 0 (.ofBlock [0x61]) 1 reached.2.library).map fun subscribed =>
          decide (subscribed.1 = mqttclientSuccess ∧
            SubscribeRefused 0 (.ofBlock [0x61]) reached.2.library)) = some true := by
    decide +kernel
  rcases Option.bind_eq_some_iff.mp observed with ⟨⟨events, system⟩, ran, observed⟩
  rcases Option.map_eq_some_iff.mp observed with ⟨⟨rc, after⟩, subscribed, same⟩
  rcases of_decide_eq_true same with ⟨success, refused⟩
  dsimp only at success refused
  subst success
  have written := (subscribe_outcome subscribed).2.2
  rw [if_pos refused] at written
  exact ⟨events, system, after, ran, subscribed,
    fun reports => written.not_onItsWay (List.cons_ne_nil _ _) (reports rfl).1⟩

end MqttClient.MQTTClient
