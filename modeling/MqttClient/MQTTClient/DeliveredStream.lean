import MqttClient.MQTTClient.Delivery
import MqttClient.MQTTClient.ReceivedPackets

/-! # The messages of a stream

From the bytes that a peer sends to the callback: what a client's callback takes, and what
waits for it, are the first messages of the stream.
-/

namespace MqttClient.MQTTClient

open Foundation LinkedList MQTTPacket

def Action.connects : Action → Option Nat
  | .connect m _ _ => some m
  | _ => none

def Anew (m : Nat) (action : Action) (before : System) : Prop :=
  action.connects = some m → ¬0 < (before.library.client m).socket

/-- The steps of an orderly program that connects a client once. -/
def ConnectsOnce (version : Nat → Int) (m : Nat) (action : Action) (before : System) : Prop :=
  Orderly version action before ∧ Anew m action before

instance (version : Nat → Int) (m : Nat) (action : Action) (before : System) :
    Decidable (ConnectsOnce version m action before) :=
  inferInstanceAs (Decidable (_ ∧ (_ → _)))

section Step

variable {before : System} {action : Action} {result : List Event × System} {m : Nat}

theorem Feeds.received {before after : Library} {sock? : Option SOCKET} {events : List Event}
    (feeds : Feeds before sock? events after) {sock : SOCKET} {pack : Packet}
    (here : .received m sock pack ∈ events) :
    sock? = some sock ∧ m ∈ before.handles.values ∧ (before.client m).socket = sock := by
  have entry := mem_heard.mpr here
  cases feeds with
  | unread unheard | initialized alone unheard | closed fresh unheard =>
      rw [unheard] at entry
      cases entry
  | cycled member owner reads heard_eq =>
      rw [heard_eq, Option.mem_toList] at entry
      rcases Option.map_eq_some_iff.mp entry with ⟨_, _, same⟩
      cases same
      exact ⟨rfl, member, owner⟩

theorem Feeds.attends (feeds : Feeds before.library (served action before) result.1
      result.2.library) (attended : Attended action before) :
    Attends m result.1 before.library := by
  intro owner sock pack here _
  rcases feeds.received here with ⟨serves, member, owns⟩
  exact owns ▸ attended owner member (owns ▸ serves)

theorem Stepped.socket_kept (stepped : Stepped before action result)
    (wellFormed : before.WellFormed) (anew : Anew m action before)
    (positive : 0 < (before.library.client m).socket) :
    (result.2.library.client m).socket = (before.library.client m).socket := by
  rcases stepped.holds stable_socket wellFormed with
    ⟨clientId, _, rfl⟩ | ⟨client, options, attempt, rfl⟩ | holds
  · have known : m ≠ before.library.created := by
      rintro rfl
      rw [wellFormed.registered.socket_created] at positive
      exact absurd positive (lt_irrefl 0)
    dsimp only
    rw [Library.client, (create_spec wellFormed.registered clientId).objects,
      Function.update_of_ne known]
    rfl
  · have different : m ≠ client := by
      rintro rfl
      exact anew rfl positive
    cases stepped with
    | began member idle spec =>
        rw [System.conclude_library]
        exact congrArg (fun object => object.c.socket) (spec.objects_of_ne different)
  · exact holds.1 m

end Step

structure Delivered (frames : SOCKET → List (Frame UInt8)) (version : Nat → Int) (m : Nat)
    (initial : Library) (past : List Event) (system : System) : Prop where
  received : Received frames version past system
  inOrder : InOrder m initial past system
  own : ∀ sock pack, .received m sock pack ∈ past →
    0 < sock ∧ (system.library.client m).socket = sock

section Run

variable {frames : SOCKET → List (Frame UInt8)} {version : Nat → Int} {m : Nat}
  {initial : Library} {past events : List Event} {before : System} {action : Action}
  {result : List Event × System} {inbound : SOCKET → RecvSource UInt8}

theorem Delivered.step (delivered : Delivered frames version m initial past before)
    (wellFormed : before.WellFormed) (once : ConnectsOnce version m action before)
    (stepping : MQTTClient.step action before = some result) :
    Delivered frames version m initial (past ++ result.1) result.2 where
  received := delivered.received.step wellFormed once.1 stepping
  inOrder :=
    delivered.inOrder.attends wellFormed ((step_feeds wellFormed stepping).attends once.1.1)
      (step_spec stepping)
  own sock pack here := by
    have own : 0 < sock ∧ (before.library.client m).socket = sock := by
      rcases List.mem_append.mp here with old | new
      · exact delivered.own sock pack old
      · rcases (step_feeds wellFormed stepping).received new with ⟨serves, member, owns⟩
        exact ⟨owns ▸ once.1.1 m member (owns ▸ serves), owns⟩
    refine ⟨own.1, ?_⟩
    rw [← own.2]
    exact (step_spec stepping).socket_kept wellFormed once.2 (own.2.symm ▸ own.1)

end Run

end MqttClient.MQTTClient
