import MqttClient.MQTTClient.Steps
import MqttClient.MQTTProtocol.References

/-! # The reference counts of the publications

Behind every run, each publication counts the messages and pending writes that refer to it.
-/

namespace MqttClient.MQTTClient

open Foundation LinkedList MQTTProtocol

/-- The references to publications from the messages of all clients, and from the pending
writes. -/
def references (library : Library) : List Nat :=
  (library.clients.values.flatMap fun m => held (library.client m)) ++ pending library

/-- Every publication counts its references. -/
def Exact (library : Library) : Prop :=
  Counted (refcounts library.publications) (references library)

def heldByOthers (m : Nat) (library : Library) : List Nat :=
  (library.clients.values.erase m).flatMap fun other => held (library.client other)

section Library

variable {before after : Library} {m : Nat}

theorem references_perm (member : m ∈ before.clients.values) :
    (references before).Perm
      (held (before.client m) ++ (heldByOthers m before ++ pending before)) := by
  rw [references, ← List.append_assoc]
  exact ((List.perm_cons_erase member).flatMap_right _).append_right _

theorem heldByOthers_eq (distinct : before.clients.values.Nodup)
    (clients : after.clients.values = before.clients.values)
    (others : ∀ other, other ≠ m → after.client other = before.client other) :
    heldByOthers m after = heldByOthers m before := by
  rw [heldByOthers, heldByOthers, clients]
  refine List.flatMap_congr fun other here => ?_
  rw [others other fun same => distinct.not_mem_erase (same ▸ here)]

theorem Exact.of_tallied (counts : Exact before) (registered : Registered before)
    (member : m ∈ before.clients.values) (clients : after.clients.values = before.clients.values)
    (others : ∀ other, other ≠ m → after.client other = before.client other)
    (tallied : ∀ others, Tallied m others before → Tallied m others after) : Exact after := by
  have distinct := registered.distinct
  rw [← registered.clients] at distinct
  have here := tallied _ (counts.perm (references_perm member))
  rw [← heldByOthers_eq distinct clients others] at here
  exact here.perm (references_perm (clients ▸ member)).symm

theorem Exact.of_offline (counts : Exact before) (publications : before.KeepsPublications after)
    (clients : after.clients.values = before.clients.values)
    (offline : ∀ m, (after.client m).offline = (before.client m).offline) : Exact after := by
  have same : references after = references before := by
    rw [references, references, clients, pending, pending, publications.pendingWrites]
    congr 2
    funext other
    have outbound := congrArg Clients.outboundMsgs (offline other)
    have inbound := congrArg Clients.inboundMsgs (offline other)
    change (after.client other).outboundMsgs = (before.client other).outboundMsgs at outbound
    change (after.client other).inboundMsgs = (before.client other).inboundMsgs at inbound
    rw [held, held, outbound, inbound]
  rw [Exact, publications.publications, same]
  exact counts

theorem Exact.create (counts : Exact before) (registered : Registered before)
    (clientId : CString) : Exact (create clientId before) := by
  have creates := create_spec registered clientId
  have same : references (MQTTClient.create clientId before) = references before := by
    rw [references, references, creates.clients, pending, pending, creates.pendingWrites,
      List.flatMap_append]
    congr 1
    have none : held ((MQTTClient.create clientId before).client before.created) = [] := by
      rw [Library.client, creates.objects, Function.update_self]
      rfl
    rw [List.flatMap_singleton, none, List.append_nil]
    refine List.flatMap_congr fun other here => ?_
    rw [registered.clients] at here
    have old := registered.old other here
    rw [Library.client, creates.objects, Function.update_of_ne (Nat.ne_of_lt old)]
    rfl
  rw [Exact, creates.publications, same]
  exact counts

theorem Exact.destroy (counts : Exact before) (registered : Registered before)
    (member : m ∈ before.handles.values) (destroyed : destroy m before = some after) :
    Exact after := by
  have destroys := destroy_spec registered destroyed
  have distinct := registered.distinct
  rw [← registered.clients] at distinct member
  have counted := counted_freeClient (counts.perm (references_perm member)) destroys.freed
  have same : references after = heldByOthers m before ++ pending before := by
    rw [references, pending, destroys.pendingWrites, destroys.clients, heldByOthers,
      distinct.erase_eq_filter, pending]
    congr 1
    have clients : (before.clients.values.filter fun other => other ≠ m) =
        before.clients.values.filter (· != m) :=
      List.filter_congr fun other _ => by by_cases here : other = m <;> simp [here]
    rw [clients]
    refine List.flatMap_congr fun other _ => ?_
    rw [Library.client, destroys.objects]
    rfl
  rw [Exact, same]
  exact counted

theorem publish5_tallied {call : PublishCall} {result : Published} {others : List Nat}
    (tallied : Tallied m others before)
    (published : publish5 m call before = some (result, after)) : Tallied m others after := by
  rw [publish5] at published
  split at published
  · cases published
  · rename_i msgid client numbering
    have numbered : Tallied m others (before.modifyClient m fun _ => client) := by
      have sets := Library.modifyClient_sets m (fun _ => client) before
      by_cases positive : call.qos > 0
      · rw [if_pos positive] at numbering
        rcases assignMsgId_eq numbering with ⟨msgID, outboundMsgs, rfl, elements⟩
        exact tallied.of_same rfl rfl (by rw [sets.client_self]; exact elements)
          (by rw [sets.client_self]; rfl)
      · rw [if_neg positive] at numbering
        cases numbering
        exact tallied.of_same rfl rfl (by rw [sets.client_self]) (by rw [sets.client_self])
    dsimp only at published
    split at published
    · cases published
      exact numbered
    · rcases Option.map_eq_some_iff.mp published with ⟨⟨rc, final⟩, started, same⟩
      cases same
      exact startPublish_tallied numbered started

theorem Cycled.exact {sock : SOCKET} {result : List Event × Option Packet × Int × Library}
    (cycled : Cycled sock before result) (registered : Registered before)
    (counts : Exact before) : Exact result.2.2.2 := by
  have searches {library : Library} (searched : before.Searched library) : Exact library :=
    counts.of_offline searched.toKeepsPublications searched.clients
      searched.keepsMessages.offline
  cases cycled with
  | nothing reads searched => exact searches searched
  | returned member owner typed notPublish searched => exact searches searched
  | publish member owner searched writes handled clientMember clientOwner sets =>
      rcases handlePublishes_tallied handled with ⟨client, member, others, tallied⟩
      refine (searches searched).of_tallied (registered.of_keepsMessages searched.keepsMessages)
        member ?_ others tallied
      rw [sets.clients, searched.clients]
  | puback member owner id searched handled clientMember clientOwner sets values =>
      refine (searches searched).of_tallied (registered.of_keepsMessages searched.keepsMessages)
        (searched.clients ▸ clientMember) (by rw [sets.clients, searched.clients])
        (fun other different => ?_) fun others tallied => handlePubacks_tallied handled tallied
      rw [sets.client_of_ne different, searched.client]

theorem Changed.exact {events : List Event} (changed : Changed before events after)
    (registered : Registered before) (counts : Exact before) : Exact after := by
  cases changed with
  | created => exact counts.create registered _
  | published member published =>
      rcases publish5_sets published with ⟨_, _, sets⟩
      rw [← registered.clients] at member
      exact counts.of_tallied registered member sets.clients
        (fun other different => sets.client_of_ne different)
        fun others tallied => publish5_tallied tallied published
  | cycled spec => exact spec.exact registered counts
  | delivered member publications delivered keeps =>
      rw [← registered.clients] at member
      have taken := counts.of_tallied registered member delivered.clients
        (fun other different => delivered.client_of_ne different) fun others tallied =>
          tallied.of_same publications.publications publications.pendingWrites
            (by rw [delivered.client_self]; rfl) (by rw [delivered.client_self]; rfl)
      exact taken.of_offline keeps.toKeepsPublications keeps.clients keeps.offline
  | kept silent keeps =>
      exact counts.of_offline keeps.toKeepsPublications keeps.clients keeps.offline

theorem Exact.handlePubacks (counts : Exact before) (member : m ∈ before.clients.values)
    (msgid : Int) : ∃ client after,
      MQTTProtocol.handlePubacks msgid (before.client m).socket before = some (client, after) := by
  rcases Library.exists_findClient member rfl with ⟨client, library, found⟩
  rcases Library.findClient_eq_some found with ⟨here, _, searched⟩
  have tallied : Tallied client (heldByOthers client before) before :=
    counts.perm (references_perm here)
  rcases acknowledge_isSome (tallied.of_searched searched) msgid with ⟨after, acknowledged⟩
  refine ⟨client, after, ?_⟩
  rw [MQTTProtocol.handlePubacks, found]
  exact congrArg (Option.map _) acknowledged

end Library

theorem Stepped.exact {before : System} {action : Action} {result : List Event × System}
    (stepped : Stepped before action result) (wellFormed : before.WellFormed)
    (counts : Exact before.library) : Exact result.2.library := by
  have registered := wellFormed.registered
  rcases stepped.changed wellFormed.numbered with
    ⟨m, library, member, _, destroyed, _, rfl⟩ | changed
  · exact counts.destroy registered member destroyed
  · exact changed.exact registered counts

theorem exact_of_run {actions : List Action} {events : List Event} {final : System}
    {inbound : SOCKET → RecvSource UInt8} {outbound : SOCKET → List WritevEvent}
    (ran : machine.run actions (.start inbound outbound) = some (events, final)) :
    Exact final.library :=
  (run_invariant_always (fun _ system => Exact system.library)
    (fun wellFormed counts stepped => (step_spec stepped).exact wellFormed counts)
    (System.start_wellFormed inbound outbound) (fun _ => rfl) ran).1

/-- Behind every run, each publication counts the messages of all clients and the pending
writes that refer to it, of which there is at least one; and whatever they refer to is a
publication, there is one of it, and all references of a client can be given up. -/
theorem refcounts_exact {actions : List Action} {events : List Event} {final : System}
    {inbound : SOCKET → RecvSource UInt8} {outbound : SOCKET → List WritevEvent}
    (ran : machine.run actions (.start inbound outbound) = some (events, final)) :
    (∀ element ∈ final.library.publications.elements, 1 ≤ element.value.refcount ∧
        element.value.refcount = (references final.library).count element.content) ∧
      (∀ p ∈ references final.library,
        (final.library.publications.elements.map ListElement.content).count p = 1 ∧
          ∃ after, removePublication p final.library.publications = some after) ∧
      ∀ m ∈ final.library.clients.values, ∃ after,
        (emptyMessageList (final.library.client m).outboundMsgs.values
          final.library.publications).bind
            (emptyMessageList (final.library.client m).inboundMsgs.values) = some after := by
  have counts := exact_of_run ran
  refine ⟨fun element member => ?_, fun p here => ?_, fun m member => ?_⟩
  · have count : refcounts final.library.publications element.content =
        some element.value.refcount := by
      rw [refcounts, find_eq_some_iff.mpr ⟨member, rfl⟩]
      rfl
    rcases counts.mem count with ⟨here, same⟩
    have positive := List.count_pos_iff.mpr here
    exact ⟨by omega, same⟩
  · have count := counts.of_mem here
    rcases Option.map_eq_some_iff.mp count with ⟨element, found, _⟩
    rcases find_eq_some_iff.mp found with ⟨member, rfl⟩
    exact ⟨List.count_eq_one_of_mem final.library.publications.nodup
      (List.mem_map_of_mem member), removePublication_isSome count⟩
  · rcases counted_emptyMessageLists (counts.perm (references_perm member)) with
      ⟨after, emptied, _⟩
    exact ⟨after, emptied⟩

/-- A publish of QoS 1, and two packets of QoS 2 with the same id, of which the second takes
the place of the first. -/
theorem refcounts_exact_two : ∃ events final,
    machine.run (oneClient ++ publishOne :: oneRound ++ oneRound)
      (.receiving [0x34, 5, 0, 1, 0x61, 0, 7, 0x34, 5, 0, 1, 0x62, 0, 7]) = some (events, final) ∧
      (references final.library).length = 2 ∧
      ∀ element ∈ final.library.publications.elements, 1 ≤ element.value.refcount ∧
        element.value.refcount = (references final.library).count element.content := by
  have observed : (machine.run (oneClient ++ publishOne :: oneRound ++ oneRound)
      (.receiving [0x34, 5, 0, 1, 0x61, 0, 7, 0x34, 5, 0, 1, 0x62, 0, 7])).map
        (fun reached => (references reached.2.library).length) = some 2 := by
    decide +kernel
  rcases Option.map_eq_some_iff.mp observed with ⟨⟨events, final⟩, ran, two⟩
  exact ⟨events, final, ran, two, (refcounts_exact ran).1⟩

end MqttClient.MQTTClient
