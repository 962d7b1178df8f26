import MqttClient.MQTTClient.ConnectStates
import MqttClient.MQTTClient.Feeding

/-! # The packets of a stream

Any thread may read for any client. Whatever their steps are, what a client receives on a
socket are the first packets of the bytes that its peer sends, in their order.
-/

namespace MqttClient.MQTTClient

open Foundation LinkedList MQTTPacket

/-! ## Whose stream a socket is -/

def Attended (action : Action) (before : System) : Prop :=
  ∀ m ∈ before.library.handles.values,
    served action before = some (before.library.client m).socket →
      0 < (before.library.client m).socket

instance (action : Action) (before : System) : Decidable (Attended action before) :=
  inferInstanceAs (Decidable (∀ _ ∈ _, _))

def Action.Uses (version : Nat → Int) : Action → Prop
  | .connect m options _ => options.mqttVersion = version m
  | _ => True

instance (version : Nat → Int) : (action : Action) → Decidable (action.Uses version)
  | .connect _ _ _ => inferInstanceAs (Decidable (_ = _))
  | .create _ | .destroy _ | .setCallbacks _ _ _ | .publish _ _ | .subscribe _ _ _ |
    .connectStep _ | .loopStep _ _ => .isTrue trivial

def Live (m : Nat) (sock : SOCKET) (library : Library) : Prop :=
  sock ∉ library.descriptors ∨
    m ∈ library.handles.values ∧ (library.client m).socket = sock

section Live

variable {before : System} {action : Action} {result : List Event × System} {m : Nat}
  {sock : SOCKET}

theorem Changed.mem_handles {before after : Library} {events : List Event}
    (changed : Changed before events after) (registered : Registered before)
    (member : m ∈ after.handles.values) : m ∈ before.handles.values ∨ m = before.created := by
  cases changed with
  | created =>
      rw [(create_spec registered _).handles] at member
      simpa using member
  | published here published =>
      rcases publish5_sets published with ⟨_, _, sets⟩
      exact .inl (sets.handles ▸ member)
  | cycled spec =>
      cases spec with
      | nothing reads searched => exact .inl (searched.handles ▸ member)
      | returned here owner typed notPublish searched => exact .inl (searched.handles ▸ member)
      | publish here owner searched writes handled clientMember clientOwner sets =>
          exact .inl (sets.handles ▸ member)
      | puback here owner id searched handled clientMember clientOwner sets values =>
          exact .inl (sets.handles ▸ member)
  | delivered here publications delivered keeps =>
      rw [keeps.handles, delivered.handles] at member
      exact .inl member
  | kept silent keeps => exact .inl (keeps.handles ▸ member)

theorem Stepped.mem_handles (stepped : Stepped before action result)
    (wellFormed : before.WellFormed) (member : m ∈ result.2.library.handles.values) :
    m ∈ before.library.handles.values ∨ m = before.library.created := by
  rcases stepped.changed wellFormed.numbered with ⟨_, library, _, _, destroyed, _, rfl⟩ | changed
  · rw [(destroy_spec wellFormed.registered destroyed).handles] at member
    exact .inl (List.mem_of_mem_filter member)
  · exact changed.mem_handles wellFormed.registered member

theorem Registered.socket_created {library : Library} (registered : Registered library) :
    (library.client library.created).socket = 0 := by
  rcases registered.blank library.created le_rfl with ⟨clientId, blank⟩
  rw [Library.client, blank]
  rfl

theorem Stepped.socket (stepped : Stepped before action result) (wellFormed : before.WellFormed)
    (positive : 0 < (result.2.library.client m).socket) :
    (result.2.library.client m).socket = (before.library.client m).socket ∨
      (result.2.library.client m).socket ∉ before.library.descriptors := by
  rcases stepped.holds stable_socket wellFormed with
    ⟨clientId, _, rfl⟩ | ⟨client, options, attempt, rfl⟩ | holds
  · have objects := (create_spec wellFormed.registered clientId).objects
    dsimp only at positive ⊢
    rw [Library.client, objects] at positive ⊢
    by_cases here : m = before.library.created
    · rw [here, Function.update_self] at positive
      exact absurd positive (lt_irrefl 0)
    · rw [Function.update_of_ne here]
      exact .inl rfl
  · cases stepped with
    | began member idle spec =>
        rw [System.conclude_library] at positive ⊢
        dsimp only at positive ⊢
        by_cases here : m = client
        · subst here
          cases spec with
          | gaveUp applied reconnects =>
              rcases applyOptions_eq applied with ⟨_, _, _, _, rfl⟩
              rw [reconnects.client_self]
              exact .inl rfl
          | unopened applied reconnects =>
              rw [reconnects.client_self] at positive
              exact absurd (show 0 < socketError from positive) (by decide)
          | opened applied fresh sent reconnects =>
              rw [reconnects.client_self]
              exact .inr fresh.2
        · exact .inl (congrArg (fun object => object.c.socket) (spec.objects_of_ne here))
  · exact .inl (holds.1 m)

theorem Stepped.live (stepped : Stepped before action result) (wellFormed : before.WellFormed)
    (positive : 0 < sock) (live : Live m sock result.2.library) : Live m sock before.library := by
  rcases live with fresh | ⟨member, rfl⟩
  · exact .inl fun opened => fresh (stepped.descriptors_subset wellFormed opened)
  · rcases stepped.socket wellFormed positive with same | fresh
    · rcases stepped.mem_handles wellFormed member with old | rfl
      · exact .inr ⟨old, same.symm⟩
      · rw [same, wellFormed.registered.socket_created] at positive
        exact absurd positive (lt_irrefl 0)
    · exact .inl fresh

end Live

/-! ## Following the streams -/

def packetsOf (MQTTVersion : Int) (frames : List (Frame UInt8)) : List Packet :=
  frames.filterMap (Frame.packet MQTTVersion)

def Follows (frames : List (Frame UInt8)) (MQTTVersion : Int) (received : List Packet)
    (kept : List UInt8) (source : RecvSource UInt8) : Prop :=
  ∃ done later, frames = done ++ later ∧ received = packetsOf MQTTVersion done ∧
    framing.Aligned (later.map Frame.bytes) kept source

structure Followed (frames : SOCKET → List (Frame UInt8)) (version : Nat → Int)
    (past : List Event) (library : Library) (kept : SOCKET → List UInt8) : Prop where
  rested : Rested library.reads kept
  unopened : ∀ sock, sock ∉ library.descriptors → kept sock = []
  follows : ∀ m sock, 0 < sock → Live m sock library →
    Follows (frames sock) (version m) (packetsFrom m sock past) (kept sock)
      (library.reads.inbound sock)

structure Received (frames : SOCKET → List (Frame UInt8)) (version : Nat → Int)
    (past : List Event) (system : System) : Prop where
  connections : Connections system.library
  versions : ∀ m, 0 < (system.library.client m).socket →
    (system.library.client m).mqttVersion = version m
  followed : ∃ kept, Followed frames version past system.library kept
  part : ∀ m sock, 0 < sock →
    packetsFrom m sock past <+: packetsOf (version m) (frames sock)

/-- Every cycle is for a client that is connected, and every client has a version of its own. -/
def Orderly (version : Nat → Int) (action : Action) (before : System) : Prop :=
  Attended action before ∧ action.Uses version

instance (version : Nat → Int) (action : Action) (before : System) :
    Decidable (Orderly version action before) :=
  inferInstanceAs (Decidable (_ ∧ _))

section Follows

variable {frames : List (Frame UInt8)} {MQTTVersion : Int} {received : List Packet}
  {kept : List UInt8} {source : RecvSource UInt8}

theorem packetsOf_append (done later : List (Frame UInt8)) :
    packetsOf MQTTVersion (done ++ later) =
      packetsOf MQTTVersion done ++ packetsOf MQTTVersion later :=
  List.filterMap_append

theorem Follows.isPrefix (follows : Follows frames MQTTVersion received kept source) :
    received <+: packetsOf MQTTVersion frames := by
  rcases follows with ⟨done, later, rfl, rfl, _⟩
  rw [packetsOf_append]
  exact List.prefix_append ..

theorem Follows.ended (follows : Follows frames MQTTVersion received kept source)
    (empty : source.bytes = []) : received = packetsOf MQTTVersion frames := by
  rcases follows with ⟨done, later, rfl, rfl, aligned⟩
  have none : later = [] := List.map_eq_nil_iff.mp (aligned.exhausted empty)
  rw [none, List.append_nil]

theorem Follows.moved {left : List UInt8} {rest : RecvSource UInt8} {pack : Option Packet}
    {later : List (Frame UInt8)} (done : List (Frame UInt8))
    (moved : Moved MQTTVersion later left rest pack) :
    Follows (done ++ later) MQTTVersion (packetsOf MQTTVersion done ++ pack.toList) left rest := by
  cases moved with
  | waits aligned => exact ⟨done, later, rfl, List.append_nil _, aligned⟩
  | @reads frame later first aligned =>
      refine ⟨done ++ [frame], later, ?_, ?_, aligned⟩
      · rw [first, List.append_assoc]
        rfl
      · rw [packetsOf_append]
        cases result : frame.packet MQTTVersion <;> simp [packetsOf, result]

end Follows

theorem packetsFrom_heard {events : List Event} {owner : Nat} {own : SOCKET} {pack : Option Packet}
    (heard_eq : heard events = (pack.map fun pack => ((owner, own), pack)).toList) (m : Nat)
    (sock : SOCKET) :
    packetsFrom m sock events = if m = owner ∧ sock = own then pack.toList else [] := by
  rw [packetsFrom, heard_eq]
  cases pack with
  | none => simp
  | some pack =>
      by_cases here : m = owner ∧ sock = own
      · rw [here.1, here.2]
        simp
      · have other : (owner, own) ≠ (m, sock) := by
          rintro same
          cases same
          exact here ⟨rfl, rfl⟩
        simp [here, other]

section Step

variable {frames : SOCKET → List (Frame UInt8)} {version : Nat → Int} {past : List Event}
  {before : System} {action : Action} {result : List Event × System}

theorem stable_socketVersion : Stable fun object => (object.c.socket, object.c.mqttVersion) :=
  ⟨fun _ _ _ _ => rfl, fun _ _ _ => rfl, fun _ _ _ _ _ _ _ => rfl, fun _ _ _ => rfl,
    fun _ _ => rfl⟩

theorem applyOptions_mqttVersion {options : ConnectOptions} {client changed : Clients}
    (applied : applyOptions options client = some changed) :
    changed.mqttVersion = options.mqttVersion := by
  rcases Option.bind_eq_some_iff.mp applied with ⟨_, _, rest⟩
  rcases Option.bind_eq_some_iff.mp rest with ⟨_, _, same⟩
  cases same
  rfl

theorem Begun.mqttVersion {before after : Library} {m : Nat} {options : ConnectOptions}
    {events : List Event} {starts : Bool} {outcome : ConnectOutcome}
    (begun : Begun m options before (events, starts, outcome, after)) :
    (after.client m).mqttVersion = options.mqttVersion := by
  cases begun with
  | gaveUp applied reconnects =>
      rw [reconnects.client_self]
      exact applyOptions_mqttVersion applied
  | unopened applied reconnects =>
      have same := applyOptions_mqttVersion applied
      rwa [reconnects.client_self]
  | opened applied fresh sent reconnects =>
      have same := applyOptions_mqttVersion applied
      rwa [reconnects.client_self]

theorem Stepped.versions (stepped : Stepped before action result) (wellFormed : before.WellFormed)
    (uses : action.Uses version)
    (versions : ∀ m, 0 < (before.library.client m).socket →
      (before.library.client m).mqttVersion = version m) :
    ∀ m, 0 < (result.2.library.client m).socket →
      (result.2.library.client m).mqttVersion = version m := by
  intro m positive
  have unchanged (same : (result.2.library.objects m).c.socket =
        (before.library.objects m).c.socket ∧
      (result.2.library.objects m).c.mqttVersion = (before.library.objects m).c.mqttVersion) :
      (result.2.library.client m).mqttVersion = version m := by
    refine same.2.trans (versions m ?_)
    change 0 < (before.library.objects m).c.socket
    rwa [← same.1]
  rcases stepped.holds stable_socketVersion wellFormed with
    ⟨clientId, _, rfl⟩ | ⟨client, options, attempt, rfl⟩ | holds
  · have objects := (create_spec wellFormed.registered clientId).objects
    by_cases here : m = before.library.created
    · dsimp only at positive
      rw [Library.client, objects, here, Function.update_self] at positive
      exact absurd positive (lt_irrefl 0)
    · apply unchanged
      dsimp only
      rw [objects, Function.update_of_ne here]
      exact ⟨rfl, rfl⟩
  · cases stepped with
    | began member idle spec =>
        by_cases here : m = client
        · subst here
          rw [System.conclude_library]
          exact spec.mqttVersion.trans uses
        · apply unchanged
          rw [System.conclude_library, spec.objects_of_ne here]
          exact ⟨rfl, rfl⟩
  · exact unchanged (Prod.mk.inj (holds.1 m))

theorem Followed.unread {kept : SOCKET → List UInt8}
    (followed : Followed frames version past before.library kept)
    (stepped : Stepped before action result) (wellFormed : before.WellFormed)
    (rested : Rested result.2.library.reads kept)
    (inbound : result.2.library.reads.inbound = before.library.reads.inbound)
    (unheard : heard result.1 = []) :
    Followed frames version (past ++ result.1) result.2.library kept where
  rested := rested
  unopened sock fresh := followed.unopened sock fun opened =>
    fresh (stepped.descriptors_subset wellFormed opened)
  follows m sock positive live := by
    rw [packetsFrom_append, packetsFrom_of_unheard unheard, List.append_nil, inbound]
    exact followed.follows m sock positive (stepped.live wellFormed positive live)

theorem Received.step (received : Received frames version past before)
    (wellFormed : before.WellFormed) (orderly : Orderly version action before)
    (stepping : MQTTClient.step action before = some result) :
    Received frames version (past ++ result.1) result.2 := by
  have stepped := step_spec stepping
  have connections := stepped.connections wellFormed received.connections
  have versions := stepped.versions wellFormed orderly.2 received.versions
  have feeds := step_feeds wellFormed stepping
  rcases received.followed with ⟨kept, followed⟩
  have quiet (unheard : heard result.1 = []) (m : Nat) (sock : SOCKET) (positive : 0 < sock) :
      packetsFrom m sock (past ++ result.1) <+: packetsOf (version m) (frames sock) := by
    rw [packetsFrom_append, packetsFrom_of_unheard unheard, List.append_nil]
    exact received.part m sock positive
  generalize asked : served action before = sock? at feeds
  cases feeds with
  | unread unheard same =>
      refine ⟨connections, versions, ⟨kept, ?_⟩, quiet unheard⟩
      exact followed.unread stepped wellFormed (same ▸ followed.rested)
        (congrArg SocketReads.inbound same) unheard
  | initialized alone unheard anew =>
      -- there was no client, so only descriptors that have not been opened are followed
      refine ⟨connections, versions, ⟨fun _ => [], ?_, fun _ _ => rfl, ?_⟩, quiet unheard⟩
      · rw [anew]
        exact .start _
      · intro m sock positive live
        rcases stepped.live wellFormed positive live with fresh | ⟨member, _⟩
        · have follows := followed.follows m sock positive (.inl fresh)
          rw [followed.unopened sock fresh] at follows
          rw [packetsFrom_append, packetsFrom_of_unheard unheard, List.append_nil, anew]
          exact follows
        · rw [alone] at member
          cases member
  | closed fresh unheard cleaned =>
      refine ⟨connections, versions, ⟨kept, ?_⟩, quiet unheard⟩
      refine followed.unread stepped wellFormed ?_ (by rw [cleaned]; rfl) unheard
      have nonzero : ‹SOCKET› ≠ 0 := fun zero => fresh.2 (zero ▸ received.connections.zero)
      rw [cleaned]
      exact followed.rested.cleanup nonzero (followed.unopened _ fresh.2)
  | @cycled owner sock _ _ member owns reads heard_eq =>
      have serves := asked.trans (congrArg some owns.symm)
      have positive : 0 < sock := owns ▸ orderly.1 owner member serves
      have sameVersion := received.versions owner (owns.symm ▸ positive)
      rw [sameVersion] at reads heard_eq
      have follows := followed.follows owner sock positive (.inr ⟨member, owns⟩)
      rcases follows with ⟨done, later, split, same, aligned⟩
      rcases followed.rested.factory (ne_of_gt positive) aligned (version owner) with
        ⟨left, rested, elsewhere, moved⟩
      have here := Follows.moved done moved
      rw [← same, ← split] at here
      have opened : sock ∈ before.library.descriptors := by
        rcases received.connections.sockets owner with opened | none
        · rwa [owns] at opened
        · rw [owns.symm.trans none] at positive
          exact absurd positive (by decide)
      have alone {m : Nat} (live : Live m sock before.library) : m = owner := by
        rcases live with fresh | ⟨_, also⟩
        · exact absurd opened fresh
        · exact received.connections.distinct owner m (owns.symm ▸ positive) (also.trans owns.symm)
      have heard := packetsFrom_heard heard_eq
      refine ⟨connections, versions, ⟨Function.update kept sock left, ?_, fun other fresh => ?_,
        fun m other positive live => ?_⟩, fun m other positive => ?_⟩
      · rw [reads]
        exact rested
      · have before := followed.unopened other fun there =>
          fresh (stepped.descriptors_subset wellFormed there)
        have different : other ≠ sock := by
          rintro rfl
          exact fresh (stepped.descriptors_subset wellFormed opened)
        rwa [Function.update_of_ne different]
      · have live := stepped.live wellFormed positive live
        rw [packetsFrom_append, heard, reads]
        by_cases equal : other = sock
        · subst equal
          rw [alone live, if_pos ⟨rfl, rfl⟩, Function.update_self]
          exact here
        · rw [if_neg fun both => equal both.2, List.append_nil, Function.update_of_ne equal,
            elsewhere other equal]
          exact followed.follows m other positive live
      · rw [packetsFrom_append, heard]
        by_cases both : m = owner ∧ other = sock
        · rw [if_pos both, both.1, both.2]
          exact here.isPrefix
        · rw [if_neg both, List.append_nil]
          exact received.part m other positive

end Step

section Run

variable {frames : SOCKET → List (Frame UInt8)} {inbound : SOCKET → RecvSource UInt8}

theorem Received.start (outbound : SOCKET → List WritevEvent) (version : Nat → Int)
    (peers : ∀ sock, 0 < sock → (inbound sock).Healthy ∧
      (inbound sock).bytes = (frames sock).flatMap Frame.bytes) :
    Received frames version [] (.start inbound outbound) where
  connections := .start inbound outbound
  versions m positive := absurd positive (lt_irrefl 0)
  followed := by
    refine ⟨fun _ => [], .start inbound, fun _ _ => rfl, fun m sock positive _ => ?_⟩
    rcases peers sock positive with ⟨healthy, stream⟩
    exact ⟨[], frames sock, rfl, rfl, aligned_start (frames sock) healthy stream⟩
  part m sock _ := List.nil_prefix

end Run

end MqttClient.MQTTClient
