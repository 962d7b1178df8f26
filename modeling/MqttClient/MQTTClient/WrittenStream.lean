import MqttClient.MQTTClient.ReceivedPackets
import MqttClient.MQTTClient.Writing

/-! # The packets that are written

Any thread may write for any client. Whatever their steps are, what the kernel has accepted on
a socket are whole packets of the client, in order, of which only the last may lack some bytes;
there is at most one CONNECT packet, and it is the first one if nobody uses the connection
before it.
-/

namespace MqttClient.MQTTClient

open Foundation LinkedList MQTTPacket Socket

/-- Bytes that are packets, the last of which may be cut off. -/
structure Cut (frames : List (Frame UInt8)) (bytes : List UInt8) : Prop where
  isPrefix : bytes <+: frames.flatMap Frame.bytes
  whole : frames.dropLast.flatMap Frame.bytes <+: bytes

/-- The packets on a connection: those of a client, with a single CONNECT packet. -/
structure Conversation (frames : List (Frame UInt8)) : Prop where
  fromClient : ∀ frame ∈ frames, FromClient frame
  once : frames.countP (fun frame => frame.IsConnect) ≤ 1

def Streams (frames : List (Frame UInt8)) (sock : SOCKET) (writes : SocketWrites) : Prop :=
  Carries sock (frames.map Frame.bytes) writes ∨
    ∃ bytes, Cut frames bytes ∧ Rests sock bytes writes

structure Written (polite : Prop) (frames : SOCKET → List (Frame UInt8)) (system : System) :
    Prop where
  prepared : Prepared system.library
  connections : Connections system.library
  short : ∀ m, ShortStrings (system.library.client m)
  unopened : ∀ sock, 0 < sock → sock ∉ system.library.descriptors → frames sock = []
  streams : ∀ sock, 0 < sock → Streams (frames sock) sock system.library.writes
  carried : ∀ m sock, 0 < sock → Live m sock system.library →
    Carries sock ((frames sock).map Frame.bytes) system.library.writes
  conversation : ∀ sock, 0 < sock → Conversation (frames sock)
  calling : ∀ call, system.connecting = some call → call.packetType = MsgType.connect →
    0 < (system.library.client call.m).socket →
      ∀ frame ∈ frames (system.library.client call.m).socket, ¬frame.IsConnect
  introduced : polite → ∀ sock, 0 < sock → ∀ frame ∈ (frames sock).head?, frame.IsConnect

section Streams

variable {frames : List (Frame UInt8)} {sock : SOCKET} {writes after : SocketWrites}

theorem cut_of_carries (carries : Carries sock (frames.map Frame.bytes) writes) :
    Cut frames (writes.accepted sock) where
  isPrefix := carries.sends.accepted_prefix
  whole := by
    have whole := carries.sends.dropLast_prefix
    rwa [← List.map_dropLast] at whole

theorem Streams.cut (streams : Streams frames sock writes) : Cut frames (writes.accepted sock) := by
  rcases streams with carries | ⟨bytes, cut, rests⟩
  · exact cut_of_carries carries
  · rwa [rests.accepted]

theorem Streams.advances (streams : Streams frames sock writes)
    (advances : Advances sock writes after) : Streams frames sock after :=
  streams.imp (advances.carries _) fun ⟨bytes, cut, rests⟩ => ⟨bytes, cut, advances.rests _ rests⟩

theorem idle_of_carries (carries : Carries sock [] writes) : Rests sock [] writes := by
  have sends := carries.sends
  cases pending : writes.pending sock with
  | none =>
      rw [SocketWrites.pendingPacket, pending] at sends
      exact ⟨pending, sends.eq_of_idle⟩
  | some pw =>
      rw [SocketWrites.pendingPacket, pending] at sends
      rcases sends.eq_of_busy with ⟨front, empty, _⟩
      exact absurd empty.symm (by simp)

theorem Conversation.append (conversation : Conversation frames) {frame : Frame UInt8}
    (fromClient : FromClient frame)
    (first : frame.IsConnect → ∀ other ∈ frames, ¬other.IsConnect) :
    Conversation (frames ++ [frame]) where
  fromClient other member := by
    rcases List.mem_append.mp member with earlier | last
    · exact conversation.fromClient other earlier
    · rw [List.mem_singleton.mp last]
      exact fromClient
  once := by
    have once := conversation.once
    rw [List.countP_append, List.countP_singleton]
    by_cases connect : frame.IsConnect
    · have none : frames.countP (fun frame => frame.IsConnect) = 0 :=
        List.countP_eq_zero.mpr fun other member => by simpa using first connect other member
      rw [none]
      split <;> omega
    · rw [if_neg (by simpa using connect)]
      exact once

end Streams

section Step

variable {before : System} {action : Action} {result : List Event × System} {m : Nat}
  {sock : SOCKET}

theorem shortStrings_of_credentials {client other : Clients} (short : ShortStrings client)
    (same : credentials other = credentials client) : ShortStrings other := by
  have clientID := congrArg Credentials.clientID same
  have username := congrArg Credentials.username same
  have password := congrArg Credentials.password same
  simp only [credentials] at clientID username password
  exact ⟨clientID ▸ short.clientID, username ▸ short.username, password ▸ short.password⟩

theorem Stepped.short (stepped : Stepped before action result) (wellFormed : before.WellFormed)
    (fits : Fits action before) (short : ∀ m, ShortStrings (before.library.client m)) (m : Nat) :
    ShortStrings (result.2.library.client m) := by
  rcases stepped.holds stable_credentials wellFormed with
    ⟨clientId, rfl, rfl⟩ | ⟨client, options, attempt, rfl⟩ | holds
  · dsimp only
    rw [Library.client, (create_spec wellFormed.registered clientId).objects]
    by_cases here : m = before.library.created
    · rw [here, Function.update_self]
      exact ⟨fits, fun _ same => CharPtr.noConfusion same, fun _ same => CharPtr.noConfusion same⟩
    · rw [Function.update_of_ne here]
      exact short m
  · cases stepped with
    | began member idle spec =>
        rw [System.conclude_library]
        dsimp only
        by_cases here : m = client
        · subst here
          cases spec with
          | gaveUp applied reconnects =>
              rw [reconnects.client_self]
              exact applyOptions_short (short m) fits applied
          | unopened applied reconnects | opened applied fresh sent reconnects =>
              rw [reconnects.client_self]
              exact shortStrings_of_credentials (applyOptions_short (short m) fits applied) rfl
        · have same : _ = _ := congrArg MQTTClients.c (spec.objects_of_ne here)
          rw [Library.client, same]
          exact short m
  · exact shortStrings_of_credentials (short m) (holds.1 m)

theorem Writes.prepared {Puts : Nat → SOCKET → Frame UInt8 → Prop} {before after : Library}
    (writes : Writes Puts before after) (prepared : Prepared before) : Prepared after := by
  cases writes with
  | unwritten same initialized => exact fun on => same ▸ prepared (initialized ▸ on)
  | kept consistent | put _ _ consistent => exact fun _ => consistent
  | forgot _ prepared => exact prepared

theorem Action.Puts.live {after : System} {frame : Frame UInt8}
    (puts : action.Puts before after m sock frame) (wellFormed : before.WellFormed) :
    Live m sock before.library := by
  cases puts with
  | opens isConnect fresh => exact .inl fresh.2
  | introduces isConnect here => exact .inr ⟨wellFormed.connecting _ here, rfl⟩
  | uses notConnect member => exact .inr ⟨member, rfl⟩

theorem Stepped.calling (stepped : Stepped before action result) (wellFormed : before.WellFormed)
    {call : ConnectCall} (here : result.2.connecting = some call)
    (phase : call.packetType = MsgType.connect)
    (positive : 0 < (result.2.library.client call.m).socket) :
    (result.2.library.client call.m).socket ∉ before.library.descriptors ∨
      ∃ earlier, before.connecting = some earlier ∧ earlier.packetType = MsgType.connect ∧
        (before.library.client earlier.m).socket = (result.2.library.client call.m).socket := by
  -- a step outside of the call
  have other (same : result.2.connecting = before.connecting)
      (holds : Holds (fun object => object.c.socket) before.library result.2.library) :
      ∃ earlier, before.connecting = some earlier ∧ earlier.packetType = MsgType.connect ∧
        (before.library.client earlier.m).socket = (result.2.library.client call.m).socket :=
    ⟨call, same.symm.trans here, phase, (holds.1 call.m).symm⟩
  have changes := stepped.holds stable_socket wellFormed
  cases stepped with
  | @created clientId =>
      refine .inr ⟨call, here, phase, ?_⟩
      have known := wellFormed.registered.old _ (wellFormed.connecting call here)
      dsimp only
      rw [Library.client, Library.client, (create_spec wellFormed.registered clientId).objects,
        Function.update_of_ne (Nat.ne_of_lt known)]
  | @began _ _ _ _ _ outcome library member idle spec =>
      have first := spec.first
      rw [System.conclude_library] at positive ⊢
      cases outcome with
      | returns rc => cases here
      | waits waiting =>
          cases here
          dsimp only at positive ⊢
          rcases first with ⟨rfl, _⟩
          refine .inl ?_
          cases spec with
          | unopened applied reconnects =>
              rw [reconnects.client_self] at positive
              exact absurd (show 0 < socketError from positive) (by decide)
          | opened applied fresh sent reconnects =>
              rw [reconnects.client_self]
              exact fresh.2
  | @connecting _ earlier _ outcome library present spec =>
      have same := (spec.holds stable_socket).1 earlier.m
      rw [System.conclude_library] at positive ⊢
      refine .inr ⟨earlier, present, ?_⟩
      cases spec with
      | waited =>
          cases here
          exact ⟨phase, same.symm⟩
      | sent _ _ _ _ outcome_eq =>
          rcases outcome_eq with rfl | rfl
          · cases here
          · cases here
            exact absurd (show MsgType.connack = MsgType.connect from phase) (by decide)
      | failed | finished => cases here
  | destroyed | set | published | subscribed | looped =>
      rcases changes with ⟨_, wrong, _⟩ | ⟨_, _, _, wrong⟩ | holds
      · cases wrong
      · cases wrong
      · exact .inr (other rfl holds)

end Step

/-! ## What a step leaves -/

section Written

variable {polite : Prop} {frames : SOCKET → List (Frame UInt8)} {before : System}
  {action : Action} {result : List Event × System} {m : Nat} {sock : SOCKET}
  {frame : Frame UInt8}

theorem Connections.opened {library : Library} (connections : Connections library) (m : Nat)
    (positive : 0 < (library.client m).socket) :
    (library.client m).socket ∈ library.descriptors := by
  rcases connections.sockets m with opened | none
  · exact opened
  · rw [none] at positive
    exact absurd positive (by decide)

theorem Written.unused (written : Written polite frames before) : Unused before.library := by
  intro sock nonneg fresh
  have nonzero : sock ≠ 0 := fun zero => fresh (zero ▸ written.connections.zero)
  have positive : 0 < sock := lt_of_le_of_ne nonneg nonzero.symm
  have carries := written.carried 0 sock positive (.inl fresh)
  rw [written.unopened sock positive fresh] at carries
  exact (idle_of_carries carries).idle

theorem Written.unchanged (written : Written polite frames before) (wellFormed : before.WellFormed)
    (fits : Fits action before) (stepped : Stepped before action result)
    (prepared : Prepared result.2.library)
    (streams : ∀ sock, 0 < sock → Streams (frames sock) sock result.2.library.writes)
    (carried : ∀ m sock, 0 < sock → Live m sock result.2.library →
      Carries sock ((frames sock).map Frame.bytes) result.2.library.writes) :
    Written polite frames result.2 where
  prepared := prepared
  connections := stepped.connections wellFormed written.connections
  short := stepped.short wellFormed fits written.short
  unopened sock positive fresh := written.unopened sock positive fun opened =>
    fresh (stepped.descriptors_subset wellFormed opened)
  streams := streams
  carried := carried
  conversation := written.conversation
  calling call here phase positive := by
    rcases stepped.calling wellFormed here phase positive with fresh | ⟨earlier, was, started, same⟩
    · rw [written.unopened _ positive fresh]
      exact List.forall_mem_nil _
    · rw [← same] at positive ⊢
      exact written.calling earlier was started positive
  introduced := written.introduced

theorem Written.advances (written : Written polite frames before)
    (wellFormed : before.WellFormed) (fits : Fits action before)
    (stepped : Stepped before action result) (prepared : Prepared result.2.library)
    (advances : ∀ sock, 0 < sock →
      Advances sock before.library.writes result.2.library.writes) :
    Written polite frames result.2 :=
  written.unchanged wellFormed fits stepped prepared
    (fun sock positive => (written.streams sock positive).advances (advances sock positive))
    fun m sock positive live => (advances sock positive).carries _
      (written.carried m sock positive (stepped.live wellFormed positive live))

theorem Written.forgot (written : Written polite frames before) (wellFormed : before.WellFormed)
    (fits : Fits action before) (stepped : Stepped before action result)
    (prepared : Prepared result.2.library)
    (alone : before.library.handles.values = [] ∨ result.2.library.handles.values = [])
    (outbound : result.2.library.writes.outbound = before.library.writes.outbound)
    (accepted : result.2.library.writes.accepted = before.library.writes.accepted)
    (forgotten : ∀ sock, result.2.library.writes.pending sock = none) :
    Written polite frames result.2 := by
  have rests (sock : SOCKET) : Rests sock (before.library.writes.accepted sock)
      result.2.library.writes := ⟨forgotten sock, congrFun accepted sock⟩
  refine written.unchanged wellFormed fits stepped prepared (fun sock positive => .inr ?_)
    fun m sock positive live => ?_
  · exact ⟨_, (written.streams sock positive).cut, rests sock⟩
  · have fresh : sock ∉ before.library.descriptors := by
      have lived := stepped.live wellFormed positive live
      rcases live with fresh | ⟨member, _⟩
      · exact fun opened => fresh (stepped.descriptors_subset wellFormed opened)
      · rcases lived with fresh | ⟨earlier, _⟩
        · exact fresh
        · rcases alone with empty | empty
          · rw [empty] at earlier
            cases earlier
          · rw [empty] at member
            cases member
    have carries := written.carried m sock positive (.inl fresh)
    rw [written.unopened sock positive fresh] at carries ⊢
    have nothing := rests sock
    rw [(idle_of_carries carries).accepted] at nothing
    exact nothing.carries (outbound ▸ carries.healthy)

theorem Written.offered (written : Written polite frames before) (wellFormed : before.WellFormed)
    (stepped : Stepped before action result)
    (elsewhere : ∀ other, other ≠ sock →
      Advances other before.library.writes result.2.library.writes)
    {taken : List (Frame UInt8)}
    (here : Carries sock (taken.map Frame.bytes) result.2.library.writes) :
    (∀ other, 0 < other →
      Streams (Function.update frames sock taken other) other result.2.library.writes) ∧
    ∀ m other, 0 < other → Live m other result.2.library →
      Carries other ((Function.update frames sock taken other).map Frame.bytes)
        result.2.library.writes := by
  refine ⟨fun other positive => ?_, fun m other positive live => ?_⟩
  all_goals
    by_cases equal : other = sock
    · subst equal
      rw [Function.update_self]
      first
        | exact .inl here
        | exact here
    · rw [Function.update_of_ne equal]
      first
        | exact (written.streams other positive).advances (elsewhere other equal)
        | exact (elsewhere other equal).carries _
            (written.carried m other positive (stepped.live wellFormed positive live))

theorem Action.Puts.first {after : System} (puts : action.Puts before after m sock frame)
    (written : Written polite frames before) (positive : 0 < sock) (isConnect : frame.IsConnect) :
    ∀ other ∈ frames sock, ¬other.IsConnect := by
  cases puts with
  | opens _ fresh =>
      rw [written.unopened sock positive fresh.2]
      exact List.forall_mem_nil _
  | introduces _ here phase => exact written.calling _ here phase positive
  | uses notConnect => exact absurd isConnect notConnect

theorem Action.Puts.introduced {after : System} (puts : action.Puts before after m sock frame)
    (courteous : Courteous action before) (positive : 0 < sock)
    (carries : Carries sock [] before.library.writes) : frame.IsConnect := by
  cases puts with
  | opens isConnect | introduces isConnect => exact isConnect
  | uses _ _ greeted => exact absurd (idle_of_carries carries).accepted (greeted courteous positive)

theorem Action.Puts.opened (puts : action.Puts before result.2 m sock frame)
    (written : Written polite frames before) (wellFormed : before.WellFormed)
    (stepped : Stepped before action result) (positive : 0 < sock) :
    sock ∈ result.2.library.descriptors := by
  cases puts with
  | opens _ _ owner =>
      rw [← owner] at positive ⊢
      exact (stepped.connections wellFormed written.connections).opened m positive
  | introduces | uses =>
      exact stepped.descriptors_subset wellFormed (written.connections.opened _ positive)

theorem Action.Puts.calling {after : System} (puts : action.Puts before after m sock frame)
    {call : ConnectCall} (here : after.connecting = some call)
    (phase : call.packetType = MsgType.connect) : ¬frame.IsConnect := by
  cases puts with
  | opens _ _ _ left | introduces _ _ _ left => exact absurd phase (left call here)
  | uses notConnect => exact notConnect

theorem Written.taken (written : Written polite frames before) (wellFormed : before.WellFormed)
    (fits : Fits action before) (courteous : polite → Courteous action before)
    (stepped : Stepped before action result) (prepared : Prepared result.2.library)
    (puts : action.Puts before result.2 m sock frame) (fromClient : FromClient frame)
    (positive : 0 < sock)
    (elsewhere : ∀ other, other ≠ sock →
      Advances other before.library.writes result.2.library.writes)
    (here : Carries sock ((frames sock ++ [frame]).map Frame.bytes) result.2.library.writes) :
    Written polite (Function.update frames sock (frames sock ++ [frame])) result.2 := by
  have carries := written.carried m sock positive (puts.live wellFormed)
  rcases written.offered wellFormed stepped elsewhere here with ⟨streams, carried⟩
  refine ⟨prepared, stepped.connections wellFormed written.connections,
    stepped.short wellFormed fits written.short, fun other above fresh => ?_, streams, carried,
    fun other above => ?_, fun call now phase above other member => ?_,
    fun always other above => ?_⟩
  · have different : other ≠ sock := by
      rintro rfl
      exact fresh (puts.opened written wellFormed stepped positive)
    rw [Function.update_of_ne different]
    exact written.unopened other above fun opened =>
      fresh (stepped.descriptors_subset wellFormed opened)
  · by_cases equal : other = sock
    · subst equal
      rw [Function.update_self]
      exact (written.conversation other above).append fromClient (puts.first written positive)
    · rw [Function.update_of_ne equal]
      exact written.conversation other above
  · have old : ∀ other ∈ frames (result.2.library.client call.m).socket, ¬other.IsConnect := by
      rcases stepped.calling wellFormed now phase above with fresh | ⟨earlier, was, started, same⟩
      · rw [written.unopened _ above fresh]
        exact List.forall_mem_nil _
      · rw [← same] at above ⊢
        exact written.calling earlier was started above
    by_cases equal : (result.2.library.client call.m).socket = sock
    · rw [equal] at old member
      rw [Function.update_self] at member
      rcases List.mem_append.mp member with earlier | last
      · exact old other earlier
      · rw [List.mem_singleton.mp last]
        exact puts.calling now phase
    · rw [Function.update_of_ne equal] at member
      exact old other member
  · by_cases equal : other = sock
    · subst equal
      rw [Function.update_self]
      have introduced := written.introduced always other above
      cases present : frames other with
      | nil =>
          rw [present] at carries
          intro first same
          cases same
          exact puts.introduced (courteous always) above carries
      | cons first rest =>
          rw [present] at introduced
          exact introduced
    · rw [Function.update_of_ne equal]
      exact written.introduced always other above

theorem Written.step (written : Written polite frames before) (wellFormed : before.WellFormed)
    (fits : Fits action before) (courteous : polite → Courteous action before)
    (stepping : MQTTClient.step action before = some result) :
    ∃ later, Written polite later result.2 := by
  have stepped := step_spec stepping
  have writes := step_writes wellFormed written.prepared written.unused written.short fits stepping
  have prepared := writes.prepared written.prepared
  cases writes with
  | unwritten same =>
      exact ⟨frames, written.advances wellFormed fits stepped prepared fun sock _ =>
        same ▸ .refl sock before.library.writes⟩
  | kept _ advances =>
      exact ⟨frames, written.advances wellFormed fits stepped prepared fun sock _ =>
        advances sock⟩
  | forgot alone _ outbound accepted forgotten =>
      exact ⟨frames, written.forgot wellFormed fits stepped prepared alone outbound accepted
        forgotten⟩
  | @put m sock frame puts fromClient _ offers =>
      by_cases positive : 0 < sock
      · rcases offers.here _ (written.carried m sock positive (puts.live wellFormed)) with
          refused | taken
        · have unchanged := written.offered wellFormed stepped offers.elsewhere refused
          rw [Function.update_eq_self] at unchanged
          exact ⟨frames, written.unchanged wellFormed fits stepped prepared unchanged.1
            unchanged.2⟩
        · rw [← List.map_singleton, ← List.map_append] at taken
          exact ⟨_, written.taken wellFormed fits courteous stepped prepared puts fromClient
            positive offers.elsewhere taken⟩
      · exact ⟨frames, written.advances wellFormed fits stepped prepared fun other above =>
          offers.elsewhere other fun same => positive (same ▸ above)⟩

end Written

/-! ## Buffers that are lent

The pending write of a PUBLISH packet points at the topic and the payload of the publication that
was stored for it, which a PUBACK packet and `MQTTClient_destroy` free. A `PendingWrites` has these
bytes by value: they are what the pointers read as long as the publication is there.
-/

/-- The library with its threads, and the publication that the pending write of a socket points
into. -/
structure Lending where
  system : System
  lent : SOCKET → Option Nat

def Lending.start (inbound : SOCKET → RecvSource UInt8) (outbound : SOCKET → List WritevEvent) :
    Lending :=
  ⟨.start inbound outbound, fun _ => .none⟩

/-- What a write that a step leaves pending points into: the record that
`MQTTProtocol_storePublication` allocates. -/
def lends (action : Action) (before : System) (sock : SOCKET) : Option Nat :=
  match action with
  | .publish m _ =>
      if (before.library.client m).socket = sock then some before.library.publications.nextContent
      else none
  | _ => none

def Lending.step (action : Action) (before : Lending) : Option (List Event × Lending) :=
  (MQTTClient.step action before.system).map fun stepped =>
    (stepped.1,
      { system := stepped.2
        lent := fun sock =>
          if (stepped.2.library.writes.pending sock).isNone then none
          else if (before.system.library.writes.pending sock).isNone then
            lends action before.system sock
          else before.lent sock })

/-- A thread, which may go on with any pending write, takes a step only while the publications
that the writes point into have not been freed. -/
def Backed (action : Action) (before : Lending) : Prop :=
  match action with
  | .connectStep _ | .loopStep _ _ => ∀ write ∈ before.system.library.writes.writes.values,
      ∀ p ∈ before.lent write.socket, (before.system.library.publications.find p).isSome
  | _ => True

instance (before : Lending) : (action : Action) → Decidable (Backed action before)
  | .connectStep _ | .loopStep _ _ => inferInstanceAs (Decidable (∀ _ ∈ _, ∀ _ ∈ (_ : Option _), _))
  | .create _ | .destroy _ | .setCallbacks _ _ _ | .publish _ _ | .subscribe _ _ _
  | .connect _ _ _ => .isTrue trivial

section Run

variable {inbound : SOCKET → RecvSource UInt8} {outbound : SOCKET → List WritevEvent}

theorem Written.start (polite : Prop) (healthy : ∀ sock, 0 < sock → .failed ∉ outbound sock) :
    Written polite (fun _ => []) (.start inbound outbound) where
  prepared on := Bool.noConfusion on
  connections := .start inbound outbound
  short _ :=
    ⟨Nat.zero_le _, fun _ same => CharPtr.noConfusion same, fun _ same => CharPtr.noConfusion same⟩
  unopened _ _ _ := rfl
  streams sock positive := .inl ⟨healthy sock positive, .start⟩
  carried _ sock positive _ := ⟨healthy sock positive, .start⟩
  conversation _ _ := ⟨List.forall_mem_nil _, Nat.zero_le _⟩
  calling _ _ _ _ := List.forall_mem_nil _
  introduced _ _ _ := nofun

end Run

end MqttClient.MQTTClient
