import MqttClient.Clients
import MqttClient.KeyedList
import MqttClient.Socket.Registry

/-! # The state of the library

The static variables of all modules. A client handle is a number, given out in
order; it stands for the `MQTTClients` record and for the `Clients` record in it.
-/

namespace MqttClient

open LinkedList

/-- `library_initialized`, `handles`, `bstate->clients`, `state.publications`,
`state.pending_writes` and `running`, the records behind the handles, the socket module,
and the descriptors that are open. -/
structure Library where
  initialized : Bool
  handles : LinkedList Nat
  clients : LinkedList Nat
  created : Nat
  objects : Nat → MQTTClients
  publications : LinkedList Publications
  pendingWrites : LinkedList (SOCKET × Nat)
  running : Bool
  sockets : Sockets
  reads : SocketReads UInt8
  writes : SocketWrites
  descriptors : List SOCKET

namespace Library

/-- The record `m->c`. -/
def client (library : Library) (m : Nat) : Clients := (library.objects m).c

def modify (m : Nat) (change : MQTTClients → MQTTClients) (library : Library) : Library :=
  { library with objects := Function.update library.objects m (change (library.objects m)) }

def modifyClient (m : Nat) (change : Clients → Clients) (library : Library) : Library :=
  library.modify m fun object => { object with c := change object.c }

/-- The comparison by `MQTTProperties_socketCompare` and by `clientSockCompare`. -/
def ownsSocket (library : Library) (sock : SOCKET) (element : ListElement Nat) : Bool :=
  (library.client element.value).socket = sock

/-- `ListFindItem(bstate->clients, &sock, MQTTProperties_socketCompare)->content`. -/
def findClient (sock : SOCKET) (library : Library) : Option (Nat × Library) :=
  match library.clients.findItem (library.ownsSocket sock) with
  | (none, _) => none
  | (some element, clients) => some (element.value, { library with clients := clients })

/-- `ListFindItem(handles, &sock, clientSockCompare)`. -/
def findHandle (sock : SOCKET) (library : Library) : Option Nat × Library :=
  let found := library.handles.findItem (library.ownsSocket sock)
  (found.1.map ListElement.value, { library with handles := found.2 })

structure Keeps (before after : Library) : Prop where
  initialized : after.initialized = before.initialized
  handles : after.handles.values = before.handles.values
  clients : after.clients.values = before.clients.values
  created : after.created = before.created
  descriptors : after.descriptors = before.descriptors
  running : after.running = before.running

structure KeepsObjects (before after : Library) : Prop extends Keeps before after where
  objects : after.objects = before.objects

structure KeepsPublications (before after : Library) : Prop where
  publications : after.publications = before.publications
  pendingWrites : after.pendingWrites = before.pendingWrites

structure Searched (before after : Library) : Prop
    extends KeepsObjects before after, KeepsPublications before after

structure Sets (m : Nat) (object : MQTTClients) (before after : Library) : Prop
    extends Keeps before after where
  objects : after.objects = Function.update before.objects m object

abbrev SetsClient (m : Nat) (client : Clients) (before after : Library) : Prop :=
  Sets m { before.objects m with c := client } before after

structure KeepsMessages (before after : Library) : Prop
    extends KeepsPublications before after where
  initialized : after.initialized = before.initialized
  handles : after.handles.values = before.handles.values
  clients : after.clients.values = before.clients.values
  created : after.created = before.created
  untouched : ∀ m, before.created ≤ m → after.objects m = before.objects m
  offline : ∀ m, (after.client m).offline = (before.client m).offline

section Effects

variable {before middle after : Library} {m : Nat}

theorem Keeps.refl (library : Library) : Keeps library library :=
  ⟨rfl, rfl, rfl, rfl, rfl, rfl⟩

theorem Keeps.trans (first : Keeps before middle) (second : Keeps middle after) :
    Keeps before after where
  initialized := second.initialized.trans first.initialized
  handles := second.handles.trans first.handles
  clients := second.clients.trans first.clients
  created := second.created.trans first.created
  descriptors := second.descriptors.trans first.descriptors
  running := second.running.trans first.running

theorem KeepsObjects.refl (library : Library) : KeepsObjects library library :=
  ⟨.refl library, rfl⟩

theorem KeepsObjects.trans (first : KeepsObjects before middle)
    (second : KeepsObjects middle after) : KeepsObjects before after :=
  ⟨first.toKeeps.trans second.toKeeps, second.objects.trans first.objects⟩

theorem KeepsObjects.client (keeps : KeepsObjects before after) (m : Nat) :
    after.client m = before.client m := by
  rw [Library.client, keeps.objects]
  rfl

theorem KeepsObjects.sets {object : MQTTClients} (first : KeepsObjects before middle)
    (second : Sets m object middle after) : Sets m object before after :=
  ⟨first.toKeeps.trans second.toKeeps, by rw [second.objects, first.objects]⟩

theorem Sets.keepsObjects {object : MQTTClients} (first : Sets m object before middle)
    (second : KeepsObjects middle after) : Sets m object before after :=
  ⟨first.toKeeps.trans second.toKeeps, second.objects.trans first.objects⟩

theorem Sets.trans {first second : MQTTClients} (one : Sets m first before middle)
    (two : Sets m second middle after) : Sets m second before after :=
  ⟨one.toKeeps.trans two.toKeeps, by rw [two.objects, one.objects, Function.update_idem]⟩

theorem KeepsObjects.setsClient {client : Clients} (first : KeepsObjects before middle)
    (second : SetsClient m client middle after) : SetsClient m client before after := by
  have sets := first.sets second
  rwa [first.objects] at sets

theorem SetsClient.trans {first second : Clients} (one : SetsClient m first before middle)
    (two : SetsClient m second middle after) : SetsClient m second before after := by
  have sets := Sets.trans one two
  rwa [one.objects, Function.update_self] at sets

theorem Sets.eq_of_changed {object : MQTTClients} (sets : Sets m object before after)
    {other : Nat} (changed : after.objects other ≠ before.objects other) : other = m := by
  by_contra different
  exact changed (by rw [sets.objects, Function.update_of_ne different])

theorem SetsClient.client_self {client : Clients} (sets : SetsClient m client before after) :
    after.client m = client := by
  rw [Library.client, sets.objects, Function.update_self]

theorem SetsClient.client_of_ne {client : Clients} (sets : SetsClient m client before after)
    {other : Nat} (different : other ≠ m) : after.client other = before.client other := by
  rw [Library.client, sets.objects, Function.update_of_ne different]
  rfl

theorem KeepsPublications.trans (first : KeepsPublications before middle)
    (second : KeepsPublications middle after) : KeepsPublications before after :=
  ⟨second.publications.trans first.publications, second.pendingWrites.trans first.pendingWrites⟩

theorem Searched.refl (library : Library) : Searched library library :=
  ⟨.refl library, rfl, rfl⟩

theorem Searched.trans (first : Searched before middle) (second : Searched middle after) :
    Searched before after :=
  ⟨first.toKeepsObjects.trans second.toKeepsObjects,
    first.toKeepsPublications.trans second.toKeepsPublications⟩

theorem Searched.keepsMessages (searched : Searched before after) :
    KeepsMessages before after where
  toKeepsPublications := searched.toKeepsPublications
  initialized := searched.initialized
  handles := searched.handles
  clients := searched.clients
  created := searched.created
  untouched m _ := by rw [searched.objects]
  offline m := by rw [searched.client]

theorem KeepsMessages.of_update {object : MQTTClients}
    (publications : KeepsPublications before after)
    (initialized : after.initialized = before.initialized)
    (handles : after.handles.values = before.handles.values)
    (clients : after.clients.values = before.clients.values)
    (created : after.created = before.created)
    (objects : after.objects = Function.update before.objects m object)
    (old : m < before.created) (same : object.c.offline = (before.client m).offline) :
    KeepsMessages before after where
  toKeepsPublications := publications
  initialized := initialized
  handles := handles
  clients := clients
  created := created
  untouched other fresh := by
    rw [objects, Function.update_of_ne (by omega)]
  offline other := by
    rw [Library.client, objects]
    by_cases here : other = m
    · rw [here, Function.update_self, same]
    · rw [Function.update_of_ne here]
      rfl

theorem Sets.keepsMessages {object : MQTTClients} (sets : Sets m object before after)
    (publications : KeepsPublications before after) (old : m < before.created)
    (same : object.c.offline = (before.client m).offline) : KeepsMessages before after :=
  .of_update publications sets.initialized sets.handles sets.clients sets.created sets.objects old
    same

theorem Sets.stable {τ : Type} {object : MQTTClients} (sets : Sets m object before after)
    (datum : MQTTClients → τ) (same : datum object = datum (before.objects m))
    (other : Nat) : datum (after.objects other) = datum (before.objects other) := by
  rw [sets.objects]
  by_cases here : other = m
  · rw [here, Function.update_self, same]
  · rw [Function.update_of_ne here]

section Messages

variable (keeps : KeepsMessages before after) (m : Nat)
include keeps

theorem KeepsMessages.outboundMsgs :
    (after.client m).outboundMsgs = (before.client m).outboundMsgs := by
  change (after.client m).offline.outboundMsgs = (before.client m).offline.outboundMsgs
  rw [keeps.offline]

theorem KeepsMessages.inboundMsgs :
    (after.client m).inboundMsgs = (before.client m).inboundMsgs := by
  change (after.client m).offline.inboundMsgs = (before.client m).offline.inboundMsgs
  rw [keeps.offline]

theorem KeepsMessages.msgID : (after.client m).msgID = (before.client m).msgID := by
  change (after.client m).offline.msgID = (before.client m).offline.msgID
  rw [keeps.offline]

theorem KeepsMessages.messageQueue :
    (after.client m).messageQueue = (before.client m).messageQueue := by
  change (after.client m).offline.messageQueue = (before.client m).offline.messageQueue
  rw [keeps.offline]

end Messages

theorem modifyClient_sets (m : Nat) (change : Clients → Clients) (library : Library) :
    SetsClient m (change (library.client m)) library (library.modifyClient m change) :=
  ⟨⟨rfl, rfl, rfl, rfl, rfl, rfl⟩, rfl⟩

end Effects

theorem findClient_eq_some {sock : SOCKET} {library after : Library} {m : Nat}
    (found : library.findClient sock = some (m, after)) :
    m ∈ library.clients.values ∧ (library.client m).socket = sock ∧
      Searched library after := by
  unfold findClient at found
  split at found
  · cases found
  · rename_i element clients searched
    cases found
    have here := findItem_eq_some (congrArg Prod.fst searched)
    have values := values_findItem library.clients (library.ownsSocket sock)
    rw [searched] at values
    exact ⟨mem_values.mpr ⟨element, here.1, rfl⟩, by simpa [ownsSocket] using here.2,
      ⟨⟨rfl, rfl, values, rfl, rfl, rfl⟩, rfl⟩, rfl, rfl⟩

theorem findHandle_eq {sock : SOCKET} {library after : Library} {m : Option Nat}
    (found : library.findHandle sock = (m, after)) :
    (∀ handle, m = some handle →
        handle ∈ library.handles.values ∧ (library.client handle).socket = sock) ∧
      Searched library after := by
  unfold findHandle at found
  cases found
  refine ⟨fun handle same => ?_,
    ⟨⟨⟨rfl, values_findItem .., rfl, rfl, rfl, rfl⟩, rfl⟩, rfl, rfl⟩⟩
  rcases Option.map_eq_some_iff.mp same with ⟨element, searched, rfl⟩
  have here := findItem_eq_some searched
  exact ⟨mem_values.mpr ⟨element, here.1, rfl⟩, by simpa [ownsSocket] using here.2⟩

theorem exists_findClient {sock : SOCKET} {library : Library} {m : Nat}
    (member : m ∈ library.clients.values) (owner : (library.client m).socket = sock) :
    ∃ client after, library.findClient sock = some (client, after) := by
  rcases mem_values.mp member with ⟨element, here, rfl⟩
  unfold findClient
  split
  · rename_i missed
    have other := findItem_eq_none_iff.mp (congrArg Prod.fst missed) element here
    exact absurd owner (by simpa [ownsSocket] using other)
  · exact ⟨_, _, rfl⟩

theorem exists_findHandle {sock : SOCKET} {library : Library} {m : Nat}
    (member : m ∈ library.handles.values) (owner : (library.client m).socket = sock) :
    ∃ handle after, library.findHandle sock = (some handle, after) := by
  rcases mem_values.mp member with ⟨element, here, rfl⟩
  cases found : (library.handles.findItem (library.ownsSocket sock)).1 with
  | none =>
      have other := findItem_eq_none_iff.mp found element here
      exact absurd owner (by simpa [ownsSocket] using other)
  | some handle =>
      refine ⟨handle.value, (library.findHandle sock).2, Prod.ext ?_ rfl⟩
      exact congrArg (Option.map ListElement.value) found

theorem writes_findClient {sock : SOCKET} {library after : Library} {m : Nat}
    (found : library.findClient sock = some (m, after)) : after.writes = library.writes := by
  unfold findClient at found
  split at found
  · cases found
  · cases found
    rfl

theorem writes_findHandle {sock : SOCKET} {library after : Library} {m : Option Nat}
    (found : library.findHandle sock = (m, after)) : after.writes = library.writes :=
  (congrArg (fun result => result.2.writes) found).symm

theorem reads_findHandle {sock : SOCKET} {library after : Library} {m : Option Nat}
    (found : library.findHandle sock = (m, after)) : after.reads = library.reads :=
  (congrArg (fun result => result.2.reads) found).symm

end Library

end MqttClient
