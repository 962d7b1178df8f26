import MqttClient.MQTTClient.System

/-! # What `MQTTClient_cycle` does with the answer of `Socket_getReadySocket`

The socket 0, which says that no socket is ready, is also the socket of every client
that has never been connected. The return code is overwritten.
-/

namespace MqttClient.MQTTClient

open Foundation LinkedList MQTTProtocol

section Reads

variable {before after : Library} {sock : SOCKET} {rc : Int}

theorem reads_handlePublishes {publish : Publish}
    (handled : handlePublishes publish sock before = some (rc, after)) :
    after.reads = before.reads := by
  unfold handlePublishes Library.findClient at handled
  split at handled
  · cases handled
  · rename_i client library searched
    have kept : library.reads = before.reads := by
      split at searched
      · cases searched
      · cases searched
        rfl
    rw [← kept]
    unfold handleFound at handled
    split at handled
    · cases handled
      rfl
    · dsimp only at handled
      split at handled
      · split at handled
        · cases handled
          rfl
        · cases handled
          rfl
      · split at handled
        · rcases Option.map_eq_some_iff.mp handled with ⟨stored, storing, same⟩
          have reads : stored.reads = library.reads := by
            unfold storeInbound at storing
            dsimp only at storing
            split at storing
            · rcases Option.map_eq_some_iff.mp storing with ⟨_, _, rfl⟩
              rfl
            · cases storing
              rfl
          rw [← reads]
          split at same
          · cases same
            rfl
          · cases same
            rfl
        · cases handled
          rfl

theorem reads_handlePubacks {msgid : Int} {client : Nat}
    (handled : handlePubacks msgid sock before = some (client, after)) :
    after.reads = before.reads := by
  unfold handlePubacks Library.findClient at handled
  split at handled
  · cases handled
  · rename_i found library searched
    have kept : library.reads = before.reads := by
      split at searched
      · cases searched
      · cases searched
        rfl
    rcases Option.map_eq_some_iff.mp handled with ⟨final, acknowledged, same⟩
    cases same
    rw [← kept]
    unfold acknowledge at acknowledged
    dsimp only at acknowledged
    split at acknowledged
    · cases acknowledged
      rfl
    · split at acknowledged
      · cases acknowledged
        rfl
      · rcases Option.map_eq_some_iff.mp acknowledged with ⟨_, _, rfl⟩
        rfl

theorem inbound_cycleReady {other : SOCKET} {events : List Event} {pack : Option Packet}
    (different : other ≠ sock) (cycled : cycleReady sock before = some (events, pack, rc, after)) :
    after.reads.inbound other = before.reads.inbound other := by
  unfold cycleReady at cycled
  split at cycled
  · rename_i library found
    cases cycled
    rw [Library.reads_findHandle found]
  · rename_i m library found
    rcases Library.findHandle_eq found with ⟨owns, searched⟩
    have owner : (library.client m).socket = sock := by
      rw [searched.client, (owns m rfl).2]
    dsimp only at cycled
    by_cases connecting : (library.client m).connectState = .tcpInProgress
    · rw [if_pos connecting] at cycled
      cases cycled
      rw [Library.reads_findHandle found]
    · rw [if_neg connecting, owner] at cycled
      have received := MQTTPacket.inbound_factory different (library.client m).mqttVersion
        library.reads
      rw [Library.reads_findHandle found] at received
      rw [← received, ← Library.reads_findHandle found]
      split at cycled
      · cases cycled
      · cases cycled
        rfl
      · rename_i pack _
        rcases Option.map_eq_some_iff.mp cycled with ⟨⟨_, _, _, final⟩, handling, same⟩
        cases same
        unfold handlePacket at handling
        split at handling
        · split at handling
          · rcases Option.map_eq_some_iff.mp handling with ⟨⟨rc, final⟩, published, same⟩
            cases same
            rw [reads_handlePublishes published]
          · cases handling
        · split at handling
          · split at handling
            · rcases Option.map_eq_some_iff.mp handling with ⟨⟨client, final⟩, acknowledged, same⟩
              cases same
              rw [reads_handlePubacks acknowledged]
            · cases handling
          · cases handling
            rfl

theorem cycleReady_unread
    (unread : ∀ m, (before.findHandle sock).1 = some m →
      (before.client m).connectState = .tcpInProgress) :
    ∃ after, cycleReady sock before = some ([], none, 0, after) ∧ after.reads = before.reads ∧
      after.objects = before.objects := by
  unfold cycleReady
  generalize searched : before.findHandle sock = found at unread
  rcases found with ⟨m, library⟩
  rcases Library.findHandle_eq searched with ⟨owns, keeps⟩
  cases m with
  | none => exact ⟨library, rfl, Library.reads_findHandle searched, keeps.objects⟩
  | some m =>
      have connecting : (library.client m).connectState = .tcpInProgress := by
        rw [keeps.client]
        exact unread m rfl
      dsimp only
      rw [if_pos connecting]
      exact ⟨library, rfl, Library.reads_findHandle searched, keeps.objects⟩

theorem cycleReady_read {m : Nat} {result : List Event × Option Packet × Int × Library}
    (found : (before.findHandle sock).1 = some m)
    (other : (before.client m).connectState ≠ .tcpInProgress)
    (cycled : cycleReady sock before = some result) : .reads m sock ∈ result.1 := by
  unfold cycleReady at cycled
  generalize searched : before.findHandle sock = reached at found cycled
  rcases reached with ⟨client, library⟩
  cases found
  rcases Library.findHandle_eq searched with ⟨owns, keeps⟩
  have owner : (library.client m).socket = sock := by
    rw [keeps.client, (owns m rfl).2]
  rw [← keeps.client] at other
  dsimp only at cycled
  rw [if_neg other, owner] at cycled
  split at cycled
  · cases cycled
  · cases cycled
    exact List.mem_cons_self
  · rcases Option.map_eq_some_iff.mp cycled with ⟨handled, _, rfl⟩
    exact List.mem_cons_self

end Reads

/-- A cycle acts on the socket that is ready: with none, which is the socket 0, it calls
the packet reader for no client, returns no packet and changes no client; with one, it
reads from this socket only, for a client that has it, and changes only such clients. -/
structure ActsOnReady (sock : SOCKET) (before : Library) : Prop where
  idle : sock = 0 → ∃ events rc after, cycleReady sock before = some (events, none, rc, after) ∧
    (∀ m socket, .reads m socket ∉ events) ∧ after.reads = before.reads ∧
    after.objects = before.objects
  busy : sock ≠ 0 → ∀ events pack rc after,
    cycleReady sock before = some (events, pack, rc, after) →
      (∀ m socket, .reads m socket ∈ events →
        socket = sock ∧ (before.client m).socket = sock) ∧
      (∀ other, other ≠ sock → after.reads.inbound other = before.reads.inbound other) ∧
      ∀ m, after.objects m ≠ before.objects m → (before.client m).socket = sock

theorem Cycled.acts {before after : Library} {sock rc : Int} {events : List Event}
    {pack : Option Packet} (cycled : Cycled sock before (events, pack, rc, after)) :
    (∀ m socket, .reads m socket ∈ events → socket = sock ∧ (before.client m).socket = sock) ∧
      ∀ m, after.objects m ≠ before.objects m → (before.client m).socket = sock := by
  cases cycled with
  | nothing reads searched =>
      refine ⟨fun m socket here => ?_, fun m changed => absurd (by rw [searched.objects]) changed⟩
      rcases reads _ here with ⟨other, _, owner, same⟩
      cases same
      exact ⟨rfl, owner⟩
  | returned member owner typed notPublish searched =>
      refine ⟨fun m socket here => ?_, fun m changed => absurd (by rw [searched.objects]) changed⟩
      rcases List.mem_cons.mp here with same | here
      · cases same
        exact ⟨rfl, owner⟩
      · simp at here
  | publish member owner searched writes handled clientMember clientOwner sets =>
      refine ⟨fun m socket here => ?_, fun m changed => ?_⟩
      · rcases List.mem_cons.mp here with same | here
        · cases same
          exact ⟨rfl, owner⟩
        · simp at here
      · rw [sets.eq_of_changed changed]
        exact clientOwner
  | puback member owner id searched handled clientMember clientOwner sets values =>
      refine ⟨fun m socket here => ?_, fun m changed => ?_⟩
      · rcases List.mem_cons.mp here with same | here
        · cases same
          exact ⟨rfl, owner⟩
        · simp at here
      · rw [sets.eq_of_changed changed]
        exact clientOwner

/-- A cycle acts on the socket that is ready only, exactly if there is one, or no client
but one that waits for its TCP connection is found for the socket 0. -/
theorem actsOnReady_iff (sock : SOCKET) (before : Library) :
    ActsOnReady sock before ↔
      (sock = 0 → ∀ m, (before.findHandle 0).1 = some m →
        (before.client m).connectState = .tcpInProgress) := by
  constructor
  · rintro acts rfl m found
    by_contra other
    rcases acts.idle rfl with ⟨events, rc, after, cycled, unread, _⟩
    exact unread m 0 (cycleReady_read found other cycled)
  · intro unread
    constructor
    · rintro rfl
      rcases cycleReady_unread (unread rfl) with ⟨after, cycled, reads, objects⟩
      exact ⟨[], 0, after, cycled, fun m socket => List.not_mem_nil, reads, objects⟩
    · intro _ events pack rc after cycled
      have acts := (cycleReady_spec cycled).acts
      exact ⟨acts.1, fun other different => inbound_cycleReady different cycled, acts.2⟩

/-- One client that has been created and never connected: with no socket ready, the
packet reader is called on standard input. -/
theorem not_actsOnReady_created : ¬ActsOnReady 0
    (create ⟨[], by decide⟩ (System.start (fun _ => []) fun _ => []).library) := by
  intro acts
  rcases acts.idle rfl with ⟨events, rc, after, cycled, unread, _⟩
  exact unread 0 0 (cycleReady_read rfl (by decide) cycled)

/-! ## A write that fails -/

/-- A cycle reports that writing to a socket has failed: it returns the socket with
`SOCKET_ERROR`, and calls the packet reader for no client. -/
def ReportsFailure (choice : Choice) (before : Library) (sock : SOCKET) : Prop :=
  ∃ events pack after, cycle choice before = some (events, pack, sock, socketError, after) ∧
    ∀ m socket, .reads m socket ∉ events

theorem rc_of_unread {before after : Library} {sock rc : Int} {events : List Event}
    {pack : Option Packet} (cycled : cycleReady sock before = some (events, pack, rc, after))
    (unread : ∀ m socket, .reads m socket ∉ events) : rc = 0 := by
  have idle : ∀ m, (before.findHandle sock).1 = some m →
      (before.client m).connectState = .tcpInProgress := by
    intro m found
    by_contra other
    exact unread m sock (cycleReady_read found other cycled)
  rcases cycleReady_unread idle with ⟨final, returned, _⟩
  rw [cycled] at returned
  cases returned
  rfl

/-- Whatever the state: when `Socket_getReadySocket` returns a socket with `SOCKET_ERROR`,
as it does when a pending write has failed, the cycle does not report it. -/
theorem not_reportsFailure {choice : Choice} {before ready : Library} {sock : SOCKET}
    (failed : getReadySocket choice before = some (sock, socketError, ready)) :
    ¬ReportsFailure choice before sock := by
  rintro ⟨events, pack, after, cycled, unread⟩
  unfold cycle at cycled
  rw [failed, Option.bind_some] at cycled
  rcases Option.map_eq_some_iff.mp cycled with ⟨⟨_, _, rc, _⟩, behind, same⟩
  cases same
  exact absurd (rc_of_unread behind unread) (by decide)

/-- One client that has written a part of a PUBLISH packet, on a socket on which the next
write fails. -/
def partlyWritten : Option (List Event × System) :=
  machine.run (oneClient ++ [publishOne])
    (.start (fun _ => []) fun _ => [.accept 1000, .accept 2, .failed])

theorem not_reportsFailure_partlyWritten : ∃ events final ready,
    partlyWritten = some (events, final) ∧
      getReadySocket .ready final.library = some (3, socketError, ready) ∧
      ¬ReportsFailure .ready final.library 3 := by
  have observed : (partlyWritten.bind fun reached =>
      (getReadySocket .ready reached.2.library).map fun ready => (ready.1, ready.2.1)) =
        some (3, socketError) := by
    decide +kernel
  rcases Option.bind_eq_some_iff.mp observed with ⟨⟨events, final⟩, ran, observed⟩
  rcases Option.map_eq_some_iff.mp observed with ⟨⟨sock, rc, ready⟩, failed, same⟩
  cases same
  exact ⟨events, final, ready, ran, failed, not_reportsFailure failed⟩

/-- The write to the socket 3 fails, and the cycle goes on to read from it and returns 0. -/
theorem swallowed_partlyWritten : ∃ events final,
    partlyWritten = some (events, final) ∧
      (∃ ready, getReadySocket .ready final.library = some (3, socketError, ready)) ∧
      ¬ReportsFailure .ready final.library 3 := by
  have observed : (partlyWritten.bind fun reached =>
      (getReadySocket .ready reached.2.library).bind fun ready =>
        (cycle .ready reached.2.library).map fun cycled =>
          ((ready.1, ready.2.1), cycled.2.2.2.1)) = some ((3, socketError), 0) := by
    decide +kernel
  rcases Option.bind_eq_some_iff.mp observed with ⟨⟨events, final⟩, ran, observed⟩
  rcases Option.bind_eq_some_iff.mp observed with ⟨⟨sock, rc, ready⟩, failed, observed⟩
  rcases Option.map_eq_some_iff.mp observed with ⟨⟨_, _, _, result, _⟩, cycled, same⟩
  cases same
  refine ⟨events, final, ran, ⟨ready, failed⟩, ?_⟩
  rintro ⟨_, _, _, reported, _⟩
  rw [cycled] at reported
  cases reported

end MqttClient.MQTTClient
