import MqttClient.MQTTClient.Cycle

/-! # `MQTTClient`: connecting

`MQTTClient_connect`, cut where it lets go of `mqttclient_mutex`: to the first wait, the
steps of `MQTTClient_waitfor`, and from each wait to the next or to the return.
-/

namespace MqttClient.MQTTClient

/-- `EINPROGRESS` and `EWOULDBLOCK`. -/
abbrev eInProgress : Int := 115
abbrev eWouldBlock : Int := 11

/-- How `Socket_new` ends: it fails, perhaps with a socket that it has opened; or it opens
a socket on which the connection is in progress, or established. -/
inductive NewSocket
  | failed (rc : Int) (error : rc ≠ 0 ∧ rc ≠ eInProgress ∧ rc ≠ eWouldBlock)
      (opened : Option SOCKET)
  | inProgress (sock : SOCKET)
  | connected (sock : SOCKET)

/-- The answers to the first step of a call: whether the time is up behind
`Thread_start`, whether the time left is negative, and what `Socket_new` does. -/
structure Attempt where
  expired : Bool := false
  negative : Bool := false
  newSocket : NewSocket

/-- Where a call stands without holding the mutex: before `MQTTClient_waitfor`; in it,
in `Thread_wait_sem` and behind it; at the top of its loop, in `MQTTClient_cycle`
behind `Socket_getReadySocket`, and behind the cycle; behind `MQTTClient_waitfor`. -/
inductive Waiting
  | waitfor
  | semaphore
  | awake (rc : Int)
  | polling
  | selected (sock : SOCKET)
  | polled (sock : SOCKET) (pack : Option Packet) (rc : Int)
  | done (pack : Option Packet) (rc : Int)

/-- A call of `MQTTClient_connect` that waits for a CONNECT to be sent or a CONNACK to be
received; `connect_mutex` admits one at a time. -/
structure ConnectCall where
  m : Nat
  mqttVersion : Int
  packetType : Nat
  waiting : Waiting

/-- `if (client->username) free(client->username)`, and the new value if there is one. A
second `free` is undefined. -/
def replaceString (old : CharPtr) (new : Option CString) : Option CharPtr :=
  match old, new with
  | .freed, _ => none
  | _, some string => some (.string string)
  | .string _, none => some .freed
  | .null, none => some .null

/-- The part of `MQTTClient_connectURI` in front of `MQTTClient_connectURIVersion`. -/
def applyOptions (options : ConnectOptions) (client : Clients) : Option Clients := do
  let username ← replaceString client.username options.username
  let password ← replaceString client.password options.password
  return { client with
    mqttVersion := options.mqttVersion
    username := username
    password := password
    passwordlen := (options.password.map fun string => toInt string.bytes.length).getD
      client.passwordlen }

/-- A descriptor that `socket` returns was not open before. -/
def NewSocket.Fresh (library : Library) : NewSocket → Prop
  | .failed _ _ none => True
  | .failed _ _ (some sock) => 0 ≤ sock ∧ sock ∉ library.descriptors
  | .inProgress sock => 0 ≤ sock ∧ sock ∉ library.descriptors
  | .connected sock => 0 ≤ sock ∧ sock ∉ library.descriptors

instance (library : Library) : (newSocket : NewSocket) → Decidable (newSocket.Fresh library)
  | .failed _ _ none => .isTrue trivial
  | .failed _ _ (some _) => inferInstanceAs (Decidable (_ ∧ _))
  | .inProgress _ => inferInstanceAs (Decidable (_ ∧ _))
  | .connected _ => inferInstanceAs (Decidable (_ ∧ _))

/-- `Socket_new`: the return code, the socket, and the state. It fails when the socket
cannot be registered, so `none` is an end that it cannot have. -/
def socketNew (newSocket : NewSocket) (library : Library) : Option (Int × SOCKET × Library) :=
  match newSocket with
  | .failed rc _ none => some (rc, socketError, library)
  | .failed rc _ (some sock) =>
      let (_, sockets) := Socket.addSocket sock library.sockets
      let (_, sockets, reads, writes) :=
        Socket.close sock sockets library.reads library.writes
      some (rc, socketError,
        { library with sockets := sockets, reads := reads, writes := writes })
  | .inProgress sock =>
      let (rc, sockets) := Socket.addSocket sock library.sockets
      if rc = socketError then none
      else
        some (eInProgress, sock,
          { library with
            sockets :=
              { sockets with connectPending := sockets.connectPending.append sock }
            descriptors := sock :: library.descriptors })
  | .connected sock =>
      let (rc, sockets) := Socket.addSocket sock library.sockets
      if rc = socketError then none
      else
        some (0, sock,
          { library with sockets := sockets, descriptors := sock :: library.descriptors })

/-- `MQTTPacket_send_connect`, with what can be observed of it. -/
def sendConnect (m : Nat) (mqttVersion : Int) (library : Library) :
    Option (List Event × Int × Library) :=
  (MQTTPacket.connectBlock (library.client m) mqttVersion).bind fun block =>
    (MQTTPacket.sendConnect (library.client m) mqttVersion library.writes).map fun sent =>
      (block.toList.map (.connectSent m), sent.1, { library with writes := sent.2 })

/-- `MQTTProtocol_connect` behind the check of the time that is left. -/
def protocolConnect (m : Nat) (mqttVersion : Int) (newSocket : NewSocket) (library : Library) :
    Option (List Event × Int × Library) :=
  (socketNew newSocket library).bind fun (rc, sock, library) =>
    let library := library.modifyClient m fun client => { client with socket := sock }
    if rc = eInProgress then
      some ([.opened sock], rc, library.modifyClient m fun client =>
        { client with connectState := .tcpInProgress })
    else if rc = 0 then
      (sendConnect m mqttVersion library).map fun (events, rc, library) =>
        (.opened sock :: events, rc, library.modifyClient m fun client =>
          { client with connectState := if rc = 0 then .waitForConnack else .notInProgress })
    else some ([], rc, library)

inductive ConnectOutcome
  | waits (call : ConnectCall)
  | returns (rc : Int)

/-- The result of a call whose return code stands at `rc`, before it has to wait. -/
def afterProtocolConnect (m : Nat) (mqttVersion rc : Int) (client : Clients) :
    ConnectOutcome :=
  if rc = socketError then .returns socketError
  else
    match client.connectState with
    | .notInProgress => .returns socketError
    | .tcpInProgress => .waits ⟨m, mqttVersion, MsgType.connect, .waitfor⟩
    | .waitForConnack => .waits ⟨m, mqttVersion, MsgType.connack, .waitfor⟩

/-- `MQTTClient_connect` to its first wait. Also returns whether it starts a thread. -/
def beginConnect (m : Nat) (options : ConnectOptions) (attempt : Attempt) (library : Library) :
    Option (List Event × Bool × ConnectOutcome × Library) :=
  match applyOptions options (library.client m) with
  | none => none
  | some client =>
      let library := library.modifyClient m fun _ => client
      let starts := (library.objects m).ma && !library.running
      if starts ∧ attempt.expired then some ([], starts, .returns socketError, library)
      else if attempt.negative then some ([], starts, .returns socketError, library)
      else if attempt.newSocket.Fresh library then
        (protocolConnect m options.mqttVersion attempt.newSocket library).map fun connected =>
          let library := connected.2.2
          (connected.1, starts,
            afterProtocolConnect m options.mqttVersion connected.2.1 (library.client m), library)
      else none

/-- The result of `Thread_wait_sem` on a semaphore and the semaphore's value behind it.
The call takes a semaphore only if it has been posted. -/
def waitSem (choice : Choice) (value : Nat) : Option (Int × Nat) :=
  match choice.semaphore with
  | .taken => if value = 0 then none else some (0, value - 1)
  | .otherError => some (0, value)
  | .timedOut => some (eWouldBlock, value)
  | .untried => some (-1, value)

/-- The checks of the loop in `MQTTClient_waitfor` behind a cycle. -/
def checkPolled (choice : Choice) (packetType : Nat) (sock : SOCKET) (pack : Option Packet)
    (rc : Int) (client : Clients) : Waiting :=
  let next := if choice.expired then .done none rc else .polling
  if sock = client.socket then
    if rc = socketError then .done pack rc
    else if (pack.map fun pack => pack.header.type) = some packetType then .done pack rc
    else
      match client.connectState with
      | .tcpInProgress => .done pack (sockopt choice.error)
      | .waitForConnack =>
          match choice.error with
          | some error => if error ≠ 0 then .done pack error else next
          | none => next
      | .notInProgress => next
  else next

/-- One step of `MQTTClient_waitfor`. -/
def waitforStep (choice : Choice) (m : Nat) (packetType : Nat) (library : Library) :
    Waiting → Option (List Event × Waiting × Library)
  | .waitfor =>
      if choice.expired then some ([], .done none mqttclientFailure, library)
      else if library.running then some ([], .semaphore, library)
      else some ([], .polling, library)
  | .semaphore =>
      if packetType = MsgType.connect then
        (waitSem choice (library.objects m).connectSem).map fun waited =>
          ([], .awake waited.1, library.modify m fun object =>
            { object with connectSem := waited.2 })
      else
        (waitSem choice (library.objects m).connackSem).map fun waited =>
          ([], .awake waited.1, library.modify m fun object =>
            { object with connackSem := waited.2 })
  | .awake rc =>
      let rc := if packetType = MsgType.connect ∧ rc = 0 then (library.objects m).rc else rc
      some ([], .done (library.objects m).pack rc, library)
  | .polling =>
      (getReadySocket choice library).map fun ready => ([], .selected ready.1, ready.2.2)
  | .selected sock =>
      (cycleReady sock library).map fun cycled =>
        (cycled.1, .polled sock cycled.2.1 cycled.2.2.1, cycled.2.2.2)
  | .polled sock pack rc =>
      some ([], checkPolled choice packetType sock pack rc (library.client m), library)
  | .done _ _ => none

/-- `MQTTClient_connectURIVersion` behind a wait. -/
def resumeConnect (call : ConnectCall) (pack : Option Packet) (rc : Int) (library : Library) :
    Option (List Event × ConnectOutcome × Library) :=
  if call.packetType = MsgType.connect then
    if rc ≠ 0 then some ([], .returns socketError, library)
    else
      let library := library.modifyClient call.m fun client =>
        { client with connectState := .waitForConnack }
      (sendConnect call.m call.mqttVersion library).map fun (events, rc, library) =>
        if rc = socketError then (events, .returns socketError, library)
        else
          (events, .waits { call with packetType := MsgType.connack, waiting := .waitfor },
            library)
  else some ([], .returns (if pack.isNone then socketError else rc), library)

def connectStep (choice : Choice) (call : ConnectCall) (library : Library) :
    Option (List Event × ConnectOutcome × Library) :=
  match call.waiting with
  | .done pack rc => resumeConnect call pack rc library
  | waiting =>
      (waitforStep choice call.m call.packetType library waiting).map fun stepped =>
        (stepped.1, .waits { call with waiting := stepped.2.1 }, stepped.2.2)

/-! ## What connecting changes -/

structure Reconnects (m : Nat) (client : Clients) (before after : Library) : Prop
    extends Library.KeepsPublications before after where
  initialized : after.initialized = before.initialized
  handles : after.handles.values = before.handles.values
  clients : after.clients.values = before.clients.values
  created : after.created = before.created
  running : after.running = before.running
  objects : after.objects =
    Function.update before.objects m { before.objects m with c := client }

variable {before middle after : Library} {m : Nat} {client : Clients} {socket : SOCKET}

theorem Reconnects.refl (m : Nat) (library : Library) :
    Reconnects m (library.client m) library library :=
  ⟨⟨rfl, rfl⟩, rfl, rfl, rfl, rfl, rfl, (Function.update_eq_self ..).symm⟩

theorem Reconnects.trans {first : Clients} (one : Reconnects m first before middle)
    (two : Reconnects m client middle after) : Reconnects m client before after where
  toKeepsPublications := one.toKeepsPublications.trans two.toKeepsPublications
  initialized := two.initialized.trans one.initialized
  handles := two.handles.trans one.handles
  clients := two.clients.trans one.clients
  created := two.created.trans one.created
  running := two.running.trans one.running
  objects := by rw [two.objects, one.objects, Function.update_self, Function.update_idem]

theorem Reconnects.keepsMessages (reconnects : Reconnects m client before after)
    (old : m < before.created) (same : client.offline = (before.client m).offline) :
    before.KeepsMessages after :=
  .of_update reconnects.toKeepsPublications reconnects.initialized reconnects.handles
    reconnects.clients reconnects.created reconnects.objects old same

theorem Reconnects.client_self (reconnects : Reconnects m client before after) :
    after.client m = client := by
  rw [Library.client, reconnects.objects, Function.update_self]

theorem Reconnects.connackSem (reconnects : Reconnects m client before after) :
    (after.objects m).connackSem = (before.objects m).connackSem := by
  rw [reconnects.objects, Function.update_self]

theorem Reconnects.objects_of_ne (reconnects : Reconnects m client before after) {other : Nat}
    (different : other ≠ m) : after.objects other = before.objects other := by
  rw [reconnects.objects, Function.update_of_ne different]

theorem modifyClient_reconnects (change : Clients → Clients) (m : Nat) (library : Library) :
    Reconnects m (change (library.client m)) library (library.modifyClient m change) :=
  ⟨⟨rfl, rfl⟩, rfl, rfl, rfl, rfl, rfl, rfl⟩

theorem applyOptions_eq {options : ConnectOptions} {client changed : Clients}
    (applied : applyOptions options client = some changed) :
    ∃ mqttVersion username password passwordlen,
      changed = client.withConnection mqttVersion username password passwordlen
        client.connectState client.socket := by
  rcases Option.bind_eq_some_iff.mp applied with ⟨username, _, rest⟩
  rcases Option.bind_eq_some_iff.mp rest with ⟨password, _, same⟩
  cases same
  exact ⟨_, _, _, _, rfl⟩

def Sends (m : Nat) (mqttVersion : Int) (client : Clients) (events : List Event) : Prop :=
  ∀ event ∈ events, ∃ body, event = .connectSent m body ∧
    MQTTPacket.connectBody client mqttVersion = some body

theorem sendConnect_spec {mqttVersion rc : Int} {events : List Event}
    (sent : sendConnect m mqttVersion before = some (events, rc, after)) :
    Sends m mqttVersion (before.client m) events ∧
      Reconnects m (before.client m) before after ∧ after.descriptors = before.descriptors := by
  rcases Option.bind_eq_some_iff.mp sent with ⟨block, filled, sent⟩
  rcases Option.map_eq_some_iff.mp sent with ⟨result, _, same⟩
  cases same
  refine ⟨fun event here => ?_,
    ⟨⟨rfl, rfl⟩, rfl, rfl, rfl, rfl, rfl, (Function.update_eq_self ..).symm⟩, rfl⟩
  rcases List.mem_map.mp here with ⟨body, written, rfl⟩
  rw [Option.mem_toList] at written
  subst written
  exact ⟨body, rfl, MQTTPacket.connectBlock_eq_some filled⟩

def ConnectCall.Waits (call : ConnectCall) (connectState : ConnectState) : Prop :=
  call.packetType = MsgType.connect ∨
    call.packetType = MsgType.connack ∧ connectState = .waitForConnack

def ConnectCall.Begins (call : ConnectCall) (connectState : ConnectState) : Prop :=
  call.packetType = MsgType.connect ∧ connectState = .tcpInProgress ∨
    call.packetType = MsgType.connack ∧ connectState = .waitForConnack

/-- How the first step of a call ends: with an error, or in front of `MQTTClient_waitfor`. -/
def ConnectOutcome.First (m : Nat) (mqttVersion : Int) (client : Clients) :
    ConnectOutcome → Prop
  | .returns rc => rc = socketError
  | .waits call => call.m = m ∧ call.mqttVersion = mqttVersion ∧ call.waiting = .waitfor ∧
      call.Begins client.connectState

theorem afterProtocolConnect_first (m : Nat) (mqttVersion rc : Int) (client : Clients) :
    (afterProtocolConnect m mqttVersion rc client).First m mqttVersion client := by
  unfold afterProtocolConnect
  split
  · rfl
  · split
    · rfl
    · rename_i inProgress
      exact ⟨rfl, rfl, rfl, .inl ⟨rfl, inProgress⟩⟩
    · rename_i waits
      exact ⟨rfl, rfl, rfl, .inr ⟨rfl, waits⟩⟩

theorem notInProgress_of_returns {m : Nat} {mqttVersion rc result : Int} {client : Clients}
    (returns : afterProtocolConnect m mqttVersion rc client = .returns result)
    (failed : rc = socketError → client.connectState = .notInProgress) :
    client.connectState = .notInProgress := by
  unfold afterProtocolConnect at returns
  split at returns
  · rename_i error
    exact failed error
  · split at returns
    · rename_i idle
      exact idle
    · cases returns
    · cases returns

inductive Begun (m : Nat) (options : ConnectOptions) (before : Library) :
    List Event × Bool × ConnectOutcome × Library → Prop
  | gaveUp {client : Clients} {starts : Bool} {after : Library}
      (applied : applyOptions options (before.client m) = some client)
      (reconnects : Reconnects m client before after)
      (descriptors : after.descriptors = before.descriptors) :
      Begun m options before ([], starts, .returns socketError, after)
  | unopened {client : Clients} {starts : Bool} {outcome : ConnectOutcome} {after : Library}
      (applied : applyOptions options (before.client m) = some client)
      (reconnects : Reconnects m (client.withTcp client.connectState socketError) before after)
      (descriptors : after.descriptors = before.descriptors)
      (first : outcome.First m options.mqttVersion (after.client m)) :
      Begun m options before ([], starts, outcome, after)
  | opened {client : Clients} {connectState : ConnectState} {sock : SOCKET}
      {sends : List Event} {starts : Bool} {outcome : ConnectOutcome} {after : Library}
      (applied : applyOptions options (before.client m) = some client)
      (fresh : 0 ≤ sock ∧ sock ∉ before.descriptors)
      (sent : Sends m options.mqttVersion client sends)
      (reconnects : Reconnects m (client.withTcp connectState sock) before after)
      (descriptors : after.descriptors = sock :: before.descriptors)
      (first : outcome.First m options.mqttVersion (after.client m))
      (settles : ∀ rc, outcome = .returns rc → connectState = .notInProgress) :
      Begun m options before (.opened sock :: sends, starts, outcome, after)

theorem socketNew_spec {newSocket : NewSocket} {rc : Int} {sock : SOCKET}
    (fresh : newSocket.Fresh before)
    (created : socketNew newSocket before = some (rc, sock, after)) :
    Reconnects m (before.client m) before after ∧
      ((rc ≠ eInProgress ∧ rc ≠ 0 ∧ sock = socketError ∧
          after.descriptors = before.descriptors) ∨
        ((0 ≤ sock ∧ sock ∉ before.descriptors) ∧ (rc = eInProgress ∨ rc = 0) ∧
          after.descriptors = sock :: before.descriptors)) := by
  cases newSocket with
  | failed error other opened =>
      cases opened with
      | none =>
          cases created
          exact ⟨.refl m before, .inl ⟨other.2.1, other.1, rfl, rfl⟩⟩
      | some opened =>
          cases created
          exact ⟨⟨⟨rfl, rfl⟩, rfl, rfl, rfl, rfl, rfl, (Function.update_eq_self ..).symm⟩,
            .inl ⟨other.2.1, other.1, rfl, rfl⟩⟩
  | inProgress opened =>
      rcases Option.ite_none_left_eq_some.mp created with ⟨_, same⟩
      cases same
      exact ⟨⟨⟨rfl, rfl⟩, rfl, rfl, rfl, rfl, rfl, (Function.update_eq_self ..).symm⟩,
        .inr ⟨fresh, .inl rfl, rfl⟩⟩
  | connected opened =>
      rcases Option.ite_none_left_eq_some.mp created with ⟨_, same⟩
      cases same
      exact ⟨⟨⟨rfl, rfl⟩, rfl, rfl, rfl, rfl, rfl, (Function.update_eq_self ..).symm⟩,
        .inr ⟨fresh, .inr rfl, rfl⟩⟩

theorem protocolConnect_spec {mqttVersion rc : Int} {newSocket : NewSocket}
    {events : List Event} (fresh : newSocket.Fresh before)
    (connected : protocolConnect m mqttVersion newSocket before = some (events, rc, after)) :
    ∃ connectState sock, Reconnects m ((before.client m).withTcp connectState sock) before after ∧
      ((events = [] ∧ connectState = (before.client m).connectState ∧ sock = socketError ∧
          after.descriptors = before.descriptors) ∨
        ∃ sends, events = .opened sock :: sends ∧ (0 ≤ sock ∧ sock ∉ before.descriptors) ∧
          Sends m mqttVersion (before.client m) sends ∧
          (rc = socketError → connectState = .notInProgress) ∧
          after.descriptors = sock :: before.descriptors) := by
  rcases Option.bind_eq_some_iff.mp connected with ⟨⟨new, sock, library⟩, created, rest⟩
  rcases socketNew_spec (m := m) fresh created with ⟨reconnects, opens⟩
  dsimp only at rest
  have takes := reconnects.trans
    (modifyClient_reconnects (fun client => { client with socket := sock }) m library)
  rw [reconnects.client_self] at takes
  by_cases inProgress : new = eInProgress
  · rw [if_pos inProgress] at rest
    cases rest
    rcases opens with ⟨other, _⟩ | ⟨fresh, _, descriptors⟩
    · exact absurd inProgress other
    · have connects := takes.trans (modifyClient_reconnects
        (fun client => { client with connectState := .tcpInProgress }) m _)
      rw [takes.client_self] at connects
      exact ⟨.tcpInProgress, sock, connects,
        .inr ⟨[], rfl, fresh, List.forall_mem_nil _,
          fun error => absurd (inProgress.symm.trans error) (by decide), descriptors⟩⟩
  · rw [if_neg inProgress] at rest
    by_cases success : new = 0
    · rw [if_pos success] at rest
      rcases Option.map_eq_some_iff.mp rest with ⟨⟨sends, rc, final⟩, sent, same⟩
      cases same
      rcases sendConnect_spec sent with ⟨sends, sent, kept⟩
      rw [takes.client_self] at sends sent
      rcases opens with ⟨_, other, _⟩ | ⟨fresh, _, descriptors⟩
      · exact absurd success other
      · have connects := (takes.trans sent).trans (modifyClient_reconnects
          (fun client => { client with
            connectState := if rc = 0 then .waitForConnack else .notInProgress }) m final)
        rw [sent.client_self] at connects
        have settles (error : rc = socketError) :
            (if rc = 0 then ConnectState.waitForConnack else .notInProgress) = .notInProgress := by
          rw [error]
          rfl
        exact ⟨_, sock, connects, .inr ⟨_, rfl, fresh, sends, settles, kept.trans descriptors⟩⟩
    · rw [if_neg success] at rest
      cases rest
      rcases opens with ⟨_, _, rfl, descriptors⟩ | ⟨_, opened, _⟩
      · exact ⟨_, socketError, takes, .inl ⟨rfl, rfl, rfl, descriptors⟩⟩
      · rcases opened with opened | opened
        · exact absurd opened inProgress
        · exact absurd opened success

theorem beginConnect_spec {options : ConnectOptions} {attempt : Attempt}
    {result : List Event × Bool × ConnectOutcome × Library}
    (began : beginConnect m options attempt before = some result) :
    Begun m options before result := by
  unfold beginConnect at began
  split at began
  · cases began
  · rename_i client applied
    have applies := modifyClient_reconnects (fun _ => client) m before
    dsimp only at began
    split at began
    · cases began
      exact .gaveUp applied applies rfl
    · split at began
      · cases began
        exact .gaveUp applied applies rfl
      · split at began
        · rename_i fresh
          rcases Option.map_eq_some_iff.mp began with ⟨⟨events, rc, after⟩, connected, rfl⟩
          rcases protocolConnect_spec fresh connected with ⟨connectState, sock, connects, opens⟩
          rw [applies.client_self] at connects opens
          have reconnects := applies.trans connects
          rcases opens with ⟨rfl, rfl, rfl, descriptors⟩ |
            ⟨sends, rfl, fresh, sent, settles, descriptors⟩
          · exact .unopened applied reconnects descriptors (afterProtocolConnect_first ..)
          · refine .opened applied fresh sent reconnects descriptors
              (afterProtocolConnect_first ..) fun result returns => ?_
            have client := congrArg Clients.connectState reconnects.client_self
            exact client.symm.trans
              (notInProgress_of_returns returns fun error => client.trans (settles error))
        · cases began

/-- What one step of `MQTTClient_waitfor` does. Only the semaphore that it waits for may
change: a wait for a CONNACK ends well if it was posted, or by an error of the semaphore. -/
inductive Waited (choice : Choice) (m : Nat) (packetType : Nat) (before : Library) :
    Waiting → List Event × Waiting × Library → Prop
  | expired : Waited choice m packetType before .waitfor
      ([], .done none mqttclientFailure, before)
  | waits : Waited choice m packetType before .waitfor ([], .semaphore, before)
  | polls : Waited choice m packetType before .waitfor ([], .polling, before)
  | woken {rc : Int} {connectSem connackSem : Nat} {after : Library}
      (publications : before.KeepsPublications after)
      (sets : before.Sets m ((before.objects m).withWaits (before.client m).connectState
        connectSem connackSem (before.objects m).subackSem (before.objects m).rc
        (before.objects m).pack) after)
      (posted : connackSem ≠ 0 → (before.objects m).connackSem ≠ 0)
      (taken : packetType ≠ MsgType.connect → rc = 0 →
        (before.objects m).connackSem ≠ 0 ∨ choice.semaphore = .otherError) :
      Waited choice m packetType before .semaphore ([], .awake rc, after)
  | read {rc result : Int} (same : packetType ≠ MsgType.connect → result = rc) :
      Waited choice m packetType before (.awake rc)
        ([], .done (before.objects m).pack result, before)
  | selected {sock : SOCKET} {after : Library} (searched : before.Searched after)
      (opened : sock ∈ before.descriptors) :
      Waited choice m packetType before .polling ([], .selected sock, after)
  | cycled {sock : SOCKET} {result : List Event × Option Packet × Int × Library}
      (spec : Cycled sock before result) :
      Waited choice m packetType before (.selected sock)
        (result.1, .polled sock result.2.1 result.2.2.1, result.2.2.2)
  | checked {sock : SOCKET} {pack : Option Packet} {rc : Int} :
      Waited choice m packetType before (.polled sock pack rc)
        ([], checkPolled choice packetType sock pack rc (before.client m), before)

theorem waitSem_spec {choice : Choice} {value left : Nat} {rc : Int}
    (waited : waitSem choice value = some (rc, left)) :
    (left ≠ 0 → value ≠ 0) ∧ (rc = 0 → value ≠ 0 ∨ choice.semaphore = .otherError) := by
  unfold waitSem at waited
  cases answer : choice.semaphore with
  | taken =>
      rw [answer] at waited
      rcases Option.ite_none_left_eq_some.mp waited with ⟨posted, _⟩
      exact ⟨fun _ => posted, fun _ => .inl posted⟩
  | otherError =>
      rw [answer] at waited
      cases waited
      exact ⟨id, fun _ => .inr rfl⟩
  | timedOut =>
      rw [answer] at waited
      cases waited
      exact ⟨id, fun success => absurd success (by decide)⟩
  | untried =>
      rw [answer] at waited
      cases waited
      exact ⟨id, fun success => absurd success (by decide)⟩

theorem waitforStep_spec {choice : Choice} {packetType : Nat} {waiting : Waiting}
    {result : List Event × Waiting × Library}
    (stepped : waitforStep choice m packetType before waiting = some result) :
    Waited choice m packetType before waiting result := by
  cases waiting with
  | waitfor =>
      simp only [waitforStep] at stepped
      split at stepped
      · cases stepped
        exact .expired
      · split at stepped
        · cases stepped
          exact .waits
        · cases stepped
          exact .polls
  | semaphore =>
      simp only [waitforStep] at stepped
      split at stepped
      · rename_i connecting
        rcases Option.map_eq_some_iff.mp stepped with ⟨⟨rc, left⟩, _, rfl⟩
        exact .woken ⟨rfl, rfl⟩ ⟨⟨rfl, rfl, rfl, rfl, rfl, rfl⟩, rfl⟩ id fun other =>
          absurd connecting other
      · rcases Option.map_eq_some_iff.mp stepped with ⟨⟨rc, left⟩, waited, rfl⟩
        have spec := waitSem_spec waited
        exact .woken ⟨rfl, rfl⟩ ⟨⟨rfl, rfl, rfl, rfl, rfl, rfl⟩, rfl⟩ spec.1 fun _ => spec.2
  | awake rc =>
      cases stepped
      exact .read fun other => if_neg fun both => other both.1
  | polling =>
      rcases Option.map_eq_some_iff.mp stepped with ⟨⟨sock, rc, after⟩, ready, rfl⟩
      exact .selected (getReadySocket_spec ready).1 (getReadySocket_spec ready).2
  | selected sock =>
      rcases Option.map_eq_some_iff.mp stepped with ⟨result, cycled, rfl⟩
      exact .cycled (cycleReady_spec cycled)
  | polled sock pack rc =>
      cases stepped
      exact .checked
  | done pack rc => cases stepped

inductive Connecting (choice : Choice) (call : ConnectCall) (before : Library) :
    List Event × ConnectOutcome × Library → Prop
  | waited {waiting : Waiting} {events : List Event} {after : Library}
      (waited : Waited choice call.m call.packetType before call.waiting
        (events, waiting, after)) :
      Connecting choice call before (events, .waits { call with waiting := waiting }, after)
  | sent {sends : List Event} {outcome : ConnectOutcome} {after : Library}
      (phase : call.packetType = MsgType.connect)
      (sent : Sends call.m call.mqttVersion (before.client call.m) sends)
      (reconnects : Reconnects call.m
        ((before.client call.m).withTcp .waitForConnack (before.client call.m).socket)
        before after)
      (descriptors : after.descriptors = before.descriptors)
      (outcome_eq : outcome = .returns socketError ∨
        outcome = .waits { call with packetType := MsgType.connack, waiting := .waitfor }) :
      Connecting choice call before (sends, outcome, after)
  | failed : Connecting choice call before ([], .returns socketError, before)
  | finished {pack : Option Packet} {rc : Int} (phase : call.packetType ≠ MsgType.connect)
      (here : call.waiting = .done pack rc) :
      Connecting choice call before
        ([], .returns (if pack.isNone then socketError else rc), before)

theorem connectStep_spec {choice : Choice} {call : ConnectCall}
    {result : List Event × ConnectOutcome × Library}
    (stepped : connectStep choice call before = some result) :
    Connecting choice call before result := by
  unfold connectStep at stepped
  split at stepped
  · rename_i pack rc here
    unfold resumeConnect at stepped
    by_cases phase : call.packetType = MsgType.connect
    · rw [if_pos phase] at stepped
      by_cases failed : rc ≠ 0
      · rw [if_pos failed] at stepped
        cases stepped
        exact .failed
      · rw [if_neg failed] at stepped
        rcases Option.map_eq_some_iff.mp stepped with ⟨⟨events, rc, after⟩, sending, same⟩
        have waits := modifyClient_reconnects
          (fun client => { client with connectState := .waitForConnack }) call.m before
        rcases sendConnect_spec sending with ⟨sends, sent, descriptors⟩
        rw [waits.client_self] at sends sent
        dsimp only at same
        split at same
        · cases same
          exact .sent phase sends (waits.trans sent) descriptors (.inl rfl)
        · cases same
          exact .sent phase sends (waits.trans sent) descriptors (.inr rfl)
    · rw [if_neg phase] at stepped
      cases stepped
      exact .finished phase here
  · rcases Option.map_eq_some_iff.mp stepped with ⟨⟨events, waiting, after⟩, waited, rfl⟩
    exact .waited (waitforStep_spec waited)

end MqttClient.MQTTClient
