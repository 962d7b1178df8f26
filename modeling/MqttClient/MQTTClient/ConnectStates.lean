import MqttClient.MQTTClient.ConnectAnswers
import MqttClient.Socket.Handover

/-! # The state of a connection attempt

What `MQTTClient_connect` leaves in `connect_state` when it returns, which
`MQTTClient_setCallbacks` and the next connect call look at.
-/

namespace MqttClient.MQTTClient

open Foundation LinkedList

/-- No connect call for a client, no connection in progress: callbacks can be set. And a
connect call waits for a CONNACK only on a socket that it has opened. -/
def ConnectStatesReset (past : List Event) (system : System) : Prop :=
  (∀ m ∈ system.library.handles.values, (∀ call, system.connecting = some call → call.m ≠ m) →
    (system.library.client m).connectState = .notInProgress ∧
      ∀ dc, (setCallbacks m true dc system.library).1 = mqttclientSuccess) ∧
  ∀ call, system.connecting = some call → call.packetType = MsgType.connack →
    0 ≤ (Dialogue.of past).sock ∧
      (system.library.client call.m).socket = (Dialogue.of past).sock

def Hands (m : Nat) (mqttVersion : Int) (library : Library) : Prop :=
  MQTTPacket.connectBlock (library.client m) mqttVersion ≠ some none ∧
    Socket.Idle (library.client m).socket library.writes ∧
    ¬Socket.Fails (library.client m).socket library.writes

instance (m : Nat) (mqttVersion : Int) (library : Library) :
    Decidable (Hands m mqttVersion library) :=
  inferInstanceAs (Decidable (_ ∧ _ ∧ _))

/-- If the wait of a call is over, it was for the TCP connection; and the connection is there
and takes the CONNECT packet, or it is no longer in progress. -/
def ConnectCall.Resets (library : Library) (call : ConnectCall) : Prop :=
  match call.waiting with
  | .done _ rc => call.packetType = MsgType.connect ∧
      if rc = 0 then Hands call.m call.mqttVersion library
      else (library.client call.m).connectState ≠ .tcpInProgress
  | _ => True

instance (library : Library) (call : ConnectCall) : Decidable (call.Resets library) := by
  unfold ConnectCall.Resets
  split <;> infer_instance

/-- A connect call that takes a step leaves nothing behind. -/
def Resets (action : Action) (before : System) : Prop :=
  match action with
  | .connectStep _ => ∀ call ∈ before.connecting, call.Resets before.library
  | _ => True

instance (action : Action) (before : System) : Decidable (Resets action before) :=
  match action with
  | .connectStep _ => inferInstanceAs (Decidable (∀ call ∈ before.connecting, _))
  | .create _ | .destroy _ | .setCallbacks _ _ _ | .publish _ _ | .subscribe _ _ _
  | .connect _ _ _ | .loopStep _ _ => .isTrue trivial

def ConnectCall.Phase (call : ConnectCall) (connectState : ConnectState) : Prop :=
  call.packetType = MsgType.connect ∧ connectState ≠ .waitForConnack ∨
    call.packetType = MsgType.connack ∧ connectState = .waitForConnack

def ConnectOutcome.Settled (m : Nat) (connectState : ConnectState) : ConnectOutcome → Prop
  | .waits call => call.m = m ∧ call.Phase connectState
  | .returns _ => connectState = .notInProgress

section Steps

variable {before after : Library} {m : Nat} {events : List Event} {call : ConnectCall}

theorem ConnectCall.Begins.phase {connectState : ConnectState}
    (begins : call.Begins connectState) : call.Phase connectState := by
  rcases begins with ⟨connect, rfl⟩ | begins
  · exact .inl ⟨connect, ConnectState.noConfusion⟩
  · exact .inr begins

/-! ## One step of a connect call -/

theorem sendConnect_error_iff {mqttVersion rc : Int}
    (sent : sendConnect m mqttVersion before = some (events, rc, after)) :
    rc = socketError ↔ ¬Hands m mqttVersion before := by
  rcases Option.bind_eq_some_iff.mp sent with ⟨block, filled, sent⟩
  rcases Option.map_eq_some_iff.mp sent with ⟨⟨result, writes⟩, sending, same⟩
  rcases Option.map_eq_some_iff.mp sending with ⟨again, refilled, handed⟩
  cases filled.symm.trans refilled
  rw [Prod.mk.injEq, Prod.mk.injEq] at same
  rcases same with ⟨_, rfl, _⟩
  cases block with
  | none =>
      cases handed
      exact iff_of_true rfl fun hands => hands.1 filled
  | some body =>
      have blocked : MQTTPacket.connectBlock (before.client m) mqttVersion ≠ some none := by
        rw [filled]
        exact fun same => absurd (Option.some.inj same) (Option.some_ne_none body)
      have outcome := Socket.putdatas_outcome (before.client m).socket
        (MQTTPacket.buf0 (.ofBits MsgType.connect 0 0 0) body.length) ⟨[body], by simp⟩
        before.writes
      change Socket.putdatas _ _ _ _ = _ at handed
      rw [handed] at outcome
      split at outcome
      · rename_i takes
        exact iff_of_false outcome.1 (not_not_intro ⟨blocked, takes⟩)
      · rename_i refuses
        exact iff_of_true outcome.1 fun hands => refuses hands.2

def tcp (object : MQTTClients) : SOCKET × ConnectState := (object.c.socket, object.c.connectState)

theorem tcp_of_link {object other : MQTTClients} (same : link object = link other) :
    tcp object = tcp other :=
  Prod.ext (congrArg Link.socket same) (congrArg Link.connectState same)

theorem Waited.tcp_eq {choice : Choice} {packetType : Nat} {waiting next : Waiting}
    (waited : Waited choice m packetType before waiting (events, next, after)) (other : Nat) :
    tcp (after.objects other) = tcp (before.objects other) := by
  cases waited with
  | woken publications sets => exact sets.stable tcp rfl other
  | selected searched => rw [searched.objects]
  | cycled spec => exact tcp_of_link (spec.link_eq other)
  | expired | waits | polls | read | checked => rfl

theorem Connecting.tcp_of_ne {choice : Choice} {outcome : ConnectOutcome}
    (connecting : Connecting choice call before (events, outcome, after)) {other : Nat}
    (different : other ≠ call.m) : tcp (after.objects other) = tcp (before.objects other) := by
  cases connecting with
  | waited waited => exact waited.tcp_eq other
  | sent phase sent reconnects => rw [reconnects.objects_of_ne different]
  | failed | finished => rfl

theorem resumeConnect_settles {pack : Option Packet} {rc : Int} {outcome : ConnectOutcome}
    (here : call.waiting = .done pack rc)
    (phase : call.Phase (before.client call.m).connectState)
    (resumed : resumeConnect call pack rc before = some (events, outcome, after)) :
    (call.Resets before ∧ outcome.Settled call.m (after.client call.m).connectState) ∨
      ¬call.Resets before ∧ (∃ rc, outcome = .returns rc) ∧
        (after.client call.m).connectState ≠ .notInProgress := by
  rw [ConnectCall.Resets, here]
  dsimp only
  unfold resumeConnect at resumed
  rcases phase with ⟨connect, tcp⟩ | ⟨connack, waits⟩
  · rw [if_pos connect] at resumed
    by_cases success : rc = 0
    · rw [if_neg (not_not_intro success)] at resumed
      rw [if_pos success]
      rcases Option.map_eq_some_iff.mp resumed with ⟨⟨sends, result, final⟩, sent, same⟩
      have waits := modifyClient_reconnects
        (fun client => { client with connectState := .waitForConnack }) call.m before
      have refused := sendConnect_error_iff sent
      have client := (sendConnect_spec sent).2.1.client_self
      -- only the state of the client is another one when the packet is sent
      have hands : Hands call.m call.mqttVersion (before.modifyClient call.m fun client =>
          { client with connectState := .waitForConnack }) ↔
            Hands call.m call.mqttVersion before := by
        unfold Hands
        rw [waits.client_self]
        rfl
      rw [waits.client_self] at client
      rw [hands] at refused
      dsimp only at same
      by_cases error : result = socketError
      · rw [if_pos error] at same
        cases same
        refine .inr ⟨fun resets => refused.mp error resets.2, ⟨_, rfl⟩, ?_⟩
        rw [client]
        exact ConnectState.noConfusion
      · rw [if_neg error] at same
        cases same
        refine .inl ⟨⟨connect, not_not.mp fun fails => error (refused.mpr fails)⟩, rfl,
          .inr ⟨rfl, ?_⟩⟩
        rw [client]
    · rw [if_pos success] at resumed
      rw [if_neg success]
      cases resumed
      cases state : (before.client call.m).connectState with
      | notInProgress => exact .inl ⟨⟨connect, ConnectState.noConfusion⟩, rfl⟩
      | tcpInProgress => exact .inr ⟨fun resets => resets.2 rfl, ⟨_, rfl⟩,
          ConnectState.noConfusion⟩
      | waitForConnack => exact absurd state tcp
  · have other : call.packetType ≠ MsgType.connect := by
      rw [connack]
      decide
    rw [if_neg other] at resumed
    cases resumed
    refine .inr ⟨fun resets => other resets.1, ⟨_, rfl⟩, ?_⟩
    rw [waits]
    exact ConnectState.noConfusion

theorem connectStep_settles {choice : Choice} {outcome : ConnectOutcome}
    (phase : call.Phase (before.client call.m).connectState)
    (stepped : connectStep choice call before = some (events, outcome, after)) :
    (call.Resets before ∧ outcome.Settled call.m (after.client call.m).connectState) ∨
      ¬call.Resets before ∧ (∃ rc, outcome = .returns rc) ∧
        (after.client call.m).connectState ≠ .notInProgress := by
  unfold connectStep at stepped
  split at stepped
  · rename_i pack rc here
    exact resumeConnect_settles here phase stepped
  · rename_i waiting waits
    rcases Option.map_eq_some_iff.mp stepped with ⟨⟨events, next, after⟩, waited, same⟩
    cases same
    have kept := (waitforStep_spec waited).tcp_eq call.m
    have state : (after.client call.m).connectState = (before.client call.m).connectState :=
      congrArg Prod.snd kept
    have resets : call.Resets before := by
      unfold ConnectCall.Resets
      split
      · rename_i pack rc here
        exact absurd here (waits pack rc)
      · trivial
    refine .inl ⟨resets, rfl, ?_⟩
    rw [state]
    exact phase

theorem Begun.settles {options : ConnectOptions} {starts : Bool} {outcome : ConnectOutcome}
    (begun : Begun m options before (events, starts, outcome, after))
    (idle : (before.client m).connectState = .notInProgress) :
    outcome.Settled m (after.client m).connectState ∧
      ∀ call, outcome = .waits call → 0 ≤ (events.foldl Dialogue.hear Dialogue.start).sock ∧
        (after.client m).socket = (events.foldl Dialogue.hear Dialogue.start).sock := by
  have first := begun.first
  cases begun with
  | gaveUp applied reconnects =>
      rcases applyOptions_eq applied with ⟨_, _, _, _, rfl⟩
      refine ⟨?_, fun call same => ConnectOutcome.noConfusion same⟩
      rw [ConnectOutcome.Settled, reconnects.client_self]
      exact idle
  | unopened applied reconnects =>
      rcases applyOptions_eq applied with ⟨_, _, _, _, rfl⟩
      have state : (after.client m).connectState = .notInProgress := by
        rw [reconnects.client_self]
        exact idle
      cases outcome with
      | returns rc => exact ⟨state, fun call same => ConnectOutcome.noConfusion same⟩
      | waits call =>
          rcases first with ⟨_, _, _, ⟨_, inProgress⟩ | ⟨_, waits⟩⟩
          · exact absurd (state.symm.trans inProgress) (by decide)
          · exact absurd (state.symm.trans waits) (by decide)
  | opened applied fresh sent reconnects descriptors first settles =>
      rw [List.foldl_cons, hear_sends sent]
      refine ⟨?_, fun call waits => ⟨fresh.1, ?_⟩⟩
      · cases outcome with
        | returns rc =>
            rw [ConnectOutcome.Settled, reconnects.client_self]
            exact settles rc rfl
        | waits call => exact ⟨first.1, first.2.2.2.phase⟩
      · rw [reconnects.client_self]
        rfl

theorem Begun.objects_of_ne {options : ConnectOptions} {starts : Bool} {outcome : ConnectOutcome}
    (begun : Begun m options before (events, starts, outcome, after)) {other : Nat}
    (different : other ≠ m) : after.objects other = before.objects other := by
  cases begun with
  | gaveUp applied reconnects => exact reconnects.objects_of_ne different
  | unopened applied reconnects => exact reconnects.objects_of_ne different
  | opened applied fresh sent reconnects => exact reconnects.objects_of_ne different

theorem Looped.connectState {loop next : LoopState}
    (looped : Looped before loop (events, next, after)) (other : Nat) :
    (after.client other).socket = (before.client other).socket ∧
      ((after.client other).connectState = (before.client other).connectState ∨
        (before.client other).connectState = .tcpInProgress ∧
          (after.client other).connectState = .notInProgress) := by
  have kept {library : Library} (same : tcp (library.objects other) = tcp (before.objects other)) :
      (library.client other).socket = (before.client other).socket ∧
        (library.client other).connectState = (before.client other).connectState :=
    ⟨congrArg Prod.fst same, congrArg Prod.snd same⟩
  cases looped with
  | started same =>
      subst same
      exact ⟨rfl, .inl rfl⟩
  | selected searched => exact (kept (by rw [searched.objects])).imp_right .inl
  | cycled spec => exact (kept (tcp_of_link (spec.link_eq other))).imp_right .inl
  | lost searched => exact (kept (by rw [searched.objects])).imp_right .inl
  | called member owner head searched => exact (kept (by rw [searched.objects])).imp_right .inl
  | posted member owner posted =>
      rcases posted.link_eq other with ⟨socket, connectState, _⟩
      exact ⟨socket, connectState⟩
  | answered member publications delivered posted =>
      rcases posted.link_eq other with ⟨socket, connectState, _⟩
      have same := kept (delivered.stable tcp rfl other)
      rw [same.1] at socket
      rw [same.2] at connectState
      exact ⟨socket, connectState⟩

end Steps

/-! ## Runs -/

structure Settled (past : List Event) (system : System) : Prop where
  idle : ∀ m, (∀ call, system.connecting = some call → call.m ≠ m) →
    (system.library.client m).connectState = .notInProgress
  phase : ∀ call, system.connecting = some call →
    call.Phase (system.library.client call.m).connectState
  opened : ∀ call, system.connecting = some call → 0 ≤ (Dialogue.of past).sock ∧
    (system.library.client call.m).socket = (Dialogue.of past).sock

section Run

variable {past events : List Event} {before : System} {action : Action}
  {result : List Event × System}

theorem Settled.connectStatesReset (settled : Settled past before) :
    ConnectStatesReset past before := by
  refine ⟨fun m _ free => ⟨settled.idle m free, fun dc => ?_⟩,
    fun call here _ => settled.opened call here⟩
  rw [setCallbacks, if_neg]
  rintro (absent | busy)
  · exact absurd absent (by decide)
  · exact busy (settled.idle m free)

theorem sock_append_goes (goes : ∀ event ∈ events, event.Goes) :
    (Dialogue.of (past ++ events)).sock = (Dialogue.of past).sock := by
  rw [Dialogue.of_append]
  exact (Dialogue.foldl_grows goes).sock

theorem Settled.of_kept {library : Library} {loops : List LoopState}
    (settled : Settled past before) (goes : ∀ event ∈ events, event.Goes)
    (kept : ∀ m, (∀ call, before.connecting = some call → call.m ≠ m) →
      (library.client m).connectState = .notInProgress)
    (called : ∀ call, before.connecting = some call →
      (library.client call.m).socket = (before.library.client call.m).socket ∧
        ((library.client call.m).connectState = (before.library.client call.m).connectState ∨
          (before.library.client call.m).connectState = .tcpInProgress ∧
            (library.client call.m).connectState = .notInProgress)) :
    Settled (past ++ events) ⟨library, loops, before.connecting⟩ := by
  refine ⟨kept, fun call here => ?_, fun call here => ?_⟩
  · rcases (called call here).2 with same | ⟨inProgress, ended⟩
    · rw [same]
      exact settled.phase call here
    · rcases settled.phase call here with ⟨connect, _⟩ | ⟨_, waits⟩
      · rw [ended]
        exact .inl ⟨connect, ConnectState.noConfusion⟩
      · exact absurd (inProgress.symm.trans waits) (by decide)
  · rw [sock_append_goes goes, (called call here).1]
    exact settled.opened call here

theorem Settled.conclude {m : Nat} {outcome : ConnectOutcome} {system : System}
    (settles : outcome.Settled m (system.library.client m).connectState)
    (others : ∀ other, other ≠ m → (system.library.client other).connectState = .notInProgress)
    (opened : ∀ call, outcome = .waits call → 0 ≤ (Dialogue.of (past ++ events)).sock ∧
      (system.library.client m).socket = (Dialogue.of (past ++ events)).sock) :
    Settled (past ++ (System.conclude m events outcome system).1)
      (System.conclude m events outcome system).2 := by
  cases outcome with
  | waits call =>
      rcases settles with ⟨rfl, phase⟩
      refine ⟨fun other free => others other (free call rfl).symm, fun other here => ?_,
        fun other here => ?_⟩
      all_goals cases here
      · exact phase
      · exact opened call rfl
  | returns rc =>
      refine ⟨fun other _ => ?_, fun call here => absurd here (Option.some_ne_none call).symm,
        fun call here => absurd here (Option.some_ne_none call).symm⟩
      by_cases here : other = m
      · rw [here]
        exact settles
      · exact others other here

theorem Settled.idle_of_ne (settled : Settled past before) {call : ConnectCall}
    (here : before.connecting = some call) {m : Nat} (different : m ≠ call.m) :
    (before.library.client m).connectState = .notInProgress := by
  refine settled.idle m fun other there => ?_
  cases here.symm.trans there
  exact different.symm

theorem Settled.connectStep (settled : Settled past before) (wellFormed : before.WellFormed)
    {choice : Choice} (stepped : step (.connectStep choice) before = some result) :
    (Resets (.connectStep choice) before ∧ Settled (past ++ result.1) result.2) ∨
      ¬Resets (.connectStep choice) before ∧ ¬ConnectStatesReset (past ++ result.1) result.2 := by
  rcases connectStep_eq_some stepped with ⟨call, events, outcome, library, here, connected, rfl⟩
  have connecting := connectStep_spec connected
  have resets : Resets (.connectStep choice) before ↔ call.Resets before.library := by
    simp only [Resets, here, Option.mem_some_iff, forall_eq']
  rw [resets]
  rcases connectStep_settles (settled.phase call here) connected with
    ⟨reset, settles⟩ | ⟨left, ⟨rc, rfl⟩, busy⟩
  · refine .inl ⟨reset, Settled.conclude settles (fun other different => ?_) fun next waits => ?_⟩
    · have same := congrArg Prod.snd (connecting.tcp_of_ne different)
      exact same.trans (settled.idle_of_ne here different)
    · rw [sock_append_goes connecting.goes]
      have same : (library.client call.m).socket = (before.library.client call.m).socket :=
        (connecting.holds stable_socket).1 call.m
      dsimp only
      rw [same]
      exact settled.opened call here
  · -- the client of the call is not in a call any more
    have free (other : ConnectCall) (here : none = some other) : other.m ≠ call.m :=
      absurd here (Option.some_ne_none other).symm
    refine .inr ⟨left, fun reset => busy (reset.1 call.m ?_ free).1⟩
    rcases (step_spec stepped).changed wellFormed.numbered with
      ⟨m, library, _, _, _, destroys, _⟩ | changed
    · cases destroys
    · exact changed.handles wellFormed.registered (wellFormed.connecting call here)

theorem Settled.step (settled : Settled past before) (wellFormed : before.WellFormed)
    (resets : Resets action before) (stepped : MQTTClient.step action before = some result) :
    Settled (past ++ result.1) result.2 := by
  -- a step of the application that changes no connection
  have quiet {library : Library} {events : List Event} (goes : ∀ event ∈ events, event.Goes)
      (same : ∀ m, tcp (library.objects m) = tcp (before.library.objects m)) :
      Settled (past ++ events) ⟨library, before.loops, before.connecting⟩ := by
    refine settled.of_kept goes (fun m free => ?_) fun call _ =>
      ⟨congrArg Prod.fst (same call.m), .inl (congrArg Prod.snd (same call.m))⟩
    exact (congrArg Prod.snd (same m)).trans (settled.idle m free)
  have spec := step_spec stepped
  cases spec with
  | created =>
      rename_i clientId
      have creates := create_spec wellFormed.registered clientId
      have other {m : Nat} (different : m ≠ before.library.created) :
          (create clientId before.library).client m = before.library.client m := by
        rw [Library.client, creates.objects, Function.update_of_ne different]
        rfl
      refine settled.of_kept (List.forall_mem_nil _) (fun m free => ?_) fun call here => ?_
      · by_cases new : m = before.library.created
        · rw [new, Library.client, creates.objects, Function.update_self]
          rfl
        · rw [other new]
          exact settled.idle m free
      · have old := wellFormed.registered.old _ (wellFormed.connecting call here)
        rw [other (Nat.ne_of_lt old)]
        exact ⟨rfl, .inl rfl⟩
  | destroyed member idle destroyed =>
      have objects := (destroy_spec wellFormed.registered destroyed).objects
      exact quiet (List.forall_mem_nil _) fun m => congrArg tcp (congrFun objects m)
  | set member publications sets =>
      exact quiet (List.forall_mem_nil _) fun m => sets.stable tcp rfl m
  | published member published =>
      rcases publish5_sets published with ⟨_, _, sets⟩
      exact quiet (List.forall_mem_cons.mpr ⟨trivial, List.forall_mem_nil _⟩)
        fun m => sets.stable tcp rfl m
  | subscribed member searched =>
      exact quiet (List.forall_mem_nil _) fun m => congrArg tcp (congrFun searched.objects m)
  | began member idle begun =>
      have free (m : Nat) : (before.library.client m).connectState = .notInProgress := by
        refine settled.idle m fun call here => ?_
        rw [idle] at here
        cases here
      rcases begun.settles (free _) with ⟨settles, opened⟩
      refine Settled.conclude settles (fun other different => ?_) fun call waits => ?_
      · dsimp only
        rw [Library.client, begun.objects_of_ne different]
        exact free other
      · rw [Dialogue.of_append]
        exact opened call waits
  | connecting here connects =>
      rcases settled.connectStep wellFormed stepped with ⟨_, kept⟩ | ⟨left, _⟩
      · exact kept
      · exact absurd resets left
  | looped found alive loops =>
      refine settled.of_kept loops.goes (fun m free => ?_)
        fun call here => loops.connectState call.m
      rcases (loops.connectState m).2 with same | ended
      · exact same.trans (settled.idle m free)
      · exact ended.2

theorem Settled.broken (settled : Settled past before) (wellFormed : before.WellFormed)
    (leaves : ¬Resets action before) (stepped : MQTTClient.step action before = some result) :
    ¬ConnectStatesReset (past ++ result.1) result.2 := by
  cases action with
  | connectStep choice =>
      rcases settled.connectStep wellFormed stepped with ⟨resets, _⟩ | ⟨_, broken⟩
      · exact absurd resets leaves
      · exact broken
  | create | destroy | setCallbacks | publish | subscribe | connect | loopStep =>
      exact absurd trivial leaves

theorem Settled.start (inbound : SOCKET → RecvSource UInt8)
    (outbound : SOCKET → List WritevEvent) : Settled [] (.start inbound outbound) :=
  ⟨fun _ _ => rfl, fun call here => absurd here (Option.some_ne_none call).symm,
    fun call here => absurd here (Option.some_ne_none call).symm⟩

end Run

/-- In a run, whoever is in no connect call has nothing in progress, and no connect call waits
for a CONNACK on a socket that it has not opened, exactly if no connect call gets so far that it
waits for a CONNACK to the end, none fails to hand over its CONNECT packet once the TCP
connection is there, and none gives up a TCP connection that is still in progress. -/
theorem connectStates_iff {actions : List Action} {events : List Event} {final : System}
    {inbound : SOCKET → RecvSource UInt8} {outbound : SOCKET → List WritevEvent}
    (ran : machine.run actions (.start inbound outbound) = some (events, final)) :
    machine.Along Resets actions (.start inbound outbound) ↔
      machine.Throughout ConnectStatesReset actions (.start inbound outbound) :=
  Machine.along_iff_throughout
    (fun past system => Settled past system ∧ System.WellFormed system)
    (fun _ _ invariant => invariant.1.connectStatesReset)
    (fun _ _ _ _ _ invariant resets stepped =>
      ⟨invariant.1.step invariant.2 resets stepped, (step_spec stepped).wellFormed invariant.2⟩)
    (fun _ _ _ _ _ invariant leaves stepped => invariant.1.broken invariant.2 leaves stepped)
    [] ⟨.start inbound outbound, System.start_wellFormed inbound outbound⟩ ran

def refusedAttempt : Attempt := ⟨false, false, .failed 111 (by decide) none⟩

/-- A connect call whose TCP connection the server refuses, and one on another client that sends its
CONNECT packet when the thread has seen the connection. -/
def refusedThenConnecting : List Action :=
  [.create (.ofBlock []), .create (.ofBlock []), .connect 0 {} refusedAttempt,
    .setCallbacks 1 true true, .connect 1 {} ⟨false, false, .inProgress 4⟩, .loopStep 0 {},
    .connectStep {}] ++ oneRound ++ List.replicate 4 (.connectStep {})

theorem connectStates_iff_refused : ∃ events final,
    machine.run refusedThenConnecting (.receiving []) = some (events, final) ∧
      final.connecting.map ConnectCall.packetType = some MsgType.connack ∧
      machine.Throughout ConnectStatesReset refusedThenConnecting (.receiving []) := by
  have observed : (machine.run refusedThenConnecting (.receiving [])).map (fun reached =>
      reached.2.connecting.map ConnectCall.packetType) = some (some MsgType.connack) := by
    decide +kernel
  rcases Option.map_eq_some_iff.mp observed with ⟨⟨events, final⟩, ran, same⟩
  exact ⟨events, final, ran, same, (connectStates_iff ran).mp (by decide +kernel)⟩

def refusedLater : List Action :=
  oneClient ++ oneRound ++ List.replicate 4 (.connectStep {}) ++ [.connect 0 {} refusedAttempt]

/-- The first call has succeeded. The second one opens no socket, and waits for a CONNACK. -/
theorem not_connectStatesReset_connected : ∃ events final,
    machine.run refusedLater (.receiving [0x20, 2, 0, 0]) = some (events, final) ∧
      ¬machine.Throughout ConnectStatesReset refusedLater (.receiving [0x20, 2, 0, 0]) := by
  have observed : (machine.run refusedLater (.receiving [0x20, 2, 0, 0])).map (fun reached =>
      decide ((reached.2.connecting.map ConnectCall.packetType) = some MsgType.connack ∧
        (Dialogue.of reached.1).sock = socketError)) = some true := by
    decide +kernel
  rcases Option.map_eq_some_iff.mp observed with ⟨⟨events, final⟩, ran, same⟩
  rcases of_decide_eq_true same with ⟨waits, unopened⟩
  rcases Option.map_eq_some_iff.mp waits with ⟨call, here, connack⟩
  refine ⟨events, final, ran, fun throughout => ?_⟩
  have opened := ((throughout refusedLater (List.prefix_refl _) events final ran).2 call here
    connack).1
  dsimp only at unopened
  rw [unopened] at opened
  exact absurd opened (by decide)

end MqttClient.MQTTClient
