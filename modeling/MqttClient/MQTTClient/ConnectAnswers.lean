import MqttClient.MQTTClient.ConnectPackets
import MqttClient.MQTTClient.Connections
import Mathlib.Data.List.Infix

/-! # The answers to a connect call

`MQTTClient_connect` succeeds when it is handed a CONNACK. What the CONNACK says, and to
which attempt it belongs, it does not look at.
-/

namespace MqttClient.MQTTClient

open Foundation LinkedList

/-! ## What a connect call hears -/

/-- What has happened since the last connect call: the socket that it has opened, and the
return codes of the CONNACK packets received on it since. -/
structure Dialogue where
  sock : SOCKET
  answers : List UInt8

def Dialogue.start : Dialogue := ⟨socketError, []⟩

def Dialogue.hear (dialogue : Dialogue) : Event → Dialogue
  | .connectCalled _ _ => start
  | .opened sock => { dialogue with sock := sock }
  | .received _ sock (.connack pack) =>
      if sock = dialogue.sock then { dialogue with answers := dialogue.answers ++ [pack.rc] }
      else dialogue
  | _ => dialogue

def Dialogue.of (events : List Event) : Dialogue := events.foldl hear start

/-- A connect call that succeeds has received a CONNACK that accepts, on its own socket. -/
def TellsTruth (past : List Event) (event : Event) : Prop :=
  ∀ m, event = .connectReturned m mqttclientSuccess → 0 ∈ (Dialogue.of past).answers

def Answered (past : List Event) (event : Event) : Prop :=
  ∀ m, event = .connectReturned m mqttclientSuccess → (Dialogue.of past).answers ≠ []

/-- The first CONNACK that each connect call receives on its socket accepts. -/
def FirstAccepts (events : List Event) : Prop :=
  ∀ past ∈ events.inits, ∀ code ∈ (Dialogue.of past).answers.head?, code = 0

instance (events : List Event) : Decidable (FirstAccepts events) :=
  inferInstanceAs (Decidable (∀ past ∈ events.inits, ∀ code ∈ _, code = 0))

structure Dialogue.Grows (before after : Dialogue) : Prop where
  sock : after.sock = before.sock
  answers : before.answers ≠ [] → after.answers ≠ []

def Event.Goes : Event → Prop
  | .connectCalled _ _ | .opened _ | .connectReturned _ _ => False
  | _ => True

section Dialogue

variable {dialogue : Dialogue} {past events : List Event}

theorem tellsTruth_of_answered (accepts : FirstAccepts events)
    (answered : Machine.Always Answered events) : Machine.Always TellsTruth events := by
  intro earlier event later split m same
  have heard := answered earlier event later split m same
  have front : earlier ∈ events.inits := by
    rw [List.mem_inits, split]
    exact List.prefix_append _ _
  have first := accepts earlier front
  cases answers : (Dialogue.of earlier).answers with
  | nil => exact absurd answers heard
  | cons code more =>
      rw [answers] at first
      rw [first code rfl]
      exact List.mem_cons_self

theorem Dialogue.of_append (past events : List Event) :
    Dialogue.of (past ++ events) = events.foldl hear (of past) :=
  List.foldl_append

theorem Dialogue.hear_grows {event : Event} (goes : event.Goes) :
    dialogue.Grows (dialogue.hear event) := by
  cases event with
  | connectCalled | opened | connectReturned => exact absurd goes id
  | received m sock pack =>
      cases pack with
      | connack pack =>
          rw [hear]
          split
          · exact ⟨rfl, fun _ => List.append_ne_nil_of_right_ne_nil _ (List.cons_ne_nil _ _)⟩
          · exact ⟨rfl, id⟩
      | publish | ack | suback => exact ⟨rfl, id⟩
  | published | reads | puback | deliveryComplete | messageArrived | connectSent =>
      exact ⟨rfl, id⟩

theorem Dialogue.foldl_grows (goes : ∀ event ∈ events, event.Goes) :
    dialogue.Grows (events.foldl hear dialogue) := by
  induction events generalizing dialogue with
  | nil => exact ⟨rfl, id⟩
  | cons event events induction =>
      rw [List.forall_mem_cons] at goes
      have first : dialogue.Grows (dialogue.hear event) := hear_grows goes.1
      have later : (dialogue.hear event).Grows (events.foldl hear (dialogue.hear event)) :=
        induction goes.2
      exact ⟨later.sock.trans first.sock, fun answered => later.answers (first.answers answered)⟩

theorem answered_append (answered : Machine.Always Answered past)
    (unreturned : ∀ m rc, .connectReturned m rc ∉ events) :
    Machine.Always Answered (past ++ events) := by
  refine answered.append fun earlier event later split m same => ?_
  subst same
  refine absurd ?_ (unreturned m mqttclientSuccess)
  rw [split]
  exact List.mem_append_right _ List.mem_cons_self

theorem answered_return (answered : Machine.Always Answered past)
    (unreturned : ∀ m rc, .connectReturned m rc ∉ events) {m : Nat} {rc : Int}
    (success : rc = mqttclientSuccess →
      (events.foldl Dialogue.hear (Dialogue.of past)).answers ≠ []) :
    Machine.Always Answered (past ++ (events ++ [.connectReturned m rc])) := by
  rw [← List.append_assoc]
  have behind := answered_append answered unreturned
  refine behind.append fun earlier event later split client same => ?_
  cases earlier with
  | cons first rest => simp at split
  | nil =>
      rw [List.nil_append, List.cons.injEq] at split
      cases split.1.trans same
      rw [List.append_nil, Dialogue.of_append]
      exact success rfl

end Dialogue

/-! ## What hands a CONNACK on -/

def IsConnack (pack : Option Packet) : Prop :=
  (pack.map fun pack => pack.header.type) = some MsgType.connack

instance (pack : Option Packet) : Decidable (IsConnack pack) :=
  inferInstanceAs (Decidable (_ = _))

/-- The thread is in the callback of a client, and will hand it a CONNACK behind it. -/
def LoopState.Delivers (m : Nat) : LoopState → Prop
  | .callback client _ pack => client = m ∧ IsConnack pack
  | _ => False

instance (m : Nat) : (loop : LoopState) → Decidable (loop.Delivers m)
  | .callback _ _ _ => inferInstanceAs (Decidable (_ ∧ _))
  | .starting | .ready | .selected _ | .cycled _ _ => .isFalse id

/-- The thread will hand a CONNACK to a client, or to the client that has a socket. -/
def LoopState.Carries (m : Nat) (sock : SOCKET) : LoopState → Prop
  | .cycled other pack => other = sock ∧ IsConnack pack
  | .callback client _ pack => client = m ∧ IsConnack pack
  | _ => False

def LoopState.Opened (descriptors : List SOCKET) : LoopState → Prop
  | .selected sock | .cycled sock _ => sock ∈ descriptors
  | _ => True

def Waiting.Tells (packetType : Nat) (sock : SOCKET) : Waiting → Prop
  | .awake rc => packetType ≠ MsgType.connect ∧ rc = 0
  | .polled other pack _ => other = sock ∧ IsConnack pack
  | .done pack rc => packetType ≠ MsgType.connect ∧ pack ≠ none ∧ rc = 0
  | _ => False

/-- A connect call begins while no CONNACK of an earlier attempt is on its way to its client,
and its wait for a CONNACK does not end by an error of the semaphore. -/
def Unmisled (action : Action) (before : System) : Prop :=
  match action with
  | .connect m _ _ => (before.library.objects m).connackSem = 0 ∧
      ∀ loop ∈ before.loops, ¬loop.Delivers m
  | .connectStep choice =>
      match before.connecting with
      | some ⟨_, _, packetType, .semaphore⟩ =>
          packetType = MsgType.connack → choice.semaphore ≠ .otherError
      | _ => True
  | _ => True

instance (action : Action) (before : System) : Decidable (Unmisled action before) :=
  match action with
  | .connect _ _ _ => inferInstanceAs (Decidable (_ ∧ ∀ loop ∈ before.loops, _))
  | .connectStep _ => by
      unfold Unmisled
      dsimp only
      split <;> infer_instance
  | .create _ | .destroy _ | .setCallbacks _ _ _ | .publish _ _ | .subscribe _ _ _
  | .loopStep _ _ => .isTrue trivial

structure Attending (dialogue : Dialogue) (library : Library) (loops : List LoopState)
    (call : ConnectCall) : Prop where
  socket : (library.client call.m).socket = dialogue.sock
  waits : call.Waits (library.client call.m).connectState
  posted : (library.objects call.m).connackSem ≠ 0 → dialogue.answers ≠ []
  carried : ∀ loop ∈ loops, loop.Carries call.m dialogue.sock → dialogue.answers ≠ []
  told : call.waiting.Tells call.packetType dialogue.sock → dialogue.answers ≠ []

structure Link where
  socket : SOCKET
  connectState : ConnectState
  connackSem : Nat

def link (object : MQTTClients) : Link :=
  ⟨object.c.socket, object.c.connectState, object.connackSem⟩

section Steps

variable {before after : Library} {m : Nat} {events : List Event} {dialogue : Dialogue}
  {loops : List LoopState} {call : ConnectCall}

theorem Event.OfCycle.goes {event : Event} (ofCycle : event.OfCycle) : event.Goes := by
  cases event with
  | connectCalled | opened | connectReturned => exact ofCycle
  | _ => trivial

theorem Looped.goes {loop next : LoopState} (looped : Looped before loop (events, next, after)) :
    ∀ event ∈ events, event.Goes := by
  cases looped with
  | cycled spec => exact fun event here => (spec.ofCycle event here).goes
  | answered => exact List.forall_mem_cons.mpr ⟨trivial, List.forall_mem_nil _⟩
  | started | selected | lost | called | posted => exact List.forall_mem_nil _

theorem Sends.goes {mqttVersion : Int} {client : Clients}
    (sends : Sends m mqttVersion client events) : ∀ event ∈ events, event.Goes := by
  intro event here
  rcases sends event here with ⟨body, rfl, _⟩
  trivial

theorem Connecting.goes {choice : Choice} {outcome : ConnectOutcome}
    (connecting : Connecting choice call before (events, outcome, after)) :
    ∀ event ∈ events, event.Goes := by
  cases connecting with
  | waited waited => exact fun event here => (waited.ofCycle event here).goes
  | sent phase sent reconnects descriptors outcome_eq => exact sent.goes
  | failed | finished => exact List.forall_mem_nil _

theorem Begun.unreturned {options : ConnectOptions} {starts : Bool} {outcome : ConnectOutcome}
    (begun : Begun m options before (events, starts, outcome, after)) (client : Nat) (rc : Int) :
    .connectReturned client rc ∉ events := by
  cases begun with
  | gaveUp | unopened => exact List.not_mem_nil
  | opened applied fresh sent reconnects descriptors first =>
      intro here
      rcases List.mem_cons.mp here with same | here
      · cases same
      · exact sent.goes _ here

theorem Cycled.link_eq {sock : SOCKET} {result : List Event × Option Packet × Int × Library}
    (cycled : Cycled sock before result) :
    ∀ m, link (result.2.2.2.objects m) = link (before.objects m) :=
  (cycled.keeps (fun _ _ _ _ => rfl) fun _ _ _ => rfl).1

theorem Cycled.hears {sock rc : Int} {pack : Option Packet}
    (cycled : Cycled sock before (events, pack, rc, after)) (own : sock = dialogue.sock)
    (connack : IsConnack pack) : (events.foldl Dialogue.hear dialogue).answers ≠ [] := by
  cases cycled with
  | returned member owner typed notPublish searched =>
      rename_i m pack
      have type : pack.header.type = MsgType.connack := Option.some.inj connack
      cases pack with
      | connack pack =>
          rw [List.foldl_cons, List.foldl_cons, List.foldl_nil]
          change (if sock = dialogue.sock then _ else dialogue).answers ≠ []
          rw [if_pos own]
          exact List.append_ne_nil_of_right_ne_nil _ (List.cons_ne_nil _ _)
      | publish pack => exact absurd typed notPublish
      | ack pack => exact absurd type typed.1
      | suback pack => exact absurd (typed.symm.trans type) (by decide)
  | nothing | publish | puback => cases connack

theorem Posted.link_eq {pack : Option Packet} (posted : Posted m pack before after) (other : Nat) :
    (after.client other).socket = (before.client other).socket ∧
      ((after.client other).connectState = (before.client other).connectState ∨
        (before.client other).connectState = .tcpInProgress ∧
          (after.client other).connectState = .notInProgress) ∧
      ((after.objects other).connackSem = (before.objects other).connackSem ∨
        other = m ∧ IsConnack pack) := by
  rcases posted.sets with ⟨_, _, _, _, _, _, sets, connectState, connackSem⟩
  by_cases here : other = m
  · subst here
    rw [Library.client, sets.objects, Function.update_self]
    refine ⟨rfl, connectState, connackSem.imp_right ?_⟩
    rintro ⟨packet, rfl, type⟩
    exact ⟨rfl, congrArg some type⟩
  · rw [Library.client, sets.objects, Function.update_of_ne here]
    exact ⟨rfl, .inl rfl, .inl rfl⟩

theorem Attending.of_link {later : Dialogue} {next : List LoopState}
    (attending : Attending dialogue before loops call) (grows : dialogue.Grows later)
    (same : link (after.objects call.m) = link (before.objects call.m))
    (carried : ∀ loop ∈ next, loop.Carries call.m dialogue.sock →
      loop ∈ loops ∨ later.answers ≠ []) :
    Attending later after next call where
  socket := by
    rw [grows.sock, ← attending.socket]
    exact congrArg Link.socket same
  waits := by
    have state : (after.client call.m).connectState = (before.client call.m).connectState :=
      congrArg Link.connectState same
    rw [state]
    exact attending.waits
  posted sem := by
    refine grows.answers (attending.posted fun none => sem ?_)
    exact (congrArg Link.connackSem same).trans none
  carried loop member carries := by
    rw [grows.sock] at carries
    rcases carried loop member carries with old | heard
    · exact grows.answers (attending.carried loop old carries)
    · exact heard
  told tells := by
    rw [grows.sock] at tells
    exact grows.answers (attending.told tells)

theorem Attending.of_posted {pack : Option Packet}
    (attending : Attending dialogue before loops call) (posted : Posted m pack before after)
    (heard : call.m = m → IsConnack pack → dialogue.answers ≠ []) :
    Attending dialogue after loops call := by
  rcases posted.link_eq call.m with ⟨socket, connectState, connackSem⟩
  constructor
  · rw [socket, attending.socket]
  · rcases attending.waits with connect | ⟨connack, waiting⟩
    · exact .inl connect
    · rcases connectState with same | ⟨inProgress, _⟩
      · exact .inr ⟨connack, same.trans waiting⟩
      · rw [inProgress] at waiting
        cases waiting
  · intro sem
    rcases connackSem with same | ⟨self, connack⟩
    · rw [same] at sem
      exact attending.posted sem
    · exact heard self connack
  · exact attending.carried
  · exact attending.told

theorem Looped.attending {loop next : LoopState} (looped : Looped before loop (events, next, after))
    {index : Nat} (member : loop ∈ loops) (attending : Attending dialogue before loops call) :
    Attending (events.foldl Dialogue.hear dialogue) after (loops.set index next) call := by
  have still {library : Library} (same : ∀ m, link (library.objects m) = link (before.objects m))
      (idle : ¬next.Carries call.m dialogue.sock) :
      Attending dialogue library (loops.set index next) call := by
    refine attending.of_link ⟨rfl, id⟩ (same call.m) fun other here carries => ?_
    rcases List.mem_or_eq_of_mem_set here with here | rfl
    · exact .inl here
    · exact absurd carries idle
  cases looped with
  | started same =>
      subst same
      exact still (fun _ => rfl) id
  | selected searched opened => exact still (fun m => by rw [searched.objects]) id
  | lost searched => exact still (fun m => by rw [searched.objects]) id
  | cycled spec =>
      rename_i sock result
      have grows : dialogue.Grows (result.1.foldl Dialogue.hear dialogue) :=
        Dialogue.foldl_grows fun event here => (spec.ofCycle event here).goes
      refine attending.of_link grows (spec.link_eq call.m) fun other here carries => ?_
      rcases List.mem_or_eq_of_mem_set here with here | rfl
      · exact .inl here
      · exact .inr (spec.hears carries.1 carries.2)
  | called client owner head searched =>
      refine attending.of_link ⟨rfl, id⟩ (by rw [searched.objects]) fun other here carries => ?_
      rcases List.mem_or_eq_of_mem_set here with here | rfl
      · exact .inl here
      · -- the thread was at the socket of the client
        rcases carries with ⟨rfl, connack⟩
        exact .inr (attending.carried _ member ⟨owner.symm.trans attending.socket, connack⟩)
  | posted client owner posted =>
      refine (still (fun _ => rfl) id).of_posted posted fun self connack => ?_
      subst self
      exact attending.carried _ member ⟨owner.symm.trans attending.socket, connack⟩
  | answered client publications delivered posted =>
      refine (still (fun m => ?_) id).of_posted posted fun self connack =>
        attending.carried _ member ⟨self.symm, connack⟩
      exact delivered.stable link rfl m

theorem checkPolled_tells {choice : Choice} {packetType : Nat} {sock own rc : Int}
    {pack : Option Packet} {client : Clients} (owner : client.socket = own)
    (waits : packetType = MsgType.connect ∨
      packetType = MsgType.connack ∧ client.connectState = .waitForConnack)
    (tells : (checkPolled choice packetType sock pack rc client).Tells packetType own) :
    sock = own ∧ IsConnack pack := by
  have next (tells : (if choice.expired then Waiting.done none rc else .polling).Tells
      packetType own) : False := by
    split at tells
    · exact tells.2.1 rfl
    · exact tells
  unfold checkPolled at tells
  dsimp only at tells
  by_cases here : sock = client.socket
  · rw [if_pos here] at tells
    by_cases failed : rc = socketError
    · rw [if_pos failed] at tells
      exact absurd (failed.symm.trans tells.2.2) (by decide)
    · rw [if_neg failed] at tells
      by_cases found : (pack.map fun pack => pack.header.type) = some packetType
      · rw [if_pos found] at tells
        rcases waits with connect | ⟨connack, _⟩
        · exact absurd connect tells.1
        · exact ⟨here.trans owner, found.trans (congrArg some connack)⟩
      · rw [if_neg found] at tells
        rcases waits with connect | ⟨_, waiting⟩
        · refine False.elim ?_
          split at tells
          · exact tells.1 connect
          · split at tells
            · split at tells
              · exact tells.1 connect
              · exact next tells
            · exact next tells
          · exact next tells
        · rw [waiting] at tells
          dsimp only at tells
          split at tells
          · split at tells
            · rename_i error nonzero
              exact absurd tells.2.2 nonzero
            · exact (next tells).elim
          · exact (next tells).elim
  · rw [if_neg here] at tells
    exact (next tells).elim

theorem Attending.moved (attending : Attending dialogue before loops call) {waiting : Waiting}
    (told : waiting.Tells call.packetType dialogue.sock → dialogue.answers ≠ []) :
    Attending dialogue before loops { call with waiting := waiting } :=
  ⟨attending.socket, attending.waits, attending.posted, attending.carried, told⟩

theorem Waited.attending {choice : Choice} {next : Waiting}
    (waited : Waited choice call.m call.packetType before call.waiting (events, next, after))
    (attending : Attending dialogue before loops call)
    (unbroken : call.waiting = .semaphore → call.packetType = MsgType.connack →
      choice.semaphore ≠ .otherError) :
    Attending (events.foldl Dialogue.hear dialogue) after loops { call with waiting := next } := by
  rcases call with ⟨m, mqttVersion, packetType, waiting⟩
  cases waited with
  | expired => exact attending.moved fun tells => absurd rfl tells.2.1
  | waits => exact attending.moved False.elim
  | polls => exact attending.moved False.elim
  | woken publications sets posted taken =>
      rename_i rc connectSem connackSem
      have client : after.client m = before.client m := by
        rw [Library.client, sets.objects, Function.update_self]
        rfl
      have sem : (after.objects m).connackSem = connackSem := by
        rw [sets.objects, Function.update_self]
        rfl
      refine ⟨?_, ?_, fun left => ?_, attending.carried, ?_⟩
      · rw [client]
        exact attending.socket
      · rw [client]
        exact attending.waits
      · rw [sem] at left
        exact attending.posted (posted left)
      · rintro ⟨waitsConnack, success⟩
        rcases taken waitsConnack success with left | broken
        · exact attending.posted left
        · rcases attending.waits with connect | ⟨connack, _⟩
          · exact absurd connect waitsConnack
          · exact absurd broken (unbroken rfl connack)
  | read same =>
      refine attending.moved fun tells => attending.told ⟨tells.1, ?_⟩
      rw [← same tells.1]
      exact tells.2.2
  | selected searched opened =>
      have same : link (after.objects m) = link (before.objects m) := by rw [searched.objects]
      have still := attending.of_link ⟨rfl, id⟩ same fun loop member _ => .inl member
      exact still.moved False.elim
  | cycled spec =>
      rename_i sock result
      have grows : dialogue.Grows (result.1.foldl Dialogue.hear dialogue) :=
        Dialogue.foldl_grows fun event here => (spec.ofCycle event here).goes
      have still := attending.of_link grows (spec.link_eq m) fun loop member _ => .inl member
      refine still.moved fun tells => ?_
      rw [grows.sock] at tells
      exact spec.hears tells.1 tells.2
  | checked =>
      refine attending.moved fun tells => attending.told ?_
      exact checkPolled_tells attending.socket attending.waits tells

theorem hear_sends {mqttVersion : Int} {client : Clients}
    (sends : Sends m mqttVersion client events) :
    events.foldl Dialogue.hear dialogue = dialogue := by
  induction events with
  | nil => rfl
  | cons event events induction =>
      rcases sends event List.mem_cons_self with ⟨body, rfl, _⟩
      exact induction fun event here => sends event (List.mem_cons_of_mem _ here)

def Concludes (dialogue : Dialogue) (library : Library) (loops : List LoopState) :
    ConnectOutcome → Prop
  | .waits call => Attending dialogue library loops call
  | .returns rc => rc = mqttclientSuccess → dialogue.answers ≠ []

theorem concludes_failure : Concludes dialogue before loops (.returns socketError) :=
  fun success => absurd success (by decide)

theorem Connecting.concludes {choice : Choice} {outcome : ConnectOutcome}
    (connecting : Connecting choice call before (events, outcome, after))
    (attending : Attending dialogue before loops call)
    (unbroken : call.waiting = .semaphore → call.packetType = MsgType.connack →
      choice.semaphore ≠ .otherError) :
    Concludes (events.foldl Dialogue.hear dialogue) after loops outcome := by
  cases connecting with
  | waited waited => exact waited.attending attending unbroken
  | sent phase sent reconnects descriptors outcome_eq =>
      rcases outcome_eq with rfl | rfl
      · exact concludes_failure
      · rw [hear_sends sent]
        have client := reconnects.client_self
        refine ⟨?_, .inr ⟨rfl, ?_⟩, fun sem => ?_, attending.carried, False.elim⟩
        · exact (congrArg Clients.socket client).trans attending.socket
        · exact congrArg Clients.connectState client
        · exact attending.posted (reconnects.connackSem ▸ sem)
  | failed => exact concludes_failure
  | finished phase here =>
      rename_i pack rc
      intro success
      split at success
      · exact absurd success (by decide)
      · rename_i there
        refine attending.told ?_
        rw [here]
        exact ⟨phase, fun none => there (none ▸ rfl), success⟩

theorem Begun.concludes {options : ConnectOptions} {starts : Bool} {outcome : ConnectOutcome}
    (begun : Begun m options before (events, starts, outcome, after))
    (nonneg : ∀ sock ∈ before.descriptors, 0 ≤ sock)
    (opened : ∀ loop ∈ loops, loop.Opened before.descriptors)
    (unposted : (before.objects m).connackSem = 0)
    (undelivered : ∀ loop ∈ loops, ¬loop.Delivers m) :
    Concludes (events.foldl Dialogue.hear Dialogue.start) after
      (if starts then loops ++ [.starting] else loops) outcome := by
  have first := begun.first
  have concludes {client : Clients} {sock : SOCKET} (reconnects : Reconnects m client before after)
      (socket : client.socket = sock) (unopened : sock ∉ before.descriptors) :
      Concludes ⟨sock, []⟩ after (if starts then loops ++ [.starting] else loops) outcome := by
    have elsewhere : ∀ loop ∈ loops, ¬loop.Carries m sock := by
      intro loop member carries
      have here := opened loop member
      cases loop with
      | cycled other pack => exact unopened (carries.1 ▸ here)
      | callback other qe pack => exact undelivered _ member carries
      | starting | ready | selected => exact carries
    cases outcome with
    | returns rc =>
        intro success
        exact absurd (first.symm.trans success) (by decide)
    | waits call =>
        rcases first with ⟨rfl, _, waiting, waits⟩
        refine ⟨?_, waits.imp_left And.left, fun sem => ?_, fun loop member carries => ?_,
          fun tells => ?_⟩
        · rw [reconnects.client_self, socket]
        · rw [reconnects.connackSem, unposted] at sem
          exact absurd rfl sem
        · have old : loop ∈ loops ∨ loop = .starting := by
            cases starts with
            | false => exact .inl member
            | true => simpa using member
          rcases old with old | rfl
          · exact absurd carries (elsewhere loop old)
          · exact carries.elim
        · rw [waiting] at tells
          exact tells.elim
  cases begun with
  | gaveUp applied reconnects descriptors => exact concludes_failure
  | unopened applied reconnects descriptors =>
      exact concludes reconnects rfl fun member => absurd (nonneg _ member) (by decide)
  | opened applied fresh sent reconnects descriptors =>
      rw [List.foldl_cons, hear_sends sent]
      exact concludes reconnects rfl fresh.2

end Steps

/-! ## Runs -/

structure Truthful (past : List Event) (system : System) : Prop where
  connections : Connections system.library
  opened : ∀ loop ∈ system.loops, loop.Opened system.library.descriptors
  attending : ∀ call, system.connecting = some call →
    Attending (Dialogue.of past) system.library system.loops call
  answered : Machine.Always Answered past

section Run

variable {past events : List Event} {before : System} {action : Action}
  {result : List Event × System}

theorem Stepped.descriptors_subset (stepped : Stepped before action result)
    (wellFormed : before.WellFormed) {sock : SOCKET}
    (opened : sock ∈ before.library.descriptors) : sock ∈ result.2.library.descriptors := by
  rcases stepped.holds stable_socket wellFormed with
    ⟨clientId, _, rfl⟩ | ⟨m, options, attempt, rfl⟩ | holds
  · rwa [(create_spec wellFormed.registered clientId).descriptors]
  · cases stepped with
    | began member idle spec =>
        rw [System.conclude_library]
        cases spec with
        | gaveUp applied reconnects descriptors => rwa [descriptors]
        | unopened applied reconnects descriptors => rwa [descriptors]
        | opened applied fresh sent reconnects descriptors =>
            rw [descriptors]
            exact List.mem_cons_of_mem _ opened
  · rwa [holds.2]

theorem Stepped.opened (stepped : Stepped before action result) (wellFormed : before.WellFormed)
    (opened : ∀ loop ∈ before.loops, loop.Opened before.library.descriptors) :
    ∀ loop ∈ result.2.loops, loop.Opened result.2.library.descriptors := by
  have kept : ∀ loop ∈ before.loops, loop.Opened result.2.library.descriptors := by
    intro loop member
    have here := opened loop member
    cases loop with
    | selected | cycled => exact stepped.descriptors_subset wellFormed here
    | starting | ready | callback => trivial
  cases stepped with
  | created | destroyed | set | published | subscribed => exact kept
  | began member idle spec =>
      rw [System.conclude_library] at kept ⊢
      rw [System.conclude_loops]
      intro loop here
      dsimp only at here
      split at here
      · rcases List.mem_append.mp here with here | here
        · exact kept loop here
        · rw [List.mem_singleton.mp here]
          trivial
      · exact kept loop here
  | connecting here spec =>
      rw [System.conclude_loops]
      exact kept
  | looped found alive spec =>
      intro loop here
      rcases List.mem_or_eq_of_mem_set here with here | rfl
      · exact kept loop here
      · have there := opened _ (List.mem_of_getElem? found)
        cases spec with
        | selected searched open_ => exact searched.descriptors ▸ open_
        | cycled spec => exact (spec.holds stable_socket).2 ▸ there
        | started | lost | called | posted | answered => trivial

theorem Concludes.truthful {m : Nat} {outcome : ConnectOutcome} (system : System)
    (concludes : Concludes (events.foldl Dialogue.hear (Dialogue.of past)) system.library
      system.loops outcome)
    (connections : Connections system.library)
    (opened : ∀ loop ∈ system.loops, loop.Opened system.library.descriptors)
    (answered : Machine.Always Answered past)
    (unreturned : ∀ m rc, .connectReturned m rc ∉ events) :
    Truthful (past ++ (System.conclude m events outcome system).1)
      (System.conclude m events outcome system).2 := by
  cases outcome with
  | waits call =>
      refine ⟨connections, opened, fun other here => ?_, answered_append answered unreturned⟩
      cases here
      rw [System.conclude, Dialogue.of_append]
      exact concludes
  | returns rc =>
      refine ⟨connections, opened, fun other here => ?_,
        answered_return answered unreturned concludes⟩
      cases here

theorem Stepped.truthful (stepped : Stepped before action result) (wellFormed : before.WellFormed)
    (unmisled : Unmisled action before) (truthful : Truthful past before) :
    Truthful (past ++ result.1) result.2 := by
  have connections := stepped.connections wellFormed truthful.connections
  have opened := stepped.opened wellFormed truthful.opened
  -- a step that leaves the connect call and the threads alone
  have quiet {library : Library} (events : List Event) (goes : ∀ event ∈ events, event.Goes)
      (same : ∀ m ∈ before.library.handles.values,
        link (library.objects m) = link (before.library.objects m)) :
      (∀ call, before.connecting = some call → Attending (Dialogue.of (past ++ events)) library
        before.loops call) ∧ Machine.Always Answered (past ++ events) := by
    refine ⟨fun call here => ?_, answered_append truthful.answered fun _ _ => goes _⟩
    rw [Dialogue.of_append]
    exact (truthful.attending call here).of_link (Dialogue.foldl_grows goes)
      (same _ (wellFormed.connecting call here)) fun loop member _ => .inl member
  cases stepped with
  | created =>
      rename_i clientId
      have rest := quiet [] (List.forall_mem_nil _) fun m member => by
        rw [(create_spec wellFormed.registered clientId).objects, Function.update_of_ne
          (Nat.ne_of_lt (wellFormed.registered.old m member))]
      exact ⟨connections, opened, rest.1, rest.2⟩
  | destroyed member idle destroyed =>
      have objects := (destroy_spec wellFormed.registered destroyed).objects
      have rest := quiet [] (List.forall_mem_nil _) fun m _ => congrArg link (congrFun objects m)
      exact ⟨connections, opened, rest.1, rest.2⟩
  | set member publications sets =>
      have rest := quiet [] (List.forall_mem_nil _) fun m _ => sets.stable link rfl m
      exact ⟨connections, opened, rest.1, rest.2⟩
  | published member published =>
      rename_i m call result library
      rcases publish5_sets published with ⟨_, _, sets⟩
      have rest := quiet [.published m call result]
        (List.forall_mem_cons.mpr ⟨trivial, List.forall_mem_nil _⟩)
        fun m _ => sets.stable link rfl m
      exact ⟨connections, opened, rest.1, rest.2⟩
  | subscribed member searched =>
      have rest := quiet [] (List.forall_mem_nil _) fun m _ =>
        congrArg link (congrFun searched.objects m)
      exact ⟨connections, opened, rest.1, rest.2⟩
  | began member idle spec =>
      rename_i m options attempt events starts outcome library
      have unreturned (client : Nat) (rc : Int) :
          Event.connectReturned client rc ∉ Event.connectCalled m options :: events := by
        intro here
        rcases List.mem_cons.mp here with same | here
        · cases same
        · exact spec.unreturned client rc here
      have concludes := spec.concludes truthful.connections.nonneg truthful.opened unmisled.1
        unmisled.2
      rw [System.conclude_library] at connections opened
      rw [System.conclude_loops] at opened
      let system : System :=
        ⟨library, if starts then before.loops ++ [.starting] else before.loops, before.connecting⟩
      exact Concludes.truthful system concludes connections opened truthful.answered unreturned
  | connecting here spec =>
      rename_i choice call events outcome library
      have unbroken : call.waiting = .semaphore → call.packetType = MsgType.connack →
          choice.semaphore ≠ .otherError := by
        intro waiting connack
        rcases call with ⟨m, mqttVersion, packetType, place⟩
        cases waiting
        rw [Unmisled, here] at unmisled
        exact unmisled connack
      have concludes := spec.concludes (truthful.attending call here) unbroken
      rw [System.conclude_library] at connections opened
      rw [System.conclude_loops] at opened
      let system : System := ⟨library, before.loops, before.connecting⟩
      exact Concludes.truthful system concludes connections opened truthful.answered
        fun _ _ => spec.goes _
  | looped found alive spec =>
      refine ⟨connections, opened, fun call here => ?_,
        answered_append truthful.answered fun _ _ => spec.goes _⟩
      rw [Dialogue.of_append]
      exact spec.attending (List.mem_of_getElem? found) (truthful.attending call here)

end Run

theorem Truthful.start (inbound : SOCKET → RecvSource UInt8)
    (outbound : SOCKET → List WritevEvent) : Truthful [] (.start inbound outbound) where
  connections := .start inbound outbound
  opened := List.forall_mem_nil _
  attending _ here := nomatch here
  answered := .nil

/-- In every run in which a connect call begins only while no CONNACK of an earlier attempt is
on its way to its client, no wait for a CONNACK ends by an error of the semaphore, and the
first CONNACK that each call receives on its socket accepts: whenever `MQTTClient_connect`
succeeds, a CONNACK with the return code 0 has been received during the call, on the socket
that the call has opened. -/
theorem connectReturned_tellsTruth {actions : List Action} {events : List Event} {final : System}
    {inbound : SOCKET → RecvSource UInt8} {outbound : SOCKET → List WritevEvent}
    (along : machine.Along Unmisled actions (.start inbound outbound))
    (ran : machine.run actions (.start inbound outbound) = some (events, final))
    (accepts : FirstAccepts events) : Machine.Always TellsTruth events := by
  have truthful := (run_invariant Truthful
    (fun wellFormed truthful unmisled stepped =>
      (step_spec stepped).truthful wellFormed unmisled truthful)
    (System.start_wellFormed inbound outbound) (.start inbound outbound) along ran).1
  exact tellsTruth_of_answered accepts truthful.answered

theorem connectReturned_tellsTruth_connected : ∃ events final,
    connectedClient = some (events, final) ∧
      events.filterMap Event.connectReturn = [(0, mqttclientSuccess)] ∧
      Machine.Always TellsTruth events := by
  have observed : connectedClient.map (fun reached =>
      decide (reached.1.filterMap Event.connectReturn = [(0, mqttclientSuccess)] ∧
        FirstAccepts reached.1)) = some true := by
    decide +kernel
  rcases Option.map_eq_some_iff.mp observed with ⟨⟨events, final⟩, ran, same⟩
  rcases of_decide_eq_true same with ⟨returned, accepts⟩
  exact ⟨events, final, ran, returned,
    connectReturned_tellsTruth (by decide +kernel) ran accepts⟩

def polledClient : List Action :=
  [.create (.ofBlock []), .connect 0 {} ⟨false, false, .connected 3⟩, .connectStep {},
    .connectStep .ready, .connectStep {}, .connectStep {}, .connectStep {}]

/-- The server refuses the connection with the return code 5, and `MQTTClient_connect`
succeeds. -/
theorem not_tellsTruth_refused : ∃ events final,
    machine.run polledClient (.receiving [0x20, 2, 0, 5]) = some (events, final) ∧
      ¬Machine.Always TellsTruth events := by
  have observed : (machine.run polledClient (.receiving [0x20, 2, 0, 5])).map (fun reached =>
      decide ((0, mqttclientSuccess) ∈ reached.1.filterMap Event.connectReturn ∧
        ∀ past ∈ reached.1.inits, 0 ∉ (Dialogue.of past).answers)) = some true := by
    decide +kernel
  rcases Option.map_eq_some_iff.mp observed with ⟨⟨events, final⟩, ran, same⟩
  rcases of_decide_eq_true same with ⟨returned, refused⟩
  refine ⟨events, final, ran, fun truth => ?_⟩
  rcases List.mem_filterMap.mp returned with ⟨event, member, isReturn⟩
  cases event with
  | connectReturned m rc =>
      cases isReturn
      rcases List.append_of_mem member with ⟨earlier, later, split⟩
      refine refused earlier ?_ (truth earlier _ later split 0 rfl)
      rw [List.mem_inits, split]
      exact List.prefix_append _ _
  | _ => cases isReturn

end MqttClient.MQTTClient
