import MqttClient.Foundation.Machine
import MqttClient.MQTTClient.Connect

/-! # The library and its threads

The state of the library with the threads that are inside it: any number of threads in
`MQTTClient_run`, and at most one in `MQTTClient_connect`. Every interleaving of their
steps and of the other calls is a run. `MQTTClient_create`, which takes no mutex, is one step
here, and taken apart in `CreateSteps`.
-/

namespace MqttClient.MQTTClient

open Foundation LinkedList

structure System where
  library : Library
  loops : List LoopState
  connecting : Option ConnectCall

/-- The state of a program that has just started, with the receive and the write scripts
of its sockets. -/
def System.start (inbound : SOCKET → RecvSource UInt8) (outbound : SOCKET → List WritevEvent) :
    System where
  library :=
    { initialized := false
      handles := .zero
      clients := .zero
      created := 0
      objects := fun _ => newClient ⟨[], by decide⟩
      publications := .zero
      pendingWrites := .zero
      running := false
      sockets := .start
      reads := ⟨.start, inbound⟩
      writes := .start outbound
      descriptors := [0, 1, 2] }
  loops := []
  connecting := none

inductive Action
  | create (clientId : CString)
  | destroy (m : Nat)
  | setCallbacks (m : Nat) (ma dc : Bool)
  | publish (m : Nat) (call : PublishCall)
  | subscribe (m : Nat) (topic : CString) (qos : Int)
  | connect (m : Nat) (options : ConnectOptions) (attempt : Attempt)
  | connectStep (choice : Choice)
  | loopStep (index : Nat) (choice : Choice)

namespace System

def call (m : Nat) (system : System) (called : Option (List Event × Library)) :
    Option (List Event × System) :=
  if m ∈ system.library.handles.values then
    called.map fun result => (result.1, { system with library := result.2 })
  else none

def conclude (m : Nat) (events : List Event) (outcome : ConnectOutcome) (system : System) :
    List Event × System :=
  match outcome with
  | .waits call => (events, { system with connecting := some call })
  | .returns rc => (events ++ [.connectReturned m rc], { system with connecting := none })

/-- `MQTTClient_destroy`, which waits for `connect_mutex`. -/
def stepDestroy (m : Nat) (system : System) : Option (List Event × System) :=
  if system.connecting.isNone then
    system.call m ((destroy m system.library).map fun library => ([], library))
  else none

/-- `MQTTClient_connect` to its first wait; the thread that it starts is a new one. -/
def stepConnect (m : Nat) (options : ConnectOptions) (attempt : Attempt) (system : System) :
    Option (List Event × System) :=
  if m ∈ system.library.handles.values ∧ system.connecting.isNone then
    (beginConnect m options attempt system.library).map fun (events, starts, outcome, library) =>
      conclude m (.connectCalled m options :: events) outcome
        { system with
          library := library
          loops := if starts then system.loops ++ [.starting] else system.loops }
  else none

def stepConnecting (choice : Choice) (system : System) : Option (List Event × System) :=
  match system.connecting with
  | none => none
  | some call =>
      (connectStep choice call system.library).map fun (events, outcome, library) =>
        conclude call.m events outcome { system with library := library }

def stepLoop (index : Nat) (choice : Choice) (system : System) : Option (List Event × System) :=
  match system.loops[index]? with
  | none => none
  | some loop =>
      (loopStep choice system.library loop).map fun (events, loop, library) =>
        (events, { system with library := library, loops := system.loops.set index loop })

end System

def step : Action → System → Option (List Event × System)
  | .create clientId, system =>
      some ([], { system with library := create clientId system.library })
  | .destroy m, system => system.stepDestroy m
  | .setCallbacks m ma dc, system =>
      system.call m (some ([], (setCallbacks m ma dc system.library).2))
  | .publish m call, system =>
      system.call m ((publish5 m call system.library).map fun published =>
        ([.published m call published.1], published.2))
  | .subscribe m topic qos, system =>
      system.call m ((subscribe m topic qos system.library).map fun subscribed =>
        ([], subscribed.2))
  | .connect m options attempt, system => system.stepConnect m options attempt
  | .connectStep choice, system => system.stepConnecting choice
  | .loopStep index choice, system => system.stepLoop index choice

def machine : Machine System Action Event := ⟨step⟩

def Choice.ready : Choice where
  read := ⟨1, fun _ => true, fun _ => true⟩
  write := ⟨1, fun _ => true, fun _ => true⟩

/-- A program with one client, whose callbacks are set and which is connecting on
descriptor 3, and with one thread that has started. -/
def oneClient : List Action :=
  [.create ⟨[], by decide⟩, .setCallbacks 0 true true,
    .connect 0 {} ⟨false, false, .connected 3⟩, .loopStep 0 {}]

def oneRound : List Action := [.loopStep 0 .ready, .loopStep 0 {}, .loopStep 0 {}]

def publishOne : Action :=
  .publish 0 ⟨⟨[0x61], by decide⟩, [], 1, 0, ⟨⟨0⟩, [], 0, 0, [], 0, 4, .zero⟩⟩

/-- The start of a program that receives some bytes on descriptor 3, and whose writes all
succeed. -/
def System.receiving (bytes : List UInt8) : System :=
  .start (fun sock => if sock = 3 then [.data bytes] else []) fun _ =>
    List.replicate 8 (.accept 1000)

def Event.connectReturn : Event → Option (Nat × Int)
  | .connectReturned m rc => some (m, rc)
  | _ => none

/-- One client that is connected on descriptor 3: the thread has read the CONNACK, and the
call has returned. -/
def connectedClient : Option (List Event × System) :=
  machine.run (oneClient ++ oneRound ++ List.replicate 4 (.connectStep {}))
    (.receiving [0x20, 2, 0, 0])

end MqttClient.MQTTClient
