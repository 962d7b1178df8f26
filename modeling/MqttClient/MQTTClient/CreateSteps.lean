import MqttClient.LinkedList.PartialSearch
import MqttClient.MQTTClient.Steps
import MqttClient.MQTTPacket.SharedReader

/-! # `MQTTClient_create` step by step

`MQTTClient_create` takes no mutex. The other calls and the threads go on between its steps, and
find its client in `handles` before the record is complete.
-/

namespace MqttClient.MQTTClient

open Foundation LinkedList MQTTPacket

/-- Where a call of `MQTTClient_createWithOptions` stands: before its client is in `handles`,
before the client has a `c` that is cleared, before it has the lists of `c` and its semaphores,
and before `c` is in `bstate->clients`. -/
inductive CreateStage
  | allocated
  | listed
  | cleared
  | complete
  deriving DecidableEq

structure CreateCall where
  m : Nat
  stage : CreateStage

/-- The library with its threads, and the calls of `MQTTClient_create` that go on. -/
structure Program where
  system : System
  creating : List CreateCall

/-- `createStep` is the next step of one of these calls. -/
inductive ProgramAction
  | of (action : Action)
  | createStep (index : Nat)

def Program.start (inbound : SOCKET → RecvSource UInt8) (outbound : SOCKET → List WritevEvent) :
    Program :=
  ⟨.start inbound outbound, []⟩

namespace Program

/-- `MQTTClient_createWithOptions` to the record that it allocates. A thread that runs needs the
library, so that beside a thread the test of `library_initialized` changes nothing. -/
def beginCreate (clientId : CString) (program : Program) : Program :=
  let library := program.system.library
  let m := library.created
  let library := if library.initialized then library else initializeLibrary library
  { system :=
      { program.system with
        library :=
          { library with
            created := m + 1
            objects := Function.update library.objects m (newClient clientId) } }
    creating := program.creating ++ [⟨m, .allocated⟩] }

def withLibrary (library : Library) (creating : List CreateCall) (program : Program) : Program where
  system := { program.system with library := library }
  creating := creating

/-- The steps behind it; `none` when `MQTTClient_terminate` has freed what they write to. -/
def continueCreate (index : Nat) (program : Program) : Option Program :=
  program.creating[index]?.bind fun call =>
    let library := program.system.library
    match call.stage with
    | .allocated =>
        if library.initialized then
          some (program.withLibrary { library with handles := library.handles.append call.m }
            (program.creating.set index { call with stage := .listed }))
        else none
    | .listed =>
        if call.m ∈ library.handles.values then
          some (program.withLibrary library
            (program.creating.set index { call with stage := .cleared }))
        else none
    | .cleared =>
        if call.m ∈ library.handles.values then
          some (program.withLibrary library
            (program.creating.set index { call with stage := .complete }))
        else none
    | .complete =>
        if call.m ∈ library.handles.values then
          some (program.withLibrary { library with clients := library.clients.append call.m }
            (program.creating.eraseIdx index))
        else none

/-- `clientSockCompare`, which reads `m->c`. -/
def clientSockCompare (program : Program) (sock : SOCKET) (m : Nat) : Option Bool :=
  if ∃ call ∈ program.creating, call.m = m ∧ call.stage = .listed then none
  else some (decide ((program.system.library.client m).socket = sock))

end Program

/-! ## What a thread comes upon -/

/-- The socket that a thread looks up next, in `MQTTClient_cycle` or behind it. -/
def LoopState.lookup : LoopState → Option SOCKET
  | .selected sock => some sock
  | .cycled sock _ => some sock
  | .starting | .ready | .callback _ _ _ => none

/-- A PUBLISH or PUBACK packet is read for a client, and `bstate->clients` has none with the
socket. -/
def Orphaned (library : Library) (sock : SOCKET) (m : Nat) : Prop :=
  let called := factory (library.client m).mqttVersion (library.client m).socket library.reads
  ∃ pack ∈ called.1.result.packet,
    (pack.header.type = MsgType.publish ∨ pack.header.type = MsgType.puback) ∧
      ∀ other ∈ library.clients.values, (library.client other).socket ≠ sock

def CreateCall.Traps (library : Library) (call : CreateCall) : LoopState → Prop
  | .selected sock => Orphaned library sock call.m
  | .cycled _ _ => call.stage = .cleared
  | .starting | .ready | .callback _ _ _ => False

/-- In its next step a thread reads a pointer of a new client that is still NULL: its search fails,
or finds the client of a call too early. -/
def LoopState.Stumbles (program : Program) (loop : LoopState) : Prop :=
  ∃ sock ∈ loop.lookup,
    ∀ found ∈ program.system.library.handles.findItemPartial (program.clientSockCompare sock),
      ∃ element ∈ found, ∃ call ∈ program.creating,
        call.m = element.value ∧ call.Traps program.system.library loop

/-- In its next step a thread touches what has been freed or is NULL. -/
def LoopState.Faults (program : Program) (loop : LoopState) : Prop :=
  loop.Dangles program.system.library ∨ loop.Stumbles program

section Decidable

instance (library : Library) (sock : SOCKET) (m : Nat) : Decidable (Orphaned library sock m) :=
  inferInstanceAs (Decidable (∃ pack ∈ (_ : Option _), _ ∧ ∀ other ∈ _, _))

instance (library : Library) (call : CreateCall) :
    (loop : LoopState) → Decidable (call.Traps library loop)
  | .selected sock => inferInstanceAs (Decidable (Orphaned library sock call.m))
  | .cycled _ _ => inferInstanceAs (Decidable (_ = _))
  | .starting | .ready | .callback _ _ _ => .isFalse id

instance (program : Program) (loop : LoopState) : Decidable (loop.Stumbles program) :=
  inferInstanceAs (Decidable (∃ sock ∈ (_ : Option _), ∀ found ∈ (_ : Option _),
    ∃ element ∈ (_ : Option _), ∃ call ∈ _, _))

instance (program : Program) (loop : LoopState) : Decidable (loop.Faults program) :=
  inferInstanceAs (Decidable (_ ∨ _))

end Decidable

/-! ## The steps of the program -/

def Action.handle : Action → Option Nat
  | .destroy m | .setCallbacks m _ _ | .publish m _ | .subscribe m _ _ | .connect m _ _ => some m
  | .create _ | .connectStep _ | .loopStep _ _ => none

/-- A call is given a handle that `MQTTClient_create` has not returned yet, or a step touches
what is not there. -/
def Blocked (action : Action) (program : Program) : Prop :=
  (∃ call ∈ program.creating, action.handle = some call.m) ∨
    match action with
    | .loopStep index _ => ∃ loop ∈ program.system.loops[index]?, loop.Faults program
    | .connectStep _ => ∃ call ∈ program.system.connecting, ∃ sock ∈ call.waiting.serves,
        (LoopState.selected sock).Stumbles program
    | _ => False

instance (program : Program) : (action : Action) → Decidable (Blocked action program)
  | .loopStep _ _ => inferInstanceAs (Decidable (_ ∨ ∃ loop ∈ (_ : Option _), _))
  | .connectStep _ =>
      inferInstanceAs (Decidable (_ ∨ ∃ call ∈ (_ : Option _), ∃ sock ∈ (_ : Option _), _))
  | .create _ | .destroy _ | .setCallbacks _ _ _ | .publish _ _ | .subscribe _ _ _ |
    .connect _ _ _ => inferInstanceAs (Decidable (_ ∨ False))

namespace Program

def step : ProgramAction → Program → Option (List Event × Program)
  | .of (.create clientId), program => some ([], program.beginCreate clientId)
  | .of action, program =>
      if Blocked action program then none
      else (MQTTClient.step action program.system).map fun stepped =>
        (stepped.1, { program with system := stepped.2 })
  | .createStep index, program => (program.continueCreate index).map fun after => ([], after)

end Program

def programMachine : Machine Program ProgramAction Event := ⟨Program.step⟩

theorem getElem?_last (creating : List CreateCall) (call : CreateCall) :
    (creating ++ [call])[creating.length]? = some call := by
  rw [List.getElem?_append_right le_rfl, Nat.sub_self, List.getElem?_cons_zero]

theorem set_last (creating : List CreateCall) (call next : CreateCall) :
    (creating ++ [call]).set creating.length next = creating ++ [next] := by
  rw [List.set_append_right _ _ le_rfl, Nat.sub_self, List.set_cons_zero]

theorem eraseIdx_last (creating : List CreateCall) (call : CreateCall) :
    (creating ++ [call]).eraseIdx creating.length = creating := by
  rw [List.eraseIdx_append_of_length_le le_rfl, Nat.sub_self, List.eraseIdx_cons_zero,
    List.append_nil]

/-- Where nothing else happens, the steps of a call make up `MQTTClient_create`. -/
theorem run_create (clientId : CString) (program : Program) :
    programMachine.run
        (.of (.create clientId) :: List.replicate 4 (.createStep program.creating.length)) program =
      some ([], { program with
        system := { program.system with library := create clientId program.system.library } }) := by
  rcases program with ⟨system, creating⟩
  have ready : (if system.library.initialized then system.library
      else initializeLibrary system.library).initialized = true := by
    split
    · assumption
    · rfl
  simp only [Machine.run, programMachine, Program.step, Program.beginCreate, List.replicate, create]
  generalize (if system.library.initialized then system.library
    else initializeLibrary system.library) = library at ready ⊢
  simp only [Program.continueCreate, Program.withLibrary, getElem?_last, set_last, eraseIdx_last,
    Option.bind_some, Option.map_some, ready, if_true, values_append, List.mem_append,
    List.mem_singleton, or_true, List.append_nil]

end MqttClient.MQTTClient
