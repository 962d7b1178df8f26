import MqttClient.MQTTPacket.FactoryRefinement
import MqttClient.MQTTPacket.Send

/-! # Runs of the packet reader

Calls of `MQTTPacket_Factory` on any sockets, one after another. In a run whose
calls all start with the queues at rest, the results on a socket are those of the
framing reader on the bytes that the socket receives.
-/

namespace MqttClient.MQTTPacket

open Foundation

section Runs

variable {β : Type} [Octet β]

def run : List (SOCKET × Int) → SocketReads β → List (SOCKET × FactoryCall β)
  | [], _ => []
  | (socket, MQTTVersion) :: calls, reads =>
      let first := factory MQTTVersion socket reads
      (socket, first.1) :: run calls first.2

/-- Every call of the run starts with the queues at rest for its socket. -/
def RunsAtRest : List (SOCKET × Int) → SocketReads β → Prop
  | [], _ => True
  | (socket, MQTTVersion) :: calls, reads =>
      AtRest socket reads ∧ RunsAtRest calls (factory MQTTVersion socket reads).2

omit [Octet β] in
theorem atRest_iff {socket : SOCKET} {reads : SocketReads β} :
    AtRest socket reads ↔ reads.defQueue.socket = 0 ∧
      (reads.saved socket).all fun queue => queue.index = 0 := by
  rw [AtRest]
  cases reads.saved socket <;> simp

omit [Octet β] in
instance (socket : SOCKET) (reads : SocketReads β) : Decidable (AtRest socket reads) :=
  decidable_of_iff _ atRest_iff.symm

instance decidableRunsAtRest : (calls : List (SOCKET × Int)) → (reads : SocketReads β) →
    Decidable (RunsAtRest calls reads)
  | [], _ => .isTrue trivial
  | (socket, MQTTVersion) :: calls, reads =>
      have := decidableRunsAtRest calls (factory MQTTVersion socket reads).2
      inferInstanceAs (Decidable (_ ∧ _))

omit [Octet β] in
def resultsOn (socket : SOCKET) (events : List (SOCKET × FactoryCall β)) :
    List FactoryResult :=
  (events.filter fun event => event.1 = socket).map fun event => event.2.result

def versionsOn (socket : SOCKET) (calls : List (SOCKET × Int)) : List Int :=
  (calls.filter fun call => call.1 = socket).map Prod.snd

def framingResults : List Int → List β → RecvSource β → List FactoryResult
  | [], _, _ => []
  | MQTTVersion :: versions, kept, source =>
      let first := framing.read kept source
      resultOfOutcome MQTTVersion first.1 :: framingResults versions first.2.1 first.2.2

variable {calls : List (SOCKET × Int)} {reads : SocketReads β} {kept : SOCKET → List β}

theorem Represents.step {socket : SOCKET} (represents : Represents reads kept)
    (atRest : AtRest socket reads) (positive : socket ≠ 0) (MQTTVersion : Int) :
    let read := framing.read (kept socket) (reads.inbound socket)
    let call := factory MQTTVersion socket reads
    call.1.result = resultOfOutcome MQTTVersion read.1 ∧
      Represents call.2 (Function.update kept socket read.2.1) ∧
      call.2.inbound = Function.update reads.inbound socket read.2.2 ∧
      (∀ c ∈ call.1.chars, c ∈ read.1.bytes ++ read.2.1) ∧
      (∀ stored ∈ call.1.data, ∃ byte ∈ read.1.bytes ++ read.2.1, stored = some byte) ∧
      (read.1 ≠ .failed → AtRest socket call.2) := by
  rcases represents.refines atRest positive MQTTVersion with
    ⟨outcome, left, refines, after, rested⟩
  rcases refines.finishes with ⟨rest, read, touches, _⟩
  simp only [read]
  exact ⟨refines.result, after, touches.inbound, refines.chars, refines.data, rested⟩

theorem Represents.resultsOn_run (represents : Represents reads kept)
    (positive : ∀ call ∈ calls, call.1 ≠ 0) (atRest : RunsAtRest calls reads)
    (socket : SOCKET) :
    resultsOn socket (run calls reads) =
      framingResults (versionsOn socket calls) (kept socket) (reads.inbound socket) := by
  induction calls generalizing reads kept with
  | nil => rfl
  | cons call calls induction =>
      rcases call with ⟨called, MQTTVersion⟩
      rcases represents.step atRest.1 (positive _ (List.mem_cons_self ..)) MQTTVersion with
        ⟨result, after, inbound, _⟩
      have later := induction after
        (fun call member => positive call (List.mem_cons_of_mem _ member)) atRest.2
      rw [inbound] at later
      by_cases same : called = socket
      · subst called
        rw [Function.update_self, Function.update_self] at later
        simp only [run, resultsOn, versionsOn, List.filter_cons, decide_true, if_true,
          List.map_cons, framingResults, result]
        exact congrArg _ later
      · have different : socket ≠ called := fun equal => same equal.symm
        rw [Function.update_of_ne different, Function.update_of_ne different] at later
        simpa only [run, resultsOn, versionsOn, List.filter_cons, same, decide_false,
          Bool.false_eq_true, if_false] using later

theorem Represents.forall_bytes_run (Received : SOCKET → β → Prop)
    (represents : Represents reads kept) (positive : ∀ call ∈ calls, call.1 ≠ 0)
    (atRest : RunsAtRest calls reads)
    (received : ∀ socket, ∀ byte ∈ kept socket ++ (reads.inbound socket).bytes,
      Received socket byte) :
    ∀ event ∈ run calls reads, (∀ c ∈ event.2.chars, Received event.1 c) ∧
      ∀ stored ∈ event.2.data, ∃ byte, stored = some byte ∧ Received event.1 byte := by
  induction calls generalizing reads kept with
  | nil => intro event member; cases member
  | cons call calls induction =>
      rcases call with ⟨called, MQTTVersion⟩
      rcases represents.step atRest.1 (positive _ (List.mem_cons_self ..)) MQTTVersion with
        ⟨_, after, inbound, chars, data, _⟩
      have conserved := framing.read_conserves (kept called) (reads.inbound called)
      have here := received called
      rw [conserved] at here
      intro event member
      rcases List.mem_cons.mp member with rfl | member
      · refine ⟨fun c present => here c (List.mem_append_left _ (chars c present)), ?_⟩
        intro stored present
        rcases data stored present with ⟨byte, inRead, rfl⟩
        exact ⟨byte, rfl, here byte (List.mem_append_left _ inRead)⟩
      · refine induction after
          (fun call member => positive call (List.mem_cons_of_mem _ member)) atRest.2 ?_
          event member
        intro socket byte present
        rw [inbound] at present
        by_cases same : socket = called
        · subst socket
          rw [Function.update_self, Function.update_self] at present
          refine here byte ?_
          rw [List.append_assoc]
          exact List.mem_append_right _ present
        · rw [Function.update_of_ne same, Function.update_of_ne same] at present
          exact received socket byte present

end Runs

/-! ## Packets that were sent

What `MQTTPacket_send` and `MQTTPacket_sends` hand to the socket is one frame of the packet
reader, if the remaining length fits in four digits.
-/

abbrev maxRemainingLength : Nat := 268435455

def sentFrame (header : Header) (body : List UInt8) (small : body.length ≤ maxRemainingLength) :
    Frame UInt8 where
  header := header.byte
  field := encode body.length
  body := body
  scanned := by
    have scanned := VariableByte.scan_encode 3 (Nat.lt_succ_of_le small) []
    rw [List.append_nil] at scanned
    rw [encode_eq]
    exact (congrArg _ (List.map_id _)).trans scanned

theorem factory_frame {reads : SocketReads UInt8} {socket : SOCKET} (frame : Frame UInt8)
    (rest : List UInt8) (MQTTVersion : Int) (positive : 0 < socket)
    (source : reads = ⟨.start, fun _ => RecvSource.putBack (frame.bytes ++ rest) []⟩) :
    let called := factory MQTTVersion socket reads
    called.1.result = frame.result MQTTVersion ∧
      called.2.inbound socket = RecvSource.putBack rest [] ∧ AtRest socket called.2 := by
  subst source
  have represents := Represents.start
    fun _ : SOCKET => RecvSource.putBack (frame.bytes ++ rest) []
  rcases represents.step (.start socket _) (Int.ne_of_gt positive) MQTTVersion with
    ⟨result, _, inbound, _, _, rested⟩
  rw [Framing.read_putBack frame.isFrame rest (List.nil_append _) frame.isFrame.ne_nil]
    at result inbound rested
  refine ⟨?_, ?_, rested (by simp)⟩
  · rw [result]
    exact frame.resultOfBytes MQTTVersion
  · rw [inbound, Function.update_self]

end MqttClient.MQTTPacket
