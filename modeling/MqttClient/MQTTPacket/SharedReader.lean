import MqttClient.MQTTPacket.Fragmentation

/-! # Many connections and one reader

All connections read through the same queues. As long as no call fails, every call moves the
stream of its own socket on, and no other.
-/

namespace MqttClient.MQTTPacket

open Foundation

variable {β : Type} [Octet β]

def FactoryResult.packet : FactoryResult → Option Packet
  | .returned _ pack => pack
  | .undefined => none

/-- The packet that `MQTTPacket_Factory` makes of a frame. -/
def Frame.packet (MQTTVersion : Int) (frame : Frame β) : Option Packet :=
  (frame.result MQTTVersion).packet

structure Rested (reads : SocketReads β) (kept : SOCKET → List β) : Prop where
  represents : Represents reads kept
  atRest : ∀ socket, AtRest socket reads

theorem Rested.start (inbound : SOCKET → RecvSource β) :
    Rested ⟨.start, inbound⟩ fun _ => [] :=
  ⟨.start inbound, fun socket => .start socket inbound⟩

section

variable {reads : SocketReads β} {kept : SOCKET → List β} {socket : SOCKET}

inductive Moved (MQTTVersion : Int) (frames : List (Frame β)) (left : List β)
    (source : RecvSource β) : Option Packet → Prop
  | waits (aligned : framing.Aligned (frames.map Frame.bytes) left source) :
      Moved MQTTVersion frames left source none
  | reads {frame : Frame β} {later : List (Frame β)} (first : frames = frame :: later)
      (aligned : framing.Aligned (later.map Frame.bytes) left source) :
      Moved MQTTVersion frames left source (frame.packet MQTTVersion)

theorem Rested.factory (rested : Rested reads kept) (nonzero : socket ≠ 0)
    {frames : List (Frame β)}
    (aligned : framing.Aligned (frames.map Frame.bytes) (kept socket) (reads.inbound socket))
    (MQTTVersion : Int) :
    let call := factory MQTTVersion socket reads
    ∃ left, Rested call.2 (Function.update kept socket left) ∧
      (∀ other, other ≠ socket → call.2.inbound other = reads.inbound other) ∧
      Moved MQTTVersion frames left (call.2.inbound socket) call.1.result.packet := by
  intro call
  rcases rested.represents.refines (rested.atRest socket) nonzero MQTTVersion with
    ⟨outcome, left, refines, represents, atRest⟩
  rcases refines.finishes with ⟨rest, read, touches, _⟩
  have advance := aligned.read
  rw [read] at advance
  have elsewhere (other : SOCKET) (different : other ≠ socket) :
      call.2.inbound other = reads.inbound other := inbound_factory different MQTTVersion reads
  have here : call.2.inbound socket = rest := by
    rw [touches.inbound, Function.update_self]
  have ended (healthy : outcome ≠ .failed) : Rested call.2 (Function.update kept socket left) := by
    have free := atRest healthy
    refine ⟨represents, fun other => ?_⟩
    by_cases same : other = socket
    · rw [same]
      exact free
    · refine ⟨free.1, ?_⟩
      rw [touches.others other same]
      exact (rested.atRest other).2
  cases advance with
  | interrupted aligned _ =>
      refine ⟨left, ended nofun, elsewhere, ?_⟩
      rw [here, refines.result]
      exact .waits aligned
  | @packet bytes later _ head aligned _ =>
      refine ⟨[], ended nofun, elsewhere, ?_⟩
      cases frames with
      | nil => cases head
      | cons frame frames =>
          cases head
          have result : call.1.result.packet = frame.packet MQTTVersion := by
            rw [refines.result]
            exact congrArg FactoryResult.packet (frame.resultOfBytes MQTTVersion)
          rw [here, result]
          exact .reads rfl aligned

theorem Rested.cleanup (rested : Rested reads kept) (nonzero : socket ≠ 0)
    (nothing : kept socket = []) :
    Rested (reads.withBuffer (reads.buffer.cleanup socket)) kept := by
  rcases SocketBuffer.cleanup_spec socket reads.buffer with ⟨saved, default⟩
  have free : reads.defQueue.socket = 0 := (rested.atRest socket).1
  have same : (reads.withBuffer (reads.buffer.cleanup socket)).defQueue = reads.defQueue :=
    default fun owned => nonzero (owned.symm.trans free)
  have present {other : SOCKET} {queue : SocketQueue β}
      (found : (reads.withBuffer (reads.buffer.cleanup socket)).saved other = some queue) :
      reads.saved other = some queue := by
    change (reads.buffer.cleanup socket).saved other = some queue at found
    rw [saved] at found
    by_cases here : other = socket
    · rw [here, Function.update_self] at found
      cases found
    · rwa [Function.update_of_ne here] at found
  refine ⟨⟨?_, fun other queue found => ?_, fun _ other absent => ?_⟩, fun other => ⟨?_, ?_⟩⟩
  · rw [same]
    exact rested.represents.default
  · exact rested.represents.saved other queue (present found)
  · by_cases here : other = socket
    · rw [here, nothing]
    · apply rested.represents.absent free
      change (reads.buffer.cleanup socket).saved other = none at absent
      rwa [saved, Function.update_of_ne here] at absent
  · rw [same]
    exact free
  · intro queue found
    exact (rested.atRest other).2 queue (present found)

end

end MqttClient.MQTTPacket
