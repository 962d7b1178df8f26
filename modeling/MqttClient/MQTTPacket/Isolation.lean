import MqttClient.MQTTPacket.FactoryRuns

/-! # Isolation of the connections

All sockets share one default queue. Where every call starts with the queues at
rest, no byte of one connection reaches the parser of another, and the results on
a connection do not depend on the others. An error inside a packet leaves the
default queue owned, and the next call on another socket then mixes the two.
-/

namespace MqttClient.MQTTPacket

open Foundation

abbrev MarkedByte := SOCKET × UInt8

def Marked (inbound : SOCKET → RecvSource MarkedByte) : Prop :=
  ∀ socket, ∀ byte ∈ (inbound socket).bytes, byte.1 = socket

/-- All bytes that `Socket_getch` and `Socket_getdata` return in a call were received
from the socket of the call. -/
def OwnBytes (event : SOCKET × FactoryCall MarkedByte) : Prop :=
  (∀ c ∈ event.2.chars, c.1 = event.1) ∧
    ∀ stored ∈ event.2.data, ∃ byte, stored = some byte ∧ byte.1 = event.1

instance (event : SOCKET × FactoryCall MarkedByte) : Decidable (OwnBytes event) :=
  decidable_of_iff ((∀ c ∈ event.2.chars, c.1 = event.1) ∧
      ∀ stored ∈ event.2.data, stored.any fun byte => byte.1 = event.1) (by
    refine and_congr Iff.rfl (forall_congr' fun stored => imp_congr_right fun _ => ?_)
    cases stored <;> simp)

/-- In a run whose calls all start with the queues at rest, every call returns bytes
of its own socket only; and any other such run that treats the socket alike, whatever
happens on the other sockets, has the same results on it. -/
theorem ownBytes_of_runsAtRest {calls : List (SOCKET × Int)}
    {inbound : SOCKET → RecvSource MarkedByte} (positive : ∀ call ∈ calls, 0 < call.1)
    (marked : Marked inbound) (atRest : RunsAtRest calls ⟨.start, inbound⟩) :
    (∀ event ∈ run calls ⟨.start, inbound⟩, OwnBytes event) ∧
      ∀ socket (others : List (SOCKET × Int)) (elsewhere : SOCKET → RecvSource MarkedByte),
        (∀ call ∈ others, 0 < call.1) → RunsAtRest others ⟨.start, elsewhere⟩ →
        elsewhere socket = inbound socket → versionsOn socket others = versionsOn socket calls →
        resultsOn socket (run others ⟨.start, elsewhere⟩) =
          resultsOn socket (run calls ⟨.start, inbound⟩) := by
  have nonzero {list : List (SOCKET × Int)} (positive : ∀ call ∈ list, 0 < call.1) :
      ∀ call ∈ list, call.1 ≠ 0 :=
    fun call member => Int.ne_of_gt (positive call member)
  constructor
  · refine Represents.forall_bytes_run (fun socket byte => byte.1 = socket) (.start inbound)
      (nonzero positive) atRest ?_
    intro socket byte member
    exact marked socket byte (by simpa using member)
  · intro socket others elsewhere othersPositive othersAtRest same versions
    rw [(Represents.start inbound).resultsOn_run (nonzero positive) atRest,
      (Represents.start elsewhere).resultsOn_run (nonzero othersPositive) othersAtRest,
      versions]
    exact congrArg _ same

/-- Two connections, each of which delivers one packet in two pieces. -/
theorem ownBytes_of_runsAtRest_two :
    let inbound : SOCKET → RecvSource MarkedByte := fun socket =>
      if socket = 3 then [.data [(3, 0x40), (3, 2)], .wouldBlock, .data [(3, 0), (3, 7)]]
      else if socket = 4 then [.data [(4, 0x20)], .wouldBlock, .data [(4, 2), (4, 0), (4, 0)]]
      else []
    ∀ event ∈ run [(3, 4), (4, 4), (3, 4), (4, 4)] ⟨.start, inbound⟩, OwnBytes event := by
  intro inbound
  refine (ownBytes_of_runsAtRest (by decide) ?_ (by decide)).1
  intro socket byte member
  simp only [inbound] at member
  split at member
  · simp_all [RecvEvent.bytes]
    rcases member with rfl | rfl | rfl | rfl <;> rfl
  · split at member
    · simp_all [RecvEvent.bytes]
      rcases member with rfl | rfl | rfl | rfl <;> rfl
    · simp at member

/-- The header byte of a packet on socket 3 is followed by the end of the connection.
The default queue stays owned by socket 3, and the second call on socket 4 is given
that header byte as the first of its own packet. -/
theorem not_ownBytes_after_endOfFile :
    let inbound : SOCKET → RecvSource MarkedByte := fun socket =>
      if socket = 3 then [.data [(3, 0x30)], .endOfFile]
      else if socket = 4 then [.data [(4, 0x20)], .wouldBlock]
      else []
    let calls : List (SOCKET × Int) := [(3, 4), (4, 4), (4, 4)]
    (∀ call ∈ calls, 0 < call.1) ∧ Marked inbound ∧
      ¬∀ event ∈ run calls ⟨.start, inbound⟩, OwnBytes event := by
  intro inbound calls
  refine ⟨by decide, ?_, by decide⟩
  intro socket byte member
  simp only [inbound] at member
  split at member
  · simp_all [RecvEvent.bytes]
  · split at member
    · simp_all [RecvEvent.bytes]
    · simp at member

end MqttClient.MQTTPacket
