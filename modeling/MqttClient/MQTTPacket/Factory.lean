import MqttClient.MQTTPacket.Parsers
import MqttClient.Socket.Reads

/-! # `MQTTPacket`: reading a packet

`MQTTPacket_decode` and `MQTTPacket_Factory` on a plain connection, where
`WebSocket_getch` and `WebSocket_getdata` are the functions of `Socket`.
-/

namespace MqttClient

class Octet (β : Type) where
  toUInt8 : β → UInt8

export Octet (toUInt8)

instance : Octet UInt8 := ⟨id⟩

instance {μ : Type} : Octet (μ × UInt8) := ⟨Prod.snd⟩

namespace MQTTPacket

variable {β : Type} [Octet β]

/-- The loop of `MQTTPacket_decode` with `remaining` rounds to go. Returns the
characters read, and the value or the error. -/
def decodeLoop (socket : SOCKET) : (remaining multiplier value : Nat) → SocketReads β →
    List β × Except Int Nat × SocketReads β
  | 0, _, _, reads => ([], .error socketError, reads)
  | remaining + 1, multiplier, value, reads =>
      match Socket.getch socket reads with
      | (.error rc, reads) => ([], .error rc, reads)
      | (.ok c, reads) =>
          let value := value + (toUInt8 c).toNat % 128 * multiplier
          if (toUInt8 c).toNat ≥ 128 then
            let (chars, result) := decodeLoop socket remaining (multiplier * 128) value reads
            (c :: chars, result)
          else ([c], .ok value, reads)

abbrev maxNoOfRemainingLengthBytes : Nat := 4

def decode (socket : SOCKET) (reads : SocketReads β) :
    List β × Except Int Nat × SocketReads β :=
  decodeLoop socket maxNoOfRemainingLengthBytes 1 0 reads

/-- One call of `MQTTPacket_Factory`: what it returns, the characters that
`Socket_getch` returned during it, and the data that `Socket_getdata` returned. -/
structure FactoryCall (β : Type) where
  result : FactoryResult
  chars : List β
  data : List (Option β)

def parseBlock (MQTTVersion : Int) (header : β) (data : List (Option β)) : FactoryResult :=
  match data.mapM fun stored => stored.map toUInt8 with
  | some data => dispatch MQTTVersion (toUInt8 header) data
  | none => .undefined

def factory (MQTTVersion : Int) (socket : SOCKET) (reads : SocketReads β) :
    FactoryCall β × SocketReads β :=
  match Socket.getch socket reads with
  | (.error error, reads) => (⟨.returned error none, [], []⟩, reads)
  | (.ok header, reads) =>
      match decode socket reads with
      | (chars, .error error, reads) => (⟨.returned error none, header :: chars, []⟩, reads)
      | (chars, .ok remainingLength, reads) =>
          match Socket.getdata socket remainingLength 0 reads with
          | (.null, reads) => (⟨.returned socketError none, header :: chars, []⟩, reads)
          | (.undefined, reads) => (⟨.undefined, header :: chars, []⟩, reads)
          | (.buffer block actualLen, reads) =>
              let data := block.take actualLen
              if actualLen < remainingLength then
                (⟨.returned tcpsocketInterrupted none, header :: chars, data⟩, reads)
              else (⟨parseBlock MQTTVersion header data, header :: chars, data⟩, reads)

theorem factory_typed {MQTTVersion error : Int} {socket : SOCKET} {reads : SocketReads β}
    {pack : Packet}
    (returned : (factory MQTTVersion socket reads).1.result = .returned error (some pack)) :
    pack.Typed ∧ error = tcpsocketComplete := by
  unfold factory at returned
  split at returned
  · cases returned
  · split at returned
    · cases returned
    · split at returned
      · cases returned
      · cases returned
      · dsimp only at returned
        split at returned
        · cases returned
        · unfold parseBlock at returned
          split at returned
          · exact dispatch_typed returned
          · cases returned

theorem inbound_decodeLoop {socket other : SOCKET} (different : other ≠ socket)
    (remaining multiplier value : Nat) (reads : SocketReads β) :
    (decodeLoop socket remaining multiplier value reads).2.2.inbound other =
      reads.inbound other := by
  induction remaining generalizing multiplier value reads with
  | zero => rfl
  | succ remaining induction =>
      have first := Socket.inbound_getch reads different
      rw [decodeLoop]
      split
      all_goals
        rename_i called
        rw [called] at first
      · exact first
      · dsimp only
        split
        · exact (induction ..).trans first
        · exact first

theorem inbound_factory {socket other : SOCKET} (different : other ≠ socket)
    (MQTTVersion : Int) (reads : SocketReads β) :
    (factory MQTTVersion socket reads).2.inbound other = reads.inbound other := by
  have first := Socket.inbound_getch reads different
  unfold factory
  split
  all_goals
    rename_i called
    rw [called] at first
  · exact first
  · rename_i header after
    have decoded := inbound_decodeLoop different maxNoOfRemainingLengthBytes 1 0 after
    unfold decode
    split
    all_goals
      rename_i lengthRead
      rw [lengthRead] at decoded
    · exact decoded.trans first
    · rename_i chars remainingLength middle
      have data := Socket.inbound_getdata remainingLength 0 middle different
      split
      all_goals
        rename_i got
        rw [got] at data
      · exact data.trans (decoded.trans first)
      · exact data.trans (decoded.trans first)
      · dsimp only
        split
        · exact data.trans (decoded.trans first)
        · exact data.trans (decoded.trans first)

end MQTTPacket

end MqttClient
