import MqttClient.MQTTPacket.FactoryRuns

/-! # The dispatch of received packets

`MQTTPacket_Factory` selects a parser by the type nibble of the header byte. The table
that it selects from is shorter than the packet types that its checks let through, and
it has no entry for UNSUBACK.
-/

namespace MqttClient.MQTTPacket

open Foundation

variable {β : Type} [Octet β]

/-- The parser that the comments in `new_packets` give a packet type. -/
def parserOf (ptype : Nat) : Option (Int → UInt8 → List UInt8 → Parsed) :=
  if ptype = MsgType.connack then some connack
  else if ptype = MsgType.publish then some publish
  else if ptype = MsgType.suback then some suback
  else if ptype ∈ [MsgType.puback, MsgType.pubrec, MsgType.pubrel, MsgType.pubcomp,
      MsgType.disconnect, MsgType.auth] then some ack
  else none

/-- The checks of `MQTTPacket_Factory` in front of the table. -/
def Rejected (MQTTVersion : Int) (ptype : Nat) : Prop :=
  ptype < MsgType.connect ∨ (MQTTVersion < 5 ∧ ptype ≥ MsgType.disconnect) ∨
    (MQTTVersion ≥ 5 ∧ ptype > MsgType.auth)

instance (MQTTVersion : Int) (ptype : Nat) : Decidable (Rejected MQTTVersion ptype) :=
  inferInstanceAs (Decidable (_ ∨ _))

def FactoryResult.ofParsed : Parsed → FactoryResult
  | .pack pack => .returned tcpsocketComplete (some pack)
  | .null => .returned socketError none
  | .undefined => .undefined

def resultOfEntry (MQTTVersion : Int) (aHeader : UInt8) (data : List UInt8) :
    Option (Int → UInt8 → List UInt8 → Parsed) → FactoryResult
  | none => .returned tcpsocketComplete none
  | some parse => .ofParsed (parse MQTTVersion aHeader data)

/-- A packet is handled as the table means it: its type has an entry, and it goes to the
parser of its type, or is reported as unhandled. -/
structure Dispatched (MQTTVersion : Int) (aHeader : UInt8) (data : List UInt8)
    (result : FactoryResult) : Prop where
  inTable : ¬Rejected MQTTVersion (Header.mk aHeader).type →
    (Header.mk aHeader).type < newPackets.length
  parsed : result =
    if Rejected MQTTVersion (Header.mk aHeader).type then .returned tcpsocketComplete none
    else resultOfEntry MQTTVersion aHeader data (parserOf (Header.mk aHeader).type)

/-- The types that are handled as the table means it: those up to UNSUBSCRIBE, and in the
versions before 5 also those from DISCONNECT on, which are rejected. -/
def Dispatchable (MQTTVersion : Int) (ptype : Nat) : Prop :=
  ptype < 11 ∨ (MQTTVersion < 5 ∧ ptype ≥ MsgType.disconnect)

theorem newPackets_eq_parserOf {ptype : Nat} (small : ptype < 11) :
    newPackets[ptype]? = some (parserOf ptype) := by
  interval_cases ptype <;> rfl

theorem ack_ne_unhandled (MQTTVersion : Int) (aHeader : UInt8) (data : List UInt8) :
    FactoryResult.ofParsed (ack MQTTVersion aHeader data) ≠ .returned tcpsocketComplete none := by
  unfold ack
  dsimp only
  split
  · split
    · exact fun same => absurd (FactoryResult.returned.inj same).1 (by decide)
    · exact fun same => nomatch (FactoryResult.returned.inj same).2
  · exact fun same => nomatch (FactoryResult.returned.inj same).2

theorem dispatch_of_rejected {MQTTVersion : Int} {aHeader : UInt8} {data : List UInt8}
    (rejected : Rejected MQTTVersion (Header.mk aHeader).type) :
    dispatch MQTTVersion aHeader data = .returned tcpsocketComplete none :=
  if_pos rejected

theorem dispatch_of_entry {MQTTVersion : Int} {aHeader : UInt8} {data : List UInt8}
    {entry : Option (Int → UInt8 → List UInt8 → Parsed)}
    (accepted : ¬Rejected MQTTVersion (Header.mk aHeader).type)
    (selected : newPackets[(Header.mk aHeader).type]? = some entry) :
    dispatch MQTTVersion aHeader data = resultOfEntry MQTTVersion aHeader data entry := by
  unfold Rejected at accepted
  rw [dispatch, if_neg accepted, selected]
  cases entry with
  | none => rfl
  | some parse =>
      dsimp only [resultOfEntry]
      cases parse MQTTVersion aHeader data <;> rfl

theorem dispatched_dispatch_iff (MQTTVersion : Int) (aHeader : UInt8) (data : List UInt8) :
    Dispatched MQTTVersion aHeader data (dispatch MQTTVersion aHeader data) ↔
      Dispatchable MQTTVersion (Header.mk aHeader).type := by
  have bound := (Header.mk aHeader).type_lt
  by_cases rejected : Rejected MQTTVersion (Header.mk aHeader).type
  · refine iff_of_true ⟨fun accepted => absurd rejected accepted, ?_⟩ ?_
    · rw [if_pos rejected, dispatch_of_rejected rejected]
    · unfold Rejected at rejected
      unfold Dispatchable
      unfold MsgType.connect MsgType.auth at rejected
      omega
  · by_cases small : (Header.mk aHeader).type < 11
    · have selected := newPackets_eq_parserOf small
      refine iff_of_true ⟨fun _ => ?_, ?_⟩ (.inl small)
      · exact Nat.lt_trans small (by decide)
      · rw [if_neg rejected, dispatch_of_entry rejected selected]
    · refine iff_of_false (fun dispatched => ?_) ?_
      · have inTable : (Header.mk aHeader).type < 13 := dispatched.inTable rejected
        have parsed := dispatched.parsed
        -- the two types between UNSUBSCRIBE and the end of the table
        have here : newPackets[(Header.mk aHeader).type]? = some (some ack) ∧
            parserOf (Header.mk aHeader).type = none := by
          generalize (Header.mk aHeader).type = ptype at *
          interval_cases ptype <;> exact ⟨rfl, rfl⟩
        rw [if_neg rejected, dispatch_of_entry rejected here.1, here.2] at parsed
        exact ack_ne_unhandled MQTTVersion aHeader data parsed
      · unfold Rejected at rejected
        unfold Dispatchable
        omega

/-! ## Calls of the packet reader -/

/-- The header byte and the body that a call of `MQTTPacket_Factory` reads, if it reads a
whole packet. -/
def readPacket (socket : SOCKET) (reads : SocketReads β) : Option (β × List β) :=
  match Socket.getch socket reads with
  | (.error _, _) => none
  | (.ok header, reads) =>
      match decode socket reads with
      | (_, .error _, _) => none
      | (_, .ok remainingLength, reads) =>
          match Socket.getdata socket remainingLength 0 reads with
          | (.buffer block actualLen, _) =>
              if actualLen < remainingLength then none
              else ((block.take actualLen).mapM id).map fun data => (header, data)
          | _ => none

omit [Octet β] in
theorem eq_map_some_of_mapM {block : List (Option β)} {data : List β}
    (stored : block.mapM id = some data) : block = data.map some := by
  induction block generalizing data with
  | nil =>
      cases stored
      rfl
  | cons byte block induction =>
      rw [List.mapM_cons] at stored
      rcases Option.bind_eq_some_iff.mp stored with ⟨first, here, rest⟩
      rcases Option.bind_eq_some_iff.mp rest with ⟨later, below, same⟩
      cases same
      rw [List.map_cons, ← induction below]
      exact congrArg (· :: block) here

theorem factory_of_readPacket {socket : SOCKET} {reads : SocketReads β} {header : β}
    {data : List β} (read : readPacket socket reads = some (header, data)) (MQTTVersion : Int) :
    (factory MQTTVersion socket reads).1.result =
      dispatch MQTTVersion (toUInt8 header) (data.map toUInt8) := by
  unfold readPacket at read
  unfold factory
  generalize Socket.getch socket reads = gotHeader at read ⊢
  rcases gotHeader with ⟨error | c, behindHeader⟩
  · cases read
  · dsimp only at read ⊢
    generalize decode socket behindHeader = decoded at read ⊢
    rcases decoded with ⟨chars, error | remainingLength, behindLength⟩
    · cases read
    · dsimp only at read ⊢
      generalize Socket.getdata socket remainingLength 0 behindLength = gotData at read ⊢
      rcases gotData with ⟨got, behindData⟩
      cases got with
      | buffer block actualLen =>
          dsimp only at read ⊢
          rcases Option.ite_none_left_eq_some.mp read with ⟨whole, rest⟩
          rcases Option.map_eq_some_iff.mp rest with ⟨body, stored, same⟩
          cases same
          rw [if_neg whole, eq_map_some_of_mapM stored, parseBlock, mapM_stored]
      | null => cases read
      | undefined => cases read

/-- A call that reads a whole packet handles it as the table means it exactly if its type
is up to UNSUBSCRIBE or rejected in front of the table. From a state at rest, the call
consumes the bytes of the packet whatever its type, and the next one starts behind
them. -/
theorem dispatched_iff (MQTTVersion : Int) (socket : SOCKET) (reads : SocketReads β) :
    (∀ header data, readPacket socket reads = some (header, data) →
      (Dispatched MQTTVersion (toUInt8 header) (data.map toUInt8)
          (factory MQTTVersion socket reads).1.result ↔
        Dispatchable MQTTVersion (Header.mk (toUInt8 header)).type)) ∧
      ∀ kept bytes left rest, Represents reads kept → AtRest socket reads → socket ≠ 0 →
        framing.read (kept socket) (reads.inbound socket) = (.packet bytes, left, rest) →
        (factory MQTTVersion socket reads).1.result = resultOfBytes MQTTVersion bytes ∧
          Represents (factory MQTTVersion socket reads).2 (Function.update kept socket left) ∧
          (factory MQTTVersion socket reads).2.inbound socket = rest ∧
          AtRest socket (factory MQTTVersion socket reads).2 := by
  constructor
  · intro header data read
    rw [factory_of_readPacket read]
    exact dispatched_dispatch_iff ..
  · intro kept bytes left rest represents atRest positive read
    rcases represents.step atRest positive MQTTVersion with
      ⟨result, after, inbound, _, _, rested⟩
    rw [read] at result after inbound rested
    refine ⟨result, after, ?_, rested (by simp)⟩
    rw [inbound, Function.update_self]

/-- A PUBACK packet, and the start of the next packet behind it. -/
theorem dispatched_iff_puback :
    let reads : SocketReads UInt8 := ⟨.start, fun _ => [.data [0x40, 2, 0, 7, 0x30]]⟩
    Dispatched 4 0x40 [0, 7] (factory 4 3 reads).1.result ∧
      (factory 4 3 reads).2.inbound 3 = [.data [0x30]] := by
  intro reads
  exact ⟨((dispatched_iff 4 3 reads).1 0x40 [0, 7] (by decide)).mpr (.inl (by decide)),
    ((dispatched_iff 4 3 reads).2 (fun _ => []) [0x40, 2, 0, 7] [] [.data [0x30]] (.start _)
      (.start 3 _) (by decide) (by decide +kernel)).2.2.1⟩

/-- A PINGRESP packet, which every broker can send, is read whole by a client of version
3.1.1, and its type selects an entry behind the end of the table. -/
theorem not_dispatched_pingresp :
    let reads : SocketReads UInt8 := ⟨.start, fun _ => [.data [0xd0, 0]]⟩
    readPacket 3 reads = some (0xd0, []) ∧
      (factory 4 3 reads).1.result = .undefined ∧
      ¬Dispatched 4 0xd0 [] (factory 4 3 reads).1.result := by
  intro reads
  refine ⟨by decide, by decide, fun dispatched => ?_⟩
  exact absurd (dispatched.inTable (by decide)) (by decide)

end MqttClient.MQTTPacket
