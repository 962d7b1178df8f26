import MqttClient.MQTTPacket.Fragmentation
import MqttClient.WebSocket.Reassembly

/-! # The packet reader on a WebSocket

`MQTTPacket_Factory` on a connection with `net->websocket` set reads from the frame in `in_frames`,
and goes back to where the packet starts in it if the packet is not complete.
-/

namespace MqttClient.WebSocket

open Foundation MQTTPacket

/-- `WebSocket_framePos`. `none` is the use of a frame that has been freed. -/
def framePos (state : WebSocketState) : Option Nat :=
  match state.inFrames with
  | none => some 0
  | some .freed => none
  | some (.frame frame) => some frame.pos

/-- `WebSocket_framePosSeekTo`. `none` is the use of a frame that has been freed, or a position
behind the data of the frame. -/
def framePosSeekTo (pos : Nat) (state : WebSocketState) : Option WebSocketState :=
  match state.inFrames with
  | none => some state
  | some .freed => none
  | some (.frame frame) =>
      if inside : pos ≤ frame.data.length then
        some { state with inFrames := some (.frame ⟨frame.data, pos, inside⟩) }
      else none

/-- The loop of `MQTTPacket_decode`. A `WebSocket_getch` that stores no character leaves the last
one in `c`; `none` is the use of `c` without a character. -/
def decodeLoop (socket : SOCKET) : (remaining multiplier value : Nat) → (c : Option UInt8) →
    WebSocketState → Option (Except Int Nat × WebSocketState)
  | 0, _, _, _, state => some (.error socketError, state)
  | remaining + 1, multiplier, value, c, state =>
      (WebSocket.getch socket state).bind fun (rc, stored, state) =>
        if rc ≠ tcpsocketComplete then some (.error rc, state)
        else
          (stored.or c).bind fun c =>
            let value := value + c.toNat % 128 * multiplier
            if c.toNat ≥ 128 then
              decodeLoop socket remaining (multiplier * 128) value (some c) state
            else some (.ok value, state)

def decode (socket : SOCKET) (state : WebSocketState) : Option (Except Int Nat × WebSocketState) :=
  decodeLoop socket maxNoOfRemainingLengthBytes 1 0 none state

/-- The connection, and the static variable `header` of `MQTTPacket_Factory`. -/
structure PacketReader extends WebSocketState where
  header : UInt8

/-- The end of `MQTTPacket_Factory`. -/
def leave (headerWsFramePos : Nat) (header : UInt8) (result : FactoryResult)
    (state : WebSocketState) : Option (FactoryResult × PacketReader) :=
  if result = .returned tcpsocketInterrupted none then
    (framePosSeekTo headerWsFramePos state).map fun state => (result, ⟨state, header⟩)
  else some (result, ⟨state, header⟩)

/-- `MQTTPacket_Factory` from the remaining length on. -/
def readBody (socket : SOCKET) (MQTTVersion : Int) (headerWsFramePos : Nat) (header : UInt8)
    (remainingLength : Nat) (state : WebSocketState) : Option (FactoryResult × PacketReader) :=
  (WebSocket.getdata socket remainingLength state).bind fun (data, state) =>
    if remainingLength ≠ 0 ∧ data = none then
      leave headerWsFramePos header (.returned socketError none) state
    else if (data.getD []).length < remainingLength then
      leave headerWsFramePos header (.returned tcpsocketInterrupted none) state
    else
      leave headerWsFramePos header
        (dispatch MQTTVersion header ((data.getD []).take remainingLength)) state

def packetFactory (socket : SOCKET) (MQTTVersion : Int) (reader : PacketReader) :
    Option (FactoryResult × PacketReader) :=
  (framePos reader.toWebSocketState).bind fun headerWsFramePos =>
    (WebSocket.getch socket reader.toWebSocketState).bind fun (error, c, state) =>
      let header := c.getD reader.header
      if error ≠ tcpsocketComplete then
        leave headerWsFramePos header (.returned error none) state
      else
        (decode socket state).bind fun
          | (.error error, state) => leave headerWsFramePos header (.returned error none) state
          | (.ok remainingLength, state) =>
              readBody socket MQTTVersion headerWsFramePos header remainingLength state

/-! ## The condition on a call -/

/-- Every call of `WebSocket_receiveFrame` in `MQTTPacket_decode` starts in a good state. -/
def decodeGood (socket : SOCKET) (good : WebSocketState → Bool) :
    (remaining : Nat) → WebSocketState → Bool
  | 0, _ => true
  | remaining + 1, state =>
      charGood good state &&
        match WebSocket.getch socket state with
        | some (_, some c, state) =>
            if c.toNat ≥ 128 then decodeGood socket good remaining state else true
        | _ => true

/-- Every call of `WebSocket_receiveFrame` in `MQTTPacket_Factory` starts in a good state. -/
def packetGood (socket : SOCKET) (good : WebSocketState → Bool) (state : WebSocketState) : Bool :=
  charGood good state &&
    match WebSocket.getch socket state with
    | some (_, some _, state) =>
        decodeGood socket good maxNoOfRemainingLengthBytes state &&
          match decode socket state with
          | some (.ok remainingLength, state) =>
              callGood socket good (.getdata remainingLength) state
          | _ => true
    | _ => true

section

variable {socket : SOCKET} {good : WebSocketState → Bool}

theorem decodeGood_of_forall (all : ∀ state, good state = true) (remaining : Nat)
    (state : WebSocketState) : decodeGood socket good remaining state = true := by
  induction remaining generalizing state with
  | zero => rfl
  | succ remaining induction =>
      rw [decodeGood, Bool.and_eq_true]
      refine ⟨charGood_of_forall all state, ?_⟩
      split
      · split
        · exact induction _
        · rfl
      · rfl

theorem packetGood_of_forall (all : ∀ state, good state = true) (state : WebSocketState) :
    packetGood socket good state = true := by
  rw [packetGood, Bool.and_eq_true]
  refine ⟨charGood_of_forall all state, ?_⟩
  split
  · rw [Bool.and_eq_true]
    refine ⟨decodeGood_of_forall all _ _, ?_⟩
    split
    · exact callGood_of_forall all _ _
    · rfl
  · rfl

end

/-! ## Reading without giving up the place -/

def work (socket : SOCKET) (state : WebSocketState) : Nat :=
  state.left socket + stored socket state.reads

/-- `consumed` is what has been read of the queued frame from the position `start` on. -/
def Peeked (start : Nat) (consumed : List UInt8) : Option InFrame → Prop
  | none => start = 0 ∧ consumed = []
  | some .freed => False
  | some (.frame frame) => frame.pos = start + consumed.length ∧
      frame.data.drop start = consumed ++ frame.unread

section

variable {start : Nat} {consumed : List UInt8} {inFrames : Option InFrame}
  {frames : List WebSocketFrame}

theorem Peeked.not_freed (peeked : Peeked start consumed inFrames) : inFrames ≠ some .freed := by
  rintro rfl
  exact peeked

theorem Peeked.extend (peeked : Peeked start consumed inFrames) (more : List UInt8) :
    Peeked start consumed (some (.frame (.extend (queuedFrame inFrames) more))) := by
  cases inFrames with
  | none =>
      rcases peeked with ⟨rfl, rfl⟩
      exact ⟨rfl, rfl⟩
  | some content =>
      cases content with
      | freed => exact peeked.elim
      | frame frame =>
          rcases peeked with ⟨position, ahead⟩
          have inside := frame.pos_le
          refine ⟨position, ?_⟩
          change (frame.data ++ more).drop start =
            consumed ++ (WsFrame.extend (some frame) more).unread
          rw [built_extend, built, List.drop_append_of_le_length (by omega), ahead,
            List.append_assoc]

theorem Peeked.grown (peeked : Peeked start consumed inFrames) {res : Option WsFrame}
    (grown : Grown frames (queuedFrame inFrames) res) : Peeked start consumed (res.map .frame) := by
  rcases grown with rfl | ⟨more, _, rfl⟩
  · cases inFrames with
    | none => exact peeked
    | some content =>
        cases content with
        | freed => exact peeked.elim
        | frame frame => exact peeked
  · exact peeked.extend more

theorem Peeked.read {frame : WsFrame} (peeked : Peeked start consumed (some (.frame frame)))
    (more : frame.pos < frame.data.length) :
    Peeked start (consumed ++ [frame.data[frame.pos]])
      (some (.frame ⟨frame.data, frame.pos + 1, more⟩)) := by
  rcases peeked with ⟨position, ahead⟩
  refine ⟨?_, ?_⟩
  · rw [List.length_append, List.length_singleton, ← Nat.add_assoc]
    exact congrArg (· + 1) position
  · rw [ahead, WsFrame.unread, List.drop_eq_getElem_cons more, List.append_assoc]
    rfl

theorem Ended.unread_le {rc : Int} {after : Option InFrame} (queued : inFrames ≠ some .freed)
    (ended : Ended frames (queuedFrame inFrames) rc after) :
    (unread inFrames).length ≤ (unread after).length := by
  rw [← (built_queuedFrame queued).1]
  have extended (more : List UInt8) : (built (queuedFrame inFrames)).length ≤
      (WsFrame.extend (queuedFrame inFrames) more).unread.length := by
    rw [built_extend, List.length_append]
    exact Nat.le_add_right ..
  cases ended with
  | complete => exact extended _
  | @interrupted res grown =>
      rcases grown with rfl | ⟨more, _, rfl⟩
      · cases queuedFrame inFrames <;> exact le_rfl
      · exact extended more

end

/-- During a call of the packet reader: `done` is the data of the packets before, and `consumed` has
been read of the packet that starts at `start`. -/
structure Within (socket : SOCKET) (frames : List WebSocketFrame) (sent done : List UInt8)
    (start : Nat) (consumed : List UInt8) (state : WebSocketState) : Prop where
  accounts : AccountsFor socket frames sent (done ++ consumed ++ unread state.inFrames) state
  peeked : Peeked start consumed state.inFrames

/-- How a call of `WebSocket_receiveFrame` ends for the packet reader. -/
inductive Fetched (socket : SOCKET) (frames : List WebSocketFrame) (before : WebSocketState) :
    Int → WebSocketState → Prop
  | complete {frame : WsFrame} {after : WebSocketState}
      (queued : after.inFrames = some (.frame frame))
      (more : NoneEmpty frames → frame.unread ≠ [])
      (fewer : after.left socket < before.left socket)
      (less : work socket after < work socket before) :
      Fetched socket frames before tcpsocketComplete after
  | interrupted {after : WebSocketState}
      (progress : before.left socket ≠ 0 → work socket after < work socket before) :
      Fetched socket frames before tcpsocketInterrupted after

/-- How a call of `WebSocket_getch` ends for it. -/
inductive CharRead (socket : SOCKET) (frames : List WebSocketFrame) (sent done : List UInt8)
    (start : Nat) (consumed : List UInt8) (before : WebSocketState) :
    Int × Option UInt8 × WebSocketState → Prop
  | read {c : UInt8} {after : WebSocketState}
      (within : Within socket frames sent done start (consumed ++ [c]) after)
      (less : work socket after ≤ work socket before) :
      CharRead socket frames sent done start consumed before (tcpsocketComplete, some c, after)
  | interrupted {after : WebSocketState}
      (within : Within socket frames sent done start consumed after)
      (progress : work socket after < work socket before ∨ done ++ consumed = dataOf frames) :
      CharRead socket frames sent done start consumed before (tcpsocketInterrupted, none, after)

section

variable {socket : SOCKET} {frames : List WebSocketFrame} {sent done consumed : List UInt8}
  {start : Nat} {state after : WebSocketState} {good : WebSocketState → Bool}

theorem Within.ended (plain : ∀ frame ∈ frames, Plain frame)
    (within : Within socket frames sent done start consumed state) (left : state.left socket = 0) :
    done ++ consumed ++ unread state.inFrames = dataOf frames :=
  (receiveFrame_keeps plain).ended within.accounts left

theorem Within.isPrefix (plain : ∀ frame ∈ frames, Plain frame)
    (within : Within socket frames sent done start consumed state) :
    done ++ consumed <+: dataOf frames :=
  (List.prefix_append ..).trans ((receiveFrame_keeps plain).bounded within.accounts)

theorem Within.receive (plain : ∀ frame ∈ frames, Plain frame)
    (sound : Sound socket frames sent good)
    (within : Within socket frames sent done start consumed state) (goes : good state = true) :
    ∃ rc after, receiveFrame socket state = some (rc, after) ∧
      Within socket frames sent done start consumed after ∧
      Fetched socket frames state rc after := by
  have present := within.peeked.not_freed
  rcases receiveFrame_accounts plain within.accounts present
    (sound _ _ within.accounts goes) with
    ⟨rc, after, received, accounts, kept, complete, _, progress, ended⟩
  have unread := ended.unread_le present
  have works (some_left : state.left socket ≠ 0) : work socket after < work socket state := by
    have less := progress some_left
    rw [remaining, remaining] at less
    rw [work, work]
    omega
  refine ⟨rc, after, received, ?_, ?_⟩
  · refine ⟨accounts, ?_⟩
    generalize after.inFrames = queued at ended
    cases ended with
    | complete => exact within.peeked.extend _
    | interrupted grown => exact within.peeked.grown grown
  · generalize here : after.inFrames = queued at ended complete
    cases ended with
    | @complete more some_data =>
        have fewer := (complete rfl).2
        refine .complete here (fun none => ?_) fewer (works (by omega))
        rw [built_extend]
        exact List.append_ne_nil_of_right_ne_nil _ (some_data none)
    | interrupted => exact .interrupted works

theorem Within.takeChar {frame : WsFrame}
    (within : Within socket frames sent done start consumed state)
    (queued : state.inFrames = some (.frame frame)) (more : frame.pos < frame.data.length) :
    ∃ c after, takeChar state = some (tcpsocketComplete, some c, after) ∧
      Within socket frames sent done start (consumed ++ [c]) after ∧
      work socket after = work socket state := by
  have peeked := within.peeked
  rw [queued] at peeked
  refine ⟨frame.data[frame.pos],
    { state with inFrames := some (.frame ⟨frame.data, frame.pos + 1, more⟩) }, ?_,
    ⟨?_, peeked.read more⟩, rfl⟩
  · rw [WebSocket.takeChar, queued]
    dsimp only
    rw [dif_pos more]
  · have accounts := within.accounts
    have next : unread state.inFrames =
        frame.data[frame.pos] :: unread (some (.frame ⟨frame.data, frame.pos + 1, more⟩)) := by
      rw [queued, unread, WsFrame.unread, List.drop_eq_getElem_cons more]
      rfl
    rw [next] at accounts
    rw [← List.append_assoc, List.append_assoc _ [frame.data[frame.pos]]]
    rcases accounts with ⟨past, rest, ledger, index, total⟩
    exact ⟨past, rest, ledger.withInFrames _, index, total⟩

theorem Within.receiveChar (plain : ∀ frame ∈ frames, Plain frame) (full : NoneEmpty frames)
    (sound : Sound socket frames sent good)
    (within : Within socket frames sent done start consumed state)
    (nothing : unread state.inFrames = []) (goes : good state = true) :
    ∃ result, ((receiveFrame socket state).bind fun (rc, state) =>
        if rc ≠ tcpsocketComplete then some (rc, none, state) else WebSocket.takeChar state) =
          some result ∧
      CharRead socket frames sent done start consumed state result := by
  rcases within.receive plain sound goes with ⟨rc, after, received, within', fetched⟩
  rw [received, Option.bind_some]
  cases fetched with
  | @complete frame _ queued more _ less =>
      have inside : frame.pos < frame.data.length := by
        have some_data := List.length_pos_of_ne_nil (more full)
        rw [WsFrame.unread, List.length_drop] at some_data
        omega
      rcases within'.takeChar queued inside with ⟨c, last, taken, within, same⟩
      exact ⟨_, taken, .read within (same.le.trans less.le)⟩
  | interrupted progress =>
      refine ⟨_, rfl, .interrupted within' ?_⟩
      by_cases left : state.left socket = 0
      · have all := within.ended plain left
        rw [nothing, List.append_nil] at all
        exact .inr all
      · exact .inl (progress left)

theorem Within.getch (plain : ∀ frame ∈ frames, Plain frame) (full : NoneEmpty frames)
    (sound : Sound socket frames sent good)
    (within : Within socket frames sent done start consumed state)
    (goes : charGood good state = true) :
    ∃ result, WebSocket.getch socket state = some result ∧
      CharRead socket frames sent done start consumed state result := by
  have connected := (receiveFrame_keeps plain).websocket within.accounts
  rw [WebSocket.getch]
  dsimp only
  rw [if_pos connected]
  rw [charGood] at goes
  cases here : state.inFrames with
  | none =>
      rw [here] at goes
      exact within.receiveChar plain full sound (by rw [here]; rfl) goes
  | some content =>
      cases content with
      | freed => exact absurd here within.peeked.not_freed
      | frame frame =>
          rw [here] at goes
          dsimp only at goes ⊢
          by_cases used : frame.data.length = frame.pos
          · rw [if_pos used] at goes ⊢
            refine within.receiveChar plain full sound ?_ goes
            rw [here, unread, WsFrame.unread, ← used, List.drop_length]
          · rw [if_neg used]
            have inside := frame.pos_le
            rcases within.takeChar here (by omega) with ⟨c, after, taken, within, same⟩
            exact ⟨_, taken, .read within same.le⟩

/-! ### The remaining length -/

/-- How `MQTTPacket_decode` ends behind the header byte. -/
inductive Decoded (socket : SOCKET) (frames : List WebSocketFrame) (sent done : List UInt8)
    (start : Nat) (header : UInt8) (before : WebSocketState) :
    Except Int Nat × WebSocketState → Prop
  | value {field : List UInt8} {remainingLength : Nat} {after : WebSocketState}
      (scanned : VariableByte.scan maxNoOfRemainingLengthBytes field = .value remainingLength [])
      (within : Within socket frames sent done start (header :: field) after)
      (less : work socket after ≤ work socket before) :
      Decoded socket frames sent done start header before (.ok remainingLength, after)
  | overlong {field : List UInt8} {after : WebSocketState}
      (scanned : ∀ more,
        VariableByte.scan maxNoOfRemainingLengthBytes (field ++ more) = .overlong)
      (within : Within socket frames sent done start (header :: field) after) :
      Decoded socket frames sent done start header before (.error socketError, after)
  | interrupted {field : List UInt8} {after : WebSocketState}
      (scanned : VariableByte.scan maxNoOfRemainingLengthBytes field = .incomplete)
      (within : Within socket frames sent done start (header :: field) after)
      (progress : work socket after < work socket before ∨
        done ++ header :: field = dataOf frames) :
      Decoded socket frames sent done start header before (.error tcpsocketInterrupted, after)

theorem Decoded.mono {header : UInt8} {middle : WebSocketState}
    {result : Except Int Nat × WebSocketState}
    (decoded : Decoded socket frames sent done start header middle result)
    (less : work socket middle ≤ work socket state) :
    Decoded socket frames sent done start header state result := by
  cases decoded with
  | value scanned within fewer => exact .value scanned within (fewer.trans less)
  | overlong scanned within => exact .overlong scanned within
  | interrupted scanned within progress =>
      exact .interrupted scanned within (progress.imp_left fun fewer => fewer.trans_le less)

theorem Within.decodeLoop (plain : ∀ frame ∈ frames, Plain frame) (full : NoneEmpty frames)
    (sound : Sound socket frames sent good) {header : UInt8} {field : List UInt8}
    {remaining multiplier value : Nat} (c : Option UInt8)
    (resumes : VariableByte.Resumes maxNoOfRemainingLengthBytes field remaining multiplier value)
    (within : Within socket frames sent done start (header :: field) state)
    (goes : decodeGood socket good remaining state = true) :
    ∃ result, WebSocket.decodeLoop socket remaining multiplier value c state = some result ∧
      Decoded socket frames sent done start header state result := by
  induction remaining generalizing field multiplier value c state with
  | zero => exact ⟨_, rfl, .overlong resumes.overlong within⟩
  | succ remaining induction =>
      rw [decodeGood, Bool.and_eq_true] at goes
      rcases within.getch plain full sound goes.1 with ⟨result, called, read⟩
      have later := goes.2
      rw [called] at later
      rw [WebSocket.decodeLoop, called, Option.bind_some]
      cases read with
      | interrupted within progress =>
          exact ⟨_, rfl, .interrupted resumes.incomplete within progress⟩
      | @read digit after within less =>
          dsimp only at later ⊢
          rw [if_neg (not_not_intro rfl), Option.some_or, Option.bind_some]
          by_cases continued : digit.toNat ≥ 128
          · rw [if_pos continued] at later ⊢
            rcases induction (some digit) (resumes.digit continued) within later with
              ⟨result, looped, decoded⟩
            exact ⟨result, looped, decoded.mono less⟩
          · rw [if_neg continued]
            have scanned := resumes.last (Nat.lt_of_not_le continued) []
            rw [List.append_nil] at scanned
            exact ⟨_, rfl, .value scanned within less⟩

/-! ### The body -/

/-- How `WebSocket_getdata` ends for a body of so many bytes. -/
inductive BodyRead (socket : SOCKET) (frames : List WebSocketFrame) (sent done : List UInt8)
    (start : Nat) (consumed : List UInt8) (bytes : Nat) (before : WebSocketState) :
    List UInt8 × WebSocketState → Prop
  | whole {data : List UInt8} {after : WebSocketState} (enough : bytes ≤ data.length)
      (delivers : Delivers (AccountsFor socket frames sent) (done ++ consumed ++ data.take bytes)
        after)
      (less : work socket after ≤ work socket before) :
      BodyRead socket frames sent done start consumed bytes before (data, after)
  | short {data : List UInt8} {after : WebSocketState} (short : data.length < bytes)
      (within : Within socket frames sent done start consumed after)
      (progress : work socket after < work socket before ∨
        done ++ consumed ++ data = dataOf frames) :
      BodyRead socket frames sent done start consumed bytes before (data, after)

theorem BodyRead.mono {bytes : Nat} {middle : WebSocketState}
    {result : List UInt8 × WebSocketState}
    (read : BodyRead socket frames sent done start consumed bytes middle result)
    (less : work socket middle ≤ work socket state) :
    BodyRead socket frames sent done start consumed bytes state result := by
  cases read with
  | whole enough delivers fewer => exact .whole enough delivers (fewer.trans less)
  | short missing within progress =>
      exact .short missing within (progress.imp_left fun fewer => fewer.trans_le less)

theorem AccountsFor.withInFrames {total : List UInt8}
    (accounts : AccountsFor socket frames sent total state) (inFrames : Option InFrame) :
    AccountsFor socket frames sent total { state with inFrames := inFrames } := by
  rcases accounts with ⟨past, rest, ledger, index, same⟩
  exact ⟨past, rest, ledger.withInFrames inFrames, index, same⟩

theorem Within.gatherFrames (plain : ∀ frame ∈ frames, Plain frame)
    (sound : Sound socket frames sent good) {bytes fuel : Nat}
    {frame : WsFrame} (enough : state.left socket < fuel)
    (within : Within socket frames sent done start consumed state)
    (queued : state.inFrames = some (.frame frame))
    (goes : gatherGood socket good bytes fuel frame state = true) :
    ∃ result, WebSocket.gatherFrames socket bytes fuel frame state = some result ∧
      BodyRead socket frames sent done start consumed bytes state result := by
  induction fuel generalizing frame state with
  | zero => exact absurd enough (Nat.not_lt_zero _)
  | succ fuel induction =>
      have here : unread state.inFrames = frame.unread := by rw [queued]; rfl
      have accounts := within.accounts
      rw [here] at accounts
      rw [gatherGood] at goes
      rw [WebSocket.gatherFrames]
      by_cases short : frame.unread.length < bytes
      · rw [if_pos short, Bool.and_eq_true] at goes
        rcases within.receive plain sound goes.1 with ⟨rc, after, received, within', fetched⟩
        have later := goes.2
        rw [received] at later
        rw [if_pos short, received, Option.bind_some]
        cases fetched with
        | @complete next _ found _ fewer less =>
            dsimp only at later ⊢
            rw [if_neg (not_not_intro rfl), found] at later
            rw [if_neg (not_not_intro rfl), found]
            rcases induction (by omega) within' found later with ⟨result, gathered, read⟩
            exact ⟨result, gathered, read.mono less.le⟩
        | interrupted progress =>
            refine ⟨_, rfl, .short short within' ?_⟩
            by_cases left : state.left socket = 0
            · have all := within.ended plain left
              rw [here] at all
              exact .inr all
            · exact .inl (progress left)
      · rw [if_neg short]
        have present := Nat.le_of_not_lt short
        by_cases more : bytes < frame.unread.length
        · rw [dif_pos more]
          refine ⟨_, rfl, .whole present ⟨?_, fun wrong => by cases wrong⟩ le_rfl⟩
          rw [unread_advance, List.append_assoc, List.take_append_drop]
          exact accounts.withInFrames _
        · rw [dif_neg more]
          refine ⟨_, rfl, .whole present ⟨?_, fun wrong => by cases wrong⟩ le_rfl⟩
          rw [List.take_of_length_le (Nat.le_of_not_lt more)]
          have all := accounts.withInFrames none
          rw [← List.append_nil (done ++ consumed ++ frame.unread)] at all
          exact all

theorem Within.getdata (plain : ∀ frame ∈ frames, Plain frame)
    (sound : Sound socket frames sent good) {bytes : Nat} (positive : bytes ≠ 0)
    (within : Within socket frames sent done start consumed state) (some_read : consumed ≠ [])
    (goes : callGood socket good (.getdata bytes) state = true) :
    ∃ data after, WebSocket.getdata socket bytes state = some (some data, after) ∧
      BodyRead socket frames sent done start consumed bytes state (data, after) := by
  have connected := (receiveFrame_keeps plain).websocket within.accounts
  have peeked := within.peeked
  rw [callGood, if_neg positive, dataGood] at goes
  rw [WebSocket.getdata]
  dsimp only
  rw [if_pos connected, if_neg positive]
  cases here : state.inFrames with
  | none =>
      rw [here] at peeked
      exact absurd peeked.2 some_read
  | some content =>
      cases content with
      | freed => exact absurd here within.peeked.not_freed
      | frame frame =>
          rw [here] at goes
          rcases within.gatherFrames plain sound (Nat.lt_succ_self _) here goes with
            ⟨⟨data, after⟩, gathered, read⟩
          refine ⟨data, after, ?_, read⟩
          dsimp only
          rw [gathered, Option.map_some]

theorem Within.getdata_zero (plain : ∀ frame ∈ frames, Plain frame)
    (within : Within socket frames sent done start consumed state) :
    ∃ data after, WebSocket.getdata socket 0 state = some (data, after) ∧
      Delivers (AccountsFor socket frames sent) (done ++ consumed) after ∧
      work socket after = work socket state := by
  have keeps := @receiveFrame_keeps socket frames sent plain
  have before : Delivers (AccountsFor socket frames sent) (done ++ consumed) state :=
    ⟨within.accounts, within.peeked.not_freed⟩
  rcases getdata_zero_delivers keeps before with ⟨data, after, called, delivers⟩
  rw [handedOut_zero, List.append_nil] at delivers
  rcases WebSocket.getdata_zero (keeps.websocket within.accounts) called with ⟨inFrames, rfl⟩
  exact ⟨data, _, called, delivers, rfl⟩

end

end MqttClient.WebSocket
