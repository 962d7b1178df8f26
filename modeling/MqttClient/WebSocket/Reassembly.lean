import MqttClient.WebSocket.SteadyLoop

/-! # `WebSocket`: reassembly

What `WebSocket_getch` and `WebSocket_getdata` deliver of a stream of frames, however it is cut
into what `recv` returns.
-/

namespace MqttClient.WebSocket

open Foundation

section

variable {socket : SOCKET} {frames past rest : List WebSocketFrame} {sent : List UInt8}
  {state : WebSocketState}

theorem encodeAll_eq_nil (empty : (WebSocketFrame.encodeAll rest).length = 0) : rest = [] := by
  cases rest with
  | nil => rfl
  | cons frame rest =>
      have header := frame.length_header
      rw [WebSocketFrame.encodeAll_cons, List.length_append, frame.length_encode] at empty
      omega

theorem Ledger.withInFrames (ledger : Ledger socket frames sent past rest state)
    (inFrames : Option InFrame) :
    Ledger socket frames sent past rest { state with inFrames := inFrames } :=
  ⟨ledger.split, ledger.websocket, ledger.held, ledger.short, ledger.idle, ledger.answers⟩

theorem Ledger.rewind (ledger : Ledger socket frames sent past rest state) :
    Ledger socket frames sent past rest
      (state.withRaw { state.toRawSocket with frameBuffer := state.frameBuffer.rewind }) :=
  ⟨ledger.split, ledger.websocket, ⟨ledger.held.drained, ledger.held.healthy, ledger.held.stream⟩,
    ledger.short, ledger.idle, ledger.answers⟩

theorem finish_complete {frame : WsFrame} (linked : Linked state.inFrames (some frame)) :
    WebSocketState.finish (.ok frame, state) =
      (tcpsocketComplete, { state with inFrames := some (.frame frame) }) := by
  rw [WebSocketState.finish]
  rcases linked with none | ⟨_, queued, same⟩
  · rw [none]
    rfl
  · cases same
    rw [queued, Option.isNone_some, if_neg Bool.false_ne_true, ← queued]

inductive Ended (frames : List WebSocketFrame) (start : Option WsFrame) :
    Int → Option InFrame → Prop
  | complete {more : List UInt8} (some_data : NoneEmpty frames → more ≠ []) :
      Ended frames start tcpsocketComplete (some (.frame (.extend start more)))
  | interrupted {res : Option WsFrame} (grown : Grown frames start res) :
      Ended frames start tcpsocketInterrupted (res.map .frame)

theorem receiveFrame_accounts (plain : ∀ frame ∈ frames, Plain frame) {delivered : List UInt8}
    (accounts : AccountsFor socket frames sent (delivered ++ unread state.inFrames) state)
    (queued : state.inFrames ≠ some .freed) (goes : steadyCall socket state = true) :
    ∃ rc after, receiveFrame socket state = some (rc, after) ∧
      AccountsFor socket frames sent (delivered ++ unread after.inFrames) after ∧
      after.inFrames ≠ some .freed ∧
      (rc = tcpsocketComplete → after.inFrames.isSome ∧ after.left socket < state.left socket) ∧
      after.left socket ≤ state.left socket ∧
      (state.left socket ≠ 0 → remaining socket after < remaining socket state) ∧
      Ended frames (queuedFrame state.inFrames) rc after.inFrames := by
  rcases accounts with ⟨past, rest, ledger, index, total⟩
  rcases built_queuedFrame queued with ⟨same, linked⟩
  have inLoop : InLoop socket frames sent delivered (queuedFrame state.inFrames) past rest opBinary
      (queuedFrame state.inFrames) state :=
    ⟨ledger, index, by decide, linked, by rw [same]; exact total, .inl rfl⟩
  have later (frame : WebSocketFrame) (member : frame ∈ rest) : Plain frame :=
    plain frame (ledger.split ▸ List.mem_append_right _ member)
  rcases receiveLoop_steady later inLoop (Nat.lt_succ_self _) goes with ⟨result, looped, ends⟩
  have work : toDo socket (queuedFrame state.inFrames) state = remaining socket state := by
    rw [toDo, same, remaining]
  rw [work] at ends
  rw [receiveFrame_eq socket queued, looped, Option.map_some]
  cases ends with
  | @complete past rest opcode frame after inLoop added fewer less =>
      rcases added with ⟨more, some_data, rfl⟩
      rw [finish_complete inLoop.linked]
      exact ⟨_, _, rfl, ⟨past, rest, inLoop.ledger.withInFrames _, inLoop.index, inLoop.total⟩,
        (fun wrong => by cases wrong), fun _ => ⟨rfl, fewer⟩, fewer.le, fun _ => less,
        .complete some_data⟩
  | @interrupted past rest after ledger kept grown total fewer _ progress =>
      rcases grown with ⟨res, queued, grown⟩
      refine ⟨_, _, rfl, ⟨past, rest, ledger.rewind, rfl, total⟩, kept, ?_, fewer, progress, ?_⟩
      · exact fun wrong => absurd wrong (by decide)
      have ended : Ended frames (queuedFrame state.inFrames) tcpsocketInterrupted after.inFrames :=
        queued ▸ .interrupted grown
      exact ended

theorem receiveFrame_keeps (plain : ∀ frame ∈ frames, Plain frame) :
    ReceiveKeeps socket (dataOf frames) (AccountsFor socket frames sent) (steadyCall socket) where
  websocket := by
    rintro _ _ ⟨past, rest, ledger, _⟩
    exact ledger.websocket
  unqueued := by
    rintro _ _ inFrames ⟨past, rest, ledger, index, total⟩
    exact ⟨past, rest, ledger.withInFrames inFrames, index, total⟩
  bounded := by
    rintro _ _ ⟨past, rest, ledger, _, rfl⟩
    rw [ledger.split, dataOf_append]
    exact List.prefix_append ..
  ended := by
    rintro _ _ ⟨past, rest, ledger, _, rfl⟩ empty
    rw [ledger.left] at empty
    rw [ledger.split, encodeAll_eq_nil empty, List.append_nil]
  receive accounts queued goes := by
    rcases receiveFrame_accounts plain accounts queued goes with
      ⟨rc, after, received, accounts, kept, complete, fewer, progress, _⟩
    exact ⟨rc, after, received, accounts, kept, complete, fewer, progress⟩

theorem steadyCall_of_unfragmented (plain : ∀ frame ∈ frames, Plain frame)
    (unfragmented : ∀ frame ∈ frames, IsData frame ∧ frame.fin = true) {total : List UInt8}
    (accounts : AccountsFor socket frames sent total state) : steadyCall socket state = true := by
  rcases accounts with ⟨past, rest, ledger, index, _⟩
  have kept : ((queuedFrame state.inFrames).isNone || state.inFrames.isSome) = true := by
    cases state.inFrames with
    | none => rfl
    | some content => exact Bool.or_true _
  rw [steadyCall, steady]
  cases rest with
  | nil =>
      rcases receiveFragment_nil opBinary ledger.held with ⟨raw, ran, _⟩
      rw [ran]
      exact kept
  | cons frame rest =>
      have member : frame ∈ frames := ledger.split ▸ by simp
      have isPlain := plain frame member
      rcases unfragmented frame member with ⟨isData, fin⟩
      rcases receiveFragment_spec (ledger.waiting index).reading isPlain.small
        (knownOpcode_opcodeOf isPlain (show KnownOpcode opBinary by decide)) with
        ⟨result, ran, read⟩
      rw [ran]
      cases read with
      | interrupted => exact kept
      | ok positive behind _ =>
          rcases behind.clear positive with ⟨raw, cleared, _⟩
          dsimp only
          rw [cleared]
          dsimp only
          rw [if_pos ((nextOpcode_eq ledger.held).trans_le isData), fin, Bool.true_or,
            Bool.and_true]
          exact decide_eq_true (.inl le_rfl)

/-- In good states no call of `WebSocket_receiveFrame` loses anything. -/
def Sound (socket : SOCKET) (frames : List WebSocketFrame) (sent : List UInt8)
    (good : WebSocketState → Bool) : Prop :=
  ∀ total state, AccountsFor socket frames sent total state → good state = true →
    steadyCall socket state = true

end

def pingAndMessage : List WebSocketFrame :=
  [⟨true, ⟨opPing, opPing_lt⟩, .none, [97]⟩, ⟨false, ⟨opBinary, opBinary_lt⟩, .none, [0xD0]⟩,
    ⟨true, ⟨opContinue, opContinue_lt⟩, .none, [0]⟩]

def brokenUp : SOCKET → RecvSource UInt8 := fun _ =>
  [.data [0x89, 1], .wouldBlock, .data [97, 2], .data [1, 0xD0, 0x80, 1, 0]]

theorem plain_pingAndMessage : ∀ frame ∈ pingAndMessage, Plain frame := by
  have all : ∀ frame ∈ pingAndMessage, frame.key = .none ∧ frame.payload.length < 4294967296 ∧
      (IsData frame ∨ IsPing frame ∧ frame.fin = true ∧ frame.payload.length ≤ 125) := by
    rw [pingAndMessage, List.forall_mem_cons, List.forall_mem_cons, List.forall_mem_singleton]
    decide
  intro frame member
  rcases all frame member with ⟨unmasked, small, isData | ⟨ping, fin, short⟩⟩
  · exact ⟨unmasked, small, .inl isData⟩
  · exact ⟨unmasked, small, .inr ⟨.inl ping, fin, short⟩⟩

theorem healthy_brokenUp : (brokenUp 3).Healthy := by
  intro event member
  simp only [brokenUp, List.mem_cons, List.not_mem_nil, or_false] at member
  rcases member with rfl | rfl | rfl | rfl <;> trivial

/-! ## Runs -/

/-- The stream between two calls of a run: the frames in `past` have been read, what the calls have
returned and what is unread are their data, each PING among them has been answered, and the
frames in `rest` are still in the stream. -/
structure Transparent (socket : SOCKET) (past rest : List WebSocketFrame)
    (events : List (Option UInt8)) (after : WebSocketState) : Prop where
  data : events.filterMap id ++ unread after.inFrames = dataOf past
  stream : after.frameBuffer.data ++ (after.reads.inbound socket).bytes =
    WebSocketFrame.encodeAll rest
  queued : after.inFrames ≠ some .freed
  answers : Answers (pings past) [] (after.writes.accepted socket)

section

variable {socket : SOCKET} {frames : List WebSocketFrame} {inbound : SOCKET → RecvSource UInt8}
  {outbound : SOCKET → List WritevEvent} {rand : Nat → Nat}

theorem delivers_start (healthy : (inbound socket).Healthy)
    (bytes : (inbound socket).bytes = WebSocketFrame.encodeAll frames) :
    Delivers (AccountsFor socket frames []) [] (WebSocketState.start inbound outbound rand) where
  accounts :=
    ⟨[], frames, ⟨rfl, rfl, .start healthy bytes outbound rand, nextLength_pos, rfl, .nil⟩, rfl,
      rfl⟩
  queued := nofun

theorem Delivers.transparent {events : List (Option UInt8)} {after : WebSocketState}
    (delivers : Delivers (AccountsFor socket frames []) (events.filterMap id) after) :
    ∃ past rest, frames = past ++ rest ∧ Transparent socket past rest events after := by
  rcases delivers with ⟨⟨past, rest, ledger, _, total⟩, queued⟩
  exact ⟨past, rest, ledger.split, total, ledger.held.stream, queued, ledger.answers⟩

/-- A run whose calls lose nothing delivers the data of the frames in order, however the
stream is cut, and answers the PINGs between them. -/
theorem transparent_of_steady (plain : ∀ frame ∈ frames, Plain frame)
    (healthy : (inbound socket).Healthy)
    (bytes : (inbound socket).bytes = WebSocketFrame.encodeAll frames) {calls : List Call}
    (along : (machine socket).Along
      (fun call state => callGood socket (steadyCall socket) call state = true) calls
      (.start inbound outbound rand)) :
    ∃ events after,
      (machine socket).run calls (.start inbound outbound rand) = some (events, after) ∧
        ∃ past rest, frames = past ++ rest ∧ Transparent socket past rest events after := by
  rcases run_delivers (receiveFrame_keeps plain) (delivers_start healthy bytes) along with
    ⟨events, after, ran, delivers⟩
  exact ⟨events, after, ran, delivers.transparent⟩

theorem transparent_of_steady_brokenUp : ∃ events after,
    (machine 3).run [.getch, .getch, .getch, .getdata 1]
        (.start brokenUp (fun _ => [.accept 100]) fun _ => 0) = some (events, after) ∧
      ∃ past rest, pingAndMessage = past ++ rest ∧ Transparent 3 past rest events after :=
  transparent_of_steady plain_pingAndMessage healthy_brokenUp (by decide) (by decide +kernel)

/-- As many calls as there are bytes and events to come deliver all data, and answer every
PING. -/
theorem transparent_whole (plain : ∀ frame ∈ frames, Plain frame)
    (healthy : (inbound socket).Healthy)
    (bytes : (inbound socket).bytes = WebSocketFrame.encodeAll frames) {count : Nat}
    (enough : (WebSocketFrame.encodeAll frames).length + (inbound socket).size ≤ count)
    (along : (machine socket).Along
      (fun call state => callGood socket (steadyCall socket) call state = true)
      (List.replicate count .getch) (.start inbound outbound rand)) :
    ∃ events after,
      (machine socket).run (List.replicate count .getch) (.start inbound outbound rand) =
          some (events, after) ∧
        events.filterMap id = dataOf frames ∧ Transparent socket frames [] events after := by
  have work : remaining socket (WebSocketState.start inbound outbound rand) ≤ count := by
    have left : (WebSocketState.start inbound outbound rand).left socket =
        (inbound socket).bytes.length := Nat.zero_add _
    rw [remaining, left, bytes]
    exact (Nat.zero_add (WebSocketFrame.encodeAll frames).length).symm ▸ enough
  rcases readsWhole (receiveFrame_keeps plain) (delivers_start healthy bytes) work along with
    ⟨events, after, ran, delivers, whole, ended⟩
  refine ⟨events, after, ran, whole, ?_⟩
  rcases delivers with ⟨⟨past, rest, ledger, _, total⟩, queued⟩
  rw [ledger.left] at ended
  have none := encodeAll_eq_nil ended
  subst none
  have all := ledger.split
  rw [List.append_nil] at all
  subst all
  exact ⟨total, ledger.held.stream, queued, ledger.answers⟩

theorem transparent_whole_brokenUp : ∃ events after,
    (machine 3).run (List.replicate 22 .getch)
        (.start brokenUp (fun _ => [.accept 100]) fun _ => 0) = some (events, after) ∧
      events.filterMap id = [0xD0, 0] ∧ Transparent 3 pingAndMessage [] events after :=
  transparent_whole plain_pingAndMessage healthy_brokenUp (by decide) (by decide)
    (by decide +kernel)

end

end MqttClient.WebSocket
