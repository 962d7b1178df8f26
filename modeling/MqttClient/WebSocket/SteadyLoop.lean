import MqttClient.WebSocket.Calls
import MqttClient.WebSocket.DataStream

/-! # `WebSocket`: calls that lose nothing

`WebSocket_receiveFrame` keeps the fragments of a message in a local variable unless a frame is
queued, and reads control frames into the same buffer. Calls in which this does no harm take
the data of the stream frame by frame.
-/

namespace MqttClient.WebSocket

open Foundation

/-! ## The condition -/

def nextOpcode (socket : SOCKET) (raw : RawSocket) : Nat :=
  ((raw.frameBuffer.data ++ (raw.reads.inbound socket).bytes).headD 0).toNat % 16

def takesPong (socket : SOCKET) (dataLen : Nat) (writes : SocketWrites) : Bool :=
  decide (Socket.Idle socket writes) &&
    match writes.outbound socket with
    | .accept count :: _ => decide (pongLength dataLen ≤ min count maxRwCount)
    | _ => false

def behindControl (socket : SOCKET) (opcode : Nat) (b : List UInt8) (state : WebSocketState) :
    Option WebSocketState :=
  if opcode = opPing then state.pong socket b else some state

/-- The loop of `WebSocket_receiveFrame` is not interrupted with fragments that are only in
`res`; a control frame comes with no data in `res` or queued, and with no continuation frame
behind it; a PONG is taken whole. -/
def steady (socket : SOCKET) : (fuel opcode : Nat) → (res : Option WsFrame) → WebSocketState → Bool
  | 0, _, _, _ => true
  | fuel + 1, opcode, res, state =>
      match receiveFragment socket opcode state.toRawSocket with
      | some (.ok (isFinal, opcode', b, rcs), raw) =>
          match clear socket rcs raw with
          | some (.ok (), raw) =>
              let res' := WsFrame.extend res b
              let behind := (state.withRaw raw).setFirst (.frame res')
              let next := nextOpcode socket state.toRawSocket
              if next ≤ opBinary then
                decide (opcode ≤ opBinary ∨ next ≠ opContinue) &&
                  (isFinal || steady socket fuel opcode' (some res') behind)
              else
                res.isNone && state.inFrames.isNone &&
                  ((decide (next ≠ opPing) || takesPong socket b.length state.writes) &&
                    (behindControl socket next b behind).all (steady socket fuel opcode' none))
          | _ => true
      | _ => res.isNone || state.inFrames.isSome

/-- A call of `WebSocket_receiveFrame` loses nothing. -/
def steadyCall (socket : SOCKET) (state : WebSocketState) : Bool :=
  steady socket (state.left socket + 1) opBinary (queuedFrame state.inFrames) state

theorem accepts_of_takesPong {socket : SOCKET} {dataLen : Nat} {writes : SocketWrites}
    (takes : takesPong socket dataLen writes = true) :
    Socket.Idle socket writes ∧ Socket.Accepts socket (pongLength dataLen) writes := by
  rw [takesPong, Bool.and_eq_true] at takes
  refine ⟨of_decide_eq_true takes.1, ?_⟩
  have whole := takes.2
  split at whole
  · rename_i count rest next
    exact ⟨count, rest, next, of_decide_eq_true whole⟩
  · cases whole

section

variable {socket : SOCKET} {fuel opcode opcode' : Nat} {isFinal : Bool} {b : List UInt8} {rcs : Int}
  {res : Option WsFrame} {state : WebSocketState} {middle raw : RawSocket}

theorem setFirst_of_none (none : state.inFrames = none) (content : InFrame) :
    state.setFirst content = state := by
  rw [WebSocketState.setFirst, none]
  exact congrArg (fun inFrames => { state with inFrames := inFrames }) none.symm

theorem steady_data
    (ran : receiveFragment socket opcode state.toRawSocket =
      some (.ok (isFinal, opcode', b, rcs), middle))
    (cleared : clear socket rcs middle = some (.ok (), raw))
    (data : nextOpcode socket state.toRawSocket ≤ opBinary)
    (goes : steady socket (fuel + 1) opcode res state = true) :
    (opcode ≤ opBinary ∨ nextOpcode socket state.toRawSocket ≠ opContinue) ∧
      (isFinal = false → steady socket fuel opcode' (some (.extend res b))
        ((state.withRaw raw).setFirst (.frame (.extend res b))) = true) := by
  rw [steady, ran] at goes
  dsimp only at goes
  rw [cleared] at goes
  dsimp only at goes
  rw [if_pos data, Bool.and_eq_true, Bool.or_eq_true] at goes
  refine ⟨of_decide_eq_true goes.1, fun more => goes.2.resolve_left ?_⟩
  rw [more]
  exact Bool.false_ne_true

theorem steady_control
    (ran : receiveFragment socket opcode state.toRawSocket =
      some (.ok (isFinal, opcode', b, rcs), middle))
    (cleared : clear socket rcs middle = some (.ok (), raw))
    (control : ¬nextOpcode socket state.toRawSocket ≤ opBinary)
    (goes : steady socket (fuel + 1) opcode res state = true) :
    res = none ∧ state.inFrames = none ∧
      (nextOpcode socket state.toRawSocket = opPing →
        takesPong socket b.length state.writes = true) ∧
      ∀ after, behindControl socket (nextOpcode socket state.toRawSocket) b (state.withRaw raw) =
        some after → steady socket fuel opcode' none after = true := by
  rw [steady, ran] at goes
  dsimp only at goes
  rw [cleared] at goes
  dsimp only at goes
  rw [if_neg control, Bool.and_eq_true, Bool.and_eq_true, Option.isNone_iff_eq_none,
    Option.isNone_iff_eq_none, Bool.and_eq_true, Bool.or_eq_true] at goes
  rcases goes with ⟨⟨rfl, unqueued⟩, takes, rest⟩
  refine ⟨rfl, unqueued, fun ping => takes.resolve_left ?_, fun after reached => ?_⟩
  · rw [decide_eq_true_eq]
    exact not_not_intro ping
  · have left : (state.withRaw raw).inFrames = none := unqueued
    rw [setFirst_of_none left, reached] at rest
    exact rest

end

/-! ## The account of the stream -/

def nextLength : List WebSocketFrame → Nat
  | [] => 1
  | frame :: _ => frame.encode.length

/-- Of the frames that the server sends, those in `past` have been read and their PINGs been
answered behind the bytes `sent`, and those in `rest` are still in the stream. -/
structure Ledger (socket : SOCKET) (frames : List WebSocketFrame) (sent : List UInt8)
    (past rest : List WebSocketFrame) (state : WebSocketState) : Prop where
  split : frames = past ++ rest
  websocket : state.websocket = true
  held : Held socket (WebSocketFrame.encodeAll rest) state.toRawSocket
  short : state.frameBuffer.data.length < nextLength rest
  idle : Socket.Idle socket state.writes
  answers : Answers (pings past) sent (state.writes.accepted socket)

/-- `total` is the data of the frames that have been read. -/
def AccountsFor (socket : SOCKET) (frames : List WebSocketFrame) (sent total : List UInt8)
    (state : WebSocketState) : Prop :=
  ∃ past rest, Ledger socket frames sent past rest state ∧ state.frameBuffer.index = 0 ∧
    total = dataOf past

section

variable {socket : SOCKET} {frames past rest : List WebSocketFrame} {frame : WebSocketFrame}
  {sent delivered : List UInt8} {state after : WebSocketState} {raw : RawSocket}
  {res : Option WsFrame}

theorem Ledger.left (ledger : Ledger socket frames sent past rest state) :
    state.left socket = (WebSocketFrame.encodeAll rest).length := by
  rw [WebSocketState.left, ← List.length_append, ledger.held.stream]

theorem Ledger.waiting (ledger : Ledger socket frames sent past rest state)
    (index : state.frameBuffer.index = 0) :
    Waiting socket (nextLength rest) (WebSocketFrame.encodeAll rest) state.toRawSocket :=
  ⟨ledger.held, index, ledger.short⟩

theorem nextLength_pos : 0 < nextLength rest := by
  cases rest with
  | nil => exact Nat.succ_pos 0
  | cons frame rest =>
      have header := frame.length_header
      rw [nextLength, frame.length_encode]
      omega

theorem Ledger.read (ledger : Ledger socket frames sent past (frame :: rest) state)
    (other : ¬IsPing frame) (content : InFrame)
    (held : Held socket (WebSocketFrame.encodeAll rest) raw) (cleared : raw.frameBuffer = .empty) :
    Ledger socket frames sent (past ++ [frame]) rest ((state.withRaw raw).setFirst content) where
  split := by rw [ledger.split, List.append_assoc, List.singleton_append]
  websocket := ledger.websocket
  held := held
  short := by
    change raw.frameBuffer.data.length < nextLength rest
    rw [cleared]
    exact nextLength_pos
  idle := ledger.idle
  answers := by
    rw [pings_concat_other other]
    exact ledger.answers

theorem Ledger.readPing (ledger : Ledger socket frames sent past (frame :: rest) state)
    (ping : IsPing frame) (ponged : Ponged socket frame (state.withRaw raw) after)
    (held : Held socket (WebSocketFrame.encodeAll rest) raw) (cleared : raw.frameBuffer = .empty) :
    Ledger socket frames sent (past ++ [frame]) rest after where
  split := by rw [ledger.split, List.append_assoc, List.singleton_append]
  websocket := ponged.websocket.trans ledger.websocket
  held := by
    rw [ponged.raw]
    exact held
  short := by
    rw [ponged.raw]
    change raw.frameBuffer.data.length < nextLength rest
    rw [cleared]
    exact nextLength_pos
  idle := ponged.idle
  answers := by
    rw [pings_concat_ping ping]
    exact ledger.answers.trans ponged.answers

theorem Ledger.interrupt (ledger : Ledger socket frames sent past rest state)
    (held : Held socket (WebSocketFrame.encodeAll rest) raw)
    (short : raw.frameBuffer.data.length < nextLength rest) :
    Ledger socket frames sent past rest (state.withRaw raw) :=
  ⟨ledger.split, ledger.websocket, held, short, ledger.idle, ledger.answers⟩

theorem nextOpcode_eq {more : List UInt8} (held : Held socket (frame.encode ++ more) raw) :
    nextOpcode socket raw = frame.opcode := by
  have bound := frame.opcode.isLt
  rw [nextOpcode, held.stream, WebSocketFrame.encode_append, List.headD_cons,
    WebSocketFrame.toNat_firstByte]
  split <;> omega

/-! ## The loop -/

/-- The data in `res` behind its position. -/
def built : Option WsFrame → List UInt8
  | none => []
  | some res => res.unread

def Linked (inFrames : Option InFrame) (res : Option WsFrame) : Prop :=
  inFrames = none ∨ ∃ frame, inFrames = some (.frame frame) ∧ res = some frame

theorem built_extend (res : Option WsFrame) (b : List UInt8) :
    (WsFrame.extend res b).unread = built res ++ b := by
  cases res with
  | none => rfl
  | some res => exact List.drop_append_of_le_length res.pos_le

theorem built_queuedFrame {inFrames : Option InFrame} (queued : inFrames ≠ some .freed) :
    built (queuedFrame inFrames) = unread inFrames ∧ Linked inFrames (queuedFrame inFrames) := by
  cases inFrames with
  | none => exact ⟨rfl, .inl rfl⟩
  | some content =>
      cases content with
      | freed => exact absurd rfl queued
      | frame frame => exact ⟨rfl, .inr ⟨frame, rfl, rfl⟩⟩

theorem Linked.not_freed {inFrames : Option InFrame} {res : Option WsFrame}
    (linked : Linked inFrames res) : inFrames ≠ some .freed := by
  rcases linked with none | ⟨frame, queued, _⟩
  · rw [none]
    exact nofun
  · rw [queued]
    exact nofun

theorem Linked.unread_eq {inFrames : Option InFrame} {res : Option WsFrame}
    (linked : Linked inFrames res) (kept : (res.isNone || inFrames.isSome) = true) :
    unread inFrames = built res := by
  rcases linked with rfl | ⟨frame, rfl, rfl⟩
  · rw [Option.isSome_none, Bool.or_false, Option.isNone_iff_eq_none] at kept
    rw [kept]
    rfl
  · rfl

theorem Linked.eq_map {inFrames : Option InFrame} {res : Option WsFrame}
    (linked : Linked inFrames res) (kept : (res.isNone || inFrames.isSome) = true) :
    inFrames = res.map .frame := by
  rcases linked with rfl | ⟨frame, rfl, rfl⟩
  · rw [Option.isSome_none, Bool.or_false, Option.isNone_iff_eq_none] at kept
    rw [kept]
    rfl
  · rfl

theorem Linked.setFirst (linked : Linked state.inFrames res) (frame : WsFrame) :
    Linked (state.setFirst (.frame frame)).inFrames (some frame) := by
  rw [WebSocketState.setFirst]
  rcases linked with none | ⟨old, queued, _⟩
  · rw [none]
    exact .inl rfl
  · rw [queued]
    exact .inr ⟨frame, rfl, rfl⟩

def Grown (frames : List WebSocketFrame) (start res : Option WsFrame) : Prop :=
  res = start ∨ ∃ more, (NoneEmpty frames → more ≠ []) ∧ res = some (.extend start more)

theorem WsFrame.extend_extend (start : Option WsFrame) (first more : List UInt8) :
    WsFrame.extend (some (.extend start first)) more = .extend start (first ++ more) := by
  cases start with
  | none => rfl
  | some frame =>
      simp only [WsFrame.extend, List.append_assoc]

theorem Grown.extend {start : Option WsFrame} (grown : Grown frames start res) {b : List UInt8}
    (some_data : NoneEmpty frames → b ≠ []) :
    ∃ more, (NoneEmpty frames → more ≠ []) ∧ WsFrame.extend res b = .extend start more := by
  rcases grown with rfl | ⟨first, _, rfl⟩
  · exact ⟨b, some_data, rfl⟩
  · refine ⟨first ++ b, fun none => ?_, WsFrame.extend_extend start first b⟩
    exact List.append_ne_nil_of_right_ne_nil first (some_data none)

structure InLoop (socket : SOCKET) (frames : List WebSocketFrame) (sent delivered : List UInt8)
    (start : Option WsFrame) (past rest : List WebSocketFrame) (opcode : Nat)
    (res : Option WsFrame) (state : WebSocketState) : Prop where
  ledger : Ledger socket frames sent past rest state
  index : state.frameBuffer.index = 0
  known : KnownOpcode opcode
  linked : Linked state.inFrames res
  total : delivered ++ built res = dataOf past
  grown : Grown frames start res

def toDo (socket : SOCKET) (res : Option WsFrame) (state : WebSocketState) : Nat :=
  (built res).length + state.left socket + stored socket state.reads

/-- How the loop ends: with a frame, or interrupted with all data that has been read queued. There
were `left` bytes in the stream and `work` was left to do. -/
inductive LoopEnds (socket : SOCKET) (frames : List WebSocketFrame) (sent delivered : List UInt8)
    (start : Option WsFrame) (left work : Nat) : Except Int WsFrame × WebSocketState → Prop
  | complete {past rest : List WebSocketFrame} {opcode : Nat} {frame : WsFrame}
      {after : WebSocketState}
      (inLoop : InLoop socket frames sent delivered start past rest opcode (some frame) after)
      (added : ∃ more, (NoneEmpty frames → more ≠ []) ∧ frame = .extend start more)
      (fewer : after.left socket < left)
      (less : toDo socket (some frame) after < work) :
      LoopEnds socket frames sent delivered start left work (.ok frame, after)
  | interrupted {past rest : List WebSocketFrame} {after : WebSocketState}
      (ledger : Ledger socket frames sent past rest after)
      (queued : after.inFrames ≠ some .freed)
      (grown : ∃ res, after.inFrames = res.map .frame ∧ Grown frames start res)
      (total : delivered ++ unread after.inFrames = dataOf past)
      (fewer : after.left socket ≤ left)
      (less : remaining socket after ≤ work)
      (progress : left ≠ 0 → remaining socket after < work) :
      LoopEnds socket frames sent delivered start left work (.error tcpsocketInterrupted, after)

theorem LoopEnds.mono {start : Option WsFrame} {left work : Nat}
    {result : Except Int WsFrame × WebSocketState}
    (ends : LoopEnds socket frames sent delivered start (after.left socket)
      (toDo socket res after) result)
    (fewer : after.left socket < left) (less : toDo socket res after < work) :
    LoopEnds socket frames sent delivered start left work result := by
  cases ends with
  | complete inLoop added lessLeft lessWork =>
      exact .complete inLoop added (lessLeft.trans fewer) (lessWork.trans less)
  | interrupted ledger queued grown total lessLeft lessWork _ =>
      exact .interrupted ledger queued grown total (lessLeft.trans fewer.le)
        (lessWork.trans less.le) fun _ => lessWork.trans_lt less

theorem knownOpcode_opcodeOf (plain : Plain frame) {opcode : Nat} (known : KnownOpcode opcode) :
    KnownOpcode (opcodeOf frame opcode) := by
  rw [opcodeOf]
  split
  · rcases plain.kind with isData | control
    · rw [IsData] at isData
      exact ⟨isData.trans (by decide), fun both => absurd both.1 (Nat.not_lt.mpr isData)⟩
    · rcases control.opcode with ping | pong
      · rw [IsPing] at ping
        rw [ping]
        decide
      · rw [pong]
        decide
  · exact known

theorem opcodeOf_data (isData : IsData frame) {opcode : Nat}
    (continues : opcode ≤ opBinary ∨ (frame.opcode : Nat) ≠ opContinue) :
    opcodeOf frame opcode ≤ opBinary := by
  rw [opcodeOf]
  split
  · exact isData
  · rename_i continuation
    exact continues.resolve_right (fun other => continuation other)

theorem opcodeOf_control (control : IsControl frame) (opcode : Nat) :
    opcodeOf frame opcode = frame.opcode := by
  rw [opcodeOf, if_pos]
  intro zero
  exact control.not_isData (zero.le.trans (Nat.zero_le _))

theorem afterFragment_data {opcode : Nat} {frame : WsFrame}
    {again : Nat → Option WsFrame → WebSocketState →
      Option (Except Int WsFrame × WebSocketState)} (data : opcode ≤ opBinary) :
    afterFragment socket again true opcode frame state = some (.ok frame, state) := by
  have different {other : Nat} (control : opBinary < other) : opcode ≠ other :=
    (data.trans_lt control).ne
  rw [afterFragment, if_neg Bool.noConfusion, if_neg (different (by decide)),
    if_neg (different (by decide)), if_neg (different (by decide))]

theorem Ledger.toDo_read (ledger : Ledger socket frames sent past (frame :: rest) state)
    (later : Ledger socket frames sent (past ++ [frame]) rest after) {res' : Option WsFrame}
    (data : (built res').length ≤ (built res).length + frame.payload.length)
    (spent : stored socket after.reads ≤ stored socket state.reads) :
    after.left socket < state.left socket ∧ toDo socket res' after < toDo socket res state := by
  have header := frame.length_header
  rw [toDo, toDo, ledger.left, later.left, WebSocketFrame.encodeAll_cons, List.length_append,
    frame.length_encode]
  omega

/-! ### Between one frame and the next -/

variable {fuel opcode : Nat} {start : Option WsFrame}

theorem InLoop.interrupted
    (inLoop : InLoop socket frames sent delivered start past rest opcode res state)
    (kept : (res.isNone || state.inFrames.isSome) = true)
    (held : Held socket (WebSocketFrame.encodeAll rest) raw)
    (short : raw.frameBuffer.data.length < nextLength rest)
    (spent : stored socket raw.reads ≤ stored socket state.reads)
    (progress : state.left socket ≠ 0 → stored socket raw.reads < stored socket state.reads) :
    LoopEnds socket frames sent delivered start (state.left socket) (toDo socket res state)
      (.error tcpsocketInterrupted, state.withRaw raw) := by
  have after := inLoop.ledger.interrupt held short
  have same : (state.withRaw raw).left socket = state.left socket :=
    after.left.trans inLoop.ledger.left.symm
  have queued : unread (state.withRaw raw).inFrames = built res := inLoop.linked.unread_eq kept
  have work : remaining socket (state.withRaw raw) =
      (built res).length + state.left socket + stored socket raw.reads := by
    rw [remaining, queued, same]
    rfl
  refine .interrupted after inLoop.linked.not_freed ⟨res, inLoop.linked.eq_map kept, inLoop.grown⟩
    ?_ same.le ?_ fun some_left => ?_
  · rw [queued]
    exact inLoop.total
  · rw [work, toDo]
    omega
  · have less := progress some_left
    rw [work, toDo]
    omega

theorem InLoop.readData
    (inLoop : InLoop socket frames sent delivered start past (frame :: rest) opcode res state)
    (plain : Plain frame) (isData : IsData frame)
    (some_data : NoneEmpty frames → frame.payload ≠ [])
    (held : Held socket (WebSocketFrame.encodeAll rest) raw) (cleared : raw.frameBuffer = .empty) :
    InLoop socket frames sent delivered start (past ++ [frame]) rest (opcodeOf frame opcode)
      (some (.extend res frame.payload))
      ((state.withRaw raw).setFirst (.frame (.extend res frame.payload))) where
  ledger := inLoop.ledger.read isData.not_isPing _ held cleared
  index := by
    change raw.frameBuffer.index = 0
    rw [cleared]
    rfl
  known := knownOpcode_opcodeOf plain inLoop.known
  linked := by
    have linked : Linked (state.withRaw raw).inFrames res := inLoop.linked
    exact linked.setFirst _
  total := by
    rw [built, built_extend, ← List.append_assoc, inLoop.total, dataOf_concat_data isData]
  grown := by
    rcases inLoop.grown.extend some_data with ⟨more, nonempty, same⟩
    exact .inr ⟨more, nonempty, congrArg some same⟩

theorem InLoop.readControl
    (inLoop : InLoop socket frames sent delivered start past (frame :: rest) opcode none state)
    (plain : Plain frame) (control : IsControl frame)
    (ledger : Ledger socket frames sent (past ++ [frame]) rest after)
    (cleared : after.frameBuffer = .empty) (unqueued : after.inFrames = none) :
    InLoop socket frames sent delivered start (past ++ [frame]) rest frame.opcode none after where
  ledger := ledger
  index := by
    rw [cleared]
    rfl
  known := by
    rw [← opcodeOf_control control opcode]
    exact knownOpcode_opcodeOf plain inLoop.known
  linked := .inl unqueued
  total := by
    rw [dataOf_concat_control control]
    exact inLoop.total
  grown := inLoop.grown

inductive Passes (socket : SOCKET) (frames : List WebSocketFrame) (sent delivered : List UInt8)
    (start : Option WsFrame) (past rest : List WebSocketFrame) (fuel left work : Nat) :
    Option (Except Int WsFrame × WebSocketState) → Prop
  | ends {result : Except Int WsFrame × WebSocketState}
      (ends : LoopEnds socket frames sent delivered start left work result) :
      Passes socket frames sent delivered start past rest fuel left work (some result)
  | goesOn {opcode : Nat} {res : Option WsFrame} {after : WebSocketState}
      (inLoop : InLoop socket frames sent delivered start past rest opcode res after)
      (fewer : after.left socket < left) (less : toDo socket res after < work)
      (goes : steady socket fuel opcode res after = true) :
      Passes socket frames sent delivered start past rest fuel left work
        (receiveLoop socket fuel opcode res after)

theorem InLoop.pass_data {middle : RawSocket} {rcs : Int}
    (inLoop : InLoop socket frames sent delivered start past (frame :: rest) opcode res state)
    (plain : Plain frame) (isData : IsData frame)
    (some_data : NoneEmpty frames → frame.payload ≠ [])
    (ran : receiveFragment socket opcode state.toRawSocket =
      some (.ok (frame.fin, opcodeOf frame opcode, frame.payload, rcs), middle))
    (cleared : clear socket rcs middle = some (.ok (), raw))
    (held : Held socket (WebSocketFrame.encodeAll rest) raw) (empty : raw.frameBuffer = .empty)
    (spent : stored socket raw.reads ≤ stored socket state.reads)
    (goes : steady socket (fuel + 1) opcode res state = true) :
    Passes socket frames sent delivered start (past ++ [frame]) rest fuel (state.left socket)
      (toDo socket res state) (receiveLoop socket (fuel + 1) opcode res state) := by
  have next := nextOpcode_eq inLoop.ledger.held
  rcases steady_data ran cleared (next.trans_le isData) goes with ⟨continues, goes⟩
  rw [next] at continues
  have reads := inLoop.readData plain isData some_data held empty
  have data : (built (some (.extend res frame.payload))).length ≤
      (built res).length + frame.payload.length := by
    rw [built, built_extend, List.length_append]
  rcases inLoop.ledger.toDo_read reads.ledger data spent with ⟨fewer, less⟩
  rw [receiveLoop_read ran cleared]
  cases fin : frame.fin with
  | true =>
      rw [afterFragment_data (opcodeOf_data isData continues)]
      exact .ends (.complete reads (inLoop.grown.extend some_data) fewer less)
  | false =>
      rw [afterFragment, if_pos rfl]
      exact .goesOn reads fewer less (goes fin)

theorem InLoop.pass_control {middle : RawSocket} {rcs : Int}
    (inLoop : InLoop socket frames sent delivered start past (frame :: rest) opcode res state)
    (plain : Plain frame) (control : IsControl frame)
    (ran : receiveFragment socket opcode state.toRawSocket =
      some (.ok (frame.fin, opcodeOf frame opcode, frame.payload, rcs), middle))
    (cleared : clear socket rcs middle = some (.ok (), raw))
    (held : Held socket (WebSocketFrame.encodeAll rest) raw) (empty : raw.frameBuffer = .empty)
    (spent : stored socket raw.reads ≤ stored socket state.reads)
    (goes : steady socket (fuel + 1) opcode res state = true) :
    Passes socket frames sent delivered start (past ++ [frame]) rest fuel (state.left socket)
      (toDo socket res state) (receiveLoop socket (fuel + 1) opcode res state) := by
  have next := nextOpcode_eq inLoop.ledger.held
  rcases steady_control ran cleared
    (fun data => control.not_isData (next.symm.trans_le data)) goes with
    ⟨rfl, unqueued, takes, goes⟩
  rw [next] at takes goes
  have left : (state.withRaw raw).inFrames = none := unqueued
  rw [receiveLoop_read ran cleared, setFirst_of_none left, afterFragment, control.fin,
    if_neg Bool.noConfusion]
  rw [opcodeOf_control control] at goes ⊢
  by_cases ping : (frame.opcode : Nat) = opPing
  · rcases accepts_of_takesPong (takes ping) with ⟨idle, accepts⟩
    have connected : (state.withRaw raw).websocket = true := inLoop.ledger.websocket
    rcases pong_answers connected control.short idle accepts with ⟨after, sent, ponged⟩
    have none : after.inFrames = none := ponged.inFrames.trans unqueued
    have called : (state.withRaw raw).pong socket (WsFrame.extend .none frame.payload).data =
        some after := sent
    have reads := inLoop.ledger.readPing ping ponged held empty
    have same : after.reads = raw.reads := congrArg RawSocket.reads ponged.raw
    rcases inLoop.ledger.toDo_read reads (Nat.le_add_right _ _) (same ▸ spent) with ⟨fewer, less⟩
    rw [if_pos ping, called, Option.bind_some, setFirst_of_none none]
    refine .goesOn (inLoop.readControl plain control reads ?_ none) fewer less (goes after ?_)
    · rw [ponged.raw]
      exact empty
    · rw [behindControl, if_pos ping]
      exact sent
  · have reads := inLoop.ledger.read ping .freed held empty
    rw [setFirst_of_none left] at reads
    rcases inLoop.ledger.toDo_read reads (Nat.le_add_right _ _) spent with ⟨fewer, less⟩
    rw [if_neg ping, if_pos (control.opcode.resolve_left ping), setFirst_of_none left]
    refine .goesOn (inLoop.readControl plain control reads empty left) fewer less (goes _ ?_)
    rw [behindControl, if_neg ping]

theorem receiveLoop_steady (plain : ∀ frame ∈ rest, Plain frame)
    (inLoop : InLoop socket frames sent delivered start past rest opcode res state)
    (enough : state.left socket < fuel)
    (goes : steady socket fuel opcode res state = true) :
    ∃ result, receiveLoop socket fuel opcode res state = some result ∧
      LoopEnds socket frames sent delivered start (state.left socket) (toDo socket res state)
        result := by
  induction fuel generalizing opcode past rest res state with
  | zero => exact absurd enough (Nat.not_lt_zero _)
  | succ fuel induction =>
      cases rest with
      | nil =>
          rcases receiveFragment_nil opcode inLoop.ledger.held with ⟨raw, ran, held⟩
          rw [steady, ran] at goes
          refine ⟨_, by rw [receiveLoop, ran]; rfl,
            inLoop.interrupted goes held ?_ ((spends_receiveFragment opcode).stored_le ran)
              fun some_left => ?_⟩
          · rw [(List.append_eq_nil_iff.mp held.stream).1]
            exact Nat.succ_pos 0
          · exact absurd inLoop.ledger.left some_left
      | cons frame rest =>
          have isPlain := plain frame (List.mem_cons_self ..)
          have later (other : WebSocketFrame) (member : other ∈ rest) : Plain other :=
            plain other (List.mem_cons_of_mem _ member)
          have reads := receiveFragment_spec (inLoop.ledger.waiting inLoop.index).reading
            isPlain.small (knownOpcode_opcodeOf isPlain inLoop.known)
          rcases reads with ⟨result, ran, read⟩
          cases read with
          | @interrupted raw held short wait progress =>
              rw [steady, ran] at goes
              exact ⟨_, by rw [receiveLoop, ran]; rfl,
                inLoop.interrupted goes held short progress.le fun _ => progress⟩
          | @ok rcs middle positive behind ready =>
              rcases behind.clear positive with ⟨raw, cleared, held, empty, inbound⟩
              have spent : stored socket raw.reads ≤ stored socket state.reads :=
                ((spends_clear rcs).stored_le cleared).trans
                  ((spends_receiveFragment opcode).stored_le ran)
              rw [isPlain.masked] at ran
              have passes : Passes socket frames sent delivered start (past ++ [frame]) rest fuel
                  (state.left socket) (toDo socket res state)
                  (receiveLoop socket (fuel + 1) opcode res state) := by
                rcases isPlain.kind with isData | control
                · have some_data (none : NoneEmpty frames) : frame.payload ≠ [] :=
                    none frame (inLoop.ledger.split ▸ by simp) isData
                  exact inLoop.pass_data isPlain isData some_data ran cleared held empty spent goes
                · exact inLoop.pass_control isPlain control ran cleared held empty spent goes
              generalize receiveLoop socket (fuel + 1) opcode res state = looped at passes ⊢
              cases passes with
              | @ends result ends => exact ⟨result, rfl, ends⟩
              | @goesOn opcode res after inLoop' fewer less goes =>
                  rcases induction later inLoop' (fewer.trans_le (Nat.le_of_lt_succ enough)) goes
                    with ⟨result, looped, ends⟩
                  exact ⟨result, looped, ends.mono fewer less⟩

end

end MqttClient.WebSocket
