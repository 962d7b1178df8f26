import MqttClient.WebSocket.FrameLoop
import MqttClient.WebSocket.ReadProgress

/-! # `WebSocket`: the calls that read

`WebSocket_getch` and `WebSocket_getdata` take the data from the frame in `in_frames`, and call
`WebSocket_receiveFrame` where there is too little. What a call of it keeps, every run of
the calls keeps.
-/

namespace MqttClient.WebSocket

open Foundation

def unread : Option InFrame → List UInt8
  | some (.frame frame) => frame.unread
  | _ => []

def remaining (socket : SOCKET) (state : WebSocketState) : Nat :=
  (unread state.inFrames).length + state.left socket + stored socket state.reads

/-- What `WebSocket_receiveFrame` keeps. `Accounts total state` says that the data that has been
delivered and the data that is unread are `total`, and does not depend on the latter; `whole` is
the data of the whole stream. -/
structure ReceiveKeeps (socket : SOCKET) (whole : List UInt8)
    (Accounts : List UInt8 → WebSocketState → Prop) (good : WebSocketState → Bool) : Prop where
  websocket : ∀ {total state}, Accounts total state → state.websocket = true
  unqueued : ∀ {total state} (inFrames : Option InFrame), Accounts total state →
    Accounts total { state with inFrames := inFrames }
  bounded : ∀ {total state}, Accounts total state → total <+: whole
  ended : ∀ {total state}, Accounts total state → state.left socket = 0 → total = whole
  receive : ∀ {delivered state}, Accounts (delivered ++ unread state.inFrames) state →
    state.inFrames ≠ some .freed → good state = true →
      ∃ rc after, receiveFrame socket state = some (rc, after) ∧
        Accounts (delivered ++ unread after.inFrames) after ∧ after.inFrames ≠ some .freed ∧
        (rc = tcpsocketComplete → after.inFrames.isSome ∧ after.left socket < state.left socket) ∧
        after.left socket ≤ state.left socket ∧
        (state.left socket ≠ 0 → remaining socket after < remaining socket state)

/-! ## The condition on a call -/

/-- Every call of `WebSocket_receiveFrame` that `gatherFrames` makes starts in a good state. -/
def gatherGood (socket : SOCKET) (good : WebSocketState → Bool) (bytes : Nat) :
    (fuel : Nat) → WsFrame → WebSocketState → Bool
  | 0, _, _ => true
  | fuel + 1, frame, state =>
      if frame.unread.length < bytes then
        good state &&
          match receiveFrame socket state with
          | none => true
          | some (rc, state) =>
              if rc ≠ tcpsocketComplete then true
              else
                match state.inFrames with
                | some (.frame frame) => gatherGood socket good bytes fuel frame state
                | _ => true
      else true

def charGood (good : WebSocketState → Bool) (state : WebSocketState) : Bool :=
  match state.inFrames with
  | some (.frame frame) => if frame.data.length = frame.pos then good state else true
  | _ => good state

def dataGood (socket : SOCKET) (good : WebSocketState → Bool) (bytes : Nat)
    (state : WebSocketState) : Bool :=
  match state.inFrames with
  | some (.frame frame) => gatherGood socket good bytes (state.left socket + 1) frame state
  | _ =>
      good state &&
        match receiveFrame socket state with
        | none => true
        | some (rc, state) =>
            if rc ≠ tcpsocketComplete then true
            else
              match state.inFrames with
              | some (.frame frame) =>
                  gatherGood socket good bytes (state.left socket + 1) frame state
              | _ => true

/-- Every call of `WebSocket_receiveFrame` in a call starts in a good state. -/
def callGood (socket : SOCKET) (good : WebSocketState → Bool) :
    (call : Call) → (state : WebSocketState) → Bool
  | .getch, state => charGood good state
  | .getdata bytes, state => if bytes = 0 then true else dataGood socket good bytes state

section Good

variable {socket : SOCKET} {good : WebSocketState → Bool}

theorem charGood_of_forall (all : ∀ state, good state = true) (state : WebSocketState) :
    charGood good state = true := by
  rw [charGood]
  split
  · split
    · exact all state
    · rfl
  · exact all state

theorem gatherGood_of_forall (all : ∀ state, good state = true) (bytes fuel : Nat)
    (frame : WsFrame) (state : WebSocketState) :
    gatherGood socket good bytes fuel frame state = true := by
  induction fuel generalizing frame state with
  | zero => rfl
  | succ fuel induction =>
      rw [gatherGood]
      split
      · rw [Bool.and_eq_true]
        refine ⟨all state, ?_⟩
        split
        · rfl
        · split
          · rfl
          · split
            · exact induction ..
            · rfl
      · rfl

theorem callGood_of_forall (all : ∀ state, good state = true) (call : Call)
    (state : WebSocketState) : callGood socket good call state = true := by
  cases call with
  | getch => exact charGood_of_forall all state
  | getdata bytes =>
      rw [callGood]
      split
      · rfl
      · rw [dataGood]
        split
        · exact gatherGood_of_forall all ..
        · rw [Bool.and_eq_true]
          refine ⟨all state, ?_⟩
          split
          · rfl
          · split
            · rfl
            · split
              · exact gatherGood_of_forall all ..
              · rfl

end Good

section Calls

variable {socket : SOCKET} {whole : List UInt8} {Accounts : List UInt8 → WebSocketState → Prop}
  {good : WebSocketState → Bool} {delivered : List UInt8} {state : WebSocketState}

/-- What a call leaves behind the data that it has delivered. -/
structure Delivers (Accounts : List UInt8 → WebSocketState → Prop) (delivered : List UInt8)
    (after : WebSocketState) : Prop where
  accounts : Accounts (delivered ++ unread after.inFrames) after
  queued : after.inFrames ≠ some .freed

theorem unread_advance {bytes : Nat} {frame : WsFrame} (fits : bytes ≤ frame.unread.length) :
    unread (some (.frame (frame.advance bytes fits))) = frame.unread.drop bytes := by
  rw [unread, WsFrame.unread, WsFrame.unread, List.drop_drop]
  rfl

theorem gatherFrames_delivers (keeps : ReceiveKeeps socket whole Accounts good) {bytes fuel : Nat}
    {frame : WsFrame} (enough : state.left socket < fuel)
    (accounts : Accounts (delivered ++ frame.unread) state)
    (queued : state.inFrames = some (.frame frame))
    (goes : gatherGood socket good bytes fuel frame state = true) :
    ∃ data after, gatherFrames socket bytes fuel frame state = some (data, after) ∧
      Delivers Accounts (delivered ++ if data.length < bytes then [] else data.take bytes)
        after := by
  induction fuel generalizing frame state with
  | zero => exact absurd enough (Nat.not_lt_zero _)
  | succ fuel induction =>
      rw [gatherFrames]
      rw [gatherGood] at goes
      by_cases short : frame.unread.length < bytes
      · rw [if_pos short] at goes ⊢
        rw [Bool.and_eq_true] at goes
        have present : state.inFrames ≠ some .freed := by
          rw [queued]
          exact nofun
        have here : Accounts (delivered ++ unread state.inFrames) state := by
          rw [queued]
          exact accounts
        rcases keeps.receive here present goes.1 with
          ⟨rc, after, received, accounts, kept, complete, _, _⟩
        have later := goes.2
        rw [received] at later
        rw [received, Option.bind_some]
        dsimp only at later ⊢
        by_cases failed : rc ≠ tcpsocketComplete
        · rw [if_pos failed]
          refine ⟨_, _, rfl, ?_, kept⟩
          rw [if_pos short, List.append_nil]
          exact accounts
        · rw [if_neg failed] at later ⊢
          have ended := complete (not_ne_iff.mp failed)
          cases here : after.inFrames with
          | none =>
              rw [here] at ended
              exact absurd ended.1 Bool.false_ne_true
          | some content =>
              cases content with
              | freed => exact absurd here kept
              | frame frame =>
                  rw [here] at later accounts
                  exact induction (by omega) accounts here later
      · rw [if_neg short]
        by_cases more : bytes < frame.unread.length
        · rw [dif_pos more]
          refine ⟨_, _, rfl, ?_, nofun⟩
          rw [if_neg short, unread_advance, List.append_assoc, List.take_append_drop]
          exact keeps.unqueued _ accounts
        · rw [dif_neg more]
          refine ⟨_, _, rfl, ?_, nofun⟩
          rw [if_neg short, List.take_of_length_le (Nat.le_of_not_lt more)]
          have all := keeps.unqueued none accounts
          rw [← List.append_nil (delivered ++ frame.unread)] at all
          exact all

theorem takeChar_delivers (keeps : ReceiveKeeps socket whole Accounts good)
    (before : Delivers Accounts delivered state) :
    ∃ c after, takeChar state = some (tcpsocketComplete, c, after) ∧
      Delivers Accounts (delivered ++ c.toList) after := by
  rw [takeChar]
  cases here : state.inFrames with
  | none =>
      refine ⟨none, state, rfl, ?_, before.queued⟩
      rw [Option.toList_none, List.append_nil]
      exact before.accounts
  | some content =>
      cases content with
      | freed => exact absurd here before.queued
      | frame frame =>
          have accounts := before.accounts
          rw [here] at accounts
          by_cases more : frame.pos < frame.data.length
          · dsimp only
            rw [dif_pos more]
            refine ⟨_, _, rfl, ?_, nofun⟩
            have next : delivered ++ unread (some (.frame frame)) =
                delivered ++ [frame.data[frame.pos]] ++
                  unread (some (.frame ⟨frame.data, frame.pos + 1, more⟩)) := by
              rw [unread, WsFrame.unread, List.drop_eq_getElem_cons more, List.append_assoc]
              rfl
            rw [next] at accounts
            exact keeps.unqueued _ accounts
          · dsimp only
            rw [dif_neg more]
            refine ⟨none, state, rfl, ?_, before.queued⟩
            rw [Option.toList_none, List.append_nil, here]
            exact accounts

theorem receiveChar_delivers (keeps : ReceiveKeeps socket whole Accounts good)
    (before : Delivers Accounts delivered state) (goes : good state = true) :
    ∃ rc c after, ((receiveFrame socket state).bind fun (rc, state) =>
        if rc ≠ tcpsocketComplete then some (rc, none, state) else takeChar state) =
          some (rc, c, after) ∧
      Delivers Accounts (delivered ++ if rc = tcpsocketComplete then c.toList else []) after := by
  rcases keeps.receive before.accounts before.queued goes with
    ⟨rc, after, received, accounts, kept, _, _, _⟩
  rw [received, Option.bind_some]
  dsimp only
  by_cases failed : rc ≠ tcpsocketComplete
  · rw [if_pos failed]
    refine ⟨rc, none, after, rfl, ?_, kept⟩
    rw [if_neg failed, List.append_nil]
    exact accounts
  · rw [if_neg failed]
    rcases takeChar_delivers keeps ⟨accounts, kept⟩ with ⟨c, last, taken, delivers⟩
    refine ⟨_, c, last, taken, ?_⟩
    rw [if_pos rfl]
    exact delivers

theorem getch_delivers (keeps : ReceiveKeeps socket whole Accounts good)
    (before : Delivers Accounts delivered state)
    (goes : charGood good state = true) :
    ∃ rc c after, getch socket state = some (rc, c, after) ∧
      Delivers Accounts (delivered ++ if rc = tcpsocketComplete then c.toList else []) after := by
  have connected := keeps.websocket before.accounts
  rw [getch]
  dsimp only
  rw [if_pos connected]
  rw [charGood] at goes
  cases here : state.inFrames with
  | none =>
      rw [here] at goes
      exact receiveChar_delivers keeps before goes
  | some content =>
      cases content with
      | freed => exact absurd here before.queued
      | frame frame =>
          rw [here] at goes
          dsimp only at goes ⊢
          by_cases used : frame.data.length = frame.pos
          · rw [if_pos used] at goes ⊢
            exact receiveChar_delivers keeps before goes
          · rw [if_neg used]
            rcases takeChar_delivers keeps before with ⟨c, after, taken, delivers⟩
            refine ⟨_, c, after, taken, ?_⟩
            rw [if_pos rfl]
            exact delivers

/-- What `WebSocket_getdata` delivers of the data at the pointer that it returns. -/
def handedOut (bytes : Nat) (data : Option (List UInt8)) : List UInt8 :=
  match data with
  | none => []
  | some data => if data.length < bytes then [] else data.take bytes

theorem gathered_delivers (keeps : ReceiveKeeps socket whole Accounts good) {bytes : Nat}
    {frame : WsFrame} (before : Delivers Accounts delivered state)
    (queued : state.inFrames = some (.frame frame))
    (goes : gatherGood socket good bytes (state.left socket + 1) frame state = true) :
    ∃ data after, ((gatherFrames socket bytes (state.left socket + 1) frame state).map
        fun (data, state) => (some data, state)) = some (data, after) ∧
      Delivers Accounts (delivered ++ handedOut bytes data) after := by
  have accounts := before.accounts
  rw [queued] at accounts
  rcases gatherFrames_delivers keeps (Nat.lt_succ_self _) accounts queued goes with
    ⟨data, after, gathered, delivers⟩
  rw [gathered]
  exact ⟨some data, after, rfl, delivers⟩

theorem getdata_delivers (keeps : ReceiveKeeps socket whole Accounts good) {bytes : Nat}
    (positive : bytes ≠ 0) (before : Delivers Accounts delivered state)
    (goes : dataGood socket good bytes state = true) :
    ∃ data after, getdata socket bytes state = some (data, after) ∧
      Delivers Accounts (delivered ++ handedOut bytes data) after := by
  have connected := keeps.websocket before.accounts
  rw [getdata]
  dsimp only
  rw [if_pos connected, if_neg positive]
  rw [dataGood] at goes
  cases here : state.inFrames with
  | none =>
      rw [here, Bool.and_eq_true] at goes
      dsimp only
      rcases keeps.receive before.accounts before.queued goes.1 with
        ⟨rc, after, received, accounts, kept, complete, _, _⟩
      have later := goes.2
      rw [received] at later
      rw [received, Option.bind_some]
      dsimp only at later ⊢
      by_cases failed : rc ≠ tcpsocketComplete
      · rw [if_pos failed]
        refine ⟨none, after, rfl, ?_, kept⟩
        rw [handedOut, List.append_nil]
        exact accounts
      · rw [if_neg failed] at later ⊢
        have ended := complete (not_ne_iff.mp failed)
        cases found : after.inFrames with
        | none =>
            rw [found] at ended
            exact absurd ended.1 Bool.false_ne_true
        | some content =>
            cases content with
            | freed => exact absurd found kept
            | frame frame =>
                rw [found] at later
                exact gathered_delivers keeps ⟨accounts, kept⟩ found later
  | some content =>
      cases content with
      | freed => exact absurd here before.queued
      | frame frame =>
          rw [here] at goes
          exact gathered_delivers keeps before here goes

theorem handedOut_zero (data : Option (List UInt8)) : handedOut 0 data = [] := by
  cases data with
  | none => rfl
  | some data =>
      show (if data.length < 0 then [] else data.take 0) = []
      rw [if_neg (Nat.not_lt_zero _), List.take_zero]

theorem getdata_zero (connected : state.websocket = true) {data : Option (List UInt8)}
    {after : WebSocketState} (called : getdata socket 0 state = some (data, after)) :
    ∃ inFrames, after = { state with inFrames := inFrames } := by
  rw [getdata] at called
  dsimp only at called
  rw [if_pos connected, if_pos rfl] at called
  split at called
  · cases called
    exact ⟨state.inFrames, rfl⟩
  · cases called
  · split at called
    · cases called
      exact ⟨none, rfl⟩
    · cases called
      exact ⟨state.inFrames, rfl⟩

theorem getdata_zero_delivers (keeps : ReceiveKeeps socket whole Accounts good)
    (before : Delivers Accounts delivered state) :
    ∃ data after, getdata socket 0 state = some (data, after) ∧
      Delivers Accounts (delivered ++ handedOut 0 data) after := by
  have connected := keeps.websocket before.accounts
  rw [getdata]
  dsimp only
  rw [if_pos connected, if_pos rfl]
  cases here : state.inFrames with
  | none =>
      refine ⟨none, state, rfl, ?_, before.queued⟩
      rw [handedOut_zero, List.append_nil]
      exact before.accounts
  | some content =>
      cases content with
      | freed => exact absurd here before.queued
      | frame frame =>
          dsimp only
          by_cases used : frame.pos = frame.data.length
          · rw [if_pos used]
            refine ⟨_, _, rfl, ?_, nofun⟩
            have accounts := before.accounts
            have read : frame.unread = [] := by
              rw [WsFrame.unread, used, List.drop_length]
            rw [here, unread, read] at accounts
            rw [handedOut_zero, List.append_nil]
            exact keeps.unqueued none accounts
          · rw [if_neg used]
            refine ⟨_, _, rfl, ?_, before.queued⟩
            rw [handedOut_zero, List.append_nil]
            exact before.accounts

theorem filterMap_some_map (bytes : List UInt8) : (bytes.map some).filterMap id = bytes := by
  rw [List.filterMap_map]
  exact List.filterMap_some

theorem step_delivers (keeps : ReceiveKeeps socket whole Accounts good) {call : Call}
    (before : Delivers Accounts delivered state) (goes : callGood socket good call state = true) :
    ∃ events after, step socket call state = some (events, after) ∧
      Delivers Accounts (delivered ++ events.filterMap id) after := by
  cases call with
  | getch =>
      rcases getch_delivers keeps before goes with ⟨rc, c, after, called, delivers⟩
      refine ⟨_, after, by rw [step, called]; rfl, ?_⟩
      by_cases complete : rc = tcpsocketComplete
      · rw [if_pos complete] at delivers ⊢
        cases c <;> exact delivers
      · rw [if_neg complete] at delivers ⊢
        exact delivers
  | getdata bytes =>
      have called : ∃ data after, getdata socket bytes state = some (data, after) ∧
          Delivers Accounts (delivered ++ handedOut bytes data) after := by
        by_cases none : bytes = 0
        · rw [none]
          exact getdata_zero_delivers keeps before
        · rw [callGood, if_neg none] at goes
          exact getdata_delivers keeps none before goes
      rcases called with ⟨data, after, called, delivers⟩
      rw [step, called]
      cases data with
      | none => exact ⟨[], after, rfl, delivers⟩
      | some data =>
          refine ⟨_, after, rfl, ?_⟩
          rw [handedOut] at delivers
          by_cases short : data.length < bytes
          · rw [if_pos short] at delivers ⊢
            exact delivers
          · rw [if_neg short] at delivers ⊢
            rw [filterMap_some_map]
            exact delivers

theorem run_delivers (keeps : ReceiveKeeps socket whole Accounts good) {calls : List Call}
    (before : Delivers Accounts delivered state)
    (along : (machine socket).Along (fun call state => callGood socket good call state = true)
      calls state) :
    ∃ events after, (machine socket).run calls state = some (events, after) ∧
      Delivers Accounts (delivered ++ events.filterMap id) after := by
  induction calls generalizing delivered state with
  | nil =>
      refine ⟨[], state, rfl, ?_⟩
      rw [List.filterMap_nil, List.append_nil]
      exact before
  | cons call calls induction =>
      rcases step_delivers keeps before along.1 with ⟨first, middle, stepped, delivers⟩
      rcases induction delivers (along.2 _ stepped) with ⟨later, after, ran, delivers⟩
      have stepped' : (machine socket).step call state = some (first, middle) := stepped
      refine ⟨first ++ later, after, ?_, ?_⟩
      · rw [Machine.run, stepped', Option.bind_some, ran]
        rfl
      · rw [List.filterMap_append, ← List.append_assoc]
        exact delivers

/-! ## Reading the stream to its end -/

theorem takeChar_remaining {rc : Int} {c : Option UInt8} {after : WebSocketState}
    (taken : takeChar state = some (rc, c, after)) :
    after.left socket = state.left socket ∧ remaining socket after ≤ remaining socket state ∧
      (unread state.inFrames ≠ [] → remaining socket after < remaining socket state) := by
  rw [takeChar] at taken
  cases here : state.inFrames with
  | none =>
      rw [here] at taken
      cases taken
      exact ⟨rfl, le_rfl, fun some_data => absurd rfl some_data⟩
  | some content =>
      rw [here] at taken
      cases content with
      | freed => cases taken
      | frame frame =>
          dsimp only at taken
          by_cases more : frame.pos < frame.data.length
          · rw [dif_pos more] at taken
            cases taken
            have fewer : remaining socket { state with
                inFrames := some (.frame ⟨frame.data, frame.pos + 1, more⟩) } <
                remaining socket state := by
              rw [remaining, remaining, here, unread, unread, WsFrame.unread, WsFrame.unread,
                List.length_drop, List.length_drop]
              change frame.data.length - (frame.pos + 1) + state.left socket +
                stored socket state.reads < _
              omega
            exact ⟨rfl, fewer.le, fun _ => fewer⟩
          · rw [dif_neg more] at taken
            cases taken
            refine ⟨rfl, le_rfl, fun some_data => absurd ?_ some_data⟩
            exact List.drop_eq_nil_of_le (Nat.le_of_not_lt more)

theorem getch_remaining (keeps : ReceiveKeeps socket whole Accounts good)
    (before : Delivers Accounts delivered state) (goes : charGood good state = true) {rc : Int}
    {c : Option UInt8} {after : WebSocketState}
    (called : getch socket state = some (rc, c, after)) :
    after.left socket ≤ state.left socket ∧
      (state.left socket ≠ 0 ∨ unread state.inFrames ≠ [] →
        remaining socket after < remaining socket state) := by
  have received (goes : good state = true)
      (called : ((receiveFrame socket state).bind fun (rc, state) =>
        if rc ≠ tcpsocketComplete then some (rc, none, state) else takeChar state) =
          some (rc, c, after)) :
      after.left socket ≤ state.left socket ∧
        (state.left socket ≠ 0 → remaining socket after < remaining socket state) := by
    rcases keeps.receive before.accounts before.queued goes with
      ⟨code, middle, received, _, _, _, left, fewer⟩
    rw [received, Option.bind_some] at called
    dsimp only at called
    by_cases failed : code ≠ tcpsocketComplete
    · rw [if_pos failed] at called
      cases called
      exact ⟨left, fewer⟩
    · rw [if_neg failed] at called
      rcases takeChar_remaining called with ⟨same, less, _⟩
      exact ⟨same.trans_le left, fun some_left => less.trans_lt (fewer some_left)⟩
  rw [getch] at called
  dsimp only at called
  rw [if_pos (keeps.websocket before.accounts)] at called
  rw [charGood] at goes
  cases here : state.inFrames with
  | none =>
      rw [here] at goes called
      rcases received goes called with ⟨left, fewer⟩
      exact ⟨left, fun more => fewer (more.resolve_right fun some_data => some_data rfl)⟩
  | some content =>
      cases content with
      | freed => exact absurd here before.queued
      | frame frame =>
          have same := here
          rw [here] at goes called
          dsimp only at goes called
          by_cases used : frame.data.length = frame.pos
          · rw [if_pos used] at goes called
            rcases received goes called with ⟨left, fewer⟩
            refine ⟨left, fun more => fewer (more.resolve_right fun some_data => some_data ?_)⟩
            exact List.drop_eq_nil_of_le used.le
          · rw [if_neg used] at called
            rcases takeChar_remaining called with ⟨left, _, fewer⟩
            refine ⟨left.le, fun _ => fewer ?_⟩
            rw [same]
            refine List.ne_nil_of_length_pos ?_
            have inside := frame.pos_le
            rw [unread, WsFrame.unread, List.length_drop]
            omega

theorem Delivers.isPrefix (keeps : ReceiveKeeps socket whole Accounts good)
    (delivers : Delivers Accounts delivered state) : delivered <+: whole :=
  (List.prefix_append ..).trans (keeps.bounded delivers.accounts)

theorem step_getch (keeps : ReceiveKeeps socket whole Accounts good)
    (before : Delivers Accounts delivered state) (goes : charGood good state = true) :
    ∃ events after, (machine socket).step .getch state = some (events, after) ∧
      Delivers Accounts (delivered ++ events.filterMap id) after ∧
      after.left socket ≤ state.left socket ∧
      (state.left socket ≠ 0 ∨ unread state.inFrames ≠ [] →
        remaining socket after < remaining socket state) := by
  have delivers : ∃ events after, step socket .getch state = some (events, after) ∧
      Delivers Accounts (delivered ++ events.filterMap id) after := step_delivers keeps before goes
  rcases delivers with ⟨events, after, stepped, delivers⟩
  refine ⟨events, after, stepped, delivers, ?_⟩
  rw [step] at stepped
  rcases Option.map_eq_some_iff.mp stepped with ⟨⟨rc, c, reached⟩, called, same⟩
  cases same
  exact getch_remaining keeps before goes called

/-- A number of calls of `WebSocket_getch` deliver what is missing of the whole, and leave nothing
of the stream. -/
def ReadsWhole (socket : SOCKET) (whole : List UInt8)
    (Accounts : List UInt8 → WebSocketState → Prop) (delivered : List UInt8) (count : Nat)
    (state : WebSocketState) : Prop :=
  ∃ events after, (machine socket).run (List.replicate count .getch) state = some (events, after) ∧
    Delivers Accounts (delivered ++ events.filterMap id) after ∧
    delivered ++ events.filterMap id = whole ∧ after.left socket = 0

theorem ReadsWhole.cons {events : List (Option UInt8)} {after : WebSocketState} {count : Nat}
    (stepped : (machine socket).step .getch state = some (events, after))
    (later : ReadsWhole socket whole Accounts (delivered ++ events.filterMap id) count after) :
    ReadsWhole socket whole Accounts delivered (count + 1) state := by
  rcases later with ⟨more, last, ran, ends⟩
  refine ⟨events ++ more, last, ?_, ?_⟩
  · rw [List.replicate_succ, Machine.run, stepped, Option.bind_some, ran]
    rfl
  · rw [List.filterMap_append, ← List.append_assoc]
    exact ends

theorem readsWhole_of_ended (keeps : ReceiveKeeps socket whole Accounts good)
    (before : Delivers Accounts delivered state) (all : delivered = whole)
    (ended : state.left socket = 0) {count : Nat}
    (along : (machine socket).Along (fun call state => callGood socket good call state = true)
      (List.replicate count .getch) state) :
    ReadsWhole socket whole Accounts delivered count state := by
  induction count generalizing delivered state with
  | zero =>
      refine ⟨[], state, rfl, ?_⟩
      rw [List.filterMap_nil, List.append_nil]
      exact ⟨before, all, ended⟩
  | succ count induction =>
      rcases step_getch keeps before along.1 with ⟨events, after, stepped, delivers, left, _⟩
      have part := (delivers.isPrefix keeps).length_le
      rw [all, List.length_append] at part
      have none : events.filterMap id = [] := List.eq_nil_of_length_eq_zero (by omega)
      have same : delivered ++ events.filterMap id = whole := by
        rw [none, List.append_nil, all]
      refine .cons stepped (induction delivers same ?_ (along.2 _ stepped))
      exact Nat.eq_zero_of_le_zero (left.trans ended.le)

theorem readsWhole (keeps : ReceiveKeeps socket whole Accounts good)
    (before : Delivers Accounts delivered state) {count : Nat}
    (enough : remaining socket state ≤ count)
    (along : (machine socket).Along (fun call state => callGood socket good call state = true)
      (List.replicate count .getch) state) :
    ReadsWhole socket whole Accounts delivered count state := by
  have ended (left : state.left socket = 0) (none : unread state.inFrames = []) :
      ReadsWhole socket whole Accounts delivered count state := by
    have all := keeps.ended before.accounts left
    rw [none, List.append_nil] at all
    exact readsWhole_of_ended keeps before all left along
  induction count generalizing delivered state with
  | zero =>
      rw [remaining] at enough
      exact ended (by omega) (List.eq_nil_of_length_eq_zero (by omega))
  | succ count induction =>
      by_cases more : state.left socket ≠ 0 ∨ unread state.inFrames ≠ []
      · rcases step_getch keeps before along.1 with ⟨events, after, stepped, delivers, _, fewer⟩
        have enough := Nat.le_of_lt_succ ((fewer more).trans_le enough)
        have later := along.2 _ stepped
        refine .cons stepped (induction delivers enough later fun left none => ?_)
        have all := keeps.ended delivers.accounts left
        rw [none, List.append_nil] at all
        exact readsWhole_of_ended keeps delivers all left later
      · rw [not_or, not_ne_iff, not_ne_iff] at more
        exact ended more.1 more.2

end Calls

end MqttClient.WebSocket
