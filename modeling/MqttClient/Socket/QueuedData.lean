import MqttClient.Foundation.Machine
import MqttClient.Socket.Reads

/-! # `Socket`: data kept between calls

Runs of `Socket_getdata` on any sockets, and when every buffer it returns holds what was
received from its socket since the last read that was completed.
-/

namespace MqttClient.Socket

open Foundation SocketBuffer

variable {β : Type}

/-! ## Calls -/

/-- A call of `Socket_getdata`, and the bytes that `recv` gave it. -/
structure DataCall (β : Type) where
  socket : SOCKET
  bytes : Nat
  received : List β
  result : Getdata β

/-- One call, for which the caller has set `actual_len` to zero. -/
def dataStep (call : SOCKET × Nat) (reads : SocketReads β) :
    Option (List (DataCall β) × SocketReads β) :=
  let (socket, bytes) := call
  let (result, after) := getdata socket bytes 0 reads
  let stream := (reads.inbound socket).bytes
  let received := stream.take (stream.length - (after.inbound socket).bytes.length)
  some ([⟨socket, bytes, received, result⟩], after)

def dataMachine : Machine (SocketReads β) (SOCKET × Nat) (DataCall β) := ⟨dataStep⟩

def DataCall.completes (call : DataCall β) : Bool :=
  match call.result with
  | .buffer _ actualLen => actualLen = call.bytes
  | _ => false

def pending (socket : SOCKET) (past : List (DataCall β)) : List β :=
  past.foldl (fun data call =>
    if call.socket ≠ socket then data
    else if call.completes then [] else data ++ call.received) []

/-- A buffer that is returned begins with the data that is pending and what was received now. -/
def Faithful (past : List (DataCall β)) (call : DataCall β) : Prop :=
  let data := pending call.socket past ++ call.received
  match call.result with
  | .buffer block actualLen => actualLen = data.length ∧ block.take actualLen = data.map some
  | .null => True
  | .undefined => False

def KeepsQueued (past : List (DataCall β)) (reads : SocketReads β) : Prop :=
  ∀ socket queue, reads.saved socket = some queue →
    queue.buf.take queue.datalen = (pending socket past).map some

def KeepsData (past : List (DataCall β)) (reads : SocketReads β) : Prop :=
  Machine.Always Faithful past ∧ KeepsQueued past reads

/-- While data is queued, no less than that is asked for, and no more than the length
that is recorded for the buffer. -/
def AsksWithin (call : SOCKET × Nat) (reads : SocketReads β) : Prop :=
  ∀ queue, reads.saved call.1 = some queue → 0 < queue.datalen →
    queue.datalen ≤ call.2 ∧ call.2 ≤ queue.buflen

theorem pending_append (socket : SOCKET) (past : List (DataCall β)) (call : DataCall β) :
    pending socket (past ++ [call]) =
      if call.socket ≠ socket then pending socket past
      else if call.completes then [] else pending socket past ++ call.received := by
  rw [pending, List.foldl_append]
  rfl

/-! ## Queues -/

structure QueueHolds (queue : SocketQueue β) (data : List β) : Prop where
  datalen : queue.datalen = data.length
  stored : queue.buf.take data.length = data.map some
  allocated : queue.buflen ≤ queue.buf.length

namespace QueueHolds

variable {queue : SocketQueue β} {data : List β}

theorem newDefQ : QueueHolds (.newDefQ : SocketQueue β) [] := ⟨rfl, rfl, Nat.zero_le _⟩

theorem reset (holds : QueueHolds queue data) : QueueHolds queue.reset [] :=
  ⟨rfl, rfl, holds.allocated⟩

theorem fits (holds : QueueHolds queue data) : data.length ≤ queue.buf.length := by
  have length := congrArg List.length holds.stored
  rw [List.length_take, List.length_map] at length
  omega

theorem enlarge (holds : QueueHolds queue data) {bytes : Nat}
    (within : data ≠ [] → bytes ≤ queue.buflen) :
    QueueHolds (queue.enlarge bytes) data ∧ bytes ≤ (queue.enlarge bytes).buf.length := by
  unfold SocketQueue.enlarge
  split
  · rename_i larger
    have none : data = [] := by
      by_contra some
      exact Nat.not_le_of_lt larger (within some)
    subst none
    have length : (SocketQueue.realloc bytes queue.buf).length = bytes := by
      rw [SocketQueue.realloc, List.length_append, List.length_take, List.length_replicate]
      omega
    rw [if_neg (by rw [holds.datalen]; exact Nat.lt_irrefl 0)]
    exact ⟨⟨holds.datalen, rfl, Nat.le_of_eq length.symm⟩, Nat.le_of_eq length.symm⟩
  · rename_i smaller
    have allocated := holds.allocated
    exact ⟨holds, by omega⟩

theorem receive (holds : QueueHolds queue data) (more : List β)
    (room : data.length + more.length ≤ queue.buf.length) :
    ((queue.receive data.length more).buf.take (data ++ more).length = (data ++ more).map some) ∧
      queue.buflen ≤ (queue.receive data.length more).buf.length := by
  have allocated := holds.allocated
  have front : (queue.receive data.length more).buf =
      (data ++ more).map some ++ queue.buf.drop (data.length + more.length) := by
    rw [SocketQueue.receive, holds.stored, List.map_append]
  rw [front]
  constructor
  · rw [← List.length_map some, List.take_left]
  · rw [List.length_append, List.length_map, List.length_append, List.length_drop]
    omega

end QueueHolds

/-! ## One call -/

/-- The queue in use, with room for what is asked for, and what `recv` gave behind the data. -/
def filled (bytes : Nat) (event : RecvEvent β) (queue : SocketQueue β) : SocketQueue β :=
  (queue.enlarge bytes).receive queue.datalen event.bytes

/-- How a call for at least one byte ends, by what `recv` gives it. -/
inductive Ends (socket : SOCKET) (bytes : Nat) (queue : SocketQueue β) (event : RecvEvent β)
    (reads : SocketReads β) : Getdata β × SocketReads β → Prop
  | whole {after : SocketReads β} (all : queue.datalen + event.bytes.length = bytes)
      (saved : after.saved = Function.update reads.saved socket none)
      (defQueue : after.defQueue = (filled bytes event queue).reset) :
      Ends socket bytes queue event reads (.buffer (filled bytes event queue).buf bytes, after)
  | part {after : SocketReads β} (some : queue.datalen + event.bytes.length ≠ bytes)
      (saved : after.saved = Function.update reads.saved socket
        (.some ({ filled bytes event queue with socket := socket }.rewind
          (queue.datalen + event.bytes.length))))
      (defQueue : after.defQueue = if reads.saved socket = none then .newDefQ
        else reads.defQueue) :
      Ends socket bytes queue event reads
        (.buffer (filled bytes event queue).buf (queue.datalen + event.bytes.length), after)
  | null {after : SocketReads β} (nothing : event.bytes = [])
      (current : after.buffer.Current socket (queue.enlarge bytes))
      (only : reads.buffer.OnlyAt socket after.buffer) :
      Ends socket bytes queue event reads (.null, after)

theorem receive_nil (queue : SocketQueue β) (offset : Nat) : queue.receive offset [] = queue := by
  rw [SocketQueue.receive, List.map_nil, List.append_nil, List.length_nil, Nat.add_zero,
    List.take_append_drop]

theorem ends_gotData {socket : SOCKET} {bytes : Nat} {queue : SocketQueue β}
    (event : RecvEvent β) {reads : SocketReads β} {buffer : SocketBuffer β}
    {found : Option (ListElement (SocketQueue β))} {inbound : SOCKET → RecvSource β}
    (points : buffer.Points socket (filled bytes event queue) found)
    (only : reads.buffer.OnlyAt socket buffer) :
    Ends socket bytes queue event reads
      (gotData socket bytes (queue.datalen + event.bytes.length) found ⟨buffer, inbound⟩) := by
  have elsewhere (value : Option (SocketQueue β)) :
      Function.update buffer.saved socket value = Function.update reads.saved socket value := by
    funext other
    by_cases same : other = socket
    · rw [same, Function.update_self, Function.update_self]
    · rw [Function.update_of_ne same, Function.update_of_ne same]
      exact only.others other same
  rw [gotData, block_of_points points]
  by_cases all : queue.datalen + event.bytes.length = bytes
  · rw [if_pos all, all]
    have ends := points.current.complete
    exact .whole all (ends.1.trans (elsewhere none)) ends.2
  · rw [if_neg all]
    have ends := points.current.interrupted (queue.datalen + event.bytes.length)
    refine .part all (ends.1.trans (elsewhere _)) (ends.2.trans ?_)
    by_cases absent : buffer.saved socket = none
    · have missing : reads.saved socket = none := only.presence.mp absent
      rw [if_pos absent, if_pos missing]
    · have present : reads.saved socket ≠ none := fun none => absent (only.presence.mpr none)
      rw [if_neg absent, if_neg present]
      exact only.defQueue present

theorem getdata_ends {socket : SOCKET} {bytes : Nat} {queue : SocketQueue β}
    {reads : SocketReads β} {event : RecvEvent β} {rest : RecvSource β}
    (current : reads.buffer.Current socket queue)
    (empty : reads.saved socket = none → queue.datalen = 0) (positive : bytes ≠ 0)
    (atLeast : queue.datalen ≤ bytes)
    (received : (reads.inbound socket).recv (bytes - queue.datalen) = (event, rest)) :
    Ends socket bytes queue event reads (getdata socket bytes 0 reads) ∧
      (getdata socket bytes 0 reads).2.inbound =
        Function.update reads.inbound socket rest := by
  rcases current.getQueuedData bytes empty with ⟨found, buffer, read, points, only⟩
  have scripted : (reads.withBuffer buffer).recv socket (bytes - queue.datalen) =
      (event, ⟨buffer, Function.update reads.inbound socket rest⟩) := by
    rw [SocketReads.recv]
    dsimp only [SocketReads.withBuffer]
    rw [received]
  rw [getdata, if_neg positive, read]
  dsimp only
  rw [if_neg (by omega), scripted]
  have waiting (nothing : event.bytes = []) : filled bytes event queue = queue.enlarge bytes := by
    rw [filled, nothing, receive_nil]
  cases event with
  | data data =>
      cases data with
      | nil => exact ⟨.null rfl points.current only, rfl⟩
      | cons c data =>
          rcases points.modifyFound (.receive queue.datalen (c :: data))
            (SocketQueue.socket_receive queue.datalen (c :: data)) with ⟨points, also⟩
          exact ⟨ends_gotData (.data (c :: data)) points (only.trans also), rfl⟩
  | wouldBlock =>
      rw [← waiting rfl] at points
      exact ⟨ends_gotData .wouldBlock points only, rfl⟩
  | endOfFile => exact ⟨.null rfl points.current only, rfl⟩
  | failed => exact ⟨.null rfl points.current only, rfl⟩

/-! ## Runs -/

structure HoldsPending (past : List (DataCall β)) (reads : SocketReads β) : Prop where
  faithful : Machine.Always Faithful past
  saved : ∀ socket queue, reads.saved socket = some queue →
    QueueHolds queue (pending socket past)
  absent : ∀ socket, reads.saved socket = none → pending socket past = []
  default : QueueHolds reads.defQueue []

theorem HoldsPending.start (inbound : SOCKET → RecvSource β) :
    HoldsPending [] ⟨.start, inbound⟩ where
  faithful := .nil
  saved _ _ found := nomatch found
  absent _ _ := rfl
  default := .newDefQ

theorem HoldsPending.keepsData {past : List (DataCall β)} {reads : SocketReads β}
    (holds : HoldsPending past reads) : KeepsData past reads := by
  refine ⟨holds.faithful, fun socket queue found => ?_⟩
  have here := holds.saved socket queue found
  rw [here.datalen]
  exact here.stored

theorem HoldsPending.current {past : List (DataCall β)} {reads : SocketReads β}
    (holds : HoldsPending past reads) (socket : SOCKET) :
    ∃ queue, reads.buffer.Current socket queue ∧ QueueHolds queue (pending socket past) ∧
      (reads.saved socket = none → queue.datalen = 0) ∧
      (pending socket past ≠ [] → reads.saved socket = some queue) := by
  cases found : reads.saved socket with
  | some queue =>
      exact ⟨queue, .saved found, holds.saved socket queue found, fun absent => (nomatch absent),
        fun _ => rfl⟩
  | none =>
      have nothing := holds.absent socket found
      refine ⟨reads.defQueue, .default found rfl, ?_, fun _ => holds.default.datalen,
        fun something => (something nothing).elim⟩
      rw [nothing]
      exact holds.default

theorem received_eq {source rest : List β} {data : List β} (split : source = data ++ rest) :
    source.take (source.length - rest.length) = data := by
  rw [split, List.length_append, Nat.add_sub_cancel, List.take_left]

theorem getdata_zero {socket : SOCKET} {queue : SocketQueue β} {reads : SocketReads β}
    (current : reads.buffer.Current socket queue) :
    ∃ after, getdata socket 0 0 reads = (.buffer queue.buf 0, after) ∧
      after.saved = Function.update reads.saved socket none ∧ after.defQueue = queue.reset ∧
      after.inbound = reads.inbound := by
  have ends := current.complete
  refine ⟨reads.withBuffer (reads.buffer.complete socket), ?_, ends.1, ends.2, rfl⟩
  rw [getdata, if_pos rfl]
  dsimp only
  rw [ends.2]
  rfl

variable {past : List (DataCall β)} {reads after : SocketReads β} {queue : SocketQueue β}

theorem dataStep_eq {socket : SOCKET} {bytes : Nat} {result : Getdata β}
    {event : RecvEvent β} {rest : RecvSource β} {count : Nat}
    (called : getdata socket bytes 0 reads = (result, after))
    (received : (reads.inbound socket).recv count = (event, rest))
    (inbound : after.inbound = Function.update reads.inbound socket rest) :
    dataStep (socket, bytes) reads = some ([⟨socket, bytes, event.bytes, result⟩], after) := by
  have same : after.inbound socket = rest := by rw [inbound, Function.update_self]
  rw [dataStep]
  dsimp only
  rw [called]
  dsimp only
  rw [same, received_eq (RecvSource.recv_bytes received).1]

theorem HoldsPending.append (holds : HoldsPending past reads) {call : DataCall β}
    (faithful : Faithful past call)
    (others : ∀ other, other ≠ call.socket → after.saved other = reads.saved other)
    (saved : ∀ queue, after.saved call.socket = some queue →
      QueueHolds queue (pending call.socket (past ++ [call])))
    (absent : after.saved call.socket = none → pending call.socket (past ++ [call]) = [])
    (default : QueueHolds after.defQueue []) : HoldsPending (past ++ [call]) after where
  faithful := holds.faithful.append fun before event behind split => by
    cases before with
    | nil =>
        rw [List.nil_append, List.cons.injEq] at split
        rw [List.append_nil, ← split.1]
        exact faithful
    | cons first before =>
        rw [List.cons_append, List.cons.injEq] at split
        exact absurd split.2 (by simp)
  saved socket queue found := by
    by_cases same : socket = call.socket
    · subst same
      exact saved queue found
    · rw [others socket same] at found
      rw [pending_append, if_pos (Ne.symm same)]
      exact holds.saved socket queue found
  absent socket missing := by
    by_cases same : socket = call.socket
    · subst same
      exact absent missing
    · rw [others socket same] at missing
      rw [pending_append, if_pos (Ne.symm same)]
      exact holds.absent socket missing
  default := default

/-- A call that completes leaves nothing queued for its socket. -/
theorem HoldsPending.complete (holds : HoldsPending past reads) {call : DataCall β}
    (faithful : Faithful past call) (completes : call.completes)
    (saved : after.saved = Function.update reads.saved call.socket none)
    (default : QueueHolds after.defQueue []) : HoldsPending (past ++ [call]) after := by
  refine holds.append faithful (fun other different => ?_) (fun other found => ?_) (fun _ => ?_)
    default
  · rw [saved, Function.update_of_ne different]
  · rw [saved, Function.update_self] at found
    cases found
  · rw [pending_append, if_neg (by simp), if_pos completes]

/-- A call that is interrupted leaves what it has received behind what was queued. -/
theorem HoldsPending.interrupt (holds : HoldsPending past reads) {call : DataCall β}
    (faithful : Faithful past call) (more : ¬call.completes)
    (saved : after.saved = Function.update reads.saved call.socket (some queue))
    (here : QueueHolds queue (pending call.socket past ++ call.received))
    (default : QueueHolds after.defQueue []) : HoldsPending (past ++ [call]) after := by
  refine holds.append faithful (fun other different => ?_) (fun other found => ?_)
    (fun absent => ?_) default
  · rw [saved, Function.update_of_ne different]
  · rw [saved, Function.update_self, Option.some.injEq] at found
    rwa [pending_append, if_neg (by simp), if_neg more, ← found]
  · rw [saved, Function.update_self] at absent
    cases absent

/-- A call that receives nothing leaves the data where it is. -/
theorem HoldsPending.wait (holds : HoldsPending past reads) {call : DataCall β}
    (null : call.result = .null) (nothing : call.received = [])
    (current : after.buffer.Current call.socket queue)
    (kept : QueueHolds queue (pending call.socket past))
    (only : reads.buffer.OnlyAt call.socket after.buffer) :
    HoldsPending (past ++ [call]) after := by
  have faithful : Faithful past call := by
    rw [Faithful, null]
    trivial
  have unchanged : pending call.socket (past ++ [call]) = pending call.socket past := by
    rw [pending_append, if_neg (by simp), if_neg (by simp [DataCall.completes, null]), nothing,
      List.append_nil]
  refine holds.append faithful only.others (fun other found => ?_) (fun absent => ?_) ?_
  · rw [unchanged]
    cases current with
    | saved same =>
        cases same.symm.trans found
        exact kept
    | default absent _ => cases absent.symm.trans found
  · rw [unchanged]
    exact holds.absent call.socket (only.presence.mp absent)
  · by_cases absent : reads.saved call.socket = none
    · cases current with
      | saved same =>
          rw [only.presence.mpr absent] at same
          cases same
      | default _ same =>
          rw [holds.absent call.socket absent] at kept
          rw [SocketReads.defQueue, same]
          exact kept
    · rw [SocketReads.defQueue, only.defQueue absent]
      exact holds.default

theorem dataStep_zero {socket : SOCKET} (current : reads.buffer.Current socket queue) :
    ∃ after, dataStep (socket, 0) reads =
        some ([⟨socket, 0, [], .buffer queue.buf 0⟩], after) ∧
      after.saved = Function.update reads.saved socket none ∧
      after.defQueue = queue.reset := by
  rcases getdata_zero current with ⟨after, called, saved, default, inbound⟩
  refine ⟨after, ?_, saved, default⟩
  rw [dataStep]
  dsimp only
  rw [called, inbound, Nat.sub_self, List.take_zero]

theorem HoldsPending.returned {socket : SOCKET} {bytes : Nat} {event : RecvEvent β}
    (here : QueueHolds queue (pending socket past))
    (within : pending socket past ≠ [] → bytes ≤ queue.buflen)
    (fits : queue.datalen + event.bytes.length ≤ bytes) :
    (filled bytes event queue).buf.take (queue.datalen + event.bytes.length) =
        (pending socket past ++ event.bytes).map some ∧
      (filled bytes event queue).buflen ≤ (filled bytes event queue).buf.length := by
  rcases here.enlarge within with ⟨enlarged, room⟩
  rw [here.datalen] at fits ⊢
  have stored := enlarged.receive event.bytes (by omega)
  rw [List.length_append] at stored
  rw [filled, here.datalen]
  exact stored

theorem HoldsPending.step (holds : HoldsPending past reads) {call : SOCKET × Nat}
    {events : List (DataCall β)} (asks : AsksWithin call reads)
    (stepped : dataStep call reads = some (events, after)) :
    HoldsPending (past ++ events) after := by
  rcases call with ⟨socket, bytes⟩
  rcases holds.current socket with ⟨queue, current, here, empty, present⟩
  have within (data : pending socket past ≠ []) : queue.datalen ≤ bytes ∧ bytes ≤ queue.buflen := by
    refine asks queue (present data) ?_
    rw [here.datalen]
    exact List.length_pos_of_ne_nil data
  have atLeast : queue.datalen ≤ bytes := by
    by_cases data : pending socket past = []
    · rw [here.datalen, data]
      exact Nat.zero_le _
    · exact (within data).1
  by_cases zero : bytes = 0
  · subst zero
    have nothing : pending socket past = [] := by
      rw [here.datalen, Nat.le_zero, List.length_eq_zero_iff] at atLeast
      exact atLeast
    rcases dataStep_zero current with ⟨final, called, saved, default⟩
    rw [called, Option.some.injEq, Prod.mk.injEq] at stepped
    rcases stepped with ⟨rfl, rfl⟩
    refine holds.complete ?_ rfl saved (by rw [default]; exact here.reset)
    exact ⟨by rw [nothing]; rfl, by rw [nothing]; rfl⟩
  · cases received : (reads.inbound socket).recv (bytes - queue.datalen) with
    | mk event rest =>
    rcases getdata_ends current empty zero atLeast received with ⟨ends, inbound⟩
    have fits : queue.datalen + event.bytes.length ≤ bytes := by
      have atMost := (RecvSource.recv_bytes received).2
      omega
    rcases HoldsPending.returned here (fun data => (within data).2) fits with ⟨stored, allocated⟩
    have length : queue.datalen + event.bytes.length =
        (pending socket past ++ event.bytes).length := by
      rw [here.datalen, List.length_append]
    rcases called : getdata socket bytes 0 reads with ⟨result, final⟩
    rw [called] at ends inbound
    rw [dataStep_eq called received inbound, Option.some.injEq, Prod.mk.injEq] at stepped
    rcases stepped with ⟨rfl, rfl⟩
    cases ends with
    | whole all saved default =>
        rw [all] at length stored
        refine holds.complete ⟨length, stored⟩ (by simp [DataCall.completes]) saved ?_
        rw [default]
        exact ⟨rfl, rfl, allocated⟩
    | part more saved default =>
        refine holds.interrupt ⟨length, stored⟩ (by simpa [DataCall.completes] using more) saved ?_ ?_
        · rw [length] at stored ⊢
          exact ⟨rfl, stored, allocated⟩
        · rw [default]
          split
          · exact .newDefQ
          · exact holds.default
    | null nothing current only =>
        exact holds.wait rfl nothing current (here.enlarge fun data => (within data).2).1 only

theorem head_enlarge {bytes : Nat} (some : 0 < queue.datalen) (larger : queue.buflen < bytes) :
    (queue.enlarge bytes).buf.head? = .some none ∧
      ∀ event, (filled bytes event queue).buf.head? = .some none := by
  have enlarged : (queue.enlarge bytes).buf = none :: List.replicate (bytes - 1) none := by
    rw [SocketQueue.enlarge, if_pos larger, if_pos some, ← List.replicate_succ]
    exact congrArg (List.replicate · none) (by omega)
  refine ⟨by rw [enlarged, List.head?_cons], fun event => ?_⟩
  rw [filled, SocketQueue.receive, enlarged]
  obtain ⟨fewer, count⟩ := Nat.exists_eq_add_of_lt some
  rw [count, Nat.zero_add, List.take_succ_cons, List.cons_append, List.cons_append, List.head?_cons]

theorem not_stored {block : List (Option β)} {data : List β} {count : Nat}
    (unwritten : block.head? = some none) (nonempty : data ≠ []) :
    block.take count ≠ data.map some := by
  intro stored
  rcases List.exists_cons_of_ne_nil nonempty with ⟨first, rest, rfl⟩
  cases block with
  | nil => cases unwritten
  | cons byte block =>
      cases count with
      | zero => cases stored
      | succ count =>
          rw [List.take_succ_cons, List.map_cons, List.cons.injEq] at stored
          rw [List.head?_cons, stored.1] at unwritten
          cases unwritten

theorem getdata_undefined {socket : SOCKET} {bytes : Nat}
    (found : reads.saved socket = some queue) (positive : bytes ≠ 0)
    (less : bytes < queue.datalen) :
    ∃ after, dataStep (socket, bytes) reads = some ([⟨socket, bytes, [], .undefined⟩], after) := by
  have current : reads.buffer.Current socket queue := .saved found
  rcases current.getQueuedData bytes (fun absent => nomatch found.symm.trans absent) with
    ⟨element, buffer, read, _⟩
  refine ⟨reads.withBuffer buffer, ?_⟩
  rw [dataStep]
  dsimp only
  rw [getdata, if_neg positive, read]
  dsimp only
  rw [if_pos less]
  dsimp only [SocketReads.withBuffer]
  rw [Nat.sub_self, List.take_zero]

theorem HoldsPending.broken (holds : HoldsPending past reads) {call : SOCKET × Nat}
    {events : List (DataCall β)} (asks : ¬AsksWithin call reads)
    (stepped : dataStep call reads = some (events, after)) :
    ¬KeepsData (past ++ events) after := by
  rcases call with ⟨socket, bytes⟩
  unfold AsksWithin at asks
  push Not at asks
  rcases asks with ⟨queue, found, some, outside⟩
  have here := holds.saved socket queue found
  have current : reads.buffer.Current socket queue := .saved found
  have nonempty : pending socket past ≠ [] := by
    rw [here.datalen] at some
    exact List.ne_nil_of_length_pos some
  have faithful {event : DataCall β} (always : Machine.Always Faithful (past ++ [event])) :
      Faithful past event := always past event [] rfl
  rintro ⟨always, keeps⟩
  by_cases zero : bytes = 0
  · subst zero
    rcases dataStep_zero current with ⟨final, called, saved, default⟩
    rw [called, Option.some.injEq, Prod.mk.injEq] at stepped
    rcases stepped with ⟨rfl, rfl⟩
    have length : 0 = (pending socket past ++ []).length := (faithful always).1
    rw [List.append_nil] at length
    exact nonempty (List.length_eq_zero_iff.mp length.symm)
  · rcases Nat.lt_or_ge bytes queue.datalen with less | atLeast
    · rcases getdata_undefined found zero less with ⟨final, called⟩
      rw [called, Option.some.injEq, Prod.mk.injEq] at stepped
      rcases stepped with ⟨rfl, rfl⟩
      exact faithful always
    · rcases head_enlarge some (outside atLeast) with ⟨unwritten, behind⟩
      cases received : (reads.inbound socket).recv (bytes - queue.datalen) with
      | mk event rest =>
      rcases getdata_ends current (fun absent => nomatch found.symm.trans absent) zero atLeast
        received with ⟨ends, inbound⟩
      rcases called : getdata socket bytes 0 reads with ⟨result, final⟩
      rw [called] at ends inbound
      rw [dataStep_eq called received inbound, Option.some.injEq, Prod.mk.injEq] at stepped
      rcases stepped with ⟨rfl, rfl⟩
      have some' : pending socket past ++ event.bytes ≠ [] :=
        List.append_ne_nil_of_left_ne_nil nonempty _
      cases ends with
      | whole all saved default => exact not_stored (behind event) some' (faithful always).2
      | part more saved default => exact not_stored (behind event) some' (faithful always).2
      | null nothing current only =>
          cases current with
          | default absent _ => exact nomatch found.symm.trans (only.presence.mp absent)
          | saved kept =>
              have stored := keeps socket _ kept
              rw [pending_append, if_neg (by simp), if_neg (by simp [DataCall.completes]), nothing,
                List.append_nil] at stored
              exact not_stored unwritten nonempty stored

/-- Every buffer that the calls of a run return holds what was received from its socket
since the last completed read, and every queue keeps it, exactly when every call asks
within what is queued and recorded. -/
theorem faithful_iff_asksWithin {inbound : SOCKET → RecvSource β} {calls : List (SOCKET × Nat)}
    {events : List (DataCall β)} {final : SocketReads β}
    (ran : dataMachine.run calls ⟨.start, inbound⟩ = some (events, final)) :
    dataMachine.Along AsksWithin calls ⟨.start, inbound⟩ ↔
      dataMachine.Throughout KeepsData calls ⟨.start, inbound⟩ :=
  Machine.along_iff_throughout HoldsPending (fun _ _ holds => holds.keepsData)
    (fun _ _ _ _ _ holds asks stepped => holds.step asks stepped)
    (fun _ _ _ _ _ holds asks stepped => holds.broken asks stepped) [] (.start inbound) ran

theorem faithful_iff_asksWithin_resumed : ∃ events final,
    dataMachine.run [(3, 2), (3, 2)] ⟨.start, fun _ => [.data [1], .data [2]]⟩ =
        some ((events, final) : List (DataCall Nat) × SocketReads Nat) ∧
      (dataMachine.Along AsksWithin [(3, 2), (3, 2)] ⟨.start, fun _ => [.data [1], .data [2]]⟩ ↔
        dataMachine.Throughout KeepsData [(3, 2), (3, 2)]
          ⟨.start, fun _ => [.data [1], .data [2]]⟩) := by
  cases ran : dataMachine.run [(3, 2), (3, 2)] ⟨.start, fun _ => [.data [1], .data [2]]⟩ with
  | none => exact nomatch ran
  | some reached => exact ⟨reached.1, reached.2, rfl, faithful_iff_asksWithin ran⟩

def DataCall.data (call : DataCall β) : List (Option β) :=
  match call.result with
  | .buffer block actualLen => block.take actualLen
  | _ => []

/-- Of a first byte that is kept when more is asked for, the buffer loses the value. -/
theorem not_faithful_larger : ∃ events final,
    dataMachine.run [(3, 2), (3, 3)] ⟨.start, fun _ => [.data [1], .data [2, 3]]⟩ =
        some ((events, final) : List (DataCall Nat) × SocketReads Nat) ∧
      ¬Machine.Always Faithful events := by
  have observed : (dataMachine.run [(3, 2), (3, 3)]
      ⟨.start, fun _ => [.data [1], .data [2, 3]]⟩).map (fun reached =>
        reached.1.map DataCall.data) = some [[some 1], [none, some 2, some 3]] := by
    decide +kernel
  rcases Option.map_eq_some_iff.mp observed with ⟨⟨events, final⟩, ran, returned⟩
  refine ⟨events, final, ran, fun always => ?_⟩
  match events, returned with
  | [first, second], returned =>
      have faithful : Faithful [first] second := always [first] second [] rfl
      have lost : second.data = [none, some 2, some 3] := by
        simp only [List.map_cons, List.map_nil, List.cons.injEq] at returned
        exact returned.2.1
      unfold DataCall.data at lost
      unfold Faithful at faithful
      split at lost
      · rename_i block actualLen returns
        rw [returns] at faithful
        have same := faithful.2.symm.trans lost
        have missing : none ∈ (pending second.socket [first] ++ second.received).map some := by
          rw [same]
          exact List.mem_cons_self ..
        simp at missing
      · cases lost

end MqttClient.Socket
