import MqttClient.Socket.Rotation

/-! # The indices into the descriptor sets

A descriptor set has `FD_SETSIZE` bits. `Socket_addSocket` compares this bound with the number
of registered sockets, whereas the bits are found by descriptor: in a run the indices stay in
range as long as the descriptors do.
-/

namespace MqttClient

open LinkedList

namespace Socket

variable {sockets : Sockets} {writes : SocketWrites} {socket : SOCKET}

/-! ## Opening a connection -/

/-- `EINPROGRESS` and `EWOULDBLOCK`. -/
abbrev eInProgress : Int := 115
abbrev eWouldBlock : Int := 11

inductive AddressFamily
  | inet
  | inet6
  | other
  deriving DecidableEq

/-- What the operating system answers to `Socket_new`: the addresses, if the name has any; a new
descriptor, or an error; the `errno` of earlier calls, which is still there when the socket is
not registered; and the error of `connect`, if there is one. -/
structure NewAnswers where
  addresses : Option (List AddressFamily)
  socket : Except Int Nat
  errno : Int
  connect : Option Int

def preferredAddress : List AddressFamily → Option AddressFamily
  | [] => none
  | [family] => some family
  | family :: later => if family = .inet then some family else preferredAddress later

/-- The part of `Socket_new` from `Socket_addSocket` on to the pending connection. -/
def startConnect (answers : NewAnswers) (sock : SOCKET) (sockets : Sockets) : Int × Sockets :=
  let (added, sockets) := addSocket sock sockets
  if added = socketError then (answers.errno, sockets)
  else
    let rc := answers.connect.getD 0
    if rc = eInProgress ∨ rc = eWouldBlock then
      (rc, { sockets with connectPending := sockets.connectPending.append sock })
    else (rc, sockets)

/-- `Socket_new` closes the socket again. -/
def Unusable (rc : Int) : Prop := rc ≠ 0 ∧ rc ≠ eInProgress ∧ rc ≠ eWouldBlock

instance (rc : Int) : Decidable (Unusable rc) := inferInstanceAs (Decidable (_ ∧ _))

/-- `Socket_new`: the return code, the socket, and the state. -/
def new (answers : NewAnswers) (state : RegistryState) : Int × SOCKET × RegistryState :=
  match answers.addresses.bind preferredAddress with
  | none | some .other => (socketError, socketError, state)
  | some .inet | some .inet6 =>
      match answers.socket with
      | .error errno => (errno, socketError, state)
      | .ok sock =>
          let (rc, sockets) := startConnect answers sock state.sockets
          if Unusable rc then
            let (_, sockets, reads, writes) := close sock sockets state.reads state.writes
            (rc, socketError, ⟨sockets, reads, writes⟩)
          else (rc, sock, { state with sockets := sockets })

/-! ## The indices that are used -/

/-- `FD_SET` in `Socket_addSocket`. -/
def addSocketIndices (newSd : SOCKET) (sockets : Sockets) : List SOCKET :=
  match sockets.clientsds.findItem (hasKey id newSd) with
  | (some _, _) => []
  | (none, clientsds) => if clientsds.count ≥ fdSetSize then [] else [newSd]

/-- `FD_SET` in `Socket_putdatas`, which then returns `TCPSOCKET_INTERRUPTED`. -/
def putdatasIndices (socket : SOCKET) (buf0 : List UInt8) (bufs : PacketBuffers)
    (state : SocketWrites) : List SOCKET :=
  if (putdatas socket buf0 bufs state).1 = tcpsocketInterrupted then [socket] else []

/-- `FD_CLR`, `FD_ISSET` and perhaps another `FD_CLR` in `Socket_close`. -/
def closeIndices (socket : SOCKET) (state : SocketWrites) : List SOCKET :=
  socket :: socket :: if state.pendingWset socket then [socket] else []

/-- `FD_ISSET` in `isReady`, which leaves out what it need not know. -/
def isReadyIndices (socket : SOCKET) (sockets : Sockets) : List SOCKET :=
  let readable := socket :: if sockets.rset socket then [socket] else []
  if (sockets.connectPending.findItem (hasKey id socket)).1.isSome then
    socket :: if sockets.wset socket then [] else readable
  else readable

/-- The calls of `isReady` in the loops of `Socket_getReadySocket`. -/
def findReadyIndices : List (ListElement SOCKET) → Sockets → SocketWrites → List SOCKET
  | [], _, _ => []
  | element :: later, sockets, writes =>
      isReadyIndices element.value sockets ++
        match isReady element.value sockets writes with
        | (true, _, _) => []
        | (false, sockets, writes) => findReadyIndices later sockets writes

/-- `FD_ISSET` and `FD_CLR` in the loop of `Socket_continueWrites`. -/
def continueWritesIndices (pwset : SOCKET → Bool) (curpending : List (ListElement SOCKET))
    (state : SocketWrites) : List SOCKET :=
  match curpending with
  | [] => []
  | element :: later =>
      if pwset element.value then
        match _continued : continueWrite element.value state with
        | none => [element.value]
        | some (rc, after) =>
            if rc ≠ 0 then
              match _taken : after.writePending.remove element.content with
              | (none, _) => [element.value, element.value]
              | (some _, writePending) =>
                  element.value :: element.value :: continueWritesIndices pwset
                    (fromCurrent writePending) (removePending element.value writePending after)
            else element.value :: continueWritesIndices pwset later after
      else element.value :: continueWritesIndices pwset later state
termination_by state.writePending.elements.length * state.writePending.elements.length +
  curpending.length
decreasing_by
  · exact fewer_remaining _continued _taken
  · rw [writePending_continueWrite _continued]
    exact Nat.lt_succ_self _
  · exact Nat.lt_succ_self _

def selectReadyIndices (read write : SelectResult) (sockets : Sockets) (writes : SocketWrites) :
    List SOCKET :=
  if sockets.maxfdp1 = 0 ∨ read.rc = socketError then []
  else
    let pwset := fun socket => writes.pendingWset socket && read.writable socket
    continueWritesIndices pwset writes.writePending.elements writes ++
      match continueWrites pwset 0 writes with
      | none => []
      | some (rc, _, writes) =>
          if rc = socketError ∨ write.rc = socketError ∨ (read.rc = 0 ∧ write.rc = 0) then []
          else
            findReadyIndices sockets.clientsds.elements
              { sockets with
                rset := fun socket => sockets.rsetSaved socket && read.readable socket
                wset := fun socket => sockets.rsetSaved socket && write.writable socket }
              writes

def getReadySocketIndices (read write : SelectResult) (sockets : Sockets)
    (writes : SocketWrites) : List SOCKET :=
  if sockets.clientsds.count = 0 then []
  else
    let elements := elementsFrom sockets.curClientsds sockets.clientsds
    findReadyIndices elements sockets writes ++
      match findReady elements sockets writes with
      | ([], sockets, writes) =>
          selectReadyIndices read write { sockets with curClientsds := none } writes
      | (_ :: _, _, _) => []

def newIndices (answers : NewAnswers) (state : RegistryState) : List SOCKET :=
  match answers.addresses.bind preferredAddress with
  | none | some .other => []
  | some .inet | some .inet6 =>
      match answers.socket with
      | .error _ => []
      | .ok sock =>
          addSocketIndices sock state.sockets ++
            if Unusable (startConnect answers sock state.sockets).1 then
              closeIndices sock state.writes
            else []

/-! ## Which sockets are looked at -/

theorem isReadyIndices_eq (socket : SOCKET) (sockets : Sockets) :
    ∀ index ∈ isReadyIndices socket sockets, index = socket := by
  intro index member
  have readable : index ∈ socket :: (if sockets.rset socket then [socket] else []) →
      index = socket := by
    cases sockets.rset socket <;> simp
  rw [isReadyIndices] at member
  split at member
  · rcases List.mem_cons.mp member with same | later
    · exact same
    · split at later
      · cases later
      · exact readable later
  · exact readable member

theorem closeIndices_eq (socket : SOCKET) (writes : SocketWrites) :
    ∀ index ∈ closeIndices socket writes, index = socket := by
  rw [closeIndices]
  cases writes.pendingWset socket <;> simp

theorem addSocketIndices_eq (socket : SOCKET) (sockets : Sockets) :
    ∀ index ∈ addSocketIndices socket sockets, index = socket := by
  rw [addSocketIndices]
  split
  · exact nofun
  · split
    · exact nofun
    · exact fun index member => List.mem_singleton.mp member

theorem isReady_lists (socket : SOCKET) (sockets : Sockets) (writes : SocketWrites) :
    (isReady socket sockets writes).2.1.clientsds = sockets.clientsds ∧
      (isReady socket sockets writes).2.2.writePending.elements = writes.writePending.elements := by
  rw [isReady]
  dsimp only
  split
  · exact ⟨rfl, rfl⟩
  · split
    · exact ⟨rfl, elements_findItem ..⟩
    · exact ⟨rfl, rfl⟩

theorem findReady_lists (elements : List (ListElement SOCKET)) (sockets : Sockets)
    (writes : SocketWrites) :
    (findReady elements sockets writes).2.1.clientsds = sockets.clientsds ∧
      (findReady elements sockets writes).2.2.writePending.elements =
        writes.writePending.elements := by
  induction elements generalizing sockets writes with
  | nil => exact ⟨rfl, rfl⟩
  | cons element later induction =>
      have here := isReady_lists element.value sockets writes
      rw [findReady]
      split
      · rename_i asked
        rw [asked] at here
        exact here
      · rename_i asked
        rw [asked] at here
        rename_i after books
        have further := induction after books
        exact ⟨further.1.trans here.1, further.2.trans here.2⟩

theorem findReadyIndices_mem (elements : List (ListElement SOCKET)) (sockets : Sockets)
    (writes : SocketWrites) :
    ∀ index ∈ findReadyIndices elements sockets writes, ∃ element ∈ elements,
      element.value = index := by
  induction elements generalizing sockets writes with
  | nil => exact nofun
  | cons element later induction =>
      intro index member
      rw [findReadyIndices, List.mem_append] at member
      cases member with
      | inl here =>
          exact ⟨element, List.mem_cons_self, (isReadyIndices_eq _ _ _ here).symm⟩
      | inr further =>
          split at further
          · cases further
          · rcases induction _ _ index further with ⟨other, inside, same⟩
            exact ⟨other, List.mem_cons_of_mem _ inside, same⟩

theorem continueWritesIndices_mem (pwset : SOCKET → Bool)
    (curpending : List (ListElement SOCKET)) (state : SocketWrites) (Allowed : SOCKET → Prop)
    (rest : ∀ element ∈ curpending, Allowed element.value)
    (pending : ∀ element ∈ state.writePending.elements, Allowed element.value) :
    ∀ index ∈ continueWritesIndices pwset curpending state, Allowed index := by
  fun_induction continueWritesIndices pwset curpending state with
  | case1 state => exact nofun
  | case2 state element later writable called =>
      intro index member
      rw [List.mem_singleton.mp member]
      exact rest element List.mem_cons_self
  | case3 state element later writable rc after called finished _ removed =>
      intro index member
      have here := rest element List.mem_cons_self
      simp only [List.mem_cons, List.not_mem_nil, or_false, or_self] at member
      exact member ▸ here
  | case4 state element later writable rc after called finished removed writePending taken
      induction =>
      have found := remove_eq_some taken
      rw [writePending_continueWrite called] at found
      have kept : ∀ other ∈ writePending.elements, Allowed other.value := by
        intro other there
        rw [found.2.2] at there
        exact pending other (mem_detachElement.mp there).1
      have here := rest element List.mem_cons_self
      apply List.forall_mem_cons.mpr ⟨here, List.forall_mem_cons.mpr ⟨here, ?_⟩⟩
      apply induction
      · intro other there
        exact kept other (mem_of_fromCurrent there)
      · exact kept
  | case5 state element later writable rc after called unfinished induction =>
      apply List.forall_mem_cons.mpr ⟨rest element List.mem_cons_self, ?_⟩
      apply induction
      · intro other there
        exact rest other (List.mem_cons_of_mem _ there)
      · rw [writePending_continueWrite called]
        exact pending
  | case6 state element later waits induction =>
      apply List.forall_mem_cons.mpr ⟨rest element List.mem_cons_self, ?_⟩
      apply induction
      · intro other there
        exact rest other (List.mem_cons_of_mem _ there)
      · exact pending

section GetReadySocket

variable {Allowed : SOCKET → Prop} {read write : SelectResult}

theorem findReadyIndices_allowed {elements : List (ListElement SOCKET)}
    (allowed : ∀ element ∈ elements, Allowed element.value) :
    ∀ index ∈ findReadyIndices elements sockets writes, Allowed index := by
  intro index member
  rcases findReadyIndices_mem elements sockets writes index member with ⟨element, inside, same⟩
  rw [← same]
  exact allowed element inside

theorem selectReadyIndices_allowed
    (registered : ∀ element ∈ sockets.clientsds.elements, Allowed element.value)
    (pending : ∀ element ∈ writes.writePending.elements, Allowed element.value) :
    ∀ index ∈ selectReadyIndices read write sockets writes, Allowed index := by
  intro index member
  rw [selectReadyIndices] at member
  split at member
  · cases member
  · rw [List.mem_append] at member
    cases member with
    | inl continued =>
        exact continueWritesIndices_mem _ _ _ Allowed pending pending index continued
    | inr found =>
        split at found
        · cases found
        · split at found
          · cases found
          · exact findReadyIndices_allowed registered index found

theorem getReadySocketIndices_allowed
    (registered : ∀ element ∈ sockets.clientsds.elements, Allowed element.value)
    (pending : ∀ element ∈ writes.writePending.elements, Allowed element.value) :
    ∀ index ∈ getReadySocketIndices read write sockets writes, Allowed index := by
  intro index member
  rw [getReadySocketIndices] at member
  split at member
  · cases member
  · dsimp only at member
    rw [List.mem_append] at member
    cases member with
    | inl found =>
        apply findReadyIndices_allowed _ index found
        intro element inside
        exact registered element ((elementsFrom_suffix _ _).subset inside)
    | inr asked =>
        have lists := findReady_lists (elementsFrom sockets.curClientsds sockets.clientsds) sockets
          writes
        split at asked
        · rename_i found
          rw [found] at lists
          apply selectReadyIndices_allowed _ _ index asked
          · intro element inside
            apply registered
            rw [← lists.1]
            exact inside
          · intro element inside
            apply pending
            rw [← lists.2]
            exact inside
        · cases asked

end GetReadySocket

/-! ## Runs -/

/-- A call of the module. `Socket_addSocket` is called by `Socket_new` only. -/
inductive DescriptorCall
  | new (answers : NewAnswers)
  | close (socket : SOCKET)
  | getReadySocket (read write : SelectResult)
  | putdatas (socket : SOCKET) (buf0 : List UInt8) (bufs : PacketBuffers)

/-- The state of the module, and the descriptors that `Socket_new` has returned. -/
structure DescriptorState where
  registry : RegistryState
  opened : List SOCKET

def DescriptorState.start (reads : SocketReads UInt8) (outbound : SOCKET → List WritevEvent) :
    DescriptorState :=
  ⟨⟨.start, reads, .start outbound⟩, []⟩

/-- A step of the module. `none` is a call on a socket that `Socket_new` has not returned, or a
pending write without its record. -/
def stepDescriptors (state : DescriptorState) : DescriptorCall → Option DescriptorState
  | .new answers =>
      let (_, sock, registry) := new answers state.registry
      some ⟨registry, if sock = socketError then state.opened else sock :: state.opened⟩
  | .close socket =>
      if socket ∈ state.opened then
        (stepRegistry state.registry (.close socket)).map (⟨·, state.opened⟩)
      else none
  | .getReadySocket read write =>
      (stepRegistry state.registry (.getReadySocket read write)).map (⟨·, state.opened⟩)
  | .putdatas socket buf0 bufs =>
      if socket ∈ state.opened then
        (stepRegistry state.registry (.putdatas socket buf0 bufs)).map (⟨·, state.opened⟩)
      else none

def runDescriptors : List DescriptorCall → DescriptorState → Option DescriptorState
  | [], state => some state
  | call :: calls, state => (stepDescriptors state call).bind (runDescriptors calls)

def indices (state : RegistryState) : DescriptorCall → List SOCKET
  | .new answers => newIndices answers state
  | .close socket => closeIndices socket state.writes
  | .getReadySocket read write => getReadySocketIndices read write state.sockets state.writes
  | .putdatas socket buf0 bufs => putdatasIndices socket buf0 bufs state.writes

/-- A descriptor has its bit in a descriptor set. -/
def Fits (socket : SOCKET) : Prop := 0 ≤ socket ∧ socket < fdSetSize

/-- A descriptor without a bit makes `Socket_new` fail, and the registry stays as it is. -/
def Refuses (answers : NewAnswers) (state : RegistryState) : Prop :=
  ∀ sock, answers.socket = .ok sock → fdSetSize ≤ sock →
    (new answers state).1 ≠ 0 ∧
      (new answers state).2.2.sockets.clientsds.values = state.sockets.clientsds.values ∧
      (new answers state).2.2.sockets.rsetSaved = state.sockets.rsetSaved ∧
      (new answers state).2.2.sockets.maxfdp1 = state.sockets.maxfdp1

/-- A call stays inside the descriptor sets. -/
def Bounded (state : RegistryState) (call : DescriptorCall) : Prop :=
  (∀ index ∈ indices state call, Fits index) ∧
    match call with
    | .new answers => Refuses answers state
    | .close _ | .getReadySocket .. | .putdatas .. => True

def DescriptorCall.Fits : DescriptorCall → Prop
  | .new answers => ∀ sock, answers.socket = .ok sock → sock < fdSetSize
  | .close _ | .getReadySocket .. | .putdatas .. => True

/-! ## Pending writes -/

theorem continueWrites_pending {pwset : SOCKET → Bool} {sock reported : SOCKET} {rc : Int}
    {after : SocketWrites} (consistent : writes.Consistent)
    (ran : continueWrites pwset sock writes = some (rc, reported, after)) :
    ∀ socket ∈ after.writePending.values, socket ∈ writes.writePending.values := by
  rcases calls_total pwset consistent fun _ member => member with ⟨result, called⟩
  have same := continueWritesLoop_calls pwset 0 sock writes.writePending.elements writes
  rw [continueWrites] at ran
  rw [ran, called, Option.map_some, Option.map_some, Option.some.injEq] at same
  have left := calls_removes consistent (fun _ member => member) called
  intro socket member
  rw [values, show after = result.2 from same, left] at member
  exact (List.filter_sublist.map ListElement.value).subset member

theorem findReady_pending (elements : List (ListElement SOCKET)) (sockets : Sockets)
    (writes : SocketWrites) :
    (findReady elements sockets writes).2.2.writePending.values = writes.writePending.values :=
  congrArg (List.map ListElement.value) (findReady_lists elements sockets writes).2

theorem putdatas_pending (socket : SOCKET) (buf0 : List UInt8) (bufs : PacketBuffers)
    (writes : SocketWrites) :
    ∀ other ∈ (putdatas socket buf0 bufs writes).2.writePending.values,
      other = socket ∨ other ∈ writes.writePending.values := by
  have searched : (noPendingWrites socket writes).2.writePending.values =
      writes.writePending.values := values_findItem ..
  rw [← searched, putdatas]
  dsimp only
  split
  · exact fun other member => .inr member
  · have kept := writePending_writev socket (buf0 :: bufs.buffers) (noPendingWrites socket writes).2
    cases wrote : writev socket (buf0 :: bufs.buffers) (noPendingWrites socket writes).2 with
    | mk rc result =>
        rw [wrote] at kept
        rw [← kept]
        dsimp only
        split
        · split
          · exact fun other member => .inr member
          · intro other member
            change other ∈ (result.2.writePending.append socket).values at member
            rw [values_append, List.mem_append, List.mem_singleton] at member
            exact member.symm
        · exact fun other member => .inr member

theorem closeWrites_pending (socket : SOCKET) (writes : SocketWrites) :
    ∀ other ∈ (closeWrites socket writes).writePending.values,
      other ∈ writes.writePending.values := by
  intro other member
  change other ∈ (writes.writePending.unlink (hasKey id socket)).2.values at member
  cases found : (writes.writePending.findItem (hasKey id socket)).1 with
  | none =>
      rw [unlink_eq_none found] at member
      exact member
  | some element =>
      rw [unlink_eq_some found] at member
      rcases mem_values.mp member with ⟨kept, inside, same⟩
      exact mem_values.mpr ⟨kept, (mem_detachElement.mp inside).1, same⟩

theorem selectReady_pending {read write : SelectResult} (consistent : writes.Consistent)
    {called : SOCKET × Int × Sockets × SocketWrites}
    (ran : selectReady read write sockets writes = some called) :
    ∀ other ∈ called.2.2.2.writePending.values, other ∈ writes.writePending.values := by
  rw [selectReady] at ran
  split at ran
  · cases ran
    exact fun other member => member
  · split at ran
    · cases ran
      exact fun other member => member
    · dsimp only at ran
      split at ran
      · cases ran
      · rename_i continued
        have pending := continueWrites_pending consistent continued
        split at ran
        · cases ran
          exact pending
        · split at ran
          · cases ran
            exact pending
          · split at ran
            · cases ran
              exact pending
            · cases ran
              rw [takeReady_writes, findReady_pending]
              exact pending

theorem getReadySocket_pending {read write : SelectResult} (consistent : writes.Consistent)
    (flagged : writes.Flagged) {called : SOCKET × Int × Sockets × SocketWrites}
    (ran : getReadySocket read write sockets writes = some called) :
    ∀ other ∈ called.2.2.2.writePending.values, other ∈ writes.writePending.values := by
  rw [getReadySocket] at ran
  split at ran
  · cases ran
    exact fun other member => member
  · rcases findReady_spec (elementsFrom sockets.curClientsds sockets.clientsds) consistent flagged
      sockets with ⟨ready, after, books, found, -, -, searched, -⟩
    have same := findReady_pending (elementsFrom sockets.curClientsds sockets.clientsds) sockets
      writes
    rw [found] at same ran
    dsimp only at ran
    rw [← same]
    split at ran
    · exact selectReady_pending searched ran
    · cases ran
      rw [takeReady_writes]
      exact fun other member => member

/-! ## The invariant -/

structure Fitted (state : DescriptorState) : Prop where
  registered : state.registry.sockets.Registered
  consistent : state.registry.writes.Consistent
  flagged : state.registry.writes.Flagged
  pending : ∀ socket ∈ state.registry.writes.writePending.values, Fits socket
  opened : ∀ socket ∈ state.opened, Fits socket

theorem Fitted.start (reads : SocketReads UInt8) (outbound : SOCKET → List WritevEvent) :
    Fitted (.start reads outbound) where
  registered := registered_start
  consistent := .start outbound
  flagged _ := rfl
  pending := nofun
  opened := nofun

theorem Fitted.step {state : DescriptorState} (fitted : Fitted state) {call : RegistryCall}
    {after : RegistryState} (stepped : stepRegistry state.registry call = some after)
    (range : call.InRange)
    (pending : ∀ socket ∈ after.writes.writePending.values,
      Fits socket ∨ socket ∈ state.registry.writes.writePending.values) :
    Fitted ⟨after, state.opened⟩ := by
  rcases stepRegistry_spec fitted.registered fitted.consistent fitted.flagged call range with
    ⟨reached, called, registered, consistent, flagged⟩
  cases stepped.symm.trans called
  refine ⟨registered, consistent, flagged, ?_, fitted.opened⟩
  intro socket member
  cases pending socket member with
  | inl fits => exact fits
  | inr before => exact fitted.pending socket before

theorem startConnect_registered (registered : sockets.Registered) (answers : NewAnswers)
    (fits : Fits socket) : (startConnect answers socket sockets).2.Registered := by
  have added := addSocket_registered registered fits
  rw [startConnect]
  dsimp only
  split
  · exact added
  · split
    · exact Registered.of_eq added rfl rfl rfl added.current
    · exact added

theorem new_spec {state : RegistryState} (registered : state.sockets.Registered)
    (consistent : state.writes.Consistent) (flagged : state.writes.Flagged)
    (answers : NewAnswers) (fits : ∀ sock, answers.socket = .ok sock → sock < fdSetSize) :
    let called := new answers state
    called.2.2.sockets.Registered ∧ called.2.2.writes.Consistent ∧ called.2.2.writes.Flagged ∧
      (∀ socket ∈ called.2.2.writes.writePending.values,
        socket ∈ state.writes.writePending.values) ∧
      (called.2.1 ≠ socketError → Fits called.2.1) := by
  dsimp only
  rw [new]
  split
  · exact ⟨registered, consistent, flagged, fun _ => id, fun opened => absurd rfl opened⟩
  · exact ⟨registered, consistent, flagged, fun _ => id, fun opened => absurd rfl opened⟩
  all_goals
    split
    · exact ⟨registered, consistent, flagged, fun _ => id, fun opened => absurd rfl opened⟩
    · rename_i sock answered
      have bit : Fits sock := ⟨Int.natCast_nonneg sock, Int.ofNat_lt.mpr (fits sock answered)⟩
      have started := startConnect_registered registered answers bit
      dsimp only
      split
      · have books := closeWrites_spec consistent flagged sock
        exact ⟨closeRegistered_registered started sock, books.1, books.2,
          closeWrites_pending sock state.writes, fun opened => absurd rfl opened⟩
      · exact ⟨started, consistent, flagged, fun _ => id, fun _ => bit⟩

theorem Fitted.stepDescriptors {state after : DescriptorState} (fitted : Fitted state)
    {call : DescriptorCall} (fits : call.Fits)
    (stepped : Socket.stepDescriptors state call = some after) : Fitted after := by
  rw [Socket.stepDescriptors.eq_def] at stepped
  cases call with
  | new answers =>
      rcases new_spec fitted.registered fitted.consistent fitted.flagged answers fits with
        ⟨registered, consistent, flagged, pending, opened⟩
      have same : after = ⟨(Socket.new answers state.registry).2.2,
          if (Socket.new answers state.registry).2.1 = socketError then state.opened
          else (Socket.new answers state.registry).2.1 :: state.opened⟩ :=
        (Option.some.inj stepped).symm
      rw [same]
      refine ⟨registered, consistent, flagged, ?_, ?_⟩
      · exact fun socket member => fitted.pending socket (pending socket member)
      · intro socket member
        rw [DescriptorState.opened] at member
        split at member
        · exact fitted.opened socket member
        · rename_i returned
          cases List.mem_cons.mp member with
          | inl same => exact same ▸ opened returned
          | inr before => exact fitted.opened socket before
  | close socket =>
      dsimp only at stepped
      split at stepped
      · rename_i opened
        rcases Option.map_eq_some_iff.mp stepped with ⟨reached, called, same⟩
        cases same
        apply fitted.step called (fitted.opened socket opened)
        cases called
        exact fun other member => .inr (closeWrites_pending socket _ other member)
      · cases stepped
  | getReadySocket read write =>
      rcases Option.map_eq_some_iff.mp stepped with ⟨reached, called, same⟩
      cases same
      apply fitted.step called trivial
      rcases Option.map_eq_some_iff.mp called with ⟨result, ran, same⟩
      cases same
      have pending := getReadySocket_pending fitted.consistent fitted.flagged ran
      exact fun other member => .inr (pending other member)
  | putdatas socket buf0 bufs =>
      dsimp only at stepped
      split at stepped
      · rename_i opened
        rcases Option.map_eq_some_iff.mp stepped with ⟨reached, called, same⟩
        cases same
        apply fitted.step called trivial
        cases called
        intro other member
        cases putdatas_pending socket buf0 bufs _ other member with
        | inl same => exact .inl (same ▸ fitted.opened socket opened)
        | inr before => exact .inr before
      · cases stepped

theorem Fitted.runDescriptors {calls : List DescriptorCall} {state after : DescriptorState}
    (fitted : Fitted state) (fits : ∀ call ∈ calls, call.Fits)
    (ran : Socket.runDescriptors calls state = some after) : Fitted after := by
  induction calls generalizing state with
  | nil =>
      cases ran
      exact fitted
  | cons call calls induction =>
      rw [List.forall_mem_cons] at fits
      rcases Option.bind_eq_some_iff.mp ran with ⟨middle, stepped, further⟩
      exact induction (fitted.stepDescriptors fits.1 stepped) fits.2 further

theorem Fitted.bounded {state : DescriptorState} (fitted : Fitted state) {call : DescriptorCall}
    (fits : call.Fits) (made : (Socket.stepDescriptors state call).isSome) :
    Bounded state.registry call := by
  cases call with
  | new answers =>
      constructor
      · intro index member
        change index ∈ newIndices answers state.registry at member
        rw [newIndices] at member
        split at member
        · cases member
        · cases member
        all_goals
          split at member
          · cases member
          · rename_i sock answered
            have same : index = sock := by
              cases List.mem_append.mp member with
              | inl added => exact addSocketIndices_eq _ _ index added
              | inr closed =>
                  split at closed
                  · exact closeIndices_eq _ _ index closed
                  · cases closed
            rw [same]
            exact ⟨Int.natCast_nonneg sock, Int.ofNat_lt.mpr (fits sock answered)⟩
      · intro sock answered unfit
        exact absurd (fits sock answered) (Nat.not_lt.mpr unfit)
  | close socket =>
      refine ⟨?_, trivial⟩
      have opened : socket ∈ state.opened := by
        by_contra unopened
        rw [Socket.stepDescriptors, if_neg unopened] at made
        cases made
      intro index member
      rw [closeIndices_eq socket _ index member]
      exact fitted.opened socket opened
  | getReadySocket read write =>
      refine ⟨?_, trivial⟩
      apply getReadySocketIndices_allowed
      · intro element member
        exact fitted.registered.range _ (List.mem_map_of_mem member)
      · intro element member
        exact fitted.pending _ (List.mem_map_of_mem member)
  | putdatas socket buf0 bufs =>
      refine ⟨?_, trivial⟩
      have opened : socket ∈ state.opened := by
        by_contra unopened
        rw [Socket.stepDescriptors, if_neg unopened] at made
        cases made
      intro index member
      change index ∈ putdatasIndices socket buf0 bufs _ at member
      rw [putdatasIndices] at member
      split at member
      · rw [List.mem_singleton.mp member]
        exact fitted.opened socket opened
      · cases member

/-- In every run in which the operating system returns descriptors below `FD_SETSIZE`, every call
stays inside the descriptor sets. -/
theorem bounded_of_fits {calls : List DescriptorCall} {call : DescriptorCall}
    (fits : ∀ each ∈ calls ++ [call], each.Fits) {reads : SocketReads UInt8}
    {outbound : SOCKET → List WritevEvent} {state : DescriptorState}
    (ran : Socket.runDescriptors calls (.start reads outbound) = some state)
    (made : (Socket.stepDescriptors state call).isSome) : Bounded state.registry call := by
  rw [List.forall_mem_append] at fits
  have fitted := (Fitted.start reads outbound).runDescriptors fits.1 ran
  exact fitted.bounded (fits.2 call (List.mem_singleton_self call)) made

theorem not_bounded_of_unfit {state : DescriptorState} (fitted : Fitted state)
    (answers : NewAnswers) (found : answers.addresses.bind preferredAddress = some .inet)
    {sock : Nat} (answered : answers.socket = .ok sock) (unfit : fdSetSize ≤ sock)
    (room : state.registry.sockets.clientsds.count < fdSetSize) :
    ¬ Bounded state.registry (.new answers) := by
  intro bounded
  have absent : (state.registry.sockets.clientsds.findItem
      (hasKey id (sock : SOCKET))).1 = none := by
    apply (findItem_socket _ _).mpr
    intro member
    exact absurd (fitted.registered.range _ member).2 (Int.not_lt.mpr (Int.ofNat_le.mpr unfit))
  have added : (sock : SOCKET) ∈ newIndices answers state.registry := by
    rw [newIndices, found, answered]
    apply List.mem_append_left
    have counted : (state.registry.sockets.clientsds.findItem
        (hasKey id (sock : SOCKET))).2.count < fdSetSize := by
      rw [count, elements_findItem]
      exact room
    rw [addSocketIndices]
    split
    · rename_i same
      rw [same] at absent
      cases absent
    · rename_i same
      rw [same] at counted
      rw [if_neg (Nat.not_le.mpr counted)]
      exact List.mem_singleton_self _
  exact absurd (bounded.1 _ added).2 (Int.not_lt.mpr (Int.ofNat_le.mpr unfit))

def cutShort : List DescriptorCall :=
  [.new ⟨some [.inet6, .inet], .ok 5, 0, some eInProgress⟩,
    .putdatas 5 [0xc0, 0] ⟨[], Nat.zero_le 4⟩]

/-- Socket 5, whose write has been cut short, is read, written and asked for in one call. -/
theorem bounded_of_fits_five : ∃ state,
    runDescriptors cutShort (.start ⟨.start, fun _ => []⟩ fun _ => [.accept 1, .accept 1]) =
      some state ∧
    indices state.registry (.getReadySocket ⟨2, fun _ => true, fun _ => true⟩
      ⟨1, fun _ => false, fun _ => true⟩) = [5, 5, 5] ∧
    Bounded state.registry (.getReadySocket ⟨2, fun _ => true, fun _ => true⟩
      ⟨1, fun _ => false, fun _ => true⟩) := by
  have observed : (runDescriptors cutShort
      (.start ⟨.start, fun _ => []⟩ fun _ => [.accept 1, .accept 1])).map
        (fun state => indices state.registry (.getReadySocket ⟨2, fun _ => true, fun _ => true⟩
          ⟨1, fun _ => false, fun _ => true⟩)) = some [5, 5, 5] := by decide +kernel
  have made : (runDescriptors cutShort
      (.start ⟨.start, fun _ => []⟩ fun _ => [.accept 1, .accept 1])).map
        (fun state => (stepDescriptors state (.getReadySocket ⟨2, fun _ => true, fun _ => true⟩
          ⟨1, fun _ => false, fun _ => true⟩)).isSome) = some true := by decide +kernel
  rcases Option.map_eq_some_iff.mp observed with ⟨state, ran, used⟩
  rw [ran, Option.map_some, Option.some.injEq] at made
  refine ⟨state, ran, used, bounded_of_fits ?_ ran made⟩
  simp [cutShort, DescriptorCall.Fits, fdSetSize]

/-- The operating system returns descriptor 1024 for the first socket. -/
theorem not_bounded_first : ¬ ∀ calls call reads outbound state,
    runDescriptors calls (.start reads outbound) = some state →
    (stepDescriptors state call).isSome → Bounded state.registry call := by
  intro all
  have started : Fitted (.start ⟨.start, fun _ => []⟩ fun _ => []) := .start _ _
  apply not_bounded_of_unfit started ⟨some [.inet], .ok 1024, 0, some eInProgress⟩ rfl rfl
    (Nat.le_refl _) (by decide)
  exact all [] _ _ _ _ rfl rfl

end Socket

end MqttClient
