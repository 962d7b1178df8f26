import MqttClient.Socket.Reads
import MqttClient.Socket.Writes

/-! # `Socket`: the registry of sockets

`Socket_addSocket`, `Socket_close` and `Socket_getReadySocket`. A descriptor set is the
test for membership, and what `select` finds comes from outside.
-/

namespace MqttClient

/-- The part of `Sockets` that is not about writing, and the static `wset` beside it.
`curClientsds` is the address of a content in `clientsds`. -/
structure Sockets where
  connectPending : LinkedList SOCKET
  clientsds : LinkedList SOCKET
  curClientsds : Option Nat
  rset : SOCKET → Bool
  rsetSaved : SOCKET → Bool
  wset : SOCKET → Bool
  maxfdp1 : Int

structure SelectResult where
  rc : Int
  readable : SOCKET → Bool
  writable : SOCKET → Bool

def Sockets.start : Sockets where
  connectPending := .zero
  clientsds := .zero
  curClientsds := none
  rset := fun _ => false
  rsetSaved := fun _ => false
  wset := fun _ => false
  maxfdp1 := 0

abbrev fdSetSize : Nat := 1024

namespace Socket

open LinkedList

/-- `Socket_addSocket`. Setting a socket non-blocking succeeds. -/
def addSocket (newSd : SOCKET) (sockets : Sockets) : Int × Sockets :=
  match sockets.clientsds.findItem (hasKey id newSd) with
  | (some _, clientsds) => (0, { sockets with clientsds := clientsds })
  | (none, clientsds) =>
      if clientsds.count ≥ fdSetSize then (socketError, { sockets with clientsds := clientsds })
      else
        (0,
          { sockets with
            clientsds := clientsds.append newSd
            rsetSaved := Function.update sockets.rsetSaved newSd true
            maxfdp1 := max sockets.maxfdp1 (newSd + 1) })

def elementsFrom (content : Option Nat) (list : LinkedList SOCKET) : List (ListElement SOCKET) :=
  match content with
  | none => []
  | some content => list.elements.dropWhile fun element => element.content != content

/-- The part of `Socket_close` about the registry. -/
def closeRegistered (socket : SOCKET) (sockets : Sockets) : Int × Sockets :=
  let curClientsds :=
    match elementsFrom sockets.curClientsds sockets.clientsds with
    | [] => none
    | element :: later =>
        if element.value = socket then later.head?.map ListElement.content
        else some element.content
  let sockets :=
    { sockets with
      rsetSaved := Function.update sockets.rsetSaved socket false
      curClientsds := curClientsds
      connectPending := (sockets.connectPending.unlink (hasKey id socket)).2 }
  match sockets.clientsds.unlink (hasKey id socket) with
  | (none, clientsds) => (socketError, { sockets with clientsds := clientsds })
  | (some _, clientsds) =>
      (0,
        { sockets with
          clientsds := clientsds
          maxfdp1 :=
            if socket + 1 ≥ sockets.maxfdp1 then clientsds.values.foldl max 0 + 1
            else sockets.maxfdp1 })

/-- The part of `Socket_close` about pending writes. `Socket_abortWrite` searches the
pending writes, and frees buffers of the one that it finds. -/
def closeWrites (socket : SOCKET) (state : SocketWrites) : SocketWrites :=
  let writes := (SocketBuffer.getWrite socket state.writes).2
  { state with
    pendingWset := Function.update state.pendingWset socket false
    writes := (SocketBuffer.writeComplete socket writes).2
    writePending := (state.writePending.unlink (hasKey id socket)).2 }

/-- `Socket_close`, of a descriptor that is not in use any more behind it. -/
def close (socket : SOCKET) (sockets : Sockets) (reads : SocketReads UInt8)
    (writes : SocketWrites) : Int × Sockets × SocketReads UInt8 × SocketWrites :=
  let (rc, sockets) := closeRegistered socket sockets
  (rc, sockets, reads.withBuffer (reads.buffer.cleanup socket), closeWrites socket writes)

def isReady (socket : SOCKET) (sockets : Sockets) (writes : SocketWrites) :
    Bool × Sockets × SocketWrites :=
  let found := sockets.connectPending.findItem (hasKey id socket)
  let sockets := { sockets with connectPending := found.2 }
  if found.1.isSome ∧ sockets.wset socket then
    (true,
      { sockets with connectPending := (sockets.connectPending.unlink (hasKey id socket)).2 },
      writes)
  else if sockets.rset socket ∧ sockets.wset socket then
    let (noPending, writes) := noPendingWrites socket writes
    (noPending, sockets, writes)
  else (false, sockets, writes)

/-- The loops of `Socket_getReadySocket` over `clientsds`: the elements from the first
ready one on. -/
def findReady : List (ListElement SOCKET) → Sockets → SocketWrites →
    List (ListElement SOCKET) × Sockets × SocketWrites
  | [], sockets, writes => ([], sockets, writes)
  | element :: later, sockets, writes =>
      match isReady element.value sockets writes with
      | (true, sockets, writes) => (element :: later, sockets, writes)
      | (false, sockets, writes) => findReady later sockets writes

/-- The end of `Socket_getReadySocket`: the ready socket, and `cur_clientsds` behind it. -/
def takeReady (ready : List (ListElement SOCKET)) (sockets : Sockets) (writes : SocketWrites) :
    SOCKET × Int × Sockets × SocketWrites :=
  match ready with
  | [] => (0, 0, { sockets with curClientsds := none }, writes)
  | element :: later =>
      (element.value, 0,
        { sockets with curClientsds := later.head?.map ListElement.content }, writes)

theorem takeReady_writes (ready : List (ListElement SOCKET)) (sockets : Sockets)
    (writes : SocketWrites) : (takeReady ready sockets writes).2.2.2 = writes := by
  cases ready with
  | nil => rfl
  | cons element later => rfl

/-- The part of `Socket_getReadySocket` that asks `select`: for the sockets that can be
read and the pending writes that can go on, and for the sockets that can be written. -/
def selectReady (read write : SelectResult) (sockets : Sockets) (writes : SocketWrites) :
    Option (SOCKET × Int × Sockets × SocketWrites) :=
  if sockets.maxfdp1 = 0 then some (0, 0, { sockets with rset := sockets.rsetSaved }, writes)
  else if read.rc = socketError then
    some (0, socketError, { sockets with rset := sockets.rsetSaved }, writes)
  else
    let rset := fun socket => sockets.rsetSaved socket && read.readable socket
    let pwset := fun socket => writes.pendingWset socket && read.writable socket
    let sockets := { sockets with rset := rset }
    match continueWrites pwset 0 writes with
    | none => none
    | some (rc, sock, writes) =>
        if rc = socketError then some (sock, socketError, sockets, writes)
        else
          let wset := fun socket => sockets.rsetSaved socket && write.writable socket
          let sockets := { sockets with wset := wset }
          if write.rc = socketError then some (sock, write.rc, sockets, writes)
          else if read.rc = 0 ∧ write.rc = 0 then some (0, 0, sockets, writes)
          else
            let (ready, sockets, writes) :=
              findReady sockets.clientsds.elements sockets writes
            some (takeReady ready sockets writes)

/-- `Socket_getReadySocket`: the socket, the return code, and the state. `none` is a
pending write without its record. -/
def getReadySocket (read write : SelectResult) (sockets : Sockets) (writes : SocketWrites) :
    Option (SOCKET × Int × Sockets × SocketWrites) :=
  if sockets.clientsds.count = 0 then some (0, 0, sockets, writes)
  else
    let (ready, sockets, writes) :=
      findReady (elementsFrom sockets.curClientsds sockets.clientsds) sockets writes
    if ready.isEmpty then selectReady read write { sockets with curClientsds := none } writes
    else some (takeReady ready sockets writes)

end Socket

end MqttClient
