import MqttClient.Foundation.ReceiveSource
import MqttClient.SocketBuffer.CurrentQueue

/-! # `Socket`: reading

`Socket_getch` and `Socket_getdata` over the read queues and the receive scripts
of the sockets.
-/

namespace MqttClient

open Foundation

/-- The read queues, and what `recv` will do on each socket. -/
structure SocketReads (β : Type) where
  buffer : SocketBuffer β
  inbound : SOCKET → RecvSource β

namespace SocketReads

variable {β : Type}

def saved (reads : SocketReads β) : SOCKET → Option (SocketQueue β) := reads.buffer.saved

def defQueue (reads : SocketReads β) : SocketQueue β := reads.buffer.defQueue

def withBuffer (reads : SocketReads β) (buffer : SocketBuffer β) : SocketReads β :=
  { reads with buffer := buffer }

def recv (socket : SOCKET) (count : Nat) (reads : SocketReads β) :
    RecvEvent β × SocketReads β :=
  let result := (reads.inbound socket).recv count
  (result.1, { reads with inbound := Function.update reads.inbound socket result.2 })

end SocketReads

/-- What `Socket_getdata` returns: a block and how much of it is data, or NULL.
A queue that holds more than is asked for makes it receive behind the block. -/
inductive Getdata (β : Type)
  | buffer (block : List (Option β)) (actualLen : Nat)
  | null
  | undefined

namespace Socket

variable {β : Type}

def getch (socket : SOCKET) (reads : SocketReads β) : Except Int β × SocketReads β :=
  match reads.buffer.getQueuedChar socket with
  | (.ok c, buffer) => (.ok c, reads.withBuffer buffer)
  | (.error rc, buffer) =>
      if rc ≠ tcpsocketInterrupted then (.error rc, reads.withBuffer buffer)
      else
        match (reads.withBuffer buffer).recv socket 1 with
        | (.data (c :: _), reads) =>
            (.ok c, reads.withBuffer (reads.buffer.queueChar socket c))
        | (.wouldBlock, reads) =>
            (.error tcpsocketInterrupted,
              reads.withBuffer (reads.buffer.interrupted socket 0))
        | (.data [], reads) => (.error socketError, reads)
        | (.endOfFile, reads) => (.error socketError, reads)
        | (.failed, reads) => (.error socketError, reads)

def block (found : Option (ListElement (SocketQueue β))) (buffer : SocketBuffer β) :
    List (Option β) :=
  match found with
  | some element =>
      ((buffer.queues.find element.content).map fun stored => stored.value.buf).getD []
  | none => buffer.defQueue.buf

theorem block_of_points {socket : SOCKET} {queue : SocketQueue β} {buffer : SocketBuffer β}
    {found : Option (ListElement (SocketQueue β))}
    (points : buffer.Points socket queue found) : block found buffer = queue.buf := by
  cases points with
  | @saved element stored found member address value =>
      rw [block, ← address, LinkedList.find_eq_some_iff.mpr ⟨member, rfl⟩, ← value]
      rfl
  | default absent same => rw [block, same]

/-- The end of `Socket_getdata`, with `actualLen` bytes in the queue. -/
def gotData (socket : SOCKET) (bytes actualLen : Nat)
    (found : Option (ListElement (SocketQueue β))) (reads : SocketReads β) :
    Getdata β × SocketReads β :=
  (.buffer (block found reads.buffer) actualLen,
    reads.withBuffer
      (if actualLen = bytes then reads.buffer.complete socket
        else reads.buffer.interrupted socket actualLen))

def getdata (socket : SOCKET) (bytes actualLen : Nat) (reads : SocketReads β) :
    Getdata β × SocketReads β :=
  if bytes = 0 then
    let buffer := reads.buffer.complete socket
    (.buffer buffer.defQueue.buf actualLen, reads.withBuffer buffer)
  else
    let (found, actualLen, buffer) := reads.buffer.getQueuedData socket bytes
    let reads := reads.withBuffer buffer
    if actualLen > bytes then (.undefined, reads)
    else
      match reads.recv socket (bytes - actualLen) with
      | (.wouldBlock, reads) => gotData socket bytes actualLen found reads
      | (.data (c :: data), reads) =>
          gotData socket bytes (actualLen + (c :: data).length) found
            (reads.withBuffer (reads.buffer.modifyFound found (.receive actualLen (c :: data))
              (SocketQueue.socket_receive actualLen (c :: data))))
      | (.data [], reads) => (.null, reads)
      | (.endOfFile, reads) => (.null, reads)
      | (.failed, reads) => (.null, reads)

/-! ## Only the socket that is read from is received from -/

variable {socket other : SOCKET}

theorem inbound_recv (reads : SocketReads β) (count : Nat) (different : other ≠ socket) :
    (reads.recv socket count).2.inbound other = reads.inbound other :=
  Function.update_of_ne different ..

theorem inbound_getch (reads : SocketReads β) (different : other ≠ socket) :
    (getch socket reads).2.inbound other = reads.inbound other := by
  unfold getch
  split
  · rfl
  · rename_i rc buffer _
    have received := inbound_recv (reads.withBuffer buffer) 1 different
    split
    · rfl
    · split
      all_goals
        rename_i answered
        rw [answered] at received
        exact received

theorem inbound_getdata (bytes actualLen : Nat) (reads : SocketReads β)
    (different : other ≠ socket) :
    (getdata socket bytes actualLen reads).2.inbound other = reads.inbound other := by
  unfold getdata
  split
  · rfl
  · dsimp only
    split
    · rfl
    · have received := inbound_recv
        (reads.withBuffer (reads.buffer.getQueuedData socket bytes).2.2)
        (bytes - (reads.buffer.getQueuedData socket bytes).2.1) different
      split
      all_goals
        rename_i answered
        rw [answered] at received
        exact received

end Socket

end MqttClient
