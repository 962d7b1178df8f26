import MqttClient.KeyedList
import MqttClient.TypeDefine

/-! # `SocketBuffer`: the pending writes

The write side of `SocketBuffer.c`: for each socket at most one packet that the
socket has not accepted whole. The buffers of the packet are kept by value: what is
read through the pointers as long as nobody frees them.
-/

namespace MqttClient

/-- `pending_writes`. An `iovec` is the bytes it covers. -/
structure PendingWrites where
  socket : SOCKET
  total : Nat
  bytes : Nat
  iovecs : List (List UInt8)
  deriving DecidableEq, Repr

namespace PendingWrites

def count (write : PendingWrites) : Nat := write.iovecs.length

def packet (write : PendingWrites) : List UInt8 := write.iovecs.flatten

/-- `pw->bytes += bytes`. -/
def addBytes (bytes : Nat) (write : PendingWrites) : PendingWrites :=
  { write with bytes := write.bytes + bytes }

/-- `iovecs[2]` and `iovecs[3]` are moved to other memory; their lengths stay. -/
def redirect (topic payload : List UInt8) (write : PendingWrites) : PendingWrites :=
  if write.count = 4 then
    { write with
      iovecs := (write.iovecs.modify 2 fun old => topic.take old.length).modify 3
        fun old => payload.take old.length }
  else write

end PendingWrites

namespace SocketBuffer

open LinkedList

def pendingWrite (socket : SOCKET) (iovecs : List (List UInt8)) (total bytes : Nat)
    (writes : LinkedList PendingWrites) : LinkedList PendingWrites :=
  writes.append ⟨socket, total, bytes, iovecs⟩

def getWrite (socket : SOCKET) (writes : LinkedList PendingWrites) :
    Option (ListElement PendingWrites) × LinkedList PendingWrites :=
  writes.findItem (hasKey PendingWrites.socket socket)

/-- `SocketBuffer_writeComplete`: also whether there was anything to remove. -/
def writeComplete (socket : SOCKET) (writes : LinkedList PendingWrites) :
    Option (ListElement PendingWrites) × LinkedList PendingWrites :=
  writes.unlink (hasKey PendingWrites.socket socket)

def updateWrite (socket : SOCKET) (topic payload : List UInt8)
    (writes : LinkedList PendingWrites) : LinkedList PendingWrites :=
  match getWrite socket writes with
  | (some element, writes) => writes.update element.content (.redirect topic payload)
  | (none, writes) => writes

end SocketBuffer

end MqttClient
