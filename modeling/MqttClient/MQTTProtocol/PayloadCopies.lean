import MqttClient.Foundation.BufferedHeap
import MqttClient.MQTTProtocol.InboundStore

/-! # `MQTTProtocol`: the payloads of the inbound store

The inbound store once more, with the payloads as `MQTTProtocol_handlePublishes` has them:
pointers, first into the buffer that the packet was read into, and then to a copy.
-/

namespace MqttClient.MQTTProtocol

open Foundation LinkedList

/-- `Publications`, with the pointer to the payload. -/
structure PointedPublications where
  topic : List UInt8
  payload : Pointer
  payloadlen : Int
  refcount : Int

/-- The inbound list of a client, `state.publications`, and the memory of the payloads. -/
structure InboundMemory where
  inboundMsgs : LinkedList Messages
  publications : LinkedList PointedPublications
  heap : BufferedHeap UInt8

/-- `MQTTProtocol_storePublication`, which takes over the pointer of the packet. -/
def storePublicationAt (publish : Publish) (payload : Pointer)
    (publications : LinkedList PointedPublications) : Nat × LinkedList PointedPublications :=
  (publications.nextContent,
    publications.append ⟨publish.topic, payload, publish.payloadlen, 1⟩)

/-- `MQTTProtocol_removePublication`, which frees the payload with the last reference. -/
def removePublicationAt (p : Nat) (publications : LinkedList PointedPublications)
    (heap : BufferedHeap UInt8) :
    Option (LinkedList PointedPublications × BufferedHeap UInt8) :=
  match publications.find p with
  | none => none
  | some element =>
      let refcount := element.value.refcount - 1
      let publications := publications.update p fun p => { p with refcount := refcount }
      if refcount = 0 then
        (heap.free element.value.payload).map fun heap => ((publications.remove p).2, heap)
      else some (publications, heap)

/-- The end of `MQTTProtocol_handlePublishes` for QoS 2: the payload is copied out of the
buffer. -/
def copyPayload (p : Nat) (state : InboundMemory) : Option InboundMemory :=
  (state.publications.find p).bind fun element =>
    (state.heap.read element.value.payloadlen.toNat element.value.payload).map fun temp =>
      let payload := state.heap.allocate temp
      { state with
        publications := state.publications.update p fun p => { p with payload := payload.1 }
        heap := payload.2 }

/-- The inbound store of `MQTTProtocol_handlePublishes`. -/
def storeInboundAt (publish : Publish) (payload : Pointer) (state : InboundMemory) :
    Option InboundMemory :=
  let (p, publications) := storePublicationAt publish payload state.publications
  let m : Messages := ⟨p, publish.msgId, publish.header.qos, publish.header.retain,
    publish.mqttVersion, .zero⟩
  let stored : Option InboundMemory :=
    match state.inboundMsgs.findItem (hasKey Messages.msgid m.msgid) with
    | (some listElem, inboundMsgs) =>
        (removePublicationAt listElem.value.publish publications state.heap).map fun removed =>
          let inboundMsgs := inboundMsgs.insertBefore m listElem.content
          ⟨(inboundMsgs.remove listElem.content).2, removed.1, removed.2⟩
    | (none, inboundMsgs) => some ⟨inboundMsgs.append m, publications, state.heap⟩
  stored.bind (copyPayload p)

/-! ## The records behind the pointers -/

structure Reads (heap : BufferedHeap UInt8) (pointed : ListElement PointedPublications)
    (record : ListElement Publications) : Prop where
  topic : pointed.value.topic = record.value.topic
  payload : heap.read record.value.payloadlen.toNat pointed.value.payload =
    some record.value.payload
  payloadlen : pointed.value.payloadlen = record.value.payloadlen
  refcount : pointed.value.refcount = record.value.refcount

/-- Records of publications with their payloads in the memory, no two of them in the same block. -/
structure Backed (heap : BufferedHeap UInt8) (pointed : LinkedList PointedPublications)
    (publications : LinkedList Publications) : Prop where
  next : pointed.nextContent = publications.nextContent
  records : ∀ p, Option.Rel (Reads heap) (pointed.find p) (publications.find p)
  apart : ∀ {p q first second address}, pointed.find p = some first →
    pointed.find q = some second → first.value.payload = .block address →
    second.value.payload = .block address → p = q

def Private (pointed : LinkedList PointedPublications) (p : Nat) : Prop :=
  ∀ element, pointed.find p = some element → ∃ address, element.value.payload = .block address

section Memory

variable {heap : BufferedHeap UInt8} {pointed : LinkedList PointedPublications}
  {publications after : LinkedList Publications} {p : Nat}

theorem Backed.reads (backed : Backed heap pointed publications)
    {element : ListElement PointedPublications} (found : pointed.find p = some element) :
    ∃ record, publications.find p = some record ∧ Reads heap element record := by
  have related := backed.records p
  rw [found] at related
  cases here : publications.find p with
  | none =>
      rw [here] at related
      cases related
  | some record =>
      rw [here] at related
      cases related with
      | some reads => exact ⟨record, rfl, reads⟩

theorem Backed.absent (backed : Backed heap pointed publications)
    (none : pointed.find p = none) : publications.find p = Option.none := by
  have related := backed.records p
  rw [none] at related
  cases here : publications.find p with
  | none => rfl
  | some record =>
      rw [here] at related
      cases related

theorem Backed.found (backed : Backed heap pointed publications)
    {record : ListElement Publications} (found : publications.find p = some record) :
    ∃ element, pointed.find p = some element ∧ Reads heap element record := by
  have related := backed.records p
  rw [found] at related
  cases here : pointed.find p with
  | none =>
      rw [here] at related
      cases related
  | some element =>
      rw [here] at related
      cases related with
      | some reads => exact ⟨element, rfl, reads⟩

theorem Backed.store {publish : Publish} {offset : Nat}
    (backed : Backed heap pointed publications)
    (lies : heap.read publish.payloadlen.toNat (.buffer offset) = some publish.payload) :
    Backed heap (storePublicationAt publish (.buffer offset) pointed).2
      (storePublication publish publications).2 where
  next := congrArg (· + 1) backed.next
  records p := by
    rw [storePublicationAt, storePublication, find_append, find_append, backed.next]
    split
    · exact .some ⟨rfl, lies, rfl, rfl⟩
    · exact backed.records p
  apart {p q first second address} here there firstBlock secondBlock := by
    have older {p : Nat} {element : ListElement PointedPublications}
        (found : (storePublicationAt publish (.buffer offset) pointed).2.find p = some element)
        (block : element.value.payload = .block address) : pointed.find p = some element := by
      rw [storePublicationAt, find_append] at found
      split at found
      · cases found
        cases block
      · exact found
    exact backed.apart (older here firstBlock) (older there secondBlock) firstBlock secondBlock

theorem Backed.remove {element : ListElement PointedPublications} {address : Nat}
    (backed : Backed heap pointed publications) (here : pointed.find p = some element)
    (block : element.value.payload = .block address) (count : element.value.refcount = 1)
    (next : after.nextContent = publications.nextContent)
    (find : ∀ q, after.find q = if q = p then none else publications.find q) :
    ∃ rest, removePublicationAt p pointed heap = some (rest, heap.without address) ∧
      (∀ q, rest.find q = if q = p then none else pointed.find q) ∧
      Backed (heap.without address) rest after := by
  rcases backed.reads here with ⟨record, _, reads⟩
  have one : element.value.refcount - 1 = 0 := by omega
  have lies := reads.payload
  rw [block] at lies
  have left (q : Nat) : ((pointed.update p fun p =>
      { p with refcount := element.value.refcount - 1 }).remove p).2.find q =
        if q = p then none else pointed.find q := find_remove_update ..
  refine ⟨_, ?_, left, ?_, fun q => ?_, ?_⟩
  · rw [removePublicationAt, here]
    dsimp only
    rw [if_pos one, block, BufferedHeap.free_block lies]
    rfl
  · rw [nextContent_remove, next, ← backed.next]
    rfl
  · rw [left, find]
    split
    · exact .none
    · rename_i different
      cases there : pointed.find q with
      | none =>
          rw [backed.absent there]
          exact .none
      | some other =>
          rcases backed.reads there with ⟨found, same, reads⟩
          rw [same]
          refine .some ⟨reads.topic, ?_, reads.payloadlen, reads.refcount⟩
          rw [BufferedHeap.read_without, reads.payload]
          exact fun shared => different (backed.apart there here shared block)
  · intro q r first second address one two firstBlock secondBlock
    rw [left] at one two
    split at one
    · cases one
    · split at two
      · cases two
      · exact backed.apart one two firstBlock secondBlock

theorem Backed.copy {element : ListElement PointedPublications} {inboundMsgs : LinkedList Messages}
    (backed : Backed heap pointed publications) (here : pointed.find p = some element) :
    ∃ state, copyPayload p ⟨inboundMsgs, pointed, heap⟩ = some state ∧
      state.inboundMsgs = inboundMsgs ∧ Backed state.heap state.publications publications ∧
      Private state.publications p ∧
      ∀ q, Private pointed q → Private state.publications q := by
  rcases backed.reads here with ⟨record, found, reads⟩
  have lies := reads.payload
  have size := BufferedHeap.length_of_read lies
  rw [← reads.payloadlen] at lies
  generalize allocated : heap.allocate record.value.payload = payload
  have self : (pointed.update p fun record => { record with payload := payload.1 }).find p =
      some ⟨p, { element.value with payload := payload.1 }⟩ := find_update_self here _
  have others {q : Nat} (different : q ≠ p) :
      (pointed.update p fun record => { record with payload := payload.1 }).find q =
        pointed.find q := find_update_of_ne pointed different _
  have kept {count : Nat} {pointer : Pointer} {bytes : List UInt8}
      (found : heap.read count pointer = some bytes) :
      payload.2.read count pointer = some bytes ∧ pointer ≠ payload.1 := by
    rw [← allocated]
    exact ⟨BufferedHeap.read_allocate found, BufferedHeap.allocate_ne found⟩
  have fresh : ∃ address, payload.1 = .block address := by
    rw [← allocated]
    exact ⟨_, rfl⟩
  refine ⟨⟨inboundMsgs, pointed.update p fun record => { record with payload := payload.1 },
    payload.2⟩, ?_, rfl, ⟨backed.next, fun q => ?_, ?_⟩, ?_, fun q whole element there => ?_⟩
  · rw [copyPayload]
    dsimp only
    rw [here, Option.bind_some, lies, Option.map_some, allocated]
  · by_cases same : q = p
    · rw [same, self, found]
      refine .some ⟨reads.topic, ?_, reads.payloadlen, reads.refcount⟩
      rw [← size, ← allocated]
      exact BufferedHeap.read_allocate_self ..
    · rw [others same]
      cases there : pointed.find q with
      | none =>
          rw [backed.absent there]
          exact .none
      | some other =>
          rcases backed.reads there with ⟨_, same, reads⟩
          rw [same]
          exact .some ⟨reads.topic, (kept reads.payload).1, reads.payloadlen, reads.refcount⟩
  · intro q r first second address one two firstBlock secondBlock
    dsimp only at one two
    have shared {q : Nat} {other : ListElement PointedPublications} (different : q ≠ p)
        (there : pointed.find q = some other) : other.value.payload ≠ payload.1 := by
      rcases backed.reads there with ⟨_, _, reads⟩
      exact (kept reads.payload).2
    by_cases qp : q = p
    · by_cases rp : r = p
      · rw [qp, rp]
      · rw [qp, self] at one
        rw [others rp] at two
        cases one
        exact absurd (secondBlock.trans firstBlock.symm) (shared rp two)
    · rw [others qp] at one
      by_cases rp : r = p
      · rw [rp, self] at two
        cases two
        exact absurd (firstBlock.trans secondBlock.symm) (shared qp one)
      · rw [others rp] at two
        exact backed.apart one two firstBlock secondBlock
  · intro other there
    rw [self] at there
    cases there
    exact fresh
  · by_cases same : q = p
    · dsimp only at there
      rw [same, self] at there
      cases there
      exact fresh
    · dsimp only at there
      rw [others same] at there
      exact whole element there

end Memory

/-! ## One packet, and many -/

/-- The inbound store behind some packets, with every payload in a block of its own. -/
structure Copied (received : List Inbound) (state : InboundMemory)
    (publications : LinkedList Publications) : Prop where
  backed : Backed state.heap state.publications publications
  stores : Stores received state.inboundMsgs publications
  single : Single publications
  whole : ∀ p, Private state.publications p

section Packets

variable {received : List Inbound} {state : InboundMemory}
  {publications : LinkedList Publications} {publish : Publish} {offset : Nat}

theorem find_storePublicationAt (publish : Publish) (payload : Pointer)
    (pointed : LinkedList PointedPublications) :
    (storePublicationAt publish payload pointed).2.find pointed.nextContent =
      some ⟨pointed.nextContent, ⟨publish.topic, payload, publish.payloadlen, 1⟩⟩ := by
  rw [storePublicationAt, find_append, if_pos rfl]

theorem private_storePublicationAt (publish : Publish) (payload : Pointer)
    {pointed : LinkedList PointedPublications}
    (whole : ∀ p, Private pointed p) {p : Nat} (old : p ≠ pointed.nextContent) :
    Private (storePublicationAt publish payload pointed).2 p := by
  intro element found
  rw [storePublicationAt, find_append, if_neg old] at found
  exact whole p element found

theorem Copied.stored (copied : Copied received state publications)
    (lies : state.heap.read publish.payloadlen.toNat (.buffer offset) = some publish.payload) :
    ∃ after stored, storeInboundAt publish (.buffer offset) state = some after ∧
      replaceMessage (Inbound.message ⟨publish, publications.nextContent⟩) state.inboundMsgs
        (storePublication publish publications).2 = some stored ∧
      after.inboundMsgs = stored.1 ∧
      Copied (received ++ [⟨publish, publications.nextContent⟩]) after stored.2 := by
  rcases copied with ⟨backed, stores, single, whole⟩
  rcases stores.replace single publish with ⟨stored, replaced, storesAfter, singleAfter⟩
  have created := backed.store lies
  have here := find_storePublicationAt publish (.buffer offset) state.publications
  have stays {p : Nat} (old : p ≠ state.publications.nextContent) :=
    private_storePublicationAt publish (.buffer offset) whole old
  have searched : ∃ pointed heap, Backed heap pointed stored.2 ∧
      pointed.find state.publications.nextContent = some ⟨state.publications.nextContent,
        ⟨publish.topic, .buffer offset, publish.payloadlen, 1⟩⟩ ∧
      (∀ p, p ≠ state.publications.nextContent → Private pointed p) ∧
      storeInboundAt publish (.buffer offset) state =
        copyPayload state.publications.nextContent ⟨stored.1, pointed, heap⟩ := by
    have hit {element : ListElement Messages} (found : (state.inboundMsgs.findItem
        (hasKey Messages.msgid publish.msgId)).1 = some element) :=
      findItem_hasKey_eq_some found
    rw [replaceMessage] at replaced
    change (match state.inboundMsgs.findItem (hasKey Messages.msgid publish.msgId) with
      | (some listElem, inboundMsgs) => _
      | (none, inboundMsgs) => _) = some stored at replaced
    rw [storeInboundAt]
    dsimp only
    rcases searched : state.inboundMsgs.findItem (hasKey Messages.msgid publish.msgId) with
      ⟨none | listElem, list⟩
    · rw [searched] at replaced
      cases replaced
      refine ⟨_, state.heap, created, here, fun p old => stays old, ?_⟩
      rw [← backed.next]
      rfl
    · rw [searched] at replaced hit
      rcases Option.map_eq_some_iff.mp replaced with ⟨fewer, removed, rfl⟩
      -- the message that is replaced, and its publication
      have member : listElem.value ∈ state.inboundMsgs.values :=
        List.mem_map_of_mem (hit rfl).1
      rw [stores.messages] at member
      rcases List.mem_map.mp member with ⟨old, oldMember, message⟩
      have address : listElem.value.publish = old.p := by
        rw [← message]
        rfl
      have older : old.p ≠ state.publications.nextContent := by
        rw [backed.next]
        exact Nat.ne_of_lt (stores.old old (mem_of_mem_gathered oldMember))
      have record := (spares_storePublication publish publications).kept old.p List.not_mem_nil _
        (stores.records old oldMember)
      rw [address] at removed
      rcases removePublication_eq record rfl with ⟨_, again, next, find⟩
      cases again.symm.trans removed
      rcases created.found record with ⟨element, found, reads⟩
      rcases stays older element found with ⟨block, place⟩
      rcases created.remove found place reads.refcount next find with
        ⟨rest, removedAt, restFind, backedAfter⟩
      refine ⟨rest, _, backedAfter, ?_, fun p other => ?_, ?_⟩
      · rw [restFind, if_neg (Ne.symm older), here]
      · intro element there
        rw [restFind] at there
        split at there
        · cases there
        · exact stays other element there
      · dsimp only
        rw [address, removedAt, ← backed.next]
        rfl
  rcases searched with ⟨pointed, heap, backed, found, others, same⟩
  rcases backed.copy found with ⟨after, copying, inboundMsgs, backed, own, kept⟩
  rw [same]
  refine ⟨after, stored, copying, replaced, inboundMsgs, backed, ?_, singleAfter, fun p => ?_⟩
  · rw [inboundMsgs]
    exact storesAfter
  · by_cases new : p = state.publications.nextContent
    · rw [new]
      exact own
    · exact kept p (others p new)

theorem Copied.start (heap : BufferedHeap UInt8) : Copied [] ⟨.zero, .zero, heap⟩ .zero where
  backed := ⟨rfl, fun _ => .none, fun none => absurd none (Option.some_ne_none _).symm⟩
  stores := .nil .zero
  single _ member := absurd member List.not_mem_nil
  whole _ _ none := absurd none (Option.some_ne_none _).symm

theorem Copied.refill (copied : Copied received state publications) (buffer : List UInt8) :
    Copied received { state with heap := state.heap.refill buffer } publications where
  backed := by
    refine ⟨copied.backed.next, fun p => ?_, copied.backed.apart⟩
    cases found : state.publications.find p with
    | none =>
        rw [copied.backed.absent found]
        exact .none
    | some element =>
        rcases copied.backed.reads found with ⟨_, same, reads⟩
        rcases copied.whole p element found with ⟨address, place⟩
        rw [same]
        refine .some ⟨reads.topic, ?_, reads.payloadlen, reads.refcount⟩
        rw [place, BufferedHeap.read_refill_block, ← place]
        exact reads.payload
  stores := copied.stores
  single := copied.single
  whole := copied.whole

/-- A PUBLISH packet of QoS 2, with the buffer that it was read into and the place of its
payload there. -/
structure BufferedPublish where
  buffer : List UInt8
  offset : Nat
  publish : Publish

/-- The bytes there are the payload of the packet. -/
def BufferedPublish.Lies (packet : BufferedPublish) : Prop :=
  packet.offset + packet.publish.payloadlen.toNat ≤ packet.buffer.length ∧
    packet.publish.payload =
      (packet.buffer.drop packet.offset).take packet.publish.payloadlen.toNat

def storeAllAt : List BufferedPublish → InboundMemory → Option InboundMemory
  | [], state => some state
  | packet :: packets, state =>
      (storeInboundAt packet.publish (.buffer packet.offset)
        { state with heap := state.heap.refill packet.buffer }).bind (storeAllAt packets)

theorem Copied.storeAll {packets : List BufferedPublish}
    (copied : Copied received state publications) (lie : ∀ packet ∈ packets, packet.Lies) :
    ∃ after final more, storeAllAt packets state = some after ∧
      more.map Inbound.publish = packets.map BufferedPublish.publish ∧
      Copied (received ++ more) after final := by
  induction packets generalizing received state publications with
  | nil => exact ⟨state, publications, [], rfl, rfl, by rwa [List.append_nil]⟩
  | cons packet packets induction =>
      rcases List.forall_mem_cons.mp lie with ⟨⟨inside, payload⟩, lie⟩
      have lies : (state.heap.refill packet.buffer).read packet.publish.payloadlen.toNat
          (.buffer packet.offset) = some packet.publish.payload := by
        rw [payload]
        exact if_pos inside
      rcases (copied.refill packet.buffer).stored lies with ⟨middle, stored, one, _, _, copied⟩
      rcases induction copied lie with ⟨after, final, more, all, publishes, copied⟩
      refine ⟨after, final, ⟨packet.publish, publications.nextContent⟩ :: more, ?_, ?_, ?_⟩
      · rw [storeAllAt, one, Option.bind_some, all]
      · rw [List.map_cons, List.map_cons, publishes]
      · rwa [List.append_assoc] at copied

end Packets

end MqttClient.MQTTProtocol
