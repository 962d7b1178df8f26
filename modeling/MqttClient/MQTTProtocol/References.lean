import MqttClient.Foundation.ReferenceCount
import MqttClient.MQTTProtocol.Receiving

/-! # `MQTTProtocol`: the references to publications

What the functions of `MQTTProtocol.c` do to the reference counts of the publications, and
to the messages of a client, which refer to them.
-/

namespace MqttClient.MQTTProtocol

open Foundation LinkedList

def refcounts (publications : LinkedList Publications) (p : Nat) : Option Int :=
  (publications.find p).map fun element => element.value.refcount

def publishes (list : LinkedList Messages) : List Nat := list.values.map Messages.publish

def held (client : Clients) : List Nat :=
  publishes client.outboundMsgs ++ publishes client.inboundMsgs

section Publications

variable {publications after : LinkedList Publications} {p : Nat} {others : List Nat}

theorem refcounts_nextContent (publications : LinkedList Publications) :
    refcounts publications publications.nextContent = none := by
  rw [refcounts, Option.map_eq_none_iff]
  refine Option.eq_none_iff_forall_ne_some.mpr fun element here => ?_
  rcases find_eq_some_iff.mp here with ⟨member, content⟩
  exact Nat.ne_of_lt (publications.fresh element member) content

theorem refcounts_storePublication (publish : Publish) (publications : LinkedList Publications) :
    refcounts (storePublication publish publications).2 =
      Function.update (refcounts publications) publications.nextContent (some 1) := by
  funext p
  rw [storePublication, refcounts, find_append]
  by_cases here : p = publications.nextContent
  · subst here
    rw [if_pos rfl, Function.update_self]
    rfl
  · rw [if_neg here, Function.update_of_ne here]
    rfl

theorem counted_storePublication (publish : Publish)
    (counted : Counted (refcounts publications) others) :
    Counted (refcounts (storePublication publish publications).2)
      ((storePublication publish publications).1 :: others) := by
  rw [refcounts_storePublication]
  exact counted.create (refcounts_nextContent publications)

theorem refcounts_update {count : Int} (here : refcounts publications p = some count)
    (refcount : Int) :
    refcounts (publications.update p fun record => { record with refcount := refcount }) =
      Function.update (refcounts publications) p (some refcount) := by
  rcases Option.map_eq_some_iff.mp here with ⟨element, found, _⟩
  funext other
  rw [refcounts]
  by_cases same : other = p
  · subst same
    rw [find_update_self found, Function.update_self]
    rfl
  · rw [find_update_of_ne publications same, Function.update_of_ne same, refcounts]

theorem refcounts_remove (publications : LinkedList Publications) (p : Nat) :
    refcounts (publications.remove p).2 = Function.update (refcounts publications) p none := by
  funext other
  rw [refcounts, find_remove]
  by_cases same : other = p
  · rw [if_pos same, same, Function.update_self]
    rfl
  · rw [if_neg same, Function.update_of_ne same, refcounts]

theorem refcounts_removePublication (removed : removePublication p publications = some after) :
    refcounts after = release p (refcounts publications) := by
  unfold removePublication at removed
  split at removed
  · cases removed
  · rename_i element found
    have count : refcounts publications p = some element.value.refcount := by
      rw [refcounts, found]
      rfl
    have updated := refcounts_update count (element.value.refcount - 1)
    rw [release, count, Option.bind_some]
    dsimp only at removed
    split at removed
    · rename_i last
      cases removed
      rw [refcounts_remove, updated, Function.update_idem, if_pos last]
    · rename_i more
      cases removed
      rw [updated, if_neg more]

theorem removePublication_isSome {count : Int} (here : refcounts publications p = some count) :
    ∃ after, removePublication p publications = some after := by
  rcases Option.map_eq_some_iff.mp here with ⟨element, found, _⟩
  rw [removePublication, found]
  dsimp only
  split
  · exact ⟨_, rfl⟩
  · exact ⟨_, rfl⟩

theorem counted_removePublication (counted : Counted (refcounts publications) (p :: others)) :
    ∃ after, removePublication p publications = some after ∧
      Counted (refcounts after) others := by
  rcases removePublication_isSome (counted.of_mem List.mem_cons_self) with ⟨after, removed⟩
  refine ⟨after, removed, ?_⟩
  rw [refcounts_removePublication removed]
  exact counted.release

theorem counted_emptyMessageList (messages : List Messages)
    (counted : Counted (refcounts publications) (messages.map Messages.publish ++ others)) :
    ∃ after, emptyMessageList messages publications = some after ∧
      Counted (refcounts after) others := by
  induction messages generalizing publications with
  | nil => exact ⟨publications, rfl, counted⟩
  | cons m messages induction =>
      rcases counted_removePublication counted with ⟨middle, removed, counted⟩
      rcases induction counted with ⟨after, emptied, counted⟩
      exact ⟨after, by rw [emptyMessageList, removed, Option.bind_some, emptied], counted⟩

theorem counted_emptyMessageLists {client : Clients}
    (counted : Counted (refcounts publications) (held client ++ others)) :
    ∃ after, (emptyMessageList client.outboundMsgs.values publications).bind
        (emptyMessageList client.inboundMsgs.values) = some after ∧
      Counted (refcounts after) others := by
  rw [held, List.append_assoc] at counted
  rcases counted_emptyMessageList _ counted with ⟨middle, emptied, counted⟩
  rcases counted_emptyMessageList _ counted with ⟨after, emptiedToo, counted⟩
  exact ⟨after, by rw [emptied, Option.bind_some, emptiedToo], counted⟩

theorem counted_freeClient {client : Clients}
    (counted : Counted (refcounts publications) (held client ++ others))
    (freed : freeClient client publications = some after) : Counted (refcounts after) others := by
  rcases Option.ite_none_left_eq_some.mp freed with ⟨_, emptied⟩
  rcases counted_emptyMessageLists counted with ⟨final, same, counted⟩
  cases same.symm.trans emptied
  exact counted

end Publications

section Messages

variable {list : LinkedList Messages} {element : ListElement Messages}

theorem publishes_findItem (list : LinkedList Messages)
    (callback : ListElement Messages → Bool) :
    publishes (list.findItem callback).2 = publishes list := by
  rw [publishes, values_findItem, publishes]

theorem publishes_append (list : LinkedList Messages) (m : Messages) :
    (publishes (list.append m)).Perm (m.publish :: publishes list) := by
  rw [publishes, values_append, List.map_append]
  exact List.perm_append_singleton ..

theorem publishes_remove (member : element ∈ list.elements) :
    (publishes list).Perm (element.value.publish :: publishes (list.remove element.content).2) := by
  rw [remove_of_mem member]
  exact ((perm_detachElement member).map ListElement.value).map Messages.publish

theorem publishes_insertBefore (list : LinkedList Messages) (m : Messages) (index : Nat) :
    (publishes (list.insertBefore m index)).Perm (m.publish :: publishes list) :=
  ((perm_insertBefore list m index).map ListElement.value).map Messages.publish

end Messages

section Client

variable {before after : Library} {client : Nat} {others : List Nat}

theorem acknowledge_counted {msgId : Int}
    (counted : Counted (refcounts before.publications) (held (before.client client) ++ others))
    (handled : acknowledge msgId client before = some after) :
    Counted (refcounts after.publications) (held (after.client client) ++ others) ∧
      after.pendingWrites = before.pendingWrites := by
  unfold acknowledge at handled
  have searched := publishes_findItem (before.client client).outboundMsgs
    (hasKey Messages.msgid msgId)
  have elements := elements_findItem (before.client client).outboundMsgs
    (hasKey Messages.msgid msgId)
  have hit {element : ListElement Messages} (found : ((before.client client).outboundMsgs.findItem
      (hasKey Messages.msgid msgId)).1 = some element) := findItem_hasKey_eq_some found
  generalize (before.client client).outboundMsgs.findItem (hasKey Messages.msgid msgId) = found
    at handled searched elements hit
  rcases found with ⟨found, outboundMsgs⟩
  dsimp only at handled searched elements hit
  -- the list behind the search refers to the same publications
  have sets := Library.modifyClient_sets client
    (fun client => { client with outboundMsgs := outboundMsgs }) before
  have same : held { before.client client with outboundMsgs := outboundMsgs } =
      held (before.client client) :=
    congrArg (fun out => out ++ publishes (before.client client).inboundMsgs) searched
  cases found with
  | none =>
      cases handled
      refine ⟨?_, rfl⟩
      rw [sets.client_self, same]
      exact counted
  | some element =>
      dsimp only at handled
      by_cases notQos1 : element.value.qos ≠ 1
      · rw [if_pos notQos1] at handled
        cases handled
        refine ⟨?_, rfl⟩
        rw [sets.client_self, same]
        exact counted
      · rw [if_neg notQos1] at handled
        rcases Option.map_eq_some_iff.mp handled with ⟨publications, removed, written⟩
        have outbound : (after.client client).outboundMsgs =
            (outboundMsgs.remove element.content).2 := by
          rw [← written]
          simp [Library.modifyClient, Library.modify, Library.client]
        have inbound : (after.client client).inboundMsgs = (before.client client).inboundMsgs := by
          rw [← written]
          simp [Library.modifyClient, Library.modify, Library.client]
        have member : element ∈ outboundMsgs.elements := by
          rw [elements]
          exact (hit rfl).1
        rw [← same] at counted
        have moved := counted.perm
          (((publishes_remove member).append_right _).append_right others)
        rcases counted_removePublication moved with ⟨final, again, counted⟩
        cases again.symm.trans removed
        rw [held, outbound, inbound, ← written]
        exact ⟨counted, rfl⟩

theorem storeInbound_counted {publish : Publish}
    (counted : Counted (refcounts before.publications) (held (before.client client) ++ others))
    (stored : storeInbound publish client before = some after) :
    Counted (refcounts after.publications) (held (after.client client) ++ others) ∧
      after.pendingWrites = before.pendingWrites := by
  unfold storeInbound at stored
  have searched := publishes_findItem (before.client client).inboundMsgs
    (hasKey Messages.msgid publish.msgId)
  have elements := elements_findItem (before.client client).inboundMsgs
    (hasKey Messages.msgid publish.msgId)
  have hit {element : ListElement Messages} (found : ((before.client client).inboundMsgs.findItem
      (hasKey Messages.msgid publish.msgId)).1 = some element) := findItem_hasKey_eq_some found
  have created := counted_storePublication publish counted
  generalize storePublication publish before.publications = store at stored created
  dsimp only at stored
  generalize (before.client client).inboundMsgs.findItem
    (hasKey Messages.msgid publish.msgId) = found at stored searched elements hit
  rcases store with ⟨p, publications⟩
  rcases found with ⟨found, inboundMsgs⟩
  dsimp only at stored searched elements hit created
  rw [held, ← searched] at created
  cases found with
  | none =>
      have written := Option.some.inj stored
      have outbound : (after.client client).outboundMsgs = (before.client client).outboundMsgs := by
        rw [← written]
        simp [Library.modifyClient, Library.modify, Library.client]
      have inbound : (after.client client).inboundMsgs = inboundMsgs.append ⟨p, publish.msgId,
          publish.header.qos, publish.header.retain, publish.mqttVersion, .zero⟩ := by
        rw [← written]
        simp [Library.modifyClient, Library.modify, Library.client]
      have moved := created.perm (((publishes_append inboundMsgs ⟨p, publish.msgId,
        publish.header.qos, publish.header.retain, publish.mqttVersion, .zero⟩).append_left
          (publishes (before.client client).outboundMsgs)).trans
            List.perm_middle |>.append_right others).symm
      rw [held, outbound, inbound, ← written]
      exact ⟨moved, rfl⟩
  | some listElem =>
      rcases Option.map_eq_some_iff.mp stored with ⟨fewer, removed, written⟩
      have member : listElem ∈ inboundMsgs.elements := by
        rw [elements]
        exact (hit rfl).1
      generalize same : inboundMsgs.insertBefore ⟨p, publish.msgId, publish.header.qos,
        publish.header.retain, publish.mqttVersion, .zero⟩ listElem.content = inserted at written
      have outbound : (after.client client).outboundMsgs = (before.client client).outboundMsgs := by
        rw [← written]
        simp [Library.modifyClient, Library.modify, Library.client]
      have inbound : (after.client client).inboundMsgs =
          (inserted.remove listElem.content).2 := by
        rw [← written]
        simp [Library.modifyClient, Library.modify, Library.client]
      -- the new message is put in front of the old one, which is taken out
      have put : (publishes inserted).Perm (p :: publishes inboundMsgs) := by
        rw [← same]
        exact publishes_insertBefore ..
      have still : listElem ∈ inserted.elements := by
        rw [← same, (perm_insertBefore ..).mem_iff]
        exact List.mem_cons_of_mem _ member
      have swapped : (p :: (publishes (before.client client).outboundMsgs ++
          publishes inboundMsgs)).Perm (listElem.value.publish ::
            (publishes (before.client client).outboundMsgs ++
              publishes (inserted.remove listElem.content).2)) :=
        List.perm_middle.symm.trans (((put.symm.trans (publishes_remove still)).append_left
          _).trans List.perm_middle)
      have moved := created.perm (swapped.append_right others)
      rcases counted_removePublication moved with ⟨final, again, counted⟩
      cases again.symm.trans removed
      rw [held, outbound, inbound, ← written]
      exact ⟨counted, rfl⟩

def pending (library : Library) : List Nat := library.pendingWrites.values.map Prod.snd

def Tallied (m : Nat) (others : List Nat) (library : Library) : Prop :=
  Counted (refcounts library.publications) (held (library.client m) ++ (others ++ pending library))

theorem Tallied.of_same (tallied : Tallied client others before)
    (publications : after.publications = before.publications)
    (pendingWrites : after.pendingWrites = before.pendingWrites)
    (outbound : (after.client client).outboundMsgs.elements =
      (before.client client).outboundMsgs.elements)
    (inbound : (after.client client).inboundMsgs = (before.client client).inboundMsgs) :
    Tallied client others after := by
  have same : held (after.client client) = held (before.client client) := by
    rw [held, held, inbound, publishes, values, outbound]
    rfl
  rw [Tallied, publications, pending, pendingWrites, same]
  exact tallied

theorem acknowledge_tallied {msgId : Int} (tallied : Tallied client others before)
    (handled : acknowledge msgId client before = some after) : Tallied client others after := by
  rcases acknowledge_counted tallied handled with ⟨counted, pendingWrites⟩
  rwa [Tallied, pending, pendingWrites]

theorem acknowledge_isSome {others : List Nat} (tallied : Tallied client others before)
    (msgId : Int) : ∃ after, acknowledge msgId client before = some after := by
  unfold acknowledge
  dsimp only
  split
  · exact ⟨_, rfl⟩
  · rename_i element found
    split
    · exact ⟨_, rfl⟩
    · have member := (findItem_hasKey_eq_some found).1
      have here : element.value.publish ∈ held (before.client client) := by
        rw [held, List.mem_append]
        exact .inl (List.mem_map_of_mem (mem_values.mpr ⟨element, member, rfl⟩))
      have counted := tallied.of_mem (List.mem_append_left _ here)
      rcases removePublication_isSome counted with ⟨publications, removed⟩
      exact ⟨_, congrArg (Option.map _) removed⟩

theorem storeInbound_tallied {publish : Publish} (tallied : Tallied client others before)
    (stored : storeInbound publish client before = some after) : Tallied client others after := by
  rcases storeInbound_counted tallied stored with ⟨counted, pendingWrites⟩
  rwa [Tallied, pending, pendingWrites]

theorem processPublication_tallied (publish : Publish) (tallied : Tallied client others before) :
    Tallied client others (processPublication publish client before) :=
  have sets := processPublication_sets publish client before
  tallied.of_same rfl rfl (by rw [sets.client_self]; rfl) (by rw [sets.client_self]; rfl)

theorem queueAck_tallied (ackType : Nat) (msgId : Int) (tallied : Tallied client others before) :
    Tallied client others (queueAck client ackType msgId before) :=
  have sets := queueAck_sets client ackType msgId before
  tallied.of_same rfl rfl (by rw [sets.client_self]; rfl) (by rw [sets.client_self]; rfl)

theorem handleFound_tallied {publish : Publish} {sock : SOCKET} {rc : Int}
    (tallied : Tallied client others before)
    (handled : handleFound publish sock client before = some (rc, after)) :
    Tallied client others after := by
  unfold handleFound at handled
  split at handled
  · cases handled
    exact processPublication_tallied publish tallied
  · -- the pending writes of the socket are looked up first
    have looked : Tallied client others
        { before with writes := (Socket.noPendingWrites sock before.writes).2 } := tallied
    dsimp only at handled
    split at handled
    · have processed := processPublication_tallied publish looked
      split at handled
      · cases handled
        exact queueAck_tallied _ _ processed
      · cases handled
        exact processed
    · split at handled
      · rcases Option.map_eq_some_iff.mp handled with ⟨library, storing, same⟩
        have stored := storeInbound_tallied looked storing
        split at same
        · cases same
          exact queueAck_tallied _ _ stored
        · cases same
          exact stored
      · cases handled
        exact looked

theorem Tallied.of_searched (tallied : Tallied client others before)
    (searched : before.Searched after) : Tallied client others after :=
  tallied.of_same searched.publications searched.pendingWrites (by rw [searched.client])
    (by rw [searched.client])

end Client

section Packets

variable {before after : Library} {sock : SOCKET}

theorem handlePublishes_tallied {publish : Publish} {rc : Int}
    (handled : handlePublishes publish sock before = some (rc, after)) :
    ∃ client ∈ before.clients.values,
      (∀ other, other ≠ client → after.client other = before.client other) ∧
      ∀ others, Tallied client others before → Tallied client others after := by
  unfold handlePublishes at handled
  split at handled
  · cases handled
  · rename_i client library found
    rcases Library.findClient_eq_some found with ⟨member, owner, searched⟩
    rcases handleFound_spec handled with ⟨_, _, sets⟩
    refine ⟨client, member, fun other different => ?_, fun others tallied =>
      handleFound_tallied (tallied.of_searched searched) handled⟩
    rw [sets.client_of_ne different, searched.client]

theorem handlePubacks_tallied {msgId : Int} {client : Nat}
    (handled : handlePubacks msgId sock before = some (client, after)) {others : List Nat}
    (tallied : Tallied client others before) : Tallied client others after := by
  unfold handlePubacks at handled
  split at handled
  · cases handled
  · rename_i found library searching
    rcases Option.map_eq_some_iff.mp handled with ⟨final, acknowledged, same⟩
    cases same
    rcases Library.findClient_eq_some searching with ⟨_, _, searched⟩
    exact acknowledge_tallied (tallied.of_searched searched) acknowledged

end Packets

section Publish

variable {before after : Library} {m : Nat} {publish : Publish} {qos retained rc : Int}
  {others : List Nat}

theorem storeQoS0_tallied (publish : Publish) (tallied : Tallied m others before) :
    Tallied m others (storeQoS0 m publish before) := by
  have created := counted_storePublication publish tallied
  have moved : pending (storeQoS0 m publish before) =
      pending before ++ [(storePublication publish before.publications).1] := by
    rw [pending, storeQoS0]
    dsimp only
    rw [values_append, List.map_append]
    rfl
  rw [Tallied, moved]
  refine created.perm ?_
  rw [← List.append_assoc, ← List.append_assoc, ← List.append_assoc]
  exact (List.perm_append_singleton ..).symm

theorem startPublishCommon_tallied (tallied : Tallied m others before)
    (started : startPublishCommon m publish qos retained before = some (rc, after)) :
    Tallied m others after := by
  unfold startPublishCommon at started
  split at started
  · cases started
  · rename_i sent writes _
    have written : Tallied m others { before with writes := writes } := tallied
    dsimp only at started
    split at started
    · cases started
      exact storeQoS0_tallied publish written
    · cases started
      exact written

theorem withMessage_tallied (publish : Publish) (qos retained : Int)
    (tallied : Tallied m others before) :
    Tallied m others (withMessage m publish qos retained before) := by
  have created := counted_storePublication publish tallied
  have sets := withMessage_sets m publish qos retained before
  rw [Tallied, sets.client_self]
  refine created.perm ?_
  have appended := (publishes_append (before.client m).outboundMsgs
    (keptMessage publish qos retained before)).symm
  exact (appended.append_right (publishes (before.client m).inboundMsgs)).append_right
    (others ++ pending before)

theorem startPublish_tallied (tallied : Tallied m others before)
    (started : startPublish m publish qos retained before = some (rc, after)) :
    Tallied m others after := by
  unfold startPublish at started
  split at started
  · exact startPublishCommon_tallied (withMessage_tallied publish qos retained tallied) started
  · exact startPublishCommon_tallied tallied started

end Publish

end MqttClient.MQTTProtocol
