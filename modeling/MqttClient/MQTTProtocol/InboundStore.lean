import MqttClient.Foundation.LatestByKey
import MqttClient.MQTTProtocol.References

/-! # `MQTTProtocol`: the inbound store

The messages of QoS 2 that `MQTTProtocol_handlePublishes` keeps for a client: one for each
message id, with the publication of the latest packet.
-/

namespace MqttClient.LinkedList

open Foundation

variable {α κ : Type} [DecidableEq κ] {key : α → κ} {list : LinkedList α}

private theorem map_filter_insertAt {added element : ListElement α}
    (fresh : added.content ≠ element.content)
    (same : key added.value = key element.value) : ∀ {elements : List (ListElement α)},
      (elements.map ListElement.content).Nodup → ((elements.map ListElement.value).map key).Nodup →
      element ∈ elements →
      ((insertAt element.content added elements).filter fun other =>
        other.content != element.content).map ListElement.value =
      upsert key added.value (elements.map ListElement.value)
  | [], _, _, member => nomatch member
  | other :: rest, contents, keys, member => by
      rw [List.map_cons] at contents
      rw [List.map_cons, List.map_cons] at keys
      have contentParts := List.nodup_cons.mp contents
      have keyParts := List.nodup_cons.mp keys
      rw [insertAt, List.map_cons, upsert]
      by_cases here : other.content = element.content
      · have this : other = element := by
          rcases List.mem_cons.mp member with equal | later
          · exact equal.symm
          · exact absurd (List.mem_map_of_mem later) (here ▸ contentParts.1)
        subst this
        have others : (rest.filter fun next => next.content != other.content) = rest :=
          List.filter_eq_self.mpr fun next later => by
            simp only [bne_iff_ne, ne_eq]
            exact fun equal => contentParts.1 (equal ▸ List.mem_map_of_mem later)
        rw [if_pos rfl, if_pos same.symm, List.filter_cons_of_pos (by simpa using fresh),
          List.filter_cons_of_neg (by simp), others, List.map_cons]
      · have later : element ∈ rest := by
          rcases List.mem_cons.mp member with rfl | later
          · exact absurd rfl here
          · exact later
        have different : key other.value ≠ key added.value := fun equal =>
          keyParts.1 (equal.trans same ▸ List.mem_map_of_mem (List.mem_map_of_mem later))
        rw [if_neg here, if_neg different, List.filter_cons_of_pos (by simpa using here),
          List.map_cons, map_filter_insertAt fresh same contentParts.2 keyParts.2 later]

theorem Distinct.values_replace (distinct : list.Distinct key) {element : ListElement α}
    (member : element ∈ list.elements) {value : α} (same : key value = key element.value) :
    ((list.insertBefore value element.content).remove element.content).2.values =
      upsert key value list.values := by
  have fresh : list.nextContent ≠ element.content := Ne.symm (Nat.ne_of_lt (list.fresh _ member))
  have still : element ∈ (list.insertBefore value element.content).elements :=
    (perm_insertBefore list value element.content).mem_iff.mpr (List.mem_cons_of_mem _ member)
  rw [remove_of_mem still, values, elements_detachElement, insertBefore,
    dif_pos (List.mem_map_of_mem member)]
  exact map_filter_insertAt fresh same list.nodup distinct
    member

end MqttClient.LinkedList

namespace MqttClient.MQTTProtocol

open Foundation LinkedList

/-- A PUBLISH packet of QoS 2, and the address of the publication that is made of it. -/
structure Inbound where
  publish : Publish
  p : Nat

namespace Inbound

def msgid (inbound : Inbound) : Int := inbound.publish.msgId

def message (inbound : Inbound) : Messages :=
  ⟨inbound.p, inbound.publish.msgId, inbound.publish.header.qos, inbound.publish.header.retain,
    inbound.publish.mqttVersion, .zero⟩

def record (inbound : Inbound) : Publications :=
  ⟨inbound.publish.topic, inbound.publish.payload, inbound.publish.payloadlen, 1⟩

end Inbound

/-! ## The publications -/

section Publications

variable {publications before middle after : LinkedList Publications} {p : Nat}
  {given : List Nat}

def Single (publications : LinkedList Publications) : Prop :=
  ∀ element ∈ publications.elements, element.value.refcount = 1

structure Spares (given : List Nat) (before after : LinkedList Publications) : Prop where
  kept : ∀ p, p ∉ given → ∀ element, before.find p = some element → after.find p = some element
  gone : ∀ p, p < before.nextContent → before.find p = none → after.find p = none
  next : before.nextContent ≤ after.nextContent
  single : Single before → Single after

theorem Spares.refl (given : List Nat) (publications : LinkedList Publications) :
    Spares given publications publications :=
  ⟨fun _ _ _ found => found, fun _ _ none => none, le_rfl, id⟩

theorem Spares.trans (first : Spares given before middle) (second : Spares given middle after) :
    Spares given before after where
  kept p spared element found := second.kept p spared element (first.kept p spared element found)
  gone p old none := second.gone p (old.trans_le first.next) (first.gone p old none)
  next := first.next.trans second.next
  single single := second.single (first.single single)

theorem Spares.mono {more : List Nat} (spares : Spares given before after)
    (subset : given ⊆ more) : Spares more before after :=
  ⟨fun p spared => spares.kept p fun member => spared (subset member), spares.gone, spares.next,
    spares.single⟩

theorem lt_nextContent_of_find {element : ListElement Publications}
    (found : publications.find p = some element) : p < publications.nextContent := by
  rcases find_eq_some_iff.mp found with ⟨member, rfl⟩
  exact publications.fresh element member

theorem spares_storePublication (publish : Publish) (publications : LinkedList Publications) :
    Spares [] publications (storePublication publish publications).2 where
  kept p _ element found := by
    rw [storePublication, find_append, if_neg (Nat.ne_of_lt (lt_nextContent_of_find found))]
    exact found
  gone p old none := by
    rw [storePublication, find_append, if_neg (Nat.ne_of_lt old)]
    exact none
  next := Nat.le_succ _
  single single element member := by
    rw [storePublication, elements_append] at member
    rcases List.mem_append.mp member with member | member
    · exact single element member
    · rw [List.mem_singleton.mp member]

theorem find_storePublication (publish : Publish) (publications : LinkedList Publications) :
    (storePublication publish publications).2.find publications.nextContent =
      some ⟨publications.nextContent,
        ⟨publish.topic, publish.payload, publish.payloadlen, 1⟩⟩ := by
  rw [storePublication, find_append, if_pos rfl]

theorem removePublication_eq {element : ListElement Publications}
    (found : publications.find p = some element) (count : element.value.refcount = 1) :
    ∃ after, removePublication p publications = some after ∧
      after.nextContent = publications.nextContent ∧
      (∀ q, after.find q = if q = p then none else publications.find q) := by
  have one : element.value.refcount - 1 = 0 := by omega
  rw [removePublication, found]
  dsimp only
  rw [if_pos one]
  refine ⟨_, rfl, ?_, fun q => find_remove_update ..⟩
  rw [nextContent_remove]
  rfl

theorem single_of_find (single : ∀ p element, publications.find p = some element →
    element.value.refcount = 1) : Single publications :=
  fun element member => single element.content element (find_eq_some_iff.mpr ⟨member, rfl⟩)

theorem Single.find (single : Single publications) {element : ListElement Publications}
    (found : publications.find p = some element) : element.value.refcount = 1 :=
  single element (find_eq_some_iff.mp found).1

theorem spares_removePublication (single : Single publications)
    (removed : removePublication p publications = some after) :
    Spares [p] publications after ∧ after.find p = none := by
  cases found : publications.find p with
  | none =>
      rw [removePublication, found] at removed
      cases removed
  | some element =>
      rcases removePublication_eq found (single.find found) with ⟨_, same, next, find⟩
      cases same.symm.trans removed
      refine ⟨⟨fun q spared other there => ?_, fun q _ none => ?_, next.ge, fun _ => ?_⟩, ?_⟩
      · rw [find, if_neg (fun same => spared (List.mem_singleton.mpr same)), there]
      · rw [find, none, ite_self]
      · refine single_of_find fun q other there => ?_
        rw [find] at there
        split at there
        · cases there
        · exact single.find there
      · rw [find, if_pos rfl]

theorem spares_emptyMessageList (messages : List Messages) (single : Single publications)
    (emptied : emptyMessageList messages publications = some after) :
    Spares (messages.map Messages.publish) publications after := by
  induction messages generalizing publications with
  | nil =>
      cases emptied
      exact .refl _ _
  | cons m messages induction =>
      rw [emptyMessageList] at emptied
      rcases Option.bind_eq_some_iff.mp emptied with ⟨middle, removed, emptied⟩
      have first := (spares_removePublication single removed).1
      exact (first.mono (by simp)).trans ((induction (first.single single) emptied).mono (by simp))

end Publications

/-! ## The messages of a client -/

section Messages

variable {inboundMsgs : LinkedList Messages} {publications before after : LinkedList Publications}
  {received : List Inbound}

structure Stores (received : List Inbound) (inboundMsgs : LinkedList Messages)
    (publications : LinkedList Publications) : Prop where
  messages : inboundMsgs.values = (gathered Inbound.msgid received).map Inbound.message
  records : ∀ inbound ∈ gathered Inbound.msgid received,
    publications.find inbound.p = some ⟨inbound.p, inbound.record⟩
  superseded : ∀ inbound ∈ received, inbound ∉ gathered Inbound.msgid received →
    publications.find inbound.p = none
  addresses : (received.map Inbound.p).Nodup
  old : ∀ inbound ∈ received, inbound.p < publications.nextContent

theorem Stores.nil (publications : LinkedList Publications) : Stores [] .zero publications where
  messages := rfl
  records _ member := absurd member List.not_mem_nil
  superseded _ member := absurd member List.not_mem_nil
  addresses := List.nodup_nil
  old _ member := absurd member List.not_mem_nil

theorem Stores.publishes (stores : Stores received inboundMsgs publications) :
    publishes inboundMsgs = (gathered Inbound.msgid received).map Inbound.p := by
  rw [MQTTProtocol.publishes, stores.messages, List.map_map]
  rfl

theorem Stores.distinct (stores : Stores received inboundMsgs publications) :
    inboundMsgs.Distinct Messages.msgid := by
  rw [Distinct, stores.messages, List.map_map]
  exact nodup_gathered Inbound.msgid received

theorem Stores.msgids (stores : Stores received inboundMsgs publications) :
    inboundMsgs.values.map Messages.msgid = (received.map Inbound.msgid).eraseDups := by
  rw [← map_key_gathered, stores.messages, List.map_map]
  rfl

theorem Stores.latest (stores : Stores received inboundMsgs publications) {message : Messages}
    (member : message ∈ inboundMsgs.values) :
    ∃ inbound, Foundation.latest Inbound.msgid message.msgid received = some inbound ∧
      message = inbound.message ∧
      publications.find inbound.p = some ⟨inbound.p, inbound.record⟩ := by
  rw [stores.messages] at member
  rcases List.mem_map.mp member with ⟨inbound, kept, rfl⟩
  exact ⟨inbound, mem_gathered.mp kept, rfl, stores.records inbound kept⟩

theorem Stores.gone (stores : Stores received inboundMsgs publications) {inbound : Inbound}
    (member : inbound ∈ received)
    (later : Foundation.latest Inbound.msgid inbound.msgid received ≠ some inbound) :
    publications.find inbound.p = none :=
  stores.superseded inbound member fun kept => later (mem_gathered.mp kept)

theorem Stores.spares {given : List Nat} {other : LinkedList Messages}
    (stores : Stores received inboundMsgs before) (spares : Spares given before after)
    (apart : ∀ p ∈ MQTTProtocol.publishes inboundMsgs, p ∉ given)
    (same : other.values = inboundMsgs.values) : Stores received other after where
  messages := same.trans stores.messages
  records inbound member := by
    refine spares.kept _ (apart _ ?_) _ (stores.records inbound member)
    rw [stores.publishes]
    exact List.mem_map_of_mem member
  superseded inbound member gone :=
    spares.gone _ (stores.old inbound member) (stores.superseded inbound member gone)
  addresses := stores.addresses
  old inbound member := (stores.old inbound member).trans_le spares.next

def replaceMessage (m : Messages) (inboundMsgs : LinkedList Messages)
    (publications : LinkedList Publications) :
    Option (LinkedList Messages × LinkedList Publications) :=
  match inboundMsgs.findItem (hasKey Messages.msgid m.msgid) with
  | (some listElem, inboundMsgs) =>
      (removePublication listElem.value.publish publications).map fun publications =>
        (((inboundMsgs.insertBefore m listElem.content).remove listElem.content).2, publications)
  | (none, inboundMsgs) => some (inboundMsgs.append m, publications)

theorem replaceMessage_spares {m : Messages}
    {stored : LinkedList Messages × LinkedList Publications}
    (single : Single publications)
    (replaced : replaceMessage m inboundMsgs publications = some stored) :
    Spares (publishes inboundMsgs) publications stored.2 := by
  unfold replaceMessage at replaced
  have hit {element : ListElement Messages} (found : (inboundMsgs.findItem
      (hasKey Messages.msgid m.msgid)).1 = some element) := findItem_hasKey_eq_some found
  generalize inboundMsgs.findItem (hasKey Messages.msgid m.msgid) = found at replaced hit
  rcases found with ⟨none | listElem, list⟩
  · cases replaced
    exact .refl _ _
  · rcases Option.map_eq_some_iff.mp replaced with ⟨fewer, removed, rfl⟩
    have referred : listElem.value.publish ∈ publishes inboundMsgs :=
      List.mem_map_of_mem (List.mem_map_of_mem (hit rfl).1)
    exact (spares_removePublication single removed).1.mono
      (List.cons_subset.mpr ⟨referred, List.nil_subset _⟩)

theorem storeInbound_eq (publish : Publish) (client : Nat) (library : Library) :
    storeInbound publish client library =
      (replaceMessage (Inbound.message ⟨publish, library.publications.nextContent⟩)
        (library.client client).inboundMsgs
        (storePublication publish library.publications).2).map fun stored =>
          { library with publications := stored.2 }.modifyClient client fun client =>
            { client with inboundMsgs := stored.1 } := by
  unfold storeInbound replaceMessage
  change (match (library.client client).inboundMsgs.findItem
    (hasKey Messages.msgid publish.msgId) with
    | (some listElem, inboundMsgs) => _
    | (none, inboundMsgs) => _) = _
  change _ = Option.map _ (match (library.client client).inboundMsgs.findItem
    (hasKey Messages.msgid publish.msgId) with
    | (some listElem, inboundMsgs) => _
    | (none, inboundMsgs) => _)
  rcases (library.client client).inboundMsgs.findItem (hasKey Messages.msgid publish.msgId) with
    ⟨none | listElem, inboundMsgs⟩
  · rfl
  · dsimp only
    rw [Option.map_map]
    rfl

theorem Stores.concat {inbound : Inbound} {other : LinkedList Messages}
    (stores : Stores received inboundMsgs before) (address : inbound.p = before.nextContent)
    (next : after.nextContent = before.nextContent + 1)
    (values : other.values = upsert Messages.msgid inbound.message inboundMsgs.values)
    (here : after.find inbound.p = some ⟨inbound.p, inbound.record⟩)
    (kept : ∀ old ∈ gathered Inbound.msgid received, old.msgid ≠ inbound.msgid →
      after.find old.p = before.find old.p)
    (replaced : ∀ old ∈ gathered Inbound.msgid received, old.msgid = inbound.msgid →
      after.find old.p = none)
    (gone : ∀ p, p < before.nextContent → before.find p = none → after.find p = none) :
    Stores (received ++ [inbound]) other after := by
  have split {old : Inbound} : old ∈ gathered Inbound.msgid (received ++ [inbound]) ↔
      old = inbound ∨ old ∈ gathered Inbound.msgid received ∧ old.msgid ≠ inbound.msgid := by
    rw [gathered_concat]
    exact mem_upsert (nodup_gathered Inbound.msgid received)
  refine ⟨?_, fun old member => ?_, fun old member lost => ?_, ?_, fun old member => ?_⟩
  · rw [values, stores.messages, gathered_concat]
    exact upsert_map (fun _ => rfl) inbound _
  · rcases split.mp member with rfl | ⟨member, different⟩
    · exact here
    · rw [kept old member different, stores.records old member]
  · rcases List.mem_append.mp member with member | member
    · by_cases stored : old ∈ gathered Inbound.msgid received
      · refine replaced old stored ?_
        by_contra different
        exact lost (split.mpr (.inr ⟨stored, different⟩))
      · exact gone _ (stores.old old member) (stores.superseded old member stored)
    · rw [List.mem_singleton.mp member] at lost
      exact absurd (split.mpr (.inl rfl)) lost
  · rw [List.map_append, List.nodup_append]
    refine ⟨stores.addresses, List.nodup_singleton _, fun p member q there => ?_⟩
    rcases List.mem_map.mp member with ⟨old, present, rfl⟩
    rw [List.mem_singleton.mp there, address]
    exact Nat.ne_of_lt (stores.old old present)
  · rw [next]
    rcases List.mem_append.mp member with member | member
    · exact Nat.lt_succ_of_lt (stores.old old member)
    · rw [List.mem_singleton.mp member, address]
      exact Nat.lt_succ_self _

theorem Stores.replace (stores : Stores received inboundMsgs publications)
    (single : Single publications) (publish : Publish) :
    ∃ stored, replaceMessage (Inbound.message ⟨publish, publications.nextContent⟩) inboundMsgs
        (storePublication publish publications).2 = some stored ∧
      Stores (received ++ [⟨publish, publications.nextContent⟩]) stored.1 stored.2 ∧
      Single stored.2 := by
  generalize new : (⟨publish, publications.nextContent⟩ : Inbound) = inbound
  have address : inbound.p = publications.nextContent := by rw [← new]
  have created := spares_storePublication publish publications
  have here : (storePublication publish publications).2.find inbound.p =
      some ⟨inbound.p, inbound.record⟩ := by
    rw [← new]
    exact find_storePublication publish publications
  have elements := elements_findItem inboundMsgs (hasKey Messages.msgid inbound.msgid)
  have values := values_findItem inboundMsgs (hasKey Messages.msgid inbound.msgid)
  have kept {old : Inbound} (member : old ∈ gathered Inbound.msgid received) :
      (storePublication publish publications).2.find old.p = publications.find old.p := by
    rw [stores.records old member]
    exact created.kept _ List.not_mem_nil _ (stores.records old member)
  rw [replaceMessage]
  change ∃ stored, (match inboundMsgs.findItem (hasKey Messages.msgid inbound.msgid) with
    | (some listElem, inboundMsgs) => _
    | (none, inboundMsgs) => _) = some stored ∧ _
  rcases searched : inboundMsgs.findItem (hasKey Messages.msgid inbound.msgid) with
    ⟨none | listElem, list⟩
  · -- the id is new
    rw [searched] at values
    have absent : inbound.message.msgid ∉ inboundMsgs.values.map Messages.msgid := by
      intro member
      rcases List.mem_map.mp member with ⟨message, present, same⟩
      have missed : (inboundMsgs.findItem (hasKey Messages.msgid inbound.msgid)).1 = none := by
        rw [searched]
      exact lookup_eq_none_iff.mp (findItem_hasKey_eq_none_iff.mp missed) message present same
    refine ⟨_, rfl, stores.concat address rfl ?_ here (fun old member _ => kept member)
      (fun old member same => ?_) created.gone, created.single single⟩
    · rw [values_append, values, upsert_of_not_mem absent]
    · refine absurd ?_ absent
      rw [stores.messages, List.map_map]
      exact List.mem_map.mpr ⟨old, member, same⟩
  · rw [searched] at values elements
    have found : (inboundMsgs.findItem (hasKey Messages.msgid inbound.msgid)).1 =
        some listElem := by
      rw [searched]
    rcases findItem_hasKey_eq_some found with ⟨member, same⟩
    have stored : listElem.value ∈ inboundMsgs.values := List.mem_map_of_mem member
    rw [stores.messages] at stored
    rcases List.mem_map.mp stored with ⟨old, oldMember, message⟩
    have oldFound := kept oldMember
    rw [stores.records old oldMember] at oldFound
    rcases removePublication_eq oldFound rfl with ⟨after, removed, next, find⟩
    have oldId : old.msgid = inbound.msgid := by
      rw [← same, ← message]
      rfl
    have address' : listElem.value.publish = old.p := by
      rw [← message]
      rfl
    have apart {other : Inbound} (present : other ∈ received)
        (different : other.msgid ≠ old.msgid) :
        other.p ≠ old.p := fun equal => different (congrArg Inbound.msgid
          (List.inj_on_of_nodup_map stores.addresses present (mem_of_mem_gathered oldMember) equal))
    dsimp only
    rw [address', removed]
    refine ⟨_, rfl, stores.concat address next ?_ ?_ (fun other present different => ?_)
      (fun other present equal => ?_) (fun p old none => ?_),
      (spares_removePublication (created.single single) removed).1.single (created.single single)⟩
    · have distinct : list.Distinct Messages.msgid := by
        rw [Distinct, values]
        exact stores.distinct
      rw [← values]
      exact distinct.values_replace (by rwa [elements]) same.symm
    · rw [find, if_neg, here]
      rw [address]
      exact Nat.ne_of_gt (stores.old old (mem_of_mem_gathered oldMember))
    · rw [find, if_neg (apart (mem_of_mem_gathered present) (oldId ▸ different)), kept present]
    · have this : other = old := List.inj_on_of_nodup_map (nodup_gathered Inbound.msgid received)
        present oldMember (equal.trans oldId.symm)
      rw [find, if_pos (congrArg Inbound.p this)]
    · rw [find, created.gone p old none, ite_self]

end Messages

/-! ## Handling a PUBLISH packet -/

section Packets

variable {before after : Library} {publish : Publish} {sock : SOCKET} {client : Nat} {rc : Int}

structure Handled (publish : Publish) (client : Nat) (before after : Library) : Prop where
  other : publish.header.qos ≠ 2 → after.publications = before.publications ∧
    (after.client client).inboundMsgs = (before.client client).inboundMsgs
  stored : publish.header.qos = 2 → ∃ stored,
    replaceMessage (Inbound.message ⟨publish, before.publications.nextContent⟩)
      (before.client client).inboundMsgs (storePublication publish before.publications).2 =
        some stored ∧
    (after.client client).inboundMsgs = stored.1 ∧ after.publications = stored.2

theorem queueAck_inboundMsgs (client ackType : Nat) (msgId : Int) (library : Library) :
    ((queueAck client ackType msgId library).client client).inboundMsgs =
      (library.client client).inboundMsgs := by
  rw [(queueAck_sets client ackType msgId library).client_self]
  rfl

theorem handleFound_handled (handled : handleFound publish sock client before = some (rc, after)) :
    Handled publish client before after := by
  unfold handleFound at handled
  by_cases qos0 : publish.header.qos = 0
  · rw [if_pos qos0] at handled
    cases handled
    refine ⟨fun _ => ⟨rfl, ?_⟩, fun qos2 => absurd (qos0.symm.trans qos2) (by decide)⟩
    rw [(processPublication_sets publish client before).client_self]
    rfl
  · rw [if_neg qos0] at handled
    dsimp only at handled
    by_cases qos1 : publish.header.qos = 1
    · have processed (library : Library) :
          ((processPublication publish client library).client client).inboundMsgs =
            (library.client client).inboundMsgs := by
        rw [(processPublication_sets publish client library).client_self]
        rfl
      rw [if_pos qos1] at handled
      refine ⟨fun _ => ?_, fun qos2 => absurd (qos1.symm.trans qos2) (by decide)⟩
      split at handled
      · cases handled
        exact ⟨rfl, (queueAck_inboundMsgs ..).trans (processed _)⟩
      · cases handled
        exact ⟨rfl, processed _⟩
    · rw [if_neg qos1] at handled
      by_cases qos2 : publish.header.qos = 2
      · rw [if_pos qos2, storeInbound_eq, Option.map_map] at handled
        rcases Option.map_eq_some_iff.mp handled with ⟨stored, replaced, finished⟩
        refine ⟨fun other => absurd qos2 other, fun _ => ⟨stored, replaced, ?_⟩⟩
        rw [Function.comp_apply] at finished
        split at finished
        · cases finished
          refine ⟨(queueAck_inboundMsgs ..).trans ?_, rfl⟩
          rw [(Library.modifyClient_sets ..).client_self]
        · cases finished
          refine ⟨?_, rfl⟩
          rw [(Library.modifyClient_sets ..).client_self]
      · rw [if_neg qos2] at handled
        cases handled
        exact ⟨fun _ => ⟨rfl, rfl⟩, fun same => absurd same qos2⟩

theorem handlePublishes_handled
    (handled : handlePublishes publish sock before = some (rc, after)) :
    ∃ client, (before.findClient sock).map Prod.fst = some client ∧
      client ∈ before.clients.values ∧
      (∀ other, other ≠ client → after.client other = before.client other) ∧
      after.clients.values = before.clients.values ∧
      Handled publish client before after := by
  unfold handlePublishes at handled
  split at handled
  · cases handled
  · rename_i client library found
    rcases Library.findClient_eq_some found with ⟨member, owner, searched⟩
    rcases handleFound_spec handled with ⟨_, _, sets⟩
    rcases handleFound_handled handled with ⟨other, stored⟩
    rw [searched.client, searched.publications] at other stored
    refine ⟨client, by rw [found]; rfl, member, fun m different => ?_, ?_, other, stored⟩
    · rw [sets.client_of_ne different, searched.client]
    · rw [sets.clients, searched.clients]

theorem acknowledge_spares {msgId : Int} (single : Single before.publications)
    (handled : acknowledge msgId client before = some after) :
    Spares (publishes (before.client client).outboundMsgs) before.publications
      after.publications := by
  unfold acknowledge at handled
  have hit {element : ListElement Messages} (found : ((before.client client).outboundMsgs.findItem
      (hasKey Messages.msgid msgId)).1 = some element) := findItem_hasKey_eq_some found
  generalize (before.client client).outboundMsgs.findItem (hasKey Messages.msgid msgId) = found
    at handled hit
  rcases found with ⟨none | element, outboundMsgs⟩
  · cases handled
    exact .refl _ _
  · dsimp only at handled
    split at handled
    · cases handled
      exact .refl _ _
    · rcases Option.map_eq_some_iff.mp handled with ⟨publications, removed, rfl⟩
      have referred : element.value.publish ∈ publishes (before.client client).outboundMsgs :=
        List.mem_map_of_mem (List.mem_map_of_mem (hit rfl).1)
      exact (spares_removePublication single removed).1.mono
        (List.cons_subset.mpr ⟨referred, List.nil_subset _⟩)

theorem handlePubacks_spares {msgId : Int} (single : Single before.publications)
    (handled : handlePubacks msgId sock before = some (client, after)) :
    Spares (publishes (before.client client).outboundMsgs) before.publications
      after.publications := by
  unfold handlePubacks at handled
  split at handled
  · cases handled
  · rename_i found library searched
    rcases Option.map_eq_some_iff.mp handled with ⟨final, acknowledged, same⟩
    cases same
    rcases Library.findClient_eq_some searched with ⟨_, _, keeps⟩
    have spares := acknowledge_spares (by rwa [keeps.publications]) acknowledged
    rwa [keeps.publications, keeps.client] at spares

end Packets

section Publish

variable {before after : Library} {m : Nat} {publish : Publish} {qos retained rc : Int}

theorem startPublishCommon_spares
    (started : startPublishCommon m publish qos retained before = some (rc, after)) :
    Spares [] before.publications after.publications := by
  unfold startPublishCommon at started
  split at started
  · cases started
  · dsimp only at started
    split at started
    · cases started
      exact spares_storePublication publish before.publications
    · cases started
      exact .refl _ _

theorem startPublish_spares
    (started : startPublish m publish qos retained before = some (rc, after)) :
    Spares [] before.publications after.publications := by
  unfold startPublish at started
  split at started
  · exact (spares_storePublication publish before.publications).trans
      (startPublishCommon_spares started)
  · exact startPublishCommon_spares started

theorem freeClient_spares {client : Clients} {publications final : LinkedList Publications}
    (single : Single publications) (freed : freeClient client publications = some final) :
    Spares (held client) publications final := by
  rcases Option.ite_none_left_eq_some.mp freed with ⟨_, emptied⟩
  rcases Option.bind_eq_some_iff.mp emptied with ⟨middle, outbound, inbound⟩
  have first := spares_emptyMessageList _ single outbound
  exact (first.mono (List.subset_append_left ..)).trans
    ((spares_emptyMessageList _ (first.single single) inbound).mono (List.subset_append_right ..))

end Publish

end MqttClient.MQTTProtocol
