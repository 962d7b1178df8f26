import MqttClient.Clients
import MqttClient.Foundation.CyclicSearch
import MqttClient.KeyedList

/-! # `MQTTProtocol`: message ids

`MQTTProtocol_assignMsgId`, which looks for an id that no outbound message uses.
-/

namespace MqttClient

open Foundation LinkedList

namespace MQTTProtocol

/-- The id behind an id, in the cycle from 1 to `MAX_MSG_ID`. -/
def nextMsgId (msgid : Int) : Int := if msgid = maxMsgId then 1 else msgid + 1

/-- The loop of `MQTTProtocol_assignMsgId`, for at most as many rounds as there is
fuel. -/
def assignMsgIdLoop (start_msgid : Int) : Nat → Int → LinkedList Messages →
    Option (Int × LinkedList Messages)
  | 0, _, _ => none
  | fuel + 1, msgid, outboundMsgs =>
      match outboundMsgs.findItem (hasKey Messages.msgid msgid) with
      | (none, outboundMsgs) => some (msgid, outboundMsgs)
      | (some _, outboundMsgs) =>
          let msgid := nextMsgId msgid
          if msgid = start_msgid then some (0, outboundMsgs)
          else assignMsgIdLoop start_msgid fuel msgid outboundMsgs

/-- `MQTTProtocol_assignMsgId`. `none` is a loop that does not end. -/
def assignMsgId (client : Clients) : Option (Int × Clients) :=
  match assignMsgIdLoop client.msgID maxMsgId.toNat (nextMsgId client.msgID)
    client.outboundMsgs with
  | none => none
  | some (msgid, outboundMsgs) =>
      let client := { client with outboundMsgs := outboundMsgs }
      some (msgid, if msgid ≠ 0 then { client with msgID := msgid } else client)

end MQTTProtocol

namespace Clients

structure Numbered (client : Clients) : Prop where
  distinct : client.outboundMsgs.Distinct Messages.msgid
  range : ∀ message ∈ client.outboundMsgs.values, 1 ≤ message.msgid ∧ message.msgid ≤ maxMsgId
  last : 0 ≤ client.msgID ∧ client.msgID ≤ maxMsgId
  unused : client.msgID = 0 → client.outboundMsgs.values = []

/-- An id that no outbound message uses. -/
def Free (client : Clients) (msgid : Int) : Prop :=
  1 ≤ msgid ∧ msgid ≤ maxMsgId ∧ client.outboundMsgs.lookup Messages.msgid msgid = none

/-- An id that the search can give out: it never tries the one given out last. -/
def IdAvailable (client : Clients) : Prop := ∃ msgid, client.Free msgid ∧ msgid ≠ client.msgID

def FirstFree (client : Clients) (msgid : Int) : Prop :=
  ∃ k : Nat, k < 65535 ∧ msgid = (client.msgID + k) % 65535 + 1 ∧ client.Free msgid ∧
    ∀ j : Nat, j < k → ¬client.Free ((client.msgID + j) % 65535 + 1)

end Clients

namespace MQTTProtocol

/-- `MQTTProtocol_assignMsgId` returns. If some id is free, it is the first free one, and
is remembered as the one given out last; 0 says that no id is free, and changes nothing. -/
def Allocates (client : Clients) : Prop :=
  ∃ msgid after, assignMsgId client = some (msgid, after) ∧
    ((∃ id, client.Free id) → client.FirstFree msgid ∧ after.msgID = msgid) ∧
    (msgid = 0 → (∀ id, ¬client.Free id) ∧ after.msgID = client.msgID)

theorem iterate_nextMsgId {start : Int} (range : 0 ≤ start ∧ start ≤ maxMsgId) (steps : Nat) :
    nextMsgId^[steps] (nextMsgId start) = (start + steps) % 65535 + 1 := by
  induction steps with
  | zero =>
      rw [Function.iterate_zero, id, nextMsgId]
      unfold maxMsgId at range ⊢
      split <;> omega
  | succ steps induction =>
      rw [Function.iterate_succ_apply', induction, nextMsgId, maxMsgId]
      split <;> omega

theorem assignMsgIdLoop_eq (start_msgid : Int) (fuel : Nat) (msgid : Int)
    (outboundMsgs : LinkedList Messages) :
    match firstFree nextMsgId (fun id => (outboundMsgs.lookup Messages.msgid id).isSome)
      start_msgid fuel msgid with
    | none => assignMsgIdLoop start_msgid fuel msgid outboundMsgs = none
    | some result => ∃ after,
        assignMsgIdLoop start_msgid fuel msgid outboundMsgs = some (result.getD 0, after) ∧
          after.elements = outboundMsgs.elements := by
  induction fuel generalizing msgid outboundMsgs with
  | zero => rfl
  | succ fuel induction =>
      have elements := elements_findItem outboundMsgs (hasKey Messages.msgid msgid)
      have lookups (id : Int) : (outboundMsgs.findItem (hasKey Messages.msgid msgid)).2.lookup
          Messages.msgid id = outboundMsgs.lookup Messages.msgid id := lookup_findItem id _
      have missed : (outboundMsgs.findItem (hasKey Messages.msgid msgid)).1 = none ↔
          outboundMsgs.lookup Messages.msgid msgid = none := findItem_hasKey_eq_none_iff
      rw [firstFree, assignMsgIdLoop]
      generalize outboundMsgs.findItem (hasKey Messages.msgid msgid) = searched
        at elements lookups missed
      rcases searched with ⟨found, after⟩
      cases found with
      | none =>
          rw [missed.mp rfl]
          exact ⟨after, rfl, elements⟩
      | some element =>
          have taken : (outboundMsgs.lookup Messages.msgid msgid).isSome = true := by
            rw [Option.isSome_iff_ne_none]
            exact fun absent => absurd (missed.mpr absent) (by simp)
          rw [if_pos taken]
          by_cases stops : nextMsgId msgid = start_msgid
          · simp only [if_pos stops]
            exact ⟨after, rfl, elements⟩
          · have later := induction (nextMsgId msgid) after
            simp only [lookups] at later
            simp only [if_neg stops]
            split at later
            · exact later
            · rcases later with ⟨last, ended, same⟩
              exact ⟨last, ended, same.trans elements⟩

theorem assignMsgId_eq {client after : Clients} {msgid : Int}
    (assigned : assignMsgId client = some (msgid, after)) :
    ∃ msgID outboundMsgs, after = client.withOutbound msgID outboundMsgs ∧
      outboundMsgs.elements = client.outboundMsgs.elements := by
  have searched := assignMsgIdLoop_eq client.msgID maxMsgId.toNat (nextMsgId client.msgID)
    client.outboundMsgs
  unfold assignMsgId at assigned
  split at assigned
  · cases assigned
  · rename_i id outboundMsgs returned
    have elements : outboundMsgs.elements = client.outboundMsgs.elements := by
      rw [returned] at searched
      split at searched
      · cases searched
      · rcases searched with ⟨_, same, elements⟩
        cases same
        exact elements
    dsimp only at assigned
    split at assigned
    all_goals
      cases assigned
      exact ⟨_, _, rfl, elements⟩

theorem assignMsgId_spec {client : Clients} (numbered : client.Numbered) :
    ∃ msgid outboundMsgs, outboundMsgs.elements = client.outboundMsgs.elements ∧
      assignMsgId client = some (msgid, { client with
        outboundMsgs := outboundMsgs
        msgID := if msgid ≠ 0 then msgid else client.msgID }) ∧
      (if msgid ≠ 0 then client.Free msgid ∧ msgid ≠ client.msgID else ¬client.IdAvailable) := by
  have searched := assignMsgIdLoop_eq client.msgID maxMsgId.toNat (nextMsgId client.msgID)
    client.outboundMsgs
  have iterate := iterate_nextMsgId numbered.last
  have range := numbered.last
  unfold maxMsgId at range
  have terminates : ∃ result, firstFree nextMsgId
      (fun id => (client.outboundMsgs.lookup Messages.msgid id).isSome) client.msgID
      maxMsgId.toNat (nextMsgId client.msgID) = some result := by
    by_cases first : client.msgID = 0
    · refine ⟨some (nextMsgId client.msgID), ?_⟩
      have absent : client.outboundMsgs.lookup Messages.msgid (nextMsgId client.msgID) = none := by
        rw [lookup_eq_none_iff, numbered.unused first]
        exact fun _ member => nomatch member
      change firstFree _ _ _ (65534 + 1) _ = _
      rw [firstFree, absent]
      rfl
    · have reached : nextMsgId^[65533 + 1] (nextMsgId client.msgID) = client.msgID := by
        rw [iterate]
        omega
      exact firstFree_isSome reached (by decide)
  rcases terminates with ⟨result, ended⟩
  rw [ended] at searched
  rcases searched with ⟨after, returned, same⟩
  refine ⟨result.getD 0, after, same, ?_, ?_⟩
  · rw [assignMsgId, returned]
    dsimp only
    split <;> rfl
  · cases result with
    | some msgid =>
        rcases firstFree_found ended with ⟨free, place, steps, reached⟩
        rw [iterate] at reached
        have different : msgid ≠ client.msgID := by
          rcases place with rfl | different
          · unfold nextMsgId maxMsgId
            split <;> omega
          · exact different
        have inRange : 1 ≤ msgid ∧ msgid ≤ maxMsgId := by
          unfold maxMsgId
          omega
        rw [Option.getD_some, if_pos (by omega)]
        exact ⟨⟨inRange.1, inRange.2, by simpa using free⟩, different⟩
    | none =>
        rcases firstFree_exhausted ended with ⟨steps, stops, used⟩
        rw [iterate] at stops
        rw [Option.getD_none, if_neg (by simp)]
        rintro ⟨msgid, ⟨low, high, free⟩, different⟩
        -- the id is on the way that the search has taken
        have place := used ((msgid - 1 - client.msgID) % 65535).toNat (by
          unfold maxMsgId at high
          omega)
        rw [iterate] at place
        have reached : (client.msgID + ((msgid - 1 - client.msgID) % 65535).toNat) % 65535 + 1 =
            msgid := by
          unfold maxMsgId at high
          omega
        rw [reached, free] at place
        exact absurd place (by simp)

theorem assignMsgId_first {client after : Clients} {msgid : Int} (numbered : client.Numbered)
    (assigned : assignMsgId client = some (msgid, after)) (given : msgid ≠ 0) :
    client.FirstFree msgid := by
  have searched := assignMsgIdLoop_eq client.msgID maxMsgId.toNat (nextMsgId client.msgID)
    client.outboundMsgs
  have iterate := iterate_nextMsgId numbered.last
  have range := numbered.last
  unfold maxMsgId at range
  unfold assignMsgId at assigned
  split at assigned
  · cases assigned
  · rename_i id outboundMsgs returned
    cases assigned
    rw [returned] at searched
    split at searched
    · cases searched
    · rename_i result ended
      rcases searched with ⟨_, same, _⟩
      cases same
      cases result with
      | none => exact (given rfl).elim
      | some msgid =>
          rcases firstFree_first ended with ⟨k, within, reached, free, before⟩
          rw [iterate] at reached
          have inRange : 1 ≤ msgid ∧ msgid ≤ maxMsgId := by
            unfold maxMsgId
            omega
          refine ⟨k, within, reached, ⟨inRange.1, inRange.2, by simpa using free⟩,
            fun j earlier other => ?_⟩
          have used := before j earlier
          rw [iterate, other.2.2] at used
          cases used

theorem allocates_iff {client : Clients} (numbered : client.Numbered) :
    Allocates client ↔ client.IdAvailable ∨ ∀ id, ¬client.Free id := by
  rcases assignMsgId_spec numbered with ⟨msgid, outboundMsgs, elements, assigned, free⟩
  have first := assignMsgId_first numbered assigned
  by_cases given : msgid ≠ 0
  · rw [if_pos given] at free
    refine ⟨fun _ => .inl ⟨msgid, free⟩, fun _ => ⟨msgid, _, assigned, fun _ => ?_, ?_⟩⟩
    · exact ⟨first given, if_pos given⟩
    · exact fun none => (given none).elim
  · rw [if_neg given] at free
    rw [not_not] at given
    constructor
    · rintro ⟨other, after, again, -, none⟩
      rw [assigned] at again
      cases again
      exact .inr (none given).1
    · intro condition
      have allUsed := condition.resolve_left free
      refine ⟨msgid, _, assigned, fun available => ?_, fun _ => ⟨allUsed, ?_⟩⟩
      · rcases available with ⟨id, available⟩
        exact (allUsed id available).elim
      · exact if_neg (not_not_intro given)

end MQTTProtocol

end MqttClient
