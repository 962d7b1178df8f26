import Mathlib.Data.List.Find
import MqttClient.Socket.PassCoverage
import MqttClient.Socket.RegistryInvariant

/-! # The rotation over the ready sockets

`Socket_getReadySocket` asks `select` once and then hands out the sockets that are ready one
by one, call after call, until none is left and it asks again.
-/

namespace MqttClient

open LinkedList

namespace Socket

variable {sockets : Sockets} {writes : SocketWrites} {socket : SOCKET}

/-! ## Which sockets are ready -/

/-- The answer of `isReady`. -/
def ready (sockets : Sockets) (writes : SocketWrites) (socket : SOCKET) : Bool :=
  (isReady socket sockets writes).1

theorem ready_eq (sockets : Sockets) (writes : SocketWrites) (socket : SOCKET) :
    ready sockets writes socket =
      if (sockets.connectPending.lookup id socket).isSome ∧ sockets.wset socket then true
      else if sockets.rset socket ∧ sockets.wset socket then
        (writes.writePending.lookup id socket).isNone
      else false := by
  have connecting : (sockets.connectPending.findItem (hasKey id socket)).1.isSome =
      (sockets.connectPending.lookup id socket).isSome := by
    rw [Bool.eq_iff_iff, Option.isSome_iff_ne_none, Option.isSome_iff_ne_none, ne_eq, ne_eq,
      findItem_hasKey_eq_none_iff]
  have pending : (noPendingWrites socket writes).1 =
      (writes.writePending.lookup id socket).isNone := by
    rw [noPendingWrites, Bool.eq_iff_iff, Option.isNone_iff_eq_none, Option.isNone_iff_eq_none]
    exact findItem_hasKey_eq_none_iff
  rw [ready, isReady, ← connecting]
  dsimp only
  split
  · rfl
  · split
    · exact pending
    · rfl

/-- A socket looks the same to `isReady` in two states. -/
structure Alike (socket : SOCKET) (before after : Sockets × SocketWrites) : Prop where
  connecting : after.1.connectPending.lookup id socket = before.1.connectPending.lookup id socket
  readable : after.1.rset socket = before.1.rset socket
  writable : after.1.wset socket = before.1.wset socket
  pending : after.2.writePending.lookup id socket = before.2.writePending.lookup id socket

theorem Alike.refl (socket : SOCKET) (state : Sockets × SocketWrites) : Alike socket state state :=
  ⟨rfl, rfl, rfl, rfl⟩

theorem Alike.trans {first second third : Sockets × SocketWrites}
    (one : Alike socket first second) (two : Alike socket second third) :
    Alike socket first third :=
  ⟨two.connecting.trans one.connecting, two.readable.trans one.readable,
    two.writable.trans one.writable, two.pending.trans one.pending⟩

theorem Alike.ready_eq {before after : Sockets × SocketWrites} (alike : Alike socket before after) :
    ready after.1 after.2 socket = ready before.1 before.2 socket := by
  rw [Socket.ready_eq, Socket.ready_eq, alike.connecting, alike.readable, alike.writable,
    alike.pending]

theorem lookup_unlink_of_ne (list : LinkedList SOCKET) {other : SOCKET}
    (different : other ≠ socket) :
    (list.unlink (hasKey id socket)).2.lookup id other = list.lookup id other := by
  cases found : (list.findItem (hasKey id socket)).1 with
  | none => rw [unlink_eq_none found]
  | some element =>
      have holds := findItem_hasKey_eq_some found
      rw [unlink_eq_some found, lookup, lookup, values, values, List.find?_map, List.find?_map,
        elements_detachElement, List.find?_filter]
      apply congrArg
      apply List.find?_congr
      intro candidate member
      by_cases same : candidate.value = other
      · have kept : candidate.content ≠ element.content := by
          intro equal
          rw [eq_of_content_eq member holds.1 equal] at same
          exact different (same.symm.trans holds.2)
        simp [same, kept]
      · simp [same]

theorem isReady_alike (sockets : Sockets) (writes : SocketWrites) {other : SOCKET}
    (left : other ≠ socket ∨ ready sockets writes socket = false) :
    Alike other (sockets, writes) (isReady socket sockets writes).2 := by
  rw [ready, isReady] at left
  rw [isReady]
  dsimp only at left ⊢
  split
  · rename_i found
    rw [if_pos found] at left
    have different : other ≠ socket := left.resolve_right Bool.noConfusion
    refine ⟨?_, rfl, rfl, rfl⟩
    rw [lookup_unlink_of_ne _ different, lookup_findItem]
  · split
    · exact ⟨lookup_findItem .., rfl, rfl, lookup_findItem ..⟩
    · exact ⟨lookup_findItem .., rfl, rfl, rfl⟩

/-! ## Looking for a ready socket -/

def fromReady (sockets : Sockets) (writes : SocketWrites) (elements : List (ListElement SOCKET)) :
    List (ListElement SOCKET) :=
  elements.dropWhile fun element => !ready sockets writes element.value

def Keeps (before after : Sockets × SocketWrites) : Prop :=
  SameRegistry before.1 after.1 ∧ (before.2.Consistent → after.2.Consistent)

theorem Keeps.trans {first second third : Sockets × SocketWrites} (one : Keeps first second)
    (two : Keeps second third) : Keeps first third :=
  ⟨one.1.trans two.1, fun consistent => two.2 (one.2 consistent)⟩

theorem isReady_keeps (socket : SOCKET) (sockets : Sockets) (writes : SocketWrites) :
    Keeps (sockets, writes) (isReady socket sockets writes).2 := by
  rw [isReady]
  dsimp only
  split
  · exact ⟨⟨rfl, rfl, rfl, rfl⟩, id⟩
  · split
    · refine ⟨⟨rfl, rfl, rfl, rfl⟩, ?_⟩
      intro consistent
      rcases noPendingWrites_spec consistent socket with ⟨writePending, asked, searched⟩
      rw [asked]
      exact searched
    · exact ⟨⟨rfl, rfl, rfl, rfl⟩, id⟩

theorem findReady_eq (elements : List (ListElement SOCKET))
    (distinct : (elements.map ListElement.value).Nodup) (sockets : Sockets)
    (writes : SocketWrites) :
    ∃ after, findReady elements sockets writes = (fromReady sockets writes elements, after) ∧
      Keeps (sockets, writes) after ∧
      ∀ other, (∀ element ∈ (fromReady sockets writes elements).head?, other ≠ element.value) →
        Alike other (sockets, writes) after := by
  induction elements generalizing sockets writes with
  | nil =>
      apply Exists.intro (sockets, writes)
      exact ⟨rfl, ⟨.refl sockets, id⟩, fun other _ => .refl other _⟩
  | cons element later induction =>
      rw [List.map_cons, List.nodup_cons] at distinct
      have step := @isReady_alike element.value sockets writes
      have keeps := isReady_keeps element.value sockets writes
      rw [ready] at step
      cases asked : isReady element.value sockets writes with
      | mk answer reached =>
          have answered : ready sockets writes element.value = answer := congrArg Prod.fst asked
          rw [asked] at step keeps
          cases answer with
          | true =>
              have here : fromReady sockets writes (element :: later) = element :: later := by
                rw [fromReady, List.dropWhile_cons_of_neg (by simp [answered])]
              apply Exists.intro reached
              rw [here, findReady, asked]
              refine ⟨rfl, keeps, ?_⟩
              intro other elsewhere
              exact step (.inl (elsewhere element rfl))
          | false =>
              have alike (other : SOCKET) : Alike other (sockets, writes) reached :=
                step (.inr rfl)
              have same : fromReady reached.1 reached.2 later = fromReady sockets writes later := by
                rw [fromReady, fromReady]
                congr 1
                funext candidate
                rw [(alike candidate.value).ready_eq]
              have further : fromReady sockets writes (element :: later) =
                  fromReady sockets writes later := by
                rw [fromReady, List.dropWhile_cons_of_pos (by simp [answered])]
                rfl
              rcases induction distinct.2 reached.1 reached.2 with
                ⟨after, found, kept, others⟩
              rw [same] at found others
              refine ⟨after, ?_, keeps.trans kept, ?_⟩
              · rw [findReady, asked, further]
                exact found
              · intro other elsewhere
                rw [further] at elsewhere
                exact (alike other).trans (others other elsewhere)

/-! ## Successive calls -/

/-- A call asks `select`, because no socket from `cur_clientsds` on is ready. -/
def asks (sockets : Sockets) (writes : SocketWrites) : Bool :=
  sockets.clientsds.count ≠ 0 &&
    (findReady (elementsFrom sockets.curClientsds sockets.clientsds) sockets writes).1.isEmpty

/-- What successive calls of `Socket_getReadySocket` return, each with what both calls of
`select` find if it asks. -/
def readyCalls : List (SelectResult × SelectResult) → Sockets × SocketWrites →
    Option (List SOCKET × Sockets × SocketWrites)
  | [], state => some ([], state)
  | call :: calls, state =>
      (getReadySocket call.1 call.2 state.1 state.2).bind fun called =>
        (readyCalls calls called.2.2).map (Prod.map (called.1 :: ·) id)

/-- None of the calls asks `select`, and the next one behind them does. -/
def Rotates : List (SelectResult × SelectResult) → Sockets × SocketWrites → Prop
  | [], state => asks state.1 state.2 = true
  | call :: calls, state => asks state.1 state.2 = false ∧
      ∀ called ∈ getReadySocket call.1 call.2 state.1 state.2, Rotates calls called.2.2

instance Rotates.decidable : (calls : List (SelectResult × SelectResult)) →
    (state : Sockets × SocketWrites) → Decidable (Rotates calls state)
  | [], state => inferInstanceAs (Decidable (asks state.1 state.2 = true))
  | call :: calls, state =>
      haveI := Rotates.decidable calls
      inferInstanceAs (Decidable (asks state.1 state.2 = false ∧
        ∀ called ∈ getReadySocket call.1 call.2 state.1 state.2, Rotates calls called.2.2))

/-- The calls behind a pass go on with some elements, whose sockets `isReady` sees as at the
pass. -/
structure Left (pass : Sockets × SocketWrites) (rest : List (ListElement SOCKET))
    (state : Sockets × SocketWrites) : Prop where
  clientsds : state.1.clientsds = pass.1.clientsds
  suffix : rest <:+ pass.1.clientsds.elements
  current : state.1.curClientsds = rest.head?.map ListElement.content
  alike : ∀ element ∈ rest, Alike element.value pass state

theorem elementsFrom_head {list : LinkedList SOCKET} {rest : List (ListElement SOCKET)}
    (suffix : rest <:+ list.elements) :
    elementsFrom (rest.head?.map ListElement.content) list = rest := by
  rcases suffix with ⟨front, whole⟩
  cases rest with
  | nil => rfl
  | cons element rest =>
      have absent := (content_around whole.symm).1
      change fromContent element.content list.elements = _
      rw [← whole, fromContent_append absent, fromContent_self]

variable {pass state : Sockets × SocketWrites} {rest : List (ListElement SOCKET)}

theorem Left.resumes (left : Left pass rest state) :
    elementsFrom state.1.curClientsds state.1.clientsds = rest := by
  rw [left.current, left.clientsds]
  exact elementsFrom_head left.suffix

theorem fromReady_congr {before after : Sockets × SocketWrites}
    (alike : ∀ element ∈ rest, Alike element.value before after) :
    fromReady after.1 after.2 rest = fromReady before.1 before.2 rest := by
  induction rest with
  | nil => rfl
  | cons element rest induction =>
      have later := induction fun other member => alike other (List.mem_cons_of_mem _ member)
      have same := (alike element List.mem_cons_self).ready_eq
      rw [fromReady, fromReady, List.dropWhile_cons, List.dropWhile_cons, same]
      cases ready before.1 before.2 element.value with
      | true => rfl
      | false => exact later

theorem filter_fromReady (sockets : Sockets) (writes : SocketWrites)
    (elements : List (ListElement SOCKET)) :
    (fromReady sockets writes elements).filter (fun element => ready sockets writes element.value) =
      elements.filter fun element => ready sockets writes element.value := by
  induction elements with
  | nil => rfl
  | cons element elements induction =>
      rw [fromReady, List.dropWhile_cons]
      cases answer : ready sockets writes element.value with
      | true => rfl
      | false =>
          rw [List.filter_cons_of_neg (by simp [answer])]
          exact induction

theorem ready_of_fromReady {sockets : Sockets} {writes : SocketWrites}
    {elements later : List (ListElement SOCKET)} {element : ListElement SOCKET}
    (found : fromReady sockets writes elements = element :: later) :
    ready sockets writes element.value = true := by
  have head := List.head?_dropWhile_not (fun element => !ready sockets writes element.value)
    elements
  rw [fromReady] at found
  rw [found] at head
  simpa using head

theorem takeReady_left {element : ListElement SOCKET} {later : List (ListElement SOCKET)}
    {after : Sockets × SocketWrites} (clientsds : after.1.clientsds = pass.1.clientsds)
    (suffix : element :: later <:+ pass.1.clientsds.elements)
    (alike : ∀ other ∈ later, Alike other.value pass after) :
    ∃ next, takeReady (element :: later) after.1 after.2 = (element.value, 0, next) ∧
      Left pass later next := by
  apply Exists.intro ({ after.1 with curClientsds := later.head?.map ListElement.content }, after.2)
  refine ⟨rfl, clientsds, (List.suffix_cons element later).trans suffix, rfl, ?_⟩
  intro other member
  have same := alike other member
  exact ⟨same.connecting, same.readable, same.writable, same.pending⟩

theorem value_ne_of_suffix (distinct : pass.1.clientsds.values.Nodup)
    {element : ListElement SOCKET} {later : List (ListElement SOCKET)}
    (suffix : element :: later <:+ pass.1.clientsds.elements) {other : ListElement SOCKET}
    (member : other ∈ later) : other.value ≠ element.value := by
  have nodup := (suffix.sublist.map ListElement.value).nodup distinct
  rw [List.map_cons, List.nodup_cons] at nodup
  intro same
  exact nodup.1 (same ▸ List.mem_map_of_mem member)

theorem Left.findReady (left : Left pass rest state) (distinct : pass.1.clientsds.values.Nodup) :
    ∃ after, Socket.findReady (elementsFrom state.1.curClientsds state.1.clientsds) state.1
        state.2 = (fromReady pass.1 pass.2 rest, after) ∧ Keeps state after ∧
      ∀ other, (∀ element ∈ (fromReady pass.1 pass.2 rest).head?, other ≠ element.value) →
        Alike other state after := by
  have nodup := (left.suffix.sublist.map ListElement.value).nodup distinct
  rcases findReady_eq rest nodup state.1 state.2 with ⟨after, found, spec⟩
  rw [fromReady_congr left.alike] at found spec
  rw [left.resumes]
  exact ⟨after, found, spec⟩

theorem Left.asks (left : Left pass rest state) (distinct : pass.1.clientsds.values.Nodup)
    (nonempty : pass.1.clientsds.count ≠ 0) :
    Socket.asks state.1 state.2 = (fromReady pass.1 pass.2 rest).isEmpty := by
  rcases left.findReady distinct with ⟨after, found, -⟩
  rw [← left.clientsds] at nonempty
  rw [Socket.asks, found]
  simp [nonempty]

theorem Left.call (left : Left pass rest state) (distinct : pass.1.clientsds.values.Nodup)
    (nonempty : pass.1.clientsds.count ≠ 0) {element : ListElement SOCKET}
    {later : List (ListElement SOCKET)}
    (stopped : fromReady pass.1 pass.2 rest = element :: later) (read write : SelectResult) :
    ∃ next, getReadySocket read write state.1 state.2 = some (element.value, 0, next) ∧
      Left pass later next := by
  rcases left.findReady distinct with ⟨after, found, keeps, others⟩
  rw [stopped] at found others
  have remains : fromReady pass.1 pass.2 rest <:+ rest := List.dropWhile_suffix _
  rw [stopped] at remains
  have suffix := remains.trans left.suffix
  have alike : ∀ other ∈ later, Alike other.value pass after := by
    intro other member
    apply (left.alike other (remains.mem (List.mem_cons_of_mem _ member))).trans
    apply others
    rintro first ⟨⟩
    exact value_ne_of_suffix distinct suffix member
  rcases takeReady_left (keeps.1.clientsds.trans left.clientsds) suffix alike with
    ⟨next, taken, left'⟩
  apply Exists.intro next
  rw [← left.clientsds] at nonempty
  rw [getReadySocket, if_neg nonempty, found]
  exact ⟨congrArg some taken, left'⟩

def readyAmong (pass : Sockets × SocketWrites) (elements : List (ListElement SOCKET)) :
    List SOCKET :=
  (elements.map ListElement.value).filter (ready pass.1 pass.2)

theorem readyAmong_nil (stopped : fromReady pass.1 pass.2 rest = []) :
    readyAmong pass rest = [] := by
  rw [readyAmong, List.filter_map]
  apply List.map_eq_nil_iff.mpr
  exact (filter_fromReady pass.1 pass.2 rest).symm.trans (congrArg (List.filter _) stopped)

theorem readyAmong_cons {element : ListElement SOCKET} {later : List (ListElement SOCKET)}
    (stopped : fromReady pass.1 pass.2 rest = element :: later) :
    readyAmong pass rest = element.value :: readyAmong pass later := by
  have here := ready_of_fromReady stopped
  have whole := filter_fromReady pass.1 pass.2 rest
  rw [stopped, List.filter_cons, if_pos here] at whole
  rw [readyAmong, readyAmong, List.filter_map, List.filter_map]
  exact congrArg (List.map ListElement.value) whole.symm

theorem Left.calls (left : Left pass rest state) (distinct : pass.1.clientsds.values.Nodup)
    (nonempty : pass.1.clientsds.count ≠ 0) {calls : List (SelectResult × SelectResult)}
    (rotates : Rotates calls state) :
    ∃ final, readyCalls calls state = some (readyAmong pass rest, final) := by
  induction calls generalizing rest state with
  | nil =>
      have ended := (left.asks distinct nonempty).symm.trans rotates
      rw [readyAmong_nil (List.isEmpty_iff.mp ended)]
      exact ⟨state, rfl⟩
  | cons call calls induction =>
      have goesOn := (left.asks distinct nonempty).symm.trans rotates.1
      cases stopped : fromReady pass.1 pass.2 rest with
      | nil =>
          rw [stopped] at goesOn
          cases goesOn
      | cons element later =>
          rcases left.call distinct nonempty stopped call.1 call.2 with ⟨next, called, left'⟩
          have further := rotates.2 _ called
          rcases induction left' further with ⟨final, ran⟩
          apply Exists.intro final
          rw [readyCalls, called, Option.bind_some, ran, readyAmong_cons stopped]
          rfl

/-! ## A whole rotation -/

/-- The books on the registered sockets that a rotation relies on. -/
structure Listed (sockets : Sockets) : Prop where
  distinct : sockets.clientsds.values.Nodup
  saved : ∀ socket, sockets.rsetSaved socket = true ↔ socket ∈ sockets.clientsds.values
  nonzero : sockets.clientsds.values ≠ [] → sockets.maxfdp1 ≠ 0

theorem Listed.of_registered (registered : sockets.Registered) : Listed sockets where
  distinct := registered.distinct
  saved := registered.saved
  nonzero nonempty := by
    rcases registered.largest nonempty with ⟨socket, member, same⟩
    rw [same]
    exact (Int.lt_add_one_of_le (registered.range socket member).1).ne'

/-- What the two calls of `select` return counts what they find: the first one the registered
sockets that can be read and some pending writes, and the second one the registered sockets that
can be written. -/
structure Counts (read write : SelectResult) (sockets : Sockets) : Prop where
  read : ∃ pending : Nat,
    read.rc = (sockets.clientsds.values.filter read.readable).length + pending
  write : write.rc = (sockets.clientsds.values.filter write.writable).length

/-- Where a call that asks `select` looks for a ready socket, and the return code of
`Socket_continueWrites` before. -/
def passState (read write : SelectResult) (sockets : Sockets) (writes : SocketWrites) :
    Option (Int × Sockets × SocketWrites) :=
  let (_, sockets, writes) :=
    findReady (elementsFrom sockets.curClientsds sockets.clientsds) sockets writes
  let pwset := fun socket => writes.pendingWset socket && read.writable socket
  (continueWrites pwset 0 writes).map fun continued =>
    (continued.1,
      { sockets with
        curClientsds := none
        rset := fun socket => sockets.rsetSaved socket && read.readable socket
        wset := fun socket => sockets.rsetSaved socket && write.writable socket },
      continued.2.2)

/-- What the calls of one rotation return: the sockets that are ready at its pass, once each and
in the order of `clientsds`, and no socket with pending output that is not connecting. -/
structure HandsOut (pass : Sockets × SocketWrites) (results : List SOCKET) : Prop where
  ready : results.filter (fun socket => socket != 0) = readyAmong pass pass.1.clientsds.elements
  once : (results.filter fun socket => socket != 0).Nodup
  connecting : ∀ socket ∈ results, socket ≠ 0 → socket ∈ pass.2.writePending.values →
    socket ∈ pass.1.connectPending.values

theorem lookup_isSome_iff {list : LinkedList SOCKET} :
    (list.lookup id socket).isSome = true ↔ socket ∈ list.values := by
  rw [lookup, List.find?_isSome]
  simp

theorem connecting_of_ready (answer : ready sockets writes socket = true)
    (pending : socket ∈ writes.writePending.values) :
    socket ∈ sockets.connectPending.values := by
  rw [← lookup_isSome_iff] at pending ⊢
  by_contra idle
  rw [ready_eq, if_neg (not_and_of_not_left _ idle), Option.isNone_eq_false_iff.mpr pending]
    at answer
  simp at answer

theorem writable_of_ready (answer : ready sockets writes socket = true) :
    sockets.wset socket = true := by
  by_contra blocked
  simp [ready_eq, blocked] at answer

theorem continueWrites_total (pwset : SOCKET → Bool) (sock : SOCKET)
    (consistent : writes.Consistent) :
    ∃ continued, continueWrites pwset sock writes = some continued := by
  rcases continueWritesLoop_invariant (fun _ => True) (fun _ _ _ _ _ _ => trivial)
    (fun _ _ _ _ _ _ _ => trivial) pwset 0 sock writes.writePending.elements writes consistent
    trivial fun _ member => member with ⟨rc, reported, after, looped, -⟩
  exact ⟨(rc, reported, after), looped⟩

theorem asks_spec (listed : Listed sockets) (asking : asks sockets writes = true) :
    sockets.clientsds.values ≠ [] ∧ ∃ after,
      findReady (elementsFrom sockets.curClientsds sockets.clientsds) sockets writes = ([], after) ∧
        Keeps (sockets, writes) after := by
  have nodup := ((elementsFrom_suffix sockets.curClientsds sockets.clientsds).sublist.map
    ListElement.value).nodup listed.distinct
  rcases findReady_eq _ nodup sockets writes with ⟨after, found, keeps, -⟩
  rw [asks, Bool.and_eq_true, decide_eq_true_eq, found] at asking
  have none := List.isEmpty_iff.mp asking.2
  dsimp only at none
  rw [none] at found
  refine ⟨?_, after, found, keeps⟩
  intro empty
  apply asking.1
  rw [count, ← List.length_map ListElement.value]
  exact congrArg List.length empty

section Rotation

variable {read write : SelectResult} {rc : Int} {passed : Sockets × SocketWrites}

theorem passState_total (listed : Listed sockets) (consistent : writes.Consistent)
    (asking : asks sockets writes = true) (read write : SelectResult) :
    ∃ rc passed, passState read write sockets writes = some (rc, passed) := by
  rcases asks_spec listed asking with ⟨-, after, found, keeps⟩
  rcases continueWrites_total (fun socket => after.2.pendingWset socket && read.writable socket) 0
    (keeps.2 consistent) with ⟨continued, wrote⟩
  rw [passState, found]
  dsimp only
  rw [wrote]
  exact ⟨continued.1, _, rfl⟩

theorem takePass (pass : Sockets × SocketWrites) (distinct : pass.1.clientsds.values.Nodup) :
    ∃ next, takeReady (findReady pass.1.clientsds.elements pass.1 pass.2).1
        (findReady pass.1.clientsds.elements pass.1 pass.2).2.1
        (findReady pass.1.clientsds.elements pass.1 pass.2).2.2 =
      (((fromReady pass.1 pass.2 pass.1.clientsds.elements).head?.map ListElement.value).getD 0, 0,
        next) ∧
      Left pass (fromReady pass.1 pass.2 pass.1.clientsds.elements).tail next := by
  rcases findReady_eq pass.1.clientsds.elements distinct pass.1 pass.2 with
    ⟨after, found, keeps, others⟩
  rw [found]
  cases stopped : fromReady pass.1 pass.2 pass.1.clientsds.elements with
  | nil =>
      apply Exists.intro ({ after.1 with curClientsds := none }, after.2)
      exact ⟨rfl, keeps.1.clientsds, List.nil_suffix, rfl, nofun⟩
  | cons element later =>
      have suffix : fromReady pass.1 pass.2 pass.1.clientsds.elements <:+
          pass.1.clientsds.elements := List.dropWhile_suffix _
      rw [stopped] at suffix others
      apply takeReady_left keeps.1.clientsds suffix
      intro other member
      apply others
      rintro first ⟨⟩
      exact value_ne_of_suffix distinct suffix member

theorem fromReady_of_blocked {elements : List (ListElement SOCKET)}
    (blocked : ∀ element ∈ elements, sockets.wset element.value = false) :
    fromReady sockets writes elements = [] := by
  apply List.dropWhile_eq_nil_iff.mpr
  intro element member
  rw [Bool.not_eq_true', Bool.eq_false_iff]
  intro answer
  exact Bool.false_ne_true ((blocked element member).symm.trans (writable_of_ready answer))

theorem firstCall (listed : Listed sockets) (asking : asks sockets writes = true)
    (counts : Counts read write sockets)
    (passes : passState read write sockets writes = some (rc, passed))
    (unfailing : rc ≠ socketError) :
    passed.1.clientsds = sockets.clientsds ∧
      ∃ next, getReadySocket read write sockets writes =
        some (((fromReady passed.1 passed.2 passed.1.clientsds.elements).head?.map
          ListElement.value).getD 0, 0, next) ∧
        Left passed (fromReady passed.1 passed.2 passed.1.clientsds.elements).tail next := by
  rcases asks_spec listed asking with ⟨nonempty, after, found, keeps⟩
  rw [passState, found] at passes
  dsimp only at passes
  rcases Option.map_eq_some_iff.mp passes with ⟨continued, wrote, same⟩
  rw [Prod.mk.injEq] at same
  rcases same with ⟨rfl, reached⟩
  have count : sockets.clientsds.count ≠ 0 := by
    intro empty
    rw [LinkedList.count, ← List.length_map ListElement.value] at empty
    exact nonempty (List.length_eq_zero_iff.mp empty)
  have maxfdp1 : after.1.maxfdp1 ≠ 0 := by
    rw [keeps.1.maxfdp1]
    exact listed.nonzero nonempty
  have readable : read.rc ≠ socketError := by
    rcases counts.read with ⟨pending, counted⟩
    change read.rc ≠ -1
    omega
  have writable : write.rc ≠ socketError := by
    have counted := counts.write
    change write.rc ≠ -1
    omega
  have clientsds : passed.1.clientsds = sockets.clientsds := by
    rw [← reached]
    exact keeps.1.clientsds
  have distinct : passed.1.clientsds.values.Nodup := by
    rw [clientsds]
    exact listed.distinct
  have taken := takePass passed distinct
  refine ⟨clientsds, ?_⟩
  subst reached
  rw [getReadySocket, if_neg count, found]
  dsimp only
  rw [List.isEmpty_nil, if_pos rfl, selectReady, if_neg maxfdp1, if_neg readable]
  dsimp only
  rw [wrote]
  dsimp only
  rw [if_neg unfailing, if_neg writable]
  split
  · rename_i idle
    have blocked : ∀ element ∈ after.1.clientsds.elements,
        (after.1.rsetSaved element.value && write.writable element.value) = false := by
      have counted := counts.write
      rw [idle.2, eq_comm, Int.natCast_eq_zero, List.length_eq_zero_iff, List.filter_eq_nil_iff]
        at counted
      intro element member
      rw [keeps.1.clientsds] at member
      rw [Bool.eq_false_iff.mpr (counted _ (List.mem_map_of_mem member)), Bool.and_false]
    rw [fromReady_of_blocked blocked]
    exact ⟨_, rfl, rfl, List.nil_suffix, rfl, nofun⟩
  · rcases taken with ⟨next, taken, left⟩
    exact ⟨next, congrArg some taken, left⟩

theorem results_eq (pass : Sockets × SocketWrites) (elements : List (ListElement SOCKET)) :
    ((fromReady pass.1 pass.2 elements).head?.map ListElement.value).getD 0 ::
        readyAmong pass (fromReady pass.1 pass.2 elements).tail =
      if readyAmong pass elements = [] then [0] else readyAmong pass elements := by
  cases stopped : fromReady pass.1 pass.2 elements with
  | nil =>
      rw [readyAmong_nil stopped, if_pos rfl]
      rfl
  | cons element later =>
      rw [readyAmong_cons stopped, if_neg (List.cons_ne_nil _ _)]
      rfl

theorem handsOut_results (distinct : pass.1.clientsds.values.Nodup) :
    HandsOut pass (if readyAmong pass pass.1.clientsds.elements = [] then [0]
        else readyAmong pass pass.1.clientsds.elements) ↔
      ¬ (0 ∈ pass.1.clientsds.values ∧ ready pass.1 pass.2 0 = true) := by
  have member : 0 ∈ readyAmong pass pass.1.clientsds.elements ↔
      0 ∈ pass.1.clientsds.values ∧ ready pass.1 pass.2 0 = true := List.mem_filter
  rw [← member]
  by_cases none : readyAmong pass pass.1.clientsds.elements = []
  · rw [if_pos none, none]
    apply iff_of_true _ List.not_mem_nil
    refine ⟨none.symm, List.nodup_nil, ?_⟩
    intro socket single nonzero
    exact absurd (List.mem_singleton.mp single) nonzero
  · rw [if_neg none]
    constructor
    · intro handsOut zero
      have kept := handsOut.ready
      rw [List.filter_eq_self] at kept
      exact absurd (kept 0 zero) (by decide)
    · intro nonzero
      have kept : (readyAmong pass pass.1.clientsds.elements).filter (fun socket => socket != 0) =
          readyAmong pass pass.1.clientsds.elements := by
        apply List.filter_eq_self.mpr
        intro socket inside
        rw [bne_iff_ne]
        rintro rfl
        exact nonzero inside
      refine ⟨kept, ?_, ?_⟩
      · rw [kept]
        exact distinct.filter _
      · intro socket inside _
        exact connecting_of_ready (List.mem_filter.mp inside).2

/-- The calls of one rotation hand out the sockets that are ready at its pass exactly if
descriptor 0 is not one of them: the calls return 0 also when no socket is ready. -/
theorem handsOut_iff (listed : Listed sockets) (consistent : writes.Consistent)
    (asking : asks sockets writes = true) (counts : Counts read write sockets)
    {calls : List (SelectResult × SelectResult)}
    (rotates : ∀ called ∈ getReadySocket read write sockets writes, Rotates calls called.2.2) :
    ∃ rc passed, passState read write sockets writes = some (rc, passed) ∧
      (rc ≠ socketError →
        ((∃ results final, readyCalls ((read, write) :: calls) (sockets, writes) =
            some (results, final) ∧ HandsOut passed results) ↔
          ¬ (0 ∈ sockets.clientsds.values ∧ ready passed.1 passed.2 0 = true))) := by
  rcases passState_total listed consistent asking read write with ⟨rc, passed, passes⟩
  refine ⟨rc, passed, passes, ?_⟩
  intro unfailing
  rcases firstCall listed asking counts passes unfailing with ⟨same, next, called, left⟩
  rcases asks_spec listed asking with ⟨nonempty, -⟩
  have distinct : passed.1.clientsds.values.Nodup := by
    rw [same]
    exact listed.distinct
  have count : passed.1.clientsds.count ≠ 0 := by
    rw [same, LinkedList.count, ← List.length_map ListElement.value]
    exact fun empty => nonempty (List.length_eq_zero_iff.mp empty)
  rcases left.calls distinct count (rotates _ called) with ⟨final, ran⟩
  have results : readyCalls ((read, write) :: calls) (sockets, writes) =
      some (if readyAmong passed passed.1.clientsds.elements = [] then [0]
        else readyAmong passed passed.1.clientsds.elements, final) := by
    rw [readyCalls, called, Option.bind_some, ran, ← results_eq]
    rfl
  rw [← same, ← handsOut_results distinct]
  constructor
  · rintro ⟨results', final', ran', handsOut⟩
    cases results.symm.trans ran'
    exact handsOut
  · intro handsOut
    exact ⟨_, final, results, handsOut⟩

def twoSockets : Sockets :=
  let added := (addSocket 7 (addSocket 5 .start).2).2
  { added with connectPending := added.connectPending.append 7 }

def fiveReadable : SelectResult :=
  ⟨1, fun socket => socket == 5, fun _ => false⟩

def bothWritable : SelectResult :=
  ⟨2, fun _ => false, fun _ => true⟩

/-- Two sockets that are ready are handed out before `select` is asked again. -/
theorem handsOut_iff_two : ∃ passed,
    passState fiveReadable bothWritable twoSockets (.start fun _ => []) = some (0, passed) ∧
    ∃ results final, readyCalls [(fiveReadable, bothWritable), (fiveReadable, bothWritable)]
        (twoSockets, .start fun _ => []) = some (results, final) ∧ HandsOut passed results := by
  have registered : (addSocket 7 (addSocket 5 .start).2).2.Registered := by
    apply addSocket_registered
    · exact addSocket_registered registered_start (by decide)
    · decide
  have listed : Listed twoSockets := by
    apply Listed.of_registered
    exact Registered.of_eq registered rfl rfl rfl registered.current
  have counts : Counts fiveReadable bothWritable twoSockets :=
    ⟨⟨0, by decide +kernel⟩, by decide +kernel⟩
  have rotates : ∀ called ∈ getReadySocket fiveReadable bothWritable twoSockets
      (.start fun _ => []), Rotates [(fiveReadable, bothWritable)] called.2.2 := by decide +kernel
  rcases handsOut_iff listed (.start fun _ => []) (by decide +kernel) counts rotates with
    ⟨rc, passed, passes, rotation⟩
  have observed : (passState fiveReadable bothWritable twoSockets (.start fun _ => [])).map
      Prod.fst = some 0 := by decide +kernel
  rw [passes, Option.map_some, Option.some.injEq] at observed
  cases observed
  refine ⟨passed, passes, ?_⟩
  apply (rotation (by decide)).mpr
  exact fun zero => absurd zero.1 (by decide +kernel)

def zeroSocket : Sockets :=
  (addSocket 0 .start).2

/-- Descriptor 0 is ready, and the call returns what stands for no ready socket. -/
theorem handsOut_fails : ¬ ∀ read write calls sockets writes, Listed sockets →
    writes.Consistent → asks sockets writes = true → Counts read write sockets →
    (∀ called ∈ getReadySocket read write sockets writes, Rotates calls called.2.2) →
    ∃ rc passed, passState read write sockets writes = some (rc, passed) ∧
      (rc ≠ socketError →
        ∃ results final, readyCalls ((read, write) :: calls) (sockets, writes) =
          some (results, final) ∧ HandsOut passed results) := by
  intro all
  rcases all ⟨1, fun _ => true, fun _ => false⟩ ⟨1, fun _ => false, fun _ => true⟩ [] zeroSocket
    (.start fun _ => []) (.of_registered (addSocket_registered registered_start (by decide)))
    (.start fun _ => []) (by decide +kernel) ⟨⟨0, by decide +kernel⟩, by decide +kernel⟩
    (by decide +kernel) with ⟨rc, passed, passes, rotation⟩
  have observed : (passState ⟨1, fun _ => true, fun _ => false⟩
      ⟨1, fun _ => false, fun _ => true⟩ zeroSocket (.start fun _ => [])).map
        (fun pass => (pass.1, readyAmong pass.2 pass.2.1.clientsds.elements)) =
      some (0, [0]) := by decide +kernel
  rw [passes, Option.map_some, Option.some.injEq, Prod.mk.injEq] at observed
  have unfailing : rc ≠ socketError := ne_of_eq_of_ne observed.1 (by decide)
  rcases rotation unfailing with ⟨results, final, ran, handsOut⟩
  have returned : (readyCalls [(⟨1, fun _ => true, fun _ => false⟩,
      ⟨1, fun _ => false, fun _ => true⟩)] (zeroSocket, .start fun _ => [])).map Prod.fst =
      some [0] := by decide +kernel
  rw [ran, Option.map_some, Option.some.injEq] at returned
  have handed := handsOut.ready
  rw [show results = [0] from returned, show readyAmong passed _ = [0] from observed.2] at handed
  cases handed

end Rotation

end Socket

end MqttClient
