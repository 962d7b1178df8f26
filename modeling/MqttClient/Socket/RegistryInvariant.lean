import MqttClient.Socket.PendingBookkeeping

/-! # `Socket`: the registry keeps its books

Which sockets are registered is recorded three times: in `clientsds`, in `rset_saved` and in
`maxfdp1`. The three agree in every run, and `cur_clientsds` never points to an element that
has been freed.
-/

namespace MqttClient

open LinkedList

structure Sockets.Registered (sockets : Sockets) : Prop where
  distinct : sockets.clientsds.values.Nodup
  range : ∀ socket ∈ sockets.clientsds.values, 0 ≤ socket ∧ socket < fdSetSize
  saved : ∀ socket, sockets.rsetSaved socket = true ↔ socket ∈ sockets.clientsds.values
  bound : ∀ socket ∈ sockets.clientsds.values, socket + 1 ≤ sockets.maxfdp1
  largest : sockets.clientsds.values ≠ [] →
    ∃ socket ∈ sockets.clientsds.values, sockets.maxfdp1 = socket + 1
  empty : sockets.clientsds.values = [] → sockets.maxfdp1 ≤ 1
  current : ∀ content, sockets.curClientsds = some content →
    content ∈ sockets.clientsds.elements.map ListElement.content

namespace Socket

variable {sockets : Sockets} {writes : SocketWrites} {socket : SOCKET}

theorem registered_start : Sockets.start.Registered where
  distinct := List.nodup_nil
  range := by simp [Sockets.start]
  saved := by simp [Sockets.start]
  bound := by simp [Sockets.start]
  largest := by simp [Sockets.start]
  empty := by simp [Sockets.start]
  current := by simp [Sockets.start]

theorem Registered.of_eq {before after : Sockets} (registered : before.Registered)
    (elements : after.clientsds.elements = before.clientsds.elements)
    (saved : after.rsetSaved = before.rsetSaved) (maxfdp1 : after.maxfdp1 = before.maxfdp1)
    (current : ∀ content, after.curClientsds = some content →
      content ∈ before.clientsds.elements.map ListElement.content) : after.Registered := by
  have values : after.clientsds.values = before.clientsds.values := by
    rw [LinkedList.values, elements, LinkedList.values]
  obtain ⟨distinct, range, marked, bound, largest, empty, _⟩ := registered
  constructor
  · rwa [values]
  · rwa [values]
  · rwa [values, saved]
  · rwa [values, maxfdp1]
  · rwa [values, maxfdp1]
  · rwa [values, maxfdp1]
  · rwa [elements]

/-! ## Adding -/

theorem findItem_socket (sockets : Sockets) (socket : SOCKET) :
    (sockets.clientsds.findItem (hasKey id socket)).1 = none ↔
      socket ∉ sockets.clientsds.values := by
  rw [findItem_hasKey_eq_none_iff, lookup_eq_none_iff]
  exact ⟨fun absent member => absent socket member rfl,
    fun absent value member same => absent (same ▸ member)⟩

theorem append_registered (registered : sockets.Registered)
    (range : 0 ≤ socket ∧ socket < fdSetSize) (absent : socket ∉ sockets.clientsds.values)
    {clientsds : LinkedList SOCKET} (elements : clientsds.elements = sockets.clientsds.elements) :
    Sockets.Registered { sockets with
      clientsds := clientsds.append socket
      rsetSaved := Function.update sockets.rsetSaved socket true
      maxfdp1 := max sockets.maxfdp1 (socket + 1) } := by
  have values : (clientsds.append socket).values = sockets.clientsds.values ++ [socket] := by
    rw [values_append, LinkedList.values, elements, LinkedList.values]
  constructor
  · rw [values, List.nodup_append]
    refine ⟨registered.distinct, List.nodup_singleton socket, ?_⟩
    rintro other member _ single rfl
    rw [List.mem_singleton.mp single] at member
    exact absent member
  · rw [values]
    simp only [List.mem_append, List.mem_singleton]
    rintro other (member | rfl)
    · exact registered.range other member
    · exact range
  · intro other
    rw [values, List.mem_append, List.mem_singleton]
    by_cases same : other = socket
    · simp [same]
    · simp [registered.saved, same]
  · rw [values]
    simp only [List.mem_append, List.mem_singleton]
    rintro other (member | rfl)
    · exact Int.le_trans (registered.bound other member) (Int.le_max_left ..)
    · exact Int.le_max_right ..
  · intro _
    rw [values]
    simp only
    by_cases larger : sockets.maxfdp1 ≤ socket + 1
    · exact ⟨socket, by simp, Int.max_eq_right larger⟩
    · have nonempty : sockets.clientsds.values ≠ [] := by
        intro nothing
        have small := registered.empty nothing
        exact larger (Int.le_trans small (Int.add_le_add_right range.1 1))
      obtain ⟨other, member, largest⟩ := registered.largest nonempty
      refine ⟨other, List.mem_append_left _ member, ?_⟩
      exact (Int.max_eq_left (Int.le_of_not_le larger)).trans largest
  · intro nothing
    rw [values] at nothing
    simp at nothing
  · intro content here
    rw [elements_append, elements, List.map_append]
    exact List.mem_append_left _ (registered.current content here)

theorem addSocket_registered (registered : sockets.Registered)
    (range : 0 ≤ socket ∧ socket < fdSetSize) : (addSocket socket sockets).2.Registered := by
  have elements := elements_findItem sockets.clientsds (hasKey id socket)
  have absent := findItem_socket sockets socket
  unfold addSocket
  cases search : sockets.clientsds.findItem (hasKey id socket) with
  | mk found clientsds =>
      rw [search] at elements absent
      cases found with
      | some element => exact Registered.of_eq registered elements rfl rfl registered.current
      | none =>
          simp only
          split
          · exact Registered.of_eq registered elements rfl rfl registered.current
          · exact append_registered registered range (absent.mp rfl) elements

/-! ## Closing -/

theorem foldl_max_spec (values : List SOCKET) (start : SOCKET) :
    start ≤ values.foldl max start ∧ (∀ socket ∈ values, socket ≤ values.foldl max start) ∧
      (values.foldl max start = start ∨ values.foldl max start ∈ values) := by
  induction values generalizing start with
  | nil => exact ⟨Int.le_refl _, by simp, .inl rfl⟩
  | cons first values induction =>
      obtain ⟨above, all, found⟩ := induction (max start first)
      rw [List.foldl_cons]
      refine ⟨Int.le_trans (Int.le_max_left ..) above, ?_, ?_⟩
      · simp only [List.mem_cons, forall_eq_or_imp]
        exact ⟨Int.le_trans (Int.le_max_right ..) above, all⟩
      · rcases found with same | member
        · rw [same]
          by_cases larger : start ≤ first
          · rw [Int.max_eq_right larger]
            exact .inr List.mem_cons_self
          · exact .inl (Int.max_eq_left (Int.le_of_not_le larger))
        · exact .inr (List.mem_cons_of_mem _ member)

theorem values_unlink_socket (registered : sockets.Registered) (socket : SOCKET) :
    (sockets.clientsds.unlink (hasKey id socket)).2.values =
      sockets.clientsds.values.filter fun value => value ≠ socket := by
  have distinct : sockets.clientsds.Distinct id := by
    rw [Distinct, List.map_id]
    exact registered.distinct
  exact distinct.values_unlink_hasKey socket

theorem mem_unlink_socket (registered : sockets.Registered) {element : ListElement SOCKET} :
    element ∈ (sockets.clientsds.unlink (hasKey id socket)).2.elements ↔
      element ∈ sockets.clientsds.elements ∧ element.value ≠ socket := by
  have distinct : sockets.clientsds.Distinct id := by
    rw [Distinct, List.map_id]
    exact registered.distinct
  cases found : (sockets.clientsds.findItem (hasKey id socket)).1 with
  | none =>
      have absent := (findItem_socket sockets socket).mp found
      rw [unlink_eq_none found]
      refine ⟨fun member => ⟨member, fun same => absent ?_⟩, And.left⟩
      rw [← same]
      exact List.mem_map_of_mem member
  | some freed =>
      obtain ⟨present, rfl⟩ := findItem_hasKey_eq_some found
      rw [unlink_eq_some found, mem_detachElement]
      refine and_congr_right fun member => not_congr ?_
      exact ⟨fun same => by rw [eq_of_content_eq member present same]; rfl,
        fun same => by rw [distinct.eq_of_key_eq member present same]⟩

theorem elementsFrom_suffix (content : Option Nat) (list : LinkedList SOCKET) :
    elementsFrom content list <:+ list.elements := by
  cases content with
  | none => exact List.nil_suffix
  | some content => exact List.dropWhile_suffix _

/-- Where `cur_clientsds` goes when a socket is closed. -/
def curBehind (socket : SOCKET) : List (ListElement SOCKET) → Option Nat
  | [] => none
  | element :: later =>
      if element.value = socket then later.head?.map ListElement.content
      else some element.content

theorem closeRegistered_snd (socket : SOCKET) (sockets : Sockets) :
    (closeRegistered socket sockets).2 = { sockets with
      rsetSaved := Function.update sockets.rsetSaved socket false
      curClientsds := curBehind socket (elementsFrom sockets.curClientsds sockets.clientsds)
      connectPending := (sockets.connectPending.unlink (hasKey id socket)).2
      clientsds := (sockets.clientsds.unlink (hasKey id socket)).2
      maxfdp1 :=
        if (sockets.clientsds.unlink (hasKey id socket)).1.isSome ∧
            socket + 1 ≥ sockets.maxfdp1 then
          (sockets.clientsds.unlink (hasKey id socket)).2.values.foldl max 0 + 1
        else sockets.maxfdp1 } := by
  unfold closeRegistered
  cases elementsFrom sockets.curClientsds sockets.clientsds <;>
    cases unlinked : sockets.clientsds.unlink (hasKey id socket) with
    | mk freed clientsds => cases freed <;> simp [curBehind, unlinked]

theorem curBehind_mem (registered : sockets.Registered) {content : Nat}
    (current : curBehind socket (elementsFrom sockets.curClientsds sockets.clientsds) =
      some content) :
    content ∈ (sockets.clientsds.unlink (hasKey id socket)).2.elements.map
      ListElement.content := by
  have suffix := elementsFrom_suffix sockets.curClientsds sockets.clientsds
  have kept : ∃ element ∈ elementsFrom sockets.curClientsds sockets.clientsds,
      element.value ≠ socket ∧ element.content = content := by
    cases left : elementsFrom sockets.curClientsds sockets.clientsds with
    | nil =>
        rw [left] at current
        exact absurd current nofun
    | cons element later =>
        rw [left, curBehind] at current
        rw [left] at suffix
        split at current
        · rename_i freed
          obtain ⟨next, first, rfl⟩ := Option.map_eq_some_iff.mp current
          have member := List.mem_of_mem_head? first
          have distinct := (suffix.sublist.map ListElement.value).nodup registered.distinct
          rw [List.map_cons, List.nodup_cons] at distinct
          refine ⟨next, List.mem_cons_of_mem _ member, fun same => distinct.1 ?_, rfl⟩
          rw [freed, ← same]
          exact List.mem_map_of_mem member
        · rename_i different
          exact ⟨element, List.mem_cons_self, different, Option.some.inj current⟩
  obtain ⟨element, member, different, rfl⟩ := kept
  exact List.mem_map_of_mem
    ((mem_unlink_socket registered).mpr ⟨suffix.subset member, different⟩)

theorem unlink_socket_isSome (present : socket ∈ sockets.clientsds.values) :
    (sockets.clientsds.unlink (hasKey id socket)).1.isSome = true := by
  cases found : (sockets.clientsds.findItem (hasKey id socket)).1 with
  | none => exact absurd present ((findItem_socket sockets socket).mp found)
  | some element => rw [unlink_eq_some found, Option.isSome_some]

theorem closeRegistered_registered (registered : sockets.Registered) (socket : SOCKET) :
    (closeRegistered socket sockets).2.Registered := by
  have values := values_unlink_socket registered socket
  have member (other : SOCKET) :
      other ∈ (sockets.clientsds.unlink (hasKey id socket)).2.values ↔
        other ∈ sockets.clientsds.values ∧ other ≠ socket := by
    rw [values]
    simp
  rw [closeRegistered_snd]
  constructor
  · rw [values]
    exact registered.distinct.filter _
  · exact fun other inside => registered.range other ((member other).mp inside).1
  · intro other
    rw [member]
    by_cases same : other = socket
    · simp [same]
    · simp [same, registered.saved]
  · intro other inside
    obtain ⟨present, different⟩ := (member other).mp inside
    dsimp only
    split
    · exact Int.add_le_add_right ((foldl_max_spec _ 0).2.1 other inside) 1
    · exact registered.bound other present
  · intro nonempty
    dsimp only at nonempty ⊢
    split
    · obtain ⟨-, -, found⟩ :=
        foldl_max_spec (sockets.clientsds.unlink (hasKey id socket)).2.values 0
      rcases found with zero | inside
      · obtain ⟨other, inside⟩ := List.exists_mem_of_ne_nil _ nonempty
        have above := (foldl_max_spec _ 0).2.1 other inside
        have range := (registered.range other ((member other).mp inside).1).1
        refine ⟨other, inside, ?_⟩
        rw [Int.le_antisymm above (by rw [zero]; exact range)]
      · exact ⟨_, inside, rfl⟩
    · rename_i kept
      obtain ⟨other, inside⟩ := List.exists_mem_of_ne_nil _ nonempty
      obtain ⟨big, present, largest⟩ :=
        registered.largest (List.ne_nil_of_mem ((member other).mp inside).1)
      refine ⟨big, (member big).mpr ⟨present, ?_⟩, largest⟩
      rintro rfl
      exact kept ⟨unlink_socket_isSome present, Int.le_of_eq largest⟩
  · intro empty
    dsimp only at empty ⊢
    rw [empty]
    split
    · exact Int.le_refl 1
    · rename_i kept
      by_cases before : sockets.clientsds.values = []
      · exact registered.empty before
      · obtain ⟨big, present, largest⟩ := registered.largest before
        have same : big = socket := by
          by_contra different
          have inside := (member big).mpr ⟨present, different⟩
          rw [empty] at inside
          exact absurd inside List.not_mem_nil
        subst same
        exact absurd ⟨unlink_socket_isSome present, Int.le_of_eq largest⟩ kept
  · exact fun content => curBehind_mem registered

/-! ## The next ready socket -/

/-- `isReady` leaves the registry alone. -/
structure SameRegistry (before after : Sockets) : Prop where
  clientsds : after.clientsds = before.clientsds
  rsetSaved : after.rsetSaved = before.rsetSaved
  maxfdp1 : after.maxfdp1 = before.maxfdp1
  curClientsds : after.curClientsds = before.curClientsds

theorem SameRegistry.refl (sockets : Sockets) : SameRegistry sockets sockets :=
  ⟨rfl, rfl, rfl, rfl⟩

theorem SameRegistry.trans {first second third : Sockets} (one : SameRegistry first second)
    (two : SameRegistry second third) : SameRegistry first third :=
  ⟨two.clientsds.trans one.clientsds, two.rsetSaved.trans one.rsetSaved,
    two.maxfdp1.trans one.maxfdp1, two.curClientsds.trans one.curClientsds⟩

theorem isReady_spec (consistent : writes.Consistent) (flagged : writes.Flagged)
    (socket : SOCKET) (sockets : Sockets) :
    ∃ answer after writes', isReady socket sockets writes = (answer, after, writes') ∧
      SameRegistry sockets after ∧ writes'.Consistent ∧ writes'.Flagged := by
  obtain ⟨writePending, asked, searched⟩ := noPendingWrites_spec consistent socket
  unfold isReady
  simp only [asked]
  split
  · exact ⟨_, _, _, rfl, ⟨rfl, rfl, rfl, rfl⟩, consistent, flagged⟩
  · split
    · exact ⟨_, _, _, rfl, ⟨rfl, rfl, rfl, rfl⟩, searched, flagged⟩
    · exact ⟨_, _, _, rfl, ⟨rfl, rfl, rfl, rfl⟩, consistent, flagged⟩

theorem findReady_spec (elements : List (ListElement SOCKET)) (consistent : writes.Consistent)
    (flagged : writes.Flagged) (sockets : Sockets) :
    ∃ ready after writes', findReady elements sockets writes = (ready, after, writes') ∧
      ready <:+ elements ∧ SameRegistry sockets after ∧ writes'.Consistent ∧
      writes'.Flagged := by
  induction elements generalizing sockets writes with
  | nil => exact ⟨[], _, _, rfl, List.suffix_refl _, .refl _, consistent, flagged⟩
  | cons element later induction =>
      obtain ⟨answer, after, writes', asked, same, consistent, flagged⟩ :=
        isReady_spec consistent flagged element.value sockets
      rw [findReady, asked]
      cases answer with
      | true =>
          exact ⟨_, _, _, rfl, List.suffix_refl _, same, consistent, flagged⟩
      | false =>
          obtain ⟨ready, last, writes'', found, suffix, same', consistent, flagged⟩ :=
            induction consistent flagged after
          exact ⟨ready, last, writes'', found, suffix.trans (List.suffix_cons ..),
            same.trans same', consistent, flagged⟩

theorem takeReady_spec {ready : List (ListElement SOCKET)} {before : Sockets}
    (registered : before.Registered) (same : SameRegistry before sockets)
    (suffix : ready <:+ before.clientsds.elements) (writes : SocketWrites) :
    ∃ sock rc after, takeReady ready sockets writes = (sock, rc, after, writes) ∧
      after.Registered := by
  have elements : sockets.clientsds.elements = before.clientsds.elements :=
    congrArg LinkedList.elements same.clientsds
  cases ready with
  | nil =>
      exact ⟨_, _, _, rfl,
        Registered.of_eq registered elements same.rsetSaved same.maxfdp1 nofun⟩
  | cons element later =>
      refine ⟨_, _, _, rfl,
        Registered.of_eq registered elements same.rsetSaved same.maxfdp1 fun content here => ?_⟩
      obtain ⟨next, first, rfl⟩ := Option.map_eq_some_iff.mp here
      exact List.mem_map_of_mem
        (suffix.subset (List.mem_cons_of_mem _ (List.mem_of_mem_head? first)))

theorem selectReady_registered (registered : sockets.Registered)
    (cleared : sockets.curClientsds = none) (consistent : writes.Consistent)
    (flagged : writes.Flagged) (read write : SelectResult) :
    ∃ sock rc after writes', selectReady read write sockets writes =
        some (sock, rc, after, writes') ∧
      after.Registered ∧ writes'.Consistent ∧ writes'.Flagged := by
  have unchanged {after : Sockets} (same : SameRegistry sockets after) : after.Registered := by
    refine Registered.of_eq registered ?_ same.rsetSaved same.maxfdp1 fun content here => ?_
    · exact congrArg LinkedList.elements same.clientsds
    · rw [same.curClientsds, cleared] at here
      exact absurd here nofun
  unfold selectReady
  split
  · exact ⟨_, _, _, _, rfl, unchanged ⟨rfl, rfl, rfl, rfl⟩, consistent, flagged⟩
  · split
    · exact ⟨_, _, _, _, rfl, unchanged ⟨rfl, rfl, rfl, rfl⟩, consistent, flagged⟩
    · obtain ⟨rc, sock, continued, called, consistent, flagged⟩ := continueWrites_flagged
        consistent flagged (fun socket => writes.pendingWset socket && read.writable socket) 0
      simp only [called]
      split
      · exact ⟨_, _, _, _, rfl, unchanged ⟨rfl, rfl, rfl, rfl⟩, consistent, flagged⟩
      · split
        · exact ⟨_, _, _, _, rfl, unchanged ⟨rfl, rfl, rfl, rfl⟩, consistent, flagged⟩
        · split
          · exact ⟨_, _, _, _, rfl, unchanged ⟨rfl, rfl, rfl, rfl⟩, consistent, flagged⟩
          · obtain ⟨ready, after, writes', found, suffix, same, consistent, flagged⟩ :=
              findReady_spec sockets.clientsds.elements consistent flagged { sockets with
                rset := fun socket => sockets.rsetSaved socket && read.readable socket
                wset := fun socket => sockets.rsetSaved socket && write.writable socket }
            obtain ⟨sock, rc, last, taken, registered⟩ := takeReady_spec registered
              ⟨same.clientsds, same.rsetSaved, same.maxfdp1, same.curClientsds⟩ suffix writes'
            simp only [found, taken]
            exact ⟨_, _, _, _, rfl, registered, consistent, flagged⟩

theorem getReadySocket_registered (registered : sockets.Registered)
    (consistent : writes.Consistent) (flagged : writes.Flagged) (read write : SelectResult) :
    ∃ sock rc after writes', getReadySocket read write sockets writes =
        some (sock, rc, after, writes') ∧
      after.Registered ∧ writes'.Consistent ∧ writes'.Flagged := by
  unfold getReadySocket
  split
  · exact ⟨_, _, _, _, rfl, registered, consistent, flagged⟩
  · obtain ⟨ready, after, writes', found, suffix, same, consistent, flagged⟩ :=
      findReady_spec (elementsFrom sockets.curClientsds sockets.clientsds) consistent flagged
        sockets
    simp only [found]
    split
    · refine selectReady_registered ?_ rfl consistent flagged read write
      exact Registered.of_eq registered (congrArg LinkedList.elements same.clientsds)
        same.rsetSaved same.maxfdp1 nofun
    · obtain ⟨sock, rc, last, taken, registered⟩ := takeReady_spec registered same
        (suffix.trans (elementsFrom_suffix _ _)) writes'
      rw [taken]
      exact ⟨_, _, _, _, rfl, registered, consistent, flagged⟩

/-! ## Runs -/

/-- A call of the module. `putdatas` does not touch the registry; it makes writes pending, which
`getReadySocket` continues. -/
inductive RegistryCall
  | addSocket (socket : SOCKET)
  | close (socket : SOCKET)
  | getReadySocket (read write : SelectResult)
  | putdatas (socket : SOCKET) (buf0 : List UInt8) (bufs : PacketBuffers)

/-- A descriptor that is added or closed fits into a descriptor set. -/
def RegistryCall.InRange : RegistryCall → Prop
  | .addSocket socket | .close socket => 0 ≤ socket ∧ socket < fdSetSize
  | .getReadySocket .. | .putdatas .. => True

structure RegistryState where
  sockets : Sockets
  reads : SocketReads UInt8
  writes : SocketWrites

def stepRegistry (state : RegistryState) : RegistryCall → Option RegistryState
  | .addSocket socket => some { state with sockets := (addSocket socket state.sockets).2 }
  | .close socket =>
      let closed := close socket state.sockets state.reads state.writes
      some ⟨closed.2.1, closed.2.2.1, closed.2.2.2⟩
  | .getReadySocket read write =>
      (getReadySocket read write state.sockets state.writes).map fun called =>
        { state with sockets := called.2.2.1, writes := called.2.2.2 }
  | .putdatas socket buf0 bufs =>
      some { state with writes := (putdatas socket buf0 bufs state.writes).2 }

def runRegistry : List RegistryCall → RegistryState → Option RegistryState
  | [], state => some state
  | call :: calls, state => (stepRegistry state call).bind (runRegistry calls)

theorem stepRegistry_spec {state : RegistryState} (registered : state.sockets.Registered)
    (consistent : state.writes.Consistent) (flagged : state.writes.Flagged) (call : RegistryCall)
    (range : call.InRange) :
    ∃ after, stepRegistry state call = some after ∧ after.sockets.Registered ∧
      after.writes.Consistent ∧ after.writes.Flagged := by
  cases call with
  | addSocket socket =>
      exact ⟨_, rfl, addSocket_registered registered range, consistent, flagged⟩
  | close socket =>
      exact ⟨_, rfl, closeRegistered_registered registered socket,
        closeWrites_spec consistent flagged socket⟩
  | getReadySocket read write =>
      obtain ⟨sock, rc, after, writes, called, spec⟩ :=
        getReadySocket_registered registered consistent flagged read write
      exact ⟨⟨after, state.reads, writes⟩, by rw [stepRegistry, called, Option.map_some], spec⟩
  | putdatas socket buf0 bufs =>
      exact ⟨_, rfl, registered, (putdatas_spec consistent socket buf0 bufs).2.1,
        putdatas_flagged consistent flagged socket buf0 bufs⟩

theorem runRegistry_spec (calls : List RegistryCall) {state : RegistryState}
    (registered : state.sockets.Registered) (consistent : state.writes.Consistent)
    (flagged : state.writes.Flagged) (range : ∀ call ∈ calls, call.InRange) :
    ∃ after, runRegistry calls state = some after ∧ after.sockets.Registered := by
  induction calls generalizing state with
  | nil => exact ⟨state, rfl, registered⟩
  | cons call calls induction =>
      rw [List.forall_mem_cons] at range
      obtain ⟨middle, stepped, registered, consistent, flagged⟩ :=
        stepRegistry_spec registered consistent flagged call range.1
      rw [runRegistry, stepped, Option.bind_some]
      exact induction registered consistent flagged range.2

/-- Every run of calls with descriptors that fit into a set goes through and keeps the books:
no socket is registered twice, `rset_saved` is the set of the registered sockets, `maxfdp1` is
one more than the largest of them, and `cur_clientsds` is NULL or one of their elements. -/
theorem registry_agrees (calls : List RegistryCall) (range : ∀ call ∈ calls, call.InRange)
    (reads : SocketReads UInt8) (outbound : SOCKET → List WritevEvent) :
    ∃ state, runRegistry calls ⟨.start, reads, .start outbound⟩ = some state ∧
      state.sockets.clientsds.values.Nodup ∧
      (∀ socket, state.sockets.rsetSaved socket = true ↔
        socket ∈ state.sockets.clientsds.values) ∧
      (state.sockets.clientsds.values ≠ [] → ∃ socket ∈ state.sockets.clientsds.values,
        (∀ other ∈ state.sockets.clientsds.values, other ≤ socket) ∧
          state.sockets.maxfdp1 = socket + 1) ∧
      ∀ content, state.sockets.curClientsds = some content →
        ∃ element ∈ state.sockets.clientsds.elements, element.content = content := by
  obtain ⟨state, ran, registered⟩ := @runRegistry_spec calls ⟨.start, reads, .start outbound⟩
    registered_start (.start outbound) (fun _ => rfl) range
  refine ⟨state, ran, registered.distinct, registered.saved, ?_, ?_⟩
  · intro nonempty
    obtain ⟨socket, member, value⟩ := registered.largest nonempty
    refine ⟨socket, member, fun other present => ?_, value⟩
    exact Int.le_of_add_le_add_right (value ▸ registered.bound other present)
  · intro content here
    exact List.mem_map.mp (registered.current content here)

/-- Of two sockets that are ready, the second is next when the first is closed. -/
theorem registry_agrees_two : ∃ state, runRegistry
    [.addSocket 5, .addSocket 7, .addSocket 5,
      .getReadySocket ⟨2, fun _ => true, fun _ => false⟩ ⟨2, fun _ => false, fun _ => true⟩,
      .close 5, .close 9] ⟨.start, ⟨.start, fun _ => []⟩, .start fun _ => []⟩ = some state ∧
      state.sockets.clientsds.values = [7] ∧ state.sockets.maxfdp1 = 8 ∧
      state.sockets.curClientsds = some 1 ∧
      ∃ element ∈ state.sockets.clientsds.elements, element.content = 1 := by
  obtain ⟨state, ran, -, -, -, current⟩ := registry_agrees
    [.addSocket 5, .addSocket 7, .addSocket 5,
      .getReadySocket ⟨2, fun _ => true, fun _ => false⟩ ⟨2, fun _ => false, fun _ => true⟩,
      .close 5, .close 9] (by simp [RegistryCall.InRange]) ⟨.start, fun _ => []⟩ fun _ => []
  have observed : (runRegistry
      [.addSocket 5, .addSocket 7, .addSocket 5,
        .getReadySocket ⟨2, fun _ => true, fun _ => false⟩ ⟨2, fun _ => false, fun _ => true⟩,
        .close 5, .close 9] ⟨.start, ⟨.start, fun _ => []⟩, .start fun _ => []⟩).map
          (fun state => (state.sockets.clientsds.values, state.sockets.maxfdp1,
            state.sockets.curClientsds)) = some ([7], 8, some 1) := by decide +kernel
  rw [ran, Option.map_some, Option.some.injEq, Prod.mk.injEq, Prod.mk.injEq] at observed
  exact ⟨state, ran, observed.1, observed.2.1, observed.2.2, current 1 observed.2.2⟩

end Socket

end MqttClient
