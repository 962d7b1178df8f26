import MqttClient.Socket.WriteStream

/-! # One pass over the pending writes

Which sockets `Socket_continueWrites` continues. After a removal the loop goes on at the
`current` of the list, which some earlier search left behind.
-/

namespace MqttClient

open Foundation LinkedList

namespace Socket

variable {state after : SocketWrites} {socket : SOCKET}

/-! ## The calls of a pass -/

theorem fewer_remaining {before : SocketWrites} {rc : Int} {content : Nat}
    {element removed : ListElement SOCKET} {later : List (ListElement SOCKET)}
    {writePending : LinkedList SOCKET}
    (continued : continueWrite socket before = some (rc, after))
    (taken : after.writePending.remove content = (some removed, writePending)) :
    writePending.elements.length * writePending.elements.length +
        (fromCurrent writePending).length <
      before.writePending.elements.length * before.writePending.elements.length +
        (element :: later).length := by
  have shorter := LinkedList.length_remove taken
  rw [writePending_continueWrite continued] at shorter
  have rest := length_fromCurrent_le writePending
  have square := Nat.mul_le_mul (Nat.succ_le_of_lt shorter) (Nat.succ_le_of_lt shorter)
  rw [Nat.succ_mul, Nat.mul_succ] at square
  rw [List.length_cons]
  omega

/-- The calls of `Socket_continueWrite` that the loop of `Socket_continueWrites` makes from
some elements on, with what they return, and the state that it leaves. -/
def continueWritesCalls (pwset : SOCKET → Bool) (curpending : List (ListElement SOCKET))
    (state : SocketWrites) : Option (List (SOCKET × Int) × SocketWrites) :=
  match curpending with
  | [] => some ([], state)
  | element :: later =>
      if pwset element.value then
        match _continued : continueWrite element.value state with
        | none => none
        | some (rc, after) =>
            if rc ≠ 0 then
              match _taken : after.writePending.remove element.content with
              | (none, _) => none
              | (some _, writePending) =>
                  (continueWritesCalls pwset (fromCurrent writePending)
                    (removePending element.value writePending after)).map
                      (Prod.map ((element.value, rc) :: ·) id)
            else
              (continueWritesCalls pwset later after).map (Prod.map ((element.value, rc) :: ·) id)
      else continueWritesCalls pwset later state
termination_by state.writePending.elements.length * state.writePending.elements.length +
  curpending.length
decreasing_by
  · exact fewer_remaining _continued _taken
  · rw [writePending_continueWrite _continued]
    exact Nat.lt_succ_self _
  · exact Nat.lt_succ_self _

section Calls

variable {pwset : SOCKET → Bool} {element : ListElement SOCKET}
  {later : List (ListElement SOCKET)}

theorem calls_skip (waits : pwset element.value = false) :
    continueWritesCalls pwset (element :: later) state =
      continueWritesCalls pwset later state := by
  rw [continueWritesCalls, waits]
  rfl

theorem calls_stay (writable : pwset element.value = true)
    (continued : continueWrite element.value state = some (0, after)) :
    continueWritesCalls pwset (element :: later) state =
      (continueWritesCalls pwset later after).map (Prod.map ((element.value, 0) :: ·) id) := by
  rw [continueWritesCalls, if_pos writable]
  split
  · rename_i missing
    exact absurd (continued.symm.trans missing) nofun
  · rename_i rc reached same
    cases continued.symm.trans same
    rfl

theorem calls_leave {rc : Int} {removed : ListElement SOCKET} {writePending : LinkedList SOCKET}
    (writable : pwset element.value = true)
    (continued : continueWrite element.value state = some (rc, after)) (finished : rc ≠ 0)
    (taken : after.writePending.remove element.content = (some removed, writePending)) :
    continueWritesCalls pwset (element :: later) state =
      (continueWritesCalls pwset (fromCurrent writePending)
        (removePending element.value writePending after)).map
          (Prod.map ((element.value, rc) :: ·) id) := by
  rw [continueWritesCalls, if_pos writable]
  split
  · rename_i missing
    exact absurd (continued.symm.trans missing) nofun
  · rename_i rc' reached same
    cases continued.symm.trans same
    rw [if_pos finished]
    split
    · rename_i missing
      cases taken.symm.trans missing
    · rename_i same
      cases taken.symm.trans same
      rfl

theorem continueWritesLoop_calls (pwset : SOCKET → Bool) (rc1 : Int) (sock : SOCKET)
    (curpending : List (ListElement SOCKET)) (state : SocketWrites) :
    (continueWritesLoop pwset rc1 sock curpending state).map (fun result => result.2.2) =
      (continueWritesCalls pwset curpending state).map Prod.snd := by
  fun_induction continueWritesLoop pwset rc1 sock curpending state with
  | case1 rc1 sock state =>
      rw [continueWritesCalls]
      rfl
  | case2 rc1 sock state element later socket writable called =>
      rw [continueWritesCalls, if_pos writable]
      split
      · rfl
      · rename_i same
        cases called.symm.trans same
  | case3 rc1 sock state element later socket writable rc after called finished _ removed =>
      rw [continueWritesCalls, if_pos writable]
      split
      · rfl
      · rename_i same
        cases called.symm.trans same
        rw [if_pos finished]
        split
        · rfl
        · rename_i taken
          cases removed.symm.trans taken
  | case4 rc1 sock state element later socket writable rc after called finished writes _
      writePending removed report induction =>
      rw [calls_leave writable called finished removed, induction, Option.map_map]
      rfl
  | case5 rc1 sock state element later socket writable rc after called unfinished induction =>
      rw [ne_eq, Decidable.not_not] at unfinished
      subst unfinished
      rw [calls_stay writable called, induction, Option.map_map]
      rfl
  | case6 rc1 sock state element later socket waits induction =>
      rw [calls_skip (Bool.eq_false_iff.mpr waits), induction]

end Calls

/-! ## What a call does -/

/-- The next `writev` on a socket sends all that is left of its pending write, or fails. -/
def Finishes (state : SocketWrites) (socket : SOCKET) : Bool :=
  match state.pending socket, state.outbound socket with
  | some _, .failed :: _ => true
  | some pw, .accept count :: _ => pw.total - pw.bytes ≤ min count maxRwCount
  | _, _ => false

theorem writev_elsewhere (iovecs : List (List UInt8)) (state : SocketWrites) {other : SOCKET}
    (different : other ≠ socket) :
    (writev socket iovecs state).2.2.outbound other = state.outbound other := by
  rw [writev]
  cases next : state.outbound socket with
  | nil => rfl
  | cons event rest =>
      cases event with
      | wouldBlock => exact Function.update_of_ne different ..
      | failed => exact Function.update_of_ne different ..
      | accept count => exact Function.update_of_ne different ..

theorem continueWrite_elsewhere {rc : Int}
    (continued : continueWrite socket state = some (rc, after)) {other : SOCKET}
    (different : other ≠ socket) :
    after.outbound other = state.outbound other := by
  rw [continueWrite] at continued
  cases search : SocketBuffer.getWrite socket state.writes with
  | mk found writes =>
      rw [search] at continued
      cases found with
      | none => cases continued
      | some element =>
          have kept := writev_elsewhere
            (remainingIovecs element.value.bytes 0 element.value.iovecs)
            { state with writes := writes } different
          dsimp only at continued
          by_cases failed : (writev socket (remainingIovecs element.value.bytes 0
              element.value.iovecs) { state with writes := writes }).1 ≠ socketError
          · rw [if_pos failed] at continued
            cases continued
            exact kept
          · rw [if_neg failed] at continued
            cases continued
            exact kept

theorem continueWrite_finishes (consistent : state.Consistent) {pw : PendingWrites}
    (found : state.pending socket = some pw) {rc : Int}
    (continued : continueWrite socket state = some (rc, after)) :
    rc ≠ 0 ↔ Finishes state socket = true := by
  have measured := consistent.measured socket pw found
  rcases consistent.writesDistinct.findItem_of_lookup found with
    ⟨element, writes, search, rfl, -⟩
  have left : (remainingIovecs element.value.bytes 0 element.value.iovecs).flatten.length =
      element.value.total - element.value.bytes := by
    rw [flatten_remainingIovecs, List.length_drop, measured.1]
    rfl
  rw [continueWrite, SocketBuffer.getWrite, search] at continued
  rw [Finishes, found]
  simp only [writev] at continued
  have part : element.value.bytes + 0 ≠ element.value.total := by omega
  cases next : state.outbound socket with
  | nil =>
      simp only [next] at continued
      rw [if_pos (by decide), if_neg part] at continued
      cases continued
      simp
  | cons event rest =>
      cases event with
      | wouldBlock =>
          simp only [next] at continued
          rw [if_pos (by decide), if_neg part] at continued
          cases continued
          simp
      | failed =>
          simp only [next] at continued
          rw [if_neg (by decide)] at continued
          cases continued
          simp [socketError]
      | accept count =>
          simp only [next, left] at continued
          rw [if_pos (by unfold socketError; omega)] at continued
          have whole : element.value.bytes + min count
                (min (element.value.total - element.value.bytes) maxRwCount) =
              element.value.total ↔
                element.value.total - element.value.bytes ≤ min count maxRwCount := by
            omega
          simp only [whole] at continued
          cases continued
          simp

/-! ## What a pass does -/

section Pass

variable {pwset : SOCKET → Bool} {curpending : List (ListElement SOCKET)}
  {calls : List (SOCKET × Int)}

theorem calls_total (pwset : SOCKET → Bool) (consistent : state.Consistent)
    (members : ∀ element ∈ curpending, element ∈ state.writePending.elements) :
    ∃ result, continueWritesCalls pwset curpending state = some result := by
  rcases continueWritesLoop_invariant (fun _ => True) (fun _ _ _ _ _ _ => trivial)
    (fun _ _ _ _ _ _ _ => trivial) pwset 0 0 curpending state consistent trivial members with
    ⟨rc, reported, after, looped, -⟩
  have same := continueWritesLoop_calls pwset 0 0 curpending state
  rw [looped, Option.map_some, eq_comm, Option.map_eq_some_iff] at same
  rcases same with ⟨result, ran, -⟩
  exact ⟨result, ran⟩

theorem remove_eq_some {list writePending : LinkedList SOCKET} {content : Nat}
    {removed : ListElement SOCKET} (taken : list.remove content = (some removed, writePending)) :
    removed ∈ list.elements ∧ removed.content = content ∧
      writePending = list.detachElement removed := by
  cases found : (list.findItem fun element => element.content == content).1 with
  | none =>
      rw [remove, unlink_eq_none found] at taken
      cases taken
  | some element =>
      rw [remove, unlink_eq_some found] at taken
      cases taken
      have holds := findItem_eq_some found
      exact ⟨holds.1, by simpa using holds.2, rfl⟩

def fromContent (content : Nat) (elements : List (ListElement SOCKET)) :
    List (ListElement SOCKET) :=
  elements.dropWhile fun element => element.content != content

theorem fromContent_append {content : Nat} {front : List (ListElement SOCKET)}
    (absent : content ∉ front.map ListElement.content) (back : List (ListElement SOCKET)) :
    fromContent content (front ++ back) = fromContent content back := by
  induction front with
  | nil => rfl
  | cons element front induction =>
      rw [List.map_cons, List.mem_cons, not_or] at absent
      have different : (element.content != content) = true := bne_iff_ne.mpr (Ne.symm absent.1)
      rw [List.cons_append, fromContent, List.dropWhile_cons, if_pos different]
      exact induction absent.2

theorem fromContent_self (element : ListElement SOCKET) (back : List (ListElement SOCKET)) :
    fromContent element.content (element :: back) = element :: back := by
  rw [fromContent, List.dropWhile_cons_of_neg (by simp)]

theorem mem_fromContent_filter {content : Nat} (kept : ListElement SOCKET → Bool)
    {elements : List (ListElement SOCKET)} {other : ListElement SOCKET}
    (there : other ∈ fromContent content (elements.filter kept)) :
    other ∈ fromContent content elements := by
  induction elements with
  | nil => exact there
  | cons element elements induction =>
      rw [fromContent, List.dropWhile_cons]
      by_cases here : (element.content != content) = true
      · rw [if_pos here]
        apply induction
        rw [List.filter_cons] at there
        split at there
        · rwa [fromContent, List.dropWhile_cons, if_pos here] at there
        · exact there
      · rw [if_neg here]
        have inside := (List.dropWhile_sublist _).subset there
        exact (List.filter_sublist).subset inside

/-! Where a pass goes on after a removal. -/

section Removal

variable {list : LinkedList SOCKET} {front back : List (ListElement SOCKET)}
  {element : ListElement SOCKET}

theorem fromCurrent_of_none (nowhere : list.current = none) :
    fromCurrent (list.detachElement element) = [] := by
  simp [fromCurrent, detachElement, nowhere]

theorem fromCurrent_of_ne (whole : list.elements = front ++ element :: back) {content : Nat}
    (elsewhere : list.current = some content) (different : content ≠ element.content) :
    fromCurrent (list.detachElement element) = fromContent content (front ++ back) := by
  have kept : (list.detachElement element).current = some content := by
    simp only [detachElement, elsewhere, Option.some.injEq, if_neg different]
  rw [fromCurrent, kept, elements_detachElement_split whole]
  rfl

theorem fromCurrent_of_eq (whole : list.elements = front ++ element :: back)
    (here : list.current = some element.content) :
    fromCurrent (list.detachElement element) = back := by
  have moved : (list.detachElement element).current = back.head?.map ListElement.content := by
    simp only [detachElement, here, if_true, whole, elementAfter_eq (content_around whole).1]
  rw [fromCurrent, moved]
  cases back with
  | nil => rfl
  | cons next back =>
      have absent : next.content ∉ front.map ListElement.content := by
        have nodup := list.nodup
        rw [whole, List.map_append, List.nodup_append] at nodup
        intro inside
        exact nodup.2.2 _ inside next.content (by simp) rfl
      rw [elements_detachElement_split whole]
      exact (fromContent_append absent _).trans (fromContent_self next back)

theorem mem_fromCurrent_of_detachElement (member : element ∈ list.elements)
    {other : ListElement SOCKET} (there : other ∈ fromCurrent (list.detachElement element)) :
    other ∈ fromCurrent list := by
  rcases List.append_of_mem member with ⟨front, back, whole⟩
  cases current : list.current with
  | none =>
      rw [fromCurrent_of_none current] at there
      cases there
  | some content =>
      have same : fromCurrent list = fromContent content list.elements := by
        rw [fromCurrent, current]
        rfl
      rw [same]
      by_cases here : content = element.content
      · subst here
        rw [fromCurrent_of_eq whole current] at there
        rw [whole, fromContent_append (content_around whole).1, fromContent_self]
        exact List.mem_cons_of_mem _ there
      · rw [fromCurrent_of_ne whole current here, ← elements_detachElement_split whole] at there
        exact mem_fromContent_filter _ there

end Removal

theorem calls_mem (Allowed : SOCKET → Prop) {final : SocketWrites}
    (ran : continueWritesCalls pwset curpending state = some (calls, final))
    (rest : ∀ element ∈ curpending, Allowed element.value)
    (behind : ∀ element ∈ fromCurrent state.writePending, Allowed element.value) :
    ∀ call ∈ calls, Allowed call.1 := by
  fun_induction continueWritesCalls pwset curpending state generalizing calls with
  | case1 state =>
      cases ran
      exact nofun
  | case2 state element later writable called => cases ran
  | case3 state element later writable rc after called finished _ removed => cases ran
  | case4 state element later writable rc after called finished removed writePending taken
      induction =>
      rcases Option.map_eq_some_iff.mp ran with ⟨result, further, same⟩
      cases same
      have found := remove_eq_some taken
      rw [writePending_continueWrite called] at found
      have kept : ∀ other ∈ fromCurrent writePending, Allowed other.value := by
        intro other there
        rw [found.2.2] at there
        exact behind other (mem_fromCurrent_of_detachElement found.1 there)
      intro call member
      rcases List.mem_cons.mp member with rfl | member
      · exact rest element List.mem_cons_self
      · exact induction further kept kept call member
  | case5 state element later writable rc after called unfinished induction =>
      rcases Option.map_eq_some_iff.mp ran with ⟨result, further, same⟩
      cases same
      rw [← writePending_continueWrite called] at behind
      intro call member
      rcases List.mem_cons.mp member with rfl | member
      · exact rest element List.mem_cons_self
      · exact induction further (fun other there => rest other (List.mem_cons_of_mem _ there))
          behind call member
  | case6 state element later waits induction =>
      exact induction ran (fun other member => rest other (List.mem_cons_of_mem _ member)) behind

def Over (calls : List (SOCKET × Int)) (socket : SOCKET) : Bool :=
  calls.any fun call => call.1 = socket && call.2 ≠ 0

theorem over_cons (rc : Int) (other : SOCKET) : Over ((socket, rc) :: calls) other = true ↔
    socket = other ∧ rc ≠ 0 ∨ Over calls other = true := by
  simp [Over]

theorem consistent_of_zero (consistent : state.Consistent) {pw : PendingWrites} {bytes : Nat}
    (found : state.pending socket = some pw) (continued : Continued socket pw state 0 bytes after) :
    after.Consistent := by
  apply continued.consistent consistent found
  intro whole
  have code := continued.code (by decide)
  rw [if_pos whole] at code
  exact absurd code (by decide)

theorem calls_removes {final : SocketWrites} (consistent : state.Consistent)
    (members : ∀ element ∈ curpending, element ∈ state.writePending.elements)
    (ran : continueWritesCalls pwset curpending state = some (calls, final)) :
    final.writePending.elements =
      state.writePending.elements.filter fun element => !Over calls element.value := by
  fun_induction continueWritesCalls pwset curpending state generalizing calls with
  | case1 state =>
      cases ran
      simp [Over]
  | case2 state element later writable called => cases ran
  | case3 state element later writable rc after called finished _ removed => cases ran
  | case4 state element later writable rc after called finished removed writePending taken
      induction =>
      rcases Option.map_eq_some_iff.mp ran with ⟨result, further, same⟩
      cases same
      have member := members element List.mem_cons_self
      rcases exists_continued consistent member called with ⟨pw, bytes, found, continued⟩
      rcases continued.removePending consistent member rfl with ⟨_, removal, consistent', -⟩
      cases removal.symm.trans taken
      rw [induction consistent' (fun other there => mem_of_fromCurrent there) further]
      have elements : writePending.elements = state.writePending.elements.filter fun other =>
          other.content != element.content := by
        have split := (remove_eq_some taken).2.2
        rw [split, elements_detachElement, writePending_continueWrite called]
      change writePending.elements.filter _ = _
      rw [elements, List.filter_filter]
      apply List.filter_congr
      intro other inside
      have alike : other.content = element.content ↔ other.value = element.value := by
        constructor
        · intro same
          rw [eq_of_content_eq inside member same]
        · intro same
          rw [consistent.pendingDistinct.eq_of_key_eq inside member same]
      rw [Bool.eq_iff_iff, Bool.and_eq_true, Bool.not_eq_true', Bool.not_eq_true',
        ← Bool.not_eq_true, ← Bool.not_eq_true, over_cons, bne_iff_ne, ne_eq, alike, not_or,
        eq_comm (a := other.value)]
      simp only [finished, ne_eq, not_false_eq_true, and_true]
      exact and_comm
  | case5 state element later writable rc after called unfinished induction =>
      rcases Option.map_eq_some_iff.mp ran with ⟨result, further, same⟩
      cases same
      rcases exists_continued consistent (members element List.mem_cons_self) called with
        ⟨pw, bytes, found, continued⟩
      rw [ne_eq, Decidable.not_not] at unfinished
      subst unfinished
      have later' : ∀ other ∈ later, other ∈ after.writePending.elements := by
        intro other there
        rw [continued.writePending]
        exact members other (List.mem_cons_of_mem _ there)
      apply (induction (consistent_of_zero consistent found continued) later' further).trans
      rw [continued.writePending]
      apply List.filter_congr
      intro other _
      rw [Bool.eq_iff_iff, Bool.not_eq_true', Bool.not_eq_true', ← Bool.not_eq_true,
        ← Bool.not_eq_true, over_cons]
      simp
  | case6 state element later waits induction =>
      exact induction consistent (fun other member => members other (List.mem_cons_of_mem _ member))
        ran

theorem calls_append_of_waits {front : List (ListElement SOCKET)}
    (waits : ∀ element ∈ front, pwset element.value = false)
    (back : List (ListElement SOCKET)) (state : SocketWrites) :
    continueWritesCalls pwset (front ++ back) state = continueWritesCalls pwset back state := by
  induction front with
  | nil => rfl
  | cons element front induction =>
      rw [List.cons_append, calls_skip (waits element List.mem_cons_self)]
      exact induction fun other member => waits other (List.mem_cons_of_mem _ member)

theorem calls_first {front back : List (ListElement SOCKET)} {final : SocketWrites}
    (writable : ∃ element ∈ front, pwset element.value = true)
    (ran : continueWritesCalls pwset (front ++ back) state = some (calls, final)) :
    ∃ element ∈ front, element.value ∈ calls.map Prod.fst := by
  induction front with
  | nil => exact absurd writable (by simp)
  | cons element front induction =>
      rw [List.cons_append] at ran
      cases here : pwset element.value with
      | false =>
          rw [calls_skip here] at ran
          have later : ∃ other ∈ front, pwset other.value = true := by
            rcases writable with ⟨other, member, writes⟩
            rcases List.mem_cons.mp member with rfl | member
            · exact absurd (here.symm.trans writes) Bool.false_ne_true
            · exact ⟨other, member, writes⟩
          rcases induction later ran with ⟨other, member, called⟩
          exact ⟨other, List.mem_cons_of_mem _ member, called⟩
      | true =>
          refine ⟨element, List.mem_cons_self, ?_⟩
          rw [continueWritesCalls, if_pos here] at ran
          split at ran
          · cases ran
          · split at ran
            · split at ran
              · cases ran
              · rcases Option.map_eq_some_iff.mp ran with ⟨result, -, same⟩
                cases same
                exact List.mem_cons_self
            · rcases Option.map_eq_some_iff.mp ran with ⟨result, -, same⟩
              cases same
              exact List.mem_cons_self

end Pass

end Socket

end MqttClient
