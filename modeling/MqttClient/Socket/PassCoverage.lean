import MqttClient.Socket.WritePass

/-! # When a pass reaches every socket

A removal sends the pass of `Socket_continueWrites` back or forward to the `current` of the
list. Every pending socket that is writable is continued once exactly if none of these ways
leads past or back to one.
-/

namespace MqttClient

open Foundation LinkedList

namespace Socket

variable {state after : SocketWrites} {socket : SOCKET}

/-- Going on at `current`, when an element between `front` and `back` is removed, neither
leaves out a writable socket nor comes back to one: without a `current` no writable socket
stands behind; with one that stands behind, no writable socket stands between; and from one
that stands in front on, every writable socket has been removed as well. -/
def Resumes (writable finishes : SOCKET → Bool) (current : Option Nat)
    (front back : List (ListElement SOCKET)) : Prop :=
  match current with
  | none => ∀ other ∈ back, writable other.value = false
  | some content =>
      (∀ other ∈ fromContent content front,
        writable other.value = true → finishes other.value = true) ∧
      (content ∈ back.map ListElement.content →
        ∀ other ∈ back.takeWhile fun other => other.content != content,
          writable other.value = false)

def Undisturbed (writable finishes : SOCKET → Bool) (current : Option Nat) :
    (front rest : List (ListElement SOCKET)) → Prop
  | _, [] => True
  | front, element :: rest =>
      (writable element.value = true → finishes element.value = true →
        Resumes writable finishes current front rest) ∧
      Undisturbed writable finishes current (front ++ [element]) rest

instance (writable finishes : SOCKET → Bool) :
    (current : Option Nat) → (front back : List (ListElement SOCKET)) →
      Decidable (Resumes writable finishes current front back)
  | none, _, back => inferInstanceAs (Decidable (∀ other ∈ back, _))
  | some _, _, _ => inferInstanceAs (Decidable (_ ∧ (_ → _)))

instance Undisturbed.decidable (writable finishes : SOCKET → Bool) (current : Option Nat) :
    (front rest : List (ListElement SOCKET)) →
      Decidable (Undisturbed writable finishes current front rest)
  | _, [] => .isTrue trivial
  | front, element :: rest =>
      haveI := Undisturbed.decidable writable finishes current (front ++ [element]) rest
      inferInstanceAs (Decidable ((_ → _ → _) ∧ _))

section Cursor

variable {writable finishes : SOCKET → Bool} {start current : Option Nat}
  {front rest : List (ListElement SOCKET)} {element : ListElement SOCKET}

def stays (writable finishes : SOCKET → Bool) (element : ListElement SOCKET) : Bool :=
  !(writable element.value && finishes element.value)

/-- Where `current` is when a pass stands between `front` and `rest`. -/
def Cursor (writable finishes : SOCKET → Bool) (start : Option Nat)
    (front rest : List (ListElement SOCKET)) (current : Option Nat) : Prop :=
  match start with
  | none => current = none
  | some content => current =
      if content ∈ front.map ListElement.content then
        ((fromContent content front).filter (stays writable finishes) ++ rest).head?.map
          ListElement.content
      else some content

theorem fromContent_append_of_mem {content : Nat} {front : List (ListElement SOCKET)}
    (present : content ∈ front.map ListElement.content) (back : List (ListElement SOCKET)) :
    fromContent content (front ++ back) = fromContent content front ++ back := by
  induction front with
  | nil => cases present
  | cons element front induction =>
      rw [List.cons_append, fromContent, fromContent, List.dropWhile_cons, List.dropWhile_cons]
      by_cases here : (element.content != content) = true
      · rw [if_pos here, if_pos here]
        rcases List.mem_cons.mp present with same | later
        · exact absurd same.symm (bne_iff_ne.mp here)
        · exact induction later
      · rw [if_neg here, if_neg here]
        rfl

theorem fromContent_of_not_mem {content : Nat}
    (absent : content ∉ front.map ListElement.content) : fromContent content front = [] := by
  have whole := fromContent_append absent []
  rwa [List.append_nil] at whole

theorem Cursor.advance (cursor : Cursor writable finishes start front (element :: rest) current)
    (nodup : ((front ++ element :: rest).map ListElement.content).Nodup) :
    Cursor writable finishes start (front ++ [element]) rest
      (if stays writable finishes element then current
        else if current = some element.content then rest.head?.map ListElement.content
        else current) := by
  cases start with
  | none =>
      have nowhere : current = none := cursor
      subst nowhere
      simp [Cursor]
  | some content =>
      rw [Cursor] at cursor ⊢
      rw [List.map_append, List.map_cons, List.nodup_middle, List.nodup_cons, List.mem_append,
        not_or] at nodup
      by_cases before : content ∈ front.map ListElement.content
      · have after : content ∈ (front ++ [element]).map ListElement.content := by
          rw [List.map_append]
          exact List.mem_append_left _ before
        rw [if_pos before] at cursor
        rw [if_pos after, fromContent_append_of_mem before, List.filter_append, cursor]
        cases remaining : (fromContent content front).filter (stays writable finishes) with
        | nil =>
            cases left : stays writable finishes element with
            | false => simp [left]
            | true => simp [left]
        | cons first remaining =>
            have member : first ∈ front := by
              apply (List.dropWhile_sublist _).subset
              apply (List.filter_sublist (p := stays writable finishes)).subset
              change first ∈ (fromContent content front).filter _
              rw [remaining]
              exact List.mem_cons_self
            have different : first.content ≠ element.content := by
              intro same
              exact nodup.1.1 (same ▸ List.mem_map_of_mem member)
            simp [different]
      · rw [if_neg before] at cursor
        by_cases here : content = element.content
        · subst here
          have after : element.content ∈ (front ++ [element]).map ListElement.content := by simp
          rw [if_pos after, fromContent_append before, fromContent_self, cursor, if_pos rfl]
          cases left : stays writable finishes element with
          | false => simp [left]
          | true => simp [left]
        · have after : content ∉ (front ++ [element]).map ListElement.content := by
            rw [List.map_append, List.mem_append, not_or]
            exact ⟨before, by simpa using here⟩
          rw [if_neg after, cursor]
          simp [here]

theorem fromContent_filter {content : Nat} {kept : ListElement SOCKET → Bool}
    {first : ListElement SOCKET} {remaining : List (ListElement SOCKET)}
    (nodup : (front.map ListElement.content).Nodup)
    (isLeft : (fromContent content front).filter kept = first :: remaining) :
    fromContent first.content (front.filter kept) = first :: remaining := by
  have split : front = (front.takeWhile fun other => other.content != content) ++
      fromContent content front :=
    List.takeWhile_append_dropWhile.symm
  have member : first ∈ fromContent content front := by
    apply (List.filter_sublist (p := kept)).subset
    rw [isLeft]
    exact List.mem_cons_self
  rw [split, List.map_append, List.nodup_append] at nodup
  have absent : first.content ∉ ((front.takeWhile fun other =>
      other.content != content).filter kept).map ListElement.content := by
    intro inside
    have before := (List.filter_sublist.map ListElement.content).subset inside
    exact nodup.2.2 _ before first.content (List.mem_map_of_mem member) rfl
  calc fromContent first.content (front.filter kept)
      = fromContent first.content
          ((front.takeWhile fun other => other.content != content).filter kept ++
            first :: remaining) := by
        rw [← isLeft, ← List.filter_append, ← split]
    _ = first :: remaining := by rw [fromContent_append absent, fromContent_self]

end Cursor

/-! ## A pass from element to element -/

/-- A pass stands between `front`, of which the elements that stay are left, and `rest`. -/
structure Standing (writable finishes : SOCKET → Bool) (start : Option Nat)
    (front rest : List (ListElement SOCKET)) (state : SocketWrites) : Prop where
  consistent : state.Consistent
  elements : state.writePending.elements = front.filter (stays writable finishes) ++ rest
  nodup : ((front ++ rest).map ListElement.content).Nodup
  inside : ∀ content ∈ start, content ∈ (front ++ rest).map ListElement.content
  cursor : Cursor writable finishes start front rest state.writePending.current
  same : ∀ element ∈ rest, Finishes state element.value = finishes element.value

namespace Standing

variable {writable finishes : SOCKET → Bool} {start : Option Nat}
  {front rest : List (ListElement SOCKET)} {element : ListElement SOCKET}

theorem mem (standing : Standing writable finishes start front (element :: rest) state) :
    element ∈ state.writePending.elements := by
  rw [standing.elements]
  exact List.mem_append_right _ List.mem_cons_self

theorem finishes_congr {before : SocketWrites}
    (pending : after.pending socket = before.pending socket)
    (outbound : after.outbound socket = before.outbound socket) :
    Finishes after socket = Finishes before socket := by
  rw [Finishes, Finishes, pending, outbound]

theorem value_ne (standing : Standing writable finishes start front (element :: rest) state)
    {other : ListElement SOCKET} (later : other ∈ rest) : other.value ≠ element.value := by
  intro same
  have inside : other ∈ state.writePending.elements := by
    rw [standing.elements]
    exact List.mem_append_right _ (List.mem_cons_of_mem _ later)
  have equal := standing.consistent.pendingDistinct.eq_of_key_eq inside standing.mem same
  subst equal
  have nodup := standing.nodup
  rw [List.map_append, List.map_cons, List.nodup_middle, List.nodup_cons, List.mem_append,
    not_or] at nodup
  exact nodup.1.2 (List.mem_map_of_mem later)

theorem pass (standing : Standing writable finishes start front (element :: rest) state)
    (kept : stays writable finishes element = true) (consistent : after.Consistent)
    (sameList : after.writePending = state.writePending)
    (sameRest : ∀ other ∈ rest, Finishes after other.value = Finishes state other.value) :
    Standing writable finishes start (front ++ [element]) rest after where
  consistent := consistent
  elements := by
    rw [sameList, standing.elements, List.filter_append, List.filter_cons_of_pos kept]
    simp
  nodup := by
    have nodup := standing.nodup
    simpa using nodup
  inside := by
    have inside := standing.inside
    simpa using inside
  cursor := by
    have advanced := standing.cursor.advance standing.nodup
    rwa [if_pos kept, ← sameList] at advanced
  same other later :=
    (sameRest other later).trans (standing.same other (List.mem_cons_of_mem _ later))

theorem leave (standing : Standing writable finishes start front (element :: rest) state)
    (gone : stays writable finishes element = false) (consistent : after.Consistent)
    (detached : after.writePending = state.writePending.detachElement element)
    (sameRest : ∀ other ∈ rest, Finishes after other.value = Finishes state other.value) :
    Standing writable finishes start (front ++ [element]) rest after where
  consistent := consistent
  elements := by
    rw [detached, elements_detachElement_split standing.elements, List.filter_append,
      List.filter_cons_of_neg (by simp [gone])]
    simp
  nodup := by
    have nodup := standing.nodup
    simpa using nodup
  inside := by
    have inside := standing.inside
    simpa using inside
  cursor := by
    have advanced := standing.cursor.advance standing.nodup
    have moved : elementAfter element.content
        (front.filter (stays writable finishes) ++ element :: rest) = rest.head? :=
      elementAfter_eq (content_around standing.elements).1
    rw [gone, if_neg Bool.false_ne_true] at advanced
    rw [detached]
    simp only [detachElement, standing.elements, moved]
    exact advanced
  same other later :=
    (sameRest other later).trans (standing.same other (List.mem_cons_of_mem _ later))

theorem called_of_perm {calls : List (SOCKET × Int)}
    (once : (calls.map Prod.fst).Perm ((rest.map ListElement.value).filter writable))
    {other : ListElement SOCKET} (later : other ∈ rest) (writes : writable other.value = true) :
    other.value ∈ calls.map Prod.fst := by
  rw [once.mem_iff]
  exact List.mem_filter.mpr ⟨List.mem_map_of_mem later, writes⟩

theorem rest_of_perm {calls : List (SOCKET × Int)}
    (once : (calls.map Prod.fst).Perm ((rest.map ListElement.value).filter writable))
    {called : SOCKET} (inside : called ∈ calls.map Prod.fst) :
    ∃ other ∈ rest, other.value = called := by
  rw [once.mem_iff] at inside
  exact List.mem_map.mp (List.mem_filter.mp inside).1

def Continues (writable finishes : SOCKET → Bool) (start : Option Nat)
    (front rest : List (ListElement SOCKET)) (after : SocketWrites) : Prop :=
  Resumes writable finishes start front rest ∧
      continueWritesCalls writable (fromCurrent after.writePending) after =
        continueWritesCalls writable rest after ∨
    ¬ Resumes writable finishes start front rest ∧ ∀ calls final,
      continueWritesCalls writable (fromCurrent after.writePending) after = some (calls, final) →
        ¬ (calls.map Prod.fst).Perm ((rest.map ListElement.value).filter writable)

theorem continues_of_none
    (standing : Standing writable finishes none front (element :: rest) state)
    (detached : after.writePending = state.writePending.detachElement element) :
    Continues writable finishes none front rest after := by
  have nowhere : fromCurrent after.writePending = [] := by
    rw [detached]
    exact fromCurrent_of_none standing.cursor
  rw [Continues, nowhere]
  by_cases waits : ∀ other ∈ rest, writable other.value = false
  · apply Or.inl
    have skipped := calls_append_of_waits waits [] after
    rw [List.append_nil] at skipped
    exact ⟨waits, skipped.symm⟩
  · apply Or.inr
    refine ⟨waits, ?_⟩
    intro calls final ran once
    apply waits
    intro other later
    rw [Bool.eq_false_iff]
    intro writes
    have called := called_of_perm once later writes
    rw [continueWritesCalls] at ran
    cases ran
    cases called

theorem continues_of_front {content : Nat}
    (standing : Standing writable finishes (some content) front (element :: rest) state)
    (detached : after.writePending = state.writePending.detachElement element)
    (before : content ∈ front.map ListElement.content) :
    Continues writable finishes (some content) front rest after := by
  have nodup := standing.nodup
  rw [List.map_append, List.nodup_append, List.map_cons, List.nodup_cons] at nodup
  have absent : content ∉ rest.map ListElement.content := by
    intro later
    exact nodup.2.2 content before content (List.mem_cons_of_mem _ later) rfl
  have cursor := standing.cursor
  rw [Cursor, if_pos before] at cursor
  cases remaining : (fromContent content front).filter (stays writable finishes) with
  | nil =>
      rw [remaining] at cursor
      have same : fromCurrent after.writePending = rest := by
        rw [detached]
        exact fromCurrent_of_eq standing.elements cursor
      apply Or.inl
      refine ⟨⟨?_, fun later => absurd later absent⟩, by rw [same]⟩
      intro other inside writes
      have gone := List.filter_eq_nil_iff.mp remaining other inside
      simpa [stays, writes] using gone
  | cons first others =>
      rw [remaining] at cursor
      have there : state.writePending.current = some first.content := cursor
      have isLeft : ∀ other, other ∈ first :: others ↔
          other ∈ fromContent content front ∧ stays writable finishes other = true := by
        intro other
        rw [← remaining, List.mem_filter]
      have inFront : ∀ other ∈ first :: others, other ∈ front := by
        intro other member
        exact (List.dropWhile_sublist _).subset ((isLeft other).mp member).1
      have different : first.content ≠ element.content := by
        intro same
        exact nodup.2.2 first.content
          (List.mem_map_of_mem (inFront first List.mem_cons_self)) element.content
          List.mem_cons_self same
      have left := fromContent_filter nodup.1 remaining
      have resumed : fromCurrent after.writePending = (first :: others) ++ rest := by
        rw [detached, fromCurrent_of_ne standing.elements there different,
          fromContent_append_of_mem, left]
        apply List.mem_map_of_mem
        have member : first ∈ fromContent first.content
            (front.filter (stays writable finishes)) := by
          rw [left]
          exact List.mem_cons_self
        exact (List.dropWhile_sublist _).subset member
      by_cases waits : ∀ other ∈ first :: others, writable other.value = false
      · apply Or.inl
        refine ⟨⟨?_, fun later => absurd later absent⟩, ?_⟩
        · intro other inside writes
          by_contra unfinished
          have kept : stays writable finishes other = true := by
            rw [stays, Bool.eq_false_iff.mpr unfinished, Bool.and_false]
            rfl
          exact absurd (waits other ((isLeft other).mpr ⟨inside, kept⟩)) (by simp [writes])
        · rw [resumed]
          exact calls_append_of_waits waits rest after
      · apply Or.inr
        have written : ∃ other ∈ first :: others, writable other.value = true := by
          by_contra none
          apply waits
          intro other member
          rw [Bool.eq_false_iff]
          exact fun writes => none ⟨other, member, writes⟩
        constructor
        · intro resumes
          rcases written with ⟨other, member, writes⟩
          have inside := (isLeft other).mp member
          have kept := inside.2
          rw [stays, writes, resumes.1 other inside.1 writes] at kept
          exact Bool.false_ne_true kept
        · intro calls final ran once
          rw [resumed] at ran
          rcases calls_first written ran with ⟨other, member, called⟩
          rcases rest_of_perm once called with ⟨again, later, same⟩
          have leftFront : other ∈ state.writePending.elements := by
            rw [standing.elements]
            apply List.mem_append_left
            exact List.mem_filter.mpr ⟨inFront other member, ((isLeft other).mp member).2⟩
          have leftRest : again ∈ state.writePending.elements := by
            rw [standing.elements]
            exact List.mem_append_right _ (List.mem_cons_of_mem _ later)
          have equal := standing.consistent.pendingDistinct.eq_of_key_eq leftRest leftFront same
          subst equal
          exact nodup.2.2 again.content (List.mem_map_of_mem (inFront again member)) again.content
            (List.mem_cons_of_mem _ (List.mem_map_of_mem later)) rfl

theorem continues_of_here
    (standing : Standing writable finishes (some element.content) front (element :: rest) state)
    (detached : after.writePending = state.writePending.detachElement element) :
    Continues writable finishes (some element.content) front rest after := by
  have nodup := standing.nodup
  rw [List.map_append, List.map_cons, List.nodup_middle, List.nodup_cons, List.mem_append, not_or]
    at nodup
  have cursor := standing.cursor
  rw [Cursor, if_neg nodup.1.1] at cursor
  have same : fromCurrent after.writePending = rest := by
    rw [detached]
    exact fromCurrent_of_eq standing.elements cursor
  apply Or.inl
  refine ⟨⟨?_, fun later => absurd later nodup.1.2⟩, by rw [same]⟩
  rw [fromContent_of_not_mem nodup.1.1]
  exact nofun

theorem continues_of_back {content : Nat}
    (standing : Standing writable finishes (some content) front (element :: rest) state)
    (detached : after.writePending = state.writePending.detachElement element)
    (later : content ∈ rest.map ListElement.content) :
    Continues writable finishes (some content) front rest after := by
  have nodup := standing.nodup
  rw [List.map_append, List.nodup_append, List.map_cons, List.nodup_cons] at nodup
  have absent : content ∉ front.map ListElement.content := by
    intro before
    exact nodup.2.2 content before content (List.mem_cons_of_mem _ later) rfl
  have different : content ≠ element.content := by
    rintro rfl
    exact nodup.2.1.1 later
  have cursor := standing.cursor
  rw [Cursor, if_neg absent] at cursor
  have gone : content ∉ (front.filter (stays writable finishes)).map ListElement.content := by
    intro inside
    exact absent ((List.filter_sublist.map ListElement.content).subset inside)
  have resumed : fromCurrent after.writePending = fromContent content rest := by
    rw [detached, fromCurrent_of_ne standing.elements cursor different, fromContent_append gone]
  have split : (rest.takeWhile fun other => other.content != content) ++
      fromContent content rest = rest :=
    List.takeWhile_append_dropWhile
  by_cases waits : ∀ other ∈ rest.takeWhile fun other => other.content != content,
      writable other.value = false
  · apply Or.inl
    refine ⟨⟨?_, fun _ => waits⟩, ?_⟩
    · rw [fromContent_of_not_mem absent]
      exact nofun
    · have skipped := calls_append_of_waits waits (fromContent content rest) after
      rw [split] at skipped
      rw [resumed, skipped]
  · apply Or.inr
    refine ⟨fun resumes => waits (resumes.2 later), ?_⟩
    intro calls final ran once
    apply waits
    intro other between
    rw [Bool.eq_false_iff]
    intro writes
    have inRest : other ∈ rest := (List.takeWhile_sublist _).subset between
    have called := called_of_perm once inRest writes
    rcases List.mem_map.mp called with ⟨call, inside, same⟩
    have behind : ∀ again ∈ fromCurrent after.writePending,
        ∃ left ∈ fromContent content rest, left.value = again.value := by
      intro again member
      rw [resumed] at member
      exact ⟨again, member, rfl⟩
    rcases calls_mem (fun socket => ∃ left ∈ fromContent content rest, left.value = socket) ran
      behind behind call inside with ⟨left, member, sameCall⟩
    have leftRest : left ∈ rest := (List.dropWhile_sublist _).subset member
    have pending : ∀ again ∈ rest, again ∈ state.writePending.elements := by
      intro again inRest
      rw [standing.elements]
      exact List.mem_append_right _ (List.mem_cons_of_mem _ inRest)
    have equal := standing.consistent.pendingDistinct.eq_of_key_eq (pending left leftRest)
      (pending other inRest) (sameCall.trans same)
    subst equal
    have apart := nodup.2.1.2
    rw [← split, List.map_append, List.nodup_append] at apart
    exact apart.2.2 _ (List.mem_map_of_mem between) _ (List.mem_map_of_mem member) rfl

theorem continues (standing : Standing writable finishes start front (element :: rest) state)
    (detached : after.writePending = state.writePending.detachElement element) :
    Continues writable finishes start front rest after := by
  cases start with
  | none => exact continues_of_none standing detached
  | some content =>
      have inside := standing.inside content rfl
      rw [List.map_append, List.mem_append, List.map_cons, List.mem_cons] at inside
      rcases inside with before | rfl | later
      · exact continues_of_front standing detached before
      · exact continues_of_here standing detached
      · exact continues_of_back standing detached later

theorem same_rest (standing : Standing writable finishes start front (element :: rest) state)
    {pw : PendingWrites} {rc : Int} {bytes : Nat}
    (called : continueWrite element.value state = some (rc, after))
    (continued : Continued element.value pw state rc bytes after) :
    ∀ other ∈ rest, Finishes after other.value = Finishes state other.value := by
  intro other later
  have different := standing.value_ne later
  apply finishes_congr
  · rw [continued.pending, Function.update_of_ne different]
  · exact continueWrite_elsewhere called different

theorem once_iff {calls : List (SOCKET × Int)} {final : SocketWrites}
    (standing : Standing writable finishes start front rest state)
    (ran : continueWritesCalls writable rest state = some (calls, final)) :
    (calls.map Prod.fst).Perm ((rest.map ListElement.value).filter writable) ↔
      Undisturbed writable finishes start front rest := by
  induction rest generalizing front state calls with
  | nil =>
      rw [continueWritesCalls] at ran
      cases ran
      exact iff_of_true (List.Perm.refl _) trivial
  | cons element rest induction =>
      rw [Undisturbed, List.map_cons]
      cases writes : writable element.value with
      | false =>
          rw [calls_skip writes] at ran
          have next := standing.pass (by simp [stays, writes]) standing.consistent rfl
            fun _ _ => rfl
          rw [List.filter_cons_of_neg (by simp [writes]), induction next ran]
          simp
      | true =>
          rcases exists_pending standing.consistent standing.mem with ⟨pw, found⟩
          rcases continueWrite_spec standing.consistent found with
            ⟨rc, bytes, after, called, continued⟩
          have finishing := continueWrite_finishes standing.consistent found called
          rw [standing.same element List.mem_cons_self] at finishing
          rw [List.filter_cons_of_pos writes]
          by_cases finished : rc = 0
          · subst finished
            have unfinished : finishes element.value = false := by
              rw [Bool.eq_false_iff]
              exact fun finishes => finishing.mpr finishes rfl
            rw [calls_stay writes called] at ran
            rcases Option.map_eq_some_iff.mp ran with ⟨result, further, same⟩
            cases same
            have next := standing.pass (by simp [stays, unfinished])
              (consistent_of_zero standing.consistent found continued) continued.writePending
              (standing.same_rest called continued)
            rw [List.map_cons, List.perm_cons, induction next further, unfinished]
            simp
          · rcases continued.removePending standing.consistent standing.mem rfl with
              ⟨writePending, taken, consistent, pending⟩
            have detached : (removePending element.value writePending after).writePending =
                state.writePending.detachElement element := by
              change writePending = _
              rw [(remove_eq_some taken).2.2, continued.writePending]
            rw [calls_leave writes called finished taken] at ran
            rcases Option.map_eq_some_iff.mp ran with ⟨result, further, same⟩
            cases same
            have sameRest : ∀ other ∈ rest,
                Finishes (removePending element.value writePending after) other.value =
                  Finishes state other.value := by
              intro other later
              have different := standing.value_ne later
              apply finishes_congr
              · rw [pending, Function.update_of_ne different]
              · exact continueWrite_elsewhere called different
            have next := standing.leave (by simp [stays, writes, finishing.mp finished]) consistent
              detached sameRest
            rw [List.map_cons, List.perm_cons]
            have resumed : continueWritesCalls writable
                (fromCurrent (removePending element.value writePending after).writePending)
                (removePending element.value writePending after) = some result := further
            rcases standing.continues detached with proceeds | misses
            · rw [proceeds.2] at resumed
              rw [induction next resumed]
              exact (and_iff_right fun _ _ => proceeds.1).symm
            · exact iff_of_false (misses.2 _ _ resumed)
                fun undisturbed => misses.1 (undisturbed.1 rfl (finishing.mp finished))

end Standing

/-! ## Every writable socket is continued once -/

/-- One call of `Socket_continueWrites` calls `Socket_continueWrite` once for each socket that
is pending and writable, and removes those whose write completes or fails. -/
def ContinuesEach (pwset : SOCKET → Bool) (sock : SOCKET) (state : SocketWrites) : Prop :=
  ∃ calls rc reported final,
    continueWrites pwset sock state = some (rc, reported, final) ∧
    continueWritesCalls pwset state.writePending.elements state = some (calls, final) ∧
    (calls.map Prod.fst).Perm (state.writePending.values.filter pwset) ∧
    final.writePending.values = state.writePending.values.filter fun socket => !Over calls socket

theorem standing_start (pwset : SOCKET → Bool) (consistent : state.Consistent) :
    Standing pwset (Finishes state) state.writePending.current [] state.writePending.elements
      state where
  consistent := consistent
  elements := rfl
  nodup := state.writePending.nodup
  inside := state.writePending.current_mem
  cursor := by
    cases current : state.writePending.current with
    | none => rfl
    | some content => exact (if_neg List.not_mem_nil).symm
  same _ _ := rfl

theorem continuesEach_iff_perm (sock : SOCKET) (consistent : state.Consistent)
    {pwset : SOCKET → Bool} {calls : List (SOCKET × Int)} {final : SocketWrites}
    (ran : continueWritesCalls pwset state.writePending.elements state = some (calls, final)) :
    ContinuesEach pwset sock state ↔
      (calls.map Prod.fst).Perm (state.writePending.values.filter pwset) := by
  constructor
  · rintro ⟨calls', rc, reported, final', -, ran', once, -⟩
    cases ran.symm.trans ran'
    exact once
  · intro once
    have looped := continueWritesLoop_calls pwset 0 sock state.writePending.elements state
    rw [ran, Option.map_some, Option.map_eq_some_iff] at looped
    rcases looped with ⟨result, looped, same⟩
    refine ⟨calls, result.1, result.2.1, final, ?_, ran, once, ?_⟩
    · have reached : result.2.2 = final := same
      rw [continueWrites, looped, ← reached]
    · rw [values, calls_removes consistent (fun _ member => member) ran, values, List.filter_map]
      rfl

/-- A pass over a consistent state continues every writable socket once exactly if no removal
disturbs it. -/
theorem continuesEach_iff (pwset : SOCKET → Bool) (sock : SOCKET) (consistent : state.Consistent) :
    ContinuesEach pwset sock state ↔
      Undisturbed pwset (Finishes state) state.writePending.current []
        state.writePending.elements := by
  rcases calls_total pwset consistent fun _ member => member with ⟨result, ran⟩
  rw [continuesEach_iff_perm sock consistent ran]
  exact (standing_start pwset consistent).once_iff ran

def twoPending : SocketWrites :=
  let outbound : SOCKET → List WritevEvent := fun _ => [.accept 1, .accept 100]
  (putdatas 4 [0xc0, 0] ⟨[], by decide⟩
    (putdatas 3 [0xc0, 0] ⟨[], by decide⟩ (.start outbound)).2).2

theorem twoPending_consistent : twoPending.Consistent := by
  have first := (putdatas_spec (.start fun _ => [.accept 1, .accept 100]) 3 [0xc0, 0]
    ⟨[], by decide⟩).2.1
  exact (putdatas_spec first 4 [0xc0, 0] ⟨[], by decide⟩).2.1

def threePending : SocketWrites :=
  let outbound : SOCKET → List WritevEvent := fun sock =>
    [.accept 1, .accept (if sock = 5 then 100 else 1)]
  let packet : List UInt8 := [0xc0, 0, 0]
  (putdatas 5 packet ⟨[], by decide⟩ (putdatas 4 packet ⟨[], by decide⟩
    (putdatas 3 packet ⟨[], by decide⟩ (.start outbound)).2).2).2

/-- Of three writable sockets, each is continued, and the last one is removed. -/
theorem continuesEach_iff_three : ContinuesEach (fun _ => true) 0 threePending := by
  have consistent : threePending.Consistent :=
    (putdatas_spec (putdatas_spec (putdatas_spec (.start _) 3 _ _).2.1 4 _ _).2.1 5 _ _).2.1
  exact (continuesEach_iff (fun _ => true) 0 consistent).mpr (by decide +kernel)

/-- Nothing has been found in the list before, so that the pass ends when the first of two
writable sockets is removed. -/
theorem continuesEach_fails :
    ¬ ∀ pwset sock state, state.Consistent → ContinuesEach pwset sock state := by
  intro all
  have each := all (fun _ => true) 0 twoPending twoPending_consistent
  rcases calls_total (fun _ => true) twoPending_consistent fun _ member => member with
    ⟨result, ran⟩
  have undisturbed := ((standing_start _ twoPending_consistent).once_iff ran).mp
    ((continuesEach_iff_perm 0 twoPending_consistent ran).mp each)
  revert undisturbed
  decide +kernel

end Socket

end MqttClient
