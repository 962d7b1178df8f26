import MqttClient.MQTTClient.CreateSteps

/-! # The background threads beside `MQTTClient_create` and `MQTTClient_destroy`

What a thread in `MQTTClient_run` reads while other threads create and destroy clients.
-/

namespace MqttClient.MQTTClient

open Foundation LinkedList

def LoopState.Calls (m : Nat) : LoopState → Prop
  | .callback client _ _ => client = m
  | _ => False

instance (m : Nat) : (loop : LoopState) → Decidable (loop.Calls m)
  | .callback _ _ _ => inferInstanceAs (Decidable (_ = _))
  | .starting | .ready | .selected _ | .cycled _ _ => .isFalse id

/-- The next search of a thread ends before it comes to the client of a call that must not be
read yet: the client is not the current one of `handles`, and one with the socket is current or
stands in front of it. -/
def LoopState.Spared (program : Program) (loop : LoopState) : Prop :=
  ∀ sock ∈ loop.lookup, ∀ call ∈ program.creating,
    call.m ∈ program.system.library.handles.values →
      (call.stage = .listed ∨ call.Traps program.system.library loop ∧
        (program.system.library.client call.m).socket = sock) →
          Sheltered (program.clientSockCompare sock) program.system.library.handles call.m

instance (program : Program) (loop : LoopState) : Decidable (loop.Spared program) :=
  inferInstanceAs (Decidable (∀ sock ∈ (_ : Option _), ∀ call ∈ _, _ → _ → _))

/-- A client is only destroyed while no thread is in its callback, and the last client of
`bstate->clients` only while there is no thread; and a thread comes to no client that
`MQTTClient_create` has not set up. -/
def SparesLoops (action : ProgramAction) (before : Program) : Prop :=
  match action with
  | .of (.destroy m) => (∀ loop ∈ before.system.loops, ¬loop.Calls m) ∧
      ((∀ other ∈ before.system.library.clients.values, other = m) → before.system.loops = [])
  | .of (.loopStep index _) => ∀ loop ∈ before.system.loops[index]?, loop.Spared before
  | _ => True

instance (action : ProgramAction) (before : Program) : Decidable (SparesLoops action before) :=
  match action with
  | .of (.destroy _) =>
      inferInstanceAs (Decidable ((∀ loop ∈ before.system.loops, _) ∧ ((∀ other ∈ _, _) → _)))
  | .of (.loopStep _ _) => inferInstanceAs (Decidable (∀ loop ∈ (_ : Option _), _))
  | .of (.create _) | .of (.connect _ _ _) | .of (.setCallbacks _ _ _) | .of (.publish _ _)
  | .of (.subscribe _ _ _) | .of (.connectStep _) | .createStep _ => .isTrue trivial

structure Alive (library : Library) (loops : List LoopState) : Prop where
  closed : library.initialized = false → library.handles.values = []
  initialized : loops ≠ [] → library.initialized = true
  called : ∀ loop ∈ loops, ∀ m, loop.Calls m → m ∈ library.handles.values

section Alive

variable {before after : Library} {loops : List LoopState} {events : List Event} {m : Nat}

theorem Alive.ready (alive : Alive before loops) (member : m ∈ before.handles.values) :
    before.initialized = true := by
  by_contra missing
  rw [alive.closed (Bool.not_eq_true _ ▸ missing)] at member
  exact List.not_mem_nil member

theorem Alive.of_lists (alive : Alive before loops) (same : SameLists before after) :
    Alive after loops :=
  ⟨fun missing => same.handles.trans (alive.closed (same.initialized.symm.trans missing)),
    fun running => same.initialized.trans (alive.initialized running),
    fun loop member m calls => same.handles ▸ alive.called loop member m calls⟩

theorem mem_unlink {list : LinkedList Nat} {other : Nat} (member : other ∈ list.values)
    (different : other ≠ m) : other ∈ (list.unlink (hasKey id m)).2.values := by
  rcases mem_values.mp member with ⟨element, here, rfl⟩
  cases found : (list.findItem (hasKey id m)).1 with
  | none =>
      rw [unlink_eq_none found]
      exact member
  | some taken =>
      rcases findItem_hasKey_eq_some found with ⟨there, same⟩
      rw [unlink_eq_some found]
      refine mem_values.mpr ⟨element, mem_detachElement.mpr ⟨here, fun equal => ?_⟩, rfl⟩
      rw [eq_of_content_eq here there equal] at different
      exact different same

theorem mem_of_mem_unlink {list : LinkedList Nat} {other : Nat}
    (member : other ∈ (list.unlink (hasKey id m)).2.values) : other ∈ list.values := by
  rcases mem_values.mp member with ⟨element, here, rfl⟩
  cases found : (list.findItem (hasKey id m)).1 with
  | none =>
      rw [unlink_eq_none found] at here
      exact mem_values.mpr ⟨element, here, rfl⟩
  | some taken =>
      rw [unlink_eq_some found] at here
      exact mem_values.mpr ⟨element, (mem_detachElement.mp here).1, rfl⟩

theorem destroy_lists (destroyed : destroy m before = some after) :
    after.created = before.created ∧
      (∀ other ∈ after.handles.values, other ∈ before.handles.values) ∧
      ((∀ other ∈ before.clients.values, other = m) ∧ after.handles.values = [] ∨
        after.initialized = before.initialized ∧
          ∀ other ∈ before.handles.values, other ≠ m → other ∈ after.handles.values) := by
  rcases Option.map_eq_some_iff.mp destroyed with ⟨publications, freed, same⟩
  dsimp only at same
  split at same
  · rename_i none
    subst same
    refine ⟨rfl, fun other member => absurd member List.not_mem_nil,
      .inl ⟨fun other member => ?_, rfl⟩⟩
    by_contra different
    have left := mem_unlink member different
    rw [values, List.length_eq_zero_iff.mp none] at left
    exact List.not_mem_nil left
  · subst same
    exact ⟨rfl, fun other member => mem_of_mem_unlink member,
      .inr ⟨rfl, fun other member different => mem_unlink member different⟩⟩

theorem Alive.destroy (alive : Alive before loops) (destroyed : destroy m before = some after)
    (uncalled : ∀ loop ∈ loops, ¬loop.Calls m)
    (last : (∀ other ∈ before.clients.values, other = m) → loops = []) : Alive after loops := by
  rcases destroy_lists destroyed with ⟨_, fewer, ⟨none, empty⟩ | ⟨initialized, handles⟩⟩
  · rw [last none]
    exact ⟨fun _ => empty, fun running => absurd rfl running, List.forall_mem_nil _⟩
  · refine ⟨fun missing => List.eq_nil_iff_forall_not_mem.mpr fun other member => ?_,
      fun running => initialized.trans (alive.initialized running),
      fun loop here client calls => handles client (alive.called loop here client calls) ?_⟩
    · have old := fewer other member
      rw [alive.closed (initialized.symm.trans missing)] at old
      exact List.not_mem_nil old
    · rintro rfl
      exact uncalled loop here calls

theorem Looped.calls {loop next : LoopState} (looped : Looped before loop (events, next, after))
    (calls : next.Calls m) : m ∈ before.handles.values := by
  cases looped with
  | called member owner head searched => exact calls ▸ member
  | started | selected | cycled | lost | posted | answered => exact absurd calls id

end Alive

structure Sound (program : Program) : Prop where
  numbered : program.system.Numbered
  fresh : ∀ call ∈ program.creating, call.m < program.system.library.created
  alive : Alive program.system.library program.system.loops

section Sound

variable {before after : Program} {action : ProgramAction} {events : List Event}

theorem create_lists (clientId : CString) (library : Library) :
    (create clientId library).initialized = true ∧
      (create clientId library).created = library.created + 1 ∧
      (create clientId library).handles.values =
        (if library.initialized then library.handles.values else []) ++ [library.created] := by
  cases ready : library.initialized <;> simp [create, ready, initializeLibrary]

theorem Stepped.numbered {before : System} {action : Action} {result : List Event × System}
    (stepped : Stepped before action result) (numbered : before.Numbered) :
    result.2.Numbered ∧ before.library.created ≤ result.2.library.created := by
  -- what has been given out stays so
  have numbers (grows : before.library.created ≤ result.2.library.created)
      (old : ∀ m ∈ result.2.library.handles.values, m < result.2.library.created) :
      result.2.Numbered ∧ before.library.created ≤ result.2.library.created := by
    refine ⟨⟨old, fun call here => lt_of_lt_of_le ?_ grows⟩, grows⟩
    rcases stepped.calls here with member | ⟨earlier, was, same⟩
    · exact numbered.old _ member
    · exact same ▸ numbered.connecting earlier was
  rcases stepped.changed numbered with ⟨m, library, _, idle, destroyed, rfl, rfl⟩ | changed
  · have lists := destroy_lists destroyed
    exact numbers lists.1.ge fun m member => lists.1 ▸ numbered.old m (lists.2.1 m member)
  · rcases changed.lists with ⟨clientId, created⟩ | same
    · rw [created] at numbers ⊢
      rcases create_lists clientId before.library with ⟨_, next, handles⟩
      rw [next, handles] at numbers
      rw [next]
      refine numbers (Nat.le_succ _) fun m member => ?_
      rcases List.mem_append.mp member with member | last
      · split at member
        · exact Nat.lt_succ_of_lt (numbered.old m member)
        · cases member
      · rw [List.mem_singleton.mp last]
        exact Nat.lt_succ_self _
    · exact numbers same.created.ge fun m member =>
        same.created ▸ numbered.old m (same.handles ▸ member)

theorem Alive.create {library : Library} {loops : List LoopState} (alive : Alive library loops)
    (clientId : CString) : Alive (create clientId library) loops := by
  rcases create_lists clientId library with ⟨ready, _, handles⟩
  refine ⟨fun missing => absurd (ready.symm.trans missing) (by decide), fun _ => ready,
    fun loop member m calls => ?_⟩
  rw [handles, if_pos (alive.initialized (List.ne_nil_of_mem member))]
  exact List.mem_append_left _ (alive.called loop member m calls)

theorem Stepped.alive {before : System} {action : Action} {result : List Event × System}
    (stepped : Stepped before action result) (numbered : before.Numbered)
    (spared : ∀ m, action = .destroy m → (∀ loop ∈ before.loops, ¬loop.Calls m) ∧
      ((∀ other ∈ before.library.clients.values, other = m) → before.loops = []))
    (alive : Alive before.library before.loops) : Alive result.2.library result.2.loops := by
  rcases stepped.changed numbered with ⟨m, library, member, idle, destroyed, rfl, rfl⟩ | changed
  · exact alive.destroy destroyed (spared m rfl).1 (spared m rfl).2
  · -- whoever sees the lists before the step sees them behind it
    have there (initialized : before.library.initialized = true) :
        result.2.library.initialized = true ∧
          ∀ m ∈ before.library.handles.values, m ∈ result.2.library.handles.values := by
      rcases changed.lists with ⟨clientId, created⟩ | same
      · rcases create_lists clientId before.library with ⟨ready, _, handles⟩
        rw [created, handles, if_pos initialized]
        exact ⟨ready, fun m member => List.mem_append_left _ member⟩
      · exact ⟨same.initialized.trans initialized, fun m member => same.handles ▸ member⟩
    have kept : Alive result.2.library before.loops := by
      rcases changed.lists with ⟨clientId, created⟩ | same
      · rw [created]
        exact alive.create clientId
      · exact alive.of_lists same
    cases stepped with
    | created | destroyed | set | published | subscribed => exact kept
    | began member idle spec =>
        rename_i starts outcome library
        rw [System.conclude_library] at kept there
        rw [System.conclude_library, System.conclude_loops]
        cases starts with
        | false => exact kept
        | true =>
            refine ⟨kept.closed, fun _ => (there (alive.ready member)).1,
              fun loop here m calls => ?_⟩
            rcases List.mem_append.mp here with here | here
            · exact kept.called loop here m calls
            · rw [List.mem_singleton.mp here] at calls
              exact absurd calls id
    | connecting here spec =>
        rw [System.conclude_library] at kept
        rw [System.conclude_library, System.conclude_loops]
        exact kept
    | looped found attached spec =>
        have running := List.ne_nil_of_mem (List.mem_of_getElem? found)
        refine ⟨kept.closed, fun _ => kept.initialized running, fun loop here m calls => ?_⟩
        rcases List.mem_or_eq_of_mem_set here with here | rfl
        · exact kept.called loop here m calls
        · exact (there (alive.initialized running)).2 m (spec.calls calls)

theorem Sound.start (inbound : SOCKET → RecvSource UInt8) (outbound : SOCKET → List WritevEvent) :
    Sound (.start inbound outbound) where
  numbered := (System.start_wellFormed inbound outbound).numbered
  fresh := List.forall_mem_nil _
  alive := ⟨fun _ => rfl, fun running => absurd rfl running, List.forall_mem_nil _⟩

theorem beginCreate_lists (clientId : CString) (program : Program) :
    (program.beginCreate clientId).system.library.initialized = true ∧
      (program.beginCreate clientId).system.library.created = program.system.library.created + 1 ∧
      (program.beginCreate clientId).system.library.handles.values =
        if program.system.library.initialized then program.system.library.handles.values
        else [] := by
  cases ready : program.system.library.initialized <;>
    simp [Program.beginCreate, ready, initializeLibrary]

theorem Sound.beginCreate (sound : Sound before) (clientId : CString) :
    Sound (before.beginCreate clientId) := by
  rcases beginCreate_lists clientId before with ⟨ready, created, handles⟩
  have old {m : Nat} (member : m < before.system.library.created) :
      m < (before.beginCreate clientId).system.library.created := by
    rw [created]
    exact Nat.lt_succ_of_lt member
  refine ⟨⟨fun m member => ?_, fun call here => old (sound.numbered.connecting call here)⟩,
    fun call member => ?_, fun missing => absurd (ready.symm.trans missing) (by decide),
    fun _ => ready, fun loop member m calls => ?_⟩
  · rw [handles] at member
    split at member
    · exact old (sound.numbered.old m member)
    · cases member
  · rcases List.mem_append.mp member with member | last
    · exact old (sound.fresh call member)
    · rw [List.mem_singleton.mp last, created]
      exact Nat.lt_succ_self _
  · rw [handles, if_pos (sound.alive.initialized (List.ne_nil_of_mem member))]
    exact sound.alive.called loop member m calls

/-- What a further step of `MQTTClient_create` changes for the threads: its client comes into
`handles`. -/
structure Continued (before after : Program) : Prop where
  loops : after.system.loops = before.system.loops
  connecting : after.system.connecting = before.system.connecting
  created : after.system.library.created = before.system.library.created
  initialized : after.system.library.initialized = before.system.library.initialized
  calls : ∀ call ∈ after.creating, ∃ earlier ∈ before.creating, call.m = earlier.m
  handles : after.system.library.handles.values = before.system.library.handles.values ∨
    before.system.library.initialized = true ∧ ∃ call ∈ before.creating,
      after.system.library.handles.values = before.system.library.handles.values ++ [call.m]

theorem continueCreate_spec {index : Nat} (continued : before.continueCreate index = some after) :
    Continued before after := by
  rcases Option.bind_eq_some_iff.mp continued with ⟨call, found, continued⟩
  have member := List.mem_of_getElem? found
  have staged (stage : CreateStage) :
      ∀ other ∈ before.creating.set index { call with stage := stage },
        ∃ earlier ∈ before.creating, other.m = earlier.m := by
    intro other here
    rcases List.mem_or_eq_of_mem_set here with here | rfl
    · exact ⟨other, here, rfl⟩
    · exact ⟨call, member, rfl⟩
  dsimp only at continued
  split at continued
  all_goals
    rcases Option.ite_none_right_eq_some.mp continued with ⟨there, same⟩
    cases same
  · exact ⟨rfl, rfl, rfl, rfl, staged .listed, .inr ⟨there, call, member, values_append ..⟩⟩
  · exact ⟨rfl, rfl, rfl, rfl, staged .cleared, .inl rfl⟩
  · exact ⟨rfl, rfl, rfl, rfl, staged .complete, .inl rfl⟩
  · exact ⟨rfl, rfl, rfl, rfl, fun other here => ⟨other, List.mem_of_mem_eraseIdx here, rfl⟩,
      .inl rfl⟩

theorem Sound.continueCreate (sound : Sound before) (continued : Continued before after) :
    Sound after := by
  have kept {m : Nat} (member : m ∈ before.system.library.handles.values) :
      m ∈ after.system.library.handles.values := by
    rcases continued.handles with same | ⟨_, call, _, added⟩
    · rwa [same]
    · exact added ▸ List.mem_append_left _ member
  refine ⟨⟨fun m member => ?_, fun call here => ?_⟩, fun call member => ?_, fun missing => ?_,
    fun running => ?_, fun loop member m calls => ?_⟩
  · rw [continued.created]
    rcases continued.handles with same | ⟨_, call, here, added⟩
    · exact sound.numbered.old m (same ▸ member)
    · rw [added] at member
      rcases List.mem_append.mp member with member | last
      · exact sound.numbered.old m member
      · rw [List.mem_singleton.mp last]
        exact sound.fresh call here
  · rw [continued.created]
    exact sound.numbered.connecting call (continued.connecting ▸ here)
  · rcases continued.calls call member with ⟨earlier, was, same⟩
    rw [continued.created, same]
    exact sound.fresh earlier was
  · rw [continued.initialized] at missing
    rcases continued.handles with same | ⟨ready, _⟩
    · exact same.trans (sound.alive.closed missing)
    · exact absurd (ready.symm.trans missing) (by decide)
  · rw [continued.initialized]
    exact sound.alive.initialized (continued.loops ▸ running)
  · exact kept (sound.alive.called loop (continued.loops ▸ member) m calls)

theorem programStep_cases (stepped : Program.step action before = some (events, after)) :
    (∃ clientId, action = .of (.create clientId) ∧ after = before.beginCreate clientId) ∨
      (∃ other system, action = .of other ∧ step other before.system = some (events, system) ∧
        after = { before with system := system }) ∨
      ∃ index, action = .createStep index ∧ before.continueCreate index = some after := by
  cases action with
  | createStep index =>
      rcases Option.map_eq_some_iff.mp stepped with ⟨_, continued, same⟩
      cases same
      exact .inr (.inr ⟨index, rfl, continued⟩)
  | of other =>
      cases other with
      | create clientId =>
          cases stepped
          exact .inl ⟨clientId, rfl, rfl⟩
      | destroy | setCallbacks | publish | subscribe | connect | connectStep | loopStep =>
          rcases Option.map_eq_some_iff.mp (Option.ite_none_left_eq_some.mp stepped).2 with
            ⟨⟨_, system⟩, here, same⟩
          cases same
          exact .inr (.inl ⟨_, system, rfl, here, rfl⟩)

theorem Sound.step (sound : Sound before) (spared : SparesLoops action before)
    (stepped : Program.step action before = some (events, after)) : Sound after := by
  rcases programStep_cases stepped with ⟨clientId, rfl, rfl⟩ | ⟨other, system, rfl, called, rfl⟩ |
    ⟨index, rfl, continued⟩
  · exact sound.beginCreate clientId
  · have spec := step_spec called
    rcases spec.numbered sound.numbered with ⟨numbered, grows⟩
    refine ⟨numbered, fun call member => lt_of_lt_of_le (sound.fresh call member) grows,
      spec.alive sound.numbered (fun m same => ?_) sound.alive⟩
    subst same
    exact spared
  · exact sound.continueCreate (continueCreate_spec continued)

end Sound

def Program.idle : Program := .start (fun _ => []) fun _ => []

end MqttClient.MQTTClient
