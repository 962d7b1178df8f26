import MqttClient.MQTTClient.Steps

/-! # Starting the background thread

A connect call starts a thread in `MQTTClient_run` unless `running` is set, and the new
thread sets it in its own time.
-/

namespace MqttClient.MQTTClient

open Foundation LinkedList

/-- A connect call on a client with callbacks begins only when the threads that have been
started have set `running`. -/
def ThreadsUnderway (action : Action) (before : System) : Prop :=
  match action with
  | .connect m _ _ => (before.library.objects m).ma = true → before.loops ≠ [] →
      before.library.running = true
  | _ => True

instance (action : Action) (before : System) : Decidable (ThreadsUnderway action before) :=
  match action with
  | .connect _ _ _ => inferInstanceAs (Decidable (_ → _ → _))
  | .create _ | .destroy _ | .setCallbacks _ _ _ | .publish _ _ | .subscribe _ _ _
  | .connectStep _ | .loopStep _ _ => .isTrue trivial

theorem beginConnect_starts {m : Nat} {options : ConnectOptions} {attempt : Attempt}
    {before after : Library} {events : List Event} {outcome : ConnectOutcome}
    (began : beginConnect m options attempt before = some (events, true, outcome, after)) :
    (before.objects m).ma = true ∧ before.running = false := by
  unfold beginConnect at began
  split at began
  · cases began
  · rename_i client applied
    have asked : ((before.modifyClient m fun _ => client).objects m).ma = (before.objects m).ma :=
      (Library.modifyClient_sets m (fun _ => client) before).stable (fun object => object.ma) rfl m
    have same : (before.modifyClient m fun _ => client).running = before.running := rfl
    dsimp only at began
    rw [asked, same] at began
    have starts : ((before.objects m).ma && !before.running) = true := by
      split at began
      · simp only [Option.some.injEq, Prod.mk.injEq] at began
        exact began.2.1
      · split at began
        · simp only [Option.some.injEq, Prod.mk.injEq] at began
          exact began.2.1
        · split at began
          · rcases Option.map_eq_some_iff.mp began with ⟨connected, _, same⟩
            simp only [Prod.mk.injEq] at same
            exact same.2.1
          · cases began
    simpa using starts

theorem step_loops {action : Action} {before : System} {result : List Event × System}
    (stepped : step action before = some result) :
    result.2.loops.length ≤ before.loops.length ∨
      result.2.loops.length = before.loops.length + 1 ∧
        ∃ m options attempt, action = .connect m options attempt ∧
          (before.library.objects m).ma = true ∧ before.library.running = false := by
  by_cases connects : ∃ m options attempt, action = .connect m options attempt
  · rcases connects with ⟨m, options, attempt, rfl⟩
    rcases Option.ite_none_right_eq_some.mp stepped with ⟨_, called⟩
    rcases Option.map_eq_some_iff.mp called with ⟨⟨events, starts, outcome, library⟩, began, rfl⟩
    rw [System.conclude_loops]
    cases starts with
    | false => exact .inl le_rfl
    | true =>
        exact .inr ⟨List.length_append, m, options, attempt, rfl, beginConnect_starts began⟩
  · refine .inl ?_
    cases step_spec stepped with
    | began => exact absurd ⟨_, _, _, rfl⟩ connects
    | created | destroyed | set | published | subscribed => exact le_rfl
    | connecting =>
        rw [System.conclude_loops]
    | looped => exact List.length_set.le

/-- In every run in which no connect call on a client with callbacks begins between the start
of a thread and its setting `running`, there is at most one thread in `MQTTClient_run`, and
no two are in the callback of a client. -/
theorem at_most_one_loop {actions : List Action} {events : List Event} {final : System}
    {inbound : SOCKET → RecvSource UInt8} {outbound : SOCKET → List WritevEvent}
    (along : machine.Along ThreadsUnderway actions (.start inbound outbound))
    (ran : machine.run actions (.start inbound outbound) = some (events, final)) :
    final.loops.length ≤ 1 ∧
      ∀ (i j m : Nat) qe other pack otherPack, final.loops[i]? = some (.callback m qe pack) →
        final.loops[j]? = some (.callback m other otherPack) → i = j := by
  have sole : final.loops.length ≤ 1 := (run_invariant
    (fun _ system => system.loops.length ≤ 1)
    (fun {past before action result} _ sole underway stepped => by
      rcases step_loops stepped with fewer | ⟨one, m, options, attempt, rfl, callbacks, idle⟩
      · exact fewer.trans sole
      · -- a thread that was there would have set `running`
        have none : before.loops = [] := by
          by_contra some
          exact absurd (underway callbacks some) (by rw [idle]; exact Bool.false_ne_true)
        rw [one, none]
        exact le_rfl)
    (System.start_wellFormed inbound outbound) (Nat.zero_le 1) along ran).1
  refine ⟨sole, fun i j m qe other pack otherPack here there => ?_⟩
  have first := (List.getElem?_eq_some_iff.mp here).1
  have second := (List.getElem?_eq_some_iff.mp there).1
  omega

def connectTwice (between : List Action) : List Action :=
  [.create (.ofBlock []), .setCallbacks 0 true true, .connect 0 {} ⟨true, false, .connected 3⟩] ++
    between ++ [.connect 0 {} ⟨false, false, .connected 3⟩]

/-- The second call begins when the thread has set `running`, and starts none. -/
theorem at_most_one_loop_second : ∃ events final,
    machine.run (connectTwice [.loopStep 0 {}]) (.receiving []) = some (events, final) ∧
      final.loops.length = 1 ∧
      ∀ (i j m : Nat) qe other pack otherPack, final.loops[i]? = some (.callback m qe pack) →
        final.loops[j]? = some (.callback m other otherPack) → i = j := by
  have observed : (machine.run (connectTwice [.loopStep 0 {}]) (.receiving [])).map
      (fun reached => reached.2.loops.length) = some 1 := by
    decide +kernel
  rcases Option.map_eq_some_iff.mp observed with ⟨⟨events, final⟩, ran, one⟩
  exact ⟨events, final, ran, one, (at_most_one_loop (by decide +kernel) ran).2⟩

def takenMessages (events : List Event) : List (Nat × List UInt8 × List UInt8) :=
  events.filterMap fun event =>
    match event with
    | .messageArrived m qe _ true => some (m, qe.topicName, qe.msg.payload)
    | _ => none

/-- Two threads, each with its first round: the second call begins before the first thread has
set `running`. -/
def twoLoops : List Action :=
  connectTwice [] ++ [.loopStep 0 {}, .loopStep 1 {}] ++
    [.loopStep 0 .ready, .loopStep 0 {}, .loopStep 0 {}] ++
    [.loopStep 1 .ready, .loopStep 1 {}, .loopStep 1 {}] ++ [.loopStep 0 {}, .loopStep 1 {}]

/-- Two connect calls in a row start two threads, and the one message that is received is handed
over by both. -/
theorem message_arrives_twice : ∃ events final,
    machine.run twoLoops (.receiving [0x30, 4, 0, 1, 0x61, 0x78]) = some (events, final) ∧
      final.loops.length = 2 ∧
      takenMessages events = [(0, [0x61], [0x78]), (0, [0x61], [0x78])] := by
  have observed : (machine.run twoLoops (.receiving [0x30, 4, 0, 1, 0x61, 0x78])).map
      (fun reached => (reached.2.loops.length, takenMessages reached.1)) =
        some (2, [(0, [0x61], [0x78]), (0, [0x61], [0x78])]) := by
    decide +kernel
  rcases Option.map_eq_some_iff.mp observed with ⟨⟨events, final⟩, ran, same⟩
  rw [Prod.mk.injEq] at same
  exact ⟨events, final, ran, same⟩

end MqttClient.MQTTClient
