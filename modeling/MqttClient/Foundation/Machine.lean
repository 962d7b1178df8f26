import Mathlib.Data.List.Basic
import Mathlib.Tactic.Common

/-! # Machines with observable events

A machine takes steps that may be impossible in a state, and each step emits events.
Properties of runs follow from properties of steps.
-/

namespace MqttClient.Foundation

structure Machine (σ α ε : Type) where
  step : α → σ → Option (List ε × σ)

namespace Machine

variable {σ α ε : Type} {machine : Machine σ α ε}

def run (machine : Machine σ α ε) : List α → σ → Option (List ε × σ)
  | [], state => some ([], state)
  | action :: actions, state =>
      (machine.step action state).bind fun first =>
        (run machine actions first.2).map fun later => (first.1 ++ later.1, later.2)

/-- Every step of a run meets a condition on the action and the state before it. -/
def Along (machine : Machine σ α ε) (condition : α → σ → Prop) : List α → σ → Prop
  | [], _ => True
  | action :: actions, state => condition action state ∧
      ∀ first ∈ machine.step action state, Along machine condition actions first.2

instance Along.decidable (machine : Machine σ α ε) (condition : α → σ → Prop)
    [∀ action state, Decidable (condition action state)] :
    (actions : List α) → (state : σ) → Decidable (Along machine condition actions state)
  | [], _ => .isTrue trivial
  | action :: actions, state =>
      haveI (first : List ε × σ) : Decidable (Along machine condition actions first.2) :=
        Along.decidable machine condition actions first.2
      inferInstanceAs (Decidable (_ ∧ ∀ first ∈ machine.step action state, _))

/-- Behind every part of a run from its beginning, the events and the state have a
property. -/
def Throughout (machine : Machine σ α ε) (property : List ε → σ → Prop) (actions : List α)
    (state : σ) : Prop :=
  ∀ front, front <+: actions → ∀ events reached,
    machine.run front state = some (events, reached) → property events reached

/-- Every event has a property, given the events before it. -/
def Always (property : List ε → ε → Prop) (events : List ε) : Prop :=
  ∀ before event after, events = before ++ event :: after → property before event

theorem run_cons {action : α} {actions : List α} {state final : σ} {events : List ε}
    (ran : machine.run (action :: actions) state = some (events, final)) :
    ∃ first middle later, machine.step action state = some (first, middle) ∧
      machine.run actions middle = some (later, final) ∧ events = first ++ later := by
  rcases Option.bind_eq_some_iff.mp ran with ⟨⟨first, middle⟩, stepped, ran⟩
  rcases Option.map_eq_some_iff.mp ran with ⟨⟨later, last⟩, rest, same⟩
  cases same
  exact ⟨first, middle, later, stepped, rest, rfl⟩

theorem run_append {front back : List α} {first later : List ε} {state middle final : σ}
    (ran : machine.run front state = some (first, middle))
    (further : machine.run back middle = some (later, final)) :
    machine.run (front ++ back) state = some (first ++ later, final) := by
  induction front generalizing first state with
  | nil =>
      cases ran
      exact further
  | cons action front induction =>
      rcases run_cons ran with ⟨events, next, rest, stepped, remaining, rfl⟩
      rw [List.cons_append, run, stepped, Option.bind_some, induction remaining, Option.map_some,
        List.append_assoc]

theorem exists_run_replicate {action : α} {bound : Nat} (Counts : Nat → σ → Prop)
    (progress : ∀ count state, count < bound → Counts count state →
      ∃ events after, machine.step action state = some (events, after) ∧ Counts (count + 1) after)
    {count : Nat} {state : σ} (counts : Counts count state) (more : Nat)
    (within : count + more ≤ bound) :
    ∃ events after, machine.run (List.replicate more action) state = some (events, after) ∧
      Counts (count + more) after := by
  induction more generalizing count state with
  | zero => exact ⟨[], state, rfl, counts⟩
  | succ more induction =>
      rcases progress count state (by omega) counts with ⟨first, middle, stepped, counts⟩
      rcases induction counts (by omega) with ⟨later, final, ran, counts⟩
      refine ⟨first ++ later, final, ?_, by rwa [Nat.add_right_comm] at counts⟩
      rw [List.replicate_succ, run, stepped, Option.bind_some, ran, Option.map_some]

/-- The rule for invariants: what holds of the events so far and the state, and is kept
by every step that meets the condition, holds behind every run along which the
condition is met. -/
theorem run_invariant {condition : α → σ → Prop} (Invariant : List ε → σ → Prop)
    (preserved : ∀ past state action events after, Invariant past state →
      condition action state → machine.step action state = some (events, after) →
      Invariant (past ++ events) after)
    {actions : List α} (past : List ε) {events : List ε} {state final : σ}
    (initial : Invariant past state) (along : machine.Along condition actions state)
    (ran : machine.run actions state = some (events, final)) :
    Invariant (past ++ events) final := by
  induction actions generalizing past events state with
  | nil =>
      cases ran
      rwa [List.append_nil]
  | cons action actions induction =>
      rcases run_cons ran with ⟨first, middle, later, stepped, rest, rfl⟩
      rw [← List.append_assoc]
      exact induction (past ++ first)
        (preserved past state action first middle initial along.1 stepped) (along.2 _ stepped) rest

theorem along_of_forall {condition : α → σ → Prop} (all : ∀ action state, condition action state)
    (actions : List α) (state : σ) : machine.Along condition actions state := by
  induction actions generalizing state with
  | nil => trivial
  | cons action actions induction => exact ⟨all action state, fun first _ => induction first.2⟩

theorem along_true (actions : List α) (state : σ) :
    machine.Along (fun _ _ => True) actions state :=
  along_of_forall (fun _ _ => trivial) actions state

theorem Along.imp {condition other : α → σ → Prop} {actions : List α} {state : σ}
    (along : machine.Along condition actions state)
    (implies : ∀ action state, condition action state → other action state) :
    machine.Along other actions state := by
  induction actions generalizing state with
  | nil => trivial
  | cons action actions induction =>
      exact ⟨implies action state along.1, fun first member => induction (along.2 first member)⟩

theorem Along.append {condition : α → σ → Prop} {front back : List α} {events : List ε}
    {state middle : σ} (along : machine.Along condition (front ++ back) state)
    (ran : machine.run front state = some (events, middle)) :
    machine.Along condition front state ∧ machine.Along condition back middle := by
  induction front generalizing events state with
  | nil =>
      cases ran
      exact ⟨trivial, along⟩
  | cons action front induction =>
      rcases run_cons ran with ⟨first, next, later, stepped, rest, rfl⟩
      rcases induction (along.2 _ stepped) rest with ⟨ahead, behind⟩
      refine ⟨⟨along.1, fun result again => ?_⟩, behind⟩
      cases stepped.symm.trans again
      exact ahead

theorem along_iff {condition other : α → σ → Prop}
    (same : ∀ action state result, machine.step action state = some result →
      (condition action state ↔ other action state))
    {actions : List α} {events : List ε} {state final : σ}
    (ran : machine.run actions state = some (events, final)) :
    machine.Along condition actions state ↔ machine.Along other actions state := by
  induction actions generalizing events state with
  | nil => exact Iff.rfl
  | cons action actions induction =>
      rcases run_cons ran with ⟨first, middle, later, stepped, rest, rfl⟩
      have later := induction rest
      rw [Along, Along, stepped, same action state _ stepped]
      simp only [Option.mem_some_iff, forall_eq']
      rw [later]

/-- If the steps that meet a condition keep an invariant, and the others lead to states
without a property that the invariant implies, then a run meets the condition exactly if the
property holds throughout. -/
theorem along_iff_throughout {condition : α → σ → Prop} {property : List ε → σ → Prop}
    (Invariant : List ε → σ → Prop)
    (holds : ∀ past state, Invariant past state → property past state)
    (preserved : ∀ past state action events after, Invariant past state →
      condition action state → machine.step action state = some (events, after) →
      Invariant (past ++ events) after)
    (broken : ∀ past state action events after, Invariant past state →
      ¬condition action state → machine.step action state = some (events, after) →
      ¬property (past ++ events) after)
    {actions : List α} (past : List ε) {events : List ε} {state final : σ}
    (initial : Invariant past state)
    (ran : machine.run actions state = some (events, final)) :
    machine.Along condition actions state ↔
      machine.Throughout (fun events => property (past ++ events)) actions state := by
  have here {past events : List ε} {state reached : σ} (invariant : Invariant past state)
      (reaches : machine.run [] state = some (events, reached)) :
      property (past ++ events) reached := by
    cases reaches
    rw [List.append_nil]
    exact holds past state invariant
  induction actions generalizing past events state with
  | nil =>
      refine ⟨fun _ front isPrefix events reached reaches => ?_, fun _ => trivial⟩
      rw [List.prefix_nil.mp isPrefix] at reaches
      exact here initial reaches
  | cons action actions induction =>
      rcases run_cons ran with ⟨first, middle, later, stepped, rest, rfl⟩
      have next (meets : condition action state) :
          machine.Along condition actions middle ↔
            machine.Throughout (fun events => property (past ++ first ++ events)) actions middle :=
        induction (past ++ first) (preserved past state action first middle initial meets stepped)
          rest
      have alone : machine.run [action] state = some (first, middle) := by
        rw [run, stepped]
        exact congrArg (fun events => some (events, middle)) (List.append_nil first)
      constructor
      · intro along front isPrefix events reached reaches
        cases front with
        | nil => exact here initial reaches
        | cons other front =>
            rcases List.cons_prefix_cons.mp isPrefix with ⟨rfl, shorter⟩
            rcases run_cons reaches with ⟨_, _, more, again, rest, rfl⟩
            cases stepped.symm.trans again
            rw [← List.append_assoc]
            exact (next along.1).mp (along.2 _ stepped) front shorter more reached rest
      · intro throughout
        have meets : condition action state := by
          by_contra fails
          refine broken past state action first middle initial fails stepped ?_
          exact throughout [action] (List.cons_prefix_cons.mpr ⟨rfl, List.nil_prefix⟩) first middle
            alone
        refine ⟨meets, fun result again => ?_⟩
        cases stepped.symm.trans again
        refine (next meets).mpr fun front isPrefix events reached reaches => ?_
        have whole : machine.run (action :: front) state = some (first ++ events, reached) := by
          rw [run, stepped]
          exact congrArg (Option.map fun later => (first ++ later.1, later.2)) reaches
        dsimp only
        rw [List.append_assoc]
        exact throughout (action :: front) (List.cons_prefix_cons.mpr ⟨rfl, isPrefix⟩) _ _ whole

/-- The rule for invariants that every step keeps. -/
theorem run_invariant_always (Invariant : List ε → σ → Prop)
    (preserved : ∀ past state action events after, Invariant past state →
      machine.step action state = some (events, after) → Invariant (past ++ events) after)
    {actions : List α} (past : List ε) {events : List ε} {state final : σ}
    (initial : Invariant past state) (ran : machine.run actions state = some (events, final)) :
    Invariant (past ++ events) final :=
  run_invariant Invariant
    (fun past state action events after invariant _ =>
      preserved past state action events after invariant)
    past initial (along_true actions state) ran

def observe {ε' : Type} (machine : Machine σ α ε) (view : σ → ε → Option ε') :
    Machine σ α ε' where
  step action state :=
    (machine.step action state).map fun result => (result.1.filterMap (view state), result.2)

theorem Always.nil {property : List ε → ε → Prop} : Always property [] := by
  rintro before event after empty
  simp at empty

theorem Always.append {property : List ε → ε → Prop} {past more : List ε}
    (always : Always property past)
    (here : ∀ before event after, more = before ++ event :: after →
      property (past ++ before) event) : Always property (past ++ more) := by
  intro before event after split
  rcases List.append_eq_append_iff.mp split with ⟨rest, front, back⟩ | ⟨rest, front, back⟩
  · rw [front]
    exact here rest event after back
  · cases rest with
    | nil =>
        rw [List.append_nil] at front
        have first := here [] event after (by simpa using back.symm)
        rwa [List.append_nil, front] at first
    | cons other rest =>
        rw [List.cons_append, List.cons.injEq] at back
        rcases back with ⟨rfl, _⟩
        exact always before event rest front

end Machine

end MqttClient.Foundation
