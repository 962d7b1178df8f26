import MqttClient.MQTTClient.Connect

/-! # `Thread_wait_sem`

The loop of `sem_trywait` behind the waits of `MQTTClient_waitfor`. Its attempts end in one of
the ways that `Choice` leaves open; what the return code says about them is another matter.
-/

namespace MqttClient

namespace Thread

/-- What a call of `sem_trywait` does: it takes the semaphore, or it fails with an `errno`. -/
inductive TryWait
  | taken
  | failed (errno : Int)
  deriving DecidableEq

/-- `EAGAIN`: the value of the semaphore is 0. -/
abbrev eAgain : Int := 11

/-- `count`: `interval` is unsigned, and so is the product that it divides. A product that an `int`
cannot hold wraps around. -/
def intervals (timeout : Int) : Int := (1000 * timeout) % 4294967296 / 10000

/-- The loop of `Thread_wait_sem` behind `i` attempts, with the number of attempts that have been
made when it ends. -/
def waitLoop (outcomes : Nat → TryWait) (count : Int) (i : Nat) (rc : Int) : Int × Nat :=
  if (i + 1 : Int) < count then
    match outcomes i with
    | .taken => (0, i + 1)
    | .failed errno =>
        if errno ≠ eAgain then (0, i + 1) else waitLoop outcomes count (i + 1) errno
  else (rc, i)
termination_by (count - i).toNat
decreasing_by omega

/-- `Thread_wait_sem`: the return code, and the number of calls of `sem_trywait`. -/
def waitSem (timeout : Int) (outcomes : Nat → TryWait) : Int × Nat :=
  waitLoop outcomes (intervals timeout) 0 (-1)

def ending (timeout : Int) (outcomes : Nat → TryWait) : MQTTClient.SemaphoreWait :=
  match (waitSem timeout outcomes).2 with
  | 0 => .untried
  | calls + 1 =>
      match outcomes calls with
      | .taken => .taken
      | .failed errno => if errno = eAgain then .timedOut else .otherError

variable {outcomes : Nat → TryWait} {count rc timeout : Int} {i call : Nat}

/-! ## Which calls are made -/

def TryWait.code : TryWait → Int
  | .taken => 0
  | .failed errno => if errno ≠ eAgain then 0 else errno

theorem waitLoop_code (outcomes : Nat → TryWait) (count : Int) (i : Nat) (rc : Int) :
    (waitLoop outcomes count i rc = (rc, i)) ∨
      ∃ last, i ≤ last ∧ waitLoop outcomes count i rc = ((outcomes last).code, last + 1) := by
  fun_induction waitLoop outcomes count i rc with
  | case1 i rc time outcome =>
      apply Or.inr
      refine ⟨i, Nat.le_refl i, ?_⟩
      rw [outcome, TryWait.code]
  | case2 i rc time errno outcome different =>
      apply Or.inr
      refine ⟨i, Nat.le_refl i, ?_⟩
      rw [outcome, TryWait.code, if_pos different]
  | case3 i rc time errno outcome again induction =>
      apply Or.inr
      cases induction with
      | inl ended =>
          refine ⟨i, Nat.le_refl i, ?_⟩
          rw [ended, outcome, TryWait.code, if_neg again]
      | inr further =>
          rcases further with ⟨last, behind, ended⟩
          exact ⟨last, by omega, ended⟩
  | case4 i rc late => exact .inl rfl

theorem waitLoop_le (outcomes : Nat → TryWait) (count : Int) (i : Nat) (rc : Int) :
    i ≤ (waitLoop outcomes count i rc).2 := by
  rcases waitLoop_code outcomes count i rc with ended | ⟨last, behind, ended⟩
  · rw [ended]
  · rw [ended]
    exact Nat.le_succ_of_le behind

theorem made_of_stops (time : (i + 1 : Int) < count) (stops : outcomes i ≠ .failed eAgain)
    (behind : i ≤ call) :
    call < i + 1 ↔ (call + 1 : Int) < count ∧
      ∀ earlier, i ≤ earlier → earlier < call → outcomes earlier = .failed eAgain := by
  constructor
  · intro made
    have same : call = i := by omega
    subst same
    exact ⟨time, fun earlier here before => absurd before (Nat.not_lt.mpr here)⟩
  · intro reached
    by_contra later
    exact stops (reached.2 i (Nat.le_refl i) (by omega))

theorem waitLoop_made (behind : i ≤ call) :
    call < (waitLoop outcomes count i rc).2 ↔ (call + 1 : Int) < count ∧
      ∀ earlier, i ≤ earlier → earlier < call → outcomes earlier = .failed eAgain := by
  fun_induction waitLoop outcomes count i rc with
  | case1 i rc time outcome =>
      apply made_of_stops time _ behind
      rw [outcome]
      exact nofun
  | case2 i rc time errno outcome different =>
      apply made_of_stops time _ behind
      rw [outcome]
      intro same
      exact different (TryWait.failed.inj same)
  | case3 i rc time errno outcome again induction =>
      rw [ne_eq, Decidable.not_not] at again
      rw [again] at outcome
      by_cases here : call = i
      · subst here
        have made := waitLoop_le outcomes count (call + 1) errno
        apply iff_of_true (by omega)
        exact ⟨time, fun earlier there before => absurd before (Nat.not_lt.mpr there)⟩
      · rw [induction (by omega)]
        apply and_congr_right
        intro _
        constructor
        · intro later earlier there before
          by_cases first : earlier = i
          · rw [first, outcome]
          · exact later earlier (by omega) before
        · exact fun all earlier there before => all earlier (by omega) before
  | case4 i rc late =>
      apply iff_of_false (Nat.not_lt.mpr behind)
      intro reached
      exact late (by omega)

/-- Some call takes the semaphore exactly if the wait returns 0, and it is the last one; and
`MQTTClient_waitfor` goes on well only with a semaphore that has been posted. -/
structure WaitsTruthfully (timeout : Int) (outcomes : Nat → TryWait) : Prop where
  result : (waitSem timeout outcomes).1 = 0 ↔
    ∃ call < (waitSem timeout outcomes).2, outcomes call = .taken
  last : ∀ call < (waitSem timeout outcomes).2, outcomes call = .taken →
    (waitSem timeout outcomes).2 = call + 1
  believed : ∀ (choice : MQTTClient.Choice) (m packetType : Nat)
    (before after : Library) (events : List MQTTClient.Event),
    choice.semaphore = ending timeout outcomes →
    MQTTClient.waitforStep choice m packetType before .semaphore =
      some (events, .awake 0, after) →
    (if packetType = MsgType.connect then (before.objects m).connectSem
      else (before.objects m).connackSem) ≠ 0

theorem taken_last (made : call < (waitSem timeout outcomes).2)
    (stops : outcomes call ≠ .failed eAgain) : (waitSem timeout outcomes).2 = call + 1 := by
  by_contra further
  have next : call + 1 < (waitSem timeout outcomes).2 := by omega
  exact stops (((waitLoop_made (Nat.zero_le _)).mp next).2 call (Nat.zero_le _)
    (Nat.lt_succ_self _))

theorem waitSem_code (made : (waitSem timeout outcomes).2 = call + 1) :
    (waitSem timeout outcomes).1 = (outcomes call).code := by
  rcases waitLoop_code outcomes (intervals timeout) 0 (-1) with ended | ⟨last, -, ended⟩
  · rw [waitSem, ended] at made
    cases made
  · rw [waitSem, ended] at made ⊢
    cases made
    rfl

theorem waitSem_untried (none : (waitSem timeout outcomes).2 = 0) :
    (waitSem timeout outcomes).1 = -1 := by
  rcases waitLoop_code outcomes (intervals timeout) 0 (-1) with ended | ⟨last, -, ended⟩
  · rw [waitSem, ended]
  · rw [waitSem, ended] at none
    cases none

/-- The `waitSem` of the client ends as `Thread_wait_sem` does. -/
theorem waitSem_refines {choice : MQTTClient.Choice} {value left : Nat}
    (ends : choice.semaphore = ending timeout outcomes)
    (waited : MQTTClient.waitSem choice value = some (rc, left)) :
    rc = (waitSem timeout outcomes).1 := by
  rw [MQTTClient.waitSem, ends, ending] at waited
  cases calls : (waitSem timeout outcomes).2 with
  | zero =>
      rw [calls] at waited
      cases waited
      exact (waitSem_untried calls).symm
  | succ last =>
      rw [waitSem_code calls]
      cases outcome : outcomes last with
      | taken =>
          simp only [calls, outcome] at waited
          rcases Option.ite_none_left_eq_some.mp waited with ⟨-, same⟩
          cases same
          rfl
      | failed errno =>
          simp only [calls, outcome] at waited
          rw [TryWait.code]
          by_cases again : errno = eAgain
          · rw [if_pos again] at waited
            cases waited
            rw [if_neg (not_not_intro again), again]
          · rw [if_neg again] at waited
            cases waited
            rw [if_pos again]

theorem ending_ne_otherError (uninterrupted : ∀ (call : Nat) (errno : Int),
      call < (waitSem timeout outcomes).2 → outcomes call = .failed errno → errno = eAgain) :
    ending timeout outcomes ≠ .otherError := by
  rw [ending]
  split
  · exact nofun
  · rename_i last calls
    split
    · exact nofun
    · rename_i errno outcome
      rw [if_pos (uninterrupted last errno (by omega) outcome)]
      exact nofun

theorem posted_of_awake {choice : MQTTClient.Choice} {m packetType : Nat} {before after : Library}
    {events : List MQTTClient.Event} (unbroken : choice.semaphore ≠ .otherError)
    (stepped : MQTTClient.waitforStep choice m packetType before .semaphore =
      some (events, .awake 0, after)) :
    (if packetType = MsgType.connect then (before.objects m).connectSem
      else (before.objects m).connackSem) ≠ 0 := by
  rw [MQTTClient.waitforStep] at stepped
  split at stepped
  · rename_i connects
    rw [if_pos connects]
    rcases Option.map_eq_some_iff.mp stepped with ⟨⟨rc, left⟩, waited, same⟩
    cases same
    exact ((MQTTClient.waitSem_spec waited).2 rfl).resolve_right unbroken
  · rename_i connects
    rw [if_neg connects]
    rcases Option.map_eq_some_iff.mp stepped with ⟨⟨rc, left⟩, waited, same⟩
    cases same
    exact ((MQTTClient.waitSem_spec waited).2 rfl).resolve_right unbroken

/-- The wait tells the truth exactly if none of its calls fails with an `errno` other than
`EAGAIN`, which means: as long as there is time and all calls before it found the value 0. -/
theorem waitsTruthfully_iff (timeout : Int) (outcomes : Nat → TryWait) :
    WaitsTruthfully timeout outcomes ↔
      ∀ (call : Nat) (errno : Int), (call + 1 : Int) < intervals timeout →
        (∀ earlier < call, outcomes earlier = .failed eAgain) →
        outcomes call = .failed errno → errno = eAgain := by
  constructor
  · intro truthful call errno time before outcome
    have made : call < (waitSem timeout outcomes).2 :=
      (waitLoop_made (Nat.zero_le call)).mpr ⟨time, fun earlier _ => before earlier⟩
    by_contra other
    have stops : outcomes call ≠ .failed eAgain := by
      rw [outcome]
      exact fun same => other (TryWait.failed.inj same)
    have last := taken_last made stops
    have code := waitSem_code last
    rw [outcome, TryWait.code, if_pos other] at code
    rcases truthful.result.mp code with ⟨taker, inside, taken⟩
    by_cases same : taker = call
    · rw [same, outcome] at taken
      cases taken
    · rw [before taker (by omega)] at taken
      cases taken
  · intro uninterrupted
    have again : ∀ (call : Nat) (errno : Int), call < (waitSem timeout outcomes).2 →
        outcomes call = .failed errno → errno = eAgain := by
      intro call errno made outcome
      have reached := (waitLoop_made (Nat.zero_le call)).mp made
      exact uninterrupted call errno reached.1
        (fun earlier => reached.2 earlier (Nat.zero_le earlier)) outcome
    have once : ∀ call < (waitSem timeout outcomes).2, outcomes call = .taken →
        (waitSem timeout outcomes).2 = call + 1 := by
      intro call made taken
      apply taken_last made
      rw [taken]
      exact nofun
    refine ⟨⟨?_, ?_⟩, once, ?_⟩
    · intro success
      cases calls : (waitSem timeout outcomes).2 with
      | zero =>
          rw [waitSem_untried calls] at success
          cases success
      | succ last =>
          apply Exists.intro last
          refine ⟨Nat.lt_succ_self last, ?_⟩
          rw [waitSem_code calls] at success
          cases outcome : outcomes last with
          | taken => rfl
          | failed errno =>
              rw [outcome, TryWait.code, again last errno (by omega) outcome] at success
              cases success
    · rintro ⟨call, made, taken⟩
      rw [waitSem_code (once call made taken), taken, TryWait.code]
    · intro choice m packetType before after events ends stepped
      apply posted_of_awake _ stepped
      rw [ends]
      exact ending_ne_otherError again

/-- A signal interrupts the first call, which fails with `EINTR`: the wait returns 0 although the
semaphore has not been taken. -/
theorem not_waitsTruthfully_interrupted :
    ¬ ∀ timeout outcomes, WaitsTruthfully timeout outcomes := by
  intro all
  have truthful := all 100 fun _ => .failed 4
  have ended : waitSem 100 (fun _ => .failed 4) = (0, 1) := by
    rw [waitSem, waitLoop, if_pos (by decide)]
    rfl
  rcases truthful.result.mp (congrArg Prod.fst ended) with ⟨call, -, taken⟩
  cases taken

end Thread

end MqttClient
