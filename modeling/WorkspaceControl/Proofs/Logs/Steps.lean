import Mathlib.Data.List.DropRight
import WorkspaceControl.Proofs.Logs.Sequential

/-!
# Steps of a run

Claims about a whole run speak of what happened at each of its steps, and of what has happened since
the last step of some kind. This module reads both off the events, without a look at the store:

* `steps`: every event with those before it, so that a step knows whether its reply wins;
* `Step.call?`, `Step.winner?`, `Step.page?`: the call that a step starts, the reply that it gives
  to the fetch issued last, and the page of that reply; and
* `since`: the steps behind the last one of a kind.

`Session.run_cases` ties the steps to the sessions that they lead to. It is `Session.step_cases`,
with what the events alone say about each case.
-/

namespace WorkspaceControl.Logs

/-- A step of a run: an event, and the events before it. -/
structure Step where
  before : List Event
  event : Event

/-- The steps that some events take after others. -/
def stepsAfter (before : List Event) : List Event → List Step
  | [] => []
  | event :: events => ⟨before, event⟩ :: stepsAfter (before ++ [event]) events

/-- The steps of a run. -/
def steps (events : List Event) : List Step := stepsAfter [] events

/-- The steps behind the last one of a kind, all steps if there is none. -/
def since (kind : Step → Bool) (events : List Event) : List Step :=
  (steps events).rtakeWhile fun step => !kind step

namespace Step

/-- The call that a step starts. -/
def call? (step : Step) : Option Call :=
  match step.event with
  | .start call => some call
  | _ => none

/-- The reply that a step gives to the fetch issued last. -/
def winner? (step : Step) : Option Reply :=
  match step.event with
  | .reply number reply => if (Outline.of step.before).Wins number then some reply else none
  | _ => none

/-- Whether a step starts a call from the beginning. -/
def restarts (step : Step) : Bool := step.call?.any Call.fromStart

/-- The page that a step takes. -/
def page? (step : Step) : Option EventsPage := step.winner?.bind Except.toOption

@[simp] theorem call?_start (before : List Event) (call : Call) :
    call? ⟨before, .start call⟩ = some call := rfl

@[simp] theorem restarts_start (before : List Event) (call : Call) :
    restarts ⟨before, .start call⟩ = call.fromStart := rfl

@[simp] theorem winner?_start (before : List Event) (call : Call) :
    winner? ⟨before, .start call⟩ = none := rfl

@[simp] theorem page?_start (before : List Event) (call : Call) :
    page? ⟨before, .start call⟩ = none := rfl

theorem winner?_of_wins {before : List Event} {number : Nat} (h : (Outline.of before).Wins number)
    (reply : Reply) : winner? ⟨before, .reply number reply⟩ = some reply := by
  simp [winner?, h]

theorem winner?_of_not_wins {before : List Event} {number : Nat}
    (h : ¬(Outline.of before).Wins number) (reply : Reply) :
    winner? ⟨before, .reply number reply⟩ = none := by
  simp [winner?, h]

/-- A step that brings a reply starts no call. -/
theorem call?_of_winner? {step : Step} {reply : Reply} (h : step.winner? = some reply) :
    step.call? = none := by
  obtain ⟨before, event⟩ := step
  cases event with
  | start call => cases h
  | reply number reply => rfl
  | drop number => cases h

theorem restarts_of_no_call {step : Step} (h : step.call? = none) : step.restarts = false := by
  rw [restarts, h]
  rfl

theorem page?_of_winner? {step : Step} {reply : Reply} (h : step.winner? = some reply) :
    step.page? = reply.toOption := by
  rw [page?, h]
  rfl

theorem page?_of_no_winner {step : Step} (h : step.winner? = none) : step.page? = none := by
  rw [page?, h]
  rfl

end Step

/-! ### Runs that grow at their end -/

theorem stepsAfter_concat (before events : List Event) (event : Event) :
    stepsAfter before (events ++ [event]) =
      stepsAfter before events ++ [⟨before ++ events, event⟩] := by
  induction events generalizing before with
  | nil => simp [stepsAfter]
  | cons first events ih => simp [stepsAfter, ih]

@[simp] theorem steps_nil : steps [] = [] := rfl

@[simp] theorem steps_concat (events : List Event) (event : Event) :
    steps (events ++ [event]) = steps events ++ [⟨events, event⟩] := by
  simpa [steps] using stepsAfter_concat [] events event

@[simp] theorem since_nil (kind : Step → Bool) : since kind [] = [] := rfl

theorem since_concat_of_kind {kind : Step → Bool} {events : List Event} {event : Event}
    (h : kind ⟨events, event⟩ = true) : since kind (events ++ [event]) = [] := by
  rw [since, steps_concat]
  exact List.rtakeWhile_concat_neg _ _ _ (by simp [h])

theorem since_concat_of_not_kind {kind : Step → Bool} {events : List Event} {event : Event}
    (h : kind ⟨events, event⟩ = false) :
    since kind (events ++ [event]) = since kind events ++ [⟨events, event⟩] := by
  rw [since, steps_concat]
  exact List.rtakeWhile_concat_pos _ _ _ (by simp [h])

/-! ### Steps and sessions -/

namespace Session

/-- A reply wins in the events if it ends the fetch issued last in the session. -/
theorem wins_iff_mem (capacity : Nat) (events : List Event) (number : Nat) :
    (Outline.of events).Wins number ↔
      number ∈ ((new capacity).after events).waiting ∧
        number = ((new capacity).after events).store.latest :=
  (Outline.simulates_after capacity events).wins_iff number

/-- A step starts a call, brings the reply that wins, or does nothing to the store. -/
theorem run_cases (capacity : Nat) (events : List Event) (event : Event) :
    let s := (new capacity).after events
    (∃ call, event = .start call) ∨
      (∃ reply, event = .reply s.store.latest reply ∧ s.store.latest ∈ s.waiting ∧
        Step.winner? ⟨events, event⟩ = some reply) ∨
      (s.Quiet event ∧ Step.call? ⟨events, event⟩ = none ∧
        Step.winner? ⟨events, event⟩ = none) := by
  intro s
  cases event with
  | start call => exact Or.inl ⟨call, rfl⟩
  | reply number reply =>
      by_cases hwins : (Outline.of events).Wins number
      · obtain ⟨hmem, rfl⟩ := (wins_iff_mem capacity events number).mp hwins
        exact Or.inr (Or.inl ⟨reply, rfl, hmem, Step.winner?_of_wins hwins reply⟩)
      · refine Or.inr (Or.inr ⟨?_, rfl, Step.winner?_of_not_wins hwins reply⟩)
        rcases s.step_cases (.reply number reply) with ⟨call, heq⟩ | ⟨_, heq, hmem⟩ | hquiet
        · cases heq
        · cases heq
          exact absurd ((wins_iff_mem capacity events _).mpr ⟨hmem, rfl⟩) hwins
        · exact hquiet
  | drop number => exact Or.inr (Or.inr ⟨⟨rfl, rfl, List.erase_sublist⟩, rfl, rfl⟩)

end Session

end WorkspaceControl.Logs
