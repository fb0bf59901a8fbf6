import Missions.Saga.RetryPolicy
import Missions.Saga.StepResult
import Missions.Table

namespace Missions

structure Step (σ : Type) (m : Type → Type) [Monad m] (ε π : Type) where
  name : String
  execute : StateT σ m (StepResult ε π)
  /-- Undoes a successful `execute`; a step that only reads has nothing to undo. -/
  compensate : StateT σ m (StepResult ε π) := pure (.success (name ++ " has nothing to compensate") none)
  undoing : String := "undo " ++ name
  mandatory : Bool := true
  /-- Whether the step has a part in a run that has come to this state. -/
  applies : σ → Bool := fun _ => true
  retry : RetryPolicy := .once

abbrev Overrides : Type := Table String RetryPolicy

structure Saga (σ : Type) (m : Type → Type) [Monad m] (ε π : Type) where
  steps : List (Step σ m ε π)
  overrides : Overrides
  steps_ne_nil : steps ≠ []

namespace Saga

variable {σ : Type} {m : Type → Type} [Monad m] {ε π : Type}

def starting (overrides : Overrides) (first : Step σ m ε π) : Saga σ m ε π :=
  ⟨[first], overrides, by simp⟩

def andThen (saga : Saga σ m ε π) (step : Step σ m ε π) : Saga σ m ε π :=
  ⟨saga.steps ++ [step], saga.overrides, by simp⟩

/-- Sets the policy of every step called `name`, whether it is there yet or not. -/
def override (saga : Saga σ m ε π) (name : String) (policy : RetryPolicy) : Saga σ m ε π :=
  { saga with overrides := saga.overrides.insert name policy }

def stepNames (saga : Saga σ m ε π) : List String := saga.steps.map (·.name)

def policyFor (saga : Saga σ m ε π) (step : Step σ m ε π) : RetryPolicy :=
  (saga.overrides.get? step.name).getD step.retry

end Saga

end Missions
