import Missions.Saga.Aborted
import Missions.Saga.AuditLog
import Missions.Saga.Step

/-! A run visits the steps in order. A step that fails is tried again while its failure passes and its policy allows;
if the failure lasts, an optional step is passed over, and any other failure stops the run. Then a visit of the later
steps comes back aborted, and the step before them undoes itself. -/

namespace Missions

structure OptionalFailure (ε : Type) where
  step : String
  message : String
  cause : Option ε
  deriving Repr

structure Report (ε : Type) where
  executed : List String := []
  skipped : List String := []
  optionalFailures : List (OptionalFailure ε) := []
  deriving Repr

def Report.wasExecuted {ε : Type} (r : Report ε) (name : String) : Bool := r.executed.contains name

structure Run (ε : Type) where
  result : Except (Aborted ε) (Report ε)
  audit : AuditLog

inductive Interruption where
  | attemptCounterFull
  deriving DecidableEq, Repr

structure Tries (ε π : Type) where
  attempts : Nat
  result : StepResult ε π

/-- The most attempts that can be counted. -/
def attemptCounterMax : Nat := 4294967295

namespace Run

variable {σ : Type} {m : Type → Type} [Monad m] {ε π : Type}

def ended : Run ε := ⟨.ok {}, .empty⟩

def skipping (name : String) (run : Run ε) : Run ε where
  result := run.result.map fun report => { report with skipped := name :: report.skipped }
  audit := run.audit.cons (.skipped name)

/-- Puts an optional step that failed before a run. -/
def passingOver (name : String) (tries : Tries ε π) (run : Run ε) : Run ε where
  result := run.result.map fun report =>
    { report with
      optionalFailures := ⟨name, tries.result.message, tries.result.cause⟩ :: report.optionalFailures }
  audit := run.audit.cons (.failed name tries.attempts tries.result.message false)

def stopped (name : String) (tries : Tries ε π) : Run ε where
  result := .error (.undone name tries.result.message tries.result.cause)
  audit := AuditLog.empty.cons (.failed name tries.attempts tries.result.message true)

/-- Tries a step once, and again while its failure passes and `retries` remain. -/
def attempt (execute : StateT σ m (StepResult ε π)) (retries made : Nat) :
    ExceptT Interruption (StateT σ m) (Tries ε π) :=
  if made < attemptCounterMax then do
    let result ← execute
    if result.isRetryable then
      match retries with
      | 0 => pure ⟨made + 1, result⟩
      | retries + 1 => attempt execute retries (made + 1)
    else pure ⟨made + 1, result⟩
  else throw .attemptCounterFull

/-- Puts a step that succeeded before a run. If the run was aborted, the step undoes itself. -/
def closing (step : Step σ m ε π) (tries : Tries ε π) (run : Run ε) : StateT σ m (Run ε) :=
  let record := StepRecord.executed step.name tries.attempts tries.result.message step.undoing
  match run.result with
  | .ok report =>
    pure ⟨.ok { report with executed := step.name :: report.executed }, run.audit.cons record⟩
  | .error aborted => do
    let undo ← step.compensate
    pure ⟨.error (aborted.afterUndo step.name step.undoing undo),
      run.audit.cons (record.compensated undo.isSuccess undo.message)⟩

def visit (policy : Step σ m ε π → RetryPolicy) :
    List (Step σ m ε π) → ExceptT Interruption (StateT σ m) (Run ε)
  | [] => pure .ended
  | step :: rest => do
    if step.applies (← get) then
      let tries ← attempt step.execute (policy step).maxRetries.toNat 0
      if tries.result.isSuccess then
        let run ← visit policy rest
        closing step tries run
      else if step.mandatory || tries.result.isRejected then
        pure (stopped step.name tries)
      else
        let run ← visit policy rest
        pure (run.passingOver step.name tries)
    else
      let run ← visit policy rest
      pure (run.skipping step.name)

end Run

def Saga.run {σ : Type} {m : Type → Type} [Monad m] {ε π : Type} (saga : Saga σ m ε π) :
    ExceptT Interruption (StateT σ m) (Run ε) :=
  Run.visit saga.policyFor saga.steps

end Missions
