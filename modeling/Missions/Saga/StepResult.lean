namespace Missions

inductive FailureKind where
  | transient
  | validation
  deriving DecidableEq, Repr

def FailureKind.name : FailureKind → String
  | transient => "Transient"
  | validation => "Validation"

inductive StepResult (ε π : Type) where
  | success (message : String) (payload : Option π)
  | transient (message : String) (cause : Option ε)
  | rejected (message : String) (cause : ε)
  deriving Repr

namespace StepResult

variable {ε π : Type}

def isSuccess : StepResult ε π → Bool
  | success .. => true
  | transient .. | rejected .. => false

def isFailure (r : StepResult ε π) : Bool := !r.isSuccess

def failureKind : StepResult ε π → Option FailureKind
  | success .. => none
  | transient .. => some .transient
  | rejected .. => some .validation

def isRetryable : StepResult ε π → Bool
  | transient .. => true
  | success .. | rejected .. => false

def isRejected : StepResult ε π → Bool
  | rejected .. => true
  | success .. | transient .. => false

def message : StepResult ε π → String
  | success m _ | transient m _ | rejected m _ => m

def payload : StepResult ε π → Option π
  | success _ p => p
  | transient .. | rejected .. => none

def cause : StepResult ε π → Option ε
  | success .. => none
  | transient _ c => c
  | rejected _ c => some c

theorem cause_of_isSuccess {result : StepResult ε π} (h : result.isSuccess = true) : result.cause = none := by
  cases result with
  | success => rfl
  | transient | rejected => cases h

theorem failureKind_of_isRejected {result : StepResult ε π} (h : result.isRejected = true) :
    result.failureKind = some .validation := by
  cases result with
  | rejected => rfl
  | success | transient => cases h

theorem isRejected_of_isSuccess {result : StepResult ε π} (h : result.isSuccess = true) :
    result.isRejected = false := by
  cases result with
  | success => rfl
  | transient | rejected => cases h

theorem isRejected_of_isRetryable {result : StepResult ε π} (h : result.isRetryable = true) :
    result.isRejected = false := by
  cases result with
  | transient => rfl
  | success | rejected => cases h

theorem isSuccess_of_isRetryable {result : StepResult ε π} (h : result.isRetryable = true) :
    result.isSuccess = false := by
  cases result with
  | transient => rfl
  | success | rejected => cases h

end StepResult

end Missions
