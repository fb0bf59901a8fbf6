namespace Missions

inductive StepStatus where
  | executed
  | skipped
  | failed
  | optionalFailed
  | compensated
  | compensationFailed
  deriving DecidableEq, Repr, Inhabited

namespace StepStatus

def name : StepStatus → String
  | executed => "Executed"
  | skipped => "Skipped"
  | failed => "Failed"
  | optionalFailed => "OptionalFailed"
  | compensated => "Compensated"
  | compensationFailed => "CompensationFailed"

def all : List StepStatus := [executed, skipped, failed, optionalFailed, compensated, compensationFailed]

def symbol : StepStatus → String
  | executed => "✓"
  | skipped => "-"
  | failed => "✗"
  | optionalFailed => "~"
  | compensated => "↩"
  | compensationFailed => "⚠"

end StepStatus

/-- When a record was closed: not yet, at the moment it was opened, or after some time. -/
inductive Closing where
  | pending
  | atOnce
  | later
  deriving DecidableEq, Repr, Inhabited

structure StepRecord where
  name : String
  status : StepStatus
  attempts : Nat
  message : Option String
  /-- What compensating would undo; only for a step that succeeded. -/
  compensation : Option String
  closing : Closing
  deriving DecidableEq, Repr, Inhabited

namespace StepRecord

def opened (name : String) (attempts : Nat) : StepRecord := ⟨name, .executed, attempts, none, none, .pending⟩

def settle (r : StepRecord) (status : StepStatus) (message : String) : StepRecord :=
  { r with status, message := some message, closing := .later }

def skipped (name : String) : StepRecord := { opened name 0 with status := .skipped, closing := .atOnce }

def executed (name : String) (attempts : Nat) (message compensation : String) : StepRecord :=
  { (opened name attempts).settle .executed message with compensation := some compensation }

def failed (name : String) (attempts : Nat) (message : String) (aborts : Bool) : StepRecord :=
  (opened name attempts).settle (if aborts then .failed else .optionalFailed) message

def compensated (r : StepRecord) (succeeded : Bool) (message : String) : StepRecord :=
  r.settle (if succeeded then .compensated else .compensationFailed) message

def isFinished (r : StepRecord) : Bool := r.closing != .pending

/-- Mark and name, and the number of attempts if there were several. -/
def line (r : StepRecord) : String :=
  let base := r.status.symbol ++ " " ++ r.name
  if r.attempts ≤ 1 then base else base ++ " (" ++ toString r.attempts ++ " attempts)"

end StepRecord

structure AuditLog where
  records : List StepRecord
  deriving DecidableEq, Repr, Inhabited

namespace AuditLog

def empty : AuditLog := ⟨[]⟩

def cons (r : StepRecord) (log : AuditLog) : AuditLog := ⟨r :: log.records⟩

/-- Names of the steps that ended up with `status`, in the order of the log. -/
def stepsWithStatus (log : AuditLog) (status : StepStatus) : List String :=
  (log.records.filter (·.status == status)).map (·.name)

def summary (log : AuditLog) : String := "\n".intercalate (log.records.map StepRecord.line)

end AuditLog

end Missions
