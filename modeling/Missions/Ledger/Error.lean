import Missions.Ledger.Record
import Missions.Saga.Aborted

namespace Missions

inductive CompletionError where
  | collaborator (service message : String)
  | notFound (entity id : String)
  | notOwner (entity : String) (id : Int) (user : String)
  | notParticipant (mission : Int) (user : String)
  | participantInactive (mission participant : Int) (status : ParticipantStatus)
  | noExecutionInProgress (mission : Int)
  | invalidStatus (entity : String) (id : Int) (expected actual : ExecutionStatus)
  | alreadyCompleted (entity : String) (id : Int)
  | concurrentModification (resource expected found : String)
  /-- `release` kept an execution from being given back after `cause`. -/
  | executionNotReleased (execution : Int) (cause release : CompletionError)
  | partialRestore (failures : List CompletionError)
  | missingContext (what : String)
  | unreadableSettings (path reason : String)
  | malformedSettings (origin : String)
  | unknownStep (step known : String)
  | stopped (step message : String) (cause : Option CompletionError)
  /-- A step stopped the run, and not all before it could be undone. -/
  | stoppedPartlyUndone (step message : String) (cause : Option CompletionError)
      (failures : List (UndoFailure CompletionError))

namespace CompletionError

mutual

def message : CompletionError → String
  | collaborator service message => service ++ " call failed: " ++ message
  | notFound entity id => entity ++ " " ++ id ++ " not found"
  | notOwner entity id user => "user '" ++ user ++ "' does not own " ++ entity ++ " " ++ toString id
  | notParticipant mission user => "user '" ++ user ++ "' is not participating in mission " ++ toString mission
  | participantInactive mission participant status =>
    "participant " ++ toString participant ++ " has left mission " ++ toString mission ++ " (" ++ status.name ++ ")"
  | noExecutionInProgress mission => "no execution in progress for mission " ++ toString mission
  | invalidStatus entity id expected actual =>
    entity ++ " " ++ toString id ++ " is " ++ actual.name ++ ", expected " ++ expected.name
  | alreadyCompleted entity id => entity ++ " " ++ toString id ++ " was already completed by another request"
  | concurrentModification resource expected found =>
    resource ++ " changed concurrently (expected " ++ expected ++ ", found " ++ found ++ ")"
  | executionNotReleased execution cause release =>
    "execution " ++ toString execution ++ " stays claimed after a failed progress update (" ++ cause.message ++
      "): " ++ release.message
  | partialRestore failures => "restore left incomplete: " ++ "; ".intercalate (messages failures)
  | missingContext what => "mission data is not loaded: missing " ++ what
  | unreadableSettings path _ => "failed to read completion config '" ++ path ++ "'"
  | malformedSettings origin => "failed to parse completion config '" ++ origin ++ "'"
  | unknownStep step known => "completion config names unknown step '" ++ step ++ "' (known: " ++ known ++ ")"
  | stopped step message _ => "mission completion failed at step '" ++ step ++ "': " ++ message
  | stoppedPartlyUndone step message _ failures =>
    "mission completion failed at step '" ++ step ++ "': " ++ message ++ ", and " ++ toString failures.length ++
      " compensation(s) also failed"
termination_by structural e => e

def messages : List CompletionError → List String
  | [] => []
  | e :: rest => e.message :: messages rest
termination_by structural es => es

end

/-- Errors that reject the request itself are never worth another attempt. -/
def isValidation : CompletionError → Bool
  | notFound .. | notOwner .. | notParticipant .. | participantInactive .. | noExecutionInProgress ..
  | invalidStatus .. | alreadyCompleted .. | missingContext .. => true
  | collaborator .. | concurrentModification .. | executionNotReleased .. | partialRestore ..
  | unreadableSettings .. | malformedSettings .. | unknownStep .. | stopped .. | stoppedPartlyUndone .. => false

/-- The step that stopped the run, if a run was stopped. -/
def failedStep : CompletionError → Option String
  | stopped step _ _ | stoppedPartlyUndone step _ _ _ => some step
  | _ => none

/-- The innermost error behind a stopped run. -/
def rootCause : CompletionError → CompletionError
  | stopped _ _ (some cause) | stoppedPartlyUndone _ _ (some cause) _ => cause.rootCause
  | e => e
termination_by structural e => e

def sources : CompletionError → List String
  | executionNotReleased _ _ release => release.message :: release.sources
  | stopped _ _ (some cause) | stoppedPartlyUndone _ _ (some cause) _ => cause.message :: cause.sources
  | unreadableSettings _ reason => [reason]
  | _ => []
termination_by structural e => e

/-- The error of a completion whose run was aborted. -/
def ofAborted : Aborted CompletionError → CompletionError
  | .undone step message cause => stopped step message cause
  | .partlyUndone step message cause failures => stoppedPartlyUndone step message cause failures

end CompletionError

end Missions
