import Missions.Completion.Procedure

namespace Missions.Advance

open Procedure

/-- Completed executions as a percentage of all, at most 100. No executions in all count as one. -/
def progressPercent (completed total : UInt32) : UInt8 :=
  let percent := min (completed.toUInt64 * 100 / (max total 1).toUInt64) 100
  if percent < 256 then percent.toUInt8 else 100

/-- Writes the participant's progress. The whole makes the participant completed. -/
def recordProgress (participant : Participant) (total : UInt32) : Procedure Participant := do
  let completed : UInt32 ← ask (.countExecutions participant.id .completed)
  let progress := progressPercent completed total
  let updated : Participant :=
    { participant with progress, status := if progress ≥ 100 then .completed else participant.status }
  ask (.saveParticipant updated)
  pure updated

/-- Gives a claimed execution back after `cause`, and answers the error to report. -/
def release (execution : Execution) (cause : CompletionError) : Procedure CompletionError := do
  match ← query (.saveExecution { execution with status := .inProgress }) with
  | .ok _ => pure cause
  | .error e => pure (.executionNotReleased execution.id cause e)

def update : Procedure Success := do
  let ctx ← get
  let execution ← require ctx.execution (.missingContext "execution")
  let participant ← require ctx.participant (.missingContext "participant")
  let mission ← require ctx.mission (.missingContext "mission")
  keep Snapshot.targetBefore execution.status
  keep Snapshot.progressBefore participant.progress
  keep Snapshot.participantBefore participant.status
  let claimed : Bool ← ask (.completeExecution execution.id)
  check claimed (.alreadyCompleted "execution" execution.id)
  match ← outcome (recordProgress participant mission.totalExecutions) with
  | .error e => throw (← release execution e)
  | .ok updated =>
    keep Snapshot.targetAfter .completed
    keep Snapshot.progressAfter updated.progress
    keep Snapshot.participantAfter updated.status
    modify fun ctx => (ctx.withExecutionStatus .completed).withParticipant updated
    pure ⟨"participant progress updated",
      some (.advanced execution.id updated.progress (updated.status == .completed))⟩

/-- Puts an execution back to `before` if it is still `after`; answers whether it had to be. -/
def restoreExecution (id : Int) (before after : ExecutionStatus) : Procedure Bool := do
  let current : Execution ← require (← ask (.findExecution id)) (.notFound "execution" (toString id))
  if current.status = before then pure false
  else if current.status ≠ after then
    throw (.concurrentModification ("status of execution " ++ toString id) after.name current.status.name)
  else
    ask (.saveExecution { current with status := before })
    pure true

def standing (progress : UInt8) (status : ParticipantStatus) : String :=
  toString progress ++ "% (" ++ status.name ++ ")"

/-- Puts the participant back to the standing before, if it still has the standing after. -/
def restoreParticipant (mission : Int) : Procedure (Option Participant) := do
  let ctx ← get
  match ctx.kept Snapshot.progressBefore, ctx.kept Snapshot.participantBefore,
      ctx.kept Snapshot.progressAfter, ctx.kept Snapshot.participantAfter with
  | some progressBefore, some statusBefore, some progressAfter, some statusAfter =>
    let current : Participant ←
      require (← ask (.findParticipant mission ctx.request.user)) (.notParticipant mission ctx.request.user)
    if current.progress = progressBefore ∧ current.status = statusBefore then pure (some current)
    else if current.progress ≠ progressAfter ∨ current.status ≠ statusAfter then
      throw (.concurrentModification ("progress of participant " ++ toString current.id)
        (standing progressAfter statusAfter) (standing current.progress current.status))
    else
      let restored : Participant := { current with progress := progressBefore, status := statusBefore }
      ask (.saveParticipant restored)
      pure (some restored)
  | _, _, _, _ => pure none

/-- Restores both records, the second one also when the first cannot be. -/
def revert : Procedure Success := do
  let ctx ← get
  match ctx.kept Snapshot.targetBefore, ctx.kept Snapshot.targetAfter with
  | some before, some after =>
    let execution ← require ctx.execution (.missingContext "execution")
    let mission ← require ctx.mission (.missingContext "mission")
    let executionOutcome ← outcome (restoreExecution execution.id before after)
    modify fun ctx => if executionOutcome.isOk then ctx.withExecutionStatus before else ctx
    let participantOutcome ← outcome (restoreParticipant mission.id)
    modify fun ctx =>
      match participantOutcome with
      | .ok (some participant) => ctx.withParticipant participant
      | .ok none | .error _ => ctx
    match executionOutcome, participantOutcome with
    | .ok true, .ok _ => pure ⟨"execution and participant progress restored", none⟩
    | .ok false, .ok _ => pure ⟨"execution and participant progress already restored", none⟩
    | .ok _, .error e => throw (.partialRestore [e])
    | .error e, .ok _ => throw (.partialRestore [e])
    | .error e, .error e' => throw (.partialRestore [e, e'])
  | _, _ => pure ⟨"no execution was completed", none⟩

def step : CompletionStep where
  name := "update_participant_progress"
  applies := fun ctx => !ctx.request.pinned
  execute := settle "failed to update participant progress" losesClaim update
  compensate := settle "failed to restore participant progress" losesClaim revert
  undoing := "restore execution status and participant progress"

end Missions.Advance
