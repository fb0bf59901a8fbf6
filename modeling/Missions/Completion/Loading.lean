import Missions.Completion.Procedure

/-! The first step reads the mission and the record to be closed. It changes nothing outside the context, and leaves
the context alone until every check has passed. -/

namespace Missions.Loading

open Procedure

def findMission (id : Int) : Procedure Mission := do
  let found ← ask (.findMission id)
  require found (.notFound "mission" (toString id))

def loadExecution : Procedure Success := do
  let request := (← get).request
  let mission ← findMission request.target
  let participant : Participant ←
    require (← ask (.findParticipant mission.id request.user)) (.notParticipant mission.id request.user)
  check participant.status.isActive (.participantInactive mission.id participant.id participant.status)
  let execution : Execution ←
    require (← ask (.findExecutionInProgress participant.id)) (.noExecutionInProgress mission.id)
  check (execution.user = request.user) (.notOwner "execution" execution.id request.user)
  check (execution.status = .inProgress) (.invalidStatus "execution" execution.id .inProgress execution.status)
  modify (·.withExecution mission participant execution)
  pure ⟨"mission data loaded", some (.loadedExecution mission.id execution.id mission.isGuildMission)⟩

def loadInstance : Procedure Success := do
  let request := (← get).request
  let pinned : Instance ←
    require (← ask (.findInstance request.target)) (.notFound "mission instance" (toString request.target))
  check (pinned.user = request.user) (.notOwner "mission instance" pinned.id request.user)
  check (pinned.status = .inProgress) (.invalidStatus "mission instance" pinned.id .inProgress pinned.status)
  let mission ← findMission pinned.mission
  modify (·.withInstance mission pinned)
  pure ⟨"mission data loaded", some (.loadedInstance mission.id pinned.id mission.isGuildMission)⟩

def load : Procedure Success := do
  if (← get).request.pinned then loadInstance else loadExecution

def step : CompletionStep where
  name := "load_mission_data"
  execute := settle "failed to load mission data" CompletionError.isValidation load
  undoing := "nothing to undo for read-only mission load"

theorem compensate_eq_settle : step.compensate =
    settle "" neverRejects (pure ⟨step.name ++ " has nothing to compensate", none⟩) := rfl

end Missions.Loading
