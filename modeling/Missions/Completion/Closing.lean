import Missions.Completion.Procedure

namespace Missions.Closing

open Procedure

def close : Procedure Success := do
  let pinned ← require (← get).pinned (.missingContext "mission instance")
  keep Snapshot.targetBefore pinned.status
  let claimed : Bool ← ask (.completeInstance pinned.id)
  check claimed (.alreadyCompleted "mission instance" pinned.id)
  keep Snapshot.targetAfter .completed
  modify (·.withInstanceStatus .completed)
  pure ⟨"mission instance completed", some (.closed pinned.id)⟩

def revert : Procedure Success := do
  let ctx ← get
  match ctx.kept Snapshot.targetBefore, ctx.kept Snapshot.targetAfter with
  | some before, some after =>
    let pinned ← require ctx.pinned (.missingContext "mission instance")
    let current : Instance ←
      require (← ask (.findInstance pinned.id)) (.notFound "mission instance" (toString pinned.id))
    if current.status = before then
      pure ⟨"mission instance already restored", none⟩
    else if current.status ≠ after then
      throw (.concurrentModification ("status of mission instance " ++ toString pinned.id) after.name
        current.status.name)
    else
      ask (.saveInstance { current with status := before })
      modify (·.withInstanceStatus before)
      pure ⟨"mission instance status restored", none⟩
  | _, _ => pure ⟨"no instance was completed", none⟩

def step : CompletionStep where
  name := "complete_mission_instance"
  applies := fun ctx => ctx.request.pinned
  execute := settle "failed to complete mission instance" losesClaim close
  compensate := settle "failed to restore mission instance" losesClaim revert
  undoing := "restore the mission instance status"

end Missions.Closing
