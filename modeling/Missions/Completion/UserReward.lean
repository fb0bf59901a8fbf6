import Missions.Completion.Procedure

namespace Missions.UserReward

open Procedure

/-- The grant of `amount` for the record that is being completed. -/
def grantOf (ctx : Context) (amount : Int) : ExperienceGrant where
  user := ctx.request.user
  amount := amount
  origin := if ctx.request.pinned then .pinned else .execution
  originId :=
    if ctx.request.pinned then ctx.request.target
    else (ctx.execution.map (·.id)).getD ctx.request.target
  description := "Completed mission: " ++ ctx.title
  category := ctx.category
  categoryName := ctx.categoryName

def grant : Procedure Success := do
  let ctx ← get
  let amount := ctx.userEarned
  if amount ≤ 0 then
    pure ⟨"mission grants no experience", none⟩
  else
    let before : Experience ← ask (.currentExperience ctx.request.user)
    keep Snapshot.userTotalBefore before.total
    keep Snapshot.userLevelBefore before.level
    modify (·.withLevelBefore before.level)
    let after : Experience ← ask (.grantExperience (grantOf ctx amount))
    keep Snapshot.userTotalAfter after.total
    keep Snapshot.userGranted amount
    modify (·.withLevelAfter after.level)
    pure ⟨"granted " ++ toString amount ++ " experience", some (.granted amount before.level after.level)⟩

def revert : Procedure Success := do
  let ctx ← get
  match ctx.kept Snapshot.userTotalBefore, ctx.kept Snapshot.userTotalAfter, ctx.kept Snapshot.userGranted with
  | some before, some after, some amount =>
    let current : Experience ← ask (.currentExperience ctx.request.user)
    if current.total = before then
      pure ⟨"user experience already reverted", none⟩
    else if current.total ≠ after then
      throw (.concurrentModification ("experience of user '" ++ ctx.request.user ++ "'") (toString after)
        (toString current.total))
    else
      let restored : Experience ← ask (.subtractExperience (grantOf ctx amount))
      modify (·.withLevelAfter restored.level)
      pure ⟨"subtracted " ++ toString amount ++ " experience", none⟩
  | _, _, _ => pure ⟨"no experience was granted", none⟩

def step : CompletionStep where
  name := "grant_user_experience"
  execute := settle "failed to grant user experience" neverRejects grant
  compensate := settle "failed to revert user experience" neverRejects revert
  undoing := "subtract the experience granted to the user"

end Missions.UserReward
