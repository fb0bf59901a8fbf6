import Missions.Completion.Procedure

namespace Missions.GuildReward

open Procedure

def credit : Procedure GuildCredit := do
  let ctx ← get
  let mission ← require ctx.missionId (.missingContext "mission")
  pure ⟨ctx.request.user, mission⟩

def grant : Procedure Success := do
  let ctx ← get
  let guild ← require ctx.guild (.missingContext "guild")
  let amount := ctx.guildEarned
  if amount ≤ 0 then
    pure ⟨"mission grants no guild experience", none⟩
  else
    let source ← credit
    let before : GuildExperience ← ask (.guildExperience guild)
    keep Snapshot.guildTotalBefore before.total
    keep Snapshot.guildLevelBefore before.level
    let after : GuildExperience ← ask (.addGuildExperience guild amount source)
    keep Snapshot.guildTotalAfter after.total
    keep Snapshot.guildGranted amount
    pure ⟨"granted " ++ toString amount ++ " guild experience", some (.guildGranted guild amount after.level)⟩

def revert : Procedure Success := do
  let ctx ← get
  match ctx.guild, ctx.kept Snapshot.guildTotalBefore, ctx.kept Snapshot.guildTotalAfter,
      ctx.kept Snapshot.guildGranted with
  | some guild, some before, some after, some amount =>
    let current : GuildExperience ← ask (.guildExperience guild)
    if current.total = before then
      pure ⟨"guild experience already reverted", none⟩
    else if current.total ≠ after then
      throw (.concurrentModification ("experience of guild " ++ toString guild) (toString after)
        (toString current.total))
    else
      let source ← credit
      let _restored : GuildExperience ← ask (.subtractGuildExperience guild amount source)
      pure ⟨"subtracted " ++ toString amount ++ " guild experience", none⟩
  | _, _, _, _ => pure ⟨"no guild experience was granted", none⟩

def step : CompletionStep where
  name := "grant_guild_experience"
  applies := fun ctx => ctx.isGuildMission
  execute := settle "failed to grant guild experience" neverRejects grant
  compensate := settle "failed to revert guild experience" neverRejects revert
  undoing := "subtract the experience granted to the guild"

end Missions.GuildReward
