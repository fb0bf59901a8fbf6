import Missions.Completion.Procedure

/-! Publishes the completion if the user asked for it, and then marks the closed record as shared. An entry whose mark
fails is deleted again. -/

namespace Missions.Sharing

open Procedure

def draft : Procedure FeedDraft := do
  let ctx ← get
  let mission ← require ctx.missionId (.missingContext "mission")
  pure
    { user := ctx.request.user, mission, title := ctx.title, description := ctx.description
      categoryName := ctx.categoryName, experienceEarned := ctx.userEarned, userLevel := ctx.levelAfter }

def publish : Procedure Success := do
  let ctx ← get
  if !ctx.request.share then
    pure ⟨"sharing to feed not requested", none⟩
  else
    let target ← require ctx.target (.missingContext "completed record")
    let entry ← draft
    let feed : Feed ← ask (.createFeed entry)
    match ← query (.setShared target true) with
    | .error e =>
      -- the entry goes, whether or not its deletion succeeds
      let _ ← query (.deleteFeed feed.id)
      throw e
    | .ok _ =>
      modify (·.withFeed (some feed.id))
      pure ⟨"mission shared to feed", some (.shared feed.id)⟩

def unpublish : Procedure Success := do
  let ctx ← get
  match ctx.feed with
  | none => pure ⟨"no feed entry was created", none⟩
  | some feed =>
    let target ← require ctx.target (.missingContext "completed record")
    ask (.deleteFeed feed)
    modify (·.withFeed none)
    ask (.setShared target false)
    pure ⟨"deleted feed " ++ toString feed, none⟩

def step : CompletionStep where
  name := "create_feed_from_mission"
  mandatory := false
  execute := settle "failed to share mission to feed" neverRejects publish
  compensate := settle "failed to remove shared feed entry" neverRejects unpublish
  undoing := "delete the feed entry and clear the shared flag"

end Missions.Sharing
