import Missions.Completion.Advance
import Missions.Completion.Closing
import Missions.Completion.GuildReward
import Missions.Completion.Loading
import Missions.Completion.Settings
import Missions.Completion.Sharing
import Missions.Completion.UserReward
import Missions.Saga.Run

/-! Completes an execution, or a pinned instance, as one saga: load, reward the user, advance the participant or close
the instance, reward the guild, share. Settings whose names are no steps are refused when the operation is made. -/

namespace Missions

structure Completion where
  mission : Int
  userEarned : Int
  guildEarned : Int
  levelBefore : Option UInt32
  levelAfter : Option UInt32
  leveledUp : Bool
  progress : Option UInt8
  guild : Option Int
  feed : Option Int
  executedSteps : List String
  skippedSteps : List String
  /-- Why the completion was not shared although that was asked for. -/
  feedError : Option String
  deriving DecidableEq, Repr

def Completion.ofRun (ctx : Context) (report : Report CompletionError) : Except CompletionError Completion :=
  match ctx.missionId with
  | none => .error (.missingContext "mission")
  | some mission =>
    .ok
      { mission
        userEarned := ctx.userEarned
        guildEarned := ctx.guildEarned
        levelBefore := ctx.levelBefore
        levelAfter := ctx.levelAfter
        leveledUp := ctx.leveledUp
        progress := ctx.progress
        guild := ctx.guild
        feed := ctx.feed
        executedSteps := report.executed
        skippedSteps := report.skipped
        feedError := (report.optionalFailures.map (·.message)).head? }

namespace Operation

def untuned : Saga Context (Program Context) CompletionError Receipt :=
  (((((Saga.starting ∅ Loading.step).andThen UserReward.step).andThen Advance.step).andThen Closing.step).andThen
    GuildReward.step).andThen Sharing.step

def stepNames : List String := untuned.stepNames

end Operation

/-- Settings that name steps of the completion only. -/
structure Operation where
  settings : Settings
  valid : settings.validate Operation.stepNames = .ok ()

namespace Operation

/-- Refuses settings for a step that the completion does not have. -/
def new? (settings : Settings) : Except CompletionError Operation :=
  match h : settings.validate stepNames with
  | .ok () => .ok ⟨settings, h⟩
  | .error e => .error e

/-- The saga under the settings. Of several settings for one step the last one holds. -/
def saga (o : Operation) : Saga Context (Program Context) CompletionError Receipt :=
  o.settings.retryOverrides.foldl (fun saga (name, policy) => saga.override name policy) untuned

/-- The request as it is run: nothing is shared while sharing is off. -/
def effective (o : Operation) (request : Request) : Request :=
  { request with share := request.share && o.settings.feedEnabled }

/-- Completes a mission, and answers the outcome with the audit log. -/
def complete (o : Operation) (request : Request) :
    Program Context (Except Interruption (Except CompletionError Completion × AuditLog)) := do
  let (run, ctx) ← o.saga.run.run.run (.start (o.effective request))
  match run with
  | .error i => pure (.error i)
  | .ok run =>
    match run.result with
    | .ok report => pure (.ok (Completion.ofRun ctx report, run.audit))
    | .error aborted => pure (.ok (.error (.ofAborted aborted), run.audit))

end Operation

end Missions
