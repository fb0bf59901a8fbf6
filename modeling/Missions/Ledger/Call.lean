import Missions.Ledger.Record

namespace Missions

inductive Method where
  | currentExperience
  | grantExperience
  | subtractExperience
  | guildExperience
  | addGuildExperience
  | subtractGuildExperience
  | createFeed
  | deleteFeed
  | setShared
  | findMission
  | findParticipant
  | saveParticipant
  | findExecution
  | findExecutionInProgress
  | saveExecution
  | completeExecution
  | countExecutions
  | findInstance
  | saveInstance
  | completeInstance
  deriving DecidableEq, Repr, Inhabited

namespace Method

def name : Method → String
  | currentExperience => "experience.current"
  | grantExperience => "experience.grant"
  | subtractExperience => "experience.subtract"
  | guildExperience => "guild.exp_info"
  | addGuildExperience => "guild.add"
  | subtractGuildExperience => "guild.subtract"
  | createFeed => "feed.create"
  | deleteFeed => "feed.delete"
  | setShared => "flags.set"
  | findMission => "missions.find_mission"
  | findParticipant => "missions.find_participant"
  | saveParticipant => "missions.save_participant"
  | findExecution => "executions.find_by_id"
  | findExecutionInProgress => "executions.find_in_progress"
  | saveExecution => "executions.save"
  | completeExecution => "executions.complete"
  | countExecutions => "executions.count"
  | findInstance => "instances.find_by_id"
  | saveInstance => "instances.save"
  | completeInstance => "instances.complete"

def all : List Method :=
  [currentExperience, grantExperience, subtractExperience, guildExperience, addGuildExperience,
    subtractGuildExperience, createFeed, deleteFeed, setShared, findMission, findParticipant, saveParticipant,
    findExecution, findExecutionInProgress, saveExecution, completeExecution, countExecutions, findInstance,
    saveInstance, completeInstance]

def ofName? (name : String) : Option Method := all.find? (·.name == name)

theorem mem_all (m : Method) : m ∈ all := by cases m <;> decide

end Method

@[reducible] def Method.Answer : Method → Type
  | currentExperience | grantExperience | subtractExperience => Experience
  | guildExperience | addGuildExperience | subtractGuildExperience => GuildExperience
  | createFeed => Feed
  | deleteFeed | setShared | saveParticipant | saveExecution | saveInstance => Unit
  | findMission => Option Mission
  | findParticipant => Option Participant
  | findExecution | findExecutionInProgress => Option Execution
  | completeExecution | completeInstance => Bool
  | countExecutions => UInt32
  | findInstance => Option Instance

inductive Call where
  | currentExperience (user : String)
  | grantExperience (grant : ExperienceGrant)
  | subtractExperience (grant : ExperienceGrant)
  | guildExperience (guild : Int)
  | addGuildExperience (guild amount : Int) (credit : GuildCredit)
  | subtractGuildExperience (guild amount : Int) (credit : GuildCredit)
  | createFeed (draft : FeedDraft)
  | deleteFeed (feed : Int)
  | setShared (target : Target) (shared : Bool)
  | findMission (id : Int)
  | findParticipant (mission : Int) (user : String)
  | saveParticipant (participant : Participant)
  | findExecution (id : Int)
  | findExecutionInProgress (participant : Int)
  | saveExecution (execution : Execution)
  /-- Moves an execution from in progress to completed, and tells whether it did. -/
  | completeExecution (id : Int)
  | countExecutions (participant : Int) (status : ExecutionStatus)
  | findInstance (id : Int)
  | saveInstance (pinned : Instance)
  /-- Moves an instance from in progress to completed, and tells whether it did. -/
  | completeInstance (id : Int)
  deriving DecidableEq, Repr

@[reducible] def Call.method : Call → Method
  | currentExperience _ => .currentExperience
  | grantExperience _ => .grantExperience
  | subtractExperience _ => .subtractExperience
  | guildExperience _ => .guildExperience
  | addGuildExperience .. => .addGuildExperience
  | subtractGuildExperience .. => .subtractGuildExperience
  | createFeed _ => .createFeed
  | deleteFeed _ => .deleteFeed
  | setShared .. => .setShared
  | findMission _ => .findMission
  | findParticipant .. => .findParticipant
  | saveParticipant _ => .saveParticipant
  | findExecution _ => .findExecution
  | findExecutionInProgress _ => .findExecutionInProgress
  | saveExecution _ => .saveExecution
  | completeExecution _ => .completeExecution
  | countExecutions .. => .countExecutions
  | findInstance _ => .findInstance
  | saveInstance _ => .saveInstance
  | completeInstance _ => .completeInstance

@[reducible] def Call.Answer (c : Call) : Type := c.method.Answer

/-- The line that a call leaves in a call log. Looking up records leaves none. -/
def Call.line? : Call → Option String
  | currentExperience user => some ("experience.current " ++ user)
  | grantExperience grant => some ("experience.grant " ++ grant.user ++ " " ++ toString grant.amount)
  | subtractExperience grant => some ("experience.subtract " ++ grant.user ++ " " ++ toString grant.amount)
  | guildExperience guild => some ("guild.exp_info " ++ toString guild)
  | addGuildExperience guild amount credit =>
    some ("guild.add " ++ toString guild ++ " " ++ toString amount ++ " mission " ++ toString credit.mission)
  | subtractGuildExperience guild amount credit =>
    some ("guild.subtract " ++ toString guild ++ " " ++ toString amount ++ " mission " ++ toString credit.mission)
  | createFeed draft => some ("feed.create mission " ++ toString draft.mission)
  | deleteFeed feed => some ("feed.delete " ++ toString feed)
  | setShared target shared => some ("shared.set " ++ target.text ++ " " ++ toString shared)
  | saveParticipant p => some ("missions.save_participant " ++ toString p.id ++ " " ++ toString p.progress)
  | saveExecution x => some ("executions.save " ++ toString x.id ++ " " ++ x.status.name)
  | completeExecution id => some ("executions.complete " ++ toString id)
  | saveInstance i => some ("instances.save " ++ toString i.id ++ " " ++ i.status.name)
  | completeInstance id => some ("instances.complete " ++ toString id)
  | findMission _ | findParticipant .. | findExecution _ | findExecutionInProgress _ | countExecutions ..
  | findInstance _ => none

end Missions
