import Missions.Ledger.Record
import Missions.Saga.Snapshots

namespace Missions

/-- Who completes what. The target is a mission, or for a pinned one the instance. -/
structure Request where
  user : String
  target : Int
  pinned : Bool
  share : Bool
  deriving DecidableEq, Repr, Inhabited

inductive SnapshotType where
  | amount
  | level
  | progress
  | participantStatus
  | executionStatus
  deriving DecidableEq, Repr

@[reducible] def SnapshotType.Value : SnapshotType → Type
  | amount => Int
  | level => UInt32
  | progress => UInt8
  | participantStatus => ParticipantStatus
  | executionStatus => ExecutionStatus

def SnapshotType.text : (t : SnapshotType) → t.Value → String
  | amount, n => toString n
  | level, n => toString n
  | progress, n => toString n
  | participantStatus, s => s.name
  | executionStatus, s => s.name

namespace Snapshot

def userTotalBefore : SnapshotKey SnapshotType.amount := ⟨"USER_EXP_BEFORE"⟩
def userTotalAfter : SnapshotKey SnapshotType.amount := ⟨"USER_EXP_AFTER"⟩
def userLevelBefore : SnapshotKey SnapshotType.level := ⟨"USER_LEVEL_BEFORE"⟩
def userGranted : SnapshotKey SnapshotType.amount := ⟨"USER_EXP_GRANTED"⟩

def guildTotalBefore : SnapshotKey SnapshotType.amount := ⟨"GUILD_EXP_BEFORE"⟩
def guildTotalAfter : SnapshotKey SnapshotType.amount := ⟨"GUILD_EXP_AFTER"⟩
def guildLevelBefore : SnapshotKey SnapshotType.level := ⟨"GUILD_LEVEL_BEFORE"⟩
def guildGranted : SnapshotKey SnapshotType.amount := ⟨"GUILD_EXP_GRANTED"⟩

def progressBefore : SnapshotKey SnapshotType.progress := ⟨"PARTICIPANT_PROGRESS_BEFORE"⟩
def progressAfter : SnapshotKey SnapshotType.progress := ⟨"PARTICIPANT_PROGRESS_AFTER"⟩
def participantBefore : SnapshotKey SnapshotType.participantStatus := ⟨"PARTICIPANT_STATUS_BEFORE"⟩
def participantAfter : SnapshotKey SnapshotType.participantStatus := ⟨"PARTICIPANT_STATUS_AFTER"⟩

/-- The status of the execution or the pinned instance before it was claimed. -/
def targetBefore : SnapshotKey SnapshotType.executionStatus := ⟨"INSTANCE_STATUS_BEFORE"⟩
/-- Its status afterwards; kept only once the claim has held. -/
def targetAfter : SnapshotKey SnapshotType.executionStatus := ⟨"INSTANCE_STATUS_AFTER"⟩

def all : List (Sigma fun t : SnapshotType => SnapshotKey t) :=
  [⟨_, userTotalBefore⟩, ⟨_, userTotalAfter⟩, ⟨_, userLevelBefore⟩, ⟨_, userGranted⟩,
    ⟨_, guildTotalBefore⟩, ⟨_, guildTotalAfter⟩, ⟨_, guildLevelBefore⟩, ⟨_, guildGranted⟩,
    ⟨_, progressBefore⟩, ⟨_, progressAfter⟩, ⟨_, participantBefore⟩, ⟨_, participantAfter⟩,
    ⟨_, targetBefore⟩, ⟨_, targetAfter⟩]

end Snapshot

structure Context where
  request : Request
  isGuildMission : Bool := false
  mission : Option Mission := none
  participant : Option Participant := none
  execution : Option Execution := none
  pinned : Option Instance := none
  guild : Option Int := none
  category : Option Int := none
  categoryName : Option String := none
  title : String := ""
  description : String := ""
  userEarned : Int := 0
  guildEarned : Int := 0
  levelBefore : Option UInt32 := none
  levelAfter : Option UInt32 := none
  progress : Option UInt8 := none
  feed : Option Int := none
  snapshots : Snapshots SnapshotType.Value := ∅

namespace Context

def start (request : Request) : Context := { request }

/-- Takes over what a mission shows and rewards. Without a guild it rewards no guild. -/
def withMission (ctx : Context) (mission : Mission) : Context :=
  { ctx with
    isGuildMission := mission.isGuildMission
    guild := mission.guild
    category := mission.category
    categoryName := mission.categoryName
    title := mission.title
    description := mission.description
    userEarned := mission.experience
    guildEarned := if mission.isGuildMission then mission.guildExperience else 0
    mission := some mission }

def withExecution (ctx : Context) (mission : Mission) (participant : Participant) (execution : Execution) : Context :=
  { ctx.withMission mission with participant := some participant, execution := some execution }

def withInstance (ctx : Context) (mission : Mission) (pinned : Instance) : Context :=
  { ctx.withMission mission with pinned := some pinned }

def withLevelBefore (ctx : Context) (level : UInt32) : Context := { ctx with levelBefore := some level }

def withLevelAfter (ctx : Context) (level : UInt32) : Context := { ctx with levelAfter := some level }

def withParticipant (ctx : Context) (participant : Participant) : Context :=
  { ctx with participant := some participant, progress := some participant.progress }

def withExecutionStatus (ctx : Context) (status : ExecutionStatus) : Context :=
  { ctx with execution := ctx.execution.map fun x => { x with status } }

def withInstanceStatus (ctx : Context) (status : ExecutionStatus) : Context :=
  { ctx with pinned := ctx.pinned.map fun i => { i with status } }

def withFeed (ctx : Context) (feed : Option Int) : Context := { ctx with feed }

def missionId (ctx : Context) : Option Int := ctx.mission.map (·.id)

/-- The record whose shared flag tells of this completion. -/
def target (ctx : Context) : Option Target :=
  if ctx.request.pinned then ctx.pinned.map fun i => .pinned i.id
  else ctx.execution.map fun x => .execution x.id

def leveledUp (ctx : Context) : Bool :=
  match ctx.levelBefore, ctx.levelAfter with
  | some before, some after => before < after
  | _, _ => false

def keep {t : SnapshotType} (ctx : Context) (key : SnapshotKey t) (v : t.Value) : Context :=
  { ctx with snapshots := ctx.snapshots.insert key v }

def kept {t : SnapshotType} (ctx : Context) (key : SnapshotKey t) : Option t.Value := ctx.snapshots.get? key

def forget {t : SnapshotType} (ctx : Context) (key : SnapshotKey t) : Context :=
  { ctx with snapshots := ctx.snapshots.erase key }

end Context

end Missions
