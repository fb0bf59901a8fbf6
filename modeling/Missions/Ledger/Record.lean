namespace Missions

inductive ExecutionStatus where
  | pending
  | inProgress
  | completed
  | failed
  deriving DecidableEq, Repr, Inhabited

def ExecutionStatus.name : ExecutionStatus → String
  | pending => "Pending"
  | inProgress => "InProgress"
  | completed => "Completed"
  | failed => "Failed"

def ExecutionStatus.ofName? (name : String) : Option ExecutionStatus :=
  [pending, inProgress, completed, failed].find? (·.name == name)

inductive ParticipantStatus where
  | accepted
  | inProgress
  | completed
  | failed
  | withdrawn
  deriving DecidableEq, Repr, Inhabited

def ParticipantStatus.name : ParticipantStatus → String
  | accepted => "Accepted"
  | inProgress => "InProgress"
  | completed => "Completed"
  | failed => "Failed"
  | withdrawn => "Withdrawn"

def ParticipantStatus.ofName? (name : String) : Option ParticipantStatus :=
  [accepted, inProgress, completed, failed, withdrawn].find? (·.name == name)

def ParticipantStatus.isActive : ParticipantStatus → Bool
  | accepted | inProgress | completed => true
  | failed | withdrawn => false

structure Mission where
  id : Int
  title : String
  description : String
  creator : String
  category : Option Int
  categoryName : Option String
  guild : Option Int
  experience : Int
  guildExperience : Int
  totalExecutions : UInt32
  deriving DecidableEq, Repr, Inhabited

def Mission.isGuildMission (m : Mission) : Bool := m.guild.isSome

structure Participant where
  id : Int
  mission : Int
  user : String
  status : ParticipantStatus
  progress : UInt8
  deriving DecidableEq, Repr, Inhabited

structure Execution where
  id : Int
  participant : Int
  mission : Int
  user : String
  status : ExecutionStatus
  sharedToFeed : Bool
  deriving DecidableEq, Repr, Inhabited

structure Instance where
  id : Int
  mission : Int
  user : String
  status : ExecutionStatus
  sharedToFeed : Bool
  deriving DecidableEq, Repr, Inhabited

inductive Target where
  | execution (id : Int)
  | pinned (id : Int)
  deriving DecidableEq, Repr, Inhabited

def Target.text : Target → String
  | execution id => "Execution(" ++ toString id ++ ")"
  | pinned id => "Instance(" ++ toString id ++ ")"

structure Experience where
  user : String
  level : UInt32
  total : Int
  deriving DecidableEq, Repr, Inhabited

inductive GrantOrigin where
  | execution
  | pinned
  deriving DecidableEq, Repr, Inhabited

def GrantOrigin.name : GrantOrigin → String
  | execution => "MissionExecution"
  | pinned => "MissionInstance"

def GrantOrigin.ofName? (name : String) : Option GrantOrigin := [execution, pinned].find? (·.name == name)

structure ExperienceGrant where
  user : String
  amount : Int
  origin : GrantOrigin
  originId : Int
  description : String
  category : Option Int
  categoryName : Option String
  deriving DecidableEq, Repr, Inhabited

structure GuildExperience where
  guild : Int
  level : UInt32
  current : Int
  total : Int
  deriving DecidableEq, Repr, Inhabited

structure GuildCredit where
  user : String
  mission : Int
  deriving DecidableEq, Repr, Inhabited

structure FeedDraft where
  user : String
  mission : Int
  title : String
  description : String
  categoryName : Option String
  experienceEarned : Int
  userLevel : Option UInt32
  deriving DecidableEq, Repr, Inhabited

structure Feed where
  id : Int
  user : String
  mission : Int
  deriving DecidableEq, Repr, Inhabited

end Missions
