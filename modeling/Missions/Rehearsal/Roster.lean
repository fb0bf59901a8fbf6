import Missions.Rehearsal.Disturbance

namespace Missions

structure Roster where
  users : Table String Unit := ∅
  guilds : Table Int Unit := ∅
  sharedExecutions : Table Int Unit := ∅
  sharedInstances : Table Int Unit := ∅
  participants : Table Int Unit := ∅
  executions : Table Int Unit := ∅
  instances : Table Int Unit := ∅

namespace Roster

def addUser (r : Roster) (user : String) : Roster := { r with users := r.users.insert user () }

def addGuild (r : Roster) (guild : Int) : Roster := { r with guilds := r.guilds.insert guild () }

def addParticipant (r : Roster) (id : Int) : Roster := { r with participants := r.participants.insert id () }

def addExecution (r : Roster) (id : Int) : Roster := { r with executions := r.executions.insert id () }

def addInstance (r : Roster) (id : Int) : Roster := { r with instances := r.instances.insert id () }

def addTarget (r : Roster) : Target → Roster
  | .execution id => { r with sharedExecutions := r.sharedExecutions.insert id () }
  | .pinned id => { r with sharedInstances := r.sharedInstances.insert id () }

/-- Records whose flags have come up: executions first, each kind in the order of its numbers. -/
def targets (r : Roster) : List Target := r.sharedExecutions.keys.map .execution ++ r.sharedInstances.keys.map .pinned

def noteDisturbance (r : Roster) : Disturbance → Roster
  | .setUserTotal user _ => r.addUser user
  | .setGuildTotal guild _ => r.addGuild guild
  | .putParticipant p => r.addParticipant p.id
  | .putExecution x => r.addExecution x.id
  | .putInstance i => r.addInstance i.id
  | _ => r

def noteCall (r : Roster) : Call → Roster
  | .currentExperience user => r.addUser user
  | .grantExperience grant | .subtractExperience grant => r.addUser grant.user
  | .guildExperience guild | .addGuildExperience guild _ _ | .subtractGuildExperience guild _ _ => r.addGuild guild
  | .setShared target _ => r.addTarget target
  | .saveParticipant p => r.addParticipant p.id
  | .saveExecution x => r.addExecution x.id
  | .saveInstance i => r.addInstance i.id
  | _ => r

end Roster

end Missions
