import Missions.Ledger.World

namespace Missions

inductive Disturbance where
  | setUserTotal (user : String) (total : Int)
  | setGuildTotal (guild total : Int)
  | putMission (mission : Mission)
  | putParticipant (participant : Participant)
  | putExecution (execution : Execution)
  | putInstance (pinned : Instance)
  | setExecutionStatus (id : Int) (status : ExecutionStatus)
  | setInstanceStatus (id : Int) (status : ExecutionStatus)
  | failGrants (calls : Nat)
  | failSubtractions (calls : Nat)
  | failGuildAdditions (calls : Nat)
  | failFeedCreations (calls : Nat)
  | failFlagUpdates (calls : Nat)
  | failCounts (calls : Nat)
  | failExecutionSaves (calls : Nat)
  | loseNextClaim
  | rejectFeedCreation (error : CompletionError)
  | rejectFlagUpdate (error : CompletionError)

namespace Books

def setExecutionStatus (books : Books) (id : Int) (status : ExecutionStatus) : Books :=
  { books with executions := books.executions.modify id fun x => { x with status } }

def setInstanceStatus (books : Books) (id : Int) (status : ExecutionStatus) : Books :=
  { books with instances := books.instances.modify id fun i => { i with status } }

end Books

namespace World

/-- A number of failing calls replaces the number still left; an error to hand out joins those that wait. -/
def disturb (w : World) : Disturbance → World
  | .setUserTotal user total => { w with books := w.books.setUserTotal user total }
  | .setGuildTotal guild total => { w with books := w.books.setGuildTotal guild total }
  | .putMission m => { w with books := w.books.putMission m }
  | .putParticipant p => { w with books := w.books.putParticipant p }
  | .putExecution x => { w with books := w.books.putExecution x }
  | .putInstance i => { w with books := w.books.putInstance i }
  | .setExecutionStatus id status => { w with books := w.books.setExecutionStatus id status }
  | .setInstanceStatus id status => { w with books := w.books.setInstanceStatus id status }
  | .failGrants n => { w with faults := { w.faults with grants := n } }
  | .failSubtractions n => { w with faults := { w.faults with subtractions := n } }
  | .failGuildAdditions n => { w with faults := { w.faults with guildAdditions := n } }
  | .failFeedCreations n => { w with faults := { w.faults with feedCreations := n } }
  | .failFlagUpdates n => { w with faults := { w.faults with flagUpdates := n } }
  | .failCounts n => { w with faults := { w.faults with counts := n } }
  | .failExecutionSaves n => { w with faults := { w.faults with executionSaves := n } }
  | .loseNextClaim => { w with faults := { w.faults with lostClaims := 1 } }
  | .rejectFeedCreation e => { w with faults := { w.faults with feedErrors := w.faults.feedErrors ++ [e] } }
  | .rejectFlagUpdate e => { w with faults := { w.faults with flagErrors := w.faults.flagErrors ++ [e] } }

end World

end Missions
