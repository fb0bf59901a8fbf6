import Missions.Completion.Context
import Missions.Rehearsal.Disturbance

namespace Missions.Fixture

def mission : Mission where
  id := 100
  title := "Morning run"
  description := "Run 5km before 9am"
  creator := "creator"
  category := some 2
  categoryName := some "Health"
  guild := none
  experience := 30
  guildExperience := 0
  totalExecutions := 1

def participant : Participant := ⟨10, 100, "user-1", .inProgress, 0⟩

def execution : Execution := ⟨500, 10, 100, "user-1", .inProgress, false⟩

def pinned : Instance := ⟨900, 100, "user-1", .inProgress, false⟩

def plain : List Disturbance :=
  [.putMission mission, .putParticipant participant, .putExecution execution, .putInstance pinned]

/-- The mission belongs to guild 7 and rewards it. -/
def guild : List Disturbance :=
  plain ++ [.putMission { mission with guild := some 7, guildExperience := 20 }, .setGuildTotal 7 150]

/-- The user's own mission, loaded to be completed and shared. -/
def loaded : Context :=
  .withExecution (.start { user := "user-1", target := 100, pinned := false, share := true }) mission participant
    execution

end Missions.Fixture
