import Missions.Ledger.Call
import Missions.Table

/-! What collaborators in memory keep, and what each call answers and changes when nothing goes wrong. -/

namespace Missions

structure Books where
  userTotals : Table String Int := ∅
  guildTotals : Table Int Int := ∅
  feeds : List Feed := []
  nextFeed : Int := 42
  sharedExecutions : Table Int Bool := ∅
  sharedInstances : Table Int Bool := ∅
  missions : Table Int Mission := ∅
  participants : Table Int Participant := ∅
  executions : Table Int Execution := ∅
  instances : Table Int Instance := ∅

namespace Books

/-- The level that a total reaches when each level takes `perLevel`. Levels start at 1 and end with 32 bits. A quotient
of 4294967295 leaves no room to add 1, and a run that comes there is broken off; here that level is the last one. -/
def levelOf (total perLevel : Int) : UInt32 :=
  UInt32.ofNat ((min (max total 0 / perLevel) 4294967294).toNat + 1)

def userTotal (books : Books) (user : String) : Int := (books.userTotals.get? user).getD 0

def guildTotal (books : Books) (guild : Int) : Int := (books.guildTotals.get? guild).getD 0

def experience (books : Books) (user : String) : Experience where
  user := user
  level := levelOf (books.userTotal user) 100
  total := books.userTotal user

def guildExperience (books : Books) (guild : Int) : GuildExperience where
  guild := guild
  level := levelOf (books.guildTotal guild) 200
  current := (books.guildTotal guild).tmod 200
  total := books.guildTotal guild

def setUserTotal (books : Books) (user : String) (total : Int) : Books :=
  { books with userTotals := books.userTotals.insert user total }

def setGuildTotal (books : Books) (guild total : Int) : Books :=
  { books with guildTotals := books.guildTotals.insert guild total }

def putMission (books : Books) (m : Mission) : Books :=
  { books with missions := books.missions.insert m.id m }

def putParticipant (books : Books) (p : Participant) : Books :=
  { books with participants := books.participants.insert p.id p }

def putExecution (books : Books) (x : Execution) : Books :=
  { books with executions := books.executions.insert x.id x }

def putInstance (books : Books) (i : Instance) : Books :=
  { books with instances := books.instances.insert i.id i }

def sharedFlag (books : Books) : Target → Option Bool
  | .execution id => books.sharedExecutions.get? id
  | .pinned id => books.sharedInstances.get? id

def setSharedFlag (books : Books) (target : Target) (shared : Bool) : Books :=
  match target with
  | .execution id => { books with sharedExecutions := books.sharedExecutions.insert id shared }
  | .pinned id => { books with sharedInstances := books.sharedInstances.insert id shared }

/-- A person's part in a mission. Of several any one may be found; here it is the one with the lowest number. -/
def participantOf (books : Books) (mission : Int) (user : String) : Option Participant :=
  books.participants.values.find? fun p => p.mission == mission && p.user == user

/-- A participant's execution in progress with the lowest number. -/
def executionInProgress (books : Books) (participant : Int) : Option Execution :=
  books.executions.values.find? fun x => x.participant == participant && x.status == .inProgress

def executionCount (books : Books) (participant : Int) (status : ExecutionStatus) : Nat :=
  books.executions.values.countP fun x => x.participant == participant && x.status == status

def publish (books : Books) (draft : FeedDraft) : Feed × Books :=
  let feed : Feed := ⟨books.nextFeed, draft.user, draft.mission⟩
  (feed, { books with feeds := books.feeds ++ [feed], nextFeed := books.nextFeed + 1 })

def unpublish (books : Books) (feed : Int) : Books :=
  { books with feeds := books.feeds.filter (·.id != feed) }

/-- Moves an execution from in progress to completed, and tells whether it did. -/
def completeExecution (books : Books) (id : Int) : Bool × Books :=
  match books.executions.get? id with
  | some x =>
    if x.status = .inProgress then (true, books.putExecution { x with status := .completed }) else (false, books)
  | none => (false, books)

/-- Moves an instance from in progress to completed, and tells whether it did. -/
def completeInstance (books : Books) (id : Int) : Bool × Books :=
  match books.instances.get? id with
  | some i =>
    if i.status = .inProgress then (true, books.putInstance { i with status := .completed }) else (false, books)
  | none => (false, books)

/-- Changes a person's total by `amount` and answers the new standing. -/
def changeUserTotal (books : Books) (user : String) (amount : Int) : Experience × Books :=
  let books := books.setUserTotal user (books.userTotal user + amount)
  (books.experience user, books)

/-- Changes a guild's total by `amount` and answers the new standing. -/
def changeGuildTotal (books : Books) (guild amount : Int) : GuildExperience × Books :=
  let books := books.setGuildTotal guild (books.guildTotal guild + amount)
  (books.guildExperience guild, books)

def perform (books : Books) : (c : Call) → c.Answer × Books
  | .currentExperience user => (books.experience user, books)
  | .grantExperience grant => books.changeUserTotal grant.user grant.amount
  | .subtractExperience grant => books.changeUserTotal grant.user (-grant.amount)
  | .guildExperience guild => (books.guildExperience guild, books)
  | .addGuildExperience guild amount _ => books.changeGuildTotal guild amount
  | .subtractGuildExperience guild amount _ => books.changeGuildTotal guild (-amount)
  | .createFeed draft => books.publish draft
  | .deleteFeed feed => ((), books.unpublish feed)
  | .setShared target shared => ((), books.setSharedFlag target shared)
  | .findMission id => (books.missions.get? id, books)
  | .findParticipant mission user => (books.participantOf mission user, books)
  | .saveParticipant p => ((), books.putParticipant p)
  | .findExecution id => (books.executions.get? id, books)
  | .findExecutionInProgress participant => (books.executionInProgress participant, books)
  | .saveExecution x => ((), books.putExecution x)
  | .completeExecution id => books.completeExecution id
  | .countExecutions participant status => (UInt32.ofNat (books.executionCount participant status), books)
  | .findInstance id => (books.instances.get? id, books)
  | .saveInstance i => ((), books.putInstance i)
  | .completeInstance id => books.completeInstance id

end Books

end Missions
