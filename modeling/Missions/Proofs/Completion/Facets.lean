import Missions.Completion.Context
import Missions.Proofs.Ledger.Stores

namespace Missions.Context

/-- What a completion is about: the request, and what the mission rewards. -/
structure Brief where
  request : Request
  mission : Option Mission
  guild : Option Int
  isGuildMission : Bool
  userEarned : Int
  guildEarned : Int

def Brief.of (r : Request) (m : Mission) : Brief :=
  ⟨r, some m, m.guild, m.isGuildMission, m.experience, if m.isGuildMission then m.guildExperience else 0⟩

structure Records where
  execution : Option Execution
  participant : Option Participant
  pinned : Option Instance

structure RewardMarks where
  before : Option Int
  after : Option Int
  granted : Option Int

structure ClosingMarks where
  targetBefore : Option ExecutionStatus
  targetAfter : Option ExecutionStatus
  progressBefore : Option UInt8
  progressAfter : Option UInt8
  participantBefore : Option ParticipantStatus
  participantAfter : Option ParticipantStatus

structure Shown where
  levelBefore : Option UInt32 := none
  levelAfter : Option UInt32 := none
  progress : Option UInt8 := none
  feed : Option Int := none

variable (ctx : Context)

def brief : Brief :=
  ⟨ctx.request, ctx.mission, ctx.guild, ctx.isGuildMission, ctx.userEarned, ctx.guildEarned⟩

def records : Records := ⟨ctx.execution, ctx.participant, ctx.pinned⟩

def reward : RewardMarks :=
  ⟨ctx.kept Snapshot.userTotalBefore, ctx.kept Snapshot.userTotalAfter, ctx.kept Snapshot.userGranted⟩

def closing : ClosingMarks :=
  ⟨ctx.kept Snapshot.targetBefore, ctx.kept Snapshot.targetAfter, ctx.kept Snapshot.progressBefore,
    ctx.kept Snapshot.progressAfter, ctx.kept Snapshot.participantBefore, ctx.kept Snapshot.participantAfter⟩

def shown : Shown := ⟨ctx.levelBefore, ctx.levelAfter, ctx.progress, ctx.feed⟩

theorem keep_eq_self {t : SnapshotType} {key : SnapshotKey t} {v : t.Value} (h : ctx.kept key = some v) :
    ctx.keep key v = ctx := by
  have hrow : ctx.snapshots.entries.get? key.name = some ⟨t, v⟩ := by
    rw [kept, Snapshots.get?] at h
    split at h
    · next t' v' hrow =>
      split at h
      · next ht =>
        subst ht
        rw [hrow, ← Option.some.inj h]
      · cases h
    · cases h
  rw [keep, Snapshots.insert, Table.insert_eq_self hrow]

theorem kept_keep_of_ne {t t' : SnapshotType} {key : SnapshotKey t} {key' : SnapshotKey t'} (h : key'.name ≠ key.name)
    (v : t.Value) : (ctx.keep key v).kept key' = ctx.kept key' := Snapshots.get?_insert_of_ne _ h v

end Missions.Context
