import Missions.Completion.Operation
import Missions.Proofs.Ledger.Stores

namespace Missions

/-- The record that a completion closes, and what it belongs to. -/
inductive Job where
  | regular (m : Mission) (p : Participant) (x : Execution)
  | pinned (m : Mission) (i : Instance)

namespace Job

def mission : Job → Mission
  | regular m _ _ | pinned m _ => m

def step : Job → CompletionStep
  | regular .. => Advance.step
  | pinned .. => Closing.step

def target : Job → Target
  | regular _ _ x => .execution x.id
  | pinned _ i => .pinned i.id

end Job

/-- The participant after one more execution, when `completed` are completed out of `total`. -/
def Participant.advanced (p : Participant) (completed : Nat) (total : UInt32) : Participant :=
  let progress := Advance.progressPercent (.ofNat completed) total
  { p with progress, status := if progress = 100 then .completed else p.status }

theorem Advance.progressPercent_le (completed total : UInt32) : progressPercent completed total ≤ 100 := by
  have hmin : min (completed.toUInt64 * 100 / (max total 1).toUInt64) 100 ≤ 100 := Std.min_le_right
  rw [progressPercent]
  split
  · rw [UInt8.le_iff_toNat_le, UInt64.toNat_toUInt8]
    exact Nat.le_trans (Nat.mod_le _ _) (UInt64.le_iff_toNat_le.1 hmin)
  · decide

theorem Advance.whole_le_progressPercent_iff (completed total : UInt32) :
    progressPercent completed total ≥ 100 ↔ progressPercent completed total = 100 :=
  ⟨fun h => UInt8.le_antisymm (progressPercent_le completed total) h, fun h => h ▸ UInt8.le_refl _⟩

namespace Books

variable {books : Books}

/-- The job of a request: the participant's first execution in progress, or the instance if it is in progress. -/
def Selects (books : Books) (r : Request) : Job → Prop
  | .regular m p x => r.pinned = false ∧ books.missions.get? r.target = some m ∧
      books.participantOf m.id r.user = some p ∧ books.executionInProgress p.id = some x
  | .pinned m i => r.pinned = true ∧ books.instances.get? r.target = some i ∧ i.status = .inProgress ∧
      books.missions.get? i.mission = some m

theorem Selects.of_effective {o : Operation} {r : Request} {job : Job} (h : books.Selects (o.effective r) job) :
    books.Selects r job := by
  cases job <;> exact h

theorem Selects.stored (hkeyed : books.Keyed) {r : Request} {m : Mission} {i : Instance}
    (h : books.Selects r (.pinned m i)) : books.instances.get? i.id = some i := by
  rw [hkeyed.instances _ _ h.2.1]
  exact h.2.1

def missionFor (books : Books) (r : Request) : Option Mission :=
  if r.pinned then (books.instances.get? r.target).bind fun i => books.missions.get? i.mission
  else books.missions.get? r.target

theorem Selects.missionFor_eq {r : Request} {job : Job} (h : books.Selects r job) :
    books.missionFor r = some job.mission := by
  cases job with
  | regular m p x => simp [missionFor, h.1, h.2.1, Job.mission]
  | pinned m i => simp [missionFor, h.1, h.2.1, h.2.2.2, Job.mission]

theorem missionFor_congr {books' : Books} (hmissions : books'.missions = books.missions)
    (hinstances : ∀ id, (books'.instances.get? id).map (·.mission) = (books.instances.get? id).map (·.mission))
    (r : Request) : books'.missionFor r = books.missionFor r := by
  have hbind (b : Books) : (b.instances.get? r.target).bind (fun i => b.missions.get? i.mission) =
      ((b.instances.get? r.target).map (·.mission)).bind b.missions.get? := by
    rw [Option.bind_map]
    rfl
  rw [missionFor, missionFor, hbind, hbind, hinstances, hmissions]

def advanced (books : Books) (m : Mission) (p : Participant) (x : Execution) : Participant :=
  p.advanced ((books.putExecution { x with status := .completed }).executionCount p.id .completed) m.totalExecutions

def closed (books : Books) : Job → Books
  | .regular m p x => (books.putExecution { x with status := .completed }).putParticipant (books.advanced m p x)
  | .pinned _ i => books.putInstance { i with status := .completed }

end Books

end Missions
