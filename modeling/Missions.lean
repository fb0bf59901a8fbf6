import Missions.Completion.Operation
import Missions.Completion.SettingsFile
import Missions.Proofs.Completion.Absorption.Invisibility
import Missions.Proofs.Completion.Admission
import Missions.Proofs.Completion.Agreement.Output
import Missions.Proofs.Completion.Blindness
import Missions.Proofs.Completion.Bookkeeping
import Missions.Proofs.Completion.Causes
import Missions.Proofs.Completion.Claims.Winner
import Missions.Proofs.Completion.Compensation.Idempotence
import Missions.Proofs.Completion.Compensation.Withdrawal
import Missions.Proofs.Completion.Discipline.Run
import Missions.Proofs.Completion.Discretion
import Missions.Proofs.Completion.Earnings
import Missions.Proofs.Completion.Experience.Balance
import Missions.Proofs.Completion.Experience.Tally
import Missions.Proofs.Completion.Footprint
import Missions.Proofs.Completion.Heeding
import Missions.Proofs.Completion.Isolation
import Missions.Proofs.Completion.Progress.Actions
import Missions.Proofs.Completion.Progress.Overwriting
import Missions.Proofs.Completion.Progress.Percent
import Missions.Proofs.Completion.Progress.Recovery
import Missions.Proofs.Completion.Progress.StepPool
import Missions.Proofs.Completion.Publication
import Missions.Proofs.Completion.Rollback
import Missions.Proofs.Completion.Surfacing
import Missions.Proofs.Completion.Tuning
import Missions.Proofs.Completion.Verdict
import Missions.Proofs.Saga.Attempts
import Missions.Proofs.Saga.Blame
import Missions.Proofs.Saga.Chronicle
import Missions.Proofs.Saga.Counting
import Missions.Proofs.Saga.Limits
import Missions.Proofs.Saga.Minutes
import Missions.Proofs.Saga.Orchestration
import Missions.Proofs.Saga.Serving
import Missions.Proofs.Saga.SnapshotHistory
import Missions.Proofs.Saga.Story
import Missions.Proofs.Saga.Transparency
import Missions.Proofs.Saga.Undoing
import Missions.Proofs.Text.Bytes
import Missions.Rehearsal.Fixture
import Missions.Rehearsal.Play
import Missions.Rehearsal.Stage
