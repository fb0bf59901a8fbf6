import Missions.Ledger.Call
import Missions.Ledger.Error

/-! Failures that lie ahead of the collaborators in memory. A call that is struck changes nothing but the faults. -/

namespace Missions

structure Faults where
  grants : Nat := 0
  subtractions : Nat := 0
  guildAdditions : Nat := 0
  feedCreations : Nat := 0
  flagUpdates : Nat := 0
  counts : Nat := 0
  executionSaves : Nat := 0
  lostClaims : Nat := 0
  feedErrors : List CompletionError := []
  flagErrors : List CompletionError := []

namespace Faults

/-- What a call answers instead of being performed, if a fault strikes it, and the faults still ahead. -/
def strike (f : Faults) : (c : Call) → Option (Except CompletionError c.Answer) × Faults
  | .grantExperience _ =>
    match f.grants with
    | 0 => (none, f)
    | n + 1 => (some (.error (.collaborator "experience" "grant rejected")), { f with grants := n })
  | .subtractExperience _ =>
    match f.subtractions with
    | 0 => (none, f)
    | n + 1 => (some (.error (.collaborator "experience" "subtract rejected")), { f with subtractions := n })
  | .addGuildExperience .. =>
    match f.guildAdditions with
    | 0 => (none, f)
    | n + 1 => (some (.error (.collaborator "guild" "deadlock detected")), { f with guildAdditions := n })
  | .createFeed _ =>
    match f.feedErrors, f.feedCreations with
    | e :: rest, _ => (some (.error e), { f with feedErrors := rest })
    | [], 0 => (none, f)
    | [], n + 1 => (some (.error (.collaborator "feed" "service unavailable")), { f with feedCreations := n })
  | .setShared .. =>
    match f.flagErrors, f.flagUpdates with
    | e :: rest, _ => (some (.error e), { f with flagErrors := rest })
    | [], 0 => (none, f)
    | [], n + 1 => (some (.error (.collaborator "shared flag" "write conflict")), { f with flagUpdates := n })
  | .countExecutions .. =>
    match f.counts with
    | 0 => (none, f)
    | n + 1 => (some (.error (.collaborator "executions" "read timeout")), { f with counts := n })
  | .saveExecution _ =>
    match f.executionSaves with
    | 0 => (none, f)
    | n + 1 => (some (.error (.collaborator "executions" "connection reset")), { f with executionSaves := n })
  | .completeExecution _ =>
    match f.lostClaims with
    | 0 => (none, f)
    | n + 1 => (some (.ok false), { f with lostClaims := n })
  | _ => (none, f)

end Faults

end Missions
