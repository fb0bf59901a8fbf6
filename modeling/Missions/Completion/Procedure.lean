import Missions.Completion.Context
import Missions.Ledger.Program
import Missions.Saga.Step

/-! The bodies of steps: programs that share a context and may fail. Settling a procedure turns it into a step's
execution, and decides which of its errors reject the request. -/

namespace Missions

/-- Changes of the context stay when a procedure fails. -/
abbrev Procedure : Type → Type := ExceptT CompletionError (StateT Context (Program Context))

inductive Receipt where
  | loadedExecution (mission execution : Int) (guildMission : Bool)
  | loadedInstance (mission pinned : Int) (guildMission : Bool)
  | granted (amount : Int) (levelBefore levelAfter : UInt32)
  | advanced (execution : Int) (progress : UInt8) (participantCompleted : Bool)
  | closed (pinned : Int)
  | guildGranted (guild amount : Int) (levelAfter : UInt32)
  | shared (feed : Int)
  deriving DecidableEq, Repr

inductive Receipt.Field where
  | number (n : Int)
  | truth (b : Bool)
  deriving DecidableEq, Repr

def Receipt.fields : Receipt → List (String × Receipt.Field)
  | loadedExecution mission execution guildMission =>
    [("mission_id", .number mission), ("execution_id", .number execution), ("guild_mission", .truth guildMission)]
  | loadedInstance mission pinned guildMission =>
    [("mission_id", .number mission), ("instance_id", .number pinned), ("guild_mission", .truth guildMission)]
  | granted amount before after =>
    [("exp_granted", .number amount), ("level_before", .number before.toNat), ("level_after", .number after.toNat)]
  | advanced execution progress completed =>
    [("execution_id", .number execution), ("progress", .number progress.toNat),
      ("participant_completed", .truth completed)]
  | closed pinned => [("instance_id", .number pinned)]
  | guildGranted guild amount after =>
    [("guild_id", .number guild), ("exp_granted", .number amount), ("level_after", .number after.toNat)]
  | shared feed => [("feed_id", .number feed)]

structure Success where
  message : String
  receipt : Option Receipt := none
  deriving DecidableEq, Repr

abbrev CompletionResult : Type := StepResult CompletionError Receipt

abbrev CompletionStep : Type := Step Context (Program Context) CompletionError Receipt

namespace Procedure

def query (c : Call) : Procedure (Except CompletionError c.Answer) :=
  fun ctx => .call ctx c fun answer => .done (.ok answer, ctx)

/-- Asks for an answer, and fails with the error if the call does. -/
def ask (c : Call) : Procedure c.Answer :=
  fun ctx => .call ctx c fun answer => .done (answer, ctx)

def require {α : Type} (found : Option α) (otherwise : CompletionError) : Procedure α :=
  match found with
  | some a => pure a
  | none => throw otherwise

def check (holds : Bool) (otherwise : CompletionError) : Procedure Unit :=
  if holds then pure () else throw otherwise

def outcome {α : Type} (body : Procedure α) : Procedure (Except CompletionError α) :=
  ExceptT.lift body.run

def keep {t : SnapshotType} (key : SnapshotKey t) (v : t.Value) : Procedure Unit := modify (·.keep key v)

/-- Turns a procedure into a step's call. The errors that `rejects` names reject the request, others pass. -/
def settle (doing : String) (rejects : CompletionError → Bool) (body : Procedure Success) :
    StateT Context (Program Context) CompletionResult := do
  match ← body.run with
  | .ok success => pure (.success success.message success.receipt)
  | .error e =>
    let message := doing ++ ": " ++ e.message
    pure (if rejects e then .rejected message e else .transient message (some e))

/-- Where a record is claimed, only losing the claim or leaving it stuck rejects the request. -/
def losesClaim : CompletionError → Bool
  | .alreadyCompleted .. | .executionNotReleased .. => true
  | _ => false

def neverRejects : CompletionError → Bool := fun _ => false

/-! ### Procedures as programs -/

variable {α β : Type}

theorem run_bind (p : Procedure α) (f : α → Procedure β) (ctx : Context) :
    (p >>= f).run.run ctx = p.run.run ctx >>= fun r =>
      match r.1 with
      | .ok a => (f a).run.run r.2
      | .error e => .done (.error e, r.2) := by
  rw [ExceptT.run_bind, StateT.run_bind]
  congr 1
  funext ⟨r, ctx⟩
  cases r <;> rfl

theorem run_modify (f : Context → Context) (ctx : Context) :
    (modify f : Procedure Unit).run.run ctx = .done (.ok (), f ctx) := rfl

-- the types are kept out of the index, because the answer to a known call has its type written out
theorem run_ask (c : Call) (ctx : Context) :
    StateT.run (α := no_index _) (ExceptT.run (α := no_index _) (ask c)) ctx =
      .call ctx c fun answer => .done (answer, ctx) := rfl

theorem run_outcome (p : Procedure α) (ctx : Context) :
    (outcome p).run.run ctx = p.run.run ctx >>= fun r => .done (.ok r.1, r.2) := by
  rw [outcome, ExceptT.run_lift, StateT.run_map, map_eq_pure_bind]
  rfl

theorem run_settle (doing : String) (rejects : CompletionError → Bool) (body : Procedure Success) (ctx : Context) :
    (settle doing rejects body).run ctx = body.run.run ctx >>= fun r =>
      match r.1 with
      | .ok success => .done (.success success.message success.receipt, r.2)
      | .error e =>
        let message := doing ++ ": " ++ e.message
        .done (if rejects e then .rejected message e else .transient message (some e), r.2) := by
  rw [settle, StateT.run_bind]
  congr 1
  funext ⟨r, ctx⟩
  cases r <;> rfl

end Procedure

end Missions
