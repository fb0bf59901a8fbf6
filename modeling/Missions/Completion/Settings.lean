import Missions.Ledger.Error
import Missions.Saga.RetryPolicy
import Missions.Text.Blank

namespace Missions

/-- Retry settings of one step; the delay is in milliseconds. -/
structure RetrySettings where
  maxRetries : UInt32 := 0
  retryDelay : UInt64 := 0
  deriving DecidableEq, Repr, Inhabited

def RetrySettings.policy (s : RetrySettings) : RetryPolicy := .ofMillis s.maxRetries s.retryDelay

structure Settings where
  feedEnabled : Bool := true
  steps : List (String × RetrySettings) := []
  distinct : (steps.map (·.1)).Nodup := by simp
  deriving DecidableEq

namespace Settings

def standard : Settings := {}

instance : Inhabited Settings := ⟨standard⟩

/-- Without blanks around it, with small letters `a` to `z`, and with underscores for hyphens. -/
def normalize (name : String) : String :=
  String.ofList ((Text.trim name.toList).map fun c => if c == '-' then '_' else c.toLower)

def assign {ν : Type} (name : String) (v : ν) : List (String × ν) → List (String × ν)
  | [] => [(name, v)]
  | (name', v') :: rest => if name' = name then (name, v) :: rest else (name', v') :: assign name v rest

theorem mem_keys_assign {ν : Type} {name key : String} {v : ν} {rows : List (String × ν)}
    (h : key ∈ (assign name v rows).map (·.1)) : key = name ∨ key ∈ rows.map (·.1) := by
  induction rows with
  | nil => simpa [assign] using h
  | cons row rest ih =>
    rw [assign] at h
    split at h <;> simp only [List.map_cons, List.mem_cons] at h ⊢ <;> grind

theorem nodup_keys_assign {ν : Type} (name : String) (v : ν) {rows : List (String × ν)}
    (h : (rows.map (·.1)).Nodup) : ((assign name v rows).map (·.1)).Nodup := by
  induction rows with
  | nil => simp [assign]
  | cons row rest ih =>
    rw [assign]
    split
    · next heq => simpa [← heq] using h
    · next hne =>
      simp only [List.map_cons, List.nodup_cons] at h ⊢
      refine ⟨fun hmem => ?_, ih h.2⟩
      rcases mem_keys_assign hmem with heq | hmem
      · exact hne heq
      · exact h.1 hmem

def put (s : Settings) (name : String) (retry : RetrySettings) : Settings :=
  { s with steps := assign name retry s.steps, distinct := nodup_keys_assign name retry s.distinct }

/-- Sets the retries of a step under its normalized name. -/
def withStep (s : Settings) (name : String) (retry : RetrySettings) : Settings := s.put (normalize name) retry

/-- Normalized names with the policies that they ask for. -/
def retryOverrides (s : Settings) : List (String × RetryPolicy) :=
  s.steps.map fun (name, retry) => (normalize name, retry.policy)

/-- Every name must be, once normalized, one of the known ones; the first that is not is the error. -/
def validate (s : Settings) (known : List String) : Except CompletionError Unit :=
  match s.steps.find? fun (name, _) => !known.contains (normalize name) with
  | some (name, _) => .error (.unknownStep name (", ".intercalate known))
  | none => .ok ()

end Settings

end Missions
