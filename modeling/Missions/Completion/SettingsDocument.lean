import Missions.Completion.Settings
import Missions.Toml.Document

/-! A document may say whether completions are shared, and under `steps` how often each step is retried: as a table,
or as an array of the retries and the delay in which what is missing has its default and what is more counts for
nothing. -/

namespace Missions

namespace RetrySettings

def natBelow? (bound : Nat) : Toml.Value → Option Nat
  | .integer (some n) => if 0 ≤ n ∧ n < bound then some n.toNat else none
  | _ => none

def readRetries? (v : Toml.Value) : Option UInt32 := (natBelow? 4294967296 v).map .ofNat

def readDelay? (v : Toml.Value) : Option UInt64 := (natBelow? 18446744073709551616 v).map .ofNat

def readEntry? (s : RetrySettings) : String × Toml.Value → Option RetrySettings
  | ("max-retries", v) => (readRetries? v).map fun n => { s with maxRetries := n }
  | ("retry-delay-ms", v) => (readDelay? v).map fun n => { s with retryDelay := n }
  | _ => none

def ofValue? : Toml.Value → Option RetrySettings
  | .table _ entries => entries.foldlM readEntry? {}
  | .array [] => some {}
  | .array [retries] => (readRetries? retries).map fun n => { maxRetries := n }
  | .array (retries :: delay :: _) => do
    return { maxRetries := ← readRetries? retries, retryDelay := ← readDelay? delay }
  | _ => none

end RetrySettings

namespace Settings

def readStep? (s : Settings) (entry : String × Toml.Value) : Option Settings :=
  (RetrySettings.ofValue? entry.2).map (s.put entry.1)

def readEntry? (s : Settings) : String × Toml.Value → Option Settings
  | ("feed-enabled", .truth b) => some { s with feedEnabled := b }
  | ("steps", .table _ entries) => entries.foldlM readStep? s
  | _ => none

def ofDocument (origin text : String) : Except CompletionError Settings :=
  match (Toml.document? text).bind fun entries => entries.foldlM readEntry? standard with
  | some s => .ok s
  | none => .error (.malformedSettings origin)

def inlineOrigin : String := "<inline>"

end Settings

end Missions
