namespace Missions

/-- Retries count the attempts after the first one; the delay is in nanoseconds. -/
structure RetryPolicy where
  maxRetries : UInt32
  delay : Nat
  deriving DecidableEq, Repr, Inhabited

namespace RetryPolicy

def once : RetryPolicy := ⟨0, 0⟩

def fixed (maxRetries : UInt32) (nanoseconds : Nat) : RetryPolicy := ⟨maxRetries, nanoseconds⟩

def ofMillis (maxRetries : UInt32) (milliseconds : UInt64) : RetryPolicy :=
  fixed maxRetries (milliseconds.toNat * 1000000)

/-- Another attempt is allowed while the failures so far are at most the retries. -/
def allowsRetry (p : RetryPolicy) (failures : UInt32) : Bool := failures ≤ p.maxRetries

def delaySeconds (p : RetryPolicy) : Nat := p.delay / 1000000000

def delayNanoseconds (p : RetryPolicy) : Nat := p.delay % 1000000000

end RetryPolicy

end Missions
