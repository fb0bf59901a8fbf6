import Missions.Saga.Run

/-! Sagas whose steps follow a script of cues; when the cues of a step are used up, the last one is repeated. -/

namespace Missions

structure Cue (ε π : Type) where
  result : StepResult ε π
  add : Int := 0
  set : List String := []
  unset : List String := []

inductive Condition where
  | never
  | flag (name : String)
  | noFlag (name : String)
  | totalAtLeast (n : Int)
  deriving DecidableEq, Repr

structure Role (ε π : Type) where
  name : String
  executions : List (Cue ε π) := []
  compensations : List (Cue ε π) := []
  mandatory : Bool := true
  condition : Option Condition := none
  retry : RetryPolicy := .once
  undoing : Option String := none

structure Scene where
  total : Int := 0
  flags : Table String Unit := ∅
  log : List String := []
  executed : Table Nat Nat := ∅
  compensated : Table Nat Nat := ∅

namespace Scene

def holds (s : Scene) : Condition → Bool
  | .never => false
  | .flag name => s.flags.contains name
  | .noFlag name => !s.flags.contains name
  | .totalAtLeast n => n ≤ s.total

/-- The total wraps around in 64 bits; flags are set before others are removed. -/
def apply {ε π : Type} (s : Scene) (cue : Cue ε π) : Scene :=
  { s with
    total := (s.total + cue.add).bmod 18446744073709551616
    flags := cue.unset.foldl Table.erase (cue.set.foldl (fun flags name => flags.insert name ()) s.flags) }

def cue? {ε π : Type} (cues : List (Cue ε π)) (n : Nat) : Option (Cue ε π) := cues[n]? <|> cues.getLast?

end Scene

namespace Role

variable {ε π : Type}

def perform (cues : List (Cue ε π)) (done : Nat) (otherwise : StepResult ε π) : StateT Scene Id (StepResult ε π) :=
  match Scene.cue? cues done with
  | some cue => do
    modify (·.apply cue)
    pure cue.result
  | none => pure otherwise

def step (role : Role ε π) (position : Nat) : Step Scene Id ε π where
  name := role.name
  execute := do
    let done := ((← get).executed.get? position).getD 0
    modify fun s =>
      { s with
        log := s.log ++ ["execute " ++ role.name]
        executed := s.executed.insert position (done + 1) }
    perform role.executions done (.success "done" none)
  compensate := do
    let done := ((← get).compensated.get? position).getD 0
    modify fun s =>
      { s with
        log := s.log ++ ["compensate " ++ role.name]
        compensated := s.compensated.insert position (done + 1) }
    perform role.compensations done (.success (role.name ++ " has nothing to compensate") none)
  undoing := role.undoing.getD ("undo " ++ role.name)
  mandatory := role.mandatory
  applies := fun s => role.condition.all s.holds
  retry := role.retry

end Role

/-- The saga of some roles. Overrides may be given before the first step and after it. -/
def Saga.ofRoles {ε π : Type} (before after : List (String × RetryPolicy)) (first : Role ε π)
    (rest : List (Role ε π)) : Saga Scene Id ε π :=
  let overrides : Overrides := before.foldl (fun t (name, policy) => t.insert name policy) ∅
  let opening := after.foldl (fun saga (name, policy) => saga.override name policy)
    (Saga.starting overrides (first.step 0))
  (rest.zipIdx 1).foldl (fun saga (role, position) => saga.andThen (role.step position)) opening

end Missions
