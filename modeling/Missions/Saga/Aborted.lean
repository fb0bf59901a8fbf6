import Missions.Saga.StepResult

namespace Missions

structure UndoFailure (ε : Type) where
  step : String
  description : String
  message : String
  error : Option ε
  deriving Repr

def UndoFailure.text {ε : Type} (f : UndoFailure ε) : String :=
  "compensation failed for step '" ++ f.step ++ "': " ++ f.message

inductive Aborted (ε : Type) where
  | undone (step message : String) (cause : Option ε)
  /-- Some of them could not be undone; their failures stand in the order of the attempts. -/
  | partlyUndone (step message : String) (cause : Option ε) (failures : List (UndoFailure ε))
  deriving Repr

namespace Aborted

variable {ε π : Type}

def step : Aborted ε → String
  | undone s _ _ | partlyUndone s _ _ _ => s

def message : Aborted ε → String
  | undone _ m _ | partlyUndone _ m _ _ => m

def cause : Aborted ε → Option ε
  | undone _ _ c | partlyUndone _ _ c _ => c

def undoFailures : Aborted ε → List (UndoFailure ε)
  | undone .. => []
  | partlyUndone _ _ _ fs => fs

/-- The error that this one is traced back to: none if the undoing failed as well. -/
def source : Aborted ε → Option ε
  | undone _ _ c => c
  | partlyUndone .. => none

def text : Aborted ε → String
  | undone s m _ => "step '" ++ s ++ "' failed: " ++ m
  | partlyUndone s m _ fs =>
    "step '" ++ s ++ "' failed: " ++ m ++ ", and " ++ toString fs.length ++ " compensation(s) also failed"

def afterUndo (a : Aborted ε) (step description : String) (undo : StepResult ε π) : Aborted ε :=
  if undo.isSuccess then a
  else .partlyUndone a.step a.message a.cause (a.undoFailures ++ [⟨step, description, undo.message, undo.cause⟩])

end Aborted

end Missions
