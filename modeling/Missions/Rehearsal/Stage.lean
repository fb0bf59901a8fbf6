import Missions.Rehearsal.Roster

/-! A world under a script of rules. A rule concerns the calls of one method, all of them or the one with a certain
ordinal; it can disturb the world around the call, and it can refuse or answer the call in the world's place. -/

namespace Missions

inductive Verdict (m : Method) where
  | serve
  | refuse (error : CompletionError)
  | answer (a : m.Answer)

structure Rule where
  method : Method
  /-- Which call of the method, counted from 1; each one if there is no number. -/
  ordinal : Option Nat := none
  before : List Disturbance := []
  after : List Disturbance := []
  verdict : Verdict method

/-- Whether the rule concerns the call of a method with an ordinal. -/
def Rule.concerns (r : Rule) (m : Method) (ordinal : Nat) : Bool :=
  r.method == m && (r.ordinal.isNone || r.ordinal == some ordinal)

/-- The verdict on a call of a method; a rule for another method lets it be served. -/
def Rule.verdictOn (r : Rule) (m : Method) : Verdict m :=
  if h : r.method = m then h ▸ r.verdict else .serve

structure Exchange where
  call : Call
  answer : Except CompletionError call.Answer
  reachedWorld : Bool

structure Stage where
  world : World := {}
  rules : List Rule := []
  exchanges : List Exchange := []
  roster : Roster := {}

namespace Stage

def disturb (s : Stage) (ds : List Disturbance) : Stage :=
  { s with world := ds.foldl World.disturb s.world, roster := ds.foldl Roster.noteDisturbance s.roster }

def nextOrdinal (s : Stage) (m : Method) : Nat := s.exchanges.countP (·.call.method == m) + 1

def ruleFor (s : Stage) (m : Method) : Option Rule := s.rules.find? (·.concerns m (s.nextOrdinal m))

def note (s : Stage) (c : Call) (answer : Except CompletionError c.Answer) (reachedWorld : Bool) : Stage :=
  { s with exchanges := s.exchanges ++ [⟨c, answer, reachedWorld⟩], roster := s.roster.noteCall c }

def serveWorld (c : Call) (s : Stage) : Except CompletionError c.Answer × Stage :=
  let (answer, world) := World.server c s.world
  (answer, { s with world }.note c answer true)

def server : Server Stage := fun c s =>
  match s.ruleFor c.method with
  | none => s.serveWorld c
  | some rule =>
    let s := s.disturb rule.before
    let (answer, s) : Except CompletionError c.Answer × Stage :=
      match rule.verdictOn c.method with
      | .serve => s.serveWorld c
      | .refuse e => (.error e, s.note c (.error e) false)
      | .answer a => (.ok a, s.note c (.ok a) false)
    (answer, s.disturb rule.after)

def play {σ α : Type} (s : Stage) (p : Program σ α) : α × Stage := p.serve server s

def log (s : Stage) : List String :=
  s.exchanges.filterMap fun e => if e.reachedWorld then e.call.line? else none

end Stage

end Missions
