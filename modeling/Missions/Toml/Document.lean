import Missions.Toml.Value

/-! The statements of a document are carried out in order on an empty table; a document in which one of them is
refused is malformed. -/

namespace Missions.Toml

inductive Statement where
  | header (p : Path)
  | arrayHeader (p : Path)
  | pair (p : Path) (v : Value)

def depthLimit : Nat := 80

namespace Statement

open Reader

def readHeader : Reader Statement := do
  expect ['[']
  if ← accept ['['] then
    blanks
    let p ← path
    expect [']', ']']
    pure (.arrayHeader p)
  else
    blanks
    let p ← path
    expect [']']
    pure (.header p)

def readUpTo : Nat → Reader (List Statement)
  | 0 => refuse
  | n + 1 => do
    blanks
    match ← peek with
    | none => pure []
    | some '#' | some '\n' | some '\r' =>
      lineEnd
      readUpTo n
    | some '[' =>
      let s ← readHeader
      lineEnd
      let rest ← readUpTo n
      pure (s :: rest)
    | some _ =>
      let (p, v) ← Value.pair blanks (Value.read depthLimit)
      lineEnd
      let rest ← readUpTo n
      pure (.pair p v :: rest)

/-- The statements of a text. A byte order mark in front is no part of it. -/
def ofText? (s : String) : Option (List Statement) :=
  let cs := match s.toList with
    | '\ufeff' :: cs => cs
    | cs => cs
  readAll (readUpTo (cs.length + 1)) cs

def carryOut : List String → List Statement → Entries → Option Entries
  | _, [], entries => some entries
  | _, header p :: rest, entries => (Entries.openTable p entries).bind (carryOut p.keys rest)
  | _, arrayHeader p :: rest, entries => (Entries.addTable p entries).bind (carryOut p.keys rest)
  | current, pair p v :: rest, entries =>
    (Entries.underHeader current (Entries.assign p v) entries).bind (carryOut current rest)

end Statement

def document? (s : String) : Option Entries :=
  (Statement.ofText? s).bind fun statements => Statement.carryOut [] statements []

end Missions.Toml
