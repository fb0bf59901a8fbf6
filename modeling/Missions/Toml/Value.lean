import Missions.Toml.Moment
import Missions.Toml.Number

/-! Tables remember how they came about, because that decides who may add to them: headers may reopen a table that was
only implied by longer headers, dotted keys may add to tables that dotted keys made, and an inline table is finished.
-/

namespace Missions.Toml

inductive Origin where
  | header
  | implied
  | dotted
  | inline
  deriving DecidableEq, Repr

inductive Value where
  | text (s : String)
  | truth (b : Bool)
  | integer (n : Option Int)
  | real (written : List Char)
  | moment (written : List Char)
  | array (items : List Value)
  | tables (items : List Value)
  | table (origin : Origin) (entries : List (String × Value))

abbrev Entries : Type := List (String × Value)

namespace Entries

/-- Writes what `f` makes of the value under a key, unless `f` refuses it. -/
def alter (key : String) (f : Option Value → Option Value) : Entries → Option Entries
  | [] => (f none).map fun v => [(key, v)]
  | (k, v) :: rest =>
    if key < k then (f none).map fun v' => (key, v') :: (k, v) :: rest
    else if key = k then (f (some v)).map fun v' => (k, v') :: rest
    else (alter key f rest).map ((k, v) :: ·)

/-- Works on the table that headers reach by a path; in an array of tables, on the last one. -/
def underHeader : List String → (Entries → Option Entries) → Entries → Option Entries
  | [], f => f
  | key :: rest, f => alter key fun
    | none => (underHeader rest f []).map (.table .implied)
    | some (.table .inline _) => none
    | some (.table origin entries) => (underHeader rest f entries).map (.table origin)
    | some (.tables items) =>
      match items.getLast? with
      | some (.table origin entries) =>
        (underHeader rest f entries).map fun entries => .tables (items.dropLast ++ [.table origin entries])
      | _ => none
    | some _ => none

def underDots : List String → (Entries → Option Entries) → Entries → Option Entries
  | [], f => f
  | key :: rest, f => alter key fun
    | none => (underDots rest f []).map (.table .dotted)
    | some (.table .dotted entries) => (underDots rest f entries).map (.table .dotted)
    | some _ => none

def assign (p : Path) (v : Value) : Entries → Option Entries :=
  underDots p.tables <| alter p.last fun
    | none => some v
    | some _ => none

def openTable (p : Path) : Entries → Option Entries :=
  underHeader p.tables <| alter p.last fun
    | none => some (.table .header [])
    | some (.table .implied entries) => some (.table .header entries)
    | some _ => none

def addTable (p : Path) : Entries → Option Entries :=
  underHeader p.tables <| alter p.last fun
    | none => some (.tables [.table .header []])
    | some (.tables items) => some (.tables (items ++ [.table .header []]))
    | some _ => none

end Entries

namespace Value

open Reader

def ofWord? (cs : List Char) : Option Value :=
  if cs = ['t', 'r', 'u', 'e'] then some (.truth true)
  else if cs = ['f', 'a', 'l', 's', 'e'] then some (.truth false)
  else if let some n := integer? cs then some (.integer n)
  else if isReal cs then some (.real cs)
  else if isMoment cs then some (.moment cs)
  else none

/-- Words end at blanks, line ends, comments and the marks of pairs, arrays and tables. -/
def isWordChar (c : Char) : Bool := c ∉ ['=', ',', '[', ']', '{', '}', '#', ' ', '\t', '\r', '\n']

def resumes (c : Char) : Bool := isWordChar c && c ∉ ['.', '"', '\'']

def wordsUpTo : Nat → Reader (List Char)
  | 0 => pure []
  | n + 1 => do
    let word ← takeWhile isWordChar
    let goesOn (cs : List Char) : Bool :=
      cs.head?.any isBlank && (cs.dropWhile isBlank).head?.any resumes
    if goesOn (← get) then
      let gap ← takeWhile isBlank
      let more ← wordsUpTo n
      pure (word ++ gap ++ more)
    else pure word

/-- Words that are not kept apart by more than blanks, as a date and a time. -/
def words : Reader (List Char) := fun cs => wordsUpTo (cs.length + 1) cs

/-- A key and its value, with what may stand before and after the sign between them. -/
def pair (between : Reader Unit) (value : Reader Value) : Reader (Path × Value) := do
  let p ← path
  between
  expect ['=']
  between
  let v ← value
  pure (p, v)

/-- A value whose arrays and inline tables are nested at most `depth` deep. -/
def read (depth : Nat) : Reader Value := do
  match ← peek with
  | some '"' => .text <$> quotedText '"'
  | some '\'' => .text <$> quotedText '\''
  | some '[' =>
    match depth with
    | 0 => refuse
    | depth + 1 => .array <$> elements (read depth) '[' ']'
  | some '{' =>
    match depth with
    | 0 => refuse
    | depth + 1 =>
      let pairs ← elements (pair gap (read depth)) '{' '}'
      match pairs.foldlM (fun entries (p, v) => Entries.assign p v entries) [] with
      | some entries => pure (.table .inline entries)
      | none => refuse
  | _ =>
    match ofWord? (← words) with
    | some v => pure v
    | none => refuse

end Value

end Missions.Toml
