namespace Missions.Toml

abbrev Reader : Type → Type := StateT (List Char) Option

namespace Reader

variable {α : Type}

def refuse : Reader α := fun _ => none

def peek : Reader (Option Char) := fun cs => some (cs.head?, cs)

def accept (start : List Char) : Reader Bool := fun cs =>
  if start.isPrefixOf cs then some (true, cs.drop start.length) else some (false, cs)

def expect (start : List Char) : Reader Unit := do
  if !(← accept start) then refuse

def takeWhile (p : Char → Bool) : Reader (List Char) := fun cs => some (cs.takeWhile p, cs.dropWhile p)

def takeExactly (p : Char → Bool) (n : Nat) : Reader (List Char) := fun cs =>
  if (cs.take n).length = n ∧ (cs.take n).all p then some (cs.take n, cs.drop n) else none

def readAll (r : Reader α) (cs : List Char) : Option α :=
  match r cs with
  | some (a, []) => some a
  | _ => none

def isBlank (c : Char) : Bool := c == ' ' || c == '\t'

/-- Characters that comments and quoted text may hold as they are. -/
def isPlain (c : Char) : Bool := c == '\t' || (' ' ≤ c && c != '\x7f')

def blanks : Reader Unit := do let _ ← takeWhile isBlank

/-- A line ends with a line feed, or with a carriage return and a line feed. -/
def newline : Reader Bool := do
  if ← accept ['\r', '\n'] then pure true else accept ['\n']

def comment : Reader Unit := do
  if ← accept ['#'] then
    let _ ← takeWhile isPlain

def lineEnd : Reader Unit := do
  blanks
  comment
  if !(← newline) && (← peek).isSome then refuse

def gapUpTo : Nat → Reader Unit
  | 0 => blanks
  | n + 1 => do
    blanks
    comment
    if ← newline then gapUpTo n

def gap : Reader Unit := fun cs => gapUpTo cs.length cs

/-- Elements with commas between them, one after the last included, up to `close`; at most `n` elements. -/
def elementsUpTo (element : Reader α) (close : Char) : Nat → Reader (List α)
  | 0 => refuse
  | n + 1 => do
    gap
    if ← accept [close] then pure []
    else
      let a ← element
      gap
      if ← accept [','] then
        let rest ← elementsUpTo element close n
        pure (a :: rest)
      else
        expect [close]
        pure [a]

def elements (element : Reader α) (opening close : Char) : Reader (List α) := do
  expect [opening]
  fun cs => elementsUpTo element close (cs.length + 1) cs

end Reader

end Missions.Toml
