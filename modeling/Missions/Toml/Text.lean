import Missions.Toml.Reader

namespace Missions.Toml

open Reader

def hexDigit (c : Char) : Nat :=
  if c.isDigit then c.toNat - '0'.toNat else c.toLower.toNat - 'a'.toNat + 10

def isHexDigit (c : Char) : Bool :=
  c.isDigit || ('a' ≤ c && c ≤ 'f') || ('A' ≤ c && c ≤ 'F')

def codePoint (n : Nat) : Reader Char := do
  let code := (← takeExactly isHexDigit n).foldl (fun v c => 16 * v + hexDigit c) 0
  if code.isValidChar then pure (Char.ofNat code) else refuse

def escape : Reader Char := do
  if ← accept ['b'] then pure '\x08'
  else if ← accept ['t'] then pure '\t'
  else if ← accept ['n'] then pure '\n'
  else if ← accept ['f'] then pure '\x0c'
  else if ← accept ['r'] then pure '\r'
  else if ← accept ['e'] then pure '\x1b'
  else if ← accept ['"'] then pure '"'
  else if ← accept ['\\'] then pure '\\'
  else if ← accept ['x'] then codePoint 2
  else if ← accept ['u'] then codePoint 4
  else if ← accept ['U'] then codePoint 8
  else refuse

def lineTextUpTo (mark : Char) (escapes : Bool) : Nat → Reader (List Char)
  | 0 => refuse
  | n + 1 => do
    let plain ← takeWhile fun c => isPlain c && c != mark && !(escapes && c == '\\')
    if ← accept [mark] then pure plain
    else if escapes then
      expect ['\\']
      let c ← escape
      let rest ← lineTextUpTo mark escapes n
      pure (plain ++ c :: rest)
    else refuse

def dropLineEnds : List Char → List Char
  | '\r' :: '\n' :: rest => dropLineEnds rest
  | c :: rest => if isBlank c || c == '\n' then dropLineEnds rest else c :: rest
  | [] => []

/-- A line end that a backslash hides, with all blanks and line ends after it. -/
def hiddenLineEnd : Reader Bool := fun cs =>
  match (blanks *> newline : Reader Bool) cs with
  | some (true, rest) => some (true, dropLineEnds rest)
  | _ => some (false, cs)

/-- The rest of a text on several lines, at most `n` pieces of it. One or two marks before the closing three belong
to the text. -/
def blockTextUpTo (mark : Char) (escapes : Bool) : Nat → Reader (List Char)
  | 0 => refuse
  | n + 1 => do
    let plain ← takeWhile fun c => isPlain c && c != mark && !(escapes && c == '\\')
    if ← accept [mark, mark, mark] then
      let more ← takeWhile (· == mark)
      if more.length ≤ 2 then pure (plain ++ more) else refuse
    else if ← accept [mark] then
      let rest ← blockTextUpTo mark escapes n
      pure (plain ++ mark :: rest)
    else if ← newline then
      let rest ← blockTextUpTo mark escapes n
      pure (plain ++ '\n' :: rest)
    else if escapes then
      expect ['\\']
      if ← hiddenLineEnd then
        let rest ← blockTextUpTo mark escapes n
        pure (plain ++ rest)
      else
        let c ← escape
        let rest ← blockTextUpTo mark escapes n
        pure (plain ++ c :: rest)
    else refuse

def lineText (mark : Char) : Reader String := do
  expect [mark]
  let cs ← (fun cs => lineTextUpTo mark (mark == '"') (cs.length + 1) cs : Reader (List Char))
  pure (String.ofList cs)

/-- Text between three marks; a line end right after the first three is not part of it. -/
def blockText (mark : Char) : Reader String := do
  expect [mark, mark, mark]
  let _ ← newline
  let cs ← (fun cs => blockTextUpTo mark (mark == '"') (cs.length + 1) cs : Reader (List Char))
  pure (String.ofList cs)

def quotedText (mark : Char) : Reader String := fun cs =>
  if [mark, mark, mark].isPrefixOf cs then blockText mark cs else lineText mark cs

def isBare (c : Char) : Bool := c.isAlphanum || c == '-' || c == '_'

def simpleKey : Reader String := do
  match ← peek with
  | some '"' => lineText '"'
  | some '\'' => lineText '\''
  | _ =>
    let cs ← takeWhile isBare
    if cs.isEmpty then refuse else pure (String.ofList cs)

structure Path where
  tables : List String
  last : String
  deriving DecidableEq, Repr

def Path.keys (p : Path) : List String := p.tables ++ [p.last]

def pathUpTo : Nat → Reader Path
  | 0 => refuse
  | n + 1 => do
    let key ← simpleKey
    blanks
    if ← accept ['.'] then
      blanks
      let rest ← pathUpTo n
      pure { rest with tables := key :: rest.tables }
    else pure ⟨[], key⟩

def pathLimit : Nat := 80

def path : Reader Path := pathUpTo pathLimit

end Missions.Toml
