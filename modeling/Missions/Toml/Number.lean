import Missions.Toml.Text

/-! A word is taken for a whole number by its shape, which underscores loosen: behind the first one nothing is looked
at but the neighbours of underscores. Whether its digits have a value in its base is a second question, and only a
value that is used has to answer it. -/

namespace Missions.Toml

def isDigitIn (base : Nat) (c : Char) : Bool := isHexDigit c && hexDigit c < base

def valueIn? (base : Nat) (digits : List Char) : Option Nat :=
  if !digits.isEmpty && digits.all (isDigitIn base) then some (digits.foldl (fun v c => base * v + hexDigit c) 0)
  else none

def underscoresFit (isDigit : Char → Bool) : List Char → Bool
  | [] => true
  | '_' :: _ => false
  | c :: '_' :: rest => isDigit c && rest.head?.any isDigit && underscoresFit isDigit rest
  | _ :: rest => underscoresFit isDigit rest

def dropUnderscores (cs : List Char) : List Char := cs.filter (· != '_')

def splitSign : List Char → Option Char × List Char
  | '+' :: cs => (some '+', cs)
  | '-' :: cs => (some '-', cs)
  | cs => (none, cs)

/-- A whole number after the mark of its base, with its value if it has one. -/
def based? (base : Nat) (cs : List Char) : Option (Option Int) :=
  if cs.all (fun c => c == '_' || isDigitIn base c) && underscoresFit isHexDigit cs then
    some ((valueIn? base (dropUnderscores cs)).map Int.ofNat)
  else none

/-- A decimal whole number after its sign, with its value if it has one. It has no leading zero; behind its first
underscore there are no points, exponents and spaces, and digits are those of any base. -/
def decimal? (sign : Option Char) (cs : List Char) : Option (Option Int) :=
  let shaped :=
    match cs.dropWhile Char.isDigit with
    | [] => !cs.isEmpty
    | '_' :: rest => rest.all (· ∉ ['.', 'e', 'E', ' '])
    | _ => false
  if shaped && (cs.head? != some '0' || cs == ['0']) && underscoresFit isHexDigit cs then
    some ((valueIn? 10 (dropUnderscores cs)).map fun n => if sign = some '-' then -n else n)
  else none

/-- A whole number: decimal with or without a sign, or hexadecimal, octal or binary without one. -/
def integer? : List Char → Option (Option Int)
  | '0' :: 'x' :: cs => based? 16 cs
  | '0' :: 'o' :: cs => based? 8 cs
  | '0' :: 'b' :: cs => based? 2 cs
  | cs => decimal? (splitSign cs).1 (splitSign cs).2

/-- What follows digits and underscores, among which there is a digit. Where leading zeros are not free, a zero in
front is the only digit. -/
def afterDigits? (freeZeros : Bool) (cs : List Char) : Option (List Char) :=
  let digits := cs.takeWhile fun c => c.isDigit || c == '_'
  let count := digits.countP Char.isDigit
  if count = 0 ∨ (count > 1 ∧ !freeZeros ∧ digits.head? = some '0') then none else some (cs.drop digits.length)

def afterFraction? : List Char → Option (List Char)
  | '.' :: cs => afterDigits? true cs
  | cs => some cs

def afterExponent? : List Char → Option (List Char)
  | 'e' :: cs | 'E' :: cs => afterDigits? true (splitSign cs).2
  | cs => some cs

/-- Whether the characters write a number with a fraction or an exponent, or a special one. -/
def isReal (cs : List Char) : Bool :=
  let rest := (splitSign cs).2
  rest == ['i', 'n', 'f'] || rest == ['n', 'a', 'n'] ||
    (underscoresFit Char.isDigit rest &&
      match afterDigits? false rest with
      | none | some [] => false
      | some more => (afterFraction? more).bind afterExponent? == some [])

end Missions.Toml
