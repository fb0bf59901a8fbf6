import Missions.Toml.Reader

namespace Missions.Toml

open Reader

def numberWithin (n low high : Nat) : Reader Nat := do
  let value := (← takeExactly Char.isDigit n).foldl (fun v c => 10 * v + (c.toNat - '0'.toNat)) 0
  if low ≤ value ∧ value ≤ high then pure value else refuse

def daysIn (year month : Nat) : Nat :=
  if month = 2 then if year % 4 = 0 ∧ (year % 100 ≠ 0 ∨ year % 400 = 0) then 29 else 28
  else if month ∈ [4, 6, 9, 11] then 30
  else 31

def date : Reader Unit := do
  let year ← numberWithin 4 0 9999
  expect ['-']
  let month ← numberWithin 2 1 12
  expect ['-']
  let _ ← numberWithin 2 1 (daysIn year month)

def time : Reader Unit := do
  let _ ← numberWithin 2 0 23
  expect [':']
  let _ ← numberWithin 2 0 59
  if ← accept [':'] then
    let _ ← numberWithin 2 0 60
    if ← accept ['.'] then
      if (← takeWhile Char.isDigit).isEmpty then refuse

def offset : Reader Unit := do
  if (← accept ['Z']) || (← accept ['z']) then pure ()
  else
    if !((← accept ['+']) || (← accept ['-'])) then refuse
    let _ ← numberWithin 2 0 23
    expect [':']
    let _ ← numberWithin 2 0 59

def isDate (cs : List Char) : Bool := (readAll date cs).isSome

def dateTime : Reader Unit := do
  date
  if !((← accept ['T']) || (← accept ['t']) || (← accept [' '])) then refuse
  time
  if (← peek).isSome then offset

def isMoment (cs : List Char) : Bool :=
  isDate cs || (readAll time cs).isSome || (readAll dateTime cs).isSome

end Missions.Toml
