import Rehost.Text.Basic

/-! Times as YAML writes them: a date alone, or a date and a time of day, with a zone perhaps. A text can be written
like a time that does not exist. -/
namespace Rehost.Yaml

structure TimeOfDay where
  hour : Nat
  minute : Nat
  second : Nat
  /-- How many minutes the zone is off, whichever way. -/
  offset : Nat := 0
deriving DecidableEq, Repr

structure Time where
  year : Nat
  month : Nat
  day : Nat
  timeOfDay : Option TimeOfDay := none
deriving DecidableEq, Repr

namespace Time

def number (digits : Text) : Nat := digits.foldl (fun n c => n * 10 + (c.number - 48)) 0

def digits? (least most : Nat) (t : Text) : Option (Nat × Text) :=
  let ds := (t.take most).takeWhile CodePoint.isDigit
  if least ≤ ds.length then some (number ds, t.drop ds.length) else none

def mark? (c : CodePoint) : Text → Option Text
  | d :: t => if d = c then some t else none
  | [] => none

def dropWhite (t : Text) : Text := t.dropWhile fun c => c.is ' ' || c.is '\t'

def gap? : Text → Option Text
  | [] => none
  | c :: t =>
    if c = 'T' || c = 't' then some t
    else if c = ' ' || c = '\t' then some (dropWhite t)
    else none

def zone? (t : Text) : Option Nat :=
  match dropWhite t with
  | [] => if t.isEmpty then some 0 else none
  | c :: t =>
    if c = 'Z' then if t.isEmpty then some 0 else none
    else if c = '+' || c = '-' then do
      let (hours, t) ← digits? 1 2 t
      match t with
      | [] => some (60 * hours)
      | t => do
        let (minutes, t) ← digits? 2 2 (← mark? ':' t)
        if t.isEmpty then some (60 * hours + minutes) else none
    else none

def fraction (t : Text) : Text :=
  match mark? '.' t with
  | some t => t.dropWhile CodePoint.isDigit
  | none => t

def timeOfDay? (t : Text) : Option TimeOfDay := do
  let (hour, t) ← digits? 1 2 t
  let (minute, t) ← digits? 2 2 (← mark? ':' t)
  let (second, t) ← digits? 2 2 (← mark? ':' t)
  return { hour, minute, second, offset := ← zone? (fraction t) }

/-- The time that a text is written like. A line feed at the end does not count. -/
def read? (t : Text) : Option Time := do
  let (year, t) ← digits? 4 4 (Text.dropLineEnd t)
  let (month, t) ← digits? 1 2 (← mark? '-' t)
  let (day, t) ← digits? 1 2 (← mark? '-' t)
  if t.isEmpty then return { year, month, day }
  else return { year, month, day, timeOfDay := some (← timeOfDay? (← gap? t)) }

/-- Whether a text shows by its form that it is a time: a date alone then has two digits each for month and day. -/
def isWritten (t : Text) : Bool :=
  match read? t with
  | some time => time.timeOfDay.isSome || (Text.dropLineEnd t).length = 10
  | none => false

def isLeap (year : Nat) : Bool := year % 4 = 0 && (year % 100 ≠ 0 || year % 400 = 0)

def daysIn (year month : Nat) : Nat :=
  if month = 2 then if isLeap year then 29 else 28
  else if month = 4 || month = 6 || month = 9 || month = 11 then 30
  else 31

def doesExist (t : Time) : Bool :=
  1 ≤ t.year && 1 ≤ t.month && t.month ≤ 12 && 1 ≤ t.day && t.day ≤ daysIn t.year t.month &&
    t.timeOfDay.all fun d => d.hour < 24 && d.minute < 60 && d.second < 60 && d.offset < 24 * 60

end Time
end Rehost.Yaml
