import Rehost.Sort.Merge

/-! Sorting by runs. Stretches that rise or fall already are runs, short ones are filled up by insertion, and runs are
merged in an order that depends on where they meet, so that their sizes stay balanced. By a proper order the outcome is
sorted and stable; where some elements come neither before nor after others, it is the outcome of just these steps. -/
namespace Rehost.Sort

variable {α : Type}

def runLength (goesOn : α → α → Bool) : List α → Nat
  | [] => 0
  | [_] => 1
  | x :: y :: xs => if goesOn x y then runLength goesOn (y :: xs) + 1 else 1

/-- Puts an element behind everything that it does not precede. -/
def insertInto (precedes : α → α → Bool) (run : List α) (x : α) : List α :=
  let place := halve (fun i => run[i]?.any (precedes x)) 0 run.length
  run.take place ++ x :: run.drop place

/-- The first run, of at least the given length if there are as many elements, and the elements behind it. -/
def splitRun (precedes : α → α → Bool) (least : Nat) : List α → List α × List α
  | x :: y :: xs =>
    let all := x :: y :: xs
    let falls := precedes y x
    let length := runLength (fun a b => precedes b a == falls) all
    let run := if falls then (all.take length).reverse else all.take length
    let rest := all.drop length
    ((rest.take (least - length)).foldl (insertInto precedes) run, rest.drop (least - length))
  | xs => (xs, [])

def longest : Nat := 64

/-- The least length of a run in a list of some length: a little less than a power of two of them make up the list. -/
def leastRun (size odd : Nat) : Nat :=
  if size < longest then size + odd else leastRun (size / 2) (max odd (size % 2))
termination_by size
decreasing_by unfold longest at *; omega

/-- The first binary place in which the middles of two neighbouring runs differ, as fractions of the whole list; `left`
and `right` are twice the middles. -/
def meetingPlace (size : Nat) : (fuel : Nat) → (left right : Nat) → Nat
  | 0, _, _ => 1
  | fuel + 1, left, right =>
    if size ≤ left then meetingPlace size fuel (2 * (left - size)) (2 * (right - size)) + 1
    else if size ≤ right then 1
    else meetingPlace size fuel (2 * left) (2 * right) + 1

structure Pending (α : Type) where
  run : List α
  place : Nat

/-- Merges a run with those in front of it that meet at a deeper place than the next one. -/
def collapse (precedes : α → α → Bool) (place : Nat) :
    List (Pending α) → List α → StateM Nat (List (Pending α) × List α)
  | [], run => return ([], run)
  | p :: ps, run => do
    if place < p.place then collapse precedes place ps (← mergeRuns precedes p.run run) else return (p :: ps, run)

/-- Merges what waits, the last run first. A run between two others goes to the shorter one. -/
def finish (precedes : α → α → Bool) : (waiting : List (List α)) → List α → StateM Nat (List α)
  | [], run => return run
  | [p], run => mergeRuns precedes p run
  | p :: q :: ps, run => do
    if q.length < run.length then finish precedes ((← mergeRuns precedes q p) :: ps) run
    else finish precedes (q :: ps) (← mergeRuns precedes p run)
termination_by waiting => waiting.length

def sortFrom (precedes : α → α → Bool) (size least : Nat) :
    (fuel : Nat) → (start : Nat) → (run : List α) → List (Pending α) → List α → StateM Nat (List α)
  | 0, _, run, waiting, _ | _, _, run, waiting, [] => finish precedes (waiting.map (·.run)) run
  | fuel + 1, start, run, waiting, rest => do
    let (next, rest) := splitRun precedes least rest
    let left := 2 * start + run.length
    let place := meetingPlace size size left (left + run.length + next.length)
    let (waiting, merged) ← collapse precedes place waiting run
    sortFrom precedes size least fuel (start + run.length) next (⟨merged, place⟩ :: waiting) rest

def sort (precedes : α → α → Bool) (xs : List α) : List α :=
  let least := leastRun xs.length 0
  let (run, rest) := splitRun precedes least xs
  ((sortFrom precedes xs.length least rest.length 0 run [] rest).run leastWins).1

end Rehost.Sort
