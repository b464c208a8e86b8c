import Rehost.Sort.Place

/-! Merging two runs. The shorter one is set aside and the other one taken from its far end, so that its places become
free in time; merging therefore goes from the front or from the back. Where one run wins often in a row, the number of
its next wins is looked for at once. -/
namespace Rehost.Sort

variable {α : Type}

def leastWins : Nat := 7

structure Merging (α : Type) where
  /-- The run that was set aside. -/
  held : List α
  other : List α
  /-- What is merged already, the last element first. -/
  done : List α := []
  /-- How many wins in a row make galloping begin. -/
  patience : Nat

namespace Merging

/-- Nothing is to be compared any more; the last element that is held goes last. -/
def isOver (s : Merging α) : Bool :=
  match s.held, s.other with
  | _ :: _ :: _, _ :: _ => false
  | _, _ => true

def takeHeld (count : Nat) (s : Merging α) : Merging α :=
  { s with held := s.held.drop count, done := (s.held.take count).reverse ++ s.done }

def takeOther (count : Nat) (s : Merging α) : Merging α :=
  { s with other := s.other.drop count, done := (s.other.take count).reverse ++ s.done }

def result (s : Merging α) : List α :=
  s.done.reverse ++ if s.held.length = 1 then s.other ++ s.held else s.held ++ s.other

end Merging

/-- The end from which runs are merged. -/
structure Side (α : Type) where
  /-- Whether the next element of the other run goes before the next one that is held. -/
  otherWins : (held other : α) → Bool
  /-- How many of the run that is held go before an element of the other run. -/
  heldWins : List α → α → Nat
  /-- How many of the other run go before an element that is held. -/
  othersWin : List α → α → Nat
  /-- Whether galloping looks at the run that is held first. -/
  heldFirst : Bool

namespace Side

def front (precedes : α → α → Bool) : Side α where
  otherWins held other := precedes other held
  heldWins held other := gallop (fun i => held[i]?.any (precedes other)) held.length 0
  othersWin other held := gallop (fun i => !other[i]?.any (precedes · held)) other.length 0
  heldFirst := true

/-- From the back, where runs are turned round; the run behind is held. -/
def back (precedes : α → α → Bool) : Side α where
  otherWins held other := precedes held other
  heldWins held other :=
    let run := held.reverse
    run.length - gallop (fun i => !run[i]?.any (precedes · other)) run.length (run.length - 1)
  othersWin other held :=
    let run := other.reverse
    run.length - gallop (fun i => run[i]?.any (precedes held)) run.length (run.length - 1)
  heldFirst := false

def lookAtHeld (side : Side α) (s : Merging α) : Nat × Merging α :=
  match s.other with
  | [] => (0, s)
  | next :: _ =>
    let wins := side.heldWins s.held next
    let s := s.takeHeld wins
    (wins, if s.isOver then s else s.takeOther 1)

def lookAtOther (side : Side α) (s : Merging α) : Nat × Merging α :=
  match s.held with
  | [] => (0, s)
  | next :: _ =>
    let wins := side.othersWin s.other next
    let s := s.takeOther wins
    (wins, if s.isOver then s else s.takeHeld 1)

def advance (side : Side α) : (fuel : Nat) → (wins : Option (Nat × Nat)) → Merging α → Merging α
  | 0, _, s => s
  | fuel + 1, none, s =>
    let (first, s) := if side.heldFirst then side.lookAtHeld s else side.lookAtOther s
    if s.isOver then s
    else
      let (second, s) := if side.heldFirst then side.lookAtOther s else side.lookAtHeld s
      if s.isOver then s
      else if leastWins ≤ max first second then advance side fuel none { s with patience := max 1 (s.patience - 1) }
      else advance side fuel (some (0, 0)) { s with patience := s.patience + 1 }
  | fuel + 1, some (held, others), s =>
    match s.held, s.other with
    | x :: _ :: _, y :: _ =>
      let (held, others, s) :=
        if side.otherWins x y then (0, others + 1, s.takeOther 1) else (held + 1, 0, s.takeHeld 1)
      if s.isOver then s
      else advance side fuel (if s.patience ≤ max held others then none else some (held, others)) s
    | _, _ => s

/-- Merges everything; the first element of the other run is known to go first. -/
def merge (side : Side α) (s : Merging α) : Merging α :=
  let s := s.takeOther 1
  if s.isOver then s else side.advance (s.held.length + s.other.length) (some (0, 0)) s

end Side

/-- One run from two. What is in place already at either end is left out; patience carries over to the next merging. -/
def mergeRuns (precedes : α → α → Bool) (a b : List α) : StateM Nat (List α) := fun patience =>
  let start := match b with
    | [] => a.length
    | first :: _ => gallop (fun i => a[i]?.any (precedes first)) a.length 0
  match (a.drop start).getLast? with
  | none => (a ++ b, patience)
  | some last =>
    let stop := gallop (fun i => !b[i]?.any (precedes · last)) b.length (b.length - 1)
    let a' := a.drop start
    let b' := b.take stop
    let around (merged : List α) := a.take start ++ merged ++ b.drop stop
    if b'.isEmpty then (a ++ b, patience)
    else if a'.length ≤ b'.length then
      let s := (Side.front precedes).merge { held := a', other := b', patience }
      (around s.result, s.patience)
    else
      let s := (Side.back precedes).merge { held := b'.reverse, other := a'.reverse, patience }
      (around s.result.reverse, s.patience)

end Rehost.Sort
