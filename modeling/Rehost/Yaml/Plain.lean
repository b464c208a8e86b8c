import Rehost.Yaml.Cursor

/-! Plain scalars: words without quotes. They end before what has a meaning of its own, and go on over lines that are
indented far enough. -/
namespace Rehost.Yaml.Cursor

def isFlowMark (c : CodePoint) : Bool := (",[]\x7b\x7d" : Text).contains c

def atPlain (inFlow : Bool) (c : Cursor) : Bool :=
  match c.peek with
  | none => false
  | some ch =>
    !(endsItem (some ch) || ("-?:,[]\x7b\x7d#&*!|>'\"%@\x60" : Text).contains ch) ||
      (!endsItem (c.peek 1) && (ch = '-' || (!inFlow && (ch = '?' || ch = ':'))))

def wordLength (inFlow : Bool) : Text → Nat
  | [] => 0
  | ch :: r =>
    if isWhite ch || isBreak ch then 0
    else if ch = ':' && (endsItem r.head? || (inFlow && r.head?.any isFlowMark)) then 0
    else if inFlow && (isFlowMark ch || ch = '?') then 0
    else wordLength inFlow r + 1

/-- Blank lines after a line break; nothing if they lead to a document separator. -/
def plainBreaks : (fuel : Nat) → Cursor → Option Text × Cursor
  | 0, c => (some [], c)
  | fuel + 1, c =>
    if c.sees ' ' then plainBreaks fuel c.next
    else if c.isAt isBreak then
      let (t, c) := c.lineBreak
      if c.atSeparator then (none, c)
      else
        let (rest, c) := plainBreaks fuel c
        (rest.map (t ++ ·), c)
    else (some [], c)

def plainSpaces (c : Cursor) : Text × Bool × Cursor :=
  let (white, c) := c.takeWhile (·.is ' ')
  if c.isAt isBreak then
    let (t, c) := c.lineBreak
    if c.atSeparator then ([], true, c)
    else
      match plainBreaks (c.rest.length + 1) c with
      | (none, c) => ([], true, c)
      | (some breaks, c) =>
        ((if t ≠ "\n" then t else if breaks.isEmpty then " " else []) ++ breaks, true, c)
  else (white, false, c)

def plainWords (inFlow : Bool) (indent : Nat) : (fuel : Nat) → (spaces : Text) → (broken : Bool) → Cursor →
    Text × Bool × Cursor
  | 0, _, broken, c => ([], broken, c)
  | fuel + 1, spaces, broken, c =>
    let length := if c.sees '#' then 0 else wordLength inFlow c.rest
    if length = 0 then ([], broken, c)
    else
      let word := c.rest.take length
      let (next, broken, c) := (c.skip length).plainSpaces
      if next.isEmpty || c.sees '#' || (!inFlow && c.column < indent) then (spaces ++ word, broken, c)
      else
        let (rest, broken, c) := plainWords inFlow indent fuel next broken c
        (spaces ++ word ++ rest, broken, c)

def plainScalar (inFlow : Bool) (indent : Int) (c : Cursor) : Text × Bool × Cursor :=
  plainWords inFlow (indent + 1).toNat (c.rest.length + 1) [] false c

end Rehost.Yaml.Cursor
