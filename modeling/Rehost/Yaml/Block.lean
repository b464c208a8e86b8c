import Rehost.Yaml.Mark

/-! Block scalars: the lines below a mark that are indented at least as far as the first of them. A literal block keeps
its line breaks; a folded one joins lines that begin with neither a space nor a tab. -/
namespace Rehost.Yaml.Cursor

/-- What happens to the line breaks at the end: one stays by default, none if stripped, all if kept. -/
inductive Chomping where
  | clip
  | strip
  | keep
deriving DecidableEq, Repr

def chomping? (c : Cursor) : Option Chomping :=
  if c.sees '+' then some .keep
  else if c.sees '-' then some .strip
  else none

def increment? (c : Cursor) : Except Fault (Option Nat) :=
  match c.peek with
  | some ch =>
    if ch = '0' then fail "an indentation of zero"
    else if ch.isDigit then .ok (some (ch.number - 48))
    else .ok none
  | none => .ok none

/-- The marks behind the sign of a block, in either order. -/
def blockHeader (c : Cursor) : Except Fault (Chomping × Option Nat × Cursor) := do
  let (chomping, increment, c) ←
    match c.chomping? with
    | some chomping => do
      let c := c.next
      match ← c.increment? with
      | some n => pure (chomping, some n, c.next)
      | none => pure (chomping, none, c)
    | none => do
      match ← c.increment? with
      | some n =>
        let c := c.next
        match c.chomping? with
        | some chomping => pure (chomping, some n, c.next)
        | none => pure (.clip, some n, c)
      | none => pure (.clip, none, c)
  if endsWord c.peek then return (chomping, increment, c) else fail "expected an indentation or a chomping mark"

def leadingLines : (fuel farthest : Nat) → Cursor → Text × Nat × Cursor
  | 0, farthest, c => ([], farthest, c)
  | fuel + 1, farthest, c =>
    if c.sees ' ' then leadingLines fuel (max farthest (c.column + 1)) c.next
    else if c.isAt isBreak then
      let (t, c) := c.lineBreak
      let (rest, farthest, c) := leadingLines fuel farthest c
      (t ++ rest, farthest, c)
    else ([], farthest, c)

def skipIndent (indent : Nat) (c : Cursor) : Cursor :=
  c.skip ((c.rest.take (indent - c.column)).takeWhile (·.is ' ')).length

def blankLines (indent : Nat) : (fuel : Nat) → Cursor → Text × Cursor
  | 0, c => ([], c)
  | fuel + 1, c =>
    let c := c.skipIndent indent
    if c.isAt isBreak then
      let (t, c) := c.lineBreak
      let (rest, c) := blankLines indent fuel c
      (t ++ rest, c)
    else ([], c)

def blockLines (folded : Bool) (chomping : Chomping) (indent : Nat) :
    (fuel : Nat) → (before lastBreak : Text) → Cursor → Text × Cursor
  | 0, _, _, c => ([], c)
  | fuel + 1, before, lastBreak, c =>
    if c.column = indent && c.peek.isSome then
      let flush := !c.isAt isWhite
      let (t, c) := c.takeWhile (!isBreak ·)
      let (lineBreak, c) := c.lineBreak
      let (breaks, c) := blankLines indent (c.rest.length + 1) c
      let joint : Text :=
        if c.column = indent && c.peek.isSome then
          if folded && lineBreak = "\n" && flush && !c.isAt isWhite then
            if breaks.isEmpty then " " else []
          else lineBreak
        else []
      let (rest, c) := blockLines folded chomping indent fuel breaks lineBreak c
      (before ++ t ++ joint ++ rest, c)
    else
      match chomping with
      | .strip => ([], c)
      | .clip => (lastBreak, c)
      | .keep => (lastBreak ++ before, c)

/-- A block below a parent that is indented as far as `parent`; the outermost parent is at -1. -/
def blockScalar (folded : Bool) (parent : Int) (c : Cursor) : Except Fault (Token × Cursor) := do
  let (chomping, increment, c) ← c.next.blockHeader
  let c ← c.restOfLine
  let least := max 1 (parent + 1).toNat
  let (before, indent, c) :=
    match increment with
    | some n =>
      let indent := least + n - 1
      let (t, c) := blankLines indent (c.rest.length + 1) c
      (t, indent, c)
    | none =>
      let (t, farthest, c) := leadingLines (c.rest.length + 1) 0 c
      (t, max least farthest, c)
  let (t, c) := blockLines folded chomping indent (c.rest.length + 1) before [] c
  return (.scalar t false, c)

end Rehost.Yaml.Cursor
