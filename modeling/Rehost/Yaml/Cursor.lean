import Rehost.Text.Basic
import Rehost.Yaml.Fault

/-! Reading a YAML text: a cursor knows its line and column, since both carry meaning. The end of the text counts as the
end of a line. -/
namespace Rehost.Yaml

def isAllowed (c : CodePoint) : Bool :=
  let n := c.number
  n = 0x09 || n = 0x0a || n = 0x0d || (0x20 ≤ n && n ≤ 0x7e) || n = 0x85 || (0xa0 ≤ n && n ≤ 0xd7ff) ||
    (0xe000 ≤ n && n ≤ 0xfffd) || 0x10000 ≤ n

def isBreak (c : CodePoint) : Bool :=
  c = '\n' || c = '\r' || c = '\u0085' || c = '\u2028' || c = '\u2029'

def isWhite (c : CodePoint) : Bool := c = ' ' || c = '\t'

def isNameChar (c : CodePoint) : Bool := c.isAlphanum || c = '-' || c = '_'

def endsLine (next : Option CodePoint) : Bool := next.all isBreak

def endsWord (next : Option CodePoint) : Bool := next.all fun c : CodePoint => c.is ' ' || isBreak c

def endsItem (next : Option CodePoint) : Bool := next.all fun c : CodePoint => isWhite c || isBreak c

structure Cursor where
  rest : Text
  index : Nat := 0
  line : Nat := 0
  column : Nat := 0
deriving Repr, Inhabited

namespace Cursor

def peek (c : Cursor) (ahead : Nat := 0) : Option CodePoint := c.rest[ahead]?

def isAt (c : Cursor) (accepts : CodePoint → Bool) : Bool := c.peek.any accepts

def sees (c : Cursor) (char : Char) (ahead : Nat := 0) : Bool := (c.peek ahead).any (·.is char)

def begins (c : Cursor) (t : Text) : Bool := t.isPrefixOf c.rest

/-- One character on. A byte order mark takes no column. -/
def next (c : Cursor) : Cursor :=
  match c.rest with
  | [] => c
  | ch :: r =>
    if isBreak ch && !(ch = '\r' && r.head?.any (·.is '\n')) then ⟨r, c.index + 1, c.line + 1, 0⟩
    else if ch = '\r' || ch ≠ '\ufeff' then ⟨r, c.index + 1, c.line, c.column + 1⟩
    else ⟨r, c.index + 1, c.line, c.column⟩

def skip : (count : Nat) → Cursor → Cursor
  | 0, c => c
  | count + 1, c => skip count c.next

def takeWhile (accepts : CodePoint → Bool) (c : Cursor) : Text × Cursor :=
  let t := c.rest.takeWhile accepts
  (t, c.skip t.length)

def skipWhile (accepts : CodePoint → Bool) (c : Cursor) : Cursor := (c.takeWhile accepts).2

def skipSpaces (c : Cursor) : Cursor := c.skipWhile (·.is ' ')

def lineBreak (c : Cursor) : Text × Cursor :=
  match c.peek with
  | none => ([], c)
  | some ch =>
    if c.begins "\r\n" then ("\n", c.skip 2)
    else if ch = '\r' || ch = '\n' || ch = '\u0085' then ("\n", c.next)
    else if isBreak ch then ([ch], c.next)
    else ([], c)

def atSeparator (c : Cursor) : Bool :=
  (c.begins "---" || c.begins "...") && endsItem (c.peek 3)

def restOfLine (c : Cursor) : Except Fault Cursor :=
  let c := c.skipSpaces
  let c := if c.sees '#' then c.skipWhile (!isBreak ·) else c
  if endsLine c.peek then .ok c.lineBreak.2 else .error (.malformed "expected a comment or a line break")

end Cursor
end Rehost.Yaml
