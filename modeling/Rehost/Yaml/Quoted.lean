import Rehost.Text.Digit
import Rehost.Yaml.Mark

/-! Quoted scalars. Single quotes know one escape, the doubled quote; double quotes know many. Line breaks inside fold
into a space, unless blank lines follow, which stay. An escape names one character each, so two halves stay two. -/
namespace Rehost.Yaml.Cursor

def escapes : List (CodePoint × CodePoint) :=
  [('0', '\x00'), ('a', '\x07'), ('b', '\x08'), ('t', '\t'), ('\t', '\t'), ('n', '\n'), ('v', '\x0b'),
    ('f', '\x0c'), ('r', '\r'), ('e', '\x1b'), (' ', ' '), ('"', '"'), ('\\', '\\'), ('/', '/'),
    ('N', '\u0085'), ('_', '\u00a0'), ('L', '\u2028'), ('P', '\u2029')]

def escapeWidth? (c : CodePoint) : Option Nat :=
  if c = 'x' then some 2
  else if c = 'u' then some 4
  else if c = 'U' then some 8
  else none

def numberedEscape? (c : Cursor) : Option (Nat × Cursor) := do
  let width ← escapeWidth? (← c.peek)
  let digits := c.next.rest.take width
  if digits.length = width then return (← Text.hexNumber? digits, c.next.skip width) else none

def foldedBreaks : (fuel : Nat) → Cursor → Except Fault (Text × Cursor)
  | 0, c => .ok ([], c)
  | fuel + 1, c =>
    if c.atSeparator then fail "a document separator inside quotes"
    else
      let c := c.skipWhile isWhite
      if c.isAt isBreak then do
        let (t, c) := c.lineBreak
        let (rest, c) ← foldedBreaks fuel c
        return (t ++ rest, c)
      else .ok ([], c)

def quotedSpaces (c : Cursor) : Except Fault (Text × Cursor) := do
  let (white, c) := c.takeWhile isWhite
  match c.peek with
  | none => fail "quotes that do not end"
  | some ch =>
    if isBreak ch then
      let (t, c) := c.lineBreak
      let (breaks, c) ← foldedBreaks (c.rest.length + 1) c
      return ((if t ≠ "\n" then t else if breaks.isEmpty then " " else []) ++ breaks, c)
    else return (white, c)

def escaped (c : Cursor) : Except Fault (Text × Cursor) := do
  match c.peek with
  | none => fail "quotes that do not end"
  | some ch =>
    match escapes.lookup ch with
    | some d => return ([d], c.next)
    | none =>
      if (escapeWidth? ch).isSome then
        match c.numberedEscape? with
        | none => fail "expected hexadecimal digits"
        | some (n, c) => if h : n < 0x110000 then return ([⟨n, h⟩], c) else throw (.badCharacter n)
      else if isBreak ch then
        let c := c.lineBreak.2
        foldedBreaks (c.rest.length + 1) c
      else fail "an unknown escape"

def quotedRest (quote : CodePoint) : (fuel : Nat) → Cursor → Except Fault (Text × Cursor)
  | 0, _ => fail "quotes that do not end"
  | fuel + 1, c =>
    match c.peek with
    | none => fail "quotes that do not end"
    | some ch => do
      if ch = quote then
        if quote = '\'' && c.sees '\'' 1 then
          let (rest, c) ← quotedRest quote fuel (c.skip 2)
          return (quote :: rest, c)
        else return ([], c.next)
      else
        let (t, c) ←
          if ch = '\\' && quote = '"' then c.next.escaped
          else if isWhite ch || isBreak ch then c.quotedSpaces
          else pure ([ch], c.next)
        let (rest, c) ← quotedRest quote fuel c
        return (t ++ rest, c)

def quotedScalar (quote : CodePoint) (c : Cursor) : Except Fault (Token × Cursor) := do
  let (t, c) ← quotedRest quote (c.rest.length + 1) c.next
  return (.scalar t false, c)

end Rehost.Yaml.Cursor
