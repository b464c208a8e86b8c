import Rehost.Yaml.Block
import Rehost.Yaml.Plain
import Rehost.Yaml.Quoted

/-! From text to tokens. Whether a scalar is a key shows only at the colon behind it, so the places where a key may have
begun are remembered, one for each level of brackets, and its token is put in later. Such a key stands on one line and
is at most 1024 characters long. Until then no token from the first such place on is settled, so a fault met meanwhile
stands in front of them. -/
namespace Rehost.Yaml

structure KeyPlace where
  level : Nat
  /-- How many tokens stand before it. -/
  position : Nat
  /-- Whether only a key can stand there. -/
  required : Bool
  index : Nat
  line : Nat
  column : Nat
deriving Repr

structure Lexer where
  cursor : Cursor
  /-- The tokens so far, the last one first. -/
  tokens : List Token := []
  /-- How many brackets are open. -/
  level : Nat := 0
  /-- The column of the innermost block; -1 outside every block. -/
  indent : Int := -1
  outer : List Int := []
  /-- Whether a key may begin here. -/
  keyAllowed : Bool := true
  keys : List KeyPlace := []
deriving Inhabited

namespace Lexer

def inFlow (l : Lexer) : Bool := l.level ≠ 0

def push (t : Token) (l : Lexer) : Lexer := { l with tokens := t :: l.tokens }

def insert (position : Nat) (t : Token) (l : Lexer) : Lexer :=
  let behind := l.tokens.length - position
  { l with tokens := l.tokens.take behind ++ t :: l.tokens.drop behind }

def forward (count : Nat) (l : Lexer) : Lexer := { l with cursor := l.cursor.skip count }

def closeTo (column : Int) : List Int → Lexer → Lexer
  | [], l => l
  | o :: os, l =>
    if l.indent > column then closeTo column os { l.push .blockEnd with indent := o, outer := os } else l

def unwind (column : Int) (l : Lexer) : Lexer := if l.inFlow then l else closeTo column l.outer l

def opensBlock (column : Nat) (l : Lexer) : Bool := l.indent < column

def openBlock (column : Nat) (l : Lexer) : Lexer := { l with indent := column, outer := l.indent :: l.outer }

def isStale (l : Lexer) (k : KeyPlace) : Bool := k.line ≠ l.cursor.line || l.cursor.index - k.index > 1024

def missingColon : Except Fault α := .error (.malformed "expected ':'")

def dropStale (l : Lexer) : Except Fault Lexer :=
  if l.keys.any fun k => l.isStale k && k.required then missingColon
  else .ok { l with keys := l.keys.filter fun k => !l.isStale k }

def dropKey (l : Lexer) : Except Fault Lexer :=
  if l.keys.any fun k => k.level = l.level && k.required then missingColon
  else .ok { l with keys := l.keys.filter fun k => k.level ≠ l.level }

def keyPlace (l : Lexer) : KeyPlace where
  level := l.level
  position := l.tokens.length
  required := !l.inFlow && l.indent = (l.cursor.column : Int)
  index := l.cursor.index
  line := l.cursor.line
  column := l.cursor.column

def saveKey (l : Lexer) : Except Fault Lexer :=
  if l.keyAllowed then do
    let l ← l.dropKey
    return { l with keys := l.keys ++ [l.keyPlace] }
  else .ok l

/-- Spaces, comments and line breaks. A key may begin on a new line outside brackets. -/
def skipToToken : (fuel : Nat) → Lexer → Lexer
  | 0, l => l
  | fuel + 1, l =>
    let c := l.cursor.skipSpaces
    let c := if c.sees '#' then c.skipWhile (!isBreak ·) else c
    if c.isAt isBreak then
      skipToToken fuel { l with cursor := c.lineBreak.2, keyAllowed := l.keyAllowed || !l.inFlow }
    else { l with cursor := c }

def outside (l : Lexer) : Except Fault Lexer := do
  let l ← (l.unwind (-1)).dropKey
  return { l with keyAllowed := false }

def openFlow (t : Token) (l : Lexer) : Except Fault Lexer := do
  let l ← l.saveKey
  return { (l.push t).forward 1 with level := l.level + 1, keyAllowed := true }

def closeFlow (t : Token) (l : Lexer) : Except Fault Lexer := do
  if l.inFlow then
    let l ← l.dropKey
    return { (l.push t).forward 1 with level := l.level - 1, keyAllowed := false }
  else throw (.malformed "a closing bracket without an opening one")

def comma (l : Lexer) : Except Fault Lexer := do
  let l ← l.dropKey
  return { (l.push .comma).forward 1 with keyAllowed := true }

def notHere : Except Fault α := .error (.malformed "not allowed here")

def beginBlock (t : Token) (l : Lexer) : Except Fault Lexer :=
  if l.inFlow then .ok l
  else if !l.keyAllowed then notHere
  else if l.opensBlock l.cursor.column then .ok ((l.openBlock l.cursor.column).push t)
  else .ok l

def entry (l : Lexer) : Except Fault Lexer := do
  let l ← (← l.beginBlock .blockSequence).dropKey
  return { (l.push .entry).forward 1 with keyAllowed := true }

def key (l : Lexer) : Except Fault Lexer := do
  let l ← (← l.beginBlock .blockMapping).dropKey
  return { (l.push .key).forward 1 with keyAllowed := !l.inFlow }

/-- The colon behind a key: the key's token, and that of its block, are put in where the key began. -/
def valueOfKey (k : KeyPlace) (l : Lexer) : Lexer :=
  let l := { l with keys := l.keys.filter fun k => k.level ≠ l.level }.insert k.position .key
  let l :=
    if !l.inFlow && l.opensBlock k.column then (l.openBlock k.column).insert k.position .blockMapping else l
  { l with keyAllowed := false }

def value (l : Lexer) : Except Fault Lexer := do
  let l ←
    match l.keys.find? (·.level = l.level) with
    | some k => pure (l.valueOfKey k)
    | none => do
      let l ← (← l.beginBlock .blockMapping).dropKey
      pure { l with keyAllowed := !l.inFlow }
  return (l.push .value).forward 1

def keyLike (read : Cursor → Except Fault (Token × Cursor)) (l : Lexer) : Except Fault Lexer := do
  let l ← l.saveKey
  let (t, c) ← read l.cursor
  return { l.push t with cursor := c, keyAllowed := false }

def block (folded : Bool) (l : Lexer) : Except Fault Lexer := do
  let l ← l.dropKey
  let (t, c) ← l.cursor.blockScalar folded l.indent
  return { l.push t with cursor := c, keyAllowed := true }

def plain (l : Lexer) : Except Fault Lexer := do
  let l ← l.saveKey
  let (t, broken, c) := l.cursor.plainScalar l.inFlow l.indent
  return { l.push (.scalar t true) with cursor := c, keyAllowed := broken }

def documentMark (t : Token) (l : Lexer) : Except Fault Lexer := do return ((← l.outside).push t).forward 3

def directive (l : Lexer) : Except Fault Lexer := do
  let l ← l.outside
  let (t, c) ← l.cursor.directive
  return { l.push t with cursor := c }

def token (ch : CodePoint) (l : Lexer) : Except Fault Lexer :=
  let c := l.cursor
  let alone := endsItem (c.peek 1)
  if ch = '%' && c.column = 0 then l.directive
  else if c.column = 0 && c.atSeparator then l.documentMark (if ch = '-' then .documentStart else .documentEnd)
  else if ch = '[' then l.openFlow .flowSequence
  else if ch = '\x7b' then l.openFlow .flowMapping
  else if ch = ']' then l.closeFlow .flowSequenceEnd
  else if ch = '\x7d' then l.closeFlow .flowMappingEnd
  else if ch = ',' then l.comma
  else if ch = '-' && alone then l.entry
  else if ch = '?' && (l.inFlow || alone) then l.key
  else if ch = ':' && (l.inFlow || alone) then l.value
  else if ch = '*' then l.keyLike fun c => do let (name, c) ← c.anchorName; return (.alias name, c)
  else if ch = '&' then l.keyLike fun c => do let (name, c) ← c.anchorName; return (.anchor name, c)
  else if ch = '!' then l.keyLike Cursor.tag
  else if ch = '|' && !l.inFlow then l.block false
  else if ch = '>' && !l.inFlow then l.block true
  else if ch = '\'' || ch = '"' then l.keyLike (Cursor.quotedScalar ch)
  else if c.atPlain l.inFlow then l.plain
  else .error (.malformed "a character that cannot begin a token")

def step (l : Lexer) : Except Fault (Lexer × Bool) := do
  let l ← (l.skipToToken (l.cursor.rest.length + 1)).dropStale
  let l := l.unwind l.cursor.column
  match l.cursor.peek with
  | none => return (← l.outside, true)
  | some ch => return (← l.token ch, false)

def openKeys (l : Lexer) : List KeyPlace := l.keys.filter fun k => k.required || !l.isStale k

/-- The tokens that are settled: from the first place on where a key may have begun, others may yet be put in. -/
def settled (l : Lexer) : List Token :=
  match (l.openKeys.map (·.position)).min? with
  | some position => l.tokens.reverse.take position
  | none => l.tokens.reverse

def run : (fuel : Nat) → Lexer → Tokens
  | 0, l => ⟨l.settled, some (.malformed "a text without end")⟩
  | fuel + 1, l =>
    match l.step with
    | .error f => ⟨l.settled, some f⟩
    | .ok (l, true) => ⟨l.tokens.reverse, none⟩
    | .ok (l, false) => run fuel l

end Lexer

/-- The tokens of a text. A byte order mark in front is no part of it. -/
def tokens (t : Text) : Tokens :=
  if t.all isAllowed then
    let c : Cursor := { rest := t }
    Lexer.run (t.length + 2) { cursor := if c.sees '\ufeff' then c.next else c }
  else ⟨[], some (.malformed "a character that may not stand in a document")⟩

end Rehost.Yaml
