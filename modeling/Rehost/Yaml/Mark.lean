import Rehost.Text.Digit
import Rehost.Text.Utf8
import Rehost.Yaml.Cursor
import Rehost.Yaml.Token

/-! Marks on nodes and documents: anchors, aliases, tags, and directives. -/
namespace Rehost.Yaml.Cursor

def fail (detail : Text) : Except Fault α := .error (.malformed detail)

def anchorName (c : Cursor) : Except Fault (Text × Cursor) :=
  let (name, c) := c.next.takeWhile isNameChar
  if name.isEmpty then fail "expected a name"
  else if endsItem c.peek || c.isAt (("?:,]\x7d%@\x60" : Text).contains ·) then .ok (name, c)
  else fail "expected the end of a name"

/-- A tag handle: one exclamation mark in front of a space, or a name, perhaps empty, between two. -/
def tagHandle (c : Cursor) : Except Fault (Text × Cursor) :=
  if !c.sees '!' then fail "expected '!'"
  else if c.sees ' ' 1 then .ok ("!", c.next)
  else
    let (name, c) := c.next.takeWhile isNameChar
    if c.sees '!' then .ok ("!" ++ name ++ "!", c.next) else fail "expected '!'"

def isUriChar (c : CodePoint) : Bool := c.isAlphanum || ("-;/?:@&=+$,_.!~*'()[]" : Text).contains c

def escapedBytes : (fuel : Nat) → Cursor → Except Fault (List UInt8 × Cursor)
  | 0, c => .ok ([], c)
  | fuel + 1, c =>
    if !c.sees '%' then .ok ([], c)
    else
      let c := c.next
      match Text.hexNumber? (c.rest.take 2), (c.rest.take 2).length with
      | some n, 2 => do
        let (bytes, c) ← escapedBytes fuel (c.skip 2)
        return (UInt8.ofNat n :: bytes, c)
      | _, _ => fail "expected two hexadecimal digits"

/-- The characters of a tag; escaped bytes have to be UTF-8. -/
def uriText : (fuel : Nat) → Cursor → Except Fault (Text × Cursor)
  | 0, c => .ok ([], c)
  | fuel + 1, c =>
    match c.peek with
    | none => .ok ([], c)
    | some ch =>
      if ch = '%' then do
        let (bytes, c) ← escapedBytes fuel c
        match Utf8.decode bytes with
        | .error _ => fail "an escape that is not UTF-8"
        | .ok t =>
          let (rest, c) ← uriText fuel c
          return (t ++ rest, c)
      else if isUriChar ch then do
        let (rest, c) ← uriText fuel c.next
        return (ch :: rest, c)
      else .ok ([], c)

def uri (c : Cursor) : Except Fault (Text × Cursor) := do
  let (t, c) ← uriText (c.rest.length + 1) c
  if t.isEmpty then fail "expected a tag" else return (t, c)

/-- Whether the word that begins here holds another exclamation mark, so that the first begins a handle. -/
def hasHandle (c : Cursor) : Bool :=
  ((c.next.rest.takeWhile fun ch : CodePoint => !(ch.is ' ' || isBreak ch)).contains '!')

def tag (c : Cursor) : Except Fault (Token × Cursor) := do
  let (token, c) ←
    if c.sees '<' 1 then do
      let (suffix, c) ← uri (c.skip 2)
      if c.sees '>' then pure (Token.tag none suffix, c.next) else fail "expected '>'"
    else if endsItem (c.peek 1) then pure (Token.tag none "!", c.next)
    else do
      let (handle, c) ← if c.hasHandle then c.tagHandle else pure ("!", c.next)
      let (suffix, c) ← c.uri
      pure (Token.tag (some handle) suffix, c)
  if endsWord c.peek then return (token, c) else fail "expected a space"

def versionNumber (c : Cursor) : Except Fault (Nat × Cursor) :=
  match c.takeWhile CodePoint.isDigit with
  | ([], _) => fail "expected a digit"
  | (digits, c) =>
    if mostDigits < digits.length then .error .badNumber
    else .ok (digits.foldl (fun n d => n * 10 + (d.number - 48)) 0, c)

def versionDirective (c : Cursor) : Except Fault (Token × Cursor) := do
  let (major, c) ← c.skipSpaces.versionNumber
  if !c.sees '.' then fail "expected '.'"
  else
    let (_, c) ← c.next.versionNumber
    if endsWord c.peek then return (.version major, c) else fail "expected a space"

def tagDirective (c : Cursor) : Except Fault (Token × Cursor) := do
  let (handle, c) ← c.skipSpaces.tagHandle
  if !c.sees ' ' then fail "expected a space"
  else
    let (expansion, c) ← c.skipSpaces.uri
    if endsWord c.peek then return (.tagHandle handle expansion, c) else fail "expected a space"

def directive (c : Cursor) : Except Fault (Token × Cursor) := do
  let (name, c) := c.next.takeWhile isNameChar
  if name.isEmpty then fail "expected a directive name"
  else if !endsWord c.peek then fail "expected a space"
  else
    let (token, c) ←
      if name = "YAML" then c.versionDirective
      else if name = "TAG" then c.tagDirective
      else pure (.otherDirective, c.skipWhile (!isBreak ·))
    return (token, ← c.restOfLine)

end Rehost.Yaml.Cursor
