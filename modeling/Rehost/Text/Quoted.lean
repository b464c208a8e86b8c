import Rehost.Text.Printable

/-! Quoted texts. A text is set in single quotes, or in double quotes if it holds single ones and no double ones; the
quote in use and the backslash are escaped, and what cannot be printed is written by its number. -/
namespace Rehost.Text

def hexDigit (n : Nat) : CodePoint := .ofChar (Nat.digitChar n)

def hex : (places : Nat) → Nat → Text
  | 0, _ => []
  | places + 1, n => hex places (n / 16) ++ [hexDigit (n % 16)]

def quoteFor (single double : Bool) : CodePoint := if single && !double then '"' else '\''

def numbered (n : Nat) : Text :=
  if n < 0x100 then '\\' :: 'x' :: hex 2 n
  else if n < 0x10000 then '\\' :: 'u' :: hex 4 n
  else '\\' :: 'U' :: hex 8 n

def quoteChar (quote c : CodePoint) : Text :=
  if c = quote || c = '\\' then ['\\', c]
  else if c = '\n' then ['\\', 'n']
  else if c = '\r' then ['\\', 'r']
  else if c = '\t' then ['\\', 't']
  else if isPrintable c then [c]
  else numbered c.number

def quoted (t : Text) : Text :=
  let quote := quoteFor (t.contains '\'') (t.contains '"')
  quote :: t.flatMap (quoteChar quote) ++ [quote]

def quoteByte (quote : CodePoint) (b : UInt8) : Text :=
  let c := CodePoint.ofNat b.toNat
  if c = quote || c = '\\' then ['\\', c]
  else if c = '\n' then ['\\', 'n']
  else if c = '\r' then ['\\', 'r']
  else if c = '\t' then ['\\', 't']
  else if 0x20 ≤ b.toNat && b.toNat < 0x7f then [c]
  else '\\' :: 'x' :: hex 2 b.toNat

def quotedBytes (bytes : List UInt8) : Text :=
  let quote := quoteFor (bytes.contains 39) (bytes.contains 34)
  "b" ++ [quote] ++ bytes.flatMap (quoteByte quote) ++ [quote]

@[simp] theorem length_hex (places n : Nat) : (hex places n).length = places := by
  induction places generalizing n with
  | zero => rfl
  | succ places ih => simp [hex, ih]

end Rehost.Text
