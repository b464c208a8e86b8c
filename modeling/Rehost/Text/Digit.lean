import Rehost.Text.Blank

/-! Decimal digits of the Unicode character database (version 14), which come in runs of ten from zero to nine, and
hexadecimal digits, which are ASCII. -/
namespace Rehost.Text

def wideZeros : List Nat :=
  [0x660, 0x6f0, 0x7c0, 0x966, 0x9e6, 0xa66, 0xae6, 0xb66, 0xbe6, 0xc66, 0xce6, 0xd66, 0xde6, 0xe50, 0xed0, 0xf20,
  0x1040, 0x1090, 0x17e0, 0x1810, 0x1946, 0x19d0, 0x1a80, 0x1a90, 0x1b50, 0x1bb0, 0x1c40, 0x1c50, 0xa620, 0xa8d0,
  0xa900, 0xa9d0, 0xa9f0, 0xaa50, 0xabf0, 0xff10, 0x104a0, 0x10d30, 0x11066, 0x110f0, 0x11136, 0x111d0, 0x112f0,
  0x11450, 0x114d0, 0x11650, 0x116c0, 0x11730, 0x118e0, 0x11950, 0x11c50, 0x11d50, 0x11da0, 0x16a60, 0x16ac0,
  0x16b50, 0x1d7ce, 0x1d7d8, 0x1d7e2, 0x1d7ec, 0x1d7f6, 0x1e140, 0x1e2f0, 0x1e950, 0x1fbf0]

def digit? (c : CodePoint) : Option Nat :=
  if c.isDigit then some (c.number - 48)
  else (wideZeros.find? fun z => z ≤ c.number && c.number < z + 10).map (c.number - ·)

def isDecimal (c : CodePoint) : Bool := (digit? c).isSome

/-- A character of a number as ASCII writes it: a digit of any script by its value, a blank as a space. -/
def numberChar (c : CodePoint) : CodePoint :=
  if c.number < 127 then c
  else if isBlank c then ' '
  else
    match digit? c with
    | some n => CodePoint.ofNat (48 + n)
    | none => '?'

/-- A text as the number that it may be; what is ASCII throughout stays as it is. -/
def asNumber (t : Text) : Text := if t.all (·.number < 128) then t else t.map numberChar

def hexValue? (c : CodePoint) : Option Nat :=
  if c.isDigit then some (c.number - 48)
  else if 'a' ≤ c && c ≤ 'f' then some (c.number - 87)
  else if 'A' ≤ c && c ≤ 'F' then some (c.number - 55)
  else none

def hexNumber? (t : Text) : Option Nat :=
  t.foldlM (fun n c => (hexValue? c).map (n * 16 + ·)) 0

end Rehost.Text
