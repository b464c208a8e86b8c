/-! Code points: the characters, and the halves of pairs of 16-bit units, which are no characters but can stand alone in
a text that was written with escapes. -/
namespace Rehost

structure CodePoint where
  number : Nat
  number_lt : number < 0x110000
deriving DecidableEq, Repr

namespace CodePoint

/-- The code point with a number; zero if there is none. -/
def ofNat (n : Nat) : CodePoint := if h : n < 0x110000 then ⟨n, h⟩ else ⟨0, by decide⟩

theorem toNat_lt (c : Char) : c.toNat < 0x110000 := by
  have h := c.valid
  simp only [UInt32.isValidChar, Nat.isValidChar] at h
  change c.val.toNat < 0x110000
  omega

def ofChar (c : Char) : CodePoint := ⟨c.toNat, toNat_lt c⟩

instance : Coe Char CodePoint := ⟨ofChar⟩

def is (c : CodePoint) (char : Char) : Bool := c = ofChar char

instance : Inhabited CodePoint := ⟨ofNat 0⟩

instance : LT CodePoint := ⟨fun a b => a.number < b.number⟩

instance : LE CodePoint := ⟨fun a b => a.number ≤ b.number⟩

instance (a b : CodePoint) : Decidable (a < b) := inferInstanceAs (Decidable (a.number < b.number))

instance (a b : CodePoint) : Decidable (a ≤ b) := inferInstanceAs (Decidable (a.number ≤ b.number))

def isHalf (c : CodePoint) : Bool := 0xd800 ≤ c.number && c.number < 0xe000

/-- A half from DC80 to DCFF stands for a byte in the name of a file. -/
def isByteHalf (c : CodePoint) : Bool := 0xdc80 ≤ c.number && c.number < 0xdd00

/-! The classes of ASCII. -/

def isDigit (c : CodePoint) : Bool := '0' ≤ c && c ≤ '9'

def isUpper (c : CodePoint) : Bool := 'A' ≤ c && c ≤ 'Z'

def isLower (c : CodePoint) : Bool := 'a' ≤ c && c ≤ 'z'

def isAlpha (c : CodePoint) : Bool := c.isUpper || c.isLower

def isAlphanum (c : CodePoint) : Bool := c.isAlpha || c.isDigit

def toLower (c : CodePoint) : CodePoint := if c.isUpper then ofNat (c.number + 32) else c

@[simp] theorem isHalf_ofChar (c : Char) : (ofChar c).isHalf = false := by
  have h := c.valid
  simp only [UInt32.isValidChar, Nat.isValidChar] at h
  have e : (ofChar c).number = c.val.toNat := rfl
  simp only [isHalf, e, Bool.and_eq_false_iff, decide_eq_false_iff_not]
  omega

end CodePoint
end Rehost
