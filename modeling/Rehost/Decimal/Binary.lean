/-! Binary floating-point numbers taken apart: a finite one is `mantissa * 2 ^ exponent` exactly, so that all text about
it can be worked out in whole numbers. -/
namespace Rehost

inductive Binary64 where
  | nan
  | infinite (negative : Bool)
  | finite (negative : Bool) (mantissa : Nat) (exponent : Int)
deriving DecidableEq, Repr, Inhabited

namespace Binary64

def leastExponent : Int := -1074

/-- The mantissa at which numbers begin to lie twice as far apart. -/
def binadeStart : Nat := Nat.pow 2 52

def ofBits (bits : UInt64) : Binary64 :=
  let n := bits.toNat
  let negative := n / Nat.pow 2 63 = 1
  let field : Nat := n / binadeStart % Nat.pow 2 11
  let fraction := n % binadeStart
  if field = 2047 then if fraction = 0 then infinite negative else nan
  else if field = 0 then finite negative fraction leastExponent
  else finite negative (binadeStart + fraction) ((field : Int) - 1075)

def ofFloat (x : Float) : Binary64 := ofBits x.toBits

/-- The nearest number to a whole one; none if it lies beyond all of them. -/
def ofInt? (n : Int) : Option Binary64 :=
  let x := Float.ofScientific n.natAbs false 0
  match ofFloat (if n < 0 then -x else x) with
  | infinite _ => none
  | x => some x

def zero : Binary64 := finite false 0 leastExponent

def isZero : Binary64 → Bool
  | finite _ m _ => m = 0
  | _ => false

def isNegative : Binary64 → Bool
  | nan => false
  | infinite negative => negative
  | finite negative _ _ => negative

/-- A whole number as a number of halves, quarters and so on has a numerator and a denominator. -/
def ratio (mantissa : Nat) (exponent : Int) : Nat × Nat :=
  (mantissa * Nat.pow 2 exponent.toNat, Nat.pow 2 (-exponent).toNat)

def isInt (x : Binary64) (n : Int) : Bool :=
  match x with
  | finite negative m e =>
    let (num, den) := ratio m e
    n.natAbs * den = num && (m = 0 || negative == decide (n < 0))
  | _ => false

/-- Equality of values: the two zeros are equal, and no value equals one that is not a number. -/
def sameValue : Binary64 → Binary64 → Bool
  | nan, _ | _, nan => false
  | x, y => (x.isZero && y.isZero) || x = y

end Binary64
end Rehost
