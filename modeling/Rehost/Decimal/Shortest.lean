import Rehost.Decimal.Binary
import Rehost.Text.Basic

/-! The decimal with the fewest digits that reads back to a given binary number. For one, two, and so on digits the two
neighbours of the number on that decimal grid are tried; the first grid with a neighbour that reads back wins, and of
two the nearer one, a tie going to the even one. -/
namespace Rehost.Decimal

/-- `digits * 10 ^ exponent`. -/
structure Scaled where
  digits : Nat
  exponent : Int
deriving DecidableEq, Repr

def digitsOf (n : Nat) : Text := (Nat.toDigits 10 n).map .ofChar

/-- The bounds of the reals that round to `mantissa * 2 ^ exponent`, in units of `2 ^ (exponent - 2)`: below the start
of a binade the neighbour is only half as far. -/
def bounds (mantissa : Nat) (exponent : Int) : Nat × Nat :=
  let below := if mantissa = Binary64.binadeStart ∧ Binary64.leastExponent < exponent then 1 else 2
  (4 * mantissa - below, 4 * mantissa + 2)

def compareWith (d : Nat) (t : Int) (n : Nat) (q : Int) : Ordering :=
  compare (d * Nat.pow 10 t.toNat * Nat.pow 2 (-q).toNat) (n * Nat.pow 2 q.toNat * Nat.pow 10 (-t).toNat)

/-- Whether a decimal rounds to the number; the bounds themselves do exactly where the mantissa is even. -/
def readsBack (mantissa : Nat) (exponent : Int) (s : Scaled) : Bool :=
  let (low, high) := bounds mantissa exponent
  let even := mantissa % 2 = 0
  (match compareWith s.digits s.exponent low (exponent - 2) with | .gt => true | .eq => even | .lt => false) &&
  (match compareWith s.digits s.exponent high (exponent - 2) with | .lt => true | .eq => even | .gt => false)

def gridFloor (mantissa : Nat) (exponent t : Int) : Nat × Nat × Nat :=
  let num := mantissa * Nat.pow 2 exponent.toNat * Nat.pow 10 (-t).toNat
  let den := Nat.pow 2 (-exponent).toNat * Nat.pow 10 t.toNat
  (num / den, num % den, den)

def onGrid? (mantissa : Nat) (exponent t : Int) : Option Scaled :=
  let (floor, rest, den) := gridFloor mantissa exponent t
  let low : Scaled := ⟨floor, t⟩
  let high : Scaled := ⟨floor + 1, t⟩
  match readsBack mantissa exponent low, readsBack mantissa exponent high with
  | false, false => none
  | true, false => some low
  | false, true => some high
  | true, true =>
    match compare (2 * rest) den with
    | .lt => some low
    | .gt => some high
    | .eq => some (if floor % 2 = 0 then low else high)

def leading (mantissa : Nat) (exponent : Int) : Int :=
  let (num, den) := Binary64.ratio mantissa exponent
  let guess : Int := (digitsOf num).length - (digitsOf den).length
  if num * Nat.pow 10 (-guess).toNat < den * Nat.pow 10 guess.toNat then guess - 1 else guess

def dropZeros : (fuel : Nat) → Scaled → Scaled
  | 0, s => s
  | fuel + 1, s => if s.digits % 10 = 0 then dropZeros fuel ⟨s.digits / 10, s.exponent + 1⟩ else s

/-- Seventeen digits always suffice. -/
def shortest (mantissa : Nat) (exponent : Int) : Scaled :=
  let top := leading mantissa exponent
  match (List.range 17).findSome? fun k : Nat => onGrid? mantissa exponent (top - k) with
  | some s => dropZeros 20 s
  | none => ⟨mantissa, exponent⟩

structure SpecialNames where
  nan : Text
  infinite : Text

def zeros (count : Nat) : Text := List.replicate count '0'

/-- Positional for leading digits from 10⁻⁴ to 10¹⁵, always with a point; else one digit before the point and an
exponent of two digits at least. -/
def layout (s : Scaled) : Text :=
  let ds := digitsOf s.digits
  let point : Int := ds.length + s.exponent
  if -4 < point ∧ point ≤ 16 then
    if point ≤ 0 then "0." ++ zeros (-point).toNat ++ ds
    else if ds.length ≤ point.toNat then ds ++ zeros (point.toNat - ds.length) ++ ".0"
    else ds.take point.toNat ++ "." ++ ds.drop point.toNat
  else
    let e := point - 1
    let fraction : Text := if ds.length = 1 then [] else "." ++ ds.drop 1
    let power := digitsOf e.natAbs
    ds.take 1 ++ fraction ++ (if e < 0 then "e-" else "e+") ++ zeros (2 - power.length) ++ power

def sign (x : Binary64) : Text := if x.isNegative then "-" else ""

def render (names : SpecialNames) (x : Binary64) : Text :=
  match x with
  | .nan => names.nan
  | .infinite _ => sign x ++ names.infinite
  | .finite _ mantissa exponent =>
    sign x ++ (if mantissa = 0 then ("0.0" : Text) else layout (shortest mantissa exponent))

end Rehost.Decimal
