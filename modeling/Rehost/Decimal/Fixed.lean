import Rehost.Decimal.Shortest

/-! Decimals with a fixed number of places. The exact value is rounded, and a tie goes to the even neighbour. -/
namespace Rehost.Decimal

/-- The nearest whole number to `num / den`, of two the even one. -/
def roundDiv (num den : Nat) : Nat :=
  let floor := num / den
  let twice := 2 * (num % den)
  if twice < den ∨ twice = den ∧ floor % 2 = 0 then floor else floor + 1

def renderFixed (names : SpecialNames) (places : Nat) (x : Binary64) : Text :=
  match x with
  | .nan => names.nan
  | .infinite _ => sign x ++ names.infinite
  | .finite _ mantissa exponent =>
    let (num, den) := Binary64.ratio mantissa exponent
    let ds := digitsOf (roundDiv (num * Nat.pow 10 places) den)
    let ds := zeros (places + 1 - ds.length) ++ ds
    let whole := ds.take (ds.length - places)
    sign x ++ (if places = 0 then whole else whole ++ "." ++ ds.drop (ds.length - places))

theorem roundDiv_near (num den : Nat) (h : 0 < den) :
    2 * num ≤ 2 * (den * roundDiv num den) + den ∧ 2 * (den * roundDiv num den) ≤ 2 * num + den := by
  have hd := Nat.div_add_mod num den
  have hl := Nat.mod_lt num h
  simp only [roundDiv]
  split
  · omega
  · rw [Nat.mul_add, Nat.mul_one]; omega

end Rehost.Decimal
