/-! Places in a list that is in order: everything behind the place is to come later than some element, everything before
it is not. The place is found by halving, or first by steps of growing width where it is likely to be near. -/
namespace Rehost.Sort

def halve (isBehind : Nat → Bool) (low high : Nat) : Nat :=
  if low < high then
    let middle := (low + high) / 2
    if isBehind middle then halve isBehind low middle else halve isBehind (middle + 1) high
  else low
termination_by high - low

/-- Widens a step as long as it `goesOn` and is below the limit: the last step that does, and the next one. -/
def widen (goesOn : Nat → Bool) (limit near far : Nat) : Nat × Nat :=
  if far < limit then if goesOn far then widen goesOn limit far (2 * far + 1) else (near, far) else (near, limit)
termination_by limit - far

/-- The first place among `size` that lies behind, looked for on either side of a hint. -/
def gallop (isBehind : Nat → Bool) (size hint : Nat) : Nat :=
  if isBehind hint then
    let (near, far) := widen (fun step => isBehind (hint - step)) (hint + 1) 0 1
    halve isBehind (hint + 1 - far) (hint - near)
  else
    let (near, far) := widen (fun step => !isBehind (hint + step)) (size - hint) 0 1
    halve isBehind (hint + near + 1) (hint + far)

theorem halve_bounds (isBehind : Nat → Bool) {low high : Nat} (h : low ≤ high) :
    low ≤ halve isBehind low high ∧ halve isBehind low high ≤ high := by
  fun_induction halve isBehind low high <;> omega

end Rehost.Sort
