import Rehost.Value.Basic

/-! The order of keys. Texts are ordered among themselves, and so are numbers with truth values; what is not a number
precedes nothing and is preceded by nothing, so where it ends up among other keys is up to the steps of sorting. -/
namespace Rehost.Value

inductive SortKey where
  | name (s : Text)
  | quantity (num : Int) (den : Nat)
  | above
  | below
  | other
deriving DecidableEq, Repr

def sortKey : Value → SortKey
  | text s => .name s
  | bool b => .quantity (if b then 1 else 0) 1
  | int n => .quantity n 1
  | number (.finite negative m e) =>
    let (num, den) := Binary64.ratio m e
    .quantity (if negative then -(num : Int) else num) den
  | number (.infinite negative) => if negative then .below else .above
  | _ => .other

def SortKey.precedes : SortKey → SortKey → Bool
  | .name s, .name t => decide (s < t)
  | .quantity a b, .quantity c d => a * d < c * b
  | .below, .quantity .. | .below, .above | .quantity .., .above => true
  | _, _ => false

/-- Keys have an order if all are texts or all are numbers; a single key needs none. -/
def haveOrder (keys : List Value) : Bool :=
  keys.length ≤ 1 || keys.all (fun k => match k with | text _ => true | _ => false) ||
    keys.all fun k => match k with | bool _ | int _ | number _ => true | _ => false

end Rehost.Value
