import Rehost.Text.Basic

/-! Texts are ordered code point by code point, and that order is total: of two texts one comes before the other unless
they are the same. -/
namespace Rehost

namespace CodePoint

theorem eq_of_number {a b : CodePoint} (h : a.number = b.number) : a = b := by
  cases a
  cases b
  simpa using h

instance : Std.IsLinearOrder CodePoint where
  le_refl a := Nat.le_refl a.number
  le_trans _ _ _ h h' := Nat.le_trans h h'
  le_antisymm _ _ h h' := eq_of_number (Nat.le_antisymm h h')
  le_total a b := Nat.le_total a.number b.number

instance : Std.LawfulOrderLT CodePoint where
  lt_iff _ _ := Nat.lt_iff_le_and_not_ge

end CodePoint

namespace Text

theorem le_total (s t : Text) : s ≤ t ∨ t ≤ s := List.le_total s t

theorem le_trans {s t u : Text} (h : s ≤ t) (h' : t ≤ u) : s ≤ u := List.le_trans h h'

theorem lt_of_le_of_ne {s t : Text} (h : s ≤ t) (hne : s ≠ t) : s < t :=
  List.not_le.1 fun h' => hne (List.le_antisymm h h')

end Text
end Rehost
