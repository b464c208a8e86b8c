import Rehost.Proofs.Pattern.OneWay

/-! A pattern read from right to left. Where the mirrored pattern reads in one way only, two of its words that end at
one place are the same word, unless one of them could go on to the left. -/
namespace Rehost.Pattern

/-- The pattern of the reversed words. What groups hold does not matter here, so they are left out. -/
@[simp] def mirror : Pattern → Pattern
  | exactly t => exactly t.reverse
  | seq p q => seq q.mirror p.mirror
  | either p q => either p.mirror q.mirror
  | group _ p => p.mirror
  | p => p

theorem denotes_mirror (p : Pattern) (w : Text) : p.mirror.Denotes w.reverse ↔ p.Denotes w := by
  induction p generalizing w with
  | nothing | wordEdge => simp [Denotes]
  | exactly t => exact List.reverse_inj
  | one accepts =>
    constructor
    · rintro ⟨c, hc, hw⟩
      exact ⟨c, hc, by simpa using hw⟩
    · rintro ⟨c, hc, rfl⟩
      exact ⟨c, hc, rfl⟩
  | most accepts | most1 accepts | fewest accepts => simp [Denotes]
  | seq p q ihp ihq =>
    constructor
    · rintro ⟨v, u, hw, hv, hu⟩
      refine ⟨u.reverse, v.reverse, ?_, (ihp _).1 (by simpa using hu), (ihq _).1 (by simpa using hv)⟩
      rw [← List.reverse_append, ← hw, List.reverse_reverse]
    · rintro ⟨u, v, rfl, hu, hv⟩
      exact ⟨v.reverse, u.reverse, List.reverse_append, (ihq v).2 hv, (ihp u).2 hu⟩
  | either p q ihp ihq => exact or_congr (ihp w) (ihq w)
  | group _ p ih => exact ih w

def StopsBehind (p : Pattern) (t : Text) : Prop := p.mirror.Stops t.reverse

/-- Words of a pattern that reads in one way from right to left are determined by the text in front of their end. -/
theorem eq_of_append_eq {p : Pattern} (h : p.mirror.OneWay) {a a' w w' : Text} (hw : p.Denotes w)
    (hw' : p.Denotes w') (heq : a ++ w = a' ++ w') (ha : p.StopsBehind a) (ha' : p.StopsBehind a') : w = w' := by
  obtain ⟨g, hg⟩ := (denotes_iff_reads _ _).1 ((p.denotes_mirror w).2 hw)
  obtain ⟨g', hg'⟩ := (denotes_iff_reads _ _).1 ((p.denotes_mirror w').2 hw')
  have hrev : w.reverse ++ a.reverse = w'.reverse ++ a'.reverse := by
    rw [← List.reverse_append, heq, List.reverse_append]
  exact List.reverse_inj.1 (h.unique hg hg' hrev ha ha').1

theorem eq_nil_of_append {p : Pattern} (h : p.mirror.OneWay) (hstop : ∀ c, ¬ p.mirror.grows c) {x w : Text}
    (hw : p.Denotes w) (hxw : p.Denotes (x ++ w)) : x = [] := by
  have heq : x ++ w = [] ++ (x ++ w) := rfl
  have := eq_of_append_eq h hw hxw heq (fun c _ => hstop c) (fun c _ => hstop c)
  simpa using this

theorem OneWay.held_unique {p : Pattern} (h : p.OneWay) {w : Text} {g g' : Holdings} (hw : p.Reads w g)
    (hw' : p.Reads w g') : g = g' :=
  (h.unique hw hw' (r := []) rfl (stops_nil p) (stops_nil p)).2

end Rehost.Pattern
