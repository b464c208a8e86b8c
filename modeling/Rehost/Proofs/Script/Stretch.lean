import Rehost.Proofs.Script.Replacement
import Rehost.Script.Capability

/-! What becomes of a stretch of a script when rules go on replacing matches around it. It moves with the text as long
as no match overlaps it, and the borders of some matches keep them off it. -/
namespace Rehost
open Pattern

def Text.StandsAt (x : Text) (i : Nat) (t : Text) : Prop := ∃ a b, t = a ++ x ++ b ∧ a.length = i

/-- Where a place comes to lie when a match is replaced: a place behind the match keeps its distance from the end. -/
def Match.moved (m : Match) (new : Text) (i : Nat) : Nat :=
  if m.stop.index ≤ i then m.start.index + new.length + (i - m.stop.index) else i

theorem Pattern.MatchedAt.standsAt {p : Pattern} {m : Match} {a w b : Text} (h : p.MatchedAt m a w b) {x : Text}
    {i : Nat} (hne : x ≠ []) (hx : x.StandsAt i (a ++ w ++ b)) (ho : m.overlaps i (i + x.length) = false) (new : Text) :
    x.StandsAt (m.moved new i) (a ++ new ++ b) := by
  obtain ⟨c, d, heq, rfl⟩ := hx
  have hpos := List.length_pos_iff.2 hne
  have hlen := congrArg List.length heq
  simp only [List.length_append] at hlen
  simp only [Match.overlaps, h.start_index, h.stop_index, Bool.and_eq_false_iff, decide_eq_false_iff_not] at ho
  have hc : c <+: a ++ w ++ b := ⟨x ++ d, by rw [heq, List.append_assoc]⟩
  have hcx : c ++ x <+: a ++ w ++ b := ⟨d, heq.symm⟩
  have ha : a <+: a ++ w ++ b := ⟨w ++ b, by rw [List.append_assoc]⟩
  have haw : a ++ w <+: a ++ w ++ b := ⟨b, rfl⟩
  by_cases hbehind : a.length + w.length ≤ c.length
  · -- The stretch lies behind the match.
    obtain ⟨e, rfl⟩ := List.prefix_of_prefix_length_le haw hc (by simp [hbehind])
    have hb : b = e ++ x ++ d := by simpa using heq
    refine ⟨a ++ new ++ e, d, by simp [hb], ?_⟩
    rw [Match.moved, if_pos (by rw [h.stop_index]; simp), h.start_index, h.stop_index]
    simp only [List.length_append]
    omega
  · obtain ⟨e, rfl⟩ := List.prefix_of_prefix_length_le hcx ha (by simp only [List.length_append]; omega)
    have hd : d = e ++ (w ++ b) := by simpa using heq.symm
    refine ⟨c, e ++ new ++ b, by simp, ?_⟩
    rw [Match.moved, if_neg (by rw [h.stop_index]; exact hbehind)]

theorem Rule.Replaces.standsAt {r : Rule} (he : r.landmark.pattern.isEdgeFree = true) {origin before after : Text}
    {m : Match} (h : r.Replaces origin before m after) {x : Text} {i : Nat} (hne : x ≠ []) (hx : x.StandsAt i before)
    (ho : m.overlaps i (i + x.length) = false) : x.StandsAt (m.moved (r.build m origin) i) after := by
  obtain ⟨a, w, b, hm, rfl⟩ := h.split he
  rw [hm.whole] at hx
  exact hm.standsAt hne hx ho _

theorem Rule.Replaces.overlaps_eq_false {r : Rule} (he : r.landmark.pattern.isEdgeFree = true)
    {origin before after : Text} {m : Match} (h : r.Replaces origin before m after) {a x b : Text}
    (hwhole : before = a ++ x ++ b) (havoids : r.landmark.pattern.Avoids a x b) :
    m.overlaps a.length (a.length + x.length) = false := by
  obtain ⟨u, w, v, hm, -⟩ := h.split he
  have := havoids u w v (hwhole.symm.trans hm.whole) hm.reads.denotes
  simp only [Match.overlaps, hm.start_index, hm.stop_index, Bool.and_eq_false_iff, decide_eq_false_iff_not]
  omega

/-- No word crosses the end of a text if none goes on behind a bar in it and none crosses the end of what follows the
bar. -/
theorem Pattern.apart_of_bar {p : Pattern} {c : CodePoint} (hbar : ∀ u v, c ∈ u → v ≠ [] → ¬ p.Denotes (u ++ v))
    {e b : Text} (he : p.Apart e b) (a : Text) : p.Apart (a ++ [c] ++ e) b := by
  intro u v hu hv hua hvb hw
  rw [List.append_assoc] at hua
  have htail : [c] ++ e <:+ a ++ ([c] ++ e) := List.suffix_append _ _
  rcases Nat.lt_or_ge e.length u.length with hlong | hshort
  · have hcu : [c] ++ e <:+ u := by
      refine List.suffix_of_suffix_length_le htail hua ?_
      simp only [List.length_append, List.length_singleton]
      omega
    exact hbar u v (hcu.subset (by simp)) hv hw
  · have hue : u <:+ e := List.suffix_of_suffix_length_le hua ((List.suffix_append _ _).trans htail) hshort
    exact he u v hu hv hue hvb hw

theorem Text.StandsAt.isInfix_of_insert {x a w b : Text} {i : Nat} (hx : x.StandsAt i (a ++ w ++ b))
    (hsplit : ∀ y z, x = y ++ z → y ≠ [] → z ≠ [] → ¬ y <:+ a ++ w) (s : Text) : x <:+: a ++ (w ++ s) ++ b := by
  obtain ⟨c, d, heq, -⟩ := hx
  have hc : c <+: a ++ w ++ b := ⟨x ++ d, by rw [heq, List.append_assoc]⟩
  have hcx : c ++ x <+: a ++ w ++ b := ⟨d, heq.symm⟩
  have haw : a ++ w <+: a ++ w ++ b := ⟨b, rfl⟩
  by_cases hbehind : (a ++ w).length ≤ c.length
  · obtain ⟨e, rfl⟩ := List.prefix_of_prefix_length_le haw hc hbehind
    have hb : b = e ++ x ++ d := by simpa using heq
    exact ⟨a ++ (w ++ s) ++ e, d, by simp [hb]⟩
  by_cases hfront : (c ++ x).length ≤ (a ++ w).length
  · obtain ⟨e, he⟩ := List.prefix_of_prefix_length_le hcx haw hfront
    refine ⟨c, e ++ s ++ b, ?_⟩
    rw [← List.append_assoc a w s, ← he]
    simp
  · -- The match ends inside the text.
    exfalso
    obtain ⟨y, hy⟩ := List.prefix_of_prefix_length_le hc haw (by omega)
    obtain ⟨z, hz⟩ := List.prefix_of_prefix_length_le haw hcx (by omega)
    have hxyz : x = y ++ z := by
      rw [← hy, List.append_assoc] at hz
      exact (List.append_cancel_left hz).symm
    refine hsplit y z hxyz ?_ ?_ ⟨c, hy⟩
    · rintro rfl
      rw [List.append_nil] at hy
      exact hbehind (by rw [hy])
    · rintro rfl
      rw [List.append_nil] at hz
      exact hfront (by rw [hz])

end Rehost
