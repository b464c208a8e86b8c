import Rehost.Proofs.Pattern.Place

/-! Searching on from a place. A search finds the first place behind it at which a word stands, and the matches that are
counted are found one after another, each from the end of the one before. -/
namespace Rehost.Pattern

/-- The first match from a place on: no word begins between the place and it. -/
structure First (p : Pattern) (s : Spot) (m : Match) (a w b : Text) : Prop where
  atPlace : p.MatchedAt m (s.before.reverse ++ a) w b
  whole : s.after = a ++ w ++ b
  first : ∀ u v, s.after = u ++ v → p.opens v → a.length ≤ u.length

/-- The matches from a place on: each is the first one from the end of the one before, and behind the last one there is
no word. -/
inductive Scan (p : Pattern) : Spot → List Match → Prop
  | done {s : Spot} (none : ¬ p.standsIn s.after) : Scan p s []
  | found {s : Spot} {m : Match} {ms : List Match} {a w b : Text} (first : p.First s m a w b)
      (rest : Scan p m.stop ms) : Scan p s (m :: ms)

variable {p : Pattern}

theorem First.standsIn {s : Spot} {m : Match} {a w b : Text} (h : p.First s m a w b) : p.standsIn s.after :=
  ⟨a, w, b, h.whole, h.atPlace.reads.denotes⟩

theorem First.opens {s : Spot} {m : Match} {a w b : Text} (h : p.First s m a w b) : p.opens (w ++ b) :=
  ⟨w, b, rfl, h.atPlace.reads.denotes⟩

theorem First.unique {s : Spot} {m m' : Match} {a w b a' w' b' : Text} (h : p.First s m a w b)
    (h' : p.First s m' a' w' b') : m = m' := by
  have hwhole : s.after = a ++ (w ++ b) := by simp [h.whole]
  have hwhole' : s.after = a' ++ (w' ++ b') := by simp [h'.whole]
  have hlen : a.length = a'.length :=
    Nat.le_antisymm (h.first _ _ hwhole' h'.opens) (h'.first _ _ hwhole h.opens)
  obtain ⟨rfl, hrest⟩ := List.append_inj (hwhole.symm.trans hwhole') hlen
  have hm := h.atPlace.matched
  rw [hrest] at hm
  exact Option.some.inj (hm.symm.trans h'.atPlace.matched)

theorem first_of_searchFrom? (he : p.isEdgeFree = true) {s : Spot} {m : Match}
    (h : p.searchFrom? 0 s.before s.after = some m) : ∃ a w b, p.First s m a w b := by
  obtain ⟨a, w, b, hwhole, hm, hnone⟩ := searchFrom?_eq_some h
  exact ⟨a, w, b, hm, hwhole, fun u v hu hv => length_le_of_passed he hnone (hwhole ▸ hu) hv⟩

theorem searchFrom?_eq_none_iff (he : p.isEdgeFree = true) {b t : Text} :
    p.searchFrom? 0 b t = none ↔ ¬ p.standsIn t := by
  constructor
  · rintro h ⟨a, w, r, rfl, hw⟩
    refine (matchAt?_eq_none_iff he).1 (searchFrom?_eq_none h a (w ++ r) (by simp)) ?_
    exact ⟨w, r, rfl, hw⟩
  · intro h
    cases hm : p.searchFrom? 0 b t with
    | none => rfl
    | some m =>
      obtain ⟨a, w, r, hfirst⟩ := first_of_searchFrom? (s := ⟨b, t⟩) he hm
      exact absurd hfirst.standsIn h

theorem findAll_eq_nil_iff (he : p.isEdgeFree = true) {t : Text} : p.findAll t = [] ↔ ¬ p.standsIn t := by
  rw [← List.head?_eq_none_iff, head?_findAll]
  exact searchFrom?_eq_none_iff he

theorem Scan.unique {s : Spot} {ms ms' : List Match} (h : p.Scan s ms) (h' : p.Scan s ms') : ms = ms' := by
  induction h generalizing ms' with
  | done hnone =>
    cases h' with
    | done => rfl
    | found first => exact absurd first.standsIn hnone
  | found first rest ih =>
    cases h' with
    | done hnone => exact absurd first.standsIn hnone
    | found first' rest' =>
      obtain rfl := first.unique first'
      rw [ih rest']

theorem Scan.cons {b t : Text} {c : CodePoint} {ms : List Match} (h : p.Scan ⟨c :: b, t⟩ ms)
    (hc : ¬ p.opens (c :: t)) : p.Scan ⟨b, c :: t⟩ ms := by
  have hfirst : ∀ {u v : Text}, c :: t = u ++ v → p.opens v → ∃ u', u = c :: u' ∧ t = u' ++ v := by
    intro u v huv hv
    cases u with
    | nil =>
      rw [List.nil_append] at huv
      exact absurd (huv ▸ hv) hc
    | cons d u =>
      obtain ⟨rfl, rfl⟩ := List.cons.inj huv
      exact ⟨u, rfl, rfl⟩
  cases h with
  | done hnone =>
    refine .done ?_
    rintro ⟨a, w, r, heq, hw⟩
    obtain ⟨a', -, ht⟩ := hfirst (heq.trans (List.append_assoc a w r)) ⟨w, r, rfl, hw⟩
    exact hnone ⟨a', w, r, by simp [ht], hw⟩
  | @found _ m _ a w r first rest =>
    refine .found (a := c :: a) (w := w) (b := r) ⟨?_, ?_, ?_⟩ rest
    · simpa using first.atPlace
    · simpa using first.whole
    · intro u v huv hv
      obtain ⟨u', rfl, ht⟩ := hfirst huv hv
      simpa using first.first u' v ht hv

theorem matchesFrom_skip (p : Pattern) (u b r : Text) :
    p.matchesFrom u.length b (u ++ r) = p.matchesFrom 0 (u.reverse ++ b) r := by
  induction u generalizing b with
  | nil => rfl
  | cons c u ih => simpa [matchesFrom] using ih (c :: b)

/-- What is counted is a scan. Words are not empty, so the next search begins behind the match. -/
theorem scan_matchesFrom (he : p.isEdgeFree = true) (hn : ¬ p.Denotes []) (b t : Text) :
    p.Scan ⟨b, t⟩ (p.matchesFrom 0 b t) := by
  induction hlen : t.length using Nat.strong_induction_on generalizing b t with
  | h n ih =>
  subst hlen
  cases t with
  | nil =>
    have hnone : p.matchAt? ⟨b, []⟩ = none := by
      rw [matchAt?_eq_none_iff he]
      rintro ⟨w, r, heq, hw⟩
      obtain ⟨rfl, rfl⟩ := List.append_eq_nil_iff.1 heq.symm
      exact hn hw
    simp only [matchesFrom, hnone, Option.toList_none]
    refine .done ?_
    rintro ⟨a, w, r, heq, hw⟩
    obtain ⟨haw, rfl⟩ := List.append_eq_nil_iff.1 heq.symm
    obtain ⟨rfl, rfl⟩ := List.append_eq_nil_iff.1 haw
    exact hn hw
  | cons c t =>
    rw [matchesFrom_cons]
    cases h : p.matchAt? ⟨b, c :: t⟩ with
    | none => exact (ih t.length (by simp) (c :: b) t rfl).cons ((matchAt?_eq_none_iff he).1 h)
    | some m =>
      obtain ⟨w, r, heq, hm⟩ := matchedAt_of_matchAt? h
      refine .found (a := []) (w := w) (b := r) ⟨by simpa using hm, heq, by simp⟩ ?_
      cases w with
      | nil => exact absurd hm.reads.denotes hn
      | cons d w =>
        obtain ⟨rfl, rfl⟩ : c = d ∧ t = w ++ r := by simpa using heq
        have hskip := p.matchesFrom_skip w (c :: b) r
        have hstop : m.stop = ⟨w.reverse ++ c :: b, r⟩ := by simp [hm.stop_eq]
        simp only [hm.text_eq, List.length_cons, Nat.add_sub_cancel, hskip, hstop]
        exact ih r.length (by simp only [List.length_cons, List.length_append]; omega) _ _ rfl

theorem scan_iff (he : p.isEdgeFree = true) (hn : ¬ p.Denotes []) {t : Text} {ms : List Match} :
    p.Scan (.start t) ms ↔ ms = p.findAll t := by
  have hscan : p.Scan (.start t) (p.findAll t) := scan_matchesFrom he hn [] t
  constructor
  · exact fun h => h.unique hscan
  · rintro rfl
    exact hscan

end Rehost.Pattern
