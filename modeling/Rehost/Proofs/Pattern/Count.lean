import Rehost.Proofs.Pattern.Place

/-! Counting matches. The matches of a pattern whose words never overlap each other are all its words in the text, so
their number is the number of places, and it splits at any stretch into those in front of it, those behind it and those
that overlap it. -/
namespace Rehost

def Match.overlaps (m : Match) (start stop : Nat) : Bool :=
  decide (m.start.index < stop) && decide (start < m.stop.index)

namespace Pattern

theorem mem_matchesFrom {p : Pattern} {skip : Nat} {b t : Text} {m : Match} (h : m ∈ p.matchesFrom skip b t) :
    ∃ u w r, t = u ++ w ++ r ∧ skip ≤ u.length ∧ p.MatchedAt m (b.reverse ++ u) w r := by
  induction t generalizing skip b with
  | nil =>
    cases skip with
    | zero =>
      obtain ⟨w, r, ht, hm⟩ := matchedAt_of_matchAt? (Option.mem_toList.1 h)
      exact ⟨[], w, r, ht, Nat.le_refl _, by simpa using hm⟩
    | succ skip => simp [matchesFrom] at h
  | cons c t ih =>
    cases skip with
    | zero =>
      rw [matchesFrom_cons] at h
      split at h
      · next m₁ hm₁ =>
        rcases List.mem_cons.1 h with rfl | h
        · obtain ⟨w, r, ht, hm⟩ := matchedAt_of_matchAt? hm₁
          exact ⟨[], w, r, ht, Nat.zero_le _, by simpa using hm⟩
        · obtain ⟨u, w, r, rfl, -, hm⟩ := ih h
          exact ⟨c :: u, w, r, rfl, Nat.zero_le _, by simpa using hm⟩
      · obtain ⟨u, w, r, rfl, -, hm⟩ := ih h
        exact ⟨c :: u, w, r, rfl, Nat.zero_le _, by simpa using hm⟩
    | succ skip =>
      have h : m ∈ p.matchesFrom skip (c :: b) t := h
      obtain ⟨u, w, r, rfl, hskip, hm⟩ := ih h
      exact ⟨c :: u, w, r, rfl, Nat.succ_le_succ hskip, by simpa using hm⟩

theorem stop_le_of_matchesFrom {p : Pattern} {skip : Nat} {b t : Text} {m₀ : Match} {ms : List Match}
    (h : p.matchesFrom skip b t = m₀ :: ms) {m : Match} (hm : m ∈ ms) : m₀.stop.index ≤ m.start.index := by
  induction t generalizing skip b with
  | nil =>
    cases skip with
    | zero =>
      have hlen := congrArg List.length h
      have := Option.length_toList_le (o := p.matchAt? ⟨b, []⟩)
      simp only [matchesFrom, List.length_cons] at hlen
      have := List.length_pos_of_mem hm
      omega
    | succ skip => simp [matchesFrom] at h
  | cons c t ih =>
    cases skip with
    | zero =>
      rw [matchesFrom_cons] at h
      split at h
      · next m₁ hm₁ =>
        obtain ⟨rfl, rfl⟩ := List.cons.inj h
        obtain ⟨w, r, -, hat⟩ := matchedAt_of_matchAt? hm₁
        obtain ⟨u, w', r', -, hskip, hat'⟩ := mem_matchesFrom hm
        rw [hat.text_eq] at hskip
        rw [hat.stop_index, hat'.start_index]
        simp only [List.length_append, List.length_reverse, List.length_cons]
        omega
      · exact ih h
    | succ skip =>
      have h : p.matchesFrom skip (c :: b) t = m₀ :: ms := h
      exact ih h

/-- Words that begin at different places never overlap, and at one place there is one word at most. -/
structure Discrete (p : Pattern) : Prop where
  edgeFree : p.isEdgeFree = true
  nonempty : ¬ p.Denotes []
  inside : ∀ x y r, x ≠ [] → y ≠ [] → p.Denotes (x ++ y) → ¬ p.opens (y ++ r)
  unique : ∀ w w' r r', p.Denotes w → p.Denotes w' → w ++ r = w' ++ r' → w = w'

/-- The matches at all places of a text with something behind it, whether they overlap or not. -/
def along (p : Pattern) : (before a rest : Text) → List Match
  | _, [], _ => []
  | b, c :: a, rest => (p.matchAt? ⟨b, c :: (a ++ rest)⟩).toList ++ p.along (c :: b) a rest

theorem along_append (p : Pattern) (b a a' rest : Text) :
    p.along b (a ++ a') rest = p.along b a (a' ++ rest) ++ p.along (a.reverse ++ b) a' rest := by
  induction a generalizing b with
  | nil => rfl
  | cons c a ih => simp [along, ih]

variable {p : Pattern}

theorem mem_along {b a rest : Text} {m : Match} (h : m ∈ p.along b a rest) :
    ∃ u v w r, a = u ++ v ∧ v ≠ [] ∧ v ++ rest = w ++ r ∧ p.MatchedAt m (b.reverse ++ u) w r := by
  induction a generalizing b with
  | nil => simp [along] at h
  | cons c a ih =>
    simp only [along, List.mem_append, Option.mem_toList] at h
    rcases h with h | h
    · obtain ⟨w, r, heq, hm⟩ := matchedAt_of_matchAt? h
      exact ⟨[], c :: a, w, r, rfl, by simp, heq, by simpa using hm⟩
    · obtain ⟨u, v, w, r, rfl, hv, heq, hm⟩ := ih h
      exact ⟨c :: u, v, w, r, rfl, hv, heq, by simpa using hm⟩

theorem Discrete.apart (hp : p.Discrete) {w : Text} (hw : p.Denotes w) (a b : Text) : p.Apart (a ++ w) b := by
  rintro u v hu hv ⟨y, hy⟩ - huv
  rcases List.append_eq_append_iff.1 hy with ⟨x, -, rfl⟩ | ⟨x, -, rfl⟩
  · -- The word across the end begins with `w` or has `w` inside it.
    by_cases hx : x = []
    · subst hx
      have hwv : w = w ++ v := hp.unique w (w ++ v) v [] hw huv (by simp)
      exact hv (by simpa using hwv)
    · have hwv : w ++ v ≠ [] := by simp [hv]
      rw [List.append_assoc] at huv
      exact hp.inside x (w ++ v) [] hx hwv huv ⟨w, v, by simp, hw⟩
  · by_cases hx : x = []
    · subst hx
      have huv' : u = u ++ v := hp.unique u (u ++ v) v [] hw huv (by simp)
      exact hv (by simpa using huv')
    · exact hp.inside x u v hx hu hw ⟨u ++ v, [], by simp, huv⟩

theorem Discrete.matchesFrom_eq (hp : p.Discrete) {skip : Nat} {b a : Text}
    (hskip : ∀ u v, a = u ++ v → u.length < skip → ¬ p.opens v) : p.matchesFrom skip b a = p.along b a [] := by
  induction a generalizing skip b with
  | nil =>
    have hnone : p.matchAt? ⟨b, []⟩ = none := by
      rw [matchAt?_eq_none_iff hp.edgeFree]
      rintro ⟨w, r, heq, hw⟩
      obtain ⟨rfl, rfl⟩ := List.append_eq_nil_iff.1 heq.symm
      exact hp.nonempty hw
    cases skip with
    | zero => simp [matchesFrom, along, hnone]
    | succ skip => rfl
  | cons c a ih =>
    cases skip with
    | zero =>
      rw [matchesFrom_cons]
      cases h : p.matchAt? ⟨b, c :: a⟩ with
      | none => simp [along, h, ih]
      | some m =>
        -- The places that the search leaves out lie inside the word that it has found.
        obtain ⟨w, r, heq, hm⟩ := matchedAt_of_matchAt? h
        have hrest : p.matchesFrom (m.text.length - 1) (c :: b) a = p.along (c :: b) a [] := by
          apply ih
          intro u v hv hlen hopens
          rw [hm.text_eq] at hlen
          have hua : c :: u <+: c :: a := ⟨v, by simp [hv]⟩
          have hwa : w <+: c :: a := ⟨r, heq.symm⟩
          have hcu : c :: u <+: w := by
            refine List.prefix_of_prefix_length_le hua hwa ?_
            simp only [List.length_cons]
            omega
          obtain ⟨y, rfl⟩ := hcu
          have hy : y ≠ [] := by
            rintro rfl
            simp at hlen
          have hv' : v = y ++ r := by
            rw [hv] at heq
            simpa using heq
          exact hp.inside (c :: u) y r (by simp) hy hm.reads.denotes (hv' ▸ hopens)
        simp [along, h, hrest]
    | succ skip =>
      have hc : p.matchAt? ⟨b, c :: a⟩ = none :=
        (matchAt?_eq_none_iff hp.edgeFree).2 (hskip [] (c :: a) rfl (by simp))
      have hrest : p.matchesFrom skip (c :: b) a = p.along (c :: b) a [] :=
        ih fun u v hv hlen => hskip (c :: u) v (by simp [hv]) (by simpa using hlen)
      simp [matchesFrom, along, hc, hrest]

theorem Discrete.findAll_eq (hp : p.Discrete) (t : Text) : p.findAll t = p.along [] t [] :=
  hp.matchesFrom_eq fun _ _ _ h => by simp at h

theorem Discrete.countP_stop_le (hp : p.Discrete) (b a rest : Text) :
    (p.along b a rest).countP (fun m => m.stop.index ≤ b.length + a.length) = p.places a := by
  induction a generalizing b with
  | nil => rfl
  | cons c a ih =>
    have ih := ih (c :: b)
    have hlen : (c :: b).length + a.length = b.length + (c :: a).length := by
      simp only [List.length_cons]
      omega
    rw [hlen] at ih
    have hhead : (p.matchAt? ⟨b, c :: (a ++ rest)⟩).toList.countP (fun m => m.stop.index ≤ b.length + (c :: a).length) =
        if (p.matchAt? ⟨[], c :: a⟩).isSome then 1 else 0 := by
      cases h : p.matchAt? ⟨b, c :: (a ++ rest)⟩ with
      | none =>
        have hshort : (p.matchAt? ⟨[], c :: a⟩).isSome ≠ true := by
          rw [Ne, isSome_matchAt?_iff hp.edgeFree]
          exact fun hopens => (matchAt?_eq_none_iff hp.edgeFree).1 h (hopens.append rest)
        simp [hshort]
      | some m =>
        obtain ⟨w, r, heq, hm⟩ := matchedAt_of_matchAt? h
        have hstop : m.stop.index = b.length + w.length := by simpa using hm.stop_index
        have hiff : w.length ≤ (c :: a).length ↔ (p.matchAt? ⟨[], c :: a⟩).isSome = true := by
          rw [isSome_matchAt?_iff hp.edgeFree]
          constructor
          · intro hle
            obtain ⟨x, hx⟩ := List.prefix_of_prefix_length_le ⟨r, heq.symm⟩ ⟨rest, rfl⟩ hle
            exact ⟨w, x, hx.symm, hm.reads.denotes⟩
          · rintro ⟨w', x, hx, hw'⟩
            have hw : w = w' := hp.unique w w' r (x ++ rest) hm.reads.denotes hw' (by
              rw [← heq, ← List.append_assoc, ← hx, List.cons_append])
            rw [hx, hw, List.length_append]
            omega
        by_cases hle : w.length ≤ (c :: a).length
        · simpa [hstop, hiff.1 hle] using hle
        · simpa [hstop, mt hiff.2 hle] using hle
    rw [along, List.countP_append, hhead, ih]
    rfl

theorem Discrete.countP_le_start (hp : p.Discrete) (b a rest : Text) :
    (p.along b (a ++ rest) []).countP (fun m => b.length + a.length ≤ m.start.index) = p.places rest := by
  have hfront : (p.along b a (rest ++ [])).countP (fun m => b.length + a.length ≤ m.start.index) = 0 := by
    rw [List.countP_eq_zero]
    intro m hm
    obtain ⟨u, v, w, r, rfl, hv, -, hm⟩ := mem_along hm
    have := List.length_pos_iff.2 hv
    simp only [hm.start_index, List.length_append, List.length_reverse, decide_eq_true_eq]
    omega
  have hrest : (p.along (a.reverse ++ b) rest []).countP (fun m => b.length + a.length ≤ m.start.index) =
      (p.along (a.reverse ++ b) rest []).countP
        (fun m => m.stop.index ≤ (a.reverse ++ b).length + rest.length) := by
    apply List.countP_congr
    intro m hm
    obtain ⟨u, v, w, r, rfl, -, heq, hm⟩ := mem_along hm
    have hlen := congrArg List.length heq
    simp only [List.length_append, List.length_nil] at hlen
    simp only [hm.start_index, hm.stop_index, List.length_append, List.length_reverse, decide_eq_true_eq]
    omega
  rw [along_append, List.countP_append, hfront, hrest, hp.countP_stop_le]
  omega

theorem Discrete.count_eq_places (hp : p.Discrete) (t : Text) : p.count t = p.places t := by
  have h := hp.countP_le_start [] [] t
  simpa [count, hp.findAll_eq] using h

theorem Discrete.start_lt_stop (hp : p.Discrete) {t : Text} {m : Match} (h : m ∈ p.findAll t) :
    m.start.index < m.stop.index := by
  rw [hp.findAll_eq] at h
  obtain ⟨u, v, w, r, -, -, -, hm⟩ := mem_along h
  have hw : w ≠ [] := fun h => hp.nonempty (h ▸ hm.reads.denotes)
  have := List.length_pos_iff.2 hw
  rw [hm.start_index, hm.stop_index]
  omega

theorem Discrete.countP_front (hp : p.Discrete) (a b : Text) :
    (p.findAll (a ++ b)).countP (fun m => m.stop.index ≤ a.length) = p.count a := by
  have hbehind : (p.along a.reverse b []).countP (fun m => m.stop.index ≤ a.length) = 0 := by
    rw [List.countP_eq_zero]
    intro m hm
    obtain ⟨u, v, w, r, -, -, -, hm⟩ := mem_along hm
    have hw : w ≠ [] := fun h => hp.nonempty (h ▸ hm.reads.denotes)
    have := List.length_pos_iff.2 hw
    simp only [hm.stop_index, List.length_append, List.length_reverse, decide_eq_true_eq]
    omega
  have hfront := hp.countP_stop_le [] a b
  rw [List.length_nil, Nat.zero_add] at hfront
  rw [hp.count_eq_places, hp.findAll_eq, along_append, List.countP_append, List.append_nil, List.append_nil,
    hfront, hbehind]
  omega

theorem length_eq_countP_add {α : Type} (P Q R : α → Bool) (l : List α)
    (h : ∀ x ∈ l, P x = true ∧ Q x = false ∧ R x = false ∨ P x = false ∧ Q x = true ∧ R x = false ∨
      P x = false ∧ Q x = false ∧ R x = true) : l.length = l.countP P + l.countP Q + l.countP R := by
  induction l with
  | nil => rfl
  | cons x l ih =>
    have ih := ih fun y hy => h y (by simp [hy])
    rcases h x (by simp) with ⟨hP, hQ, hR⟩ | ⟨hP, hQ, hR⟩ | ⟨hP, hQ, hR⟩ <;>
      simp only [List.length_cons, List.countP_cons, hP, hQ, hR, ih, ↓reduceIte, Bool.false_eq_true] <;> omega

/-- A stretch splits the count into what stands in front of it, what stands behind it and what overlaps it. -/
theorem Discrete.count_append (hp : p.Discrete) (a x b : Text) :
    p.count (a ++ x ++ b) =
      p.count a + p.count b + (p.findAll (a ++ x ++ b)).countP (·.overlaps a.length (a.length + x.length)) := by
  have hfront : (p.findAll (a ++ x ++ b)).countP (fun m => m.stop.index ≤ a.length) = p.count a := by
    rw [List.append_assoc]
    exact hp.countP_front a (x ++ b)
  have hbehind : (p.findAll (a ++ x ++ b)).countP (fun m => a.length + x.length ≤ m.start.index) = p.count b := by
    have h := hp.countP_le_start [] (a ++ x) b
    simpa [hp.findAll_eq, hp.count_eq_places] using h
  rw [← hfront, ← hbehind]
  apply length_eq_countP_add
  intro m hm
  have hlt := hp.start_lt_stop hm
  simp only [Match.overlaps, decide_eq_true_eq, decide_eq_false_iff_not, Bool.and_eq_true, Bool.and_eq_false_iff]
  omega

end Pattern
end Rehost
