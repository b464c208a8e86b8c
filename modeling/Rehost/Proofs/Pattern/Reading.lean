import Rehost.Pattern.Language

/-! What a pattern reads: its words together with what its groups hold. A run of a pattern reads a word and goes on
behind it, and it fails only where no reading leads on. So a search finds the first place at which a word stands. -/
namespace Rehost

abbrev Holdings := List (Option Text × Text)

namespace Capture

def held (c : Capture) : Option Text × Text := (c.name, c.text)

end Capture

namespace Match

def held (m : Match) : Holdings := m.captures.map Capture.held

def front (m : Match) : Text := m.start.before.reverse

def rest (m : Match) : Text := m.stop.after

theorem splice_eq (m : Match) (new : Text) : m.splice new = m.front ++ new ++ m.rest := rfl

theorem named?_eq (m : Match) (name : Text) :
    m.named? name = (m.held.find? (·.1 = some name)).map Prod.snd := by
  unfold named? held
  induction m.captures with
  | nil => rfl
  | cons c cs ih =>
    by_cases h : c.name = some name
    · simp [Capture.held, h]
    · simpa [Capture.held, h] using ih

theorem named_congr {m m' : Match} (h : m.held = m'.held) (name : Text) : m.named name = m'.named name := by
  simp only [named, named?_eq, h]

end Match

namespace Pattern

def Reads : Pattern → Text → Holdings → Prop
  | nothing, w, g => w = [] ∧ g = []
  | exactly t, w, g => w = t ∧ g = []
  | one accepts, w, g => (∃ c, accepts c = true ∧ w = [c]) ∧ g = []
  | seq p q, w, g => ∃ u v gu gv, w = u ++ v ∧ g = gu ++ gv ∧ Reads p u gu ∧ Reads q v gv
  | either p q, w, g => Reads p w g ∨ Reads q w g
  | most accepts, w, g => (∀ c ∈ w, accepts c = true) ∧ g = []
  | most1 accepts, w, g => (w ≠ [] ∧ ∀ c ∈ w, accepts c = true) ∧ g = []
  | fewest accepts, w, g => (∀ c ∈ w, accepts c = true) ∧ g = []
  | wordEdge, w, g => w = [] ∧ g = []
  | group name p, w, g => ∃ inner, Reads p w inner ∧ g = inner ++ [(name, w)]

theorem denotes_iff_reads (p : Pattern) (w : Text) : p.Denotes w ↔ ∃ g, p.Reads w g := by
  induction p generalizing w with
  | nothing | exactly t | one accepts | most accepts | most1 accepts | fewest accepts | wordEdge =>
    simp [Denotes, Reads]
  | seq p q ihp ihq =>
    constructor
    · rintro ⟨u, v, rfl, hu, hv⟩
      obtain ⟨gu, hu⟩ := (ihp u).1 hu
      obtain ⟨gv, hv⟩ := (ihq v).1 hv
      exact ⟨gu ++ gv, u, v, gu, gv, rfl, rfl, hu, hv⟩
    · rintro ⟨_, u, v, gu, gv, rfl, rfl, hu, hv⟩
      exact ⟨u, v, rfl, (ihp u).2 ⟨gu, hu⟩, (ihq v).2 ⟨gv, hv⟩⟩
  | either p q ihp ihq => simp [Denotes, Reads, ihp, ihq, exists_or]
  | group name p ih =>
    constructor
    · intro h
      obtain ⟨g, h⟩ := (ih w).1 h
      exact ⟨g ++ [(name, w)], g, h, rfl⟩
    · rintro ⟨_, g, h, rfl⟩
      exact (ih w).2 ⟨g, h⟩

theorem Reads.denotes {p : Pattern} {w : Text} {g : Holdings} (h : p.Reads w g) : p.Denotes w :=
  (p.denotes_iff_reads w).2 ⟨g, h⟩

/-! A pattern made of parts in order. -/

theorem reads_inOrder_cons {p : Pattern} {ps : List Pattern} {w : Text} {g : Holdings} :
    (inOrder (p :: ps)).Reads w g ↔
      ∃ u v gu gv, w = u ++ v ∧ g = gu ++ gv ∧ p.Reads u gu ∧ (inOrder ps).Reads v gv := by
  cases ps with
  | cons q qs => rfl
  | nil =>
    constructor
    · intro h
      exact ⟨w, [], g, [], by simp, by simp, h, rfl, rfl⟩
    · rintro ⟨u, v, gu, gv, rfl, rfl, hu, rfl, rfl⟩
      simpa [inOrder] using hu

theorem reads_inOrder_append (ps qs : List Pattern) {w : Text} {g : Holdings} :
    (inOrder (ps ++ qs)).Reads w g ↔
      ∃ u v gu gv, w = u ++ v ∧ g = gu ++ gv ∧ (inOrder ps).Reads u gu ∧ (inOrder qs).Reads v gv := by
  induction ps generalizing w g with
  | nil =>
    constructor
    · intro h
      exact ⟨[], w, [], g, rfl, rfl, ⟨rfl, rfl⟩, h⟩
    · rintro ⟨u, v, gu, gv, rfl, rfl, ⟨rfl, rfl⟩, hv⟩
      exact hv
  | cons p ps ih =>
    rw [List.cons_append, reads_inOrder_cons]
    simp only [reads_inOrder_cons, ih]
    constructor
    · rintro ⟨u, _, gu, _, rfl, rfl, hu, v, x, gv, gx, rfl, rfl, hv, hx⟩
      exact ⟨u ++ v, x, gu ++ gv, gx, by simp, by simp, ⟨u, v, gu, gv, rfl, rfl, hu, hv⟩, hx⟩
    · rintro ⟨_, x, _, gx, rfl, rfl, ⟨u, v, gu, gv, rfl, rfl, hu, hv⟩, hx⟩
      exact ⟨u, v ++ x, gu, gv ++ gx, by simp, by simp, hu, v, x, gv, gx, rfl, rfl, hv, hx⟩

theorem reads_exactly_cons {t : Text} {ps : List Pattern} {w : Text} {g : Holdings}
    (h : (inOrder (exactly t :: ps)).Reads w g) : ∃ v, w = t ++ v ∧ (inOrder ps).Reads v g := by
  obtain ⟨_, v, _, _, rfl, rfl, ⟨rfl, rfl⟩, hv⟩ := reads_inOrder_cons.1 h
  exact ⟨v, rfl, hv⟩

theorem reads_most_cons {accepts : CodePoint → Bool} {ps : List Pattern} {w : Text} {g : Holdings}
    (h : (inOrder (most accepts :: ps)).Reads w g) :
    ∃ u v, w = u ++ v ∧ (∀ c ∈ u, accepts c = true) ∧ (inOrder ps).Reads v g := by
  obtain ⟨u, v, _, _, rfl, rfl, ⟨hu, rfl⟩, hv⟩ := reads_inOrder_cons.1 h
  exact ⟨u, v, rfl, hu, hv⟩

theorem reads_most1_cons {accepts : CodePoint → Bool} {ps : List Pattern} {w : Text} {g : Holdings}
    (h : (inOrder (most1 accepts :: ps)).Reads w g) :
    ∃ u v, w = u ++ v ∧ (u ≠ [] ∧ ∀ c ∈ u, accepts c = true) ∧ (inOrder ps).Reads v g := by
  obtain ⟨u, v, _, _, rfl, rfl, ⟨hu, rfl⟩, hv⟩ := reads_inOrder_cons.1 h
  exact ⟨u, v, rfl, hu, hv⟩

theorem reads_group_cons {name : Option Text} {p : Pattern} {ps : List Pattern} {w : Text} {g : Holdings}
    (h : (inOrder (group name p :: ps)).Reads w g) :
    ∃ u v gu gv, w = u ++ v ∧ g = gu ++ (name, u) :: gv ∧ p.Reads u gu ∧ (inOrder ps).Reads v gv := by
  obtain ⟨u, v, _, gv, rfl, rfl, ⟨gu, hu, rfl⟩, hv⟩ := reads_inOrder_cons.1 h
  exact ⟨u, v, gu, gv, rfl, by simp, hu, hv⟩

theorem denotes_inOrder_append (ps qs : List Pattern) {w : Text} :
    (inOrder (ps ++ qs)).Denotes w ↔
      ∃ u v, w = u ++ v ∧ (inOrder ps).Denotes u ∧ (inOrder qs).Denotes v := by
  simp only [denotes_iff_reads, reads_inOrder_append]
  constructor
  · rintro ⟨_, u, v, gu, gv, hw, -, hu, hv⟩
    exact ⟨u, v, hw, ⟨gu, hu⟩, gv, hv⟩
  · rintro ⟨u, v, hw, ⟨gu, hu⟩, gv, hv⟩
    exact ⟨gu ++ gv, u, v, gu, gv, hw, rfl, hu, hv⟩

theorem denotes_inOrder_cons {p : Pattern} {ps : List Pattern} {w : Text} :
    (inOrder (p :: ps)).Denotes w ↔ ∃ u v, w = u ++ v ∧ p.Denotes u ∧ (inOrder ps).Denotes v := by
  simpa [inOrder] using denotes_inOrder_append [p] ps

theorem denotes_around (ps : List Pattern) (t : Text) (qs : List Pattern) {w : Text} :
    (inOrder (ps ++ exactly t :: qs)).Denotes w ↔
      ∃ u v, w = u ++ t ++ v ∧ (inOrder ps).Denotes u ∧ (inOrder qs).Denotes v := by
  simp only [denotes_inOrder_append, denotes_inOrder_cons]
  constructor
  · rintro ⟨u, _, rfl, hu, _, v, rfl, rfl, hv⟩
    exact ⟨u, v, by simp, hu, hv⟩
  · rintro ⟨u, v, rfl, hu, hv⟩
    exact ⟨u, t ++ v, by simp, hu, t, v, rfl, rfl, hv⟩

theorem run_inOrder_cons (next : Spot → Option (Spot × List Capture)) (p : Pattern) (ps : List Pattern) (s : Spot) :
    run next (inOrder (p :: ps)) s = run (run next (inOrder ps)) p s := by
  cases ps with
  | cons q qs => rfl
  | nil => rfl

theorem run_inOrder_append (next : Spot → Option (Spot × List Capture)) (ps qs : List Pattern) (s : Spot) :
    run next (inOrder (ps ++ qs)) s = run (run next (inOrder qs)) (inOrder ps) s := by
  induction ps generalizing s with
  | nil => rfl
  | cons p ps ih =>
    rw [List.cons_append, run_inOrder_cons, run_inOrder_cons, funext ih]

/-! Runs of single characters: where one may lead on the run succeeds, and then it has taken the first way. -/

theorem orElse_eq_some {a b : Option α} {x : α} (h : (a <|> b) = some x) : a = some x ∨ a = none ∧ b = some x := by
  simpa using h

theorem overMost_ne_none {next : Spot → Option α} {accepts : CodePoint → Bool} {b w r : Text}
    (hw : ∀ c ∈ w, accepts c = true) (hn : next ⟨w.reverse ++ b, r⟩ ≠ none) :
    Spot.overMost accepts next b (w ++ r) ≠ none := by
  induction w generalizing b with
  | nil =>
    cases r with
    | nil => exact hn
    | cons c r =>
      have hn : next ⟨b, c :: r⟩ ≠ none := hn
      by_cases hc : accepts c <;> simp [Spot.overMost, hc, hn]
  | cons c w ih =>
    have hc : accepts c = true := hw c (by simp)
    have ih := ih (b := c :: b) (fun d hd => hw d (by simp [hd])) (by simpa using hn)
    simp [Spot.overMost, hc, ih]

theorem overFewest_ne_none {next : Spot → Option α} {accepts : CodePoint → Bool} {b w r : Text}
    (hw : ∀ c ∈ w, accepts c = true) (hn : next ⟨w.reverse ++ b, r⟩ ≠ none) :
    Spot.overFewest accepts next b (w ++ r) ≠ none := by
  induction w generalizing b with
  | nil =>
    have hn : next ⟨b, r⟩ ≠ none := hn
    cases r with
    | nil => exact hn
    | cons c r => simp [Spot.overFewest, hn]
  | cons c w ih =>
    have hc : accepts c = true := hw c (by simp)
    have ih := ih (b := c :: b) (fun d hd => hw d (by simp [hd])) (by simpa using hn)
    simp [Spot.overFewest, hc, ih]

/-- The longest run that leads on is taken, so one character more would not have led on. -/
theorem overMost_longest {next : Spot → Option α} {accepts : CodePoint → Bool} {b a : Text} {x : α}
    (h : Spot.overMost accepts next b a = some x) :
    ∃ w r, a = w ++ r ∧ (∀ c ∈ w, accepts c = true) ∧ next ⟨w.reverse ++ b, r⟩ = some x ∧
      ∀ c r', r = c :: r' → accepts c = true → next ⟨c :: (w.reverse ++ b), r'⟩ = none := by
  induction a generalizing b with
  | nil => exact ⟨[], [], rfl, by simp, h, by simp⟩
  | cons c a ih =>
    cases hc : accepts c with
    | false =>
      refine ⟨[], c :: a, rfl, by simp, by simpa [Spot.overMost, hc] using h, fun d r' hd haccepts => ?_⟩
      obtain ⟨rfl, -⟩ := List.cons.inj hd
      simp [hc] at haccepts
    | true =>
      simp only [Spot.overMost, hc, ↓reduceIte] at h
      rcases orElse_eq_some h with h | ⟨hnone, h⟩
      · obtain ⟨w, r, rfl, hw, hn, hlonger⟩ := ih h
        refine ⟨c :: w, r, rfl, by simpa [hc] using hw, by simpa using hn, fun d r' hr haccepts => ?_⟩
        simpa using hlonger d r' hr haccepts
      · refine ⟨[], c :: a, rfl, by simp, h, fun d r' hd _ => ?_⟩
        obtain ⟨rfl, rfl⟩ := List.cons.inj hd
        exact Classical.byContradiction fun hsome => overMost_ne_none (w := []) (by simp) hsome hnone

theorem overMost_eq_some {next : Spot → Option α} {accepts : CodePoint → Bool} {b a : Text} {x : α}
    (h : Spot.overMost accepts next b a = some x) :
    ∃ w r, a = w ++ r ∧ (∀ c ∈ w, accepts c = true) ∧ next ⟨w.reverse ++ b, r⟩ = some x := by
  obtain ⟨w, r, ha, hw, hn, -⟩ := overMost_longest h
  exact ⟨w, r, ha, hw, hn⟩

theorem overFewest_first {next : Spot → Option α} {accepts : CodePoint → Bool} {b a : Text} {x : α}
    (h : Spot.overFewest accepts next b a = some x) :
    ∃ w r, a = w ++ r ∧ (∀ c ∈ w, accepts c = true) ∧ next ⟨w.reverse ++ b, r⟩ = some x ∧
      ∀ u v, w = u ++ v → v ≠ [] → next ⟨u.reverse ++ b, v ++ r⟩ = none := by
  induction a generalizing b with
  | nil => exact ⟨[], [], rfl, by simp, h, by simp⟩
  | cons c a ih =>
    simp only [Spot.overFewest] at h
    rcases orElse_eq_some h with h | ⟨hnone, h⟩
    · exact ⟨[], c :: a, rfl, by simp, h, by simp⟩
    split at h
    · next hc =>
      obtain ⟨w, r, rfl, hw, hn, hfirst⟩ := ih h
      refine ⟨c :: w, r, rfl, by simpa [hc] using hw, by simpa using hn, ?_⟩
      intro u v huv hv
      cases u with
      | nil =>
        obtain rfl : v = c :: w := huv.symm
        simpa using hnone
      | cons d u =>
        obtain ⟨rfl, rfl⟩ := List.cons.inj huv
        simpa using hfirst u v rfl hv
    · contradiction

theorem overFewest_eq_some {next : Spot → Option α} {accepts : CodePoint → Bool} {b a : Text} {x : α}
    (h : Spot.overFewest accepts next b a = some x) :
    ∃ w r, a = w ++ r ∧ (∀ c ∈ w, accepts c = true) ∧ next ⟨w.reverse ++ b, r⟩ = some x := by
  obtain ⟨w, r, ha, hw, hn, -⟩ := overFewest_first h
  exact ⟨w, r, ha, hw, hn⟩

/-! A run that succeeds has read a word, and went on behind it. -/

theorem past?_eq_some {s e : Spot} {t : Text} (h : s.past? t = some e) :
    ∃ r, s.after = t ++ r ∧ e = ⟨t.reverse ++ s.before, r⟩ := by
  simp only [Spot.past?, Option.map_eq_some_iff, Text.past?_eq_some_iff] at h
  obtain ⟨r, hr, rfl⟩ := h
  exact ⟨r, hr, rfl⟩

theorem run_eq_some {p : Pattern} {next : Spot → Option (Spot × List Capture)} {s : Spot}
    {found : Spot × List Capture} (h : run next p s = some found) :
    ∃ w r cs later, s.after = w ++ r ∧ p.Reads w (cs.map Capture.held) ∧
      next ⟨w.reverse ++ s.before, r⟩ = some (found.1, later) ∧ found.2 = cs ++ later := by
  induction p generalizing next s found with
  | nothing => exact ⟨[], s.after, [], found.2, rfl, ⟨rfl, rfl⟩, h, rfl⟩
  | exactly t =>
    obtain ⟨e, he, hn⟩ := Option.bind_eq_some_iff.1 h
    obtain ⟨r, hr, rfl⟩ := past?_eq_some he
    exact ⟨t, r, [], found.2, hr, ⟨rfl, rfl⟩, hn, rfl⟩
  | one accepts =>
    obtain ⟨b, a⟩ := s
    cases a with
    | nil => simp [run] at h
    | cons c r =>
      simp only [run] at h
      split at h
      · next hc => exact ⟨[c], r, [], found.2, rfl, ⟨⟨c, hc, rfl⟩, rfl⟩, h, rfl⟩
      · contradiction
  | seq p q ihp ihq =>
    obtain ⟨u, r, cu, lu, hs, hu, hn, hl⟩ := ihp h
    obtain ⟨v, r', cv, lv, rfl, hv, hn, rfl⟩ := ihq hn
    refine ⟨u ++ v, r', cu ++ cv, lv, by simp [hs], ?_, by simpa using hn, by simp [hl]⟩
    exact ⟨u, v, _, _, rfl, by simp, hu, hv⟩
  | either p q ihp ihq =>
    rcases orElse_eq_some h with h | ⟨-, h⟩
    · obtain ⟨w, r, cs, later, hs, hw, hn⟩ := ihp h
      exact ⟨w, r, cs, later, hs, .inl hw, hn⟩
    · obtain ⟨w, r, cs, later, hs, hw, hn⟩ := ihq h
      exact ⟨w, r, cs, later, hs, .inr hw, hn⟩
  | most accepts =>
    obtain ⟨w, r, hs, hw, hn⟩ := overMost_eq_some h
    exact ⟨w, r, [], found.2, hs, ⟨hw, rfl⟩, hn, rfl⟩
  | most1 accepts =>
    obtain ⟨b, a⟩ := s
    cases a with
    | nil => simp [run] at h
    | cons c r =>
      simp only [run] at h
      split at h
      · next hc =>
        obtain ⟨w, r', rfl, hw, hn⟩ := overMost_eq_some h
        exact ⟨c :: w, r', [], found.2, rfl, ⟨⟨by simp, by simpa [hc] using hw⟩, rfl⟩, by simpa using hn, rfl⟩
      · contradiction
  | fewest accepts =>
    obtain ⟨w, r, hs, hw, hn⟩ := overFewest_eq_some h
    exact ⟨w, r, [], found.2, hs, ⟨hw, rfl⟩, hn, rfl⟩
  | wordEdge =>
    simp only [run] at h
    split at h
    · exact ⟨[], s.after, [], found.2, rfl, ⟨rfl, rfl⟩, h, rfl⟩
    · contradiction
  | group name p ih =>
    obtain ⟨w, r, cs, later, hs, hw, hn, hl⟩ := ih h
    obtain ⟨⟨e, inner⟩, hi, he⟩ := Option.map_eq_some_iff.1 hn
    obtain ⟨rfl, rfl⟩ := Prod.mk.inj he
    have hheld : Capture.held ⟨name, s, ⟨w.reverse ++ s.before, r⟩⟩ = (name, w) := by
      simp [Capture.held, Capture.text, Spot.upTo, Spot.index, hs]
    refine ⟨w, r, cs ++ [⟨name, s, ⟨w.reverse ++ s.before, r⟩⟩], inner, hs, ?_, hi, by simp [hl]⟩
    exact ⟨_, hw, by simp [hheld]⟩

/-! Where a word stands, and the rest leads on behind it, a run succeeds. -/

/-- Only word edges look at what stands around a word. -/
theorem run_ne_none {p : Pattern} (he : p.isEdgeFree = true) {next : Spot → Option (Spot × List Capture)}
    {b w r : Text} (hw : p.Denotes w) (hn : next ⟨w.reverse ++ b, r⟩ ≠ none) :
    run next p ⟨b, w ++ r⟩ ≠ none := by
  induction p generalizing next b w r with
  | nothing =>
    cases hw
    exact hn
  | exactly t =>
    cases hw
    have hp : Text.past? t (t ++ r) = some r := Text.past?_eq_some_iff.2 rfl
    simpa [run, Spot.past?, hp] using hn
  | one accepts =>
    obtain ⟨c, hc, rfl⟩ := hw
    simpa [run, hc] using hn
  | seq p q ihp ihq =>
    obtain ⟨u, v, rfl, hu, hv⟩ := hw
    simp only [isEdgeFree, Bool.and_eq_true] at he
    rw [List.append_assoc]
    exact ihp he.1 hu (ihq he.2 hv (by simpa using hn))
  | either p q ihp ihq =>
    simp only [isEdgeFree, Bool.and_eq_true] at he
    rcases hw with hw | hw
    · simp [run, ihp he.1 hw hn]
    · simp [run, ihq he.2 hw hn]
  | most accepts => exact overMost_ne_none hw hn
  | most1 accepts =>
    obtain ⟨h, hw⟩ := hw
    cases w with
    | nil => contradiction
    | cons c w =>
      have hc : accepts c = true := hw c (by simp)
      have hw : ∀ d ∈ w, accepts d = true := fun d hd => hw d (by simp [hd])
      have h := overMost_ne_none (b := c :: b) hw (by simpa using hn)
      simpa [run, hc] using h
  | fewest accepts => exact overFewest_ne_none hw hn
  | wordEdge => contradiction
  | group name p ih => exact ih he hw (by simpa using hn)

/-! Matches. -/

def opens (p : Pattern) (t : Text) : Prop := ∃ w r, t = w ++ r ∧ p.Denotes w

theorem matchAt?_ne_none_iff {p : Pattern} (he : p.isEdgeFree = true) {b a : Text} :
    p.matchAt? ⟨b, a⟩ ≠ none ↔ p.opens a := by
  constructor
  · intro h
    obtain ⟨m, hm⟩ := Option.ne_none_iff_exists'.1 h
    obtain ⟨found, hf, -⟩ := Option.map_eq_some_iff.1 hm
    obtain ⟨w, r, cs, later, hs, hw, -⟩ := run_eq_some hf
    exact ⟨w, r, hs, hw.denotes⟩
  · rintro ⟨w, r, rfl, hw⟩
    have hrun : run (fun e => some (e, [])) p ⟨b, w ++ r⟩ ≠ none := run_ne_none he hw (by simp)
    simpa [matchAt?] using hrun

theorem matchAt?_eq_none_iff {p : Pattern} (he : p.isEdgeFree = true) {b a : Text} :
    p.matchAt? ⟨b, a⟩ = none ↔ ¬ p.opens a := by
  rw [← matchAt?_ne_none_iff he (b := b)]
  exact Classical.not_not.symm

/-- A match at a place in a text: it splits the text in three and reads the middle. -/
structure MatchedAt (p : Pattern) (m : Match) (a w b : Text) : Prop where
  matched : p.matchAt? ⟨a.reverse, w ++ b⟩ = some m
  start_eq : m.start = ⟨a.reverse, w ++ b⟩
  stop_eq : m.stop = ⟨(a ++ w).reverse, b⟩
  reads : p.Reads w m.held

theorem matchedAt_of_matchAt? {p : Pattern} {m : Match} {b t : Text} (h : p.matchAt? ⟨b, t⟩ = some m) :
    ∃ w r, t = w ++ r ∧ p.MatchedAt m b.reverse w r := by
  obtain ⟨found, hf, rfl⟩ := Option.map_eq_some_iff.1 h
  obtain ⟨w, r, cs, later, rfl, hw, hn, hl⟩ := run_eq_some hf
  simp only [Option.some.injEq, Prod.mk.injEq] at hn
  obtain ⟨he, rfl⟩ := hn
  refine ⟨w, r, rfl, by simpa using h, by simp, by simp [← he], ?_⟩
  simpa [Match.held, hl] using hw

namespace MatchedAt

variable {p : Pattern} {m : Match} {a w b : Text}

theorem front_eq (h : p.MatchedAt m a w b) : m.front = a := by simp [Match.front, h.start_eq]

theorem rest_eq (h : p.MatchedAt m a w b) : m.rest = b := by simp [Match.rest, h.stop_eq]

theorem text_eq (h : p.MatchedAt m a w b) : m.text = w := by
  simp [Match.text, Spot.upTo, Spot.index, h.start_eq, h.stop_eq]

theorem start_index (h : p.MatchedAt m a w b) : m.start.index = a.length := by simp [Spot.index, h.start_eq]

theorem stop_index (h : p.MatchedAt m a w b) : m.stop.index = a.length + w.length := by
  simp [Spot.index, h.stop_eq, Nat.add_comm]

theorem splice_eq (h : p.MatchedAt m a w b) (new : Text) : m.splice new = a ++ new ++ b := by
  rw [Match.splice_eq, h.front_eq, h.rest_eq]

end MatchedAt

theorem searchFrom?_eq_some {p : Pattern} {b t : Text} {m : Match} (h : p.searchFrom? 0 b t = some m) :
    ∃ a w r, t = a ++ w ++ r ∧ p.MatchedAt m (b.reverse ++ a) w r ∧
      ∀ a₁ a₂, a = a₁ ++ a₂ → a₂ ≠ [] → p.matchAt? ⟨a₁.reverse ++ b, a₂ ++ w ++ r⟩ = none := by
  induction t generalizing b with
  | nil =>
    obtain ⟨w, r, ht, hm⟩ := matchedAt_of_matchAt? (t := []) h
    refine ⟨[], w, r, ht, by simpa using hm, ?_⟩
    intro a₁ a₂ ha hne
    simp_all
  | cons c t ih =>
    rw [searchFrom?_cons] at h
    rcases orElse_eq_some h with h | ⟨hc, h⟩
    · obtain ⟨w, r, ht, hm⟩ := matchedAt_of_matchAt? h
      refine ⟨[], w, r, ht, by simpa using hm, ?_⟩
      intro a₁ a₂ ha hne
      simp_all
    · obtain ⟨a, w, r, rfl, hm, hnone⟩ := ih h
      refine ⟨c :: a, w, r, rfl, by simpa using hm, ?_⟩
      intro a₁ a₂ ha hne
      cases a₁ with
      | nil =>
        rw [List.nil_append] at ha
        simpa [← ha] using hc
      | cons d a₁ =>
        obtain ⟨rfl, rfl⟩ := List.cons.inj ha
        simpa using hnone a₁ a₂ rfl hne

theorem searchFrom?_eq_none {p : Pattern} {b t : Text} (h : p.searchFrom? 0 b t = none) (a r : Text)
    (ht : t = a ++ r) : p.matchAt? ⟨a.reverse ++ b, r⟩ = none := by
  induction t generalizing b a with
  | nil =>
    obtain ⟨rfl, rfl⟩ := List.append_eq_nil_iff.1 ht.symm
    exact h
  | cons c t ih =>
    rw [searchFrom?_cons] at h
    obtain ⟨hc, h⟩ : p.matchAt? ⟨b, c :: t⟩ = none ∧ p.searchFrom? 0 (c :: b) t = none := by simpa using h
    cases a with
    | nil =>
      rw [List.nil_append] at ht
      exact ht ▸ hc
    | cons d a =>
      obtain ⟨rfl, rfl⟩ := List.cons.inj ht
      simpa using ih h a rfl

/-- The match that a search finds: no word of the pattern begins farther left. -/
structure Found (p : Pattern) (t : Text) (m : Match) (a w b : Text) : Prop extends p.MatchedAt m a w b where
  whole : t = a ++ w ++ b
  first : ∀ u v, t = u ++ v → p.opens v → a.length ≤ u.length

theorem length_le_of_passed {p : Pattern} (he : p.isEdgeFree = true) {b a w r : Text}
    (hnone : ∀ a₁ a₂, a = a₁ ++ a₂ → a₂ ≠ [] → p.matchAt? ⟨a₁.reverse ++ b, a₂ ++ w ++ r⟩ = none) {u v : Text}
    (hu : a ++ w ++ r = u ++ v) (hv : p.opens v) : a.length ≤ u.length := by
  rcases Nat.lt_or_ge u.length a.length with hlt | hge
  case inr => exact hge
  have hat : u <+: a ++ w ++ r := ⟨v, hu.symm⟩
  have ha : a <+: a ++ w ++ r := ⟨w ++ r, by simp⟩
  obtain ⟨x, rfl⟩ := List.prefix_of_prefix_length_le hat ha (by omega)
  have hx : x ≠ [] := by
    rintro rfl
    simp at hlt
  have hv' : v = x ++ w ++ r := by simpa using hu.symm
  exact absurd (hv' ▸ hv) ((matchAt?_eq_none_iff he).1 (hnone u x rfl hx))

theorem found_of_search? {p : Pattern} (he : p.isEdgeFree = true) {t : Text} {m : Match}
    (h : p.search? t = some m) : ∃ a w b, p.Found t m a w b := by
  obtain ⟨a, w, b, rfl, hm, hnone⟩ := searchFrom?_eq_some h
  exact ⟨a, w, b, by simpa using hm, rfl, fun u v hu hv => length_le_of_passed he hnone hu hv⟩

theorem search?_ne_none {p : Pattern} (he : p.isEdgeFree = true) {t a w b : Text} (ht : t = a ++ w ++ b)
    (hw : p.Denotes w) : p.search? t ≠ none := by
  intro h
  refine (matchAt?_eq_none_iff he).1 (searchFrom?_eq_none h a (w ++ b) (by simp [ht])) ?_
  exact ⟨w, b, rfl, hw⟩

end Pattern
end Rehost
