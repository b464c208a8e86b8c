import Rehost.Proofs.Script.Options

/-! Drafts: scripts with a gap for the options of the transport. However a plain origin fills the gap, a search finds
the same match at the same place, so what a run makes of a filled draft is a filled draft again. -/
namespace Rehost
open Pattern

inductive Draft where
  | fixed (t : Text)
  | around (before behind : Text)

namespace Draft

def fill (origin : Text) : Draft → Text
  | fixed t => t
  | around a b => a ++ Rule.socketOptions origin ++ b

/-- A draft in three parts, one of which has the gap if there is one. -/
inductive Parts (d : Draft) : Draft → Draft → Draft → Prop
  | gapless {a w b : Text} (whole : d = fixed (a ++ w ++ b)) : Parts d (fixed a) (fixed w) (fixed b)
  | inFront {a w c b : Text} (whole : d = around (a ++ w ++ c) b) : Parts d (fixed a) (fixed w) (around c b)
  | behind {a c w b : Text} (whole : d = around a (c ++ w ++ b)) : Parts d (around a c) (fixed w) (fixed b)
  | across {a u v b : Text} (whole : d = around (a ++ u) (v ++ b)) : Parts d (fixed a) (around u v) (fixed b)

variable {d a w b a' w' b' : Draft}

theorem Parts.fill_eq (h : Parts d a w b) (origin : Text) :
    d.fill origin = a.fill origin ++ w.fill origin ++ b.fill origin := by
  cases h with
  | gapless whole | inFront whole | behind whole | across whole => simp [whole, fill]

theorem Parts.replace (h : Parts d a w b) (new : Text) :
    ∃ d' : Draft, ∀ origin, a.fill origin ++ new ++ b.fill origin = d'.fill origin := by
  cases h with
  | @gapless a _ b => exact ⟨fixed (a ++ new ++ b), fun _ => rfl⟩
  | @inFront a _ c b => exact ⟨around (a ++ new ++ c) b, fun _ => by simp [fill]⟩
  | @behind a c _ b => exact ⟨around a (c ++ new ++ b), fun _ => by simp [fill]⟩
  | @across a _ _ b => exact ⟨fixed (a ++ new ++ b), fun _ => rfl⟩

/-- The middle part begins in front of the gap, or behind it with all that stands there in front of it. -/
theorem Parts.start (h : Parts d a w b) :
    (∃ x, a = fixed x ∧ ∀ u v, d = around u v → x.length ≤ u.length) ∨ ∃ u v c, d = around u v ∧ a = around u c := by
  cases h with
  | gapless whole => exact .inl ⟨_, rfl, by simp [whole]⟩
  | inFront whole => exact .inl ⟨_, rfl, fun u v h => by obtain ⟨rfl, -⟩ := around.inj (whole.symm.trans h); simp⟩
  | behind whole => exact .inr ⟨_, _, _, whole, rfl⟩
  | across whole => exact .inl ⟨_, rfl, fun u v h => by obtain ⟨rfl, -⟩ := around.inj (whole.symm.trans h); simp⟩

/-- The options are not empty, so which of two parts begins farther left does not depend on the origin. -/
theorem Parts.length_le (h : Parts d a w b) (h' : Parts d a' w' b') {origin : Text}
    (hle : (a.fill origin).length ≤ (a'.fill origin).length) (origin' : Text) :
    (a.fill origin').length ≤ (a'.fill origin').length := by
  have hpos := List.length_pos_iff.2 (Rule.socketOptions_ne_nil origin)
  rcases h.start with ⟨x, rfl, hx⟩ | ⟨u, v, c, rfl, rfl⟩ <;>
    rcases h'.start with ⟨x', rfl, hx'⟩ | ⟨u', v', c', hd, rfl⟩
  · exact hle
  · have hgap := hx u' v' hd
    simp only [fill, List.length_append]
    omega
  · have hgap := hx' u v rfl
    simp only [fill, List.length_append] at hle
    omega
  · obtain ⟨rfl, -⟩ := around.inj hd
    simp only [fill, List.length_append] at hle ⊢
    omega

theorem parts_of_apart {a b u w v origin : Text} (heq : a ++ Rule.socketOptions origin ++ b = u ++ w ++ v)
    (h : u.length + w.length ≤ a.length ∨ a.length + (Rule.socketOptions origin).length ≤ u.length) :
    ∃ front rest : Draft, (around a b).Parts front (fixed w) rest ∧ u = front.fill origin ∧ v = rest.fill origin := by
  have hwhole : a ++ (Rule.socketOptions origin ++ b) = u ++ w ++ v := by simpa using heq
  rcases h with h | h
  · obtain ⟨c, rfl⟩ := List.prefix_of_prefix_length_le (List.prefix_append (u ++ w) v) ⟨_, hwhole⟩
      (by simpa using h)
    exact ⟨fixed u, around c b, .inFront rfl, rfl, by simpa [fill] using hwhole.symm⟩
  · have hu : u <+: u ++ w ++ v := ⟨w ++ v, by simp⟩
    obtain ⟨c, rfl⟩ := List.prefix_of_prefix_length_le ⟨b, heq⟩ hu (by simpa using h)
    have hb : b = c ++ w ++ v := by simpa using heq
    exact ⟨around a c, fixed v, .behind (by rw [hb]), rfl, rfl⟩

theorem head?_fill {d : Draft} {c : CodePoint} {origin' : Text} (h : (d.fill origin').head? = some c) (origin : Text) :
    (d.fill origin).head? = some c := by
  cases d with
  | fixed t => exact h
  | around a b => cases a <;> simpa [fill, Rule.socketOptions_eq, Rule.optionsFront, Text.ofString] using h

end Draft

namespace Wanted

variable {x : Wanted} {d a w b : Draft} {origin : Text}

def ComesLater (x : Wanted) : Prop := x ≠ roomInit ∧ x ≠ socket

/-- A word as a match takes it in front of a text: the end of its statement goes as far as it can. -/
def Fits (x : Wanted) (w b : Text) (g : Holdings) : Prop :=
  ∃ l k s, w = l ++ x.token ++ k ++ s ∧ x.Reading l k s g ∧ x.Ends s b

theorem Fits.denotes {w b : Text} {g : Holdings} (h : x.Fits w b g) : x.landmark.pattern.Denotes w := by
  obtain ⟨l, k, s, rfl, hr, hs⟩ := h
  exact hr.denotes hs

theorem left_stops (x : Wanted) (r : Text) : (inOrder x.left).Stops (x.token ++ r) := by
  cases x <;> simp +decide [Stops, left, token, Landmark.guardLeft, inOrder, Landmark.lit, blanks, blanks1,
    Landmark.member, Landmark.letters, Text.ofString]

theorem Fits.unique (hx : x ≠ roomInit) {w b w' b' : Text} {g g' : Holdings} (h : x.Fits w b g) (h' : x.Fits w' b' g')
    (heq : w ++ b = w' ++ b') : w = w' ∧ g = g' := by
  obtain ⟨l, k, s, rfl, ⟨gl, gk, rfl, hl, hk⟩, hs⟩ := h
  obtain ⟨l', k', s', rfl, ⟨gl', gk', rfl, hl', hk'⟩, hs'⟩ := h'
  simp only [List.append_assoc] at heq
  obtain ⟨rfl, rfl⟩ := x.left_oneWay.unique hl hl' heq (x.left_stops _) (x.left_stops _)
  have hbehind := List.append_cancel_left (List.append_cancel_left heq)
  obtain ⟨rfl, rfl⟩ := core_unique hx hk hk' hbehind
  obtain rfl := hs.unique hs' (List.append_cancel_left hbehind)
  exact ⟨rfl, rfl⟩

theorem found_of_fits (hx : x ≠ roomInit) {t a w b : Text} {g : Holdings} (ht : t = a ++ w ++ b) (hw : x.Fits w b g)
    (hfirst : ∀ u v, t = u ++ v → x.landmark.pattern.opens v → a.length ≤ u.length) :
    ∃ m, x.landmark.search? t = some m ∧ x.landmark.pattern.MatchedAt m a w b ∧ m.held = g := by
  obtain ⟨m, hm⟩ := Option.ne_none_iff_exists'.1 (search?_ne_none x.edgeFree ht hw.denotes)
  obtain ⟨a', w', b', hfound⟩ := found_of_search? x.edgeFree hm
  have hat : t = a ++ (w ++ b) := by simp [ht]
  have hat' : t = a' ++ (w' ++ b') := by simp [hfound.whole]
  have hlen : a.length = a'.length :=
    Nat.le_antisymm (hfirst a' _ hat' ⟨w', b', rfl, hfound.reads.denotes⟩)
      (hfound.first a _ hat ⟨w, b, rfl, hw.denotes⟩)
  obtain ⟨rfl, hrest⟩ := List.append_inj (hat.symm.trans hat') hlen
  obtain ⟨rfl, hheld⟩ := hw.unique hx (reading_of_matchedAt hfound.toMatchedAt) hrest
  obtain rfl := List.append_cancel_left hrest
  exact ⟨m, hm, hfound.toMatchedAt, hheld.symm⟩

theorem fits_challenge {w : Text} (h : Landmark.challenge.pattern.Denotes w) (b : Text) : challenge.Fits w b [] := by
  have hsplit : Landmark.challenge.pattern =
      inOrder (challenge.left ++ exactly challenge.token :: challenge.core) := rfl
  rw [hsplit, denotes_around] at h
  obtain ⟨l, k, rfl, hl, hk⟩ := h
  obtain ⟨gl, hl⟩ := (denotes_iff_reads _ _).1 hl
  obtain ⟨gk, hk⟩ := (denotes_iff_reads _ _).1 hk
  obtain rfl := hl.held_eq_nil rfl
  obtain rfl := hk.held_eq_nil rfl
  exact ⟨l, k, [], by simp, ⟨[], [], rfl, hl, hk⟩, rfl⟩

/-! One search in all fillings of a draft. -/

/-- Only a challenge case hands the options over. -/
def MayHold (x : Wanted) (w : Draft) : Prop := (∃ t, w = .fixed t) ∨ x = challenge

theorem parts_of_denotes (hx : x.ComesLater) (ho : PlainOrigin origin) {u m v : Text}
    (heq : d.fill origin = u ++ m ++ v) (hm : x.landmark.pattern.Denotes m) :
    ∃ a w b, d.Parts a w b ∧ u = a.fill origin ∧ m = w.fill origin ∧ v = b.fill origin ∧ x.MayHold w := by
  cases d with
  | fixed t => exact ⟨_, _, _, .gapless (congrArg Draft.fixed heq), rfl, rfl, rfl, .inl ⟨_, rfl⟩⟩
  | around front behind =>
    have happart : u.length + m.length ≤ front.length ∨
          front.length + (Rule.socketOptions origin).length ≤ u.length →
        ∃ a w b, (Draft.around front behind).Parts a w b ∧ u = a.fill origin ∧ m = w.fill origin ∧
          v = b.fill origin ∧ x.MayHold w := by
      intro h
      obtain ⟨a, b, hparts, hu, hv⟩ := Draft.parts_of_apart heq h
      exact ⟨a, .fixed m, b, hparts, hu, rfl, hv, .inl ⟨m, rfl⟩⟩
    cases x with
    | roomInit => exact absurd rfl hx.1
    | socket => exact absurd rfl hx.2
    | socketError => exact happart (Rule.socketError_avoids_plain ho front behind u m v heq hm)
    | initGuard => exact happart (Rule.initGuard_avoids_options ho front behind u m v heq hm)
    | lookup => exact happart (Rule.lookup_avoids_options ho front behind u m v heq hm)
    | challenge =>
      rcases Rule.challenge_around_options ho heq hm with h | h | ⟨y, z, rfl, rfl, rfl⟩
      · exact happart (.inl h)
      · exact happart (.inr h)
      · exact ⟨.fixed u, .around y z, .fixed v, .across rfl, rfl, rfl, rfl, .inr rfl⟩

theorem denotes_fill (hw : x.MayHold w) (h : x.landmark.pattern.Denotes (w.fill origin)) {origin' : Text}
    (ho' : PlainOrigin origin') : x.landmark.pattern.Denotes (w.fill origin') := by
  rcases hw with ⟨t, rfl⟩ | rfl
  · exact h
  · cases w with
    | fixed t => exact h
    | around y z => exact Rule.challenge_refill ho'.closing h

theorem fits_fill (hw : x.MayHold w) {g : Holdings} (h : x.Fits (w.fill origin) (b.fill origin) g) {origin' : Text}
    (ho' : PlainOrigin origin') : x.Fits (w.fill origin') (b.fill origin') g := by
  rcases hw with ⟨t, rfl⟩ | rfl
  · obtain ⟨l, k, s, ht, hr, hs⟩ := h
    exact ⟨l, k, s, ht, hr, hs.congr fun c hc => .inl (Draft.head?_fill hc origin)⟩
  · have hfits := fits_challenge h.denotes (b.fill origin)
    obtain ⟨-, rfl⟩ := h.unique (by decide) hfits rfl
    exact fits_challenge (denotes_fill (.inr rfl) h.denotes ho') _

/-- Either the landmark is missing whatever the origin is, or one match is found whatever it is. -/
theorem search?_fill (hx : x.ComesLater) (d : Draft) :
    (∀ origin, PlainOrigin origin → x.landmark.search? (d.fill origin) = none) ∨
      ∃ a w b g, d.Parts a w b ∧ x.MayHold w ∧ ∀ origin, PlainOrigin origin →
        ∃ m, x.landmark.search? (d.fill origin) = some m ∧
          x.landmark.pattern.MatchedAt m (a.fill origin) (w.fill origin) (b.fill origin) ∧ m.held = g := by
  by_cases h : ∀ origin, PlainOrigin origin → x.landmark.search? (d.fill origin) = none
  · exact .inl h
  right
  push Not at h
  obtain ⟨origin, ho, hsome⟩ := h
  obtain ⟨m, hm⟩ := Option.ne_none_iff_exists'.1 hsome
  obtain ⟨u, t, v, hfound⟩ := found_of_search? x.edgeFree hm
  obtain ⟨a, w, b, hparts, rfl, rfl, rfl, hw⟩ := parts_of_denotes hx ho hfound.whole hfound.reads.denotes
  refine ⟨a, w, b, m.held, hparts, hw, fun origin' ho' => ?_⟩
  have hfits := fits_fill hw (reading_of_matchedAt hfound.toMatchedAt) ho'
  refine found_of_fits hx.1 (hparts.fill_eq origin') hfits ?_
  -- A word farther left would stand farther left with the first origin as well.
  rintro u v huv ⟨t, r, rfl, ht⟩
  rw [← List.append_assoc] at huv
  obtain ⟨a', w', b', hparts', rfl, rfl, rfl, hw'⟩ := parts_of_denotes hx ho' huv ht
  refine hparts.length_le hparts' (hfound.first (a'.fill origin) (w'.fill origin ++ b'.fill origin) ?_ ?_) origin'
  · rw [hparts'.fill_eq, List.append_assoc]
  · exact ⟨_, _, rfl, denotes_fill hw' ht ho⟩

end Wanted
end Rehost
