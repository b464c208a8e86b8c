import Rehost.Proofs.Script.Assignment
import Rehost.Proofs.Script.Edit
import Rehost.Proofs.Script.Occurrence
import Rehost.Proofs.Table

/-! Scripts in which the landmarks lie apart. There every rule finds its landmark as if no other rule had run, so the
rules, one after the other, come to the same as their edits of the script made all at once. This is stated of any rules
in any order; only the assignment has to come first if it hands a blank over, as the rules that run before it could turn
what stands behind it into a value. -/
namespace Rehost
open Pattern

def Rule.edit (r : Rule) (origin : Text) (m : Match) : Edit := ⟨m.start.index, m.stop.index, r.build m origin⟩

/-- The guard stays, and the capabilities follow right behind it. -/
def Capability.edit (guard lookup : Match) : Edit :=
  ⟨guard.start.index, guard.stop.index, guard.text ++ Capability.statements (lookup.named "name")⟩

namespace Wanted

def replaced : List (Wanted × Rule) :=
  [(roomInit, .deferInit), (socket, .openSocket), (socketError, .reportSocketError), (challenge, .refuseChallenge)]

theorem replaced_cases {x : Wanted} {r : Rule} (h : (x, r) ∈ replaced) :
    x = roomInit ∧ r = .deferInit ∨ x = socket ∧ r = .openSocket ∨ x = socketError ∧ r = .reportSocketError ∨
      x = challenge ∧ r = .refuseChallenge := by
  simpa [replaced] using h

theorem landmark_of_replaced {x : Wanted} {r : Rule} (h : (x, r) ∈ replaced) : r.landmark = x.landmark := by
  rcases replaced_cases h with ⟨rfl, rfl⟩ | ⟨rfl, rfl⟩ | ⟨rfl, rfl⟩ | ⟨rfl, rfl⟩ <;> rfl

theorem landmark_name_injective {x y : Wanted} (h : x.landmark.name = y.landmark.name) : x = y := by
  cases x <;> cases y <;> first | rfl | exact absurd h (by decide)

theorem rank_of_replaced {x : Wanted} {r : Rule} (h : (x, r) ∈ replaced) : x.rank < 4 := by
  rcases replaced_cases h with ⟨rfl, rfl⟩ | ⟨rfl, rfl⟩ | ⟨rfl, rfl⟩ | ⟨rfl, rfl⟩ <;> decide

theorem rule_unique {x : Wanted} {r r' : Rule} (h : (x, r) ∈ replaced) (h' : (x, r') ∈ replaced) : r = r' := by
  rcases replaced_cases h with ⟨rfl, rfl⟩ | ⟨rfl, rfl⟩ | ⟨rfl, rfl⟩ | ⟨rfl, rfl⟩ <;>
    simpa [replaced, eq_comm] using h'

theorem rule_of_rank {n : Nat} (hn : n < 4) :
    ∃ x r, (x, r) ∈ replaced ∧ x.rank = n ∧ Rule.all.drop n = r :: Rule.all.drop (n + 1) := by
  rcases n with _ | _ | _ | _ | n
  · exact ⟨roomInit, .deferInit, by simp [replaced], rfl, rfl⟩
  · exact ⟨socket, .openSocket, by simp [replaced], rfl, rfl⟩
  · exact ⟨socketError, .reportSocketError, by simp [replaced], rfl, rfl⟩
  · exact ⟨challenge, .refuseChallenge, by simp [replaced], rfl, rfl⟩
  · omega

theorem rank_of_take {n : Nat} {p : Wanted × Rule} (h : p ∈ replaced.take n) : p ∈ replaced ∧ p.1.rank < n := by
  refine ⟨List.mem_of_mem_take h, ?_⟩
  rcases n with _ | _ | _ | _ | n <;> simp [replaced] at h <;> rcases h with rfl | rfl | rfl | rfl <;> simp [rank]

def edits (origin : Text) (m : Wanted → Match) (n : Nat) : List Edit :=
  (replaced.take n).map fun p => p.2.edit origin (m p.1)

def editsOf (origin : Text) (m : Wanted → Match) (ps : List (Wanted × Rule)) : List Edit :=
  ps.map fun p => p.2.edit origin (m p.1)

theorem edits_eq (origin : Text) (m : Wanted → Match) (n : Nat) :
    edits origin m n = editsOf origin m (replaced.take n) := rfl

def Among (ps : List (Wanted × Rule)) (k : Nat) : Prop := ∀ p ∈ ps, p ∈ replaced ∧ p.1.rank < k

theorem mem_editsOf {origin : Text} {m : Wanted → Match} {ps : List (Wanted × Rule)} {e : Edit}
    (h : e ∈ editsOf origin m ps) : ∃ x r, (x, r) ∈ ps ∧ e = r.edit origin (m x) := by
  obtain ⟨⟨x, r⟩, hp, rfl⟩ := List.mem_map.1 h
  exact ⟨x, r, hp, rfl⟩

theorem among_take {n k : Nat} (hn : n ≤ k) : Among (replaced.take n) k :=
  fun _ hp => ⟨(rank_of_take hp).1, (rank_of_take hp).2.trans_le hn⟩

theorem ne_of_take {n : Nat} {x : Wanted} (hn : n ≤ x.rank) : ∀ p ∈ replaced.take n, p.1 ≠ x := by
  rintro p hp rfl
  exact absurd (rank_of_take hp).2 (by omega)

/-! The borders of what a rule writes. -/

theorem build_head {x : Wanted} {r : Rule} (h : (x, r) ∈ replaced) {m : Match} {w : Text}
    (hr : x.landmark.pattern.Reads w m.held) (origin : Text) :
    ∃ c t, r.build m origin = c :: t ∧ Text.isBlank c = false ∧ c ≠ ';' := by
  rcases replaced_cases h with ⟨rfl, rfl⟩ | ⟨rfl, rfl⟩ | ⟨rfl, rfl⟩ | ⟨rfl, rfl⟩
  · exact ⟨'p', _, rfl, by decide, by decide⟩
  · exact ⟨'n', _, rfl, by decide, by decide⟩
  · rw [Rule.build_reportSocketError]
    cases hobj : m.named "obj" with
    | nil => exact ⟨'.', _, rfl, by decide, by decide⟩
    | cons c t =>
      refine ⟨c, _, rfl, ?_, ?_⟩
      · cases hblank : Text.isBlank c with
        | false => rfl
        | true =>
          have hnot : c ∉ m.named "obj" := by
            apply Match.not_mem_named hr
            have := Text.isAlpha_eq_false_of_isBlank hblank
            simp +decide [landmark, Landmark.socketError, inOrder, groupMayHold, mayHold, Landmark.letters, this,
              Pattern.optional, blanks, Landmark.lit]
          exact absurd (by simp [hobj]) hnot
      · rintro rfl
        exact absurd (by simp [hobj]) (Rule.not_mem_handlerNames hr "obj" (by decide) (.inr rfl))
  · exact ⟨'c', _, rfl, by decide, by decide⟩

theorem build_last {x : Wanted} {r : Rule} (h : (x, r) ∈ replaced) {m : Match} {w : Text}
    (hr : x.landmark.pattern.Reads w m.held) (origin : Text) {c : CodePoint}
    (hc : (r.build m origin).getLast? = some c) : Text.isWord c = false ∧ c ≠ '$' := by
  rcases replaced_cases h with ⟨rfl, rfl⟩ | ⟨rfl, rfl⟩ | ⟨rfl, rfl⟩ | ⟨rfl, rfl⟩
  · have hlast : (Rule.deferInit.build m origin).getLast? = some (';' : CodePoint) := by
      simp only [Rule.deferInit]
      rw [List.getLast?_append_of_ne_nil _ (by decide)]
      rfl
    obtain rfl : CodePoint.ofChar ';' = c := by simpa [hlast] using hc
    decide
  · -- The end of the statement is kept: a semicolon, a blank, or nothing behind the parenthesis.
    obtain ⟨-, -, s₃, e, -, htail, hs₃, he⟩ := Landmark.socket_holds hr
    have hbuild : Rule.openSocket.build m origin =
        "new WebSocket(" ++ m.named "args" ++ ", " ++ Rule.socketOptions origin ++ (")" ++ (s₃ ++ e)) := by
      simp only [Rule.openSocket, htail, List.append_assoc]
    have hmem : c ∈ ")" ++ (s₃ ++ e) := by
      rw [hbuild, List.getLast?_append_of_ne_nil _ (by simp [Text.ofString])] at hc
      exact List.mem_of_getLast? hc
    simp only [List.mem_append] at hmem
    rcases hmem with hmem | hmem | hmem
    · obtain rfl : c = ')' := by simpa [Text.ofString] using hmem
      decide
    · refine ⟨Text.isWord_eq_false_of_isBlank (hs₃ c hmem), ?_⟩
      rintro rfl
      exact absurd (hs₃ _ hmem) (by decide)
    · rcases he with rfl | rfl
      · obtain rfl : c = ';' := by simpa [Text.ofString] using hmem
        decide
      · simp at hmem
  · have hlast : (Rule.reportSocketError.build m origin).getLast? = some (';' : CodePoint) := by
      rw [Rule.build_reportSocketError, ← List.append_assoc, ← List.append_assoc,
        List.getLast?_append_of_ne_nil _ (by decide)]
      rfl
    obtain rfl : CodePoint.ofChar ';' = c := by simpa [hlast] using hc
    decide
  · have hlast : (Rule.refuseChallenge.build m origin).getLast? = some (')' : CodePoint) := rfl
    obtain rfl : CodePoint.ofChar ')' = c := by simpa [hlast] using hc
    decide

theorem build_congr {x : Wanted} {r : Rule} (h : (x, r) ∈ replaced) {m m' : Match} (hm : m.held = m'.held)
    (origin : Text) : r.build m origin = r.build m' origin := by
  rcases replaced_cases h with ⟨rfl, rfl⟩ | ⟨rfl, rfl⟩ | ⟨rfl, rfl⟩ | ⟨rfl, rfl⟩
  · simp only [Rule.deferInit, Match.named_congr hm]
  · simp only [Rule.openSocket, Match.named_congr hm]
  · simp only [Rule.reportSocketError, Match.named_congr hm]
  · rfl

theorem occurrences_build {x y : Wanted} {r : Rule} (h : (x, r) ∈ replaced) (hxy : y ≠ x) {origin : Text}
    (ho : ¬ y.word <:+: origin) {m : Match} {w : Text} (hr : x.landmark.pattern.Reads w m.held) (a b : Text) :
    y.occurrences (a ++ r.build m origin ++ b) ≤ y.occurrences (a ++ w ++ b) := by
  rcases replaced_cases h with ⟨rfl, rfl⟩ | ⟨rfl, rfl⟩ | ⟨rfl, rfl⟩ | ⟨rfl, rfl⟩
  · exact Rule.occurrences_deferInit hxy hr origin a b
  · exact Rule.occurrences_openSocket hxy ho hr a b
  · exact Rule.occurrences_reportSocketError hxy hr origin a b
  · exact Rule.occurrences_refuseChallenge hxy m origin a w b

theorem search?_eq_none {x : Wanted} {t : Text} (h : x.occurrences t = 0) : x.landmark.search? t = none := by
  cases hm : x.landmark.search? t with
  | none => rfl
  | some m =>
    obtain ⟨a, w, b, hfound⟩ := found_of_search? x.edgeFree hm
    obtain ⟨l, k, rfl⟩ := token_infix hfound.reads.denotes
    have hpos : 0 < x.occurrences t := by
      apply places_pos rfl x.foreign_token.nonempty
      exact ⟨a ++ l, x.token, k ++ b, by simp [hfound.whole], rfl⟩
    omega

theorem found_assignment {m : Match} {a w b a' b' : Text} (h : Landmark.roomInit.pattern.MatchedAt m a w b)
    (hvalue : ∃ c ∈ m.named "value", Text.isBlank c = false) (honce : roomInit.occurrences (a' ++ w ++ b') ≤ 1) :
    ∃ m', Landmark.roomInit.search? (a' ++ w ++ b') = some m' ∧ Landmark.roomInit.pattern.MatchedAt m' a' w b' ∧
      m'.held = m.held := by
  obtain ⟨m', hat, hheld⟩ := Assignment.matchedAt_elsewhere h hvalue a' b'
  obtain ⟨m₁, hsearch⟩ := Option.ne_none_iff_exists'.1 (search?_ne_none roomInit.edgeFree rfl hat.reads.denotes)
  obtain ⟨a₁, w₁, b₁, hfound⟩ := found_of_search? roomInit.edgeFree hsearch
  -- Both matches begin with the name, which stands once.
  obtain ⟨l, k, s, hw, ⟨gl, gk, -, ⟨rfl, -⟩, -⟩, -⟩ := reading_of_matchedAt (x := roomInit) hat
  obtain ⟨l₁, k₁, s₁, hw₁, ⟨gl₁, gk₁, -, ⟨rfl, -⟩, -⟩, -⟩ := reading_of_matchedAt (x := roomInit) hfound.toMatchedAt
  have hfront : a' ++ [] = a₁ ++ [] := token_front honce (by rw [hw]) (by rw [hfound.whole, hw₁])
  obtain rfl : a' = a₁ := by simpa using hfront
  have hrest : w ++ b' = w₁ ++ b₁ := by simpa using hfound.whole
  have hmatched := hfound.matched
  rw [← hrest] at hmatched
  obtain rfl : m' = m₁ := Option.some.inj (hat.matched.symm.trans hmatched)
  exact ⟨m', hsearch, hat, hheld⟩

/-! Landmarks that lie apart. -/

/-- A match that what stands around it does not change. -/
def Steady (x : Wanted) (m : Match) : Prop := x = roomInit → ∃ c ∈ m.named "value", Text.isBlank c = false

theorem steady_take {n : Nat} {x : Wanted} (hn : n ≤ x.rank) (m : Match) : replaced.take n = [] ∨ x.Steady m := by
  by_cases hx : x = roomInit
  · subst hx
    obtain rfl : n = 0 := by simpa [rank] using hn
    exact .inl rfl
  · exact .inr fun heq => absurd heq hx

/-- The landmarks that are asked for before `n`: each token stands once, each landmark is found, and no two of the
stretches overlap. -/
structure Separated (t : Text) (m : Wanted → Match) (n : Nat) : Prop where
  once : ∀ x : Wanted, x.rank < n → x.occurrences t = 1
  found : ∀ x : Wanted, x.rank < n → x.landmark.search? t = some (m x)
  apart : ∀ x y : Wanted, x.rank < n → y.rank < n → x ≠ y →
    (m x).stop.index ≤ (m y).start.index ∨ (m y).stop.index ≤ (m x).start.index

namespace Separated

variable {t origin : Text} {m : Wanted → Match} {k : Nat} {ps : List (Wanted × Rule)}

theorem reads (hs : Separated t m k) {x : Wanted} (hx : x.rank < k) :
    ∃ w, x.landmark.pattern.Reads w (m x).held := by
  obtain ⟨a, w, b, hfound⟩ := found_of_search? x.edgeFree (hs.found x hx)
  exact ⟨w, hfound.reads⟩

theorem new_ne_nil (hs : Separated t m k) (hps : Among ps k) : ∀ e ∈ editsOf origin m ps, e.new ≠ [] := by
  intro e he
  obtain ⟨x, r, hp, rfl⟩ := mem_editsOf he
  obtain ⟨hr, hx⟩ := hps _ hp
  obtain ⟨w, hreads⟩ := hs.reads hx
  obtain ⟨c, u, hbuild, -⟩ := build_head hr hreads origin
  simp [Rule.edit, hbuild]

theorem edits_disjoint (hs : Separated t m k) (hps : Among ps k) : Edit.Disjoint (editsOf origin m ps) := by
  intro e he f hf
  obtain ⟨x, r, hp, rfl⟩ := mem_editsOf he
  obtain ⟨y, r', hp', rfl⟩ := mem_editsOf hf
  obtain ⟨hr, hx⟩ := hps _ hp
  obtain ⟨hr', hy⟩ := hps _ hp'
  by_cases hxy : x = y
  · subst hxy
    left
    rw [rule_unique hr hr']
  · right
    exact hs.apart x y hx hy hxy

theorem edits_apart (hs : Separated t m k) (origin : Text) {x : Wanted} (hx : x.rank < k) (hps : Among ps k)
    (hnot : ∀ p ∈ ps, p.1 ≠ x) {a w b : Text} (hfound : x.landmark.pattern.Found t (m x) a w b) :
    ∀ e ∈ editsOf origin m ps, e.stop ≤ a.length ∨ a.length + w.length ≤ e.start := by
  intro e he
  obtain ⟨y, r, hp, rfl⟩ := mem_editsOf he
  have := hs.apart y x (hps _ hp).2 hx (hnot _ hp)
  rwa [hfound.start_index, hfound.stop_index] at this

theorem word_ne_nil {x : Wanted} {m : Match} {a w b : Text} (h : x.landmark.pattern.Found t m a w b) : w ≠ [] := by
  obtain ⟨l, k, s, rfl, -, -⟩ := reading_of_matchedAt h.toMatchedAt
  cases x <;> simp [token, Text.ofString]

/-- In the edited text a landmark that is still to come is found where its stretch has gone, and holds what it held. -/
theorem found_edited (hs : Separated t m k) {x : Wanted} (hx : x.rank < k) (hps : Among ps k)
    (hnot : ∀ p ∈ ps, p.1 ≠ x) (hsteady : ps = [] ∨ x.Steady (m x)) {a w b : Text}
    (hfound : x.landmark.pattern.Found t (m x) a w b)
    (honce : x.occurrences (Edit.applyAll (editsOf origin m ps) t) ≤ 1) :
    ∃ m', x.landmark.search? (Edit.applyAll (editsOf origin m ps) t) = some m' ∧
      x.landmark.pattern.MatchedAt m' (Edit.applyFrom (editsOf origin m ps) 0 a) w
        (Edit.applyFrom (editsOf origin m ps) (a.length + w.length) b) ∧ m'.held = (m x).held := by
  rcases hsteady with rfl | hsteady
  · -- Nothing has been edited yet.
    have hself : ∀ i u, Edit.applyFrom (editsOf origin m []) i u = u :=
      fun i u => Edit.applyFrom_eq_self (by simp [editsOf])
    refine ⟨m x, ?_, ?_, rfl⟩
    · rw [Edit.applyAll, hself]
      exact hs.found x hx
    · rw [hself, hself]
      exact hfound.toMatchedAt
  have happly := (Edit.applyAll_concat (b := b) [] (word_ne_nil hfound)
    (hs.edits_apart origin hx hps hnot hfound)).1
  rw [← hfound.whole] at happly
  by_cases hinit : x = roomInit
  · subst hinit
    rw [happly] at honce ⊢
    exact found_assignment hfound.toMatchedAt (hsteady rfl) honce
  obtain ⟨l, c, s, rfl, hreading, hends⟩ := reading_of_matchedAt hfound.toMatchedAt
  refine found_around hinit happly hreading ?_ ?_ honce
  · -- What follows the statement is as before, or something that a rule has written.
    apply hends.congr
    intro d hd
    have hbehind : ∀ e ∈ editsOf origin m ps, e.stop ≤ a.length + (l ++ x.token ++ c ++ s).length ∨
        a.length + (l ++ x.token ++ c ++ s).length ≤ e.start := by
      intro e he
      have := hs.edits_apart origin hx hps hnot hfound e he
      omega
    rcases Edit.head?_applyFrom (hs.new_ne_nil hps) hbehind hd with h | ⟨e, he, -, hnew⟩
    · exact .inl h
    · obtain ⟨y, r, hp, rfl⟩ := mem_editsOf he
      obtain ⟨hr, hy⟩ := hps _ hp
      obtain ⟨w, hreads⟩ := hs.reads hy
      obtain ⟨d', u, hbuild, hd'⟩ := build_head hr hreads origin
      obtain rfl : d' = d := by simpa [Rule.edit, hbuild] using hnew
      exact .inr hd'
  · -- What stands in front of the landmark is as before, or something that a rule has written.
    intro d hd
    have hfront : ∀ e ∈ editsOf origin m ps, e.stop ≤ a.length ∨ a.length ≤ e.start := by
      intro e he
      have := hs.edits_apart origin hx hps hnot hfound e he
      omega
    rcases Edit.getLast?_applyFrom (hs.edits_disjoint hps) (hs.new_ne_nil hps) hfront hd with
      h | ⟨e, he, -, hnew⟩
    · exact begins_of_found hfound d h
    · obtain ⟨y, r, hp, rfl⟩ := mem_editsOf he
      obtain ⟨hr, hy⟩ := hps _ hp
      obtain ⟨w, hreads⟩ := hs.reads hy
      obtain ⟨hword, hdollar⟩ := build_last hr hreads origin hnew
      exact not_reachesBack hword hdollar

theorem step (hs : Separated t m k) {x : Wanted} {r : Rule} (hr : (x, r) ∈ replaced) (hx : x.rank < k)
    (hps : Among ps k) (hnot : ∀ p ∈ ps, p.1 ≠ x) (hsteady : ps = [] ∨ x.Steady (m x))
    (honce : x.occurrences (Edit.applyAll (editsOf origin m ps) t) ≤ 1) :
    ∃ m', r.Replaces origin (Edit.applyAll (editsOf origin m ps) t) m'
        (Edit.applyAll (editsOf origin m (ps ++ [(x, r)])) t) ∧
      ∀ y : Wanted, y ≠ x → ¬ y.word <:+: origin →
        y.occurrences (Edit.applyAll (editsOf origin m (ps ++ [(x, r)])) t) ≤
          y.occurrences (Edit.applyAll (editsOf origin m ps) t) := by
  obtain ⟨a, w, b, hfound⟩ := found_of_search? x.edgeFree (hs.found x hx)
  obtain ⟨m', hm', hat, hheld⟩ := hs.found_edited hx hps hnot hsteady hfound honce
  have hedit : r.edit origin (m x) = ⟨a.length, a.length + w.length, r.build m' origin⟩ := by
    rw [Rule.edit, hfound.start_index, hfound.stop_index, build_congr hr hheld]
  have hconcat : editsOf origin m (ps ++ [(x, r)]) = editsOf origin m ps ++ [r.edit origin (m x)] := by
    simp [editsOf]
  have happly := Edit.applyAll_concat (b := b) (r.build m' origin) (word_ne_nil hfound)
    (hs.edits_apart origin hx hps hnot hfound)
  rw [← hfound.whole, ← hedit, ← hconcat] at happly
  refine ⟨m', ⟨landmark_of_replaced hr ▸ hm', ?_⟩, ?_⟩
  · rw [happly.2, hat.splice_eq]
  · intro y hy ho
    rw [happly.1, happly.2]
    exact occurrences_build hr hy ho hat.reads _ _

/-- Rules of different landmarks, in any order: they come to their edits, made all at once, and each finds its landmark
once. -/
theorem run_among (hs : Separated t m k) (hps : Among ps k) (hnodup : (ps.map Prod.fst).Nodup)
    (hsteady : ∀ p ∈ ps.tail, p.1.Steady (m p.1)) (ho : ∀ p ∈ ps, ¬ p.1.word <:+: origin) :
    (∀ rest, Rule.applyAll origin (ps.map Prod.snd ++ rest) t =
      Rule.applyFrom origin (ps.map fun p => (p.2.name, 1)) rest (Edit.applyAll (editsOf origin m ps) t)) ∧
    ∀ y : Wanted, (∀ p ∈ ps, p.1 ≠ y) → ¬ y.word <:+: origin →
      y.occurrences (Edit.applyAll (editsOf origin m ps) t) ≤ y.occurrences t := by
  induction ps using List.reverseRecOn with
  | nil =>
    have hself : Edit.applyAll (editsOf origin m []) t = t := Edit.applyFrom_eq_self (by simp [editsOf])
    rw [hself]
    exact ⟨fun rest => rfl, fun y _ _ => Nat.le_refl _⟩
  | append_singleton ps p ih =>
    obtain ⟨x, r⟩ := p
    have hbefore : Among ps k := fun p hp => hps p (List.mem_append_left _ hp)
    obtain ⟨hr, hx⟩ := hps (x, r) (by simp)
    rw [List.map_append, List.nodup_append] at hnodup
    have hnot : ∀ p ∈ ps, p.1 ≠ x := fun p hp => hnodup.2.2 p.1 (List.mem_map_of_mem hp) x (by simp)
    have hsteadyBefore : ∀ p ∈ ps.tail, p.1.Steady (m p.1) := by
      cases ps with
      | nil => simp
      | cons q qs => exact fun p hp => hsteady p (List.mem_append_left _ hp)
    have hsteadyHere : ps = [] ∨ x.Steady (m x) := by
      cases ps with
      | nil => exact .inl rfl
      | cons q qs => exact .inr (hsteady (x, r) (by simp))
    obtain ⟨hrun, hle⟩ := ih hbefore hnodup.1 hsteadyBefore fun p hp => ho p (List.mem_append_left _ hp)
    have honce : x.occurrences (Edit.applyAll (editsOf origin m ps) t) ≤ 1 :=
      hs.once x hx ▸ hle x hnot (ho (x, r) (by simp))
    obtain ⟨m', hstep, hfewer⟩ := hs.step hr hx hbefore hnot hsteadyHere honce
    constructor
    · intro rest
      have hlandmark := landmark_of_replaced hr
      have hcount : r.landmark.count (Edit.applyAll (editsOf origin m ps) t) = 1 :=
        hlandmark ▸ count_of_search? (hlandmark ▸ hstep.found) honce
      have hnew : r.name ∉ Table.keys (ps.map fun p => (p.2.name, 1)) := by
        rw [Table.keys, List.map_map, List.mem_map]
        rintro ⟨p, hp, hname⟩
        have hname : p.2.landmark.name = r.landmark.name := hname
        rw [landmark_of_replaced (hbefore p hp).1, hlandmark] at hname
        exact hnot p hp (landmark_name_injective hname)
      have hrest := hrun (r :: rest)
      rw [Rule.applyFrom, Rule.apply_of_search? hstep.found, ← hstep.after_eq, hcount] at hrest
      simpa [Table.put_of_not_mem hnew, bind, Except.bind] using hrest
    · intro y hy hclean
      have hother : y ≠ x := fun heq => hy (x, r) (by simp) heq.symm
      exact (hfewer y hother hclean).trans (hle y (fun p hp => hy p (List.mem_append_left _ hp)) hclean)

end Separated
end Wanted
end Rehost
