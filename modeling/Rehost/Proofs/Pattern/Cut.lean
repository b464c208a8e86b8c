import Rehost.Proofs.Pattern.Alphabet
import Rehost.Proofs.Pattern.Scan

/-! Matches as far as a text goes on alike. What stands in front of a place does not matter to a pattern without word
edges, nor what stands behind a character that none of its parts accepts. So the matches of a text that such a character
cuts are those of its two pieces, and a match that is replaced takes nothing but itself from the count. -/
namespace Rehost.Pattern

/-- No part of the pattern accepts what the text begins with. -/
def Blocks (p : Pattern) (x : Text) : Prop := ∀ c, x.head? = some c → p.mayHold c = false

theorem blocks_nil (p : Pattern) : p.Blocks [] := by simp [Blocks]

theorem blocks_cons {p : Pattern} {c : CodePoint} (h : p.mayHold c = false) (x : Text) : p.Blocks (c :: x) := by
  simpa [Blocks] using h

theorem Blocks.mono {p q : Pattern} {x : Text} (h : p.Blocks x) (hpq : ∀ c, p.mayHold c = false → q.mayHold c = false) :
    q.Blocks x :=
  fun c hc => hpq c (h c hc)

/-- What a run comes to, counted from a place: how far it has gone on and what its groups hold. -/
def outcome (b : Text) (found : Spot × List Capture) : Nat × Holdings :=
  (found.1.index - b.length, found.2.map Capture.held)

/-! Two runs over one text `a`, behind different texts and in front of different ones that the pattern does not read.
They come to the same if what follows them does. -/

/-- Wherever the text `a` is cut in two, both come to the same from there. -/
def Alike (a b b' x x' : Text) (f f' : Spot → Option (Spot × List Capture)) : Prop :=
  ∀ w r, a = w ++ r →
    (f ⟨w.reverse ++ b, r ++ x⟩).map (outcome b) = (f' ⟨w.reverse ++ b', r ++ x'⟩).map (outcome b')

section
variable {a b b' x x' : Text} {next next' : Spot → Option (Spot × List Capture)} {accepts : CodePoint → Bool}

theorem map_orElse (f : α → β) (o o' : Option α) : (o <|> o').map f = (o.map f <|> o'.map f) := by
  cases o <;> rfl

theorem overMost_of_blocks (hx : (most accepts).Blocks x) : Spot.overMost accepts next b x = next ⟨b, x⟩ := by
  cases x with
  | nil => rfl
  | cons c x =>
    have hc : accepts c = false := hx c rfl
    simp [Spot.overMost, hc]

theorem overFewest_of_blocks (hx : (fewest accepts).Blocks x) : Spot.overFewest accepts next b x = next ⟨b, x⟩ := by
  cases x with
  | nil => rfl
  | cons c x =>
    have hc : accepts c = false := hx c rfl
    simp [Spot.overFewest, hc]

theorem Alike.most (h : Alike a b b' x x' next next') (hx : (most accepts).Blocks x) (hx' : (most accepts).Blocks x') :
    Alike a b b' x x' (run next (most accepts)) (run next' (most accepts)) := by
  intro w r ha
  change (Spot.overMost accepts next _ _).map _ = (Spot.overMost accepts next' _ _).map _
  induction r generalizing w with
  | nil =>
    rw [List.nil_append, List.nil_append, overMost_of_blocks hx, overMost_of_blocks hx']
    exact h w [] ha
  | cons c r ih =>
    have hlonger := ih (w ++ [c]) (by simp [ha])
    have hhere := h w (c :: r) ha
    simp only [List.reverse_append, List.reverse_singleton, List.cons_append, List.nil_append] at hlonger hhere ⊢
    cases hc : accepts c with
    | true => simp only [Spot.overMost, hc, ↓reduceIte, map_orElse, hlonger, hhere]
    | false => simpa [Spot.overMost, hc] using hhere

theorem Alike.fewest (h : Alike a b b' x x' next next') (hx : (fewest accepts).Blocks x)
    (hx' : (fewest accepts).Blocks x') :
    Alike a b b' x x' (run next (fewest accepts)) (run next' (fewest accepts)) := by
  intro w r ha
  change (Spot.overFewest accepts next _ _).map _ = (Spot.overFewest accepts next' _ _).map _
  induction r generalizing w with
  | nil =>
    rw [List.nil_append, List.nil_append, overFewest_of_blocks hx, overFewest_of_blocks hx']
    exact h w [] ha
  | cons c r ih =>
    have hlonger := ih (w ++ [c]) (by simp [ha])
    have hhere := h w (c :: r) ha
    simp only [List.reverse_append, List.reverse_singleton, List.cons_append, List.nil_append] at hlonger hhere ⊢
    cases hc : accepts c with
    | true => simp only [Spot.overFewest, hc, ↓reduceIte, map_orElse, hlonger, hhere]
    | false => simp [Spot.overFewest, hc, hhere]

theorem past?_append {t r x : Text} (hx : (exactly t).Blocks x) : Text.past? t (r ++ x) = (Text.past? t r).map (· ++ x) := by
  induction t generalizing r with
  | nil => rfl
  | cons d t ih =>
    cases r with
    | nil =>
      cases x with
      | nil => rfl
      | cons c x =>
        have hc : c ∉ d :: t := by simpa [mayHold] using hx c rfl
        have hne : d ≠ c := fun heq => hc (by simp [heq])
        simp [Text.past?, hne]
    | cons e r =>
      have hx : (exactly t).Blocks x := hx.mono fun c hc => by
        simp only [mayHold, decide_eq_false_iff_not, List.mem_cons, not_or] at hc ⊢
        exact hc.2
      by_cases hd : d = e <;> simp [Text.past?, hd, ih hx]

theorem run_one_of_blocks (hx : (one accepts).Blocks x) : run next (one accepts) ⟨b, x⟩ = none := by
  cases x with
  | nil => rfl
  | cons c x =>
    have hc : accepts c = false := hx c rfl
    simp [run, hc]

theorem run_most1_of_blocks (hx : (most1 accepts).Blocks x) : run next (most1 accepts) ⟨b, x⟩ = none := by
  cases x with
  | nil => rfl
  | cons c x =>
    have hc : accepts c = false := hx c rfl
    simp [run, hc]

theorem Alike.exactly {t : Text} (h : Alike a b b' x x' next next') (hx : (exactly t).Blocks x)
    (hx' : (exactly t).Blocks x') : Alike a b b' x x' (run next (exactly t)) (run next' (exactly t)) := by
  intro w r ha
  simp only [run, Spot.past?, past?_append hx, past?_append hx']
  cases ht : Text.past? t r with
  | none => rfl
  | some r' =>
    obtain rfl := Text.past?_eq_some_iff.1 ht
    simpa using h (w ++ t) r' (by simp [ha])

theorem Alike.one (h : Alike a b b' x x' next next') (hx : (one accepts).Blocks x) (hx' : (one accepts).Blocks x') :
    Alike a b b' x x' (run next (one accepts)) (run next' (one accepts)) := by
  intro w r ha
  cases r with
  | nil => simp only [List.nil_append, run_one_of_blocks hx, run_one_of_blocks hx', Option.map_none]
  | cons c r =>
    have hrest := h (w ++ [c]) r (by simp [ha])
    by_cases hc : accepts c = true
    · simpa [run, hc] using hrest
    · simp [run, hc]

theorem Alike.most1 (h : Alike a b b' x x' next next') (hx : (most1 accepts).Blocks x)
    (hx' : (most1 accepts).Blocks x') : Alike a b b' x x' (run next (most1 accepts)) (run next' (most1 accepts)) := by
  intro w r ha
  cases r with
  | nil => simp only [List.nil_append, run_most1_of_blocks hx, run_most1_of_blocks hx', Option.map_none]
  | cons c r =>
    have hmost : (Pattern.most accepts).Blocks x := hx
    have hrest := h.most hmost hx' (w ++ [c]) r (by simp [ha])
    by_cases hc : accepts c = true
    · simpa [run, hc] using hrest
    · simp [run, hc]

/-- A group that begins in the text holds the same in both runs, as it ends in the text as well. -/
theorem Alike.captured (h : Alike a b b' x x' next next') (name : Option Text) {w r : Text} (ha : a = w ++ r) :
    Alike a b b' x x'
      (fun e => (next e).map fun found => (found.1, ⟨name, ⟨w.reverse ++ b, r ++ x⟩, e⟩ :: found.2))
      (fun e => (next' e).map fun found => (found.1, ⟨name, ⟨w.reverse ++ b', r ++ x'⟩, e⟩ :: found.2)) := by
  intro w₂ r₂ ha₂
  have hheld : ∀ b x : Text, (Capture.held ⟨name, ⟨w.reverse ++ b, r ++ x⟩, ⟨w₂.reverse ++ b, r₂ ++ x⟩⟩) =
      (name, r.take (w₂.length - w.length)) := by
    intro b x
    have hlen := congrArg List.length (ha.symm.trans ha₂)
    simp only [List.length_append] at hlen
    have hindex : w₂.length + b.length - (w.length + b.length) = w₂.length - w.length := by omega
    simp only [Capture.held, Capture.text, Spot.upTo, Spot.index, List.length_append, List.length_reverse, hindex]
    rw [List.take_append_of_le_length (by omega)]
  have houtcome : ∀ b x : Text, (outcome b ∘ fun found : Spot × List Capture =>
      (found.1, (⟨name, ⟨w.reverse ++ b, r ++ x⟩, ⟨w₂.reverse ++ b, r₂ ++ x⟩⟩ : Capture) :: found.2)) =
      (fun o : Nat × Holdings => (o.1, (name, r.take (w₂.length - w.length)) :: o.2)) ∘ outcome b := by
    intro b x
    funext found
    simp [outcome, hheld]
  rw [Option.map_map, Option.map_map, houtcome, houtcome, ← Option.map_map, ← Option.map_map, h w₂ r₂ ha₂]

theorem Alike.run {p : Pattern} (h : Alike a b b' x x' next next') (he : p.isEdgeFree = true) (hx : p.Blocks x)
    (hx' : p.Blocks x') : Alike a b b' x x' (run next p) (run next' p) := by
  induction p generalizing next next' with
  | nothing => exact h
  | exactly t => exact h.exactly hx hx'
  | one accepts => exact h.one hx hx'
  | seq p q ihp ihq =>
    simp only [isEdgeFree, Bool.and_eq_true] at he
    have hp : ∀ c, (seq p q).mayHold c = false → p.mayHold c = false := fun c hc => (Bool.or_eq_false_iff.1 hc).1
    have hq : ∀ c, (seq p q).mayHold c = false → q.mayHold c = false := fun c hc => (Bool.or_eq_false_iff.1 hc).2
    exact ihp (ihq h he.2 (hx.mono hq) (hx'.mono hq)) he.1 (hx.mono hp) (hx'.mono hp)
  | either p q ihp ihq =>
    simp only [isEdgeFree, Bool.and_eq_true] at he
    have hp : ∀ c, (either p q).mayHold c = false → p.mayHold c = false := fun c hc => (Bool.or_eq_false_iff.1 hc).1
    have hq : ∀ c, (either p q).mayHold c = false → q.mayHold c = false := fun c hc => (Bool.or_eq_false_iff.1 hc).2
    intro w r ha
    simp only [Pattern.run, map_orElse, ihp h he.1 (hx.mono hp) (hx'.mono hp) w r ha,
      ihq h he.2 (hx.mono hq) (hx'.mono hq) w r ha]
  | most accepts => exact h.most hx hx'
  | most1 accepts => exact h.most1 hx hx'
  | fewest accepts => exact h.fewest hx hx'
  | wordEdge => contradiction
  | group name p ih => exact fun w r ha => ih (h.captured name ha) he hx hx' w r ha

end

variable {p : Pattern}

/-- What two matches at places of different texts may have in common: how long they are and what their groups hold. -/
def extent (m : Match) : Nat × Holdings := (m.stop.index - m.start.index, m.held)

theorem extent_alike (he : p.isEdgeFree = true) {x x' : Text} (hx : p.Blocks x) (hx' : p.Blocks x') (a b b' : Text) :
    (p.matchAt? ⟨b, a ++ x⟩).map extent = (p.matchAt? ⟨b', a ++ x'⟩).map extent := by
  have hrun : (run (fun e => some (e, [])) p ⟨b, a ++ x⟩).map (outcome b) =
      (run (fun e => some (e, [])) p ⟨b', a ++ x'⟩).map (outcome b') :=
    Alike.run (fun w r _ => by simp [outcome, Spot.index]) he hx hx' [] a rfl
  have hextent : ∀ s : Spot, (extent ∘ fun found : Spot × List Capture => (⟨s, found.1, found.2⟩ : Match)) =
      outcome s.before := fun s => rfl
  simpa only [matchAt?, Option.map_map, hextent, List.reverse_nil, List.nil_append] using hrun

theorem MatchedAt.extent_eq {m : Match} {a w b : Text} (h : p.MatchedAt m a w b) : extent m = (w.length, m.held) := by
  simp [extent, h.start_index, h.stop_index]

theorem matchAt?_nil (he : p.isEdgeFree = true) (hn : ¬ p.Denotes []) (b : Text) : p.matchAt? ⟨b, []⟩ = none := by
  rw [matchAt?_eq_none_iff he]
  rintro ⟨w, r, heq, hw⟩
  obtain ⟨rfl, -⟩ := List.append_eq_nil_iff.1 heq.symm
  exact hn hw

theorem held_matchesFrom (he : p.isEdgeFree = true) (hn : ¬ p.Denotes []) {x : Text} (hx : p.Blocks x) {skip : Nat}
    {b b' a : Text} (hskip : skip ≤ a.length) :
    (p.matchesFrom skip b (a ++ x)).map Match.held =
      (p.matchesFrom skip b' a).map Match.held ++ (p.matchesFrom 0 (a.reverse ++ b) x).map Match.held := by
  induction a generalizing skip b b' with
  | nil =>
    obtain rfl := Nat.le_zero.1 hskip
    simp [matchesFrom, matchAt?_nil he hn]
  | cons c a ih =>
    have hfront : (c :: a).reverse ++ b = a.reverse ++ (c :: b) := by simp
    cases skip with
    | succ skip =>
      rw [hfront]
      exact ih (Nat.le_of_succ_le_succ hskip)
    | zero =>
      have halike := extent_alike he hx (blocks_nil p) (c :: a) b b'
      rw [List.append_nil] at halike
      rw [hfront, List.cons_append, matchesFrom_cons, matchesFrom_cons]
      rw [List.cons_append] at halike
      cases h : p.matchAt? ⟨b, c :: (a ++ x)⟩ with
      | none =>
        rw [h, Option.map_none, eq_comm, Option.map_eq_none_iff] at halike
        simpa only [halike] using ih (Nat.zero_le _)
      | some m =>
        rw [h, Option.map_some, eq_comm] at halike
        obtain ⟨m', h', hextent⟩ := Option.map_eq_some_iff.1 halike
        obtain ⟨w, r, -, hm⟩ := matchedAt_of_matchAt? h
        obtain ⟨w', r', heq', hm'⟩ := matchedAt_of_matchAt? h'
        rw [hm.extent_eq, hm'.extent_eq, Prod.mk.injEq] at hextent
        have hlen := congrArg List.length heq'
        simp only [List.length_append, List.length_cons] at hlen
        have hrest : (p.matchesFrom (w.length - 1) (c :: b) (a ++ x)).map Match.held =
            (p.matchesFrom (w.length - 1) (c :: b') a).map Match.held ++
              (p.matchesFrom 0 (a.reverse ++ c :: b) x).map Match.held :=
          ih (by omega)
        simp only [h', hm.text_eq, hm'.text_eq, hextent, List.map_cons, List.cons_append, hrest]

theorem held_front (he : p.isEdgeFree = true) (hn : ¬ p.Denotes []) (b t : Text) :
    (p.matchesFrom 0 b t).map Match.held = (p.findAll t).map Match.held := by
  have h : (p.matchesFrom 0 b (t ++ [])).map Match.held =
      (p.matchesFrom 0 [] t).map Match.held ++ (p.matchesFrom 0 (t.reverse ++ b) []).map Match.held :=
    held_matchesFrom he hn (blocks_nil p) (Nat.zero_le _)
  simpa [matchesFrom, matchAt?_nil he hn, findAll] using h

/-- A character that no part accepts cuts a text in two, each with matches of its own. -/
theorem held_append (he : p.isEdgeFree = true) (hn : ¬ p.Denotes []) {x : Text} (hx : p.Blocks x) (a : Text) :
    (p.findAll (a ++ x)).map Match.held = (p.findAll a).map Match.held ++ (p.findAll x).map Match.held := by
  rw [← held_front he hn (a.reverse ++ []) x]
  exact held_matchesFrom he hn hx (Nat.zero_le _)

theorem held_passed (he : p.isEdgeFree = true) (hn : ¬ p.Denotes []) {a b : Text}
    (h : ∀ u v, a = u ++ v → v ≠ [] → ¬ p.opens (v ++ b)) :
    (p.findAll (a ++ b)).map Match.held = (p.findAll b).map Match.held := by
  induction a with
  | nil => rfl
  | cons c a ih =>
    have hnone : p.matchAt? ⟨[], c :: (a ++ b)⟩ = none := (matchAt?_eq_none_iff he).2 (h [] (c :: a) rfl (by simp))
    have hrest := ih fun u v huv => h (c :: u) v (by simp [huv])
    rw [← hrest, ← held_front he hn [c] (a ++ b), findAll, List.cons_append, matchesFrom_cons, hnone]

theorem Found.passed {t a w b : Text} {m : Match} (h : p.Found t m a w b) {u v : Text} (ha : a = u ++ v) (hv : v ≠ []) :
    ¬ p.opens (v ++ (w ++ b)) := by
  subst ha
  intro hopens
  have hle := h.first u (v ++ (w ++ b)) (by simp [h.whole]) hopens
  have hpos := List.length_pos_iff.2 hv
  simp only [List.length_append] at hle
  omega

theorem Found.held_findAll (he : p.isEdgeFree = true) (hn : ¬ p.Denotes []) {t a w b : Text} {m : Match}
    (h : p.Found t m a w b) : (p.findAll t).map Match.held = m.held :: (p.findAll b).map Match.held := by
  have hmatch := h.matched
  have htext := h.text_eq
  rw [h.whole, List.append_assoc, held_passed he hn fun u v => h.passed, ← held_front he hn a.reverse (w ++ b)]
  cases w with
  | nil => exact absurd h.reads.denotes hn
  | cons c w =>
    have hskip := p.matchesFrom_skip w (c :: a.reverse) b
    rw [List.cons_append] at hmatch
    rw [List.cons_append, matchesFrom_cons, hmatch]
    simp only [htext, List.length_cons, Nat.add_sub_cancel, hskip, List.map_cons, held_front he hn]

theorem search?_of_held {t t' : Text} (h : (p.findAll t').map Match.held = (p.findAll t).map Match.held) {m : Match}
    (hm : p.search? t = some m) : ∃ m', p.search? t' = some m' ∧ m'.held = m.held := by
  have hhead := congrArg List.head? h
  rw [List.head?_map, List.head?_map, head?_findAll, head?_findAll, hm] at hhead
  exact Option.map_eq_some_iff.1 hhead

theorem count_eq_length_held (p : Pattern) (t : Text) : p.count t = ((p.findAll t).map Match.held).length := by
  rw [List.length_map]
  rfl

theorem count_of_held {t t' : Text} (h : (p.findAll t').map Match.held = (p.findAll t).map Match.held) :
    p.count t' = p.count t := by
  rw [count_eq_length_held, count_eq_length_held, h]

theorem count_passed (he : p.isEdgeFree = true) (hn : ¬ p.Denotes []) {a b : Text}
    (h : ∀ u v, a = u ++ v → v ≠ [] → ¬ p.opens (v ++ b)) : p.count (a ++ b) = p.count b :=
  count_of_held (held_passed he hn h)

theorem Found.count_eq (he : p.isEdgeFree = true) (hn : ¬ p.Denotes []) {t a w b : Text} {m : Match}
    (h : p.Found t m a w b) : p.count t = p.count b + 1 := by
  rw [count_eq_length_held, count_eq_length_held, h.held_findAll he hn, List.length_cons]

/-- With a text in the place of the first match in which no word begins, and none in front of it that goes on there,
there is one match less. -/
theorem Found.count_replaced (he : p.isEdgeFree = true) (hn : ¬ p.Denotes []) {t a w b new : Text} {m : Match}
    (hm : p.Found t m a w b) (h : ∀ u v, a ++ new = u ++ v → v ≠ [] → ¬ p.opens (v ++ b)) :
    p.count (a ++ new ++ b) + 1 = p.count t := by
  rw [count_passed he hn h, hm.count_eq he hn]

end Rehost.Pattern
