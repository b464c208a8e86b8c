import Rehost.Proofs.Script.Replacement

/-! The assignment of the room's function, and the value that it hands over. Blanks go in front of the value as far as
they can, and the value goes no farther than the first semicolon behind its first character. Only where the line has no
such semicolon a blank is given back, to be the value in front of the semicolon that stands where the value would be. -/
namespace Rehost
open Pattern

theorem Pattern.run_literal_eq_some {t : Text} (ps : List Pattern) {next : Spot → Option (Spot × List Capture)}
    {b a : Text} {found : Spot × List Capture} (h : run next (inOrder (exactly t :: ps)) ⟨b, a⟩ = some found) :
    ∃ r, a = t ++ r ∧ run next (inOrder ps) ⟨t.reverse ++ b, r⟩ = some found := by
  rw [run_inOrder_cons] at h
  obtain ⟨e, he, h⟩ := Option.bind_eq_some_iff.1 h
  obtain ⟨r, hr, rfl⟩ := past?_eq_some he
  exact ⟨r, hr, h⟩

namespace Assignment
open Landmark

def StandsAt (t a tail : Text) : Prop :=
  ∃ s : Text, (∀ c ∈ s, Text.isBlank c = true) ∧ t = a ++ ("HBInit" ++ s ++ "=" ++ tail)

/-- What an assignment hands over of the text behind its sign, and what it leaves: everything from the first visible
character up to the first semicolon behind that one, if they are on one line. Otherwise the first visible character has
to be a semicolon itself, with a blank that ends no line in front of it. -/
inductive Handed : Text → Text → Text → Prop
  | line {s x r : Text} {c : CodePoint} (blank : ∀ d ∈ s, Text.isBlank d = true) (visible : Text.isBlank c = false)
      (free : (';' : CodePoint) ∉ x) (sameLine : ('\n' : CodePoint) ∉ c :: x) :
      Handed (s ++ c :: (x ++ (';' : CodePoint) :: r)) (c :: x) r
  | lastBlank {s r : Text} {d : CodePoint} (blank : ∀ e ∈ s ++ [d], Text.isBlank e = true)
      (sameLine : d ≠ ('\n' : CodePoint))
      (none : ¬ ∃ x r', r = x ++ (';' : CodePoint) :: r' ∧ ('\n' : CodePoint) ∉ x) :
      Handed (s ++ [d] ++ (';' : CodePoint) :: r) [d] r

theorem isBlank_semicolon : Text.isBlank ';' = false := by decide

theorem visible_unique {s s' r r' : Text} {c c' : CodePoint} (hs : ∀ d ∈ s, Text.isBlank d = true)
    (hs' : ∀ d ∈ s', Text.isBlank d = true) (hc : Text.isBlank c = false) (hc' : Text.isBlank c' = false)
    (heq : s ++ c :: r = s' ++ c' :: r') : s = s' ∧ c = c' ∧ r = r' := by
  obtain rfl : s = s' := run_unique hs hs' heq (by simp [hc]) (by simp [hc'])
  exact ⟨rfl, List.cons.inj (List.append_cancel_left heq)⟩

theorem Handed.unique {t value value' r r' : Text} (h : Handed t value r) (h' : Handed t value' r') :
    value = value' ∧ r = r' := by
  have hmixed : ∀ {s x r s' r' : Text} {c d : CodePoint}, (∀ e ∈ s, Text.isBlank e = true) →
      Text.isBlank c = false → ('\n' : CodePoint) ∉ c :: x → (∀ e ∈ s' ++ [d], Text.isBlank e = true) →
      (¬ ∃ x r'', r' = x ++ (';' : CodePoint) :: r'' ∧ ('\n' : CodePoint) ∉ x) →
      s ++ c :: (x ++ (';' : CodePoint) :: r) ≠ s' ++ [d] ++ (';' : CodePoint) :: r' := by
    intro s x r s' r' c d hs hc hline hs' hnone heq
    obtain ⟨-, -, hr⟩ := visible_unique hs hs' hc isBlank_semicolon heq
    exact hnone ⟨x, r, hr.symm, fun hmem => hline (List.mem_cons_of_mem c hmem)⟩
  generalize ht : t = t' at h'
  cases h with
  | line hs hc hfree hline =>
    cases h' with
    | line hs' hc' hfree' _ =>
      obtain ⟨-, rfl, hrest⟩ := visible_unique hs hs' hc hc' ht
      obtain ⟨rfl, -, rfl⟩ := append_cons_unique hfree hfree' hrest
      exact ⟨rfl, rfl⟩
    | lastBlank hs' _ hnone => exact absurd ht (hmixed hs hc hline hs' hnone)
  | lastBlank hs _ hnone =>
    cases h' with
    | line hs' hc' _ hline' => exact absurd ht.symm (hmixed hs' hc' hline' hs hnone)
    | lastBlank hs' _ _ =>
      obtain ⟨hblanks, -, rfl⟩ := visible_unique hs hs' isBlank_semicolon isBlank_semicolon ht
      obtain ⟨-, hd⟩ := List.append_inj' hblanks rfl
      exact ⟨hd, rfl⟩

theorem Handed.value_eq {t value r : Text} (h : Handed t value r) : ∃ c x, value = c :: x ∧ (';' : CodePoint) ∉ x := by
  cases h with
  | line _ _ hfree _ => exact ⟨_, _, rfl, hfree⟩
  | lastBlank _ _ _ => exact ⟨_, [], rfl, by simp⟩

/-! The value as the pattern has it. -/

def valueEnd : List Pattern :=
  [group (some "value") (seq (one (!·.is '\n')) (fewest (!·.is '\n'))), lit ";"]

theorem valueEnd_denotes {c : CodePoint} {x : Text} (h : ('\n' : CodePoint) ∉ c :: x) :
    (inOrder valueEnd).Denotes (c :: x ++ ";") := by
  have hline : ∀ d ∈ c :: x, (!d.is '\n') = true := by
    intro d hd
    simp only [CodePoint.is, Bool.not_eq_true', decide_eq_false_iff_not]
    rintro rfl
    exact h hd
  obtain ⟨hc, hx⟩ := List.forall_mem_cons.1 hline
  exact ⟨c :: x, ";", rfl, ⟨[c], x, rfl, ⟨c, hc, rfl⟩, hx⟩, rfl⟩

theorem run_valueEnd {b t : Text} {found : Spot × List Capture}
    (h : run (fun e => some (e, [])) (inOrder valueEnd) ⟨b, t⟩ = some found) :
    ∃ c x, t = c :: (x ++ (';' : CodePoint) :: found.1.after) ∧ ('\n' : CodePoint) ∉ c :: x ∧
      (';' : CodePoint) ∉ x ∧ found.2.map Capture.held = [(some ("value" : Text), c :: x)] := by
  cases t with
  | nil => simp [valueEnd, inOrder, run] at h
  | cons c t =>
    simp only [valueEnd, inOrder, run] at h
    split at h
    case isFalse => contradiction
    next hc =>
    obtain ⟨x, r, rfl, hx, hend, hfirst⟩ := overFewest_first h
    obtain ⟨found', hsemi, rfl⟩ := Option.map_eq_some_iff.1 hend
    obtain ⟨r, rfl, hstop⟩ := run_literal_eq_some [] hsemi
    obtain rfl : (⟨(";" : Text).reverse ++ (x.reverse ++ c :: b), r⟩, []) = found' := by simpa [inOrder, run] using hstop
    refine ⟨c, x, rfl, ?_, fun hmem => ?_, ?_⟩
    · intro hmem
      rcases List.mem_cons.1 hmem with rfl | hmem
      · simp [CodePoint.is] at hc
      · simpa [CodePoint.is] using hx _ hmem
    · -- A semicolon farther left would have ended the value.
      obtain ⟨u, v, rfl⟩ := List.append_of_mem hmem
      have hnone := hfirst u ((';' : CodePoint) :: v) rfl (by simp)
      simp [run, lit, Spot.past?, Text.past?, Text.ofString] at hnone
    · have hlen : x.length + (b.length + 1) - b.length = x.length + 1 := by omega
      simp [Capture.held, Capture.text, Spot.upTo, Spot.index, hlen]

theorem run_behind {b s tail : Text} (hs : ∀ c ∈ s, Text.isBlank c = true) {m : Match}
    (h : roomInit.pattern.matchAt? ⟨b, "HBInit" ++ s ++ "=" ++ tail⟩ = some m) :
    ∃ b' found, Spot.overMost Text.isBlank (run (fun e => some (e, [])) (inOrder valueEnd)) b' tail = some found ∧
      m.rest = found.1.after ∧ m.held = found.2.map Capture.held := by
  obtain ⟨found, hrun, rfl⟩ := Option.map_eq_some_iff.1 h
  rw [List.append_assoc, List.append_assoc] at hrun
  obtain ⟨r, hr, hrun⟩ := run_literal_eq_some (blanks :: lit "=" :: blanks :: valueEnd) hrun
  obtain rfl := List.append_cancel_left hr
  rw [run_inOrder_cons] at hrun
  obtain ⟨s', r, hsplit, hs', hrun⟩ := overMost_eq_some hrun
  obtain ⟨r, rfl, hrun⟩ := run_literal_eq_some (blanks :: valueEnd) hrun
  have hsign : ∀ {s : Text}, (∀ c ∈ s, Text.isBlank c = true) → ('=' : CodePoint) ∉ s :=
    fun hs hmem => absurd (hs _ hmem) (by decide)
  have hsplit : s ++ ('=' : CodePoint) :: tail = s' ++ ('=' : CodePoint) :: r := hsplit
  obtain ⟨-, -, rfl⟩ := append_cons_unique (hsign hs) (hsign hs') hsplit
  rw [run_inOrder_cons] at hrun
  exact ⟨_, found, hrun, rfl, rfl⟩

theorem handed_of_match {b s tail : Text} (hs : ∀ c ∈ s, Text.isBlank c = true) {m : Match}
    (h : roomInit.pattern.matchAt? ⟨b, "HBInit" ++ s ++ "=" ++ tail⟩ = some m) :
    Handed tail (m.named "value") m.rest := by
  obtain ⟨b', found, hrun, hrest, hheld⟩ := run_behind hs h
  obtain ⟨w, r, rfl, hw, hvalue, hlonger⟩ := overMost_longest hrun
  obtain ⟨c, x, rfl, hline, hfree, hfound⟩ := run_valueEnd hvalue
  have hnamed : m.named "value" = c :: x := by simp [Match.named, Match.named?_eq, hheld, hfound]
  rw [hnamed, hrest]
  cases hc : Text.isBlank c with
  | false => exact .line hw hc hfree hline
  | true =>
    -- The blank was given back, so no value begins behind it.
    have hnone := hlonger c _ rfl hc
    have hvalues : ∀ d y r, x ++ (';' : CodePoint) :: found.1.after = d :: (y ++ (';' : CodePoint) :: r) →
        ('\n' : CodePoint) ∈ d :: y := by
      intro d y r heq
      by_contra hmem
      rw [heq] at hnone
      have hsome : run (fun e => some (e, [])) (inOrder valueEnd) ⟨c :: (w.reverse ++ b'), d :: y ++ ";" ++ r⟩ ≠ none :=
        run_ne_none rfl (valueEnd_denotes hmem) (by simp)
      exact hsome (by simpa [Text.ofString] using hnone)
    cases x with
    | cons d y =>
      have hmem := hvalues d y found.1.after rfl
      exact absurd (List.mem_cons_of_mem c hmem) hline
    | nil =>
      have htail : w ++ c :: ([] ++ (';' : CodePoint) :: found.1.after) = w ++ [c] ++ (';' : CodePoint) :: found.1.after := by
        simp
      rw [htail]
      refine .lastBlank ?_ (fun heq => hline (by simp [heq])) ?_
      · intro e he
        rcases List.mem_append.1 he with he | he
        · exact hw e he
        · rw [List.mem_singleton.1 he, hc]
      · rintro ⟨y, r', hr, hy⟩
        have hmem := hvalues ';' y r' (by simp [hr])
        simp [hy] at hmem
        exact absurd hmem (by decide)

theorem Handed.denotes {tail value r : Text} (h : Handed tail value r) :
    ∃ s, tail = s ++ (value ++ ";" ++ r) ∧ (∀ c ∈ s, Text.isBlank c = true) ∧
      (inOrder valueEnd).Denotes (value ++ ";") := by
  cases h with
  | @line s x r c hs _ _ hline => exact ⟨s, by simp [Text.ofString], hs, valueEnd_denotes hline⟩
  | @lastBlank s r d hs hd _ =>
    have hline : ('\n' : CodePoint) ∉ [d] := by simpa [eq_comm] using hd
    exact ⟨s, by simp [Text.ofString], fun c hc => hs c (by simp [hc]), valueEnd_denotes hline⟩

theorem Handed.opens {s tail value r : Text} (hs : ∀ c ∈ s, Text.isBlank c = true) (h : Handed tail value r) :
    roomInit.pattern.opens ("HBInit" ++ s ++ "=" ++ tail) := by
  obtain ⟨s', rfl, hs', hvalue⟩ := h.denotes
  refine ⟨"HBInit" ++ (s ++ ("=" ++ (s' ++ (value ++ ";")))), r, by simp, ?_⟩
  exact ⟨_, _, rfl, rfl, s, _, rfl, hs, "=", _, rfl, rfl, s', _, rfl, hs', hvalue⟩

theorem StandsAt.of_matchedAt {m : Match} {a w b : Text} (h : roomInit.pattern.MatchedAt m a w b) :
    ∃ tail, StandsAt (a ++ w ++ b) a tail := by
  obtain ⟨w, rfl, h₁⟩ := reads_exactly_cons h.reads
  obtain ⟨s, w, rfl, hs, h₂⟩ := reads_most_cons h₁
  obtain ⟨w, rfl, -⟩ := reads_exactly_cons h₂
  exact ⟨w ++ b, s, hs, by simp⟩

theorem StandsAt.opens {t a tail value r : Text} (h : StandsAt t a tail) (hhanded : Handed tail value r) :
    ∃ v, t = a ++ v ∧ roomInit.pattern.opens v := by
  obtain ⟨s, hs, ht⟩ := h
  exact ⟨_, ht, hhanded.opens hs⟩

/-- At an assignment the pattern matches exactly as the assignment hands its value over. -/
theorem matches_iff {t a tail : Text} (h : StandsAt t a tail) (value r : Text) :
    (∃ m w, t = a ++ w ++ r ∧ roomInit.pattern.MatchedAt m a w r ∧ m.named "value" = value) ↔
      Handed tail value r := by
  obtain ⟨s, hs, ht⟩ := h
  constructor
  · rintro ⟨m, w, hwhole, hm, rfl⟩
    have hbehind : w ++ r = "HBInit" ++ s ++ "=" ++ tail := by
      rw [hwhole, List.append_assoc] at ht
      exact List.append_cancel_left ht
    have hmatch := hm.matched
    rw [hbehind] at hmatch
    have hhanded := handed_of_match hs hmatch
    rwa [hm.rest_eq] at hhanded
  · intro hhanded
    obtain ⟨m, hmatch⟩ := Option.ne_none_iff_exists'.1
      ((matchAt?_ne_none_iff (p := roomInit.pattern) rfl (b := a.reverse)).2 (hhanded.opens hs))
    obtain ⟨w, r', hwhole, hm⟩ := matchedAt_of_matchAt? hmatch
    rw [List.reverse_reverse] at hm
    have hfound := handed_of_match hs hmatch
    rw [hm.rest_eq] at hfound
    obtain ⟨hvalue, rfl⟩ := hfound.unique hhanded
    exact ⟨m, w, by rw [ht, hwhole, List.append_assoc], hm, hvalue⟩

/-- What follows has no part in what is handed over, unless that is a blank. -/
theorem Handed.elsewhere {t value r : Text} (h : Handed t value r) (hvisible : ∃ c ∈ value, Text.isBlank c = false) :
    ∃ u, t = u ++ r ∧ ∀ r', Handed (u ++ r') value r' := by
  cases h with
  | @line s x r c hs hc hfree hline =>
    refine ⟨s ++ c :: (x ++ ";"), by simp [Text.ofString], fun r' => ?_⟩
    have hwhole : s ++ c :: (x ++ ";") ++ r' = s ++ c :: (x ++ (';' : CodePoint) :: r') := by simp [Text.ofString]
    rw [hwhole]
    exact .line hs hc hfree hline
  | lastBlank hblank _ _ =>
    obtain ⟨c, hc, hvisible⟩ := hvisible
    rw [hblank c (List.mem_append_right _ hc)] at hvisible
    contradiction

theorem held_of_reads {m : Match} {w : Text} (h : roomInit.pattern.Reads w m.held) :
    m.held = [(some ("value" : Text), m.named "value")] := by
  obtain ⟨_, _, c, v, -, hheld⟩ := roomInit_reads h
  simp [Match.named, Match.named?_eq, hheld]

theorem matchedAt_elsewhere {m : Match} {a w b : Text} (h : roomInit.pattern.MatchedAt m a w b)
    (hvisible : ∃ c ∈ m.named "value", Text.isBlank c = false) (a' b' : Text) :
    ∃ m', roomInit.pattern.MatchedAt m' a' w b' ∧ m'.held = m.held := by
  obtain ⟨tail, hstands⟩ := StandsAt.of_matchedAt h
  have hhanded := (matches_iff hstands (m.named "value") b).1 ⟨m, w, rfl, h, rfl⟩
  obtain ⟨u, rfl, helsewhere⟩ := hhanded.elsewhere hvisible
  obtain ⟨s, hs, hwhole⟩ := hstands
  obtain rfl : w = "HBInit" ++ s ++ "=" ++ u := by
    have hbehind : w ++ b = "HBInit" ++ s ++ "=" ++ u ++ b := by simpa using hwhole
    exact List.append_cancel_right hbehind
  have hstands' : StandsAt (a' ++ ("HBInit" ++ s ++ "=" ++ u) ++ b') a' (u ++ b') := ⟨s, hs, by simp⟩
  obtain ⟨m', w', hwhole', hat, hnamed⟩ := (matches_iff hstands' _ b').2 (helsewhere b')
  obtain rfl := List.append_cancel_left (List.append_cancel_right hwhole')
  exact ⟨m', hat, by rw [held_of_reads hat.reads, held_of_reads h.reads, hnamed]⟩

end Assignment

namespace Rule
open Assignment

/-- An assignment matches exactly as it hands its value over: no other assignment is the beginning of a match. The one
that is found is the first that hands over anything, and the rule replaces all that it covers by the call. -/
theorem deferInit_handsOver (t origin : Text) :
    (∀ a tail, StandsAt t a tail → ∀ value behind,
      (∃ m w, t = a ++ w ++ behind ∧ Landmark.roomInit.pattern.MatchedAt m a w behind ∧ m.named "value" = value) ↔
        Handed tail value behind) ∧
    (∀ m, Landmark.roomInit.search? t = some m → ∃ tail, StandsAt t m.front tail ∧
      Handed tail (m.named "value") m.rest ∧
      (∀ a' tail' value behind, StandsAt t a' tail' → Handed tail' value behind → m.front.length ≤ a'.length) ∧
      deferInit.apply origin t = .ok (m.front ++ ("promiseResolve(" ++ m.named "value" ++ ");") ++ m.rest,
        Landmark.roomInit.count t)) ∧
    (Landmark.roomInit.search? t = none ↔
      ∀ a tail value behind, StandsAt t a tail → ¬ Handed tail value behind) := by
  have hfirst : ∀ m, Landmark.roomInit.search? t = some m → ∃ tail, StandsAt t m.front tail ∧
      Handed tail (m.named "value") m.rest ∧
      ∀ a' tail' value behind, StandsAt t a' tail' → Handed tail' value behind → m.front.length ≤ a'.length := by
    intro m hm
    obtain ⟨a, w, b, hfound⟩ := found_of_search? rfl hm
    obtain ⟨tail, hstands⟩ := StandsAt.of_matchedAt hfound.toMatchedAt
    rw [← hfound.whole] at hstands
    rw [hfound.front_eq, hfound.rest_eq]
    refine ⟨tail, hstands, (matches_iff hstands _ b).1 ⟨m, w, hfound.whole, hfound.toMatchedAt, rfl⟩, ?_⟩
    intro a' tail' value behind h' hhanded'
    obtain ⟨v, hv, hopens⟩ := h'.opens hhanded'
    exact hfound.first a' v hv hopens
  refine ⟨fun a tail h => matches_iff h, fun m hm => ?_, fun hnone a tail value behind h hhanded => ?_, fun hnone => ?_⟩
  · obtain ⟨tail, hstands, hhanded, hleft⟩ := hfirst m hm
    refine ⟨tail, hstands, hhanded, hleft, ?_⟩
    rw [apply_of_search? hm, Match.splice_eq]
    rfl
  · obtain ⟨v, rfl, w, r, rfl, hw⟩ := h.opens hhanded
    exact search?_ne_none rfl (List.append_assoc a w r).symm hw hnone
  · by_contra hsome
    obtain ⟨m, hm⟩ := Option.ne_none_iff_exists'.1 hsome
    obtain ⟨tail, hstands, hhanded, -⟩ := hfirst m hm
    exact hnone _ _ _ _ hstands hhanded

/-- Where the line ends at the semicolon that is reached first, a blank is handed over. -/
example : (deferInit.apply "o" "HBInit=  ;\nHBInit=;x;").toOption.map Prod.fst =
    some "promiseResolve( );\nHBInit=;x;" := by
  decide +kernel

end Rule
end Rehost
