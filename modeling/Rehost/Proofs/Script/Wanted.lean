import Rehost.Proofs.Script.Replacement
import Rehost.Script.Capability

/-! The landmarks that a rehosting asks for. Each of them stands around a token of its own, so where the token stands
once, the landmark is found there and nowhere else, whatever surrounds it. -/
namespace Rehost
open Pattern

/-- The landmarks in the order in which a rehosting asks for them. -/
inductive Wanted where
  | roomInit
  | socket
  | socketError
  | challenge
  | initGuard
  | lookup
deriving DecidableEq, Repr

namespace Wanted

def rank : Wanted → Nat
  | roomInit => 0
  | socket => 1
  | socketError => 2
  | challenge => 3
  | initGuard => 4
  | lookup => 5

def landmark : Wanted → Landmark
  | roomInit => .roomInit
  | socket => .socket
  | socketError => .socketError
  | challenge => .challenge
  | initGuard => .initGuard
  | lookup => .lookup

/-- What no match of the landmark can do without. -/
def token : Wanted → Text
  | roomInit => "HBInit"
  | socket => "WebSocket"
  | socketError => "onerror"
  | challenge => "\"recaptcha\""
  | initGuard => "\"Can't init twice\""
  | lookup => "\"noPlayer\""

def occurrences (x : Wanted) (t : Text) : Nat := (exactly x.token).places t

/-! The parts of a landmark: in front of its token, behind it, and the end of the statement. -/

def left : Wanted → List Pattern
  | roomInit => []
  | socket => [Landmark.lit "new", blanks1]
  | socketError =>
    [group (some "obj") Landmark.letters, Landmark.lit ".", group (some "prop") Landmark.letters, Landmark.lit "."]
  | challenge => [Landmark.lit "case", blanks1]
  | initGuard => Landmark.guardLeft
  | lookup =>
    [group (some "name") (most1 fun c => Text.isWord c || c = '$'), blanks, Landmark.lit "(", blanks]

def core : Wanted → List Pattern
  | roomInit =>
    [blanks, Landmark.lit "=", blanks, group (some "value") (seq (one (!·.is '\n')) (fewest (!·.is '\n'))),
      Landmark.lit ";"]
  | socket => [blanks, Landmark.lit "(", group (some "args") (most1 (!·.is ')')), Landmark.lit ")"]
  | socketError =>
    [blanks, Landmark.lit "=", blanks, Landmark.lit "function", blanks, Landmark.lit "(", blanks, Landmark.lit ")",
      blanks, Landmark.lit "\x7b", blanks, group (some "method_obj") Landmark.letters, Landmark.lit ".",
      group (some "method") Landmark.letters, blanks, Landmark.lit "(", blanks,
      group (some "truthy") (either (Landmark.lit "!0") (Landmark.lit "true")), blanks, Landmark.lit ")", blanks,
      Landmark.lit "\x7d"]
  | challenge =>
    [blanks, Landmark.lit ":", blanks, Landmark.letters, blanks, Landmark.lit "(", blanks, most1 (!·.is ')'), blanks,
      Landmark.lit ")"]
  | initGuard => Landmark.guardRight
  | lookup => [blanks, Landmark.lit ","]

def tail : Wanted → List Pattern
  | socket => [group (some "tail") (seq blanks (optional (Landmark.lit ";")))]
  | socketError => [blanks, optional (Landmark.lit ";")]
  | _ => []

/-- What is in front of the end of the statement. The literal of an error handler holds the dot in front of its
token. -/
def head : Wanted → List Pattern
  | socketError =>
    [group (some "obj") Landmark.letters, Landmark.lit ".", group (some "prop") Landmark.letters,
      Landmark.lit ".onerror"] ++ core socketError
  | x => x.left ++ exactly x.token :: x.core

theorem pattern_eq (x : Wanted) : x.landmark.pattern = inOrder (x.head ++ x.tail) := by
  cases x <;> rfl

theorem edgeFree (x : Wanted) : x.landmark.pattern.isEdgeFree = true := by
  cases x <;> rfl

theorem head_reads {x : Wanted} {w : Text} {g : Holdings} (h : (inOrder x.head).Reads w g) :
    ∃ l k gl gk, w = l ++ x.token ++ k ∧ g = gl ++ gk ∧ (inOrder x.left).Reads l gl ∧ (inOrder x.core).Reads k gk := by
  have hsplit : ∀ (ps : List Pattern) (t : Text) (qs : List Pattern), (inOrder (ps ++ exactly t :: qs)).Reads w g →
      ∃ l k gl gk, w = l ++ t ++ k ∧ g = gl ++ gk ∧ (inOrder ps).Reads l gl ∧ (inOrder qs).Reads k gk := by
    intro ps t qs h
    obtain ⟨l, _, gl, gk, rfl, rfl, hl, h⟩ := (reads_inOrder_append _ _).1 h
    obtain ⟨k, rfl, hk⟩ := reads_exactly_cons h
    exact ⟨l, k, gl, gk, by simp, rfl, hl, hk⟩
  cases x with
  | socketError =>
    obtain ⟨l, k, gl, gk, rfl, rfl, hl, hk⟩ := hsplit
      [group (some "obj") Landmark.letters, Landmark.lit ".", group (some "prop") Landmark.letters] ".onerror"
      (core socketError) h
    refine ⟨l ++ ".", k, gl, gk, by simp [token, Text.ofString], rfl, ?_, hk⟩
    exact (reads_inOrder_append _ [Landmark.lit "."]).2 ⟨l, ".", gl, [], rfl, by simp, hl, rfl, rfl⟩
  | roomInit | socket | challenge | initGuard | lookup => exact hsplit _ _ _ h

theorem head_denotes {x : Wanted} {l k : Text} (hl : (inOrder x.left).Denotes l) (hk : (inOrder x.core).Denotes k) :
    (inOrder x.head).Denotes (l ++ x.token ++ k) := by
  cases x with
  | socketError =>
    obtain ⟨u, e, rfl, hu, he⟩ := (denotes_inOrder_append
      [group (some "obj") Landmark.letters, Landmark.lit ".", group (some "prop") Landmark.letters]
      [Landmark.lit "."]).1 hl
    obtain rfl : e = "." := he
    refine (denotes_around
      [group (some "obj") Landmark.letters, Landmark.lit ".", group (some "prop") Landmark.letters] ".onerror"
      (core socketError)).2
      ⟨u, k, by simp [token, Text.ofString], hu, hk⟩
  | roomInit | socket | challenge | initGuard | lookup => exact (denotes_around _ _ _).2 ⟨l, k, rfl, hl, hk⟩

/-! The end of a statement. -/

/-- Blanks and a semicolon as far as they go: where the semicolon is missing, neither follows. -/
def StatementEnd (s r : Text) : Prop :=
  ∃ u e : Text, s = u ++ e ∧ (∀ c ∈ u, Text.isBlank c = true) ∧
    (e = ";" ∨ e = [] ∧ ∀ c, r.head? = some c → Text.isBlank c = false ∧ c ≠ ';')

theorem StatementEnd.unique {s s' r r' : Text} (h : StatementEnd s r) (h' : StatementEnd s' r')
    (heq : s ++ r = s' ++ r') : s = s' := by
  obtain ⟨u, e, rfl, hu, he⟩ := h
  obtain ⟨u', e', rfl, hu', he'⟩ := h'
  have hsemi : Text.isBlank ';' = false := by decide
  rw [List.append_assoc, List.append_assoc] at heq
  have hstop : ∀ {e r : Text}, (e = ";" ∨ e = [] ∧ ∀ c, r.head? = some c → Text.isBlank c = false ∧ c ≠ ';') →
      ∀ c, (e ++ r).head? = some c → ¬ Text.isBlank c = true := by
    rintro e r (rfl | ⟨rfl, hr⟩) c hc
    · obtain rfl : CodePoint.ofChar ';' = c := by simpa [Text.ofString] using hc
      simp [hsemi]
    · simp [(hr c hc).1]
  obtain rfl := run_unique hu hu' heq (hstop he) (hstop he')
  have heq := List.append_cancel_left heq
  rcases he with rfl | ⟨rfl, hr⟩ <;> rcases he' with rfl | ⟨rfl, hnone⟩
  · rfl
  · exact absurd rfl (hnone ';' (by rw [List.nil_append] at heq; simp [← heq, Text.ofString])).2
  · exact absurd rfl (hr ';' (by rw [List.nil_append] at heq; simp [heq, Text.ofString])).2
  · rfl

theorem run_statementEnd {next : Spot → Option (Spot × List Capture)} (hnext : ∀ s, next s ≠ none) {b t : Text}
    {found : Spot × List Capture} (h : run next (seq blanks (optional (Landmark.lit ";"))) ⟨b, t⟩ = some found) :
    ∃ s r, t = s ++ r ∧ StatementEnd s r ∧ next ⟨s.reverse ++ b, r⟩ = some found := by
  have htotal : ∀ s, run next (optional (Landmark.lit ";")) s ≠ none := by
    intro s
    simp [Pattern.optional, run, hnext]
  obtain ⟨u, r, rfl, hu, hx, hlonger⟩ := overMost_longest h
  rcases orElse_eq_some hx with hx | ⟨hnone, hx⟩
  · obtain ⟨e, he, hx⟩ := Option.bind_eq_some_iff.1 hx
    obtain ⟨r', hr', rfl⟩ := past?_eq_some he
    obtain rfl : r = ";" ++ r' := hr'
    exact ⟨u ++ ";", r', by simp, ⟨u, ";", rfl, hu, .inl rfl⟩, by simpa using hx⟩
  · refine ⟨u, r, rfl, ⟨u, [], by simp, hu, .inr ⟨rfl, ?_⟩⟩, hx⟩
    intro c hc
    obtain ⟨r', rfl⟩ := List.head?_eq_some_iff.1 hc
    constructor
    · by_contra hblank
      exact htotal _ (hlonger c r' rfl (by simpa using hblank))
    rintro rfl
    exact hnext _ (by simpa [run, Landmark.lit, Spot.past?, Text.past?, Text.ofString] using hnone)

/-! Where a landmark is found. -/

def Ends : Wanted → Text → Text → Prop
  | socket, s, r | socketError, s, r => StatementEnd s r
  | _, s, _ => s = []

def tailHeld : Wanted → Text → Holdings
  | socket, s => [(some "tail", s)]
  | _, _ => []

def Reading (x : Wanted) (l k s : Text) (g : Holdings) : Prop :=
  ∃ gl gk, g = gl ++ gk ++ x.tailHeld s ∧ (inOrder x.left).Reads l gl ∧ (inOrder x.core).Reads k gk

theorem run_tail {x : Wanted} {b t : Text} {stop : Spot} {later : List Capture}
    (h : run (fun e => some (e, [])) (inOrder x.tail) ⟨b, t⟩ = some (stop, later)) :
    ∃ s r, t = s ++ r ∧ x.Ends s r ∧ stop = ⟨s.reverse ++ b, r⟩ ∧ later.map Capture.held = x.tailHeld s := by
  cases x with
  | socket =>
    obtain ⟨s, r, rfl, hs, hn⟩ := run_statementEnd (by simp) h
    simp only [Option.map_some, Option.some.injEq, Prod.mk.injEq] at hn
    obtain ⟨rfl, rfl⟩ := hn
    refine ⟨s, r, rfl, hs, rfl, ?_⟩
    simp [tailHeld, Capture.held, Capture.text, Spot.upTo, Spot.index]
  | socketError =>
    obtain ⟨s, r, rfl, hs, hn⟩ := run_statementEnd (by simp) h
    simp only [Option.some.injEq, Prod.mk.injEq] at hn
    obtain ⟨rfl, rfl⟩ := hn
    exact ⟨s, r, rfl, hs, rfl, rfl⟩
  | roomInit | challenge | initGuard | lookup =>
    simp only [tail, inOrder, run, Option.some.injEq, Prod.mk.injEq] at h
    obtain ⟨rfl, rfl⟩ := h
    exact ⟨[], t, rfl, rfl, rfl, rfl⟩

theorem reading_of_matchedAt {x : Wanted} {m : Match} {a w b : Text} (h : x.landmark.pattern.MatchedAt m a w b) :
    ∃ l k s, w = l ++ x.token ++ k ++ s ∧ x.Reading l k s m.held ∧ x.Ends s b := by
  obtain ⟨⟨stop, captures⟩, hfound, hm⟩ := Option.map_eq_some_iff.1 h.matched
  rw [pattern_eq, run_inOrder_append] at hfound
  obtain ⟨w₁, r₁, cs, later, heq, hreads, htail, rfl⟩ := run_eq_some hfound
  obtain ⟨s, r, rfl, hends, rfl, hlater⟩ := run_tail htail
  obtain ⟨l, k, gl, gk, rfl, hg, hl, hk⟩ := head_reads hreads
  have hstop := h.stop_eq
  rw [← hm] at hstop ⊢
  simp only [Spot.mk.injEq] at hstop
  obtain ⟨hw, rfl⟩ := hstop
  have hw : w = l ++ x.token ++ k ++ s := by
    have := congrArg List.reverse hw
    simpa using this.symm
  refine ⟨l, k, s, hw, ⟨gl, gk, ?_, hl, hk⟩, hends⟩
  simp [Match.held, hg, hlater]

theorem tail_denotes {x : Wanted} {s r : Text} (h : x.Ends s r) : (inOrder x.tail).Denotes s := by
  have hend : StatementEnd s r → (seq blanks (Pattern.optional (Landmark.lit ";"))).Denotes s := by
    rintro ⟨u, e, rfl, hu, he⟩
    refine ⟨u, e, rfl, hu, ?_⟩
    rcases he with rfl | ⟨rfl, -⟩
    · exact .inl rfl
    · exact .inr rfl
  cases x with
  | socket | socketError => exact hend h
  | roomInit | challenge | initGuard | lookup => exact h

theorem Reading.denotes {x : Wanted} {l k s r : Text} {g : Holdings} (h : x.Reading l k s g) (hs : x.Ends s r) :
    x.landmark.pattern.Denotes (l ++ x.token ++ k ++ s) := by
  obtain ⟨gl, gk, -, hl, hk⟩ := h
  rw [pattern_eq]
  exact (denotes_inOrder_append _ _).2 ⟨_, s, rfl, head_denotes hl.denotes hk.denotes, tail_denotes hs⟩

theorem token_infix {x : Wanted} {w : Text} (h : x.landmark.pattern.Denotes w) : x.token <:+: w := by
  rw [pattern_eq] at h
  obtain ⟨u, s, rfl, hu, -⟩ := (denotes_inOrder_append _ _).1 h
  obtain ⟨g, hg⟩ := (denotes_iff_reads _ _).1 hu
  obtain ⟨l, k, -, -, rfl, -⟩ := head_reads hg
  exact ⟨l, k ++ s, by simp⟩

theorem Ends.unique {x : Wanted} {s s' r r' : Text} (h : x.Ends s r) (h' : x.Ends s' r') (heq : s ++ r = s' ++ r') :
    s = s' := by
  cases x with
  | socket | socketError => exact StatementEnd.unique h h' heq
  | roomInit | challenge | initGuard | lookup => exact Eq.trans h h'.symm

theorem Ends.congr {x : Wanted} {s r r' : Text} (h : x.Ends s r)
    (hr : ∀ c, r'.head? = some c → r.head? = some c ∨ Text.isBlank c = false ∧ c ≠ ';') : x.Ends s r' := by
  have hend : StatementEnd s r → StatementEnd s r' := by
    rintro ⟨u, e, rfl, hu, he⟩
    refine ⟨u, e, rfl, hu, he.imp_right ?_⟩
    rintro ⟨rfl, hnone⟩
    refine ⟨rfl, fun c hc => ?_⟩
    rcases hr c hc with h | h
    · exact hnone c h
    · exact h
  cases x with
  | socket | socketError => exact hend h
  | roomInit | challenge | initGuard | lookup => exact h

/-- The characters that a match takes in to the left of where it might begin. -/
def reachesBack : Wanted → CodePoint → Bool
  | socketError, c => c.isAlpha
  | lookup, c => Text.isWord c || c = '$'
  | _, _ => false

theorem not_reachesBack {x : Wanted} {c : CodePoint} (hword : Text.isWord c = false) (hdollar : c ≠ '$') :
    x.reachesBack c = false := by
  cases x with
  | socketError =>
    cases hc : c.isAlpha with
    | false => exact hc
    | true =>
      rw [Text.isWord_of_isAlpha hc] at hword
      contradiction
  | lookup => simp [reachesBack, hword, hdollar]
  | roomInit | socket | challenge | initGuard => rfl

def Begins (x : Wanted) (a : Text) : Prop := ∀ c, a.getLast? = some c → x.reachesBack c = false

theorem left_mirror_grows (x : Wanted) (c : CodePoint) : (inOrder x.left).mirror.grows c ↔ x.reachesBack c = true := by
  cases x <;> simp [left, Landmark.guardLeft, inOrder, Landmark.lit, blanks, blanks1, Landmark.member, Landmark.letters,
    Text.ofString, reachesBack]

theorem Begins.stopsBehind {x : Wanted} {a : Text} (h : x.Begins a) : (inOrder x.left).StopsBehind a := by
  intro c hc hg
  rw [List.head?_reverse] at hc
  rw [left_mirror_grows, h c hc] at hg
  contradiction

theorem denotes_reach {x : Wanted} {c : CodePoint} (hc : x.reachesBack c = true) {w : Text}
    (hw : x.landmark.pattern.Denotes w) : x.landmark.pattern.Denotes (c :: w) := by
  have hreach : ∀ {name : Option Text} {accepts : CodePoint → Bool} {ps : List Pattern}, accepts c = true →
      (inOrder (group name (most1 accepts) :: ps)).Denotes w →
      (inOrder (group name (most1 accepts) :: ps)).Denotes (c :: w) := by
    intro name accepts ps hc h
    obtain ⟨u, v, rfl, ⟨-, hu⟩, hv⟩ := denotes_inOrder_cons.1 h
    exact denotes_inOrder_cons.2 ⟨c :: u, v, rfl, ⟨by simp, by simpa [hc] using hu⟩, hv⟩
  cases x with
  | socketError => exact hreach hc hw
  | lookup => exact hreach hc hw
  | roomInit | socket | challenge | initGuard => simp [reachesBack] at hc

theorem begins_of_found {x : Wanted} {t a w b : Text} {m : Match} (h : x.landmark.pattern.Found t m a w b) :
    x.Begins a := by
  intro c hc
  obtain ⟨a, rfl⟩ := List.getLast?_eq_some_iff.1 hc
  cases hreach : x.reachesBack c with
  | false => rfl
  | true =>
    have hle := h.first a (c :: w ++ b) (by simp [h.whole])
      ⟨c :: w, b, rfl, denotes_reach hreach h.reads.denotes⟩
    rw [List.length_append] at hle
    exact absurd hle (by simp)

theorem left_mirror_oneWay (x : Wanted) : (inOrder x.left).mirror.OneWay := by
  cases x with
  | initGuard => exact Landmark.guardLeft_mirror_oneWay
  | roomInit | socket | socketError | challenge =>
    simp +decide [left, inOrder, Landmark.lit, blanks1, Landmark.letters, Text.ofString, forall_accepts_ne]
  | lookup =>
    simp +decide [left, inOrder, Landmark.lit, blanks, Text.ofString, forall_accepts_ne]
    intro c hc
    refine ⟨Text.isWord_eq_false_of_isBlank hc, ?_⟩
    rintro rfl
    exact absurd hc (by decide)

theorem left_oneWay (x : Wanted) : (inOrder x.left).OneWay := by
  cases x with
  | lookup =>
    simp +decide [left, inOrder, Landmark.lit, blanks, Text.ofString, forall_accepts_ne]
    rintro c (hc | rfl)
    · refine ⟨Text.isBlank_eq_false_of_isWord hc, ?_⟩
      rintro rfl
      exact absurd hc (by decide)
    · decide
  | roomInit | socket | socketError | challenge | initGuard =>
    simp +contextual +decide [left, Landmark.guardLeft, inOrder, Landmark.lit, blanks, blanks1, Landmark.member,
      Landmark.letters, Text.ofString, forall_accepts_ne, Text.isBlank_eq_false_of_isAlpha,
      Text.isAlpha_eq_false_of_isBlank]

theorem core_oneWay {x : Wanted} (hinit : x ≠ roomInit) (hchallenge : x ≠ challenge) : (inOrder x.core).OneWay := by
  cases x with
  | roomInit => contradiction
  | challenge => contradiction
  | socket =>
    simp +decide [core, inOrder, Landmark.lit, blanks, Text.ofString, forall_accepts_ne, CodePoint.is]
    intro c hc hparen
    exact hc hparen.symm
  | socketError | initGuard | lookup =>
    simp +contextual +decide [core, Landmark.guardRight, inOrder, Landmark.lit, blanks, Landmark.member,
      Landmark.letters, Text.ofString, forall_accepts_ne, forall_and, Text.isBlank_eq_false_of_isAlpha,
      Text.isAlpha_eq_false_of_isBlank]

theorem core_stops {x : Wanted} (hinit : x ≠ roomInit) (hchallenge : x ≠ challenge) (r : Text) :
    (inOrder x.core).Stops r := by
  cases x with
  | roomInit => contradiction
  | challenge => contradiction
  | socket | socketError | initGuard | lookup =>
    simp [Stops, core, Landmark.guardRight, inOrder, Landmark.lit, blanks, Landmark.member, Landmark.letters,
      Text.ofString]

def challengeCall : List Pattern :=
  [blanks, Landmark.lit ":", blanks, Landmark.letters, blanks, Landmark.lit "("]

theorem challengeCall_oneWay : (inOrder challengeCall).OneWay := by
  simp +contextual +decide [challengeCall, inOrder, Landmark.lit, blanks, Landmark.letters, Text.ofString,
    forall_accepts_ne, Text.isBlank_eq_false_of_isAlpha, Text.isAlpha_eq_false_of_isBlank]

theorem challenge_core_reads {k : Text} {g : Holdings} (h : (inOrder challenge.core).Reads k g) :
    ∃ u v, k = u ++ v ++ ")" ∧ (inOrder challengeCall).Reads u g ∧ (')' : CodePoint) ∉ v := by
  obtain ⟨u, w, gu, gv, rfl, rfl, hu, h₁⟩ := (reads_inOrder_append challengeCall _).1 h
  obtain ⟨s, w, rfl, hs, h₂⟩ := reads_most_cons h₁
  obtain ⟨y, w, rfl, ⟨-, hy⟩, h₃⟩ := reads_most1_cons h₂
  obtain ⟨s', w, rfl, hs', rfl, rfl⟩ := reads_most_cons h₃
  refine ⟨u, s ++ y ++ s', by simp, by simpa using hu, ?_⟩
  have hparen : Text.isBlank ')' = false := by decide
  intro hmem
  simp only [List.mem_append] at hmem
  rcases hmem with (hmem | hmem) | hmem
  · simp [hs _ hmem] at hparen
  · simpa [CodePoint.is] using hy _ hmem
  · simp [hs' _ hmem] at hparen

/-- Only the value of an assignment may be read in more than one way. -/
theorem core_unique {x : Wanted} (hx : x ≠ roomInit) {k k' r r' : Text} {g g' : Holdings}
    (h : (inOrder x.core).Reads k g) (h' : (inOrder x.core).Reads k' g') (heq : k ++ r = k' ++ r') :
    k = k' ∧ g = g' := by
  by_cases hchallenge : x = challenge
  · subst hchallenge
    obtain ⟨u, v, rfl, hu, hv⟩ := challenge_core_reads h
    obtain ⟨u', v', rfl, hu', hv'⟩ := challenge_core_reads h'
    have hstops : ∀ r, (inOrder challengeCall).Stops r := by
      simp [Stops, challengeCall, inOrder, Landmark.lit, blanks, Landmark.letters, Text.ofString]
    simp only [List.append_assoc] at heq
    obtain ⟨rfl, rfl⟩ := challengeCall_oneWay.unique hu hu' heq (hstops _) (hstops _)
    have heq : v ++ (')' : CodePoint) :: r = v' ++ (')' : CodePoint) :: r' := List.append_cancel_left heq
    obtain ⟨rfl, -, -⟩ := append_cons_unique hv hv' heq
    exact ⟨rfl, rfl⟩
  · exact (core_oneWay hx hchallenge).unique h h' heq (core_stops hx hchallenge r) (core_stops hx hchallenge r')

theorem token_nonempty (x : Wanted) : ¬ (exactly x.token).Denotes [] := by
  cases x <;> exact fun h => by simp [Denotes, token, Text.ofString] at h

theorem token_front {x : Wanted} {t a l k s b a' l' k' s' b' : Text} (honce : x.occurrences t ≤ 1)
    (ht : t = a ++ (l ++ x.token ++ k ++ s) ++ b) (ht' : t = a' ++ (l' ++ x.token ++ k' ++ s') ++ b') :
    a ++ l = a' ++ l' := by
  have hat : t = a ++ l ++ x.token ++ (k ++ s ++ b) := by simpa using ht
  have hat' : t = a' ++ l' ++ x.token ++ (k' ++ s' ++ b') := by simpa using ht'
  exact front_unique (p := exactly x.token) rfl x.token_nonempty honce hat hat' rfl rfl

/-- Where the token stands once, the landmark is found around it, with the same holdings whatever surrounds it. -/
theorem found_around {x : Wanted} (hx : x ≠ roomInit) {t a l k s b : Text} {g : Holdings}
    (ht : t = a ++ (l ++ x.token ++ k ++ s) ++ b) (hr : x.Reading l k s g) (hs : x.Ends s b) (ha : x.Begins a)
    (honce : x.occurrences t ≤ 1) :
    ∃ m, x.landmark.search? t = some m ∧ x.landmark.pattern.MatchedAt m a (l ++ x.token ++ k ++ s) b ∧ m.held = g := by
  obtain ⟨m, hm⟩ := Option.ne_none_iff_exists'.1 (search?_ne_none x.edgeFree ht (hr.denotes hs))
  obtain ⟨a', w', b', hfound⟩ := found_of_search? x.edgeFree hm
  obtain ⟨l', k', s', rfl, hr', hs'⟩ := reading_of_matchedAt hfound.toMatchedAt
  -- The token is in one place, so what stands in front of it is the same.
  have hfront : a ++ l = a' ++ l' := token_front honce ht hfound.whole
  obtain ⟨gl, gk, rfl, hl, hk⟩ := hr
  obtain ⟨gl', gk', hg', hl', hk'⟩ := hr'
  obtain rfl : l = l' :=
    eq_of_append_eq x.left_mirror_oneWay hl.denotes hl'.denotes hfront ha.stopsBehind
      (begins_of_found hfound).stopsBehind
  obtain rfl : a = a' := List.append_cancel_right hfront
  obtain rfl : gl = gl' := x.left_oneWay.held_unique hl hl'
  -- Behind the token nothing is left to choose.
  have hbehind : k ++ (s ++ b) = k' ++ (s' ++ b') := by
    have := ht.symm.trans hfound.whole
    simpa using this
  obtain ⟨rfl, rfl⟩ := core_unique hx hk hk' hbehind
  have hends := List.append_cancel_left hbehind
  obtain rfl := hs.unique hs' hends
  obtain rfl : b = b' := List.append_cancel_left hends
  exact ⟨m, hm, hfound.toMatchedAt, hg'⟩

theorem findAll_of_search? {x : Wanted} {t : Text} {m : Match} (hm : x.landmark.search? t = some m)
    (honce : x.occurrences t ≤ 1) : x.landmark.pattern.findAll t = [m] := by
  have hhead := head?_findAll x.landmark.pattern t
  have hm : x.landmark.pattern.search? t = some m := hm
  rw [hm, List.head?_eq_some_iff] at hhead
  obtain ⟨ms, hall⟩ := hhead
  rw [hall, List.cons.injEq, List.eq_nil_iff_forall_not_mem]
  refine ⟨rfl, fun m' hm' => ?_⟩
  -- A later match would have the token in another place.
  have hstop := stop_le_of_matchesFrom hall hm'
  have hmem : m' ∈ x.landmark.pattern.matchesFrom 0 [] t := by
    have hfrom : x.landmark.pattern.matchesFrom 0 [] t = m :: ms := hall
    simp [hfrom, hm']
  obtain ⟨a', w', b', rfl, -, hat⟩ := mem_matchesFrom hmem
  obtain ⟨a, w, b, hfound⟩ := found_of_search? x.edgeFree hm
  obtain ⟨l', k', s', rfl, -, -⟩ := reading_of_matchedAt hat
  obtain ⟨l, k, s, rfl, -, -⟩ := reading_of_matchedAt hfound.toMatchedAt
  have hlen := congrArg List.length (token_front honce rfl hfound.whole)
  have hpos : 0 < x.token.length := by
    cases x <;> decide
  rw [hfound.stop_index, hat.start_index] at hstop
  simp only [List.length_append, List.length_reverse, List.length_nil] at hlen hstop
  omega

theorem search?_of_mem_findAll {x : Wanted} {t : Text} {m : Match} (hm : m ∈ x.landmark.pattern.findAll t)
    (honce : x.occurrences t ≤ 1) : x.landmark.search? t = some m := by
  cases hsearch : x.landmark.search? t with
  | none =>
    have hhead : (x.landmark.pattern.findAll t).head? = x.landmark.search? t := head?_findAll x.landmark.pattern t
    rw [hsearch, List.head?_eq_none_iff] at hhead
    simp [hhead] at hm
  | some m₀ =>
    rw [findAll_of_search? hsearch honce, List.mem_singleton] at hm
    rw [hm]

theorem count_of_search? {x : Wanted} {t : Text} {m : Match} (hm : x.landmark.search? t = some m)
    (honce : x.occurrences t ≤ 1) : x.landmark.count t = 1 :=
  congrArg List.length (findAll_of_search? hm honce)

end Wanted
end Rehost
