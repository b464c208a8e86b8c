import Mathlib.Data.List.Infix
import Mathlib.Data.List.TakeWhile
import Rehost.Proofs.Pattern.Reading
import Rehost.Script.BuildHash

/-! The build hash of a script. The comment that opens a script ends at its first end; up to there the hash is the
leftmost run of eight digits that stands as a word of its own, whatever stands before and behind the comment. A
comment that never ends is read through a window, and a window has an edge at which a longer word looks like a whole
one. -/
namespace Rehost

namespace Text

theorem before?_eq_none_iff {needle t : Text} (hne : needle ≠ []) : before? needle t = none ↔ ¬ needle <:+: t := by
  induction t with
  | nil => simp [before?, hne]
  | cons c t ih => by_cases hbegins : needle <+: c :: t <;> simp [before?, List.infix_cons_iff, hbegins, ih]

theorem before?_eq_some {needle t u : Text} (hne : needle ≠ []) (h : before? needle t = some u) :
    ∃ v, t = u ++ needle ++ v ∧ ¬ needle <:+: u := by
  induction t generalizing u with
  | nil =>
    have hempty : needle.isEmpty = false := by simpa using hne
    simp [before?, hempty] at h
  | cons c t ih =>
    rw [before?] at h
    split at h
    · next hbegins =>
      obtain rfl := Option.some.inj h
      obtain ⟨v, hv⟩ := List.isPrefixOf_iff_prefix.1 hbegins
      exact ⟨v, by simpa using hv.symm, by simpa using hne⟩
    · next hbegins =>
      obtain ⟨u, hu, rfl⟩ := Option.map_eq_some_iff.1 h
      obtain ⟨v, rfl, hinfix⟩ := ih hu
      refine ⟨v, rfl, fun hc => ?_⟩
      rcases List.infix_cons_iff.1 hc with hc | hc
      · exact hbegins (List.isPrefixOf_iff_prefix.2 (hc.trans ⟨needle ++ v, by simp⟩))
      · exact hinfix hc

def endsInWord (t : Text) : Bool := t.getLast?.any isWord

def beginsInWord (t : Text) : Bool := t.head?.any isWord

theorem endsInWord_append {s t : Text} (h : t ≠ []) : endsInWord (s ++ t) = endsInWord t := by
  obtain ⟨c, hc⟩ : ∃ c, t.getLast? = some c := ⟨_, List.getLast?_eq_some_getLast h⟩
  simp [endsInWord, hc]

theorem beginsInWord_append {s t : Text} (h : s ≠ []) : beginsInWord (s ++ t) = beginsInWord s := by
  obtain ⟨c, u, rfl⟩ := List.exists_cons_of_ne_nil h
  rfl

end Text

namespace BuildHash
open Text (isWord isBlank endsInWord beginsInWord)
open Pattern

/-- The digits of a hash; capital ones are none. -/
def isDigit (c : CodePoint) : Bool := ('a' ≤ c && c ≤ 'f') || ('0' ≤ c && c ≤ '9')

def IsHash (w : Text) : Prop := w.length = 8 ∧ ∀ c ∈ w, isDigit c = true

/-- A hash between two stretches of a text, and a word of its own there. -/
structure StandsIn (t a w b : Text) : Prop where
  whole : t = a ++ w ++ b
  hash : IsHash w
  before : endsInWord a = false
  behind : beginsInWord b = false

structure Leftmost (t a w b : Text) : Prop extends StandsIn t a w b where
  first : ∀ a' w' b', StandsIn t a' w' b' → a.length ≤ a'.length

def opener : Text := "/*"

def closer : Text := "*/"

def Lead (t : Text) : Prop :=
  ∃ marks blanks, t = marks ++ blanks ∧ (∀ c ∈ marks, c = '\ufeff') ∧ ∀ c ∈ blanks, isBlank c = true

/-- A script opens with a comment, which runs to the first end or, if there is none, to the end of the script. -/
structure Opens (source lead inside behind : Text) : Prop where
  whole : source = lead ++ opener ++ inside ++ behind
  lead : Lead lead
  endless : ¬ closer <:+: inside
  ends : behind = [] ∨ closer <+: behind

/-- What is read of a comment: all of it if there is something behind it, or else what the window holds. -/
def reach (inside behind : Text) : Text := if behind = [] then inside.take (window - opener.length) else inside

variable {t a w b c r source lead inside behind : Text}

theorem closer_append_ne_nil (r : Text) : closer ++ r ≠ [] := List.append_ne_nil_of_left_ne_nil (by decide) r

theorem reach_endless (inside : Text) : reach inside [] = inside.take (window - opener.length) := rfl

theorem reach_ended (inside r : Text) : reach inside (closer ++ r) = inside := if_neg (closer_append_ne_nil r)

/-! What a search for a hash finds. -/

theorem isWord_of_isDigit {c : CodePoint} (h : isDigit c = true) : isWord c = true := by
  have halphanum : c.isAlphanum = true := by
    simp only [isDigit, Bool.or_eq_true, Bool.and_eq_true, decide_eq_true_eq] at h
    simp only [CodePoint.isAlphanum, CodePoint.isAlpha, CodePoint.isLower, CodePoint.isDigit, Bool.or_eq_true,
      Bool.and_eq_true, decide_eq_true_eq]
    rcases h with ⟨ha, hf⟩ | h
    · exact .inl (.inr ⟨ha, Nat.le_trans hf (by decide)⟩)
    · exact .inr h
  exact Text.isWord_of_isAlphanum halphanum

theorem IsHash.ne_nil (h : IsHash w) : w ≠ [] := by
  rintro rfl
  simp [IsHash] at h

theorem IsHash.beginsInWord (h : IsHash w) : Text.beginsInWord w = true := by
  obtain ⟨c, w, rfl⟩ := List.exists_cons_of_ne_nil h.ne_nil
  simpa [Text.beginsInWord] using isWord_of_isDigit (h.2 c (by simp))

theorem IsHash.endsInWord (h : IsHash w) : Text.endsInWord w = true := by
  have hlast := List.getLast?_eq_some_getLast h.ne_nil
  simpa [Text.endsInWord, hlast] using isWord_of_isDigit (h.2 _ (List.getLast_mem h.ne_nil))

theorem denotes_times {accepts : CodePoint → Bool} {n : Nat} :
    (times n (one accepts)).Denotes w ↔ w.length = n ∧ ∀ c ∈ w, accepts c = true := by
  induction n generalizing w with
  | zero => simp +contextual [times, Denotes]
  | succ n ih =>
    simp only [times, Denotes, ih]
    constructor
    · rintro ⟨_, v, rfl, ⟨c, hc, rfl⟩, hlength, hall⟩
      exact ⟨by simp [hlength], by simpa [hc] using hall⟩
    · rintro ⟨hlength, hall⟩
      cases w with
      | nil => simp at hlength
      | cons c w => exact ⟨[c], w, rfl, ⟨c, hall c (by simp), rfl⟩, by simpa using hlength,
          fun d hd => hall d (List.mem_cons_of_mem _ hd)⟩

def digits : Pattern := group none (times 8 (one isDigit))

theorem digits_denotes : digits.Denotes w ↔ IsHash w := denotes_times

theorem run_buildHash (next : Spot → Option (Spot × List Capture)) (s : Spot) :
    run next Landmark.buildHash.pattern s =
      if s.atEdge then run (fun e => if e.atEdge then next e else none) digits s else none := rfl

theorem atEdge_eq (a b : Text) : (Spot.mk a.reverse b).atEdge = (endsInWord a != beginsInWord b) := by
  simp [Spot.atEdge, endsInWord, beginsInWord]

theorem standsIn_of_matchedAt {m : Match} (h : Landmark.buildHash.pattern.MatchedAt m a w b) :
    StandsIn (a ++ w ++ b) a w b := by
  have hmatched := h.matched
  rw [matchAt?, run_buildHash, Option.map_eq_some_iff] at hmatched
  obtain ⟨found, hrun, -⟩ := hmatched
  rw [Option.ite_none_right_eq_some] at hrun
  obtain ⟨hedge, hrun⟩ := hrun
  obtain ⟨u, v, cs, later, hafter, hu, hnext, -⟩ := run_eq_some hrun
  rw [Option.ite_none_right_eq_some] at hnext
  obtain ⟨hedge', -⟩ := hnext
  have hhash : IsHash u := digits_denotes.1 hu.denotes
  -- What the whole pattern has read is what its digits have read, the edges being empty.
  have hw : IsHash w := by
    obtain ⟨_, _, rfl, rfl, _, _, rfl, hdigits, rfl⟩ : ∃ e v, w = e ++ v ∧ e = [] ∧ ∃ u e', v = u ++ e' ∧
        digits.Denotes u ∧ e' = [] := h.reads.denotes
    simpa using digits_denotes.1 hdigits
  obtain ⟨rfl, rfl⟩ := List.append_inj hafter (hw.1.trans hhash.1.symm)
  have hafter' : Spot.mk (w.reverse ++ a.reverse) b = ⟨(a ++ w).reverse, b⟩ := by simp
  rw [hafter', atEdge_eq, Text.endsInWord_append hw.ne_nil, hw.endsInWord] at hedge'
  rw [atEdge_eq, Text.beginsInWord_append hw.ne_nil, hw.beginsInWord] at hedge
  exact ⟨rfl, hw, by simpa using hedge, by simpa using hedge'⟩

theorem StandsIn.matchAt?_ne_none (h : StandsIn t a w b) :
    Landmark.buildHash.pattern.matchAt? ⟨a.reverse, w ++ b⟩ ≠ none := by
  have hedge : (Spot.mk a.reverse (w ++ b)).atEdge = true := by
    rw [atEdge_eq, Text.beginsInWord_append h.hash.ne_nil, h.hash.beginsInWord, h.before]
    rfl
  have hedge' : (Spot.mk (w.reverse ++ a.reverse) b).atEdge = true := by
    rw [← List.reverse_append, atEdge_eq, Text.endsInWord_append h.hash.ne_nil, h.hash.endsInWord, h.behind]
    rfl
  rw [matchAt?, run_buildHash, if_pos hedge, Ne, Option.map_eq_none_iff]
  exact run_ne_none rfl (digits_denotes.2 h.hash) (by simp [hedge'])

theorem leftmost_of_search? {m : Match} (h : Landmark.buildHash.search? t = some m) : ∃ a b, Leftmost t a m.text b := by
  obtain ⟨a, w, b, rfl, hmatched, hnone⟩ := searchFrom?_eq_some h
  rw [List.reverse_nil, List.nil_append] at hmatched
  rw [hmatched.text_eq]
  refine ⟨a, b, standsIn_of_matchedAt hmatched, fun a' w' b' h' => ?_⟩
  rcases Nat.lt_or_ge a'.length a.length with hlt | hge
  case inr => exact hge
  have hbegins : a' <+: a ++ w ++ b := ⟨w' ++ b', by simp [h'.whole]⟩
  have hbegins' : a <+: a ++ w ++ b := ⟨w ++ b, by simp⟩
  obtain ⟨x, rfl⟩ := List.prefix_of_prefix_length_le hbegins hbegins' hlt.le
  have hx : x ≠ [] := by
    rintro rfl
    simp at hlt
  have hrest : x ++ w ++ b = w' ++ b' := by simpa using h'.whole
  have hnever := hnone a' x rfl hx
  rw [List.append_nil, hrest] at hnever
  exact absurd hnever h'.matchAt?_ne_none

theorem not_standsIn_of_search? (h : Landmark.buildHash.search? t = none) (a w b : Text) : ¬ StandsIn t a w b := by
  intro hstands
  have hnone := searchFrom?_eq_none h a (w ++ b) (by simp [hstands.whole])
  rw [List.append_nil] at hnone
  exact hstands.matchAt?_ne_none hnone

/-! The comment that opens a script. -/

theorem lead_body (source : Text) : ∃ lead, Lead lead ∧ source = lead ++ body source := by
  refine ⟨source.takeWhile (·.is '\ufeff') ++ (source.dropWhile (·.is '\ufeff')).takeWhile isBlank,
    ⟨_, _, rfl, fun c hc => ?_, fun c hc => List.mem_takeWhile_imp hc⟩, ?_⟩
  · simpa [CodePoint.is] using List.mem_takeWhile_imp hc
  · rw [body, List.append_assoc, List.takeWhile_append_dropWhile, List.takeWhile_append_dropWhile]

theorem dropWhile_append_eq {p : CodePoint → Bool} (ha : ∀ c ∈ a, p c = true) (hb : ∀ c ∈ b.head?, p c = false) :
    (a ++ b).dropWhile p = b := by
  rw [List.dropWhile_append_of_pos ha]
  cases b with
  | nil => rfl
  | cons c b => simp [hb c rfl]

theorem body_append (hlead : Lead lead) (rest : Text) : body (lead ++ opener ++ rest) = opener ++ rest := by
  obtain ⟨marks, blanks, rfl, hmarks, hblanks⟩ := hlead
  have hmark : ∀ c : CodePoint, c.is '\ufeff' = true ↔ c = '\ufeff' := fun c => by simp [CodePoint.is]
  have hbehind : ∀ c ∈ (blanks ++ (opener ++ rest)).head?, c.is '\ufeff' = false := by
    intro c hc
    rw [Bool.eq_false_iff, Ne, hmark]
    rintro rfl
    cases blanks with
    | nil => exact absurd (Option.some.inj hc) (by decide)
    | cons d blanks =>
      obtain rfl := Option.some.inj hc
      exact absurd (hblanks '\ufeff' (by simp)) (by decide)
  rw [body, List.append_assoc, List.append_assoc, dropWhile_append_eq (fun c hc => (hmark c).2 (hmarks c hc)) hbehind]
  refine dropWhile_append_eq hblanks fun c hc => ?_
  obtain rfl := Option.some.inj hc
  decide

theorem past?_opener (rest : Text) : Text.past? "/*" (opener ++ rest) = some rest := Text.past?_eq_some_iff.2 rfl

theorem before?_closer (hc : ¬ closer <:+: c) (r : Text) : Text.before? closer (c ++ closer ++ r) = some c := by
  induction c with
  | nil => rfl
  | cons d c ih =>
    rw [List.infix_cons_iff, not_or] at hc
    have hnot : closer.isPrefixOf (d :: (c ++ closer ++ r)) = false := by
      rw [Bool.eq_false_iff, Ne, List.isPrefixOf_iff_prefix]
      intro hbegins
      obtain ⟨rfl, hslash⟩ := List.cons_prefix_cons.1 hbegins
      cases c with
      | nil => exact absurd (List.cons_prefix_cons.1 hslash).1 (by decide)
      | cons e c =>
        obtain ⟨rfl, -⟩ := List.cons_prefix_cons.1 hslash
        exact hc.1 ⟨c, rfl⟩
    have hrest := ih hc.2
    rw [List.cons_append, List.cons_append, Text.before?, hnot, hrest]
    rfl

theorem exists_opens (hlead : Lead lead) (rest : Text) :
    ∃ inside behind, Opens (lead ++ opener ++ rest) lead inside behind := by
  cases h : Text.before? closer rest with
  | none =>
    have hendless := (Text.before?_eq_none_iff (by decide)).1 h
    exact ⟨rest, [], by simp, hlead, hendless, .inl rfl⟩
  | some inside =>
    obtain ⟨behind, rfl, hendless⟩ := Text.before?_eq_some (by decide) h
    exact ⟨inside, closer ++ behind, by simp, hlead, hendless, .inr (List.prefix_append ..)⟩

theorem Opens.leadingComment_eq (h : Opens source lead inside behind) :
    leadingComment source = opener ++ reach inside behind := by
  have hbody : body source = opener ++ (inside ++ behind) := by
    rw [h.whole, List.append_assoc, body_append h.lead]
  rw [leadingComment, hbody, past?_opener]
  rcases h.ends with rfl | ⟨rest, rfl⟩
  · have hnone : Text.before? "*/" inside = none := (Text.before?_eq_none_iff (by decide)).2 h.endless
    have htake : (opener ++ inside).take window = opener ++ inside.take (window - opener.length) := List.take_append
    simp only [List.append_nil, hnone, reach_endless, htake]
  · have hsome : Text.before? "*/" (inside ++ (closer ++ rest)) = some inside := by
      rw [← List.append_assoc]
      exact before?_closer h.endless rest
    simp only [hsome, reach_ended]
    rfl

theorem leadingComment_of_unopened (h : ¬ ∃ lead rest, Lead lead ∧ source = lead ++ opener ++ rest) :
    leadingComment source = [] := by
  rw [leadingComment]
  split
  · rfl
  next rest hpast =>
    obtain ⟨lead, hlead, hsource⟩ := lead_body source
    rw [Text.past?_eq_some_iff.1 hpast, ← List.append_assoc] at hsource
    exact absurd ⟨lead, rest, hlead, hsource⟩ h

/-! What is found in the comment, without and with its opener. -/

inductive Names (t : Text) : Text → Prop
  | hash (a w b : Text) : Leftmost t a w b → Names t w
  | nothing : (∀ a w b, ¬ StandsIn t a w b) → Names t unknown

theorem names_extract (source : Text) : Names (leadingComment source) (extract source) := by
  rw [extract, find?]
  cases h : Landmark.buildHash.search? (leadingComment source) with
  | none => exact .nothing (not_standsIn_of_search? h)
  | some m =>
    obtain ⟨a, b, hleftmost⟩ := leftmost_of_search? h
    exact .hash a m.text b hleftmost

theorem endsInWord_opened (s a : Text) : endsInWord (s ++ opener ++ a) = endsInWord a := by
  cases a with
  | nil =>
    rw [List.append_nil, Text.endsInWord_append (by decide)]
    decide
  | cons c a => exact Text.endsInWord_append (by simp)

theorem StandsIn.opened (h : StandsIn c a w b) : StandsIn (opener ++ c) (opener ++ a) w b :=
  ⟨by simp [h.whole], h.hash, (endsInWord_opened [] a).trans h.before, h.behind⟩

theorem StandsIn.exists_opened (h : StandsIn (opener ++ c) a w b) : ∃ a', a = opener ++ a' ∧ StandsIn c a' w b := by
  have hwhole : a ++ (w ++ b) = opener ++ c := by rw [h.whole, List.append_assoc]
  have hbehind : ∀ a', a = opener ++ a' → c = a' ++ (w ++ b) → ∃ a', a = opener ++ a' ∧ StandsIn c a' w b := by
    rintro a' rfl rfl
    exact ⟨a', rfl, by simp, h.hash, (endsInWord_opened [] a').symm.trans h.before, h.behind⟩
  rcases List.append_eq_append_iff.1 hwhole with ⟨x, hx, hc⟩ | ⟨a', ha, hc⟩
  · cases x with
    | nil => exact hbehind [] (by simpa using hx.symm) (by simpa using hc.symm)
    | cons d x =>
      obtain ⟨e, v, rfl⟩ := List.exists_cons_of_ne_nil h.hash.ne_nil
      obtain ⟨rfl, -⟩ := List.cons.inj hc
      have hdigit : isDigit e = true := h.hash.2 e (by simp)
      have hmem : e ∈ opener := by simp [hx]
      exact absurd hdigit ((by decide : ∀ d ∈ opener, ¬ isDigit d = true) e hmem)
  · exact hbehind a' ha hc

theorem Names.of_opened {token : Text} (h : Names (opener ++ c) token) : Names c token := by
  cases h with
  | hash a w b h =>
    obtain ⟨a, rfl, hstands⟩ := h.exists_opened
    refine .hash a token b ⟨hstands, fun a' w' b' h' => ?_⟩
    simpa using h.first _ w' b' h'.opened
  | nothing h => exact .nothing fun a w b hstands => h _ w b hstands.opened

theorem Names.exists_standsIn {token : Text} (h : Names t token) (hne : token ≠ unknown) :
    ∃ a b, StandsIn t a token b := by
  cases h with
  | hash a w b h => exact ⟨a, b, h.toStandsIn⟩
  | nothing h => contradiction

theorem Names.unique {token token' : Text} (h : Names t token) (h' : Names t token') : token = token' := by
  cases h with
  | hash a w b h =>
    cases h' with
    | hash a' w' b' h' =>
      have hlength : a.length = a'.length := Nat.le_antisymm (h.first _ _ _ h'.toStandsIn) (h'.first _ _ _ h.toStandsIn)
      have hwhole : a ++ token ++ b = a' ++ token' ++ b' := h.whole.symm.trans h'.whole
      rw [List.append_assoc, List.append_assoc] at hwhole
      obtain ⟨-, hrest⟩ := List.append_inj hwhole hlength
      exact (List.append_inj hrest (h.hash.1.trans h'.hash.1.symm)).1
    | nothing h' => exact absurd h.toStandsIn (h' a token b)
  | nothing h =>
    cases h' with
    | hash a' w' b' h' => exact absurd h'.toStandsIn (h a' token' b')
    | nothing h' => rfl

theorem Names.of_nil {token : Text} (h : Names [] token) : token = unknown := by
  cases h with
  | hash a w b h =>
    have hwhole := h.whole
    simp [h.hash.ne_nil] at hwhole
  | nothing h => rfl

theorem Opens.names_extract (h : Opens source lead inside behind) : Names (reach inside behind) (extract source) := by
  have hnames := BuildHash.names_extract source
  rw [h.leadingComment_eq] at hnames
  exact hnames.of_opened

theorem lead_nil : Lead [] := ⟨[], [], rfl, by simp, by simp⟩

theorem names_extract_of_ended (hlead : Lead lead) (hc : ¬ closer <:+: c) (r : Text) :
    Names c (extract (lead ++ opener ++ c ++ closer ++ r)) := by
  have hopens : Opens (lead ++ opener ++ c ++ closer ++ r) lead c (closer ++ r) :=
    ⟨by simp, hlead, hc, .inr (List.prefix_append ..)⟩
  have hnames := hopens.names_extract
  rwa [reach_ended] at hnames

theorem extract_of_unopened (h : ¬ ∃ lead rest, Lead lead ∧ source = lead ++ opener ++ rest) :
    extract source = unknown := by
  have hnames := BuildHash.names_extract source
  rw [leadingComment_of_unopened h] at hnames
  exact hnames.of_nil

/-- What a comment that ends names is found, and the rest of the script has no say in it. -/
theorem extract_decided :
    (∀ c, ¬ closer <:+: c →
      ∃ token, Names c token ∧ ∀ lead r, Lead lead → extract (lead ++ opener ++ c ++ closer ++ r) = token) ∧
    ∀ source, (¬ ∃ lead rest, Lead lead ∧ source = lead ++ opener ++ rest) → extract source = unknown := by
  constructor
  · intro c hc
    have halone := names_extract_of_ended lead_nil hc []
    exact ⟨_, halone, fun lead r hlead => (names_extract_of_ended hlead hc r).unique halone⟩
  · intro source hunopened
    exact extract_of_unopened hunopened

example : extract "\ufeff /*/ 00badcafe #0badcafe*/ 1badcafe /* 2badcafe */" = "0badcafe" := by decide +kernel

/-! A comment that never ends, at the edge of the window. -/

/-- A hash in the first characters of a text stands in the whole text as well, unless it ends with them and the text
goes on with its word. -/
theorem StandsIn.of_take {n : Nat} (h : StandsIn (t.take n) a w b) :
    ∃ b', t = a ++ w ++ b' ∧ (beginsInWord b' = true → (a ++ w).length = n) := by
  have hwhole : t = a ++ w ++ (b ++ t.drop n) := by
    rw [← List.append_assoc, ← h.whole, List.take_append_drop]
  refine ⟨b ++ t.drop n, hwhole, fun hword => ?_⟩
  cases b with
  | nil =>
    have hn : n ≤ t.length := by
      by_contra hgt
      have hdrop : t.drop n = [] := List.drop_eq_nil_of_le (by omega)
      simp [hdrop, beginsInWord] at hword
    have hlength := congrArg List.length h.whole
    simpa [hn] using hlength.symm
  | cons d b => exact absurd (hword.symm.trans h.behind) (by decide)

theorem StandsIn.of_reach (h : StandsIn (reach inside behind) a w b) (hends : behind = [] ∨ closer <+: behind) :
    ∃ b', inside = a ++ w ++ b' ∧ (beginsInWord (b' ++ behind) = true ↔
      behind = [] ∧ (opener ++ a ++ w).length = window ∧ beginsInWord b' = true) := by
  rcases hends with rfl | ⟨r, rfl⟩
  · rw [reach_endless] at h
    obtain ⟨b, hinside, hedge⟩ := h.of_take
    refine ⟨b, hinside, ?_⟩
    rw [List.append_nil]
    refine ⟨fun hword => ⟨rfl, ?_, hword⟩, fun hcut => hcut.2.2⟩
    rw [List.append_assoc, List.length_append, hedge hword]
    rfl
  · rw [reach_ended] at h
    have hbehind : beginsInWord (b ++ (closer ++ r)) = false := by
      cases b with
      | nil => rfl
      | cons d b => exact h.behind
    refine ⟨b, h.whole, iff_of_false ?_ fun hcut => closer_append_ne_nil r hcut.1⟩
    rw [hbehind]
    exact Bool.false_ne_true

/-- The token found is a whole word of the comment, unless the window of an endless comment cuts it off. -/
theorem extract_stands (hne : extract source ≠ unknown) :
    ∃ lead a b behind, Opens source lead (a ++ extract source ++ b) behind ∧
      (endsInWord (lead ++ opener ++ a) = false ∧ beginsInWord (b ++ behind) = false ↔
        ¬ (behind = [] ∧ (opener ++ a ++ extract source).length = window ∧ beginsInWord b = true)) := by
  obtain ⟨lead, rest, hlead, rfl⟩ : ∃ lead rest, Lead lead ∧ source = lead ++ opener ++ rest := by
    by_contra hunopened
    exact hne (extract_of_unopened hunopened)
  obtain ⟨inside, behind, hopens⟩ := exists_opens hlead rest
  obtain ⟨a, b, hstands⟩ := hopens.names_extract.exists_standsIn hne
  have hbefore : endsInWord (lead ++ opener ++ a) = false := (endsInWord_opened lead a).trans hstands.before
  obtain ⟨b, rfl, hcut⟩ := hstands.of_reach hopens.ends
  refine ⟨lead, a, b, behind, hopens, ?_⟩
  rw [← hcut, Bool.not_eq_true]
  exact and_iff_right hbefore

theorem extract_stands_spaced :
    extract "/* 0badcafe */" ≠ unknown ∧
      ∃ lead a b behind, Opens "/* 0badcafe */" lead (a ++ extract "/* 0badcafe */" ++ b) behind ∧
        (endsInWord (lead ++ opener ++ a) = false ∧ beginsInWord (b ++ behind) = false ↔
          ¬ (behind = [] ∧ (opener ++ a ++ extract "/* 0badcafe */").length = window ∧ beginsInWord b = true)) := by
  have hne : extract "/* 0badcafe */" ≠ unknown := by decide +kernel
  exact ⟨hne, extract_stands hne⟩

/-- A script that is one endless comment, in which a word of nine digits stands across the edge of the window. -/
def acrossEdge : Text := opener ++ Text.spaces 502 ++ "abcdef012"

/-- Cut off at the edge, the longer word passes for a hash. -/
theorem not_always_whole :
    ¬ ∀ source, extract source ≠ unknown →
      ∃ lead a b behind, Opens source lead (a ++ extract source ++ b) behind ∧
        endsInWord (lead ++ opener ++ a) = false ∧ beginsInWord (b ++ behind) = false := by
  intro h
  have hextract : extract acrossEdge = "abcdef01" := by decide +kernel
  have hne : extract acrossEdge ≠ unknown := by
    rw [hextract]
    decide
  obtain ⟨lead, a, b, behind, hopens, -, hword⟩ := h acrossEdge hne
  rw [hextract] at hopens
  have hwhole : acrossEdge = lead ++ opener ++ a ++ ("abcdef01" ++ (b ++ behind)) := by simpa using hopens.whole
  -- The token begins with the only letter of its kind, so it stands nowhere else.
  have hfirst : ∀ d ∈ lead ++ opener ++ a, d ≠ ('a' : CodePoint) := by
    rintro _ hmem rfl
    have hone : List.count ('a' : CodePoint) acrossEdge = 1 := by decide +kernel
    have htoken : List.count ('a' : CodePoint) "abcdef01" = 1 := by decide
    have hbefore := List.count_pos_iff.2 hmem
    simp only [hwhole, List.count_append, htoken] at hone hbefore
    omega
  have hdrop : List.dropWhile (· ≠ ('a' : CodePoint)) acrossEdge = "abcdef012" := by decide +kernel
  rw [hwhole, List.dropWhile_append_of_pos (by simpa using hfirst)] at hdrop
  have hrest : "abcdef01" ++ (b ++ behind) = "abcdef01" ++ ("2" : Text) := hdrop
  have hnext : b ++ behind = "2" := List.append_cancel_left hrest
  rw [hnext] at hword
  exact absurd hword (by decide)

end BuildHash
end Rehost
