import Rehost.Proofs.Pattern.Count
import Rehost.Proofs.Pattern.Mirror
import Rehost.Script.Landmark

/-! What the landmarks read. Blanks, letters and punctuation never mix, so the parts of a landmark are told apart by
single characters. -/
namespace Rehost

/-! Classes of characters. -/

theorem forall_accepts_ne {accepts : CodePoint → Bool} {d : CodePoint} :
    (∀ c, accepts c = true → ¬ d = c) ↔ accepts d = false := by
  constructor
  · intro h
    cases hd : accepts d with
    | false => rfl
    | true => exact absurd rfl (h d hd)
  · rintro h c hc rfl
    simp [h] at hc

namespace Text

def blankNumbers : List Nat :=
  [9, 10, 11, 12, 13, 0x1c, 0x1d, 0x1e, 0x1f, 0x20, 0x85, 0xa0, 0x1680, 0x2000, 0x2001, 0x2002, 0x2003, 0x2004, 0x2005,
    0x2006, 0x2007, 0x2008, 0x2009, 0x200a, 0x2028, 0x2029, 0x202f, 0x205f, 0x3000]

theorem number_mem_blankNumbers {c : CodePoint} (h : isBlank c = true) : c.number ∈ blankNumbers := by
  simp only [isBlank, Bool.or_eq_true, Bool.and_eq_true, decide_eq_true_eq] at h
  simp only [blankNumbers, List.mem_cons, List.not_mem_nil, or_false]
  omega

theorem isWord_eq_false_of_isBlank {c : CodePoint} (h : isBlank c = true) : isWord c = false := by
  have hall : ∀ n ∈ blankNumbers, isWord (CodePoint.ofNat n) = false := by decide +kernel
  have hc : CodePoint.ofNat c.number = c := by simp [CodePoint.ofNat, c.number_lt]
  rw [← hc]
  exact hall _ (number_mem_blankNumbers h)

theorem isWord_of_isAlpha {c : CodePoint} (h : c.isAlpha = true) : isWord c = true :=
  isWord_of_isAlphanum (by simp [CodePoint.isAlphanum, h])

theorem isBlank_eq_false_of_isWord {c : CodePoint} (h : isWord c = true) : isBlank c = false := by
  cases hc : isBlank c with
  | false => rfl
  | true =>
    rw [isWord_eq_false_of_isBlank hc] at h
    contradiction

theorem isBlank_eq_false_of_isAlpha {c : CodePoint} (h : c.isAlpha = true) : isBlank c = false :=
  isBlank_eq_false_of_isWord (isWord_of_isAlpha h)

theorem isAlpha_eq_false_of_isBlank {c : CodePoint} (h : isBlank c = true) : c.isAlpha = false := by
  cases hc : c.isAlpha with
  | false => rfl
  | true =>
    rw [isBlank_eq_false_of_isAlpha hc] at h
    contradiction

end Text

namespace Landmark
open Pattern

theorem count_eq_zero_iff (l : Landmark) (t : Text) : l.count t = 0 ↔ l.search? t = none := by
  have hhead : (l.pattern.findAll t).head? = l.search? t := head?_findAll l.pattern t
  rw [← hhead, List.head?_eq_none_iff]
  exact List.length_eq_zero_iff

/-! The words of single landmarks. -/

theorem roomInit_reads {w : Text} {g : Holdings} (h : roomInit.pattern.Reads w g) :
    ∃ (s₁ s₂ : Text) (c : CodePoint) (v : Text), w = "HBInit" ++ s₁ ++ "=" ++ s₂ ++ (c :: v) ++ ";" ∧
      g = [(some ("value" : Text), c :: v)] := by
  obtain ⟨w, rfl, h₁⟩ := reads_exactly_cons h
  obtain ⟨s₁, w, rfl, -, h₂⟩ := reads_most_cons h₁
  obtain ⟨w, rfl, h₃⟩ := reads_exactly_cons h₂
  obtain ⟨s₂, w, rfl, -, h₄⟩ := reads_most_cons h₃
  obtain ⟨x, w, gx, g, rfl, rfl, hx, rfl, rfl⟩ := reads_group_cons h₄
  obtain ⟨_, v, _, _, rfl, rfl, ⟨⟨c, -, rfl⟩, rfl⟩, -, rfl⟩ := hx
  exact ⟨s₁, s₂, c, v, by simp, rfl⟩

theorem socket_reads {w : Text} {g : Holdings} (h : socket.pattern.Reads w g) :
    ∃ s₁ s₂ args s₃ e : Text, w = "new" ++ s₁ ++ "WebSocket" ++ s₂ ++ "(" ++ args ++ ")" ++ (s₃ ++ e) ∧
      g = [(some ("args" : Text), args), (some ("tail" : Text), s₃ ++ e)] ∧
      (∀ d ∈ s₃, Text.isBlank d = true) ∧ (e = ";" ∨ e = []) := by
  obtain ⟨w, rfl, h₁⟩ := reads_exactly_cons h
  obtain ⟨s₁, w, rfl, -, h₂⟩ := reads_most1_cons h₁
  obtain ⟨w, rfl, h₃⟩ := reads_exactly_cons h₂
  obtain ⟨s₂, w, rfl, -, h₄⟩ := reads_most_cons h₃
  obtain ⟨w, rfl, h₅⟩ := reads_exactly_cons h₄
  obtain ⟨args, w, gx, g, rfl, rfl, ⟨-, rfl⟩, h₆⟩ := reads_group_cons h₅
  obtain ⟨w, rfl, h₇⟩ := reads_exactly_cons h₆
  obtain ⟨inner, ⟨s₃, e, _, _, rfl, rfl, ⟨hs₃, rfl⟩, he⟩, rfl⟩ := h₇
  refine ⟨s₁, s₂, args, s₃, e, by simp, ?_, hs₃, ?_⟩
  · rcases he with ⟨rfl, rfl⟩ | ⟨rfl, rfl⟩ <;> rfl
  · rcases he with ⟨rfl, rfl⟩ | ⟨rfl, rfl⟩
    · exact .inl rfl
    · exact .inr rfl

theorem roomInit_holds {m : Match} {w : Text} (h : roomInit.pattern.Reads w m.held) :
    ∃ s₁ s₂ : Text, w = "HBInit" ++ s₁ ++ "=" ++ s₂ ++ m.named "value" ++ ";" := by
  obtain ⟨s₁, s₂, c, v, rfl, hheld⟩ := roomInit_reads h
  exact ⟨s₁, s₂, by simp [Match.named, Match.named?_eq, hheld]⟩

theorem socket_holds {m : Match} {w : Text} (h : socket.pattern.Reads w m.held) :
    ∃ s₁ s₂ s₃ e : Text, w = "new" ++ s₁ ++ "WebSocket" ++ s₂ ++ "(" ++ m.named "args" ++ ")" ++ m.named "tail" ∧
      m.named "tail" = s₃ ++ e ∧ (∀ d ∈ s₃, Text.isBlank d = true) ∧ (e = ";" ∨ e = []) := by
  obtain ⟨s₁, s₂, args, s₃, e, rfl, hheld, hs₃, he⟩ := socket_reads h
  have hne : (some ("args" : Text)) ≠ some ("tail" : Text) := by decide
  refine ⟨s₁, s₂, s₃, e, ?_, ?_, hs₃, he⟩ <;> simp [Match.named, Match.named?_eq, hheld, hne]

theorem socketError_holds {m : Match} {w : Text} (h : socketError.pattern.Reads w m.held) :
    ∃ x₁ x₂ x₃ x₄ x₅ : Text, w = m.named "obj" ++ x₁ ++ m.named "prop" ++ x₂ ++ m.named "method_obj" ++ x₃ ++
      m.named "method" ++ x₄ ++ m.named "truthy" ++ x₅ := by
  obtain ⟨x₀, obj, _, g, rfl, hheld, rfl, -, h₁⟩ := reads_grouped [] _ _ _ h rfl rfl
  obtain ⟨x₁, prop, _, g, rfl, rfl, -, -, h₂⟩ := reads_grouped [lit "."] _ _ _ h₁ rfl rfl
  obtain ⟨x₂, object, _, g, rfl, rfl, -, -, h₃⟩ := reads_grouped
    [lit ".onerror", blanks, lit "=", blanks, lit "function", blanks, lit "(", blanks, lit ")", blanks, lit "\x7b",
      blanks] _ _ _ h₂ rfl rfl
  obtain ⟨x₃, method, _, g, rfl, rfl, -, -, h₄⟩ := reads_grouped [lit "."] _ _ _ h₃ rfl rfl
  obtain ⟨x₄, truthy, x₅, g, rfl, rfl, -, -, -⟩ := reads_grouped [blanks, lit "(", blanks] _ _ _ h₄ rfl rfl
  refine ⟨x₁, x₂, x₃, x₄, x₅, ?_⟩
  simp +decide [Match.named, Match.named?_eq, hheld]

theorem socketError_denotes {w : Text} (h : socketError.pattern.Denotes w) :
    ∃ x y z : Text, w = x ++ "\x7b" ++ (y ++ "\x7d" ++ z) ∧ ('"' : CodePoint) ∉ x ∧ (';' : CodePoint) ∉ x ∧
      ('"' : CodePoint) ∉ y ∧ ('"' : CodePoint) ∉ z ∧ ('i' : CodePoint) ∉ z := by
  obtain ⟨x, _, rfl, hx, h⟩ := (denotes_around
    [group (some "obj") letters, lit ".", group (some "prop") letters, lit ".onerror", blanks, lit "=", blanks,
      lit "function", blanks, lit "(", blanks, lit ")", blanks] "\x7b" _).1 h
  obtain ⟨y, z, rfl, hy, hz⟩ := (denotes_around
    [blanks, group (some "method_obj") letters, lit ".", group (some "method") letters, blanks, lit "(", blanks,
      group (some "truthy") (either (lit "!0") (lit "true")), blanks, lit ")", blanks] "\x7d"
    [blanks, optional (lit ";")]).1 h
  refine ⟨x, y, z, rfl, ?_, ?_, ?_, ?_, ?_⟩
  · exact lacks_of_mayHold (by decide) x hx
  · exact lacks_of_mayHold (by decide) x hx
  · exact lacks_of_mayHold (by decide) y hy
  · exact lacks_of_mayHold (by decide) z hz
  · exact lacks_of_mayHold (by decide) z hz

theorem socketError_brace {u v : Text} (h : socketError.pattern.Denotes (u ++ v)) (hu : ('\x7d' : CodePoint) ∈ u) :
    ('\x7b' : CodePoint) ∈ u := by
  obtain ⟨x, y, heq, hx, -⟩ := (denotes_around
    [group (some "obj") letters, lit ".", group (some "prop") letters, lit ".onerror", blanks, lit "=", blanks,
      lit "function", blanks, lit "(", blanks, lit ")", blanks] "\x7b" _).1 h
  have hx : ('\x7d' : CodePoint) ∉ x := lacks_of_mayHold (by decide) x hx
  obtain ⟨u₁, u₂, rfl⟩ := List.append_of_mem hu
  by_contra hopen
  have hopen : ('\x7b' : CodePoint) ∉ u₁ := fun hmem => hopen (by simp [hmem])
  have heq : u₁ ++ ('\x7d' : CodePoint) :: (u₂ ++ v) = x ++ ('\x7b' : CodePoint) :: y := by
    simpa [Text.ofString] using heq
  exact absurd (append_cons_unique hopen hx heq).2.1 (by decide)

theorem socketError_brace_behind {u v : Text} (h : socketError.pattern.Denotes (u ++ v))
    (hv : ('\x7b' : CodePoint) ∈ v) : ('\x7d' : CodePoint) ∈ v := by
  obtain ⟨x, r, heq, hx, hr⟩ := (denotes_around
    [group (some "obj") letters, lit ".", group (some "prop") letters, lit ".onerror", blanks, lit "=", blanks,
      lit "function", blanks, lit "(", blanks, lit ")", blanks] "\x7b" _).1 h
  have hx : ('\x7b' : CodePoint) ∉ x := lacks_of_mayHold (by decide) x hx
  obtain ⟨y, z, rfl, -, -⟩ := (denotes_around
    [blanks, group (some "method_obj") letters, lit ".", group (some "method") letters, blanks, lit "(", blanks,
      group (some "truthy") (either (lit "!0") (lit "true")), blanks, lit ")", blanks] "\x7d"
    [blanks, optional (lit ";")]).1 hr
  have hr : ('\x7b' : CodePoint) ∉ y ++ "\x7d" ++ z := lacks_of_mayHold (by decide) _ hr
  obtain ⟨v₁, v₂, rfl⟩ := List.append_of_mem hv
  have heq : x ++ ('\x7b' : CodePoint) :: (y ++ "\x7d" ++ z) = (u ++ v₁) ++ ('\x7b' : CodePoint) :: v₂ := by
    simpa [Text.ofString] using heq.symm
  obtain ⟨-, -, rfl⟩ := (List.append_cons_inj_of_notMem hx hr).1 heq
  simp [Text.ofString]

theorem forall_not_closing {x : Text} : (∀ c ∈ x, (!c.is ')') = true) ↔ (')' : CodePoint) ∉ x := by
  simp only [CodePoint.is, Bool.not_eq_true', decide_eq_false_iff_not]
  exact ⟨fun h hmem => h _ hmem rfl, fun h c hc heq => h (heq ▸ hc)⟩

def challengeHead : List Pattern :=
  [lit "case", blanks1, lit "\"recaptcha\"", blanks, lit ":", blanks, letters, blanks, lit "("]

theorem challenge_denotes_iff {w : Text} :
    challenge.pattern.Denotes w ↔
      ∃ u v, w = u ++ v ++ ")" ∧ (inOrder challengeHead).Denotes u ∧ v ≠ [] ∧ (')' : CodePoint) ∉ v := by
  have hsplit : challenge.pattern = inOrder (challengeHead ++ [blanks, most1 (!·.is ')'), blanks, lit ")"]) := rfl
  rw [hsplit, denotes_inOrder_append]
  constructor
  · rintro ⟨u, _, rfl, hu, h⟩
    obtain ⟨v, e, rfl, hv, he⟩ := (denotes_inOrder_append [blanks, most1 (!·.is ')'), blanks] [lit ")"]).1 h
    obtain rfl : e = ")" := he
    refine ⟨u, v, by simp, hu, ?_, lacks_of_mayHold (by decide) v hv⟩
    rintro rfl
    obtain ⟨g, hg⟩ := (denotes_iff_reads _ _).1 hv
    exact absurd hg.mayBeEmpty (by decide)
  · rintro ⟨u, v, rfl, hu, hne, hv⟩
    have hblanks : blanks.Denotes [] := by simp [blanks, Denotes]
    exact ⟨u, v ++ ")", by simp, hu, [], v ++ ")", rfl, hblanks, v, ")", rfl, ⟨hne, forall_not_closing.2 hv⟩, [], ")",
      rfl, hblanks, rfl⟩

/-- A challenge case ends at its only closing parenthesis. -/
theorem challenge_denotes {w : Text} (h : challenge.pattern.Denotes w) :
    ∃ x : Text, w = x ++ ")" ∧ ('"' : CodePoint) ∈ x ∧ (')' : CodePoint) ∉ x := by
  obtain ⟨x, e, rfl, hx, he⟩ := (denotes_around
    [lit "case", blanks1, lit "\"recaptcha\"", blanks, lit ":", blanks, letters, blanks, lit "(", blanks,
      most1 (!·.is ')'), blanks] ")" []).1 h
  obtain rfl : e = [] := he
  refine ⟨x, by simp, ?_, lacks_of_mayHold (by decide) x hx⟩
  obtain ⟨u, v, rfl, -, -⟩ := (denotes_around [lit "case", blanks1] "\"recaptcha\"" _).1 hx
  have : ('"' : CodePoint) ∈ ("\"recaptcha\"" : Text) := by decide
  simp [this]

theorem challenge_head {w : Text} (h : challenge.pattern.Denotes w) : w.head? = some ('c' : CodePoint) := by
  obtain ⟨u, v, rfl, rfl, -⟩ := denotes_inOrder_cons.1 h
  rfl

/-! The init guard: what it reads in front of its message and behind it. -/

def guardMessage : Text := "\"Can't init twice\""

def guardLeft : List Pattern :=
  [lit "if", blanks, lit "(", blanks, member, blanks, lit ")", blanks, lit "throw", blanks1, member, blanks, lit "(",
    blanks]

def guardRight : List Pattern :=
  [blanks, lit ")", blanks, lit ";", blanks, member, blanks, lit "=", blanks, lit "!0", blanks, lit ";"]

theorem initGuard_denotes {w : Text} (h : initGuard.pattern.Denotes w) :
    ∃ l k, w = l ++ guardMessage ++ k ∧ (inOrder guardLeft).Denotes l ∧ (inOrder guardRight).Denotes k :=
  (denotes_around _ _ _).1 h

theorem initGuard_opening {w : Text} (h : initGuard.pattern.Denotes w) : "if" <+: w := by
  obtain ⟨u, v, rfl, rfl, -⟩ := denotes_inOrder_cons.1 h
  exact List.prefix_append _ _

theorem initGuard_head {w : Text} (h : initGuard.pattern.Denotes w) : w.head? = some ('i' : CodePoint) := by
  obtain ⟨v, rfl⟩ := initGuard_opening h
  rfl

theorem guardRight_denotes {k : Text} (h : (inOrder guardRight).Denotes k) :
    ∃ s r, k = s ++ ")" ++ (r ++ ";") ∧ (∀ c ∈ s, Text.isBlank c = true) ∧ ('(' : CodePoint) ∉ r := by
  obtain ⟨s, _, rfl, hs, h⟩ := (denotes_around [blanks] ")" _).1 h
  obtain ⟨r, e, rfl, hr, he⟩ := (denotes_around
    [blanks, lit ";", blanks, member, blanks, lit "=", blanks, lit "!0", blanks] ";" []).1 h
  obtain rfl : e = [] := he
  exact ⟨s, r, by simp, hs, lacks_of_mayHold (by decide) r hr⟩

theorem initGuard_last {w : Text} (h : initGuard.pattern.Denotes w) : w.getLast? = some (';' : CodePoint) := by
  obtain ⟨l, k, rfl, -, hk⟩ := initGuard_denotes h
  obtain ⟨s, r, rfl, -, -⟩ := guardRight_denotes hk
  have hend : l ++ guardMessage ++ (s ++ ")" ++ (r ++ ";")) = l ++ guardMessage ++ s ++ ")" ++ r ++ ";" := by simp
  rw [hend, List.getLast?_append_of_ne_nil _ (by decide)]
  rfl

theorem initGuard_quote {w : Text} (h : initGuard.pattern.Denotes w) : ('"' : CodePoint) ∈ w := by
  obtain ⟨l, k, rfl, -⟩ := initGuard_denotes h
  have : ('"' : CodePoint) ∈ guardMessage := by decide
  simp [this]

theorem initGuard_end {u v : Text} (hv : (')' : CodePoint) ∉ v) (h : initGuard.pattern.Denotes (u ++ v)) :
    ('(' : CodePoint) ∉ v := by
  obtain ⟨l, k, heq, -, hk⟩ := initGuard_denotes h
  obtain ⟨s, r, rfl, -, hr⟩ := guardRight_denotes hk
  have heq : u ++ v = (l ++ guardMessage ++ s ++ ")") ++ (r ++ ";") := by simpa using heq
  rcases List.append_eq_append_iff.1 heq with ⟨x, hx, rfl⟩ | ⟨x, -, hx⟩
  · cases x using List.reverseRecOn with
    | nil => simpa [Text.ofString, hr] using by decide
    | append_singleton x c =>
      have hc := congrArg List.getLast? hx
      obtain rfl : c = ')' := by simpa [Text.ofString, eq_comm] using hc
      exact absurd hv (by simp)
  · intro hmem
    have : ('(' : CodePoint) ∈ r ++ ";" := by simp [hx, hmem]
    rcases List.mem_append.1 this with h | h
    · exact hr h
    · exact absurd h (by decide)

theorem initGuard_edgeFree : initGuard.pattern.isEdgeFree = true := rfl

theorem initGuard_nonempty : ¬ initGuard.pattern.Denotes [] := by
  intro h
  simpa using initGuard_head h

theorem initGuard_oneWay : initGuard.pattern.OneWay := by
  simp +contextual +decide [initGuard, inOrder, lit, blanks, blanks1, member, letters, Text.ofString,
    forall_accepts_ne, Text.isAlpha_eq_false_of_isBlank, Text.isBlank_eq_false_of_isAlpha]

theorem guardLeft_mirror_oneWay : (inOrder guardLeft).mirror.OneWay := by
  simp +contextual +decide [guardLeft, inOrder, lit, blanks, blanks1, member, letters, Text.ofString,
    forall_accepts_ne, forall_and, or_imp, Text.isAlpha_eq_false_of_isBlank, Text.isBlank_eq_false_of_isAlpha]

/-- Behind its first quotation mark a guard has no opening parenthesis, so no other guard begins there. -/
theorem initGuard_inside {x y r : Text} (hx : x ≠ []) (hy : y ≠ []) (h : initGuard.pattern.Denotes (x ++ y)) :
    ¬ initGuard.pattern.opens (y ++ r) := by
  rintro ⟨w, r', heq, hw⟩
  obtain ⟨l, k, hxy, hl, hk⟩ := initGuard_denotes h
  have hlast := initGuard_last h
  have hmessage : guardMessage = ('"' : CodePoint) :: "Can't init twice\"" := by decide
  have hlq : ('"' : CodePoint) ∉ l := lacks_of_mayHold (by decide) l hl
  rw [List.append_assoc] at hxy
  rcases List.append_eq_append_iff.1 hxy with ⟨y', rfl, rfl⟩ | ⟨x', rfl, hk'⟩
  · -- The other guard has its message in the same place, so it begins in the same place.
    obtain ⟨l', k', rfl, hl', hk'⟩ := initGuard_denotes hw
    have hq' : ('"' : CodePoint) ∉ l' := lacks_of_mayHold (by decide) l' hl'
    have hq : ('"' : CodePoint) ∉ y' := fun hmem => hlq (by simp [hmem])
    rw [hmessage] at heq
    have heq : y' ++ ('"' : CodePoint) :: ("Can't init twice\"" ++ k ++ r) =
        l' ++ ('"' : CodePoint) :: ("Can't init twice\"" ++ k' ++ r') := by simpa using heq
    obtain ⟨rfl, -, -⟩ := append_cons_unique hq hq' heq
    refine hx (eq_nil_of_append guardLeft_mirror_oneWay ?_ hl' hl)
    simp [guardLeft, inOrder, lit, blanks, blanks1, member, letters, Text.ofString]
  · have hparen : ('(' : CodePoint) ∉ y := by
      have hm : ('(' : CodePoint) ∉ guardMessage := by decide
      have hk := lacks_of_mayHold (c := '(') (by decide) k hk
      intro hmem
      have : ('(' : CodePoint) ∈ guardMessage ++ k := by simp [hk', hmem]
      rcases List.mem_append.1 this with h | h
      · exact hm h
      · exact hk h
    have hsemi : (';' : CodePoint) ∈ y := by
      rw [List.getLast?_append_of_ne_nil _ hy] at hlast
      exact List.mem_of_getLast? hlast
    obtain ⟨z, z', rfl⟩ := List.append_of_mem hsemi
    obtain ⟨u, v, rfl, hu, -⟩ := (denotes_around [lit "if", blanks] "(" _).1 hw
    have hu : (';' : CodePoint) ∉ u := lacks_of_mayHold (by decide) u hu
    have hz : ('(' : CodePoint) ∉ z := fun hmem => hparen (by simp [hmem])
    have heq : z ++ (';' : CodePoint) :: (z' ++ r) = u ++ ('(' : CodePoint) :: (v ++ r') := by
      simpa [Text.ofString] using heq
    exact absurd (append_cons_unique hz hu heq).2.1 (by decide)

theorem initGuard_discrete : initGuard.pattern.Discrete where
  edgeFree := initGuard_edgeFree
  nonempty := initGuard_nonempty
  inside _ _ _ hx hy h := initGuard_inside hx hy h
  unique w w' r r' hw hw' heq := by
    obtain ⟨g, hw⟩ := (denotes_iff_reads _ _).1 hw
    obtain ⟨g', hw'⟩ := (denotes_iff_reads _ _).1 hw'
    refine (initGuard_oneWay.unique hw hw' heq ?_ ?_).1 <;>
      simp [Stops, initGuard, inOrder, lit, blanks, blanks1, member, letters, Text.ofString]

end Landmark
end Rehost
