import Rehost.Proofs.Script.Call

/-! Rules that take one match each time. What the challenge case and the error handler become is no match itself and
lets none begin in front of it, so the matches that are left are those behind it. Such a rule can be applied as often
as its landmark is counted, and then no more. -/
namespace Rehost
open Pattern

namespace Rule

/-- The rule a number of times, each time on the text that the time before has left. -/
def repeated (r : Rule) (origin : Text) : Nat → Text → Except Absence Text
  | 0, t => .ok t
  | k + 1, t => do
    let (t', _) ← r.apply origin t
    repeated r origin k t'

def Consumes (r : Rule) : Prop :=
  ∀ origin t m t', r.Replaces origin t m t' → r.landmark.count t' + 1 = r.landmark.count t

variable {r : Rule}

theorem Consumes.apply_eq_ok (h : r.Consumes) {t : Text} {n : Nat} (hn : r.landmark.count t = n + 1) (origin : Text) :
    ∃ t', r.apply origin t = .ok (t', n + 1) ∧ r.landmark.count t' = n := by
  cases hm : r.landmark.search? t with
  | none =>
    rw [(r.landmark.count_eq_zero_iff t).2 hm] at hn
    contradiction
  | some m =>
    have hstep := h origin t m _ ⟨hm, rfl⟩
    exact ⟨_, by rw [apply_of_search? hm, hn], by omega⟩

theorem Consumes.repeated_eq_ok (h : r.Consumes) (origin : Text) {n k : Nat} (hk : k ≤ n) {t : Text}
    (hn : r.landmark.count t = n) :
    ∃ t', r.repeated origin k t = .ok t' ∧ r.landmark.count t' = n - k := by
  induction k generalizing n t with
  | zero => exact ⟨t, rfl, hn⟩
  | succ k ih =>
    obtain ⟨n, rfl⟩ : ∃ n', n = n' + 1 := ⟨n - 1, by omega⟩
    obtain ⟨t₁, hstep, hn₁⟩ := h.apply_eq_ok hn origin
    obtain ⟨t₂, hrest, hn₂⟩ := ih (Nat.le_of_succ_le_succ hk) hn₁
    refine ⟨t₂, ?_, by omega⟩
    rw [repeated, hstep]
    exact hrest

end Rule

/-! The challenge case. -/

namespace Landmark

theorem challengeHead_denotes {w : Text} (h : (inOrder challengeHead).Denotes w) :
    ∃ x : Text, w = x ++ Text.mark '(' ∧ ('(' : CodePoint) ∉ x ∧ ('.' : CodePoint) ∉ x := by
  obtain ⟨x, e, rfl, hx, he⟩ := (denotes_inOrder_append
    [lit "case", blanks1, lit "\"recaptcha\"", blanks, lit ":", blanks, letters, blanks] [lit "("]).1 h
  obtain rfl : e = "(" := he
  exact ⟨x, rfl, lacks_of_mayHold (by decide) x hx, lacks_of_mayHold (by decide) x hx⟩

theorem challenge_opening {w : Text} (h : challenge.pattern.Denotes w) : "case" <+: w := by
  obtain ⟨u, v, rfl, rfl, -⟩ := denotes_inOrder_cons.1 h
  exact List.prefix_append _ _

end Landmark

namespace Rule

/-- No head of a challenge case ends in what such a case becomes, where the parenthesis stands behind a dot. -/
theorem challengeHead_apart {y o r b : Text} (hne : o ≠ []) (heq : challengeArm ++ b = o ++ r) :
    ¬ (inOrder Landmark.challengeHead).Denotes (y ++ o) := by
  intro ho
  obtain ⟨x, hx, hopen, hdot⟩ := Landmark.challengeHead_denotes ho
  have hlast := congrArg List.getLast? hx
  rw [List.getLast?_append_of_ne_nil _ hne, List.getLast?_concat] at hlast
  obtain ⟨z, rfl⟩ := List.getLast?_eq_some_iff.1 hlast
  obtain rfl : y ++ z = x := by
    have hx : y ++ z ++ Text.mark '(' = x ++ Text.mark '(' := by simpa using hx
    exact List.append_cancel_right hx
  have hnews : ("case \"recaptcha\":console.log" : Text) ++ ('(' : CodePoint) ::
      ("new Error(\"Invalid Token Provided!\"))" ++ b) = z ++ ('(' : CodePoint) :: r := by
    simpa [challengeArm, challengeNotice, Text.ofString] using heq
  obtain ⟨rfl, -, -⟩ := append_cons_unique (by decide) (fun hmem => hopen (by simp [hmem])) hnews
  exact hdot (List.mem_append_right _ (by decide))

theorem challenge_not_opens {u v : Text} (heq : challengeArm = u ++ v) (hv : v ≠ []) (b : Text) :
    ¬ Landmark.challenge.pattern.opens (v ++ b) := by
  cases u with
  | nil =>
    obtain rfl : challengeArm = v := heq
    intro hopens
    obtain ⟨o, r, hor, ho, -⟩ := (Landmark.challenge_calls _).1 hopens
    have hne : o ≠ [] := by
      rintro rfl
      obtain ⟨x, hx, -⟩ := Landmark.challengeHead_denotes ho
      simp at hx
    exact challengeHead_apart (y := []) hne hor ho
  | cons c u =>
    have htail : challengeArm.tail = u ++ v := by rw [heq, List.cons_append, List.tail_cons]
    have htails : ∀ v ∈ challengeArm.tail.tails, v = [] ∨ ¬ v <+: ("case" : Text) ∧ ¬ ("case" : Text) <+: v := by
      decide +kernel
    have hapart := apart_of_opening (fun w => Landmark.challenge_opening) htails b
    rw [(hapart.of_suffix ⟨u, htail.symm⟩).opens_append_iff hv]
    rintro ⟨w, r, rfl, hw⟩
    exact not_standsIn_of_opening (fun w => Landmark.challenge_opening) (by decide) htails
      ⟨u, w, r, by rw [htail, List.append_assoc], hw⟩

theorem refuseChallenge_consumes : refuseChallenge.Consumes := by
  intro origin t m t' h
  obtain ⟨a, w, b, hm, rfl⟩ := h.split rfl
  have hpassed : ∀ u v, a ++ challengeArm = u ++ v → v ≠ [] → ¬ Landmark.challenge.pattern.opens (v ++ b) := by
    intro u v heq hv hopens
    have hwhole : a ++ (challengeArm ++ b) = u ++ (v ++ b) := by rw [← List.append_assoc, heq, List.append_assoc]
    have hle : a.length ≤ u.length :=
      Landmark.challenge_calls.front_le (lacks_of_mayHold (by decide)) hm
        (fun y o r _ hne hx => challengeHead_apart hne hx) hwhole hopens
    obtain ⟨u, rfl⟩ := List.prefix_of_prefix_length_le (List.prefix_append a _) ⟨v, heq.symm⟩ hle
    exact challenge_not_opens (List.append_cancel_left (heq.trans (List.append_assoc a u v))) hv b hopens
  exact hm.count_replaced rfl (Wanted.nonempty .challenge) hpassed

end Rule

/-! The error handler. -/

namespace Landmark

def handlerCore : List Pattern :=
  [group (some "obj") letters, lit ".", group (some "prop") letters, lit ".onerror", blanks, lit "=", blanks,
    lit "function", blanks, lit "(", blanks, lit ")", blanks, lit "\x7b", blanks, group (some "method_obj") letters,
    lit ".", group (some "method") letters, blanks, lit "(", blanks, group (some "truthy") (either (lit "!0") (lit "true")),
    blanks, lit ")", blanks]

theorem socketError_opens_iff {t : Text} :
    socketError.pattern.opens t ↔ ∃ w r, t = w ++ "\x7d" ++ r ∧ (inOrder handlerCore).Denotes w := by
  have hsplit : socketError.pattern = inOrder (handlerCore ++ exactly "\x7d" :: [blanks, Pattern.optional (lit ";")]) := rfl
  constructor
  · rintro ⟨_, r, rfl, hw⟩
    rw [hsplit, denotes_around] at hw
    obtain ⟨w, e, rfl, hw, -⟩ := hw
    exact ⟨w, e ++ r, by simp, hw⟩
  · rintro ⟨w, r, rfl, hw⟩
    refine ⟨w ++ "\x7d", r, rfl, ?_⟩
    rw [hsplit, denotes_around]
    exact ⟨w, [], by simp, hw, [], [], rfl, fun _ h => absurd h (by simp), .inr rfl⟩

theorem handlerCore_denotes {w : Text} (h : (inOrder handlerCore).Denotes w) :
    ∃ x f s k : Text, w = x ++ "=" ++ (f ++ "(" ++ (s ++ ")" ++ k)) ∧ ('(' : CodePoint) ∉ x ∧ (';' : CodePoint) ∉ x ∧
      ('=' : CodePoint) ∉ x ∧ ('=' : CodePoint) ∉ f ++ "(" ++ (s ++ ")" ++ k) ∧ ('(' : CodePoint) ∉ f ∧
      ∀ c ∈ s, Text.isBlank c = true := by
  obtain ⟨x, _, rfl, hx, h⟩ := (denotes_around
    [group (some "obj") letters, lit ".", group (some "prop") letters, lit ".onerror", blanks] "=" _).1 h
  have hsign : ('=' : CodePoint) ∉ _ := lacks_of_mayHold (by decide) _ h
  obtain ⟨f, _, rfl, hf, h⟩ := (denotes_around [blanks, lit "function", blanks] "(" _).1 h
  obtain ⟨s, k, rfl, hs, -⟩ := (denotes_around [blanks] ")" _).1 h
  refine ⟨x, f, s, k, rfl, ?_, ?_, ?_, hsign, ?_, hs⟩
  · exact lacks_of_mayHold (by decide) x hx
  · exact lacks_of_mayHold (by decide) x hx
  · exact lacks_of_mayHold (by decide) x hx
  · exact lacks_of_mayHold (by decide) f hf

theorem blank_parentheses {u v s k z : Text} (hu : ('(' : CodePoint) ∉ u) (hv : ('(' : CodePoint) ∉ v)
    (hs : ∀ c ∈ s, Text.isBlank c = true) : u ++ "(" ++ (s ++ ")" ++ k) ≠ v ++ "(err" ++ z := by
  intro heq
  have heq : u ++ ('(' : CodePoint) :: (s ++ ")" ++ k) = v ++ ('(' : CodePoint) :: ("err" ++ z) := by
    simpa [Text.ofString] using heq
  obtain ⟨-, -, heq⟩ := append_cons_unique hu hv heq
  cases s with
  | nil =>
    have hhead : (')' : CodePoint) = 'e' := by simpa [Text.ofString] using congrArg List.head? heq
    exact absurd hhead (by decide)
  | cons c s =>
    obtain rfl : c = 'e' := by
      have := congrArg List.head? heq
      simpa [Text.ofString] using this
    exact absurd (hs 'e' (by simp)) (by decide)

theorem handler_not_opens_call {v : Text} (hv : ('(' : CodePoint) ∉ v) (z : Text) :
    ¬ socketError.pattern.opens (v ++ "(err" ++ z) := by
  intro hopens
  obtain ⟨_, r, heq, hw⟩ := socketError_opens_iff.1 hopens
  obtain ⟨x, f, s, k, rfl, hx, -, -, -, hf, hs⟩ := handlerCore_denotes hw
  have hfront : ('(' : CodePoint) ∉ x ++ "=" ++ f := by simpa [hx, hf] using by decide
  refine blank_parentheses (k := k ++ "\x7d" ++ r) (z := z) hfront hv hs ?_
  simpa using heq.symm

theorem handler_not_opens_semicolon {v : Text} (hv : ('=' : CodePoint) ∉ v) (z : Text) :
    ¬ socketError.pattern.opens (v ++ ";" ++ z) := by
  intro hopens
  obtain ⟨_, r, heq, hw⟩ := socketError_opens_iff.1 hopens
  obtain ⟨x, f, s, k, rfl, -, hx, -⟩ := handlerCore_denotes hw
  have heq : v ++ (';' : CodePoint) :: z = x ++ ('=' : CodePoint) :: (f ++ "(" ++ (s ++ ")" ++ k) ++ "\x7d" ++ r) := by
    simpa [Text.ofString] using heq
  exact absurd (append_cons_unique hv hx heq).2.1 (by decide)

theorem handler_opens_front {y n z : Text} (hn : ('\x7d' : CodePoint) ∉ n)
    (hopens : socketError.pattern.opens (y ++ (n ++ "=function" ++ ("(err" ++ z)))) (x : Text) :
    socketError.pattern.opens (y ++ x) := by
  obtain ⟨w, r, heq, hw⟩ := socketError_opens_iff.1 hopens
  rcases List.append_eq_append_iff.1 heq with ⟨q, hq, hz⟩ | ⟨y', rfl, -⟩
  case inr => exact socketError_opens_iff.2 ⟨w, y' ++ x, by simp, hw⟩
  cases q using List.reverseRecOn with
  | nil => exact socketError_opens_iff.2 ⟨w, x, by rw [hq, List.append_nil], hw⟩
  | append_singleton q c =>
    -- The brace that closes the handler stands behind `err`, so the sign of the handler is the one in front of that.
    exfalso
    obtain ⟨hwq, hc⟩ : w = y ++ q ∧ ("\x7d" : Text) = [c] := by
      rw [← List.append_assoc] at hq
      exact List.append_inj' hq rfl
    obtain rfl : ('\x7d' : CodePoint) = c := (List.cons.inj hc).1
    have hbrace : ('\x7d' : CodePoint) ∉ n ++ "=function" ++ "(err" := by simpa [hn] using by decide
    have hbehind : n ++ "=function" ++ "(err" ++ z = q ++ ('\x7d' : CodePoint) :: r := by simpa using hz
    obtain ⟨q, rfl⟩ := prefix_of_append_cons hbrace hbehind
    obtain ⟨u, f, s, k, rfl, -, -, hu, hsign, hf, hs⟩ := handlerCore_denotes hw
    have hsplit : u ++ ('=' : CodePoint) :: (f ++ "(" ++ (s ++ ")" ++ k)) =
        (y ++ n) ++ ('=' : CodePoint) :: ("function" ++ "(err" ++ q) := by
      simpa [Text.ofString] using hwq
    obtain ⟨-, -, hcall⟩ := (List.append_cons_inj_of_notMem hu hsign).1 hsplit
    exact blank_parentheses hf (by decide) hs hcall

/-- No handler begins in one that is written anew: up to the argument there is no other parenthesis, and from there on
no sign in front of the semicolon. -/
theorem handler_not_opens {n z u v : Text} (hn : ('(' : CodePoint) ∉ n) (hz : ('=' : CodePoint) ∉ z)
    (heq : n ++ "=function" ++ ("(err" ++ (z ++ ";")) = u ++ v) (hv : v ≠ []) (b : Text) :
    ¬ socketError.pattern.opens (v ++ b) := by
  rcases List.append_eq_append_iff.1 heq with ⟨u', rfl, hrest⟩ | ⟨v', hfront, rfl⟩
  · obtain ⟨v, e, rfl⟩ := (List.eq_nil_or_concat v).resolve_left hv
    have hconcat : "(err" ++ z ++ Text.mark ';' = u' ++ v ++ [e] := by simpa [Text.ofString] using hrest
    obtain ⟨hsplit, hlast⟩ := List.append_inj' hconcat rfl
    obtain rfl : (';' : CodePoint) = e := (List.cons.inj hlast).1
    have hfree : ('=' : CodePoint) ∉ "(err" ++ z := by simpa [hz] using by decide
    have hsign : ('=' : CodePoint) ∉ v := fun hmem => hfree (hsplit ▸ List.mem_append_right u' hmem)
    simpa [Text.ofString] using handler_not_opens_semicolon hsign b
  · have hparen : ('(' : CodePoint) ∉ v' := by
      have hfree : ('(' : CodePoint) ∉ n ++ "=function" := by simpa [hn] using by decide
      exact fun hmem => hfree (hfront ▸ List.mem_append_right u hmem)
    simpa using handler_not_opens_call hparen (z ++ ";" ++ b)

end Landmark

namespace Rule

theorem build_reportSocketError_split {m : Match} {w : Text} (h : Landmark.socketError.pattern.Reads w m.held)
    (origin : Text) : ∃ n z : Text, reportSocketError.build m origin = n ++ "=function" ++ ("(err" ++ (z ++ ";")) ∧
      ('(' : CodePoint) ∉ n ∧ ('\x7d' : CodePoint) ∉ n ∧ ('=' : CodePoint) ∉ z := by
  refine ⟨m.named "obj" ++ "." ++ m.named "prop" ++ ".onerror", ")\x7b" ++ m.named "method_obj" ++ "." ++
    m.named "method" ++ "(" ++ m.named "truthy" ++ ");debug && console.error(err)\x7d", ?_, ?_, ?_, ?_⟩
  · simp [build_reportSocketError, Text.ofString]
  · have hobj := Match.not_mem_named (c := '(') h "obj" (by decide)
    have hprop := Match.not_mem_named (c := '(') h "prop" (by decide)
    simpa [hobj, hprop] using by decide
  · have hobj := Match.not_mem_named (c := '\x7d') h "obj" (by decide)
    have hprop := Match.not_mem_named (c := '\x7d') h "prop" (by decide)
    simpa [hobj, hprop] using by decide
  · have hobj := Match.not_mem_named (c := '=') h "method_obj" (by decide)
    have hmethod := Match.not_mem_named (c := '=') h "method" (by decide)
    have htruthy := Match.not_mem_named (c := '=') h "truthy" (by decide)
    simpa [hobj, hmethod, htruthy] using by decide

theorem reportSocketError_consumes : reportSocketError.Consumes := by
  intro origin t m t' h
  obtain ⟨a, w, b, hm, rfl⟩ := h.split rfl
  obtain ⟨n, z, hnews, hparen, hbrace, hsign⟩ := build_reportSocketError_split hm.reads origin
  have hpassed : ∀ u v, a ++ reportSocketError.build m origin = u ++ v → v ≠ [] →
      ¬ Landmark.socketError.pattern.opens (v ++ b) := by
    intro u v heq hv
    rw [hnews] at heq
    rcases List.append_eq_append_iff.1 heq with ⟨u', rfl, hinside⟩ | ⟨y, rfl, rfl⟩
    · exact Landmark.handler_not_opens hparen hsign hinside hv b
    · cases y with
      | nil => exact Landmark.handler_not_opens (u := []) hparen hsign rfl (by simpa using hv) b
      | cons c y =>
        intro hopens
        have hopens : Landmark.socketError.pattern.opens (c :: y ++ (n ++ "=function" ++ ("(err" ++ (z ++ ";" ++ b)))) := by
          simpa using hopens
        exact hm.passed rfl (by simp) (Landmark.handler_opens_front hbrace hopens (w ++ b))
  exact hm.count_replaced rfl (Wanted.nonempty .socketError) hpassed

/-- Each time the challenge case or the error handler is replaced there is one match less to replace: the rule
succeeds as often as its landmark is counted, and the next time the landmark is missing. -/
theorem consumes_one {r : Rule} (hr : r = refuseChallenge ∨ r = reportSocketError) {origin source text : Text} {n : Nat}
    (h : r.apply origin source = .ok (text, n)) :
    n = r.landmark.count source ∧ 1 ≤ n ∧ r.landmark.count text = n - 1 ∧
      (∀ k ≤ n, ∃ t, r.repeated origin k source = .ok t ∧ r.landmark.count t = n - k) ∧
      ∃ last, r.repeated origin n source = .ok last ∧
        r.apply origin last = .error ⟨.site, r.name, stage, some r.landmark.description⟩ := by
  have hconsumes : r.Consumes := by
    rcases hr with rfl | rfl
    · exact refuseChallenge_consumes
    · exact reportSocketError_consumes
  cases hm : r.landmark.search? source with
  | none =>
    rw [apply_of_absent hm] at h
    contradiction
  | some m =>
    rw [apply_of_search? hm] at h
    obtain ⟨rfl, rfl⟩ := Prod.mk.inj (Except.ok.inj h)
    have hstep := hconsumes origin source m _ ⟨hm, rfl⟩
    refine ⟨rfl, by omega, by omega, fun k hk => hconsumes.repeated_eq_ok origin hk rfl, ?_⟩
    obtain ⟨last, hlast, hnone⟩ := hconsumes.repeated_eq_ok origin (Nat.le_refl _) (t := source) rfl
    rw [Nat.sub_self, Landmark.count_eq_zero_iff] at hnone
    exact ⟨last, hlast, apply_of_absent hnone origin⟩

def doubledScript : Text :=
  "case \"recaptcha\":r(case \"recaptcha\" :\ns (x) ;" ++ "e.g.onerror=e.g.onerror = function ( )\x7bh.k(!0)\x7d;" ++
    "case \"recaptcha\":t(y);" ++ "u.v.onerror=function()\x7bh.k(true)\x7d"

theorem consumes_one_doubledScript :
    (∃ text last, refuseChallenge.apply "o" doubledScript = .ok (text, 2) ∧
      Landmark.challenge.count text = 1 ∧ refuseChallenge.repeated "o" 2 doubledScript = .ok last ∧
      refuseChallenge.apply "o" last = .error ⟨.site, refuseChallenge.name, stage, some Landmark.challenge.description⟩) ∧
    ∃ text last, reportSocketError.apply "o" doubledScript = .ok (text, 2) ∧
      Landmark.socketError.count text = 1 ∧ reportSocketError.repeated "o" 2 doubledScript = .ok last ∧
      reportSocketError.apply "o" last =
        .error ⟨.site, reportSocketError.name, stage, some Landmark.socketError.description⟩ := by
  have hcases : Landmark.challenge.count doubledScript = 2 := by decide +kernel
  have hhandlers : Landmark.socketError.count doubledScript = 2 := by decide +kernel
  constructor
  · obtain ⟨text, happly, -⟩ := refuseChallenge_consumes.apply_eq_ok (n := 1) hcases "o"
    obtain ⟨-, -, hcount, -, last, hlast, hnone⟩ := consumes_one (.inl rfl) happly
    exact ⟨text, last, happly, hcount, hlast, hnone⟩
  · obtain ⟨text, happly, -⟩ := reportSocketError_consumes.apply_eq_ok (n := 1) hhandlers "o"
    obtain ⟨-, -, hcount, -, last, hlast, hnone⟩ := consumes_one (.inr rfl) happly
    exact ⟨text, last, happly, hcount, hlast, hnone⟩

end Rule
end Rehost
