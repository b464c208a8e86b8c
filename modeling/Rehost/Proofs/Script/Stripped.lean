import Rehost.Proofs.Script.Stripping

/-! What is left of a script once the references to the page are dropped. Each replacement writes something shorter, so
the text stays as it is exactly if it holds no reference, and becomes shorter otherwise. The look-ups of elements are
replaced last and by a word that no look-up can share a letter with, so none is left; of the other references some may
be left, where what stood around one that was dropped has joined. A chain of qualifiers is no such case as long as what
stands in front of it cannot be the beginning of one. -/
namespace Rehost.Browser
open Text (Spares KeepsOff)

def accessors : List Text := ["getElementById(\"roomlink\")", "getElementById(\"recaptcha\")"]

variable {rs : List (Text × Text)} {r : Text × Text} {t : Text}

theorem words_replacements : replacements.map Prod.fst = qualifiers ++ content :: accessors := rfl

theorem stripWith_append (rs rs' : List (Text × Text)) (t : Text) :
    stripWith (rs ++ rs') t = stripWith rs' (stripWith rs t) := by
  simp [stripWith]

/-! What is dropped. -/

theorem shorter : ∀ r ∈ replacements, r.2.length < r.1.length := by decide

/-- Either nothing is found and nothing happens, or something is found and the text becomes shorter. -/
theorem stripWith_cases (hshorter : ∀ r ∈ rs, r.2.length < r.1.length) (t : Text) :
    stripWith rs t = t ∧ (∀ r ∈ rs, ¬ r.1 <:+: t) ∨
      (stripWith rs t).length < t.length ∧ ∃ r ∈ rs, r.1 <:+: t := by
  induction rs generalizing t with
  | nil => exact .inl ⟨rfl, by simp⟩
  | cons r rs ih =>
    have hstep : stripWith (r :: rs) t = stripWith rs (Text.replace r.1 r.2 t) := rfl
    have hrest := ih (fun s hs => hshorter s (List.mem_cons_of_mem r hs))
    rw [hstep]
    by_cases hstands : r.1 <:+: t
    · right
      have hlt := Text.length_replace_lt (hshorter r List.mem_cons_self) hstands
      refine ⟨?_, r, List.mem_cons_self, hstands⟩
      rcases hrest (Text.replace r.1 r.2 t) with ⟨heq, -⟩ | ⟨hless, -⟩
      · rw [heq]
        exact hlt
      · exact hless.trans hlt
    · rw [Text.replace_of_not_infix r.2 hstands]
      rcases hrest t with ⟨heq, hnone⟩ | ⟨hless, s, hs, hfound⟩
      · exact .inl ⟨heq, List.forall_mem_cons.2 ⟨hstands, hnone⟩⟩
      · exact .inr ⟨hless, s, List.mem_cons_of_mem r hs, hfound⟩

theorem strip_eq_self_iff : strip t = t ↔ ∀ r ∈ replacements, ¬ r.1 <:+: t := by
  rcases stripWith_cases shorter t with ⟨heq, hnone⟩ | ⟨hless, r, hr, hfound⟩
  · exact iff_of_true heq hnone
  · refine iff_of_false (fun heq => ?_) fun hnone => hnone r hr hfound
    have hlength : (strip t).length < t.length := hless
    rw [heq] at hlength
    exact lt_irrefl _ hlength

theorem length_strip_lt_iff : (strip t).length < t.length ↔ ∃ r ∈ replacements, r.1 <:+: t := by
  rcases stripWith_cases shorter t with ⟨heq, hnone⟩ | ⟨hless, hfound⟩
  · refine iff_of_false (fun hlength => ?_) fun ⟨r, hr, hstands⟩ => hnone r hr hstands
    have hself : strip t = t := heq
    rw [hself] at hlength
    exact lt_irrefl _ hlength
  · exact iff_of_true hless hfound

theorem keys_found (t : Text) :
    (Report.integers ((counts t).filter (·.2 ≠ 0))).keys = (replacements.map Prod.fst).filter (· <:+: t) := by
  have hfound : ∀ r ∈ replacements, decide (Text.count r.1 t ≠ 0) = decide (r.1 <:+: t) := by
    intro r hr
    rw [decide_eq_decide, ← Text.count_pos_iff (word_ne_nil hr), Nat.pos_iff_ne_zero]
  calc (Report.integers ((counts t).filter (·.2 ≠ 0))).keys
      = ((counts t).filter (·.2 ≠ 0)).map Prod.fst := by simp [Report.integers, Table.keys]
    _ = (replacements.filter fun r => Text.count r.1 t ≠ 0).map Prod.fst := by
        simp [counts, List.filter_map, Function.comp_def]
    _ = (replacements.filter fun r => decide (r.1 <:+: t)).map Prod.fst := by
        rw [List.filter_congr hfound]
    _ = (replacements.map Prod.fst).filter (· <:+: t) := by
        simp [List.filter_map, Function.comp_def]

/-- A text without references stays as it is, and every other one becomes shorter. So what the pass notes of the change,
what it reports and the two lengths that it notes say the same of every context. -/
theorem stripBrowser_changed :
    (∀ t : Text, (strip t = t ↔ ∀ r ∈ replacements, ¬ r.1 <:+: t) ∧
      ((strip t).length < t.length ↔ ∃ r ∈ replacements, r.1 <:+: t)) ∧
    ∀ c : Context, ∃ fields after changed, Pass.browser.apply c = .ok (.object fields, after) ∧
      Table.get? "changed" fields = some (.bool changed) ∧
      Table.get? "input_length" fields = some (.nat c.stageText.length) ∧
      Table.get? "output_length" fields = some (.nat after.stageText.length) ∧
      (changed = true ↔ after.report.stripped ≠ []) ∧
      (changed = true ↔ after.stageText.length < c.stageText.length) ∧
      after.report.stripped.keys = (replacements.map Prod.fst).filter (· <:+: c.stageText) := by
  refine ⟨fun t => ⟨strip_eq_self_iff, length_strip_lt_iff⟩, fun c => ?_⟩
  have hchanged : strip c.stageText ≠ c.stageText ↔ ∃ r ∈ replacements, r.1 <:+: c.stageText := by
    rw [Ne, strip_eq_self_iff]
    push Not
    rfl
  have hkeys := keys_found c.stageText
  have hreported : Report.integers ((counts c.stageText).filter (·.2 ≠ 0)) ≠ [] ↔
      ∃ r ∈ replacements, r.1 <:+: c.stageText := by
    rw [Ne, ← List.map_eq_nil_iff (f := Prod.fst)]
    change ¬ Table.keys _ = [] ↔ _
    rw [hkeys]
    simp [List.filter_eq_nil_iff]
  refine ⟨_, _, decide (strip c.stageText ≠ c.stageText), rfl, rfl, rfl, rfl, ?_, ?_, hkeys⟩
  · rw [decide_eq_true_iff, hchanged]
    exact hreported.symm
  · rw [decide_eq_true_iff, hchanged]
    exact length_strip_lt_iff.symm

/-! What cannot be left. -/

theorem not_infix_stripWith {word : Text} (hne : ∀ s ∈ rs, s.1 ≠ []) (hkeeps : ∀ s ∈ rs, KeepsOff word s.2)
    (h : ¬ word <:+: t) : ¬ word <:+: stripWith rs t := by
  induction rs generalizing t with
  | nil => exact h
  | cons s rs ih =>
    obtain ⟨hs, hrest⟩ := List.forall_mem_cons.1 hne
    obtain ⟨hkeep, hkeeps⟩ := List.forall_mem_cons.1 hkeeps
    exact ih hrest hkeeps (hkeep.not_infix_replace hs h)

theorem accessor_keepsOff {word : Text} (hword : word ∈ accessors) : KeepsOff word "null" where
  begins x := by
    have hhead : ∀ w ∈ accessors, w.head? = some ('g' : CodePoint) := by decide
    exact Text.spares_of_head (hhead word hword) (by decide) x
  reaches u hu hne := by
    have hends : ∀ w ∈ accessors, ∀ u ∈ w.tails, u ≠ [] → ¬ u <+: ("null" : Text) ∧ ¬ ("null" : Text) <+: u := by
      decide +kernel
    exact hends word hword u ((List.mem_tails _ _).2 hu) hne

theorem not_infix_strip {word : Text} (hword : word ∈ accessors) (t : Text) : ¬ word <:+: strip t := by
  have hlast : ∃ p q : List (Text × Text), replacements = p ++ (word, ("null" : Text)) :: q ∧
      (∀ s ∈ q, s.1 ≠ []) ∧ ∀ s ∈ q, s.2 = "null" := by
    simp only [accessors, List.mem_cons, List.not_mem_nil, or_false] at hword
    rcases hword with rfl | rfl
    · exact ⟨replacements.take 4, replacements.drop 5, rfl, by decide⟩
    · exact ⟨replacements.take 5, replacements.drop 6, rfl, by decide⟩
  obtain ⟨p, q, hsplit, hne, hnull⟩ := hlast
  have hwordne : word ≠ [] := by
    rintro rfl
    exact absurd hword (by decide)
  rw [strip, hsplit, stripWith_append]
  change ¬ word <:+: stripWith q (Text.replace word "null" (stripWith p t))
  refine not_infix_stripWith hne (fun s hs => ?_) ((accessor_keepsOff hword).not_infix_replace_self hwordne _)
  rw [hnull s hs]
  exact accessor_keepsOff hword

/-- No look-up of an element is left, whatever joins. So a second time changes nothing exactly if the first one has left
no qualifier and no `.innerHTML`. -/
theorem strip_settled (t : Text) :
    (∀ word ∈ accessors, ¬ word <:+: strip t) ∧
      (strip (strip t) = strip t ↔ ∀ word ∈ content :: qualifiers, ¬ word <:+: strip t) := by
  have haccessors : ∀ word ∈ accessors, ¬ word <:+: strip t := fun word hword => not_infix_strip hword t
  refine ⟨haccessors, ?_⟩
  have hwords : (∀ r ∈ replacements, ¬ r.1 <:+: strip t) ↔
      ∀ word ∈ qualifiers ++ content :: accessors, ¬ word <:+: strip t := by
    rw [← words_replacements, List.forall_mem_map]
  rw [strip_eq_self_iff, hwords]
  constructor
  · intro hnone word hword
    exact hnone word (by grind)
  · intro hnone word hword
    by_cases hmem : word ∈ accessors
    · exact haccessors word hmem
    · exact hnone word (by grind)

/-- What stood around a qualifier has joined to another one, so a second time changes something. -/
example : strip "wparent.indow.f()" = "window.f()" ∧ strip (strip "wparent.indow.f()") = "f()" := by decide

/-! Chains of qualifiers. -/

/-- A text that is no beginning of a word where it ends, and that holds no word. -/
def ClearOf (word p : Text) : Prop := ∀ b, b <:+ p → b ≠ [] → ¬ b <+: word ∧ ¬ word <+: b

theorem ClearOf.spares {word p : Text} (h : ClearOf word p) (x : Text) : Spares word p x := by
  rintro a b rfl hb hbegins
  obtain ⟨hshort, hlong⟩ := h b (List.suffix_append a b) hb
  rcases List.prefix_or_prefix_of_prefix hbegins (List.prefix_append b x) with h | h
  · exact hlong h
  · exact hshort h

/-- All but the dot of a qualifier are letters. -/
theorem clearOf_qualifier {word p : Text} (hword : word ∈ qualifiers) (hp : ¬ word <:+: p)
    (hlast : ∀ c, p.getLast? = some c → c.isAlpha = false) : ClearOf word p := by
  have hletters : ∀ w ∈ qualifiers, ∀ b ∈ w.inits, b = w ∨ ∀ c ∈ b, c.isAlpha = true := by decide
  rintro b ⟨a, rfl⟩ hb
  refine ⟨fun hshort => ?_, fun hlong => hp (hlong.isInfix.trans (List.suffix_append a b).isInfix)⟩
  rcases hletters word hword b ((List.mem_inits _ _).2 hshort) with rfl | hletter
  · exact hp (List.suffix_append a b).isInfix
  · obtain ⟨c, hc⟩ : ∃ c, b.getLast? = some c := Option.isSome_iff_exists.1 (by simpa using hb)
    have hnot := hlast c (by rw [List.getLast?_append_of_ne_nil _ hb, hc])
    rw [hletter c (List.mem_of_getLast? hc)] at hnot
    contradiction

theorem qualifier_mem {word : Text} (hword : word ∈ qualifiers) : (word, []) ∈ replacements := by
  have hall : ∀ w ∈ qualifiers, (w, []) ∈ replacements := by decide
  exact hall word hword

theorem qualifier_spares {word q : Text} (hword : word ∈ qualifiers) (hq : q ∈ qualifiers) (hne : word ≠ q) (x : Text) :
    Spares word q x := by
  have hcontent : content ∉ qualifiers := by decide
  refine spares_of_not_sharesDot (t := q ++ x) (a := []) (qualifier_mem hq) (qualifier_mem hword)
    (fun heq => hne (congrArg Prod.fst heq)) (fun hdotted => ?_) rfl
  rcases hdotted with ⟨-, heq⟩ | ⟨-, heq⟩
  · exact absurd (heq ▸ hword) hcontent
  · exact absurd (heq ▸ hq) hcontent

theorem replace_chain {word p : Text} {qs : List Text} (hword : word ∈ qualifiers) (hp : ClearOf word p)
    (hqs : ∀ q ∈ qs, q ∈ qualifiers) (x : Text) :
    Text.replace word [] (p ++ (qs.flatten ++ x)) =
      p ++ ((qs.filter (· ≠ word)).flatten ++ Text.replace word [] x) := by
  rw [Text.replace_spared [] (hp.spares _)]
  congr 1
  induction qs with
  | nil => rfl
  | cons q qs ih =>
    have hrest := ih fun q' hq' => hqs q' (List.mem_cons_of_mem q hq')
    rw [List.flatten_cons, List.append_assoc]
    by_cases hq : q = word
    · subst hq
      rw [Text.replace_word (word_ne_nil (qualifier_mem hword)), hrest]
      simp
    · have hspares := qualifier_spares hword (hqs q List.mem_cons_self) (fun heq => hq heq.symm)
      rw [Text.replace_spared [] (hspares _), hrest]
      simp [hq]

theorem stripWith_chain {words qs : List Text} {p : Text} (hwords : ∀ word ∈ words, word ∈ qualifiers)
    (hp : ∀ word ∈ qualifiers, ClearOf word p) (hqs : ∀ q ∈ qs, q ∈ qualifiers) (x : Text) :
    stripWith (words.map (·, [])) (p ++ (qs.flatten ++ x)) =
      p ++ ((qs.filter (· ∉ words)).flatten ++ stripWith (words.map (·, [])) x) := by
  induction words generalizing qs x with
  | nil => simp [stripWith]
  | cons word words ih =>
    have hword := hwords word List.mem_cons_self
    have hstep : ∀ t, stripWith ((word :: words).map (·, [])) t =
        stripWith (words.map (·, [])) (Text.replace word [] t) := fun t => rfl
    have hrest := ih (fun word' hword' => hwords word' (List.mem_cons_of_mem word hword'))
      (fun q hq => hqs q (List.mem_of_mem_filter (p := (· ≠ word)) hq)) (Text.replace word [] x)
    rw [hstep, hstep, replace_chain hword (hp word hword) hqs, hrest, List.filter_filter]
    simp [Bool.and_comm]

/-- A chain of qualifiers is dropped whole and leaves no trace: the text is stripped as if the chain had not been
there. -/
theorem strip_chain {p : Text} {qs : List Text} (hqs : ∀ q ∈ qs, q ∈ qualifiers) (hp : ∀ q ∈ qualifiers, ¬ q <:+: p)
    (hlast : ∀ c, p.getLast? = some c → c.isAlpha = false) (x : Text) :
    strip (p ++ qs.flatten ++ x) = strip (p ++ x) := by
  have hclear : ∀ word ∈ qualifiers, ClearOf word p := fun word hword => clearOf_qualifier hword (hp word hword) hlast
  have hsplit : replacements = qualifiers.map (·, []) ++ replacements.drop 3 := rfl
  have hdropped : ∀ qs : List Text, (∀ q ∈ qs, q ∈ qualifiers) →
      stripWith (qualifiers.map (·, [])) (p ++ (qs.flatten ++ x)) = p ++ stripWith (qualifiers.map (·, [])) x := by
    intro qs hqs
    have hnone : qs.filter (· ∉ qualifiers) = [] := by simpa [List.filter_eq_nil_iff] using hqs
    rw [stripWith_chain (fun _ hword => hword) hclear hqs, hnone]
    rfl
  have hempty := hdropped [] (by simp)
  rw [strip, strip, hsplit, stripWith_append, stripWith_append, List.append_assoc, hdropped qs hqs, ← hempty]
  rfl

/-- The text behind the chain ends a qualifier that the chain would have to begin. -/
theorem strip_chain_joining :
    strip ("a=" ++ (["parent.", "window.", "parent.", "document."] : List Text).flatten ++ "rent.f(window.b)") =
      strip ("a=" ++ "rent.f(window.b)") ∧
    strip ("a=" ++ "rent.f(window.b)") = "a=rent.f(b)" :=
  ⟨strip_chain (by decide) (by decide) (by decide) "rent.f(window.b)", by decide⟩

/-- A letter in front of a chain can begin a qualifier that is joined when the chain goes. -/
example : strip ("w" ++ "parent." ++ "indow.f()") ≠ strip ("w" ++ "indow.f()") := by decide

end Rehost.Browser
