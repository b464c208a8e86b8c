import Rehost.Proofs.Pattern.Reading

/-! Patterns that read in one way only. Such a pattern knows from the next character alone whether a part goes on or
ends, so two of its words in one place are the same word, with the same holdings, unless one of them could go on. -/
namespace Rehost.Pattern

@[simp] def mayBeEmpty : Pattern → Bool
  | nothing | most _ | fewest _ | wordEdge => true
  | exactly t => t.isEmpty
  | one _ | most1 _ => false
  | seq p q => p.mayBeEmpty && q.mayBeEmpty
  | either p q => p.mayBeEmpty || q.mayBeEmpty
  | group _ p => p.mayBeEmpty

@[simp] def begins : Pattern → CodePoint → Prop
  | nothing, _ | wordEdge, _ => False
  | exactly t, c => t.head? = some c
  | one accepts, c | most accepts, c | most1 accepts, c | fewest accepts, c => accepts c = true
  | seq p q, c => p.begins c ∨ p.mayBeEmpty = true ∧ q.begins c
  | either p q, c => p.begins c ∨ q.begins c
  | group _ p, c => p.begins c

/-- The characters by which a word may go on to a longer one. -/
@[simp] def grows : Pattern → CodePoint → Prop
  | nothing, _ | wordEdge, _ | exactly _, _ | one _, _ => False
  | most accepts, c | most1 accepts, c | fewest accepts, c => accepts c = true
  | seq p q, c => q.grows c ∨ q.mayBeEmpty = true ∧ (p.grows c ∨ q.begins c)
  | either p q, c => p.grows c ∨ q.grows c ∨ p.mayBeEmpty = true ∧ q.begins c ∨ q.mayBeEmpty = true ∧ p.begins c
  | group _ p, c => p.grows c

@[simp] def OneWay : Pattern → Prop
  | seq p q => p.OneWay ∧ q.OneWay ∧ ∀ c, p.grows c → ¬ q.begins c
  | either p q =>
    p.OneWay ∧ q.OneWay ∧ (∀ c, p.begins c → ¬ q.begins c) ∧ (p.mayBeEmpty && q.mayBeEmpty) = false
  | group _ p => p.OneWay
  | _ => True

theorem Reads.mayBeEmpty {p : Pattern} {g : Holdings} (h : p.Reads [] g) : p.mayBeEmpty = true := by
  induction p generalizing g with
  | nothing | most _ | fewest _ | wordEdge => rfl
  | exactly t => simp [Pattern.mayBeEmpty, ← h.1]
  | one _ =>
    obtain ⟨⟨c, -, hc⟩, -⟩ := h
    contradiction
  | most1 _ => exact absurd rfl h.1.1
  | seq p q ihp ihq =>
    obtain ⟨u, v, gu, gv, hw, -, hu, hv⟩ := h
    obtain ⟨rfl, rfl⟩ := List.append_eq_nil_iff.1 hw.symm
    simp [Pattern.mayBeEmpty, ihp hu, ihq hv]
  | either p q ihp ihq =>
    rcases h with h | h
    · simp [Pattern.mayBeEmpty, ihp h]
    · simp [Pattern.mayBeEmpty, ihq h]
  | group _ p ih =>
    obtain ⟨inner, h, -⟩ := h
    exact ih h

theorem Reads.begins {p : Pattern} {c : CodePoint} {w : Text} {g : Holdings} (h : p.Reads (c :: w) g) :
    p.begins c := by
  induction p generalizing c w g with
  | nothing | wordEdge => simp [Reads] at h
  | exactly t => simp [Pattern.begins, ← h.1]
  | one accepts =>
    obtain ⟨⟨d, hd, hc⟩, -⟩ := h
    obtain ⟨rfl, -⟩ := List.cons.inj hc
    exact hd
  | most _ | fewest _ => exact h.1 c (by simp)
  | most1 _ => exact h.1.2 c (by simp)
  | seq p q ihp ihq =>
    obtain ⟨u, v, gu, gv, hw, -, hu, hv⟩ := h
    cases u with
    | nil =>
      rw [List.nil_append] at hw
      exact .inr ⟨hu.mayBeEmpty, ihq (hw ▸ hv)⟩
    | cons d u =>
      obtain ⟨rfl, -⟩ := List.cons.inj hw
      exact .inl (ihp hu)
  | either p q ihp ihq =>
    rcases h with h | h
    · exact .inl (ihp h)
    · exact .inr (ihq h)
  | group _ p ih =>
    obtain ⟨inner, h, -⟩ := h
    exact ih h

/-- Nothing that the pattern could go on with stands at the beginning of the text. -/
def Stops (p : Pattern) (t : Text) : Prop := ∀ c, t.head? = some c → ¬ p.grows c

@[simp] theorem stops_nil (p : Pattern) : p.Stops [] := by simp [Stops]

theorem Stops.seq_right {p q : Pattern} {r : Text} (h : (seq p q).Stops r) : q.Stops r :=
  fun c hc hg => h c hc (.inl hg)

theorem Stops.seq_left {p q : Pattern} {v r : Text} {g : Holdings} (hpq : ∀ c, p.grows c → ¬ q.begins c)
    (h : (seq p q).Stops r) (hv : q.Reads v g) : p.Stops (v ++ r) := by
  intro c hc hg
  cases v with
  | nil => exact h c hc (.inr ⟨hv.mayBeEmpty, .inl hg⟩)
  | cons d v =>
    obtain rfl : d = c := by simpa using hc
    exact hpq d hg hv.begins

theorem run_unique {accepts : CodePoint → Bool} {w w' r r' : Text} (hw : ∀ c ∈ w, accepts c = true)
    (hw' : ∀ c ∈ w', accepts c = true) (heq : w ++ r = w' ++ r') (hr : ∀ c, r.head? = some c → ¬ accepts c = true)
    (hr' : ∀ c, r'.head? = some c → ¬ accepts c = true) : w = w' := by
  induction w generalizing w' with
  | nil =>
    cases w' with
    | nil => rfl
    | cons d w' =>
      rw [List.nil_append] at heq
      exact absurd (hw' d (by simp)) (hr d (by simp [heq]))
  | cons c w ih =>
    cases w' with
    | nil =>
      rw [List.nil_append] at heq
      exact absurd (hw c (by simp)) (hr' c (by simp [← heq]))
    | cons d w' =>
      obtain ⟨rfl, htail⟩ := List.cons.inj heq
      have hw : ∀ e ∈ w, accepts e = true := fun e he => hw e (by simp [he])
      have hw' : ∀ e ∈ w', accepts e = true := fun e he => hw' e (by simp [he])
      rw [ih hw hw' htail]

theorem append_cons_unique {c d : CodePoint} {a a' b b' : Text} (hd : d ∉ a) (hc : c ∉ a')
    (heq : a ++ c :: b = a' ++ d :: b') : a = a' ∧ c = d ∧ b = b' := by
  induction a generalizing a' with
  | nil =>
    cases a' with
    | nil => simpa using heq
    | cons e a' =>
      obtain ⟨rfl, -⟩ := List.cons.inj heq
      simp at hc
  | cons e a ih =>
    cases a' with
    | nil =>
      obtain ⟨rfl, -⟩ := List.cons.inj heq
      simp at hd
    | cons f a' =>
      obtain ⟨rfl, htail⟩ := List.cons.inj heq
      obtain ⟨rfl, h⟩ := ih (fun h => hd (by simp [h])) (fun h => hc (by simp [h])) htail
      exact ⟨rfl, h⟩

theorem prefix_of_append_cons {a b q r : Text} {c : CodePoint} (hc : c ∉ a) (heq : a ++ b = q ++ c :: r) : a <+: q := by
  rcases List.append_eq_append_iff.1 heq with ⟨q', rfl, -⟩ | ⟨a', rfl, ha⟩
  · exact List.prefix_append _ _
  · cases a' with
    | nil => simp
    | cons d a' =>
      obtain ⟨rfl, -⟩ := List.cons.inj ha
      simp at hc

theorem Stops.left_of_either {p q : Pattern} {r : Text} (h : (either p q).Stops r) : p.Stops r :=
  fun c hc hg => h c hc (.inl hg)

theorem Stops.right_of_either {p q : Pattern} {r : Text} (h : (either p q).Stops r) : q.Stops r :=
  fun c hc hg => h c hc (.inr (.inl hg))

theorem Stops.sides_apart {p q : Pattern} (hpq : ∀ c, p.begins c → ¬ q.begins c)
    (hempty : (p.mayBeEmpty && q.mayBeEmpty) = false) {w w' r r' : Text} {g g' : Holdings} (hw : p.Reads w g)
    (hw' : q.Reads w' g') (heq : w ++ r = w' ++ r') (hr : (either p q).Stops r) (hr' : (either p q).Stops r') :
    False := by
  cases w with
  | nil =>
    cases w' with
    | nil => simp [hw.mayBeEmpty, hw'.mayBeEmpty] at hempty
    | cons d w' =>
      rw [List.nil_append] at heq
      exact hr d (by simp [heq]) (.inr (.inr (.inl ⟨hw.mayBeEmpty, hw'.begins⟩)))
  | cons c w =>
    cases w' with
    | nil =>
      rw [List.nil_append] at heq
      exact hr' c (by simp [← heq]) (.inr (.inr (.inr ⟨hw'.mayBeEmpty, hw.begins⟩)))
    | cons d w' =>
      obtain ⟨rfl, -⟩ := List.cons.inj heq
      exact hpq c hw.begins hw'.begins

/-- One way to read: the word and its holdings are determined by the text. -/
theorem OneWay.unique {p : Pattern} (h : p.OneWay) {w w' r r' : Text} {g g' : Holdings} (hw : p.Reads w g)
    (hw' : p.Reads w' g') (heq : w ++ r = w' ++ r') (hr : p.Stops r) (hr' : p.Stops r') : w = w' ∧ g = g' := by
  induction p generalizing w w' r r' g g' with
  | nothing | wordEdge | exactly _ => exact ⟨hw.1.trans hw'.1.symm, hw.2.trans hw'.2.symm⟩
  | one _ =>
    obtain ⟨⟨c, -, rfl⟩, rfl⟩ := hw
    obtain ⟨⟨d, -, rfl⟩, rfl⟩ := hw'
    exact ⟨by simpa using (List.cons.inj heq).1, rfl⟩
  | most _ | fewest _ => exact ⟨run_unique hw.1 hw'.1 heq hr hr', hw.2.trans hw'.2.symm⟩
  | most1 _ => exact ⟨run_unique hw.1.2 hw'.1.2 heq hr hr', hw.2.trans hw'.2.symm⟩
  | seq p q ihp ihq =>
    obtain ⟨hp, hq, hpq⟩ := h
    obtain ⟨u, v, gu, gv, rfl, rfl, hu, hv⟩ := hw
    obtain ⟨u', v', gu', gv', rfl, rfl, hu', hv'⟩ := hw'
    rw [List.append_assoc, List.append_assoc] at heq
    obtain ⟨rfl, rfl⟩ := ihp hp hu hu' heq (hr.seq_left hpq hv) (hr'.seq_left hpq hv')
    obtain ⟨rfl, rfl⟩ := ihq hq hv hv' (List.append_cancel_left heq) hr.seq_right hr'.seq_right
    exact ⟨rfl, rfl⟩
  | either p q ihp ihq =>
    obtain ⟨hp, hq, hpq, hempty⟩ := h
    rcases hw with hw | hw <;> rcases hw' with hw' | hw'
    · exact ihp hp hw hw' heq hr.left_of_either hr'.left_of_either
    · exact (hr.sides_apart hpq hempty hw hw' heq hr').elim
    · exact (hr'.sides_apart hpq hempty hw' hw heq.symm hr).elim
    · exact ihq hq hw hw' heq hr.right_of_either hr'.right_of_either
  | group name p ih =>
    obtain ⟨inner, hw, rfl⟩ := hw
    obtain ⟨inner', hw', rfl⟩ := hw'
    obtain ⟨rfl, rfl⟩ := ih h hw hw' heq hr hr'
    exact ⟨rfl, rfl⟩

end Rehost.Pattern
