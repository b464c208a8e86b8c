import Rehost.Text.Utf8

/-! Visible texts: characters of ASCII that are printed as they are, blanks among them. Each of them is one byte, and a
file of visible lines falls into just these lines, whatever counts as a line break. -/
namespace Rehost.Text

def Visible (t : Text) : Prop := ∀ c ∈ t, 0x20 ≤ c.number ∧ c.number < 0x7f

instance (t : Text) : Decidable t.Visible := inferInstanceAs (Decidable (∀ c ∈ t, 0x20 ≤ c.number ∧ c.number < 0x7f))

variable {s t : Text} {c mark : CodePoint}

theorem visible_nil : Visible [] := by simp [Visible]

theorem Visible.cons (hc : 0x20 ≤ c.number ∧ c.number < 0x7f) (ht : t.Visible) : Visible (c :: t) :=
  List.forall_mem_cons.2 ⟨hc, ht⟩

theorem Visible.append (hs : s.Visible) (ht : t.Visible) : (s ++ t).Visible := List.forall_mem_append.2 ⟨hs, ht⟩

theorem Visible.of_subset (ht : t.Visible) (h : s ⊆ t) : s.Visible := fun c hc => ht c (h hc)

theorem visible_flatMap {f : CodePoint → Text} (h : ∀ c ∈ t, (f c).Visible) : Visible (t.flatMap f) := by
  intro c hc
  obtain ⟨d, hd, hc⟩ := List.mem_flatMap.1 hc
  exact h d hd c hc

theorem visible_replicate (count : Nat) (hc : 0x20 ≤ c.number ∧ c.number < 0x7f) : Visible (List.replicate count c) :=
  fun _ hd => List.eq_of_mem_replicate hd ▸ hc

theorem visible_hexDigit : ∀ n < 16, 0x20 ≤ (hexDigit n).number ∧ (hexDigit n).number < 0x7f := by decide

theorem visible_hex (places n : Nat) : Visible (hex places n) := by
  induction places generalizing n with
  | zero => exact visible_nil
  | succ places ih => exact (ih _).append (.cons (visible_hexDigit _ (Nat.mod_lt _ (by decide))) visible_nil)

/-! Their bytes. -/

theorem gapFrom_eq_none {keeps : CodePoint → Bool} (h : ∀ c ∈ t, c.isHalf = false) (position : Nat) :
    Utf8.gapFrom keeps position t = none := by
  induction t generalizing position with
  | nil => rfl
  | cons c t ih =>
    obtain ⟨hc, ht⟩ := List.forall_mem_cons.1 h
    simp [Utf8.gapFrom, hc, ih ht]

theorem encode_of_whole (h : ∀ c ∈ t, c.isHalf = false) : Utf8.encode t = .ok (Utf8.bytes t) := by
  rw [Utf8.encode, Utf8.gap?, gapFrom_eq_none h]

theorem encode_of_half (h : ∃ c ∈ t, c.isHalf = true) : ∃ g, Utf8.encode t = .error g := by
  have hgap : ∀ position, ∃ g, Utf8.gapFrom (fun _ => false) position t = some g := by
    induction t with
    | nil => simp at h
    | cons c t ih =>
      intro position
      cases hc : c.isHalf with
      | true => exact ⟨_, if_pos (by simp [hc])⟩
      | false =>
        obtain ⟨d, hd, hhalf⟩ := h
        have hrest : d ∈ t := (List.mem_cons.1 hd).resolve_left fun heq => by simp [← heq, hhalf] at hc
        obtain ⟨g, hg⟩ := ih ⟨d, hrest, hhalf⟩ (position + 1)
        exact ⟨g, by simp [Utf8.gapFrom, hc, hg]⟩
  obtain ⟨g, hg⟩ := hgap 0
  exact ⟨g, by rw [Utf8.encode, Utf8.gap?, hg]⟩

theorem Visible.whole (h : t.Visible) : ∀ c ∈ t, c.isHalf = false := by
  intro c hc
  have hsmall := (h c hc).2
  simp only [CodePoint.isHalf, Bool.and_eq_false_iff, decide_eq_false_iff_not]
  omega

theorem Visible.encode_line (h : t.Visible) : Utf8.encode (t ++ "\n") = .ok (Utf8.bytes (t ++ "\n")) :=
  encode_of_whole (List.forall_mem_append.2 ⟨h.whole, by decide⟩)

/-! Their lines. -/

theorem splitAt_line (h : mark ∉ t) (rest : Text) : splitAt mark (t ++ mark :: rest) = t :: splitAt mark rest := by
  induction t with
  | nil =>
    cases hrest : splitAt mark rest with
    | nil => exact absurd hrest (splitAt_ne_nil mark rest)
    | cons piece pieces => simp [splitAt, hrest]
  | cons c t ih =>
    rw [List.mem_cons, not_or] at h
    have hc : c ≠ mark := fun heq => h.1 heq.symm
    simp [splitAt, ih h.2, hc]

theorem Visible.not_mem_lineFeed (h : t.Visible) : ('\n' : CodePoint) ∉ t := fun hmem => absurd (h _ hmem).1 (by decide)

def ofLines (lines : List Text) : Text := lines.flatMap fun t => t ++ ("\n" : Text)

theorem ofLines_concat (lines : List Text) (line : Text) : ofLines (lines ++ [line]) = ofLines lines ++ (line ++ "\n") := by
  simp [ofLines]

theorem bytes_ofLines_concat (lines : List Text) (line : Text) :
    Utf8.bytes (ofLines (lines ++ [line])) = Utf8.bytes (ofLines lines) ++ Utf8.bytes (line ++ "\n") := by
  simp [ofLines_concat, Utf8.bytes]

theorem splitAt_ofLines {lines : List Text} (h : ∀ t ∈ lines, t.Visible) :
    splitAt '\n' (ofLines lines) = lines ++ [[]] := by
  induction lines with
  | nil => rfl
  | cons t lines ih =>
    obtain ⟨ht, hlines⟩ := List.forall_mem_cons.1 h
    have hwhole : ofLines (t :: lines) = t ++ ('\n' : CodePoint) :: ofLines lines := by
      simp [ofLines, Text.ofString]
    rw [hwhole, splitAt_line ht.not_mem_lineFeed, ih hlines]
    rfl

theorem whole_ofLines {lines : List Text} (h : ∀ t ∈ lines, ∀ c ∈ t, c.isHalf = false) :
    ∀ c ∈ ofLines lines, c.isHalf = false := by
  intro c hc
  obtain ⟨t, ht, hc⟩ := List.mem_flatMap.1 hc
  rcases List.mem_append.1 hc with hc | hc
  · exact h t ht c hc
  · obtain rfl := List.mem_singleton.1 hc
    rfl

theorem encode_ofLines {lines : List Text} (h : ∀ t ∈ lines, t.Visible) :
    Utf8.encode (ofLines lines) = .ok (Utf8.bytes (ofLines lines)) :=
  encode_of_whole (whole_ofLines fun t ht => (h t ht).whole)

end Rehost.Text
