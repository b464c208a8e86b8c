import Rehost.Json
import Rehost.Proofs.Text.Visible

/-! A document on one line. Whatever its strings hold, its text is visible throughout, so it has no line break and needs
no other character than ASCII. -/
namespace Rehost

namespace Decimal
open Text

theorem visible_digitsOf (n : Nat) : (digitsOf n).Visible := by
  intro c hc
  obtain ⟨d, hd, rfl⟩ := List.mem_map.1 hc
  have hdigit := Nat.isDigit_of_mem_toDigits (by decide) (by decide) hd
  simp only [Char.isDigit, Bool.and_eq_true, decide_eq_true_eq] at hdigit
  have hbounds : 48 ≤ d.toNat ∧ d.toNat ≤ 57 := hdigit
  change 0x20 ≤ d.toNat ∧ d.toNat < 0x7f
  omega

theorem visible_zeros (count : Nat) : (zeros count).Visible := visible_replicate count (by decide)

theorem visible_layout (s : Scaled) : (layout s).Visible := by
  have hdigits := visible_digitsOf s.digits
  have htake : ∀ n, Visible ((digitsOf s.digits).take n) := fun n => hdigits.of_subset (List.take_subset n _)
  have hdrop : ∀ n, Visible ((digitsOf s.digits).drop n) := fun n => hdigits.of_subset (List.drop_subset n _)
  have hpoint : Visible "." := by decide
  unfold layout
  simp only
  split
  · split
    · exact (Visible.append (by decide) (visible_zeros _)).append hdigits
    split
    · exact (hdigits.append (visible_zeros _)).append (by decide)
    · exact ((htake _).append hpoint).append (hdrop _)
  · refine ((((htake 1).append ?_).append ?_).append (visible_zeros _)).append (visible_digitsOf _)
    · split
      · exact visible_nil
      · exact hpoint.append (hdrop 1)
    · split <;> decide

theorem visible_render (x : Binary64) : (render Json.specialNames x).Visible := by
  have hsign : (sign x).Visible := by
    unfold sign
    split <;> decide
  unfold render
  split
  · decide
  · exact hsign.append (by decide)
  · refine hsign.append ?_
    split
    · decide
    · exact visible_layout _

end Decimal

namespace Json
open Text

theorem visible_unit (n : Nat) : (unit n).Visible := .cons (by decide) (.cons (by decide) (visible_hex 4 n))

theorem visible_escapeChar (c : CodePoint) : (escapeChar c).Visible := by
  unfold escapeChar
  simp only
  split
  · next h =>
    simp only [Bool.or_eq_true, decide_eq_true_eq] at h
    rcases h with rfl | rfl <;> decide
  repeat
    split
    · decide
  split
  · next h =>
    simp only [Bool.and_eq_true, decide_eq_true_eq] at h
    exact .cons h visible_nil
  split
  · exact visible_unit _
  · exact (visible_unit _).append (visible_unit _)

theorem visible_string (s : Text) : (string s).Visible :=
  (Visible.append (by decide) (visible_flatMap fun c _ => visible_escapeChar c)).append (by decide)

theorem visible_int10 (n : Int) : (int10 n).Visible := by
  refine Visible.append ?_ (Decimal.visible_digitsOf _)
  split <;> decide

structure Layout.Within (l : Layout) (P : CodePoint → Prop) : Prop where
  edge : ∀ depth, ∀ c ∈ l.edge depth, P c
  between : ∀ depth, ∀ c ∈ l.between depth, P c

section
variable {l : Layout} {P : CodePoint → Prop}

mutual
theorem write_within (hl : l.Within P) (hP : ∀ c, Visible [c] → P c) (j : Json) (depth : Nat) :
    ∀ c ∈ j.write l depth, P c := by
  have hvisible : ∀ {t : Text}, t.Visible → ∀ c ∈ t, P c := fun ht c hc => hP c (ht.of_subset (by simpa using hc))
  match j with
  | null => exact hvisible (by decide : Visible "null")
  | bool true => exact hvisible (by decide : Visible "true")
  | bool false => exact hvisible (by decide : Visible "false")
  | int n => exact hvisible (visible_int10 n)
  | number x => exact hvisible (Decimal.visible_render x)
  | text s => exact hvisible (visible_string s)
  | array [] => exact hvisible (by decide : Visible "[]")
  | array (x :: xs) =>
    rw [write]
    simp only [List.forall_mem_append]
    exact ⟨⟨⟨⟨⟨hvisible (by decide), hl.edge _⟩, write_within hl hP x _⟩, writeItems_within hl hP xs _⟩, hl.edge _⟩,
      hvisible (by decide)⟩
  | object [] => exact hvisible (by decide : Visible "\x7b\x7d")
  | object ((k, v) :: fs) =>
    rw [write]
    simp only [List.forall_mem_append]
    exact ⟨⟨⟨⟨⟨⟨⟨hvisible (by decide), hl.edge _⟩, hvisible (visible_string k)⟩, hvisible (by decide)⟩,
      write_within hl hP v _⟩, writeFields_within hl hP fs _⟩, hl.edge _⟩, hvisible (by decide)⟩
theorem writeItems_within (hl : l.Within P) (hP : ∀ c, Visible [c] → P c) (xs : List Json) (depth : Nat) :
    ∀ c ∈ writeItems l depth xs, P c := by
  match xs with
  | [] => simp [writeItems]
  | x :: xs =>
    rw [writeItems]
    simp only [List.forall_mem_append]
    exact ⟨⟨hl.between _, write_within hl hP x _⟩, writeItems_within hl hP xs _⟩
theorem writeFields_within (hl : l.Within P) (hP : ∀ c, Visible [c] → P c) (fs : List (Text × Json)) (depth : Nat) :
    ∀ c ∈ writeFields l depth fs, P c := by
  match fs with
  | [] => simp [writeFields]
  | (k, v) :: fs =>
    have hvisible : ∀ {t : Text}, t.Visible → ∀ c ∈ t, P c := fun ht c hc => hP c (ht.of_subset (by simpa using hc))
    rw [writeFields]
    simp only [List.forall_mem_append]
    exact ⟨⟨⟨⟨hl.between _, hvisible (visible_string k)⟩, hvisible (by decide)⟩, write_within hl hP v _⟩,
      writeFields_within hl hP fs _⟩
end

end

theorem visible_line (j : Json) : j.line.Visible := by
  refine write_within ⟨fun _ => ?_, fun _ => ?_⟩ (fun c hc => hc c (by simp)) j 0
  · exact visible_nil
  · exact (by decide : Visible ", ")

theorem encode_document (j : Json) : Utf8.encode j.document = .ok (Utf8.bytes j.document) := by
  have hspaces : ∀ count, ∀ c ∈ spaces count, c.isHalf = false := fun count =>
    (visible_replicate count (by decide)).whole
  refine encode_of_whole (List.forall_mem_append.2 ⟨?_, by decide⟩)
  refine write_within ⟨fun _ => ?_, fun _ => ?_⟩ (fun c hc => hc.whole c (by simp)) j 0
  · exact List.forall_mem_append.2 ⟨by decide, hspaces _⟩
  · exact List.forall_mem_append.2 ⟨by decide, hspaces _⟩

end Json
end Rehost
