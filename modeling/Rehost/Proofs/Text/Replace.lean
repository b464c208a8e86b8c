import Mathlib.Algebra.BigOperators.Group.List.Basic
import Mathlib.Data.List.Infix
import Mathlib.Data.List.Nodup
import Mathlib.Tactic.Ring
import Rehost.Text.Basic

/-! Words that are replaced in a text. Replacing one word after another is measured against replacing all of them at
once, in one reading from the left. Where the words share no character, what is left of the text may still join to a
word that did not stand there before; replacing can therefore only add to the places of another word, and where it
adds none the two ways come to the same. A word that keeps off what is written stands nowhere that it did not stand
before. -/
namespace Rehost.Text

/-- No `word` begins inside `w` where `x` follows. -/
def Spares (word w x : Text) : Prop := ∀ a b, w = a ++ b → b ≠ [] → ¬ word <+: b ++ x

/-- Replaces in the rest of a text of which `skip` characters belong to a word already replaced. -/
def atOnceFrom (rs : List (Text × Text)) : (skip : Nat) → Text → Text
  | _, [] => []
  | skip + 1, _ :: t => atOnceFrom rs skip t
  | 0, c :: t =>
    match rs.find? fun r => r.1.isPrefixOf (c :: t) with
    | some r => r.2 ++ atOnceFrom rs (r.1.length - 1) t
    | none => c :: atOnceFrom rs 0 t

/-- Each word gives way to what is paired with it, all in one reading from the left. -/
def atOnce (rs : List (Text × Text)) (t : Text) : Text := atOnceFrom rs 0 t

variable {rs rs' : List (Text × Text)} {r : Text × Text} {word w x t : Text}

theorem Spares.not_begins (h : Spares word w x) (hw : w ≠ []) : ¬ word <+: w ++ x := h [] w rfl hw

theorem Spares.of_cons {c : CodePoint} (h : Spares word (c :: w) x) : Spares word w x := by
  rintro a b rfl hb
  exact h (c :: a) b rfl hb

theorem spares_of_head {c : CodePoint} (hword : word.head? = some c) (hw : c ∉ w) (x : Text) : Spares word w x := by
  rintro a b rfl hb ⟨u, hu⟩
  obtain ⟨d, b, rfl⟩ := List.exists_cons_of_ne_nil hb
  cases word with
  | nil => simp at hword
  | cons e word =>
    obtain rfl : e = c := by simpa using hword
    obtain ⟨rfl, -⟩ := List.cons.inj hu
    simp at hw

/-! One reading: what stands at its place is a word or a character with which no word begins. -/

theorem atOnceFrom_eq_drop (rs : List (Text × Text)) (skip : Nat) (t : Text) :
    atOnceFrom rs skip t = atOnce rs (t.drop skip) := by
  induction t generalizing skip with
  | nil => simp [atOnce, atOnceFrom]
  | cons c t ih =>
    cases skip with
    | zero => rfl
    | succ skip => exact ih skip

theorem countFrom_eq_drop (word : Text) (skip : Nat) (t : Text) : countFrom word skip t = count word (t.drop skip) := by
  induction t generalizing skip with
  | nil => simp [count, countFrom]
  | cons c t ih =>
    cases skip with
    | zero => rfl
    | succ skip => exact ih skip

theorem replace_eq_atOnce (word new t : Text) : replace word new t = atOnce [(word, new)] t := by
  have hfrom : ∀ skip, replaceFrom word new skip t = atOnceFrom [(word, new)] skip t := by
    induction t with
    | nil => exact fun skip => by cases skip <;> rfl
    | cons c t ih =>
      intro skip
      cases skip with
      | succ skip => exact ih skip
      | zero => by_cases h : word.isPrefixOf (c :: t) = true <;> simp [replaceFrom, atOnceFrom, h, ih]
  exact hfrom 0

theorem drop_word (hword : word ≠ []) (t : Text) :
    ∃ c u, word ++ t = c :: u ∧ u.drop (word.length - 1) = t := by
  obtain ⟨c, u, rfl⟩ := List.exists_cons_of_ne_nil hword
  exact ⟨c, u ++ t, rfl, by simp⟩

@[simp] theorem atOnce_nil (rs : List (Text × Text)) : atOnce rs [] = [] := rfl

theorem atOnce_cons {c : CodePoint} (h : ∀ r ∈ rs, ¬ r.1 <+: c :: t) : atOnce rs (c :: t) = c :: atOnce rs t := by
  have hfind : (rs.find? fun r => r.1.isPrefixOf (c :: t)) = none := by
    simpa [List.find?_eq_none] using h
  rw [atOnce, atOnceFrom, hfind]
  rfl

theorem atOnce_word (hr : r ∈ rs) (hne : r.1 ≠ []) (honly : ∀ s ∈ rs, s.1 <+: r.1 ++ t → s = r) :
    atOnce rs (r.1 ++ t) = r.2 ++ atOnce rs t := by
  have hfind : (rs.find? fun s => s.1.isPrefixOf (r.1 ++ t)) = some r := by
    obtain ⟨s, hs⟩ : ∃ s, (rs.find? fun s => s.1.isPrefixOf (r.1 ++ t)) = some s := by
      rw [← Option.isSome_iff_exists, List.find?_isSome]
      exact ⟨r, hr, by simp⟩
    rw [hs, honly s (List.mem_of_find?_eq_some hs) (by simpa using List.find?_some hs)]
  obtain ⟨c, u, hcons, hdrop⟩ := drop_word hne t
  rw [hcons] at hfind ⊢
  rw [atOnce, atOnceFrom, hfind]
  simp only [atOnceFrom_eq_drop, hdrop]

theorem atOnce_spared (h : ∀ r ∈ rs, Spares r.1 w x) : atOnce rs (w ++ x) = w ++ atOnce rs x := by
  induction w with
  | nil => rfl
  | cons c w ih =>
    have hnone : ∀ r ∈ rs, ¬ r.1 <+: c :: (w ++ x) := fun r hr => (h r hr).not_begins (by simp)
    rw [List.cons_append, atOnce_cons hnone, ih fun r hr => (h r hr).of_cons]
    rfl

theorem replace_cons {c : CodePoint} (new : Text) (h : ¬ word <+: c :: t) :
    replace word new (c :: t) = c :: replace word new t := by
  have hnone : ∀ r ∈ [(word, new)], ¬ r.1 <+: c :: t := by simpa using h
  simpa only [replace_eq_atOnce] using atOnce_cons hnone

theorem replace_word (hword : word ≠ []) (new t : Text) :
    replace word new (word ++ t) = new ++ replace word new t := by
  have hmem : (word, new) ∈ [(word, new)] := List.mem_singleton_self _
  simpa only [replace_eq_atOnce] using atOnce_word hmem hword (by simp)

theorem replace_spared (new : Text) (h : Spares word w x) :
    replace word new (w ++ x) = w ++ replace word new x := by
  have hspares : ∀ r ∈ [(word, new)], Spares r.1 w x := by simpa using h
  simpa only [replace_eq_atOnce] using atOnce_spared hspares

theorem count_cons {c : CodePoint} (h : ¬ word <+: c :: t) : count word (c :: t) = count word t := by
  have hbegins : word.isPrefixOf (c :: t) = false := by rwa [Bool.eq_false_iff, Ne, List.isPrefixOf_iff_prefix]
  simp [count, countFrom, hbegins]

theorem count_word (hword : word ≠ []) (t : Text) : count word (word ++ t) = count word t + 1 := by
  obtain ⟨c, u, hcons, hdrop⟩ := drop_word hword t
  have hbegins : word.isPrefixOf (c :: u) = true := by simp [← hcons]
  rw [hcons, count, countFrom, if_pos hbegins, countFrom_eq_drop, hdrop]

theorem count_spared (h : Spares word w x) : count word (w ++ x) = count word x := by
  induction w with
  | nil => rfl
  | cons c w ih =>
    have hnone : ¬ word <+: c :: (w ++ x) := h.not_begins (by simp)
    rw [List.cons_append, count_cons hnone, ih h.of_cons]

/-- A text is read word by word and, where no word begins, character by character. -/
theorem reading {motive : Text → Prop} (hne : ∀ r ∈ rs, r.1 ≠ []) (nil : motive [])
    (word : ∀ r ∈ rs, ∀ t, motive t → motive (r.1 ++ t))
    (char : ∀ c t, (∀ r ∈ rs, ¬ r.1 <+: c :: t) → motive t → motive (c :: t)) (t : Text) : motive t := by
  induction hlength : t.length using Nat.strong_induction_on generalizing t with
  | _ n ih =>
    cases t with
    | nil => exact nil
    | cons c t =>
      by_cases h : ∃ r ∈ rs, r.1 <+: c :: t
      · obtain ⟨r, hr, u, hu⟩ := h
        have hpos := List.length_pos_iff.2 (hne r hr)
        have hsplit := congrArg List.length hu
        rw [List.length_append] at hsplit
        rw [← hu]
        exact word r hr u (ih u.length (by omega) u rfl)
      · push Not at h
        rw [List.length_cons] at hlength
        exact char c t h (ih t.length (by omega) t rfl)

/-! Replacing some words beside another one. -/

def Distinct (rs : List (Text × Text)) : Prop :=
  ∀ r ∈ rs, r.1 ≠ [] ∧ ∀ s ∈ rs, ∀ x, s.1 <+: r.1 ++ x → s = r

theorem Distinct.of_subset (h : Distinct rs) (hsub : rs' ⊆ rs) : Distinct rs' :=
  fun r hr => ⟨(h r (hsub hr)).1, fun s hs => (h r (hsub hr)).2 s (hsub hs)⟩

theorem Distinct.atOnce_word (h : Distinct rs) (hr : r ∈ rs) (t : Text) :
    atOnce rs (r.1 ++ t) = r.2 ++ atOnce rs t :=
  Text.atOnce_word hr (h r hr).1 fun s hs => (h r hr).2 s hs t

theorem atOnce_perm (h : Distinct rs) (hperm : rs.Perm rs') (t : Text) : atOnce rs t = atOnce rs' t := by
  have h' : Distinct rs' := h.of_subset hperm.symm.subset
  induction t using reading fun r hr => (h r hr).1 with
  | nil => rfl
  | word r hr t ih => rw [h.atOnce_word hr, h'.atOnce_word (hperm.subset hr), ih]
  | char c t hnone ih =>
    rw [atOnce_cons hnone, atOnce_cons fun r hr => hnone r (hperm.symm.subset hr), ih]

/-- A word that does not overlap itself, and that what the words of `rs` give way to holds no beginning of. -/
structure Foreign (rs : List (Text × Text)) (word : Text) : Prop where
  ne_nil : word ≠ []
  tail : ∀ x, Spares word word.tail x
  written : ∀ r ∈ rs, ∀ x, Spares word r.2 x

structure Separate (rs : List (Text × Text)) (word t : Text) : Prop where
  inside : ∀ r ∈ rs, ∀ a x, t = a ++ r.1 ++ x → Spares word r.1 x
  around : ∀ r ∈ rs, ∀ a x, t = a ++ word ++ x → Spares r.1 word x

theorem Separate.of_append {a : Text} (h : Separate rs word (a ++ t)) : Separate rs word t where
  inside := by
    rintro r hr b x rfl
    exact h.inside r hr (a ++ b) x (by simp)
  around := by
    rintro r hr b x rfl
    exact h.around r hr (a ++ b) x (by simp)

theorem Foreign.count_word_tail {c : CodePoint} (h : Foreign rs word) (hbegins : word <+: c :: t) :
    count word (c :: t) = count word t + 1 := by
  obtain ⟨u, hu⟩ := hbegins
  obtain ⟨d, w, rfl⟩ := List.exists_cons_of_ne_nil h.ne_nil
  obtain ⟨rfl, rfl⟩ := List.cons.inj hu
  have htail : Spares (d :: w) w u := h.tail u
  calc count (d :: w) (d :: w ++ u) = count (d :: w) u + 1 := count_word (by simp) u
    _ = count (d :: w) (w ++ u) + 1 := by rw [count_spared htail]

/-- Replacing other words leaves a word at all its places. Where it comes to stand at no new ones, replacing it
afterwards is replacing it together with the others. -/
theorem Separate.count_le {new : Text} (hs : Separate rs word t) (hd : Distinct (rs ++ [(word, new)]))
    (hf : Foreign rs word) :
    count word t ≤ count word (atOnce rs t) ∧
      (count word (atOnce rs t) = count word t →
        replace word new (atOnce rs t) = atOnce (rs ++ [(word, new)]) t) := by
  have hothers : Distinct rs := hd.of_subset (List.subset_append_left ..)
  induction t using reading fun r hr => (hd r hr).1 with
  | nil => simp
  | word r hr t ih =>
    obtain ⟨hle, heq⟩ := ih hs.of_append
    rw [hd.atOnce_word hr]
    rcases List.mem_append.1 hr with hmem | hmem
    · have hspared : Spares word r.1 t := hs.inside r hmem [] t rfl
      rw [hothers.atOnce_word hmem, count_spared hspared, count_spared (hf.written r hmem _),
        replace_spared new (hf.written r hmem _)]
      exact ⟨hle, fun h => by rw [heq h]⟩
    · obtain rfl := List.mem_singleton.1 hmem
      have hspared : ∀ r ∈ rs, Spares r.1 word t := fun r hr => hs.around r hr [] t rfl
      rw [atOnce_spared hspared, count_word hf.ne_nil, count_word hf.ne_nil, replace_word hf.ne_nil]
      exact ⟨by omega, fun h => by rw [heq (by omega)]⟩
  | char c t hnone ih =>
    obtain ⟨hle, heq⟩ := ih (hs.of_append (a := [c]))
    have hword : ¬ word <+: c :: t := hnone (word, new) (by simp)
    rw [atOnce_cons hnone, atOnce_cons fun r hr => hnone r (List.mem_append_left _ hr), count_cons hword]
    by_cases hmade : word <+: c :: atOnce rs t
    · -- The word is made of what was left on both sides of others.
      rw [hf.count_word_tail hmade]
      exact ⟨by omega, fun h => by omega⟩
    · rw [count_cons hmade, replace_cons new hmade]
      exact ⟨hle, fun h => by rw [heq h]⟩

/-! What replacing does to a measure of texts, such as their length or how often they hold a character. -/

variable (measure : Text → Int)

theorem measure_replace (hadd : ∀ a b, measure (a ++ b) = measure a + measure b) (hword : word ≠ []) (new t : Text) :
    measure t = measure (replace word new t) + count word t * (measure word - measure new) := by
  have hne : ∀ r ∈ [(word, new)], r.1 ≠ [] := by simpa using hword
  induction t using reading hne with
  | nil => simp
  | word r hr t ih =>
    obtain rfl := List.mem_singleton.1 hr
    rw [replace_word hword, count_word hword, hadd, hadd, ih]
    push_cast
    ring
  | char c t hnone ih =>
    have hnone : ¬ word <+: c :: t := by simpa using hnone
    have hcons : ∀ u : Text, measure (c :: u) = measure [c] + measure u := fun u => hadd [c] u
    rw [replace_cons new hnone, count_cons hnone, hcons t, hcons (replace word new t), ih]
    ring

theorem measure_atOnce (hadd : ∀ a b, measure (a ++ b) = measure a + measure b) (hd : Distinct rs) (hnodup : rs.Nodup)
    (h : ∀ r ∈ rs, ∀ s ∈ rs, s ≠ r → ∀ a x, t = a ++ r.1 ++ x → Spares s.1 r.1 x) :
    measure t = measure (atOnce rs t) + (rs.map fun r => count r.1 t * (measure r.1 - measure r.2)).sum := by
  induction t using reading fun r hr => (hd r hr).1 with
  | nil => simp
  | word r hr t ih =>
    have ih := ih (by
      rintro s hs s' hs' hne a x rfl
      exact h s hs s' hs' hne (r.1 ++ a) x (by simp))
    have hcount : ∀ s ∈ rs, (count s.1 (r.1 ++ t) * (measure s.1 - measure s.2) : Int) =
        count s.1 t * (measure s.1 - measure s.2) + if s = r then measure s.1 - measure s.2 else 0 := by
      intro s hs
      split
      · next heq =>
        rw [heq, count_word (hd r hr).1]
        push_cast
        ring
      · next hne => rw [count_spared (h r hr s hs hne [] t rfl), add_zero]
    rw [hd.atOnce_word hr, hadd, hadd, ih, List.map_congr_left hcount, List.sum_map_add, List.sum_map_ite_eq,
      @List.count_eq_one_of_mem _ instBEqOfDecidableEq _ _ _ hnodup hr]
    simp only [one_nsmul, sub_zero, List.map_const', List.sum_replicate, nsmul_zero]
    ring
  | char c t hnone ih =>
    have ih := ih (by
      rintro s hs s' hs' hne a x rfl
      exact h s hs s' hs' hne (c :: a) x (by simp))
    have hcons : ∀ u : Text, measure (c :: u) = measure [c] + measure u := fun u => hadd [c] u
    have hcount : ∀ s ∈ rs, (count s.1 (c :: t) * (measure s.1 - measure s.2) : Int) =
        count s.1 t * (measure s.1 - measure s.2) := fun s hs => by rw [count_cons (hnone s hs)]
    rw [atOnce_cons hnone, hcons t, hcons (atOnce rs t), ih, List.map_congr_left hcount]
    ring

/-! Where a word stands. -/

theorem replace_of_not_infix (new : Text) (h : ¬ word <:+: t) : replace word new t = t := by
  induction t with
  | nil => rfl
  | cons c t ih =>
    have hhere : ¬ word <+: c :: t := fun hbegins => h hbegins.isInfix
    have hbehind : ¬ word <:+: t := fun hstands => h (hstands.trans (List.suffix_cons c t).isInfix)
    rw [replace_cons new hhere, ih hbehind]

theorem count_pos_iff (hword : word ≠ []) : 0 < count word t ↔ word <:+: t := by
  have hne : ∀ r ∈ [(word, ([] : Text))], r.1 ≠ [] := by simpa using hword
  induction t using reading hne with
  | nil => simp [hword]
  | word r hr t ih =>
    obtain rfl := List.mem_singleton.1 hr
    simp [count_word hword, (List.prefix_append word t).isInfix]
  | char c t hnone ih =>
    have hhere : ¬ word <+: c :: t := by simpa using hnone
    rw [count_cons hhere, List.infix_cons_iff, or_iff_right hhere]
    exact ih

theorem length_replace_lt {new : Text} (hshorter : new.length < word.length) (h : word <:+: t) :
    (replace word new t).length < t.length := by
  have hword : word ≠ [] := List.length_pos_iff.1 (by omega)
  have hcount := (count_pos_iff hword).2 h
  have hlength := measure_replace (fun u => (u.length : Int)) (by simp) hword new t
  have htaken : (0 : Int) < count word t * (word.length - new.length) := Int.mul_pos (by omega) (by omega)
  omega

/-- A `word` neither begins in `new` nor reaches into it from what stands in front. -/
structure KeepsOff (word new : Text) : Prop where
  begins : ∀ x, Spares word new x
  reaches : ∀ u, u <:+ word → u ≠ [] → ¬ u <+: new ∧ ¬ new <+: u

namespace KeepsOff

variable {new other : Text}

theorem prefix_of_replace (h : KeepsOff other new) (hword : word ≠ []) {u : Text} (hu : u <:+ other)
    (hbegins : u <+: replace word new t) : u <+: t := by
  have hne : ∀ r ∈ [(word, new)], r.1 ≠ [] := by simpa using hword
  induction t using reading hne generalizing u with
  | nil => exact hbegins
  | word r hr t ih =>
    obtain rfl := List.mem_singleton.1 hr
    rw [replace_word hword] at hbegins
    by_cases hnil : u = []
    · simp [hnil]
    · obtain ⟨hinside, hover⟩ := h.reaches u hu hnil
      rcases List.prefix_or_prefix_of_prefix hbegins (List.prefix_append new _) with hprefix | hprefix
      · exact absurd hprefix hinside
      · exact absurd hprefix hover
  | char c t hnone ih =>
    have hhere : ¬ word <+: c :: t := by simpa using hnone
    rw [replace_cons new hhere] at hbegins
    cases u with
    | nil => simp
    | cons d u =>
      obtain ⟨rfl, htail⟩ := List.cons_prefix_cons.1 hbegins
      exact List.cons_prefix_cons.2 ⟨rfl, ih ((List.suffix_cons d u).trans hu) htail⟩

theorem stood (h : KeepsOff other new) (hword : word ≠ []) (hstands : other <:+: replace word new t) :
    ∃ u, u <:+ t ∧ other <+: u ∧ ¬ word <+: u := by
  have hne : ∀ r ∈ [(word, new)], r.1 ≠ [] := by simpa using hword
  induction t using reading hne with
  | nil => exact ⟨[], List.suffix_refl _, by simpa using hstands, by simpa using hword⟩
  | word r hr t ih =>
    obtain rfl := List.mem_singleton.1 hr
    have hbehind : other <:+: replace word new t := by
      obtain ⟨a, b, hab⟩ := hstands
      rw [replace_word hword, List.append_assoc] at hab
      rcases List.append_eq_append_iff.1 hab with ⟨d, hd, hsplit⟩ | ⟨d, -, hsplit⟩
      · by_cases hnil : d = []
        · exact ⟨[], b, by simpa [hnil] using hsplit⟩
        · exact absurd ⟨b, hsplit⟩ (h.begins _ a d hd hnil)
      · exact ⟨d, b, by simp [hsplit]⟩
    obtain ⟨u, hu, hother, hnot⟩ := ih hbehind
    exact ⟨u, hu.trans (List.suffix_append word t), hother, hnot⟩
  | char c t hnone ih =>
    have hhere : ¬ word <+: c :: t := by simpa using hnone
    rw [replace_cons new hhere, List.infix_cons_iff] at hstands
    rcases hstands with hbegins | hstands
    · rw [← replace_cons new hhere] at hbegins
      exact ⟨c :: t, List.suffix_refl _, h.prefix_of_replace hword (List.suffix_refl _) hbegins, hhere⟩
    · obtain ⟨u, hu, hother, hnot⟩ := ih hstands
      exact ⟨u, hu.trans (List.suffix_cons c t), hother, hnot⟩

theorem not_infix_replace_self (h : KeepsOff word new) (hword : word ≠ []) (t : Text) :
    ¬ word <:+: replace word new t := by
  intro hstands
  obtain ⟨u, -, hhere, hnot⟩ := h.stood hword hstands
  exact hnot hhere

theorem not_infix_replace (h : KeepsOff other new) (hword : word ≠ []) (hnot : ¬ other <:+: t) :
    ¬ other <:+: replace word new t := by
  intro hstands
  obtain ⟨u, hu, hother, -⟩ := h.stood hword hstands
  exact hnot (hother.isInfix.trans hu.isInfix)

end KeepsOff

end Rehost.Text
