import Mathlib.Algebra.GroupWithZero.Nat
import Mathlib.Data.List.Infix
import Rehost.Proofs.Pattern.Alphabet

/-! Where the words of a pattern stand in a text. Places are counted one by one, so two words may overlap. A border that
no word lies across splits the count, and most borders are found by a character that no word holds. -/
namespace Rehost.Pattern

def places (p : Pattern) : Text → Nat
  | [] => 0
  | c :: t => (if (p.matchAt? ⟨[], c :: t⟩).isSome then 1 else 0) + p.places t

def standsIn (p : Pattern) (t : Text) : Prop := ∃ a w b, t = a ++ w ++ b ∧ p.Denotes w

def Apart (p : Pattern) (a b : Text) : Prop :=
  ∀ u v, u ≠ [] → v ≠ [] → u <:+ a → v <+: b → ¬ p.Denotes (u ++ v)

def Avoids (p : Pattern) (a x b : Text) : Prop :=
  ∀ u w v, a ++ x ++ b = u ++ w ++ v → p.Denotes w →
    u.length + w.length ≤ a.length ∨ a.length + x.length ≤ u.length

theorem isSome_matchAt?_iff {p : Pattern} (he : p.isEdgeFree = true) {b a : Text} :
    (p.matchAt? ⟨b, a⟩).isSome = true ↔ p.opens a := by
  rw [← matchAt?_ne_none_iff he (b := b), Option.isSome_iff_ne_none]

theorem opens.append {p : Pattern} {a : Text} (h : p.opens a) (b : Text) : p.opens (a ++ b) := by
  obtain ⟨w, r, rfl, hw⟩ := h
  exact ⟨w, r ++ b, by simp, hw⟩

theorem Apart.of_suffix {p : Pattern} {a a' b : Text} (h : p.Apart a b) (ha : a' <:+ a) : p.Apart a' b :=
  fun u v hu hv hua hvb => h u v hu hv (hua.trans ha) hvb

theorem Apart.opens_append_iff {p : Pattern} {a b : Text} (h : p.Apart a b) (ha : a ≠ []) :
    p.opens (a ++ b) ↔ p.opens a := by
  constructor
  · rintro ⟨w, r, heq, hw⟩
    rcases List.append_eq_append_iff.1 heq with ⟨v, rfl, rfl⟩ | ⟨x, rfl, -⟩
    · by_cases hv : v = []
      · subst hv
        exact ⟨a, [], by simp, by simpa using hw⟩
      · exact absurd hw (h a v ha hv (List.suffix_refl a) ⟨r, rfl⟩)
    · exact ⟨w, x, rfl, hw⟩
  · intro h
    exact h.append b

theorem places_append {p : Pattern} (he : p.isEdgeFree = true) {a b : Text} (h : p.Apart a b) :
    p.places (a ++ b) = p.places a + p.places b := by
  induction a with
  | nil => simp [places]
  | cons c a ih =>
    have ih := ih (h.of_suffix (List.suffix_cons c a))
    have hc : (p.matchAt? ⟨[], c :: (a ++ b)⟩).isSome = (p.matchAt? ⟨[], c :: a⟩).isSome := by
      rw [Bool.eq_iff_iff, isSome_matchAt?_iff he, isSome_matchAt?_iff he]
      exact h.opens_append_iff (by simp)
    simp only [List.cons_append, places, ih, hc]
    omega

theorem places_append_le {p : Pattern} (he : p.isEdgeFree = true) (a b : Text) :
    p.places a + p.places b ≤ p.places (a ++ b) := by
  induction a with
  | nil => simp [places]
  | cons c a ih =>
    have hc : (p.matchAt? ⟨[], c :: a⟩).isSome = true → (p.matchAt? ⟨[], c :: (a ++ b)⟩).isSome = true := by
      rw [isSome_matchAt?_iff he, isSome_matchAt?_iff he]
      exact fun h => h.append b
    simp only [List.cons_append, places]
    split
    · next h =>
      simp only [hc h, ↓reduceIte]
      omega
    · omega

theorem sum_places_le {p : Pattern} (he : p.isEdgeFree = true) (ts : List Text) :
    (ts.map p.places).sum ≤ p.places ts.flatten := by
  induction ts with
  | nil => simp [places]
  | cons t ts ih =>
    have hle := places_append_le he t ts.flatten
    simp only [List.map_cons, List.sum_cons, List.flatten_cons]
    omega

theorem places_eq_zero {p : Pattern} (he : p.isEdgeFree = true) {t : Text} (h : ¬ p.standsIn t) :
    p.places t = 0 := by
  induction t with
  | nil => rfl
  | cons c t ih =>
    have ht : ¬ p.standsIn t := by
      rintro ⟨a, w, b, rfl, hw⟩
      exact h ⟨c :: a, w, b, rfl, hw⟩
    have hc : (p.matchAt? ⟨[], c :: t⟩).isSome ≠ true := by
      rw [Ne, isSome_matchAt?_iff he]
      rintro ⟨w, r, heq, hw⟩
      exact h ⟨[], w, r, heq, hw⟩
    simp [places, hc, ih ht]

theorem places_pos {p : Pattern} (he : p.isEdgeFree = true) (hn : ¬ p.Denotes []) {t : Text} (h : p.standsIn t) :
    0 < p.places t := by
  obtain ⟨a, w, b, rfl, hw⟩ := h
  have hopens : p.opens (w ++ b) := ⟨w, b, rfl, hw⟩
  cases w with
  | nil => contradiction
  | cons c w =>
    have hle := places_append_le he a (c :: w ++ b)
    have hc := (isSome_matchAt?_iff he (b := [])).2 hopens
    rw [List.append_assoc]
    rw [List.cons_append] at hle hc ⊢
    simp only [places, hc, ↓reduceIte] at hle
    omega

theorem front_length_le {p : Pattern} (he : p.isEdgeFree = true) (hn : ¬ p.Denotes []) {t : Text}
    (h : p.places t ≤ 1) {a w b a' w' b' : Text} (ht : t = a ++ w ++ b) (ht' : t = a' ++ w' ++ b')
    (hw : p.Denotes w) (hw' : p.Denotes w') : a'.length ≤ a.length := by
  rcases Nat.lt_or_ge a.length a'.length with hlt | hge
  case inr => exact hge
  have hat : a <+: t := ⟨w ++ b, by simp [ht]⟩
  have hat' : a' <+: t := ⟨w' ++ b', by simp [ht']⟩
  obtain ⟨x, rfl⟩ := List.prefix_of_prefix_length_le hat hat' (by omega)
  have hbehind : w ++ b = x ++ w' ++ b' := by
    rw [ht] at ht'
    simpa using ht'
  cases x with
  | nil => simp at hlt
  | cons c x =>
    -- One word begins at `c`, another one behind it.
    have hopens : p.opens (c :: (x ++ w' ++ b')) := ⟨w, b, by simpa using hbehind.symm, hw⟩
    have hfirst := (isSome_matchAt?_iff he (b := [])).2 hopens
    have hsecond : 0 < p.places (x ++ w' ++ b') := places_pos he hn ⟨x, w', b', rfl, hw'⟩
    have hle := places_append_le he a (w ++ b)
    rw [← List.append_assoc, ← ht, hbehind] at hle
    simp only [List.cons_append, places, hfirst, ↓reduceIte] at hle
    omega

theorem front_unique {p : Pattern} (he : p.isEdgeFree = true) (hn : ¬ p.Denotes []) {t : Text}
    (h : p.places t ≤ 1) {a w b a' w' b' : Text} (ht : t = a ++ w ++ b) (ht' : t = a' ++ w' ++ b')
    (hw : p.Denotes w) (hw' : p.Denotes w') : a = a' := by
  have hlen : a.length = a'.length :=
    Nat.le_antisymm (front_length_le he hn h ht' ht hw' hw) (front_length_le he hn h ht ht' hw hw')
  have heq : a ++ (w ++ b) = a' ++ (w' ++ b') := by
    rw [← List.append_assoc, ← ht, ht', List.append_assoc]
  exact (List.append_inj heq hlen).1

/-! Borders. -/

theorem Lacks.apart_cons {p : Pattern} {c : CodePoint} (h : p.Lacks c) (a b : Text) : p.Apart a (c :: b) := by
  intro u v _ hv _ hvb hw
  cases v with
  | nil => contradiction
  | cons d v =>
    obtain ⟨rfl, -⟩ := List.cons_prefix_cons.1 hvb
    exact h _ hw (by simp)

/-- A character that no word holds takes no place and splits the count. -/
theorem Lacks.places_append_cons {p : Pattern} {c : CodePoint} (h : p.Lacks c) (he : p.isEdgeFree = true)
    (hn : ¬ p.Denotes []) (a b : Text) : p.places (a ++ c :: b) = p.places a + p.places b := by
  rw [places_append he (h.apart_cons a b)]
  have hc : (p.matchAt? ⟨[], c :: b⟩).isSome ≠ true := by
    rw [Ne, isSome_matchAt?_iff he]
    rintro ⟨w, r, heq, hw⟩
    cases w with
    | nil => exact hn hw
    | cons d w =>
      obtain ⟨rfl, -⟩ := List.cons.inj heq
      exact h _ hw (by simp)
  simp [places, hc]

theorem apart_of_last {p : Pattern} {e : CodePoint} (hlast : ∀ w, p.Denotes w → w.getLast? = some e) {b : Text}
    (hb : e ∉ b) (a : Text) : p.Apart a b := by
  intro u v _ hv _ hvb hw
  have h := hlast _ hw
  rw [List.getLast?_append_of_ne_nil _ hv] at h
  exact hb (hvb.subset (List.mem_of_getLast? h))

theorem apart_of_head {p : Pattern} {e : CodePoint} (hhead : ∀ w, p.Denotes w → w.head? = some e) {a : Text}
    (ha : e ∉ a) (b : Text) : p.Apart a b := by
  intro u v hu _ hua _ hw
  have h := hhead _ hw
  rw [List.head?_append_of_ne_nil _ hu] at h
  exact ha (hua.subset (List.mem_of_head? h))

theorem start_of_head {p : Pattern} {e : CodePoint} (hhead : ∀ w, p.Denotes w → w.head? = some e)
    {a x b u w v : Text} (heq : a ++ x ++ b = u ++ w ++ v) (hw : p.Denotes w) (hx : e ∉ x) :
    u.length < a.length ∨ a.length + x.length ≤ u.length := by
  by_contra h
  rw [not_or, Nat.not_lt, Nat.not_le] at h
  obtain ⟨w, rfl⟩ := List.head?_eq_some_iff.1 (hhead w hw)
  have hat : (a ++ x ++ b)[u.length]? = some e := by simp [heq]
  rw [List.getElem?_append_left (by simp only [List.length_append]; omega), List.getElem?_append_right h.1] at hat
  exact hx (List.mem_of_getElem? hat)

theorem end_of_last {p : Pattern} {e : CodePoint} (hlast : ∀ w, p.Denotes w → w.getLast? = some e)
    {a x b u w v : Text} (heq : a ++ x ++ b = u ++ w ++ v) (hw : p.Denotes w) (hx : e ∉ x) :
    u.length + w.length ≤ a.length ∨ a.length + x.length < u.length + w.length := by
  by_contra h
  rw [not_or, Nat.not_le, Nat.not_lt] at h
  obtain ⟨w, rfl⟩ := List.getLast?_eq_some_iff.1 (hlast w hw)
  simp only [List.length_append, List.length_singleton] at h
  have hat : (a ++ x ++ b)[u.length + w.length]? = some e := by
    have : a ++ x ++ b = u ++ w ++ (e :: v) := by simp [heq]
    rw [this, ← List.length_append]
    simp
  rw [List.getElem?_append_left (by simp only [List.length_append]; omega),
    List.getElem?_append_right (by omega)] at hat
  exact hx (List.mem_of_getElem? hat)

theorem not_standsIn_of_head {p : Pattern} {e : CodePoint} (hhead : ∀ w, p.Denotes w → w.head? = some e) {t : Text}
    (ht : e ∉ t) : ¬ p.standsIn t := by
  rintro ⟨a, w, b, rfl, hw⟩
  exact ht (by simp [List.mem_of_head? (hhead w hw)])

theorem not_standsIn_of_mem {p : Pattern} {e : CodePoint} (hmem : ∀ w, p.Denotes w → e ∈ w) {t : Text}
    (ht : e ∉ t) : ¬ p.standsIn t := by
  rintro ⟨a, w, b, rfl, hw⟩
  exact ht (by simp [hmem w hw])

theorem apart_of_opening {p : Pattern} {h x : Text} (hopen : ∀ w, p.Denotes w → h <+: w)
    (hx : ∀ v ∈ x.tails, v = [] ∨ ¬ v <+: h ∧ ¬ h <+: v) (b : Text) : p.Apart x b := by
  intro u v hu _ hux _ hw
  rcases hx u ((List.mem_tails _ _).2 hux) with rfl | ⟨hshort, hlong⟩
  · contradiction
  · rcases List.prefix_or_prefix_of_prefix (hopen _ hw) (List.prefix_append u v) with h | h
    · exact hlong h
    · exact hshort h

theorem not_standsIn_of_opening {p : Pattern} {h x : Text} (hopen : ∀ w, p.Denotes w → h <+: w) (hn : h ≠ [])
    (hx : ∀ v ∈ x.tails, v = [] ∨ ¬ v <+: h ∧ ¬ h <+: v) : ¬ p.standsIn x := by
  rintro ⟨a, w, b, rfl, hw⟩
  have hmem : w ++ b ∈ (a ++ w ++ b).tails := (List.mem_tails _ _).2 ⟨a, by simp⟩
  have hpre : h <+: w ++ b := (hopen w hw).trans (List.prefix_append w b)
  rcases hx _ hmem with hnil | ⟨-, hlong⟩
  · rw [hnil, List.prefix_nil] at hpre
    exact hn hpre
  · exact hlong hpre

theorem exactly_apart {t x : Text} (hx : ∀ v ∈ t.tails, v = [] ∨ v = t ∨ ¬ v <+: x) (a : Text) :
    (exactly t).Apart a x := by
  intro u v hu hv _ hvx hw
  have hsuf : v <:+ t := ⟨u, hw⟩
  rcases hx v ((List.mem_tails _ _).2 hsuf) with rfl | rfl | h
  · contradiction
  · have : u = [] := by simpa [Denotes] using hw
    contradiction
  · exact h hvx

theorem avoids_of_apart {p : Pattern} {a x b : Text} (hleft : p.Apart a (x ++ b)) (hright : p.Apart (a ++ x) b)
    (hx : ¬ p.standsIn x) : p.Avoids a x b := by
  intro u w v heq hw
  rcases Nat.lt_or_ge a.length (u.length + w.length) with hend | hend
  case inr => exact .inl hend
  rcases Nat.lt_or_ge u.length (a.length + x.length) with hbegin | hbegin
  case inr => exact .inr hbegin
  exfalso
  have hu : u <+: a ++ x ++ b := ⟨w ++ v, by rw [heq, List.append_assoc]⟩
  have ha : a <+: a ++ x ++ b := ⟨x ++ b, by rw [List.append_assoc]⟩
  rcases Nat.lt_or_ge u.length a.length with hcross | hinside
  · -- The word lies across the border in front of `x`.
    obtain ⟨y, rfl⟩ := List.prefix_of_prefix_length_le hu ha hcross.le
    have heq : y ++ (x ++ b) = w ++ v := by simpa using heq
    obtain ⟨z, rfl⟩ : y <+: w :=
      List.prefix_of_prefix_length_le ⟨x ++ b, rfl⟩ ⟨v, heq.symm⟩ (by simp at hend; omega)
    refine hleft y z ?_ ?_ ⟨u, rfl⟩ ⟨v, ?_⟩ hw
    · rintro rfl
      simp at hcross
    · rintro rfl
      simp at hend
    · simpa using heq.symm
  · obtain ⟨y, rfl⟩ := List.prefix_of_prefix_length_le ha hu hinside
    have heq : x ++ b = y ++ (w ++ v) := by simpa using heq
    obtain ⟨z, rfl⟩ : y <+: x :=
      List.prefix_of_prefix_length_le ⟨w ++ v, heq.symm⟩ ⟨b, rfl⟩ (by simp at hbegin; omega)
    have heq : z ++ b = w ++ v := by simpa using heq
    rcases List.append_eq_append_iff.1 heq with ⟨y', rfl, rfl⟩ | ⟨z', rfl, rfl⟩
    · -- The word lies across the border behind `x`.
      by_cases hy : y' = []
      · subst hy
        exact hx ⟨y, z, [], by simp, by simpa using hw⟩
      · refine hright z y' ?_ hy ⟨a ++ y, by simp⟩ ⟨v, rfl⟩ hw
        rintro rfl
        simp at hbegin
    · exact hx ⟨y, w, z', by simp, hw⟩

end Rehost.Pattern
