import Mathlib.Data.List.Perm.Basic
import Mathlib.Data.List.Sublists
import Rehost.Pass
import Rehost.Proofs.Table
import Rehost.Proofs.Text.Replace

/-! Dropping the references to the page. They are dropped one kind after another, and counted in the text as it was
given. Neither the order nor the counts go without saying: a qualifier and `.innerHTML` can share a dot, and what is
left on both sides of a reference can join to one of another kind. Where no dot is shared, the order does not matter
exactly if leaving out some kinds at once makes no reference of another, and the counts are right exactly if all
references are dropped as at once. Both ways back need that a text tells by its letters how often each kind was
dropped from it. -/
namespace Rehost.Browser
open Text (atOnce Spares Distinct Foreign Separate)

def content : Text := ".innerHTML"

def qualifiers : List Text := ["window.", "parent.", "document."]

/-- A qualifier whose dot is that of `.innerHTML` as well. -/
def SharesDot (t : Text) : Prop := ∃ q ∈ qualifiers, q ++ ("innerHTML" : Text) <:+: t

instance (t : Text) : Decidable (SharesDot t) :=
  inferInstanceAs (Decidable (∃ q ∈ qualifiers, q ++ ("innerHTML" : Text) <:+: t))

/-- Leaving out any kinds of references at once changes nothing in how often another kind occurs. -/
def Independent (t : Text) : Prop :=
  ∀ rs ∈ replacements.sublists, ∀ r ∈ replacements, r ∉ rs → Text.count r.1 (atOnce rs t) = Text.count r.1 t

instance (t : Text) : Decidable (Independent t) := inferInstanceAs (Decidable (∀ rs ∈ replacements.sublists,
  ∀ r ∈ replacements, r ∉ rs → Text.count r.1 (atOnce rs t) = Text.count r.1 t))

def performed : List (Text × Text) → Text → Table Nat
  | [], _ => []
  | r :: rs, t => (r.1, Text.count r.1 t) :: performed rs (Text.replace r.1 r.2 t)

/-- What is not in the table was counted nowhere. -/
def tally (counts : Table Nat) (word : Text) : Nat := (counts.get? word).getD 0

def taken (measure : Text → Int) (counts : Table Nat) : Int :=
  (replacements.map fun r => tally counts r.1 * (measure r.1 - measure r.2)).sum

variable {rs : List (Text × Text)} {r s : Text × Text} {t : Text}

/-! The references themselves. -/

theorem meeting : ∀ r ∈ replacements, ∀ s ∈ replacements, ∀ b ∈ r.1.tails, b ≠ [] → b <+: s.1 ∨ s.1 <+: b →
    b = r.1 ∧ s = r ∨ b = "." ∧ r.1 ∈ qualifiers ∧ s.1 = content := by
  decide +kernel

/-- Of two references only a qualifier and `.innerHTML` can overlap, and only in the dot. -/
theorem meeting_cases (hr : r ∈ replacements) (hs : s ∈ replacements) {a b x : Text} (hab : r.1 = a ++ b) (hb : b ≠ [])
    (hbegins : s.1 <+: b ++ x) :
    a = [] ∧ s = r ∨ b = "." ∧ r.1 ∈ qualifiers ∧ s.1 = content ∧ ("innerHTML" : Text) <+: x := by
  have htail : b ∈ r.1.tails := (List.mem_tails _ _).2 ⟨a, hab.symm⟩
  rcases meeting r hr s hs b htail hb (List.prefix_or_prefix_of_prefix (List.prefix_append b x) hbegins) with
    ⟨hwhole, heq⟩ | ⟨rfl, hq, hcontent⟩
  · exact .inl ⟨by simpa [hwhole] using hab, heq⟩
  · rw [hcontent] at hbegins
    exact .inr ⟨rfl, hq, hcontent, (List.cons_prefix_cons.1 hbegins).2⟩

theorem word_ne_nil (hr : r ∈ replacements) : r.1 ≠ [] := by
  have h : ∀ r ∈ replacements, r.1 ≠ [] := by decide
  exact h r hr

theorem nodup_words : (replacements.map Prod.fst).Nodup := by decide +kernel

theorem distinct : Distinct replacements := by
  intro r hr
  refine ⟨word_ne_nil hr, fun s hs x hbegins => ?_⟩
  rcases meeting_cases hr hs (a := []) rfl (word_ne_nil hr) hbegins with ⟨-, heq⟩ | ⟨hdot, hq, -⟩
  · exact heq
  · exact absurd (hdot ▸ hq : (".": Text) ∈ qualifiers) (by decide)

theorem foreign (hsub : rs ⊆ replacements) (hr : r ∈ replacements) : Foreign rs r.1 where
  ne_nil := word_ne_nil hr
  tail := by
    rintro x a b hab hb hbegins
    obtain ⟨c, w, hw⟩ := List.exists_cons_of_ne_nil (word_ne_nil hr)
    have hsplit : r.1 = (c :: a) ++ b := by
      rw [hw, List.cons_append, ← hab, hw]
      rfl
    rcases meeting_cases hr hr hsplit hb hbegins with ⟨ha, -⟩ | ⟨-, hq, hcontent, -⟩
    · contradiction
    · rw [hcontent] at hq
      exact absurd hq (by decide)
  written := by
    intro s hs x
    have hhead : ∀ s ∈ replacements, ∀ r ∈ replacements, r.1.head?.any (· ∈ s.2) = false := by decide
    obtain ⟨c, hc⟩ : ∃ c, r.1.head? = some c := by
      obtain ⟨c, w, hw⟩ := List.exists_cons_of_ne_nil (word_ne_nil hr)
      exact ⟨c, by simp [hw]⟩
    exact Text.spares_of_head hc (by simpa [hc] using hhead s (hsub hs) r hr) x

def Dotted (r s : Text × Text) : Prop := r.1 ∈ qualifiers ∧ s.1 = content ∨ s.1 ∈ qualifiers ∧ r.1 = content

instance (r s : Text × Text) : Decidable (Dotted r s) :=
  inferInstanceAs (Decidable (r.1 ∈ qualifiers ∧ s.1 = content ∨ s.1 ∈ qualifiers ∧ r.1 = content))

theorem spares_of_not_sharesDot (hr : r ∈ replacements) (hs : s ∈ replacements) (hne : s ≠ r)
    (hdot : Dotted r s → ¬ SharesDot t) {a x : Text} (ht : t = a ++ r.1 ++ x) : Spares s.1 r.1 x := by
  rintro b d hbd hd hbegins
  rcases meeting_cases hr hs hbd hd hbegins with ⟨-, heq⟩ | ⟨-, hq, hcontent, v, hv⟩
  · exact hne heq
  · exact hdot (.inl ⟨hq, hcontent⟩) ⟨r.1, hq, a, v, by simp [ht, ← hv]⟩

theorem separate (hsub : rs ⊆ replacements) (hr : r ∈ replacements) (hnot : r ∉ rs)
    (hdot : ∀ s ∈ rs, Dotted s r → ¬ SharesDot t) : Separate rs r.1 t where
  inside := fun s hs _ _ ht =>
    spares_of_not_sharesDot (hsub hs) hr (fun heq => hnot (heq ▸ hs)) (hdot s hs) ht
  around := fun s hs _ _ ht =>
    spares_of_not_sharesDot hr (hsub hs) (fun heq => hnot (heq ▸ hs)) (fun h => hdot s hs h.symm) ht

/-! Replacing one kind after another. -/

theorem stripWith_concat (rs : List (Text × Text)) (r : Text × Text) (t : Text) :
    stripWith (rs ++ [r]) t = Text.replace r.1 r.2 (stripWith rs t) := by
  simp [stripWith]

/-- As long as no kind is made by those before it, replacing one kind after another is replacing them at once. -/
theorem stripWith_eq_atOnce_concat (hdot : ¬ SharesDot t) (hsub : rs ++ [r] ⊆ replacements) (hnodup : (rs ++ [r]).Nodup)
    (heq : stripWith rs t = atOnce rs t) (hcount : Text.count r.1 (stripWith rs t) = Text.count r.1 t) :
    stripWith (rs ++ [r]) t = atOnce (rs ++ [r]) t := by
  have hrs : rs ⊆ replacements := fun s hs => hsub (by simp [hs])
  have hr : r ∈ replacements := hsub (by simp)
  have hnot : r ∉ rs := by simpa using (List.nodup_append.1 hnodup).2.2 r
  have hseparate := separate hrs hr hnot fun _ _ _ => hdot
  rw [stripWith_concat, heq]
  exact (hseparate.count_le (distinct.of_subset hsub) (foreign hrs hr)).2 (heq ▸ hcount)

theorem stripWith_eq_atOnce (hdot : ¬ SharesDot t) (hsub : rs ⊆ replacements) (hnodup : rs.Nodup)
    (hcount : ∀ p r q, rs = p ++ r :: q → Text.count r.1 (stripWith p t) = Text.count r.1 t) :
    stripWith rs t = atOnce rs t := by
  induction rs using List.reverseRecOn with
  | nil =>
    have hspares : ∀ r ∈ ([] : List (Text × Text)), Spares r.1 t [] := by simp
    simpa [stripWith] using (Text.atOnce_spared hspares).symm
  | append_singleton rs r ih =>
    have heq := ih (fun s hs => hsub (by simp [hs])) (List.nodup_append.1 hnodup).1
      fun p r' q hsplit => hcount p r' (q ++ [r]) (by simp [hsplit])
    exact stripWith_eq_atOnce_concat hdot hsub hnodup heq (hcount rs r [] rfl)

/-! What was performed. -/

theorem get?_performed {p q : List (Text × Text)} (h : r.1 ∉ p.map Prod.fst) (t : Text) :
    (performed (p ++ r :: q) t).get? r.1 = some (Text.count r.1 (stripWith p t)) := by
  induction p generalizing t with
  | nil => simp [performed, Table.get?, stripWith]
  | cons s p ih =>
    rw [List.map_cons, List.mem_cons, not_or] at h
    have hne : s.1 ≠ r.1 := fun heq => h.1 heq.symm
    simp [performed, Table.get?, hne, ih h.2, stripWith]

theorem nodup_of_perm (hperm : rs.Perm replacements) : (rs.map Prod.fst).Nodup :=
  (hperm.map Prod.fst).nodup_iff.2 nodup_words

theorem tally_performed {p q : List (Text × Text)} (hperm : (p ++ r :: q).Perm replacements) (t : Text) :
    tally (performed (p ++ r :: q) t) r.1 = Text.count r.1 (stripWith p t) := by
  have hnodup := nodup_of_perm hperm
  rw [List.map_append, List.nodup_append] at hnodup
  have hnot : r.1 ∉ p.map Prod.fst := fun hmem => hnodup.2.2 r.1 hmem r.1 (by simp) rfl
  simp [tally, get?_performed hnot]

theorem measure_stripWith (measure : Text → Int) (hadd : ∀ a b, measure (a ++ b) = measure a + measure b)
    (hne : ∀ r ∈ rs, r.1 ≠ []) (hnodup : (rs.map Prod.fst).Nodup) (t : Text) :
    measure t = measure (stripWith rs t) +
      (rs.map fun r => tally (performed rs t) r.1 * (measure r.1 - measure r.2)).sum := by
  induction rs generalizing t with
  | nil => simp [stripWith]
  | cons r rs ih =>
    rw [List.map_cons, List.nodup_cons] at hnodup
    have hhead : tally (performed (r :: rs) t) r.1 = Text.count r.1 t := by simp [tally, performed, Table.get?]
    have htail : ∀ s ∈ rs, (tally (performed rs (Text.replace r.1 r.2 t)) s.1 * (measure s.1 - measure s.2) : Int) =
        tally (performed (r :: rs) t) s.1 * (measure s.1 - measure s.2) := by
      intro s hs
      have hother : r.1 ≠ s.1 := fun heq => hnodup.1 (List.mem_map.2 ⟨s, hs, heq.symm⟩)
      simp [tally, performed, Table.get?, hother]
    have hrest := ih (fun s hs => hne s (by simp [hs])) hnodup.2 (Text.replace r.1 r.2 t)
    rw [List.map_congr_left htail] at hrest
    have hstep : stripWith (r :: rs) t = stripWith rs (Text.replace r.1 r.2 t) := rfl
    rw [Text.measure_replace measure hadd (hne r (by simp)) r.2, hrest, List.map_cons, List.sum_cons, hhead, hstep]
    ring

theorem measure_of_perm (measure : Text → Int) (hadd : ∀ a b, measure (a ++ b) = measure a + measure b)
    (hperm : rs.Perm replacements) (t : Text) :
    measure t = measure (stripWith rs t) + taken measure (performed rs t) := by
  have hne : ∀ r ∈ rs, r.1 ≠ [] := fun r hr => word_ne_nil (hperm.subset hr)
  have hmeasure := measure_stripWith measure hadd hne (nodup_of_perm hperm) t
  rwa [(hperm.map _).sum_eq] at hmeasure

/-! Each kind of reference has letters by which it can be told from the others. -/

theorem taken_letter {c : CodePoint} {weights : List Int}
    (hweights : replacements.map (fun r => (List.count c r.1 : Int) - List.count c r.2) = weights) (counts : Table Nat) :
    taken (fun u => List.count c u) counts =
      (List.zipWith (· * ·) (replacements.map fun r => (tally counts r.1 : Int)) weights).sum := by
  rw [← hweights, List.zipWith_map, List.zipWith_self]
  rfl

/-- From the letters that are taken from a text one can tell how often each kind was. -/
theorem tally_eq_of_taken_eq {f g : Table Nat}
    (h : ∀ c : CodePoint, taken (fun u => List.count c u) f = taken (fun u => List.count c u) g)
    (hr : r ∈ replacements) : tally f r.1 = tally g r.1 := by
  have hletter : ∀ (c : CodePoint) (weights : List Int),
      replacements.map (fun r => (List.count c r.1 : Int) - List.count c r.2) = weights →
      (List.zipWith (· * ·) (replacements.map fun r => (tally f r.1 : Int)) weights).sum =
        (List.zipWith (· * ·) (replacements.map fun r => (tally g r.1 : Int)) weights).sum :=
    fun c weights hweights => by rw [← taken_letter hweights, ← taken_letter hweights, h c]
  have hwindow := hletter 'w' [2, 0, 0, 0, 0, 0] (by decide)
  have hparent := hletter 'p' [0, 1, 0, 0, 0, 1] (by decide)
  have hdocument := hletter 'c' [0, 0, 1, 0, 0, 2] (by decide)
  have hcontent := hletter 'H' [0, 0, 0, 1, 0, 0] (by decide)
  have hroomlink := hletter 'k' [0, 0, 0, 0, 1, 0] (by decide)
  have hrecaptcha := hletter 'h' [0, 0, 0, 0, 0, 1] (by decide)
  simp only [replacements, List.map_cons, List.map_nil, List.zipWith_cons_cons, List.zipWith_nil_left, List.sum_cons,
    List.sum_nil] at hwindow hparent hdocument hcontent hroomlink hrecaptcha
  simp only [replacements, List.mem_cons, List.not_mem_nil, or_false] at hr
  rcases hr with rfl | rfl | rfl | rfl | rfl | rfl <;> dsimp only <;> omega

theorem letters_of_perm (hperm : rs.Perm replacements) (c : CodePoint) (t : Text) :
    (List.count c t : Int) =
      List.count c (stripWith rs t) + taken (fun u => List.count c u) (performed rs t) :=
  measure_of_perm (fun u => List.count c u) (by simp) hperm t

/-! The order of replacement. -/

theorem exists_perm (hsub : rs ⊆ replacements) (hnodup : rs.Nodup) : ∃ q, (rs ++ q).Perm replacements := by
  have hall : replacements.Nodup := nodup_words.of_map
  refine ⟨replacements.filter (· ∉ rs), (List.perm_ext_iff_of_nodup ?_ hall).2 fun r => ?_⟩
  · refine List.nodup_append.2 ⟨hnodup, hall.filter _, fun a ha b hb hab => ?_⟩
    simp_all
  · by_cases hr : r ∈ rs
    · simp [hr, hsub hr]
    · simp [hr]

theorem count_of_anyOrder (hany : ∀ rs, rs.Perm replacements → stripWith rs t = strip t)
    (hsub : rs ++ [r] ⊆ replacements) (hnodup : (rs ++ [r]).Nodup) :
    Text.count r.1 (stripWith rs t) = Text.count r.1 t := by
  obtain ⟨q, hlast⟩ := exists_perm hsub hnodup
  have hr : r ∈ replacements := hsub (by simp)
  rw [List.append_assoc, List.singleton_append] at hlast
  have hfirst : (r :: (rs ++ q)).Perm replacements := List.perm_middle.symm.trans hlast
  have htaken : ∀ c : CodePoint, taken (fun u => List.count c u) (performed (rs ++ r :: q) t) =
      taken (fun u => List.count c u) (performed (r :: (rs ++ q)) t) := by
    intro c
    have hletters := letters_of_perm hlast c t
    have hletters' := letters_of_perm hfirst c t
    rw [hany _ hlast] at hletters
    rw [hany _ hfirst] at hletters'
    omega
  have htally := tally_eq_of_taken_eq htaken hr
  rwa [tally_performed hlast, ← List.nil_append (r :: (rs ++ q)), tally_performed hfirst] at htally

/-- Where no qualifier shares its dot with `.innerHTML`, the order of replacement does not matter exactly if the kinds
of references are independent of one another. -/
theorem stripWith_perm_iff (hdot : ¬ SharesDot t) :
    (∀ rs, rs.Perm replacements → stripWith rs t = strip t) ↔ Independent t := by
  constructor
  · intro hany rs hrs r hr hnot
    have hsublist := List.mem_sublists.1 hrs
    have hnodup : rs.Nodup := hsublist.nodup nodup_words.of_map
    have hconcat : (rs ++ [r]).Nodup := List.nodup_append.2 ⟨hnodup, by simp, by
      rintro s hs _ hr' rfl
      exact hnot (List.mem_singleton.1 hr' ▸ hs)⟩
    have hcounts : ∀ p s q, rs = p ++ s :: q → Text.count s.1 (stripWith p t) = Text.count s.1 t := by
      rintro p s q rfl
      rw [← List.singleton_append, ← List.append_assoc] at hsublist hnodup
      exact count_of_anyOrder hany (fun e he => hsublist.subset (List.mem_append_left q he))
        (List.nodup_append.1 hnodup).1
    rw [← stripWith_eq_atOnce hdot hsublist.subset hnodup hcounts]
    exact count_of_anyOrder hany (by simp [hsublist.subset, hr]) hconcat
  · intro hindependent rs hperm
    have honce : ∀ rs, rs ⊆ replacements → rs.Nodup → stripWith rs t = atOnce rs t := by
      intro rs hsub hnodup
      induction rs using List.reverseRecOn with
      | nil => exact stripWith_eq_atOnce hdot (by simp) (by simp) (by simp)
      | append_singleton rs r ih =>
        have hrs : rs ⊆ replacements := fun s hs => hsub (List.mem_append_left _ hs)
        have hnodup' := List.nodup_append.1 hnodup
        have heq := ih hrs hnodup'.1
        have hperm : rs.Perm (replacements.filter (· ∈ rs)) := by
          refine (List.perm_ext_iff_of_nodup hnodup'.1 (nodup_words.of_map.filter _)).2 fun s => ?_
          simpa using @hrs s
        refine stripWith_eq_atOnce_concat hdot hsub hnodup heq ?_
        rw [heq, Text.atOnce_perm (distinct.of_subset hrs) hperm]
        refine hindependent _ (List.mem_sublists.2 List.filter_sublist) r (hsub (by simp)) fun hmem => ?_
        exact hnodup'.2.2 r (by simpa using (List.mem_filter.1 hmem).2) r (by simp) rfl
    rw [honce rs hperm.subset (hperm.nodup_iff.2 nodup_words.of_map),
      Text.atOnce_perm (distinct.of_subset hperm.subset) hperm]
    exact (honce replacements (List.Subset.refl _) nodup_words.of_map).symm

def pageScript : Text := "window.parent.f(a);b.innerHTML=c"

theorem stripWith_perm_pageScript : ¬ SharesDot pageScript ∧ Independent pageScript ∧
    ∀ rs, rs.Perm replacements → stripWith rs pageScript = strip pageScript := by
  have hdot : ¬ SharesDot pageScript := by decide +kernel
  have hindependent : Independent pageScript := by decide +kernel
  exact ⟨hdot, hindependent, (stripWith_perm_iff hdot).2 hindependent⟩

/-- Where the dot is shared, whichever reference is replaced first takes it with it. -/
theorem not_anyOrder : ¬ ∀ (t : Text) (rs : List (Text × Text)), rs.Perm replacements → stripWith rs t = strip t := by
  intro h
  have hreversed := h "window.innerHTML" replacements.reverse (List.reverse_perm _)
  exact absurd hreversed (by decide)

/-! What the counts tell. -/

theorem keys_performed (rs : List (Text × Text)) (t : Text) : (performed rs t).keys = rs.map Prod.fst := by
  induction rs generalizing t with
  | nil => rfl
  | cons r rs ih =>
    have htail := ih (Text.replace r.1 r.2 t)
    simp only [Table.keys] at htail ⊢
    simp [performed, htail]

theorem tally_counts (hr : r ∈ replacements) (t : Text) : tally (counts t) r.1 = Text.count r.1 t := by
  have hmem : (r.1, Text.count r.1 t) ∈ counts t := List.mem_map.2 ⟨r, hr, rfl⟩
  have hnodup : (counts t).keys.Nodup := keys_counts t ▸ nodup_words
  simp [tally, (Table.mem_iff_get? hnodup).1 hmem]

theorem eq_of_tally_eq {f g : Table Nat} (hkeys : f.keys = g.keys) (hnodup : f.keys.Nodup)
    (h : ∀ k ∈ f.keys, tally f k = tally g k) : f = g := by
  induction f generalizing g with
  | nil => exact (List.map_eq_nil_iff.1 hkeys.symm).symm
  | cons e f ih =>
    cases g with
    | nil => simp [Table.keys] at hkeys
    | cons e' g =>
      obtain ⟨k, n⟩ := e
      obtain ⟨k', n'⟩ := e'
      simp only [Table.keys, List.map_cons, List.cons.injEq, List.nodup_cons] at hkeys hnodup
      obtain ⟨rfl, hkeys⟩ := hkeys
      have hn : n = n' := by simpa [tally, Table.get?] using h k (by simp [Table.keys])
      have htail : f = g := ih hkeys hnodup.2 fun k' hk' => by
        have hne : k ≠ k' := fun heq => hnodup.1 (heq ▸ hk')
        simpa [tally, Table.get?, hne] using h k' (List.mem_cons_of_mem _ hk')
      rw [hn, htail]

/-- Among those that are replaced before it there is only one kind that a reference can share a character with. -/
theorem dotted_order : replacements.Pairwise fun s r => r.1 ≠ content → ¬ Dotted s r := by decide +kernel

theorem count_le_stripWith (hr : r ∈ replacements) (hsub : rs ⊆ replacements) (hnot : r ∉ rs)
    (hdot : ∀ s ∈ rs, ¬ Dotted s r) (t : Text) : Text.count r.1 t ≤ Text.count r.1 (stripWith rs t) := by
  induction rs using List.reverseRecOn with
  | nil => exact le_refl _
  | append_singleton rs s ih =>
    have hs : [s] ⊆ replacements := by simpa using @hsub s (by simp)
    have hboth : [s] ++ [r] ⊆ replacements := List.append_subset.2 ⟨hs, by simpa using hr⟩
    have hne : r ∉ [s] := fun hmem => hnot (List.mem_append_right _ hmem)
    have hseparate : Separate [s] r.1 (stripWith rs t) :=
      separate hs hr hne fun s' hs' hdotted => absurd hdotted (hdot s' (List.mem_append_right _ hs'))
    have hle := ih (fun e he => hsub (List.mem_append_left _ he)) (fun hmem => hnot (List.mem_append_left _ hmem))
      fun e he => hdot e (List.mem_append_left _ he)
    rw [stripWith_concat, Text.replace_eq_atOnce]
    exact hle.trans (hseparate.count_le (distinct.of_subset hboth) (foreign hs hr)).1

theorem tally_counts_le (hr : r ∈ replacements) (hcontent : r.1 ≠ content) (t : Text) :
    tally (counts t) r.1 ≤ tally (performed replacements t) r.1 := by
  obtain ⟨p, q, hsplit⟩ := List.append_of_mem hr
  have horder := dotted_order
  have hnodup : replacements.Nodup := nodup_words.of_map
  rw [hsplit, List.pairwise_append] at horder
  rw [hsplit, List.nodup_append] at hnodup
  have hnot : r ∉ p := fun hmem => hnodup.2.2 r hmem r (by simp) rfl
  rw [tally_counts hr, hsplit, tally_performed (.of_eq hsplit.symm)]
  exact count_le_stripWith hr (fun s hs => hsplit ▸ List.mem_append_left _ hs) hnot
    (fun s hs => horder.2.2 s hs r (by simp) hcontent) t

theorem letters_atOnce (hdot : ¬ SharesDot t) (c : CodePoint) :
    (List.count c t : Int) = List.count c (atOnce replacements t) + taken (fun u => List.count c u) (counts t) := by
  have hmeasure := Text.measure_atOnce (fun u => (List.count c u : Int)) (by simp) distinct
    nodup_words.of_map (t := t) fun r hr s hs hne _ _ ht => spares_of_not_sharesDot hr hs hne (fun _ => hdot) ht
  rw [taken, List.map_congr_left fun r hr => by rw [tally_counts hr]]
  exact hmeasure

theorem counts_eq_performed_iff (hdot : ¬ SharesDot t) :
    counts t = performed replacements t ↔ strip t = atOnce replacements t := by
  constructor
  · intro hcounts
    refine stripWith_eq_atOnce hdot (List.Subset.refl _) nodup_words.of_map fun p r q hsplit => ?_
    rw [← tally_performed (.of_eq hsplit.symm), ← hsplit, ← hcounts, tally_counts (by simp [hsplit])]
  · intro honce
    have hkeys : (counts t).keys = (performed replacements t).keys := by rw [keys_counts, keys_performed]
    refine eq_of_tally_eq hkeys (keys_counts t ▸ nodup_words) fun k hk => ?_
    obtain ⟨r, hr, rfl⟩ := List.mem_map.1 (keys_counts t ▸ hk)
    refine tally_eq_of_taken_eq (fun c => ?_) hr
    have hletters := letters_of_perm (List.Perm.refl replacements) c t
    have hletters' := letters_atOnce hdot c
    rw [← honce] at hletters'
    change _ = (List.count c (strip t) : Int) + _ at hletters
    omega

/-- What the pass notes and reports are the counts of the text that it takes up. What it does is told by the counts
kind by kind as their turn comes: they account for the length, they are never below those that are noted but for
`.innerHTML`, and where no dot is shared they are those that are noted exactly if the references are dropped as at
once. -/
theorem stripBrowser_accounted (c : Context) :
    ∃ fields after, Pass.browser.apply c = .ok (.object fields, after) ∧
      Table.get? "replacements" fields = some (.ofCounts (counts c.stageText)) ∧
      after.report.stripped = Report.integers ((counts c.stageText).filter (·.2 ≠ 0)) ∧
      (c.stageText.length : Int) =
        after.stageText.length + taken (fun u => u.length) (performed replacements c.stageText) ∧
      (∀ r ∈ replacements, r.1 ≠ content →
        tally (counts c.stageText) r.1 ≤ tally (performed replacements c.stageText) r.1) ∧
      (¬ SharesDot c.stageText →
        (counts c.stageText = performed replacements c.stageText ↔
          after.stageText = atOnce replacements c.stageText)) := by
  refine ⟨_, _, rfl, rfl, rfl, ?_, ?_, ?_⟩
  · exact measure_of_perm (fun u => u.length) (by simp) (List.Perm.refl replacements) c.stageText
  · exact fun r hr hcontent => tally_counts_le hr hcontent c.stageText
  · exact counts_eq_performed_iff

/-- A reference that another one takes the dot from is counted but not dropped. -/
theorem not_always_accounted : ¬ ∀ t : Text, (t.length : Int) = (strip t).length + taken (fun u => u.length) (counts t) := by
  intro h
  exact absurd (h "window.innerHTML") (by decide)

end Rehost.Browser
