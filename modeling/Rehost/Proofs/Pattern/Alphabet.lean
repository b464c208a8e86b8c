import Rehost.Proofs.Pattern.Reading

/-! Which characters the words of a pattern and the holdings of its groups are made of, as far as its parts tell. -/
namespace Rehost
namespace Pattern

def Lacks (p : Pattern) (c : CodePoint) : Prop := ∀ w, p.Denotes w → c ∉ w

def mayHold : Pattern → CodePoint → Bool
  | nothing, _ | wordEdge, _ => false
  | exactly t, c => decide (c ∈ t)
  | one accepts, c | most accepts, c | most1 accepts, c | fewest accepts, c => accepts c
  | seq p q, c => p.mayHold c || q.mayHold c
  | either p q, c => p.mayHold c || q.mayHold c
  | group _ p, c => p.mayHold c

theorem lacks_of_mayHold {p : Pattern} {c : CodePoint} (h : p.mayHold c = false) : p.Lacks c := by
  induction p with
  | nothing | wordEdge =>
    intro w hw
    simp [show w = [] from hw]
  | exactly t =>
    intro w hw
    simpa [show w = t from hw, mayHold] using h
  | one accepts =>
    rintro _ ⟨d, hd, rfl⟩ hc
    obtain rfl : c = d := by simpa using hc
    simp [mayHold, hd] at h
  | most accepts | fewest accepts =>
    intro w hw hc
    simp [mayHold, hw c hc] at h
  | most1 accepts =>
    rintro w ⟨-, hw⟩ hc
    simp [mayHold, hw c hc] at h
  | seq p q ihp ihq =>
    obtain ⟨hp, hq⟩ := Bool.or_eq_false_iff.1 h
    rintro _ ⟨u, v, rfl, hu, hv⟩ hc
    rcases List.mem_append.1 hc with hc | hc
    · exact ihp hp u hu hc
    · exact ihq hq v hv hc
  | either p q ihp ihq =>
    obtain ⟨hp, hq⟩ := Bool.or_eq_false_iff.1 h
    rintro w (hw | hw)
    · exact ihp hp w hw
    · exact ihq hq w hw
  | group _ p ih => exact ih h

def groupMayHold (name : Text) : Pattern → CodePoint → Bool
  | seq p q, c => p.groupMayHold name c || q.groupMayHold name c
  | either p q, c => p.groupMayHold name c || q.groupMayHold name c
  | group n p, c => n = some name && p.mayHold c || p.groupMayHold name c
  | _, _ => false

theorem not_mem_of_groupMayHold {p : Pattern} {name : Text} {c : CodePoint} (h : p.groupMayHold name c = false)
    {w x : Text} {g : Holdings} (hr : p.Reads w g) (hx : (some name, x) ∈ g) : c ∉ x := by
  induction p generalizing w g with
  | nothing | wordEdge | exactly _ | one _ | most _ | most1 _ | fewest _ => simp [hr.2] at hx
  | seq p q ihp ihq =>
    obtain ⟨hp, hq⟩ := Bool.or_eq_false_iff.1 h
    obtain ⟨u, v, gu, gv, -, rfl, hu, hv⟩ := hr
    rcases List.mem_append.1 hx with hx | hx
    · exact ihp hp hu hx
    · exact ihq hq hv hx
  | either p q ihp ihq =>
    obtain ⟨hp, hq⟩ := Bool.or_eq_false_iff.1 h
    rcases hr with hr | hr
    · exact ihp hp hr hx
    · exact ihq hq hr hx
  | group n p ih =>
    obtain ⟨hn, hp⟩ := Bool.or_eq_false_iff.1 h
    obtain ⟨inner, hi, rfl⟩ := hr
    rcases List.mem_append.1 hx with hx | hx
    · exact ih hp hi hx
    · obtain ⟨rfl, rfl⟩ : some name = n ∧ x = w := by simpa using hx
      exact lacks_of_mayHold (by simpa using hn) x hi.denotes

def isGroupFree : Pattern → Bool
  | seq p q | either p q => p.isGroupFree && q.isGroupFree
  | group _ _ => false
  | _ => true

theorem Reads.held_eq_nil {p : Pattern} (hp : p.isGroupFree = true) {w : Text} {g : Holdings} (h : p.Reads w g) :
    g = [] := by
  induction p generalizing w g with
  | nothing | exactly _ | one _ | most _ | most1 _ | fewest _ | wordEdge => exact h.2
  | seq p q ihp ihq =>
    obtain ⟨hp, hq⟩ := Bool.and_eq_true_iff.1 hp
    obtain ⟨u, v, gu, gv, -, rfl, hu, hv⟩ := h
    rw [ihp hp hu, ihq hq hv, List.nil_append]
  | either p q ihp ihq =>
    obtain ⟨hp, hq⟩ := Bool.and_eq_true_iff.1 hp
    rcases h with h | h
    · exact ihp hp h
    · exact ihq hq h
  | group _ _ => contradiction

theorem reads_grouped (ps : List Pattern) (name : Option Text) (p : Pattern) (qs : List Pattern) {w : Text} {g : Holdings}
    (h : (inOrder (ps ++ group name p :: qs)).Reads w g) (hps : (inOrder ps).isGroupFree = true)
    (hp : p.isGroupFree = true) :
    ∃ x u v g', w = x ++ u ++ v ∧ g = (name, u) :: g' ∧ (inOrder ps).Denotes x ∧ p.Denotes u ∧
      (inOrder qs).Reads v g' := by
  obtain ⟨x, _, gx, _, rfl, rfl, hx, h⟩ := (reads_inOrder_append _ _).1 h
  obtain ⟨u, v, gu, g', rfl, rfl, hu, hv⟩ := reads_group_cons h
  obtain rfl := hx.held_eq_nil hps
  obtain rfl := hu.held_eq_nil hp
  exact ⟨x, u, v, g', by simp, rfl, hx.denotes, hu.denotes, hv⟩

end Pattern

theorem Match.named_of_reads (ps : List Pattern) (name : Text) (p : Pattern) (qs : List Pattern) {m : Match} {w : Text}
    (hr : (Pattern.inOrder (ps ++ .group (some name) p :: qs)).Reads w m.held)
    (hps : (Pattern.inOrder ps).isGroupFree = true) (hp : p.isGroupFree = true) :
    ∃ u v, w = u ++ m.named name ++ v ∧ (Pattern.inOrder ps).Denotes u ∧ p.Denotes (m.named name) ∧
      (Pattern.inOrder qs).Denotes v := by
  obtain ⟨u, x, v, g, rfl, hheld, hu, hx, hv⟩ := Pattern.reads_grouped ps (some name) p qs hr hps hp
  have hnamed : m.named name = x := by simp [Match.named, Match.named?_eq, hheld]
  exact ⟨u, v, by simp [hnamed], hu, hnamed ▸ hx, hv.denotes⟩

theorem Match.not_mem_named {p : Pattern} {m : Match} {w : Text} {c : CodePoint} (hr : p.Reads w m.held) (name : Text)
    (h : p.groupMayHold name c = false) : c ∉ m.named name := by
  rw [named, named?_eq]
  cases hfind : m.held.find? (·.1 = some name) with
  | none => simp
  | some e =>
    obtain ⟨n, x⟩ := e
    obtain rfl : n = some name := by simpa using List.find?_some hfind
    exact Pattern.not_mem_of_groupMayHold h hr (List.mem_of_find?_eq_some hfind)

end Rehost
