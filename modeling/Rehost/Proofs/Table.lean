import Mathlib.Data.List.Induction
import Rehost.Proofs.Text.Order
import Rehost.Table

/-! Entries written one after another. A key keeps the place where it was first written and takes the value that was
written last, so a table never loses a key and never holds one twice. By key, such a table has one order only. -/
namespace Rehost.Table

variable {α : Type}

theorem mem_keys_put {key k : Text} {value : α} {t : Table α} : k ∈ keys (put key value t) ↔ k ∈ keys t ∨ k = key := by
  rw [keys_put]
  split
  · next hkey =>
    constructor
    · exact Or.inl
    · rintro (hk | rfl)
      · exact hk
      · exact hkey
  · simp

theorem nodup_keys_put {key : Text} {value : α} {t : Table α} (h : (keys t).Nodup) :
    (keys (put key value t)).Nodup := by
  rw [keys_put]
  split
  · exact h
  · next hkey =>
    rw [List.nodup_append]
    refine ⟨h, by simp, fun k hk k' hk' => ?_⟩
    obtain rfl : k' = key := by simpa using hk'
    exact fun heq => hkey (heq ▸ hk)

theorem put_of_not_mem {key : Text} {value : α} {t : Table α} (h : key ∉ keys t) :
    put key value t = t ++ [(key, value)] := by
  induction t with
  | nil => rfl
  | cons e t ih =>
    obtain ⟨k, v⟩ := e
    rw [keys, List.map_cons, List.mem_cons, not_or] at h
    have hk : k ≠ key := fun heq => h.1 heq.symm
    simp [put, hk, ih h.2]

theorem putAll_of_nodup {es : List (Text × α)} {t : Table α} (h : (keys (t ++ es)).Nodup) :
    es.foldl (fun t e => t.put e.1 e.2) t = t ++ es := by
  induction es generalizing t with
  | nil => simp
  | cons e es ih =>
    have hnew : e.1 ∉ keys t := by
      intro hmem
      rw [keys, List.map_append, List.nodup_append] at h
      exact h.2.2 _ hmem _ (by simp) rfl
    rw [List.foldl_cons, put_of_not_mem hnew, ih (by simpa using h)]
    simp

theorem ofList_of_nodup {es : List (Text × α)} (h : (keys es).Nodup) : ofList es = es :=
  putAll_of_nodup h

theorem keys_putAll (es : List (Text × α)) (t : Table α) :
    ∃ new, keys (es.foldl (fun t e => t.put e.1 e.2) t) = keys t ++ new ∧ ∀ k ∈ new, k ∈ es.map Prod.fst := by
  induction es generalizing t with
  | nil => exact ⟨[], by simp⟩
  | cons e es ih =>
    obtain ⟨new, hkeys, hnew⟩ := ih (t.put e.1 e.2)
    rw [List.foldl_cons, hkeys, keys_put]
    split
    · exact ⟨new, rfl, fun k hk => List.mem_cons_of_mem _ (hnew k hk)⟩
    · refine ⟨e.1 :: new, by simp, fun k hk => ?_⟩
      rcases List.mem_cons.1 hk with rfl | hk
      · exact List.mem_cons_self
      · exact List.mem_cons_of_mem _ (hnew k hk)

theorem ofList_concat (es : List (Text × α)) (e : Text × α) : ofList (es ++ [e]) = (ofList es).put e.1 e.2 := by
  simp [ofList]

theorem nodup_keys_ofList (es : List (Text × α)) : (keys (ofList es)).Nodup := by
  induction es using List.reverseRecOn with
  | nil => exact List.nodup_nil
  | append_singleton es e ih =>
    rw [ofList_concat]
    exact nodup_keys_put ih

theorem mem_keys_ofList {key : Text} {es : List (Text × α)} : key ∈ keys (ofList es) ↔ ∃ e ∈ es, e.1 = key := by
  induction es using List.reverseRecOn with
  | nil => simp [ofList, keys]
  | append_singleton es e ih =>
    rw [ofList_concat, mem_keys_put, ih]
    simp only [List.mem_append, List.mem_singleton]
    grind

theorem mem_of_mem_put {key : Text} {value : α} {t : Table α} {e : Text × α} (h : e ∈ put key value t) :
    e = (key, value) ∨ e ∈ t := by
  induction t with
  | nil => exact .inl (List.mem_singleton.1 h)
  | cons e' t ih =>
    obtain ⟨k, v⟩ := e'
    rw [put] at h
    split at h
    · next hk =>
      subst hk
      exact (List.mem_cons.1 h).imp_right (List.mem_cons_of_mem _)
    · rcases List.mem_cons.1 h with rfl | hmem
      · exact .inr List.mem_cons_self
      · exact (ih hmem).imp_right (List.mem_cons_of_mem _)

theorem mem_of_mem_ofList {e : Text × α} {es : List (Text × α)} (h : e ∈ ofList es) : e ∈ es := by
  induction es using List.reverseRecOn with
  | nil => exact h
  | append_singleton es e' ih =>
    rw [ofList_concat] at h
    rcases mem_of_mem_put h with rfl | hmem
    · simp
    · exact List.mem_append_left _ (ih hmem)

def latest? (key : Text) (es : List (Text × α)) : Option α := ((es.filter (·.1 = key)).getLast?).map Prod.snd

theorem get?_ofList (key : Text) (es : List (Text × α)) : get? key (ofList es) = latest? key es := by
  induction es using List.reverseRecOn with
  | nil => rfl
  | append_singleton es e ih =>
    rw [ofList_concat, get?_put, ih, latest?, latest?, List.filter_append]
    by_cases h : e.1 = key
    · simp [h]
    · simp [h]

theorem latest?_cons (key : Text) (e : Text × α) (es : List (Text × α)) :
    latest? key (e :: es) = (latest? key es).or (if e.1 = key then some e.2 else none) := by
  by_cases h : e.1 = key
  · cases hlast : (es.filter (·.1 = key)).getLast? <;> simp [latest?, h, List.getLast?_cons, hlast]
  · simp [latest?, h]

theorem mem_iff_get? {t : Table α} (h : (keys t).Nodup) {key : Text} {value : α} :
    (key, value) ∈ t ↔ get? key t = some value := by
  induction t with
  | nil => simp
  | cons e t ih =>
    obtain ⟨k, v⟩ := e
    rw [keys, List.map_cons, List.nodup_cons] at h
    by_cases hk : k = key
    · subst hk
      have hnot : ∀ v', (k, v') ∉ t := fun v' hv => h.1 (List.mem_map.2 ⟨_, hv, rfl⟩)
      simp [get?, hnot, eq_comm]
    · have hk' : key ≠ k := fun heq => hk heq.symm
      simp [get?, hk, hk', ih h.2]

theorem get?_eq_none_iff {t : Table α} {key : Text} : get? key t = none ↔ key ∉ keys t := by
  induction t with
  | nil => simp [keys]
  | cons e t ih =>
    obtain ⟨k, v⟩ := e
    rw [keys] at ih
    by_cases h : k = key
    · simp [get?, keys, h]
    · have h' : key ≠ k := fun heq => h heq.symm
      simp [get?, keys, h, h', ih]

/-! By key. -/

theorem perm_sorted (t : Table α) : (sorted t).Perm t := List.mergeSort_perm t _

theorem pairwise_sorted {t : Table α} (h : (keys t).Nodup) : (sorted t).Pairwise fun a b => a.1 < b.1 := by
  have hordered : (sorted t).Pairwise fun a b => decide (a.1 ≤ b.1) = true := by
    refine List.pairwise_mergeSort (fun a b c hab hbc => ?_) (fun a b => ?_) t
    · exact decide_eq_true (Text.le_trans (of_decide_eq_true hab) (of_decide_eq_true hbc))
    · simpa using Text.le_total a.1 b.1
  have hdistinct : (sorted t).Pairwise fun a b => a.1 ≠ b.1 :=
    List.pairwise_map.1 (((perm_sorted t).map Prod.fst).nodup_iff.2 h)
  exact (hordered.and hdistinct).imp fun h => Text.lt_of_le_of_ne (of_decide_eq_true h.1) h.2

theorem eq_sorted {s t : Table α} (hperm : s.Perm t) (hs : s.Pairwise fun a b => a.1 < b.1) : s = sorted t := by
  have hnodup : (keys s).Nodup := by
    refine List.pairwise_map.2 (hs.imp fun {a b} hlt heq => ?_)
    rw [heq] at hlt
    exact List.lt_irrefl _ hlt
  refine (hperm.trans (perm_sorted t).symm).eq_of_pairwise (fun a b _ _ hab hba => ?_) hs (pairwise_sorted ?_)
  · exact absurd (List.lt_trans hab hba) (List.lt_irrefl _)
  · exact (hperm.map Prod.fst).nodup_iff.1 hnodup

end Rehost.Table
