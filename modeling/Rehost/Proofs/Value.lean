import Rehost.Value.Basic

/-! Tables that are keyed by values. A key that is written again keeps its place and takes the later value, so a table
never comes to have two entries for one key; under a text there is what was written there last. -/
namespace Rehost.Value

def Distinct (es : List (Value × Value)) : Prop := es.Pairwise fun e e' => sameKey e.1 e'.1 = false

instance (es : List (Value × Value)) : Decidable (Distinct es) := List.instDecidablePairwise es

theorem sameKey_text_iff {k : Value} {key : Text} : sameKey k (text key) = true ↔ k = text key := by
  cases k <;> simp [sameKey]

theorem field?_cons (key : Text) (e : Value × Value) (es : List (Value × Value)) :
    field? key (e :: es) = if sameKey e.1 (text key) then some e.2 else field? key es := by
  obtain ⟨k, v⟩ := e
  cases k <;> simp [field?, sameKey]

theorem field?_putEntry (key k : Text) (v : Value) (es : List (Value × Value)) :
    field? k (putEntry (text key) v es) = if key = k then some v else field? k es := by
  induction es with
  | nil => simp [putEntry, field?]
  | cons e es ih =>
    obtain ⟨k', v'⟩ := e
    rw [putEntry]
    by_cases hsame : sameKey k' (text key) = true
    · obtain rfl := sameKey_text_iff.1 hsame
      by_cases hk : key = k <;> simp [field?, sameKey, hk]
    · rw [if_neg hsame, field?_cons, field?_cons, ih]
      by_cases hk : key = k
      · subst hk
        simp [hsame]
      · simp [hk]

theorem keys_putEntry (key v : Value) (es : List (Value × Value)) :
    (putEntry key v es).map Prod.fst = es.map Prod.fst ∨
      ((∀ e ∈ es, sameKey e.1 key = false) ∧ (putEntry key v es).map Prod.fst = es.map Prod.fst ++ [key]) := by
  induction es with
  | nil => exact .inr ⟨by simp, rfl⟩
  | cons e es ih =>
    obtain ⟨k, v'⟩ := e
    rw [putEntry]
    cases hsame : sameKey k key with
    | true => exact .inl rfl
    | false =>
      rcases ih with hkeys | ⟨hnew, hkeys⟩
      · exact .inl (by simp [hkeys])
      · exact .inr ⟨List.forall_mem_cons.2 ⟨hsame, hnew⟩, by simp [hkeys]⟩

theorem mem_putEntry {key v : Value} {e : Value × Value} {es : List (Value × Value)} (h : e ∈ putEntry key v es) :
    e ∈ es ∨ (e.1 = key ∨ sameKey e.1 key = true) := by
  induction es with
  | nil =>
    obtain rfl := List.mem_singleton.1 h
    exact .inr (.inl rfl)
  | cons e' es ih =>
    obtain ⟨k, v'⟩ := e'
    rw [putEntry] at h
    split at h
    · next hsame =>
      rcases List.mem_cons.1 h with rfl | hmem
      · exact .inr (.inr hsame)
      · exact .inl (List.mem_cons_of_mem _ hmem)
    · rcases List.mem_cons.1 h with rfl | hmem
      · exact .inl List.mem_cons_self
      · exact (ih hmem).imp_left (List.mem_cons_of_mem _)

theorem distinct_iff {es : List (Value × Value)} :
    Distinct es ↔ (es.map Prod.fst).Pairwise fun k k' => sameKey k k' = false := by
  rw [Distinct, List.pairwise_map]

theorem Distinct.putEntry {es : List (Value × Value)} (h : Distinct es) (key v : Value) :
    Distinct (Value.putEntry key v es) := by
  rw [distinct_iff] at h ⊢
  rcases keys_putEntry key v es with hkeys | ⟨hnew, hkeys⟩
  · rwa [hkeys]
  · rw [hkeys, List.pairwise_append]
    refine ⟨h, List.pairwise_singleton _ _, fun k hk k' hk' => ?_⟩
    obtain ⟨e, he, rfl⟩ := List.mem_map.1 hk
    exact List.mem_singleton.1 hk' ▸ hnew e he

end Rehost.Value
