import Rehost.Proofs.Settings.Layer
import Rehost.Proofs.Value

/-! Mappings of overrides, in which nothing leaves a setting as it is. Two of them, one after the other, are like one:
the first with all that the second one gives written over it. -/
namespace Rehost.Settings

/-- Whether an override speaks: nothing leaves a setting as it is. -/
def speaks : Value → Bool
  | .null => false
  | _ => true

/-- A mapping over which another one is written, as far as that one speaks. -/
def overlaid (a b : List (Value × Value)) : List (Value × Value) :=
  (b.filter fun e => speaks e.2).foldl (fun t e => Value.putEntry e.1 e.2 t) a

def Keyed (es : List (Value × Value)) : Prop := ∀ e ∈ es, speaks e.2 = true → ∃ key, e.1 = .text key

def spoken : List (Value × Value) → List (Text × Given)
  | [] => []
  | (.text key, v) :: es => if speaks v then (key, .ofValue v) :: spoken es else spoken es
  | _ :: es => spoken es

variable {a b es : List (Value × Value)} {s s' : Settings} {key : Text} {v : Value}

theorem ofValue_eq_null_iff : Given.ofValue v = .null ↔ speaks v = false := by
  cases v <;> simp [Given.ofValue, speaks]

theorem ofValue_eq_text_iff : Given.ofValue v = .text key ↔ v = .text key := by
  cases v <;> simp [Given.ofValue]

def left (es : List (Value × Value)) : List (Given × Given) :=
  (es.map fun e => (Given.ofValue e.1, Given.ofValue e.2)).filter fun e => e.2 ≠ .null

theorem mergedValue_table (s : Settings) (es : List (Value × Value)) : s.mergedValue (.table es) = s.override (left es) :=
  rfl

theorem left_cons (e : Value × Value) (es : List (Value × Value)) :
    left (e :: es) = if speaks e.2 then (.ofValue e.1, .ofValue e.2) :: left es else left es := by
  cases hspeaks : speaks e.2 with
  | true => simp [left, ofValue_eq_null_iff, hspeaks]
  | false => simp [left, ofValue_eq_null_iff, hspeaks]

theorem left_of_keyed (h : Keyed es) : left es = named (spoken es) := by
  induction es with
  | nil => rfl
  | cons e es ih =>
    obtain ⟨k, v⟩ := e
    obtain ⟨hhead, htail⟩ := List.forall_mem_cons.1 h
    rw [left_cons, ih htail]
    cases hspeaks : speaks v with
    | true =>
      obtain ⟨key, rfl⟩ : ∃ key, k = .text key := hhead hspeaks
      simp [spoken, hspeaks, named, Given.ofValue]
    | false => cases k <;> simp [spoken, hspeaks]

theorem unkeyed_left (h : ¬ Keyed es) : ∃ e ∈ left es, ∀ key, e.1 ≠ .text key := by
  simp only [Keyed, not_forall] at h
  obtain ⟨⟨k, v⟩, he, hspeaks, hkey⟩ := h
  refine ⟨(.ofValue k, .ofValue v), List.mem_filter.2 ⟨List.mem_map.2 ⟨_, he, rfl⟩, ?_⟩, fun key hk => ?_⟩
  · simpa [ofValue_eq_null_iff] using hspeaks
  · exact hkey ⟨key, ofValue_eq_text_iff.1 hk⟩

theorem mergedValue_eq_ok_iff : s.mergedValue (.table es) = .ok s' ↔ Keyed es ∧
    Accepted (Table.ofList (spoken es)) ∧ ∀ f, s'.held f = s.layered (Table.ofList (spoken es)) f := by
  rw [mergedValue_table]
  by_cases hkeyed : Keyed es
  · rw [left_of_keyed hkeyed]
    obtain ⟨x, hx, hdecides⟩ := decides_override s (spoken es)
    rcases hdecides with ⟨haccepted, s₁, rfl, hheld⟩ | ⟨hnot, e, rfl⟩
    · rw [hx]
      constructor
      · intro h
        obtain rfl : s₁ = s' := by simpa [Except.mapError] using h
        exact ⟨hkeyed, haccepted, hheld⟩
      · rintro ⟨-, -, hheld'⟩
        exact congrArg Except.ok (eq_of_held fun f => (hheld f).trans (hheld' f).symm)
    · rw [hx]
      simp [Except.mapError, hnot]
  · rw [override_unkeyed s (unkeyed_left hkeyed)]
    simp [hkeyed]

theorem mergedValue_isOk_iff : (∃ s', s.mergedValue (.table es) = .ok s') ↔
    Keyed es ∧ Accepted (Table.ofList (spoken es)) := by
  constructor
  · rintro ⟨s', hs'⟩
    obtain ⟨hkeyed, haccepted, -⟩ := mergedValue_eq_ok_iff.1 hs'
    exact ⟨hkeyed, haccepted⟩
  · rintro ⟨hkeyed, haccepted⟩
    obtain ⟨x, hx, ⟨-, s', rfl, -⟩ | ⟨hnot, -⟩⟩ := decides_override s (spoken es)
    · refine ⟨s', ?_⟩
      rw [mergedValue_table, left_of_keyed hkeyed, hx]
      rfl
    · exact absurd haccepted hnot

/-! What can be looked up in one mapping written over another. -/

def spoken? (key : Text) (es : List (Value × Value)) : Option Given :=
  (Value.field? key es).bind fun v => if speaks v then some (.ofValue v) else none

theorem field?_eq_none (h : ∀ e ∈ es, Value.sameKey (.text key) e.1 = false) : Value.field? key es = none := by
  induction es with
  | nil => rfl
  | cons e es ih =>
    obtain ⟨hhead, htail⟩ := List.forall_mem_cons.1 h
    rw [Value.field?_cons, ih htail, if_neg]
    intro hsame
    rw [Value.sameKey_text_iff.1 hsame] at hhead
    simp [Value.sameKey] at hhead

theorem spoken?_cons (key : Text) (e : Value × Value) (es : List (Value × Value)) : spoken? key (e :: es) =
    if Value.sameKey e.1 (.text key) then (if speaks e.2 then some (.ofValue e.2) else none) else spoken? key es := by
  rw [spoken?, Value.field?_cons]
  split <;> rfl

theorem spoken?_putEntry (key k : Text) (h : speaks v = true) :
    spoken? k (Value.putEntry (.text key) v es) = if key = k then some (.ofValue v) else spoken? k es := by
  rw [spoken?, Value.field?_putEntry]
  split
  · simp [h]
  · rfl

theorem latest?_spoken (h : Value.Distinct es) : Table.latest? key (spoken es) = spoken? key es := by
  induction es with
  | nil => rfl
  | cons e es ih =>
    obtain ⟨k, v⟩ := e
    obtain ⟨hhead, htail⟩ := List.pairwise_cons.1 h
    rw [spoken?_cons]
    by_cases hkey : Value.sameKey k (.text key) = true
    · obtain rfl := Value.sameKey_text_iff.1 hkey
      have hrest : Table.latest? key (spoken es) = none := by rw [ih htail, spoken?, field?_eq_none hhead]; rfl
      cases hspeaks : speaks v with
      | true => simp [spoken, hspeaks, Table.latest?_cons, hrest, hkey]
      | false => simp [spoken, hspeaks, hrest, hkey]
    · rw [if_neg hkey, ← ih htail]
      cases k with
      | text k =>
        have hne : k ≠ key := by simpa [Value.sameKey] using hkey
        cases hspeaks : speaks v with
        | true => simp [spoken, hspeaks, Table.latest?_cons, hne]
        | false => simp [spoken, hspeaks]
      | _ => rfl

theorem overlaid_cons (a : List (Value × Value)) (e : Value × Value) (b : List (Value × Value)) :
    overlaid a (e :: b) = if speaks e.2 then overlaid (Value.putEntry e.1 e.2 a) b else overlaid a b := by
  cases hspeaks : speaks e.2 <;> simp [overlaid, hspeaks]

theorem distinct_overlaid (ha : Value.Distinct a) : Value.Distinct (overlaid a b) := by
  induction b generalizing a with
  | nil => exact ha
  | cons e b ih =>
    rw [overlaid_cons]
    split
    · exact ih (ha.putEntry e.1 e.2)
    · exact ih ha

theorem spoken?_overlaid (hb : Keyed b) :
    spoken? key (overlaid a b) = (Table.latest? key (spoken b)).or (spoken? key a) := by
  induction b generalizing a with
  | nil => rfl
  | cons e b ih =>
    obtain ⟨k, v⟩ := e
    obtain ⟨hhead, htail⟩ := List.forall_mem_cons.1 hb
    rw [overlaid_cons]
    cases hspeaks : speaks v with
    | true =>
      obtain ⟨k, rfl⟩ : ∃ key, k = .text key := hhead hspeaks
      have hspoken : spoken ((.text k, v) :: b) = (k, .ofValue v) :: spoken b := if_pos hspeaks
      rw [if_pos rfl, ih htail, spoken?_putEntry k key hspeaks, hspoken, Table.latest?_cons]
      by_cases hk : k = key <;> simp [hk]
    | false =>
      have hspoken : spoken ((k, v) :: b) = spoken b := by cases k <;> simp [spoken, hspeaks]
      rw [if_neg (by simp), ih htail, hspoken]

theorem Keyed.putEntry (h : Keyed es) (key : Text) (v : Value) : Keyed (Value.putEntry (.text key) v es) := by
  intro e he hspeaks
  rcases Value.mem_putEntry he with hmem | hkey | hsame
  · exact h e hmem hspeaks
  · exact ⟨key, hkey⟩
  · exact ⟨key, Value.sameKey_text_iff.1 hsame⟩

theorem keyed_overlaid (ha : Keyed a) (hb : Keyed b) : Keyed (overlaid a b) := by
  induction b generalizing a with
  | nil => exact ha
  | cons e b ih =>
    obtain ⟨k, v⟩ := e
    obtain ⟨hhead, htail⟩ := List.forall_mem_cons.1 hb
    rw [overlaid_cons]
    split
    · next hspeaks =>
      obtain ⟨key, rfl⟩ : ∃ key, k = .text key := hhead hspeaks
      exact ih (ha.putEntry key v) htail
    · exact ih ha htail

/-- Two mappings of overrides that are taken, one after the other, are like one written over the other. -/
theorem mergedValue_overlaid {c c₁ : Settings} (hdistinct : Value.Distinct a) (ha : c.mergedValue (.table a) = .ok c₁)
    (hb : ∃ s, c.mergedValue (.table b) = .ok s) :
    ∃ c₂, c₁.mergedValue (.table b) = .ok c₂ ∧ c.mergedValue (.table (overlaid a b)) = .ok c₂ := by
  obtain ⟨hkeyed, haccepted, hheld⟩ := mergedValue_eq_ok_iff.1 ha
  obtain ⟨c₂, hc₂⟩ := mergedValue_isOk_iff.2 (mergedValue_isOk_iff.1 hb)
  obtain ⟨hkeyed', haccepted', hheld'⟩ := mergedValue_eq_ok_iff.1 hc₂
  have hget : ∀ key, Table.get? key (Table.ofList (spoken (overlaid a b))) =
      (Table.get? key (Table.ofList (spoken b))).or (Table.get? key (Table.ofList (spoken a))) := by
    intro key
    simp only [Table.get?_ofList]
    rw [latest?_spoken (distinct_overlaid hdistinct), spoken?_overlaid hkeyed', latest?_spoken hdistinct]
  refine ⟨c₂, hc₂, mergedValue_eq_ok_iff.2 ⟨keyed_overlaid hkeyed hkeyed', fun key g hg => ?_, fun f => ?_⟩⟩
  · rw [hget, Option.or_eq_some_iff] at hg
    exact hg.elim (haccepted' key g) fun h => haccepted key g h.2
  · rw [hheld', layered, layered, hget, hheld, layered]
    cases Table.get? f.name (Table.ofList (spoken b)) <;> rfl

end Rehost.Settings
