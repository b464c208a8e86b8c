import Mathlib.Data.List.Basic
import Rehost.Proofs.Pattern.Reading

/-! Edits of a text, made all at once. An edit names its stretch by places of the text as it was, so edits do not shift
each other. What an edit does not cover stays, and as long as the stretches lie apart, one more edit changes one
stretch. -/
namespace Rehost

structure Edit where
  start : Nat
  stop : Nat
  new : Text
deriving DecidableEq, Repr

namespace Edit

def covers (e : Edit) (i : Nat) : Bool := decide (e.start ≤ i) && decide (i < e.stop)

/-- What becomes of the character at a place: it stays if no edit covers it. Of a stretch that is covered, the first
character becomes the new text and the others go. -/
def become (es : List Edit) (i : Nat) (c : CodePoint) : Text :=
  match es.find? (·.covers i) with
  | none => [c]
  | some e => if e.start = i then e.new else []

def applyFrom (es : List Edit) : Nat → Text → Text
  | _, [] => []
  | i, c :: t => become es i c ++ applyFrom es (i + 1) t

def applyAll (es : List Edit) (t : Text) : Text := applyFrom es 0 t

theorem covers_iff {e : Edit} {i : Nat} : e.covers i = true ↔ e.start ≤ i ∧ i < e.stop := by
  simp [covers]

theorem applyFrom_append (es : List Edit) (i : Nat) (a b : Text) :
    applyFrom es i (a ++ b) = applyFrom es i a ++ applyFrom es (i + a.length) b := by
  induction a generalizing i with
  | nil => simp [applyFrom]
  | cons c a ih =>
    simp only [List.cons_append, applyFrom, ih, List.append_assoc, List.length_cons]
    rw [show i + 1 + a.length = i + (a.length + 1) by omega]

theorem applyFrom_eq_self {es : List Edit} {i : Nat} {t : Text}
    (h : ∀ e ∈ es, e.stop ≤ i ∨ i + t.length ≤ e.start) : applyFrom es i t = t := by
  induction t generalizing i with
  | nil => rfl
  | cons c t ih =>
    have hfind : es.find? (·.covers i) = none := by
      rw [List.find?_eq_none]
      intro e he
      have := h e he
      simp only [List.length_cons] at this
      rw [covers_iff]
      omega
    have htail : ∀ e ∈ es, e.stop ≤ i + 1 ∨ i + 1 + t.length ≤ e.start := by
      intro e he
      have := h e he
      simp only [List.length_cons] at this
      omega
    rw [applyFrom, become, hfind, ih htail]
    rfl

theorem applyFrom_concat {es : List Edit} {e : Edit} {i : Nat} {t : Text}
    (h : e.stop ≤ i ∨ i + t.length ≤ e.start) : applyFrom (es ++ [e]) i t = applyFrom es i t := by
  induction t generalizing i with
  | nil => rfl
  | cons c t ih =>
    simp only [List.length_cons] at h
    have hcovers : e.covers i = false := by
      rw [← Bool.not_eq_true, covers_iff]
      omega
    have hfind : (es ++ [e]).find? (·.covers i) = es.find? (·.covers i) := by
      simp [List.find?_append, hcovers]
    rw [applyFrom, applyFrom, become, become, hfind, ih (by omega)]

theorem applyFrom_covered {es : List Edit} {e : Edit} {i : Nat} {t : Text} (hstart : e.start < i)
    (hfind : ∀ j, i ≤ j → j < i + t.length → es.find? (·.covers j) = some e) : applyFrom es i t = [] := by
  induction t generalizing i with
  | nil => rfl
  | cons c t ih =>
    have htail : ∀ j, i + 1 ≤ j → j < i + 1 + t.length → es.find? (·.covers j) = some e := by
      intro j hj hlt
      exact hfind j (by omega) (by simp only [List.length_cons]; omega)
    rw [applyFrom, become, hfind i (by omega) (by simp), ih (by omega) htail]
    simp [show e.start ≠ i by omega]

theorem applyFrom_span {es : List Edit} {e : Edit} {t : Text} (ht : t ≠ [])
    (hfind : ∀ j, e.start ≤ j → j < e.start + t.length → es.find? (·.covers j) = some e) :
    applyFrom es e.start t = e.new := by
  cases t with
  | nil => contradiction
  | cons c t =>
    have htail : applyFrom es (e.start + 1) t = [] := by
      apply applyFrom_covered (e := e) (by omega)
      intro j hj hlt
      exact hfind j (by omega) (by simp only [List.length_cons]; omega)
    rw [applyFrom, become, hfind e.start (by omega) (by simp), htail]
    simp

def Disjoint (es : List Edit) : Prop :=
  ∀ e ∈ es, ∀ f ∈ es, e = f ∨ e.stop ≤ f.start ∨ f.stop ≤ e.start

theorem Disjoint.find {es : List Edit} (h : Disjoint es) {e : Edit} (he : e ∈ es) {j : Nat} (hj : e.covers j = true) :
    es.find? (·.covers j) = some e := by
  cases hfind : es.find? (·.covers j) with
  | none => exact absurd hj (by simpa using List.find?_eq_none.1 hfind e he)
  | some f =>
    have hf : f.covers j = true := by simpa using List.find?_some hfind
    rw [covers_iff] at hf hj
    rcases h e he f (List.mem_of_find?_eq_some hfind) with rfl | h | h
    · rfl
    · omega
    · omega

theorem applyFrom_perm {es es' : List Edit} (h : Disjoint es) (hperm : es'.Perm es) (i : Nat) (t : Text) :
    applyFrom es' i t = applyFrom es i t := by
  have h' : Disjoint es' := fun e he f hf => h e (hperm.mem_iff.1 he) f (hperm.mem_iff.1 hf)
  have hfind : ∀ j, es'.find? (·.covers j) = es.find? (·.covers j) := by
    intro j
    cases hj : es.find? (·.covers j) with
    | none => simpa [hperm.mem_iff] using hj
    | some e => exact h'.find (hperm.mem_iff.2 (List.mem_of_find?_eq_some hj)) (by simpa using List.find?_some hj)
  induction t generalizing i with
  | nil => rfl
  | cons c t ih => rw [applyFrom, applyFrom, become, become, hfind, ih]

theorem applyAll_concat {es : List Edit} {a w b : Text} (new : Text) (hw : w ≠ [])
    (h : ∀ e ∈ es, e.stop ≤ a.length ∨ a.length + w.length ≤ e.start) :
    applyAll es (a ++ w ++ b) = applyFrom es 0 a ++ w ++ applyFrom es (a.length + w.length) b ∧
      applyAll (es ++ [⟨a.length, a.length + w.length, new⟩]) (a ++ w ++ b) =
        applyFrom es 0 a ++ new ++ applyFrom es (a.length + w.length) b := by
  have hold : applyFrom es a.length w = w := applyFrom_eq_self h
  have hnew : applyFrom (es ++ [⟨a.length, a.length + w.length, new⟩]) a.length w = new := by
    apply applyFrom_span (e := ⟨a.length, a.length + w.length, new⟩) hw
    intro j hj hlt
    have hnone : es.find? (·.covers j) = none := by
      rw [List.find?_eq_none]
      intro e he
      have := h e he
      simp only at hj hlt
      rw [covers_iff]
      omega
    have hcovers : (⟨a.length, a.length + w.length, new⟩ : Edit).covers j = true := covers_iff.2 ⟨hj, hlt⟩
    simp [List.find?_append, hnone, hcovers]
  constructor
  · unfold applyAll
    simp [applyFrom_append, hold]
  · unfold applyAll
    rw [applyFrom_append, applyFrom_append, Nat.zero_add, hnew, applyFrom_concat (by simp),
      applyFrom_concat (by simp [List.length_append])]
    simp

theorem getLast?_applyFrom {es : List Edit} (hd : Disjoint es) (hnew : ∀ e ∈ es, e.new ≠ []) {a : Text}
    (h : ∀ e ∈ es, e.stop ≤ a.length ∨ a.length ≤ e.start) {c : CodePoint}
    (hc : (applyFrom es 0 a).getLast? = some c) :
    a.getLast? = some c ∨ ∃ e ∈ es, e.stop = a.length ∧ e.new.getLast? = some c := by
  rcases List.eq_nil_or_concat a with rfl | ⟨a', d, ha⟩
  · simp [applyFrom] at hc
  rw [List.concat_eq_append] at ha
  subst ha
  cases hfind : es.find? (·.covers a'.length) with
  | none =>
    left
    have hlast : applyFrom es a'.length [d] = [d] := by simp [applyFrom, become, hfind]
    rw [applyFrom_append, Nat.zero_add, hlast] at hc
    simpa using hc
  | some e =>
    right
    have he := List.mem_of_find?_eq_some hfind
    have hcovers : e.covers a'.length = true := by simpa using List.find?_some hfind
    rw [covers_iff] at hcovers
    have hstop : e.stop = (a' ++ [d]).length := by
      have := h e he
      simp only [List.length_append, List.length_singleton] at this ⊢
      omega
    -- The stretch of the edit is the end of the text.
    have hsplit := (List.take_append_drop e.start (a' ++ [d])).symm
    have hlen : ((a' ++ [d]).take e.start).length = e.start := by
      simp only [List.length_take, List.length_append, List.length_singleton]
      omega
    have hdrop : ((a' ++ [d]).drop e.start).length = e.stop - e.start := by
      rw [List.length_drop, hstop]
    have hspan : applyFrom es e.start ((a' ++ [d]).drop e.start) = e.new := by
      apply applyFrom_span
      · rw [← List.length_pos_iff, hdrop]
        omega
      · intro j hj hlt
        exact hd.find he (covers_iff.2 ⟨hj, by omega⟩)
    rw [hsplit, applyFrom_append, Nat.zero_add, hlen, hspan, List.getLast?_append_of_ne_nil _ (hnew e he)] at hc
    exact ⟨e, he, hstop, hc⟩

theorem head?_applyFrom {es : List Edit} (hnew : ∀ e ∈ es, e.new ≠ []) {i : Nat} {b : Text}
    (h : ∀ e ∈ es, e.stop ≤ i ∨ i ≤ e.start) {c : CodePoint} (hc : (applyFrom es i b).head? = some c) :
    b.head? = some c ∨ ∃ e ∈ es, e.start = i ∧ e.new.head? = some c := by
  cases b with
  | nil => simp [applyFrom] at hc
  | cons d b =>
    cases hfind : es.find? (·.covers i) with
    | none =>
      left
      simpa [applyFrom, become, hfind] using hc
    | some e =>
      right
      have he := List.mem_of_find?_eq_some hfind
      have hcovers : e.covers i = true := by simpa using List.find?_some hfind
      rw [covers_iff] at hcovers
      have hstart : e.start = i := by
        have := h e he
        omega
      have hbecome : become es i d = e.new := by simp [become, hfind, hstart]
      rw [applyFrom, hbecome, List.head?_append_of_ne_nil _ (hnew e he)] at hc
      exact ⟨e, he, hstart, hc⟩

end Edit
end Rehost
