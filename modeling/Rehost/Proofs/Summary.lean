import Mathlib.Data.List.Perm.Basic
import Mathlib.Data.Set.List
import Rehost.Proofs.Json
import Rehost.Proofs.Report
import Rehost.Proofs.Run.Trail
import Rehost.Proofs.Sort.Run
import Rehost.Proofs.Value
import Rehost.Value.Document
import Rehost.Value.Summary

/-! What a summary is good for. It is a document through and through, so it is its own summary, and writing it fails
for no kind and no order of what it holds. A value has a summary unless it goes further down than the host follows, or
one of its keys holds a number too long to be shown. -/
namespace Rehost

/-! Documents in which no object has a name twice, at any depth. -/

inductive Json.Proper : Json → Prop where
  | null : Proper .null
  | bool (b : Bool) : Proper (.bool b)
  | int (n : Int) : Proper (.int n)
  | number (x : Binary64) : Proper (.number x)
  | text (s : Text) : Proper (.text s)
  | array {items : List Json} (parts : ∀ x ∈ items, Proper x) : Proper (.array items)
  | object {fields : List (Text × Json)} (names : (Table.keys fields).Nodup) (parts : ∀ f ∈ fields, Proper f.2) :
    Proper (.object fields)

namespace Json

theorem proper_ofIntegers {t : Table Int} (h : (Table.keys t).Nodup) : (ofIntegers t).Proper := by
  refine .object ?_ fun f hf => ?_
  · rwa [Table.keys, List.map_map]
  · obtain ⟨e, -, rfl⟩ := List.mem_map.1 hf
    exact .int _

theorem proper_ofStrings (xs : List Text) : (ofStrings xs).Proper := by
  refine .array fun x hx => ?_
  obtain ⟨s, -, rfl⟩ := List.mem_map.1 hx
  exact .text s

theorem sortedItems_eq_map (xs : List Json) : sortedItems xs = xs.map sorted := by
  induction xs with
  | nil => rfl
  | cons x xs ih => rw [sortedItems, ih, List.map_cons]

theorem sortedFields_eq_map (fs : List (Text × Json)) : sortedFields fs = fs.map fun f => (f.1, sorted f.2) := by
  induction fs with
  | nil => rfl
  | cons f fs ih => rw [sortedFields, ih, List.map_cons]

end Json

namespace Report

theorem proper_fields {r : Report} (h : r.Proper) : (Json.object r.fields).Proper := by
  have hpath : ∀ p : Option Text, (optionalText p).Proper := by
    rintro (_ | p)
    · exact .null
    · exact .text p
  refine .object ?_ ?_
  · change (Table.keys ({} : Report).fields).Nodup
    decide
  · simp only [fields, List.forall_mem_cons]
    exact ⟨.text _, hpath _, hpath _, .int _, .int _, Json.proper_ofIntegers h.landmarks, Json.proper_ofIntegers h.stripped,
      Json.proper_ofStrings _, Json.proper_ofStrings _, by simp⟩

end Report

namespace Value

inductive Proper : Value → Prop where
  | null : Proper .null
  | bool (b : Bool) : Proper (.bool b)
  | int (n : Int) : Proper (.int n)
  | number (x : Binary64) : Proper (.number x)
  | text (s : Text) : Proper (.text s)
  | bytes (bytes : List UInt8) : Proper (.bytes bytes)
  | path (p : Path) : Proper (.path p)
  | list {items : List Value} (parts : ∀ x ∈ items, Proper x) : Proper (.list items)
  | tuple {items : List Value} (parts : ∀ x ∈ items, Proper x) : Proper (.tuple items)
  | set {items : List Value} (parts : ∀ x ∈ items, Proper x) : Proper (.set items)
  | table {entries : List (Value × Value)} (parts : ∀ e ∈ entries, Proper e.2) : Proper (.table entries)
  | report {r : Report} (counts : r.Proper) : Proper (.report r)
  | reportKind : Proper .reportKind
  | thing (identity : Nat) (kind spelled shown : Text) : Proper (.thing identity kind spelled shown)

/-- The value is made up of what JSON has forms for, and its tables are keyed by texts. -/
inductive IsDocument : Value → Prop where
  | null : IsDocument .null
  | bool (b : Bool) : IsDocument (.bool b)
  | int (n : Int) : IsDocument (.int n)
  | number (x : Binary64) : IsDocument (.number x)
  | text (s : Text) : IsDocument (.text s)
  | list {items : List Value} (parts : ∀ x ∈ items, IsDocument x) : IsDocument (.list items)
  | table {entries : List (Value × Value)} (names : ∀ e ∈ entries, ∃ name, e.1 = .text name) (distinct : Distinct entries)
    (parts : ∀ e ∈ entries, IsDocument e.2) : IsDocument (.table entries)

mutual
/-- How many containers stand one inside another, in keys as well. A report counts for two, itself and what it holds. -/
def height : Value → Nat
  | list xs | tuple xs | set xs => highest xs + 1
  | table es => highestEntry es + 1
  | report _ => 2
  | _ => 0
def highest : List Value → Nat
  | [] => 0
  | x :: xs => max (height x) (highest xs)
def highestEntry : List (Value × Value) → Nat
  | [] => 0
  | (k, v) :: es => max (max (height k) (height v)) (highestEntry es)
end

mutual
/-- No whole number in the value has more digits than the most, in keys as well. -/
def Short (most : Nat) : Value → Prop
  | int n => Json.isShort most n = true
  | list xs | tuple xs | set xs => AllShort most xs
  | table es => EntriesShort most es
  | _ => True
def AllShort (most : Nat) : List Value → Prop
  | [] => True
  | x :: xs => Short most x ∧ AllShort most xs
def EntriesShort (most : Nat) : List (Value × Value) → Prop
  | [] => True
  | (k, v) :: es => (Short most k ∧ Short most v) ∧ EntriesShort most es
end

theorem highest_le_iff {n : Nat} (xs : List Value) : highest xs ≤ n ↔ ∀ x ∈ xs, x.height ≤ n := by
  induction xs with
  | nil => simp [highest]
  | cons x xs ih => rw [highest, Nat.max_le, ih, List.forall_mem_cons]

theorem highestEntry_le_iff {n : Nat} (es : List (Value × Value)) :
    highestEntry es ≤ n ↔ ∀ e ∈ es, e.1.height ≤ n ∧ e.2.height ≤ n := by
  induction es with
  | nil => simp [highestEntry]
  | cons e es ih => rw [highestEntry, Nat.max_le, Nat.max_le, ih, List.forall_mem_cons]

/-! How far down a container is followed. -/

theorem inside_eq_ok {ε α : Type} {full : ε} {room : Nat} {f : Nat → Except ε α} {a : α} (h : inside full room f = .ok a) :
    ∃ r, room = r + 1 ∧ f r = .ok a := by
  cases room with
  | zero => contradiction
  | succ r => exact ⟨r, rfl, h⟩

theorem inside_eq_error {ε α : Type} {full : ε} {room : Nat} {f : Nat → Except ε α} {e : ε}
    (h : inside full room f = .error e) : (room = 0 ∧ e = full) ∨ ∃ r, room = r + 1 ∧ f r = .error e := by
  cases room with
  | zero => exact .inl ⟨rfl, (Except.error.inj h).symm⟩
  | succ r => exact .inr ⟨r, rfl, h⟩

/-! Whatever is not shown goes too far down or holds a long number. -/

/-- The failures of a host that goes no further, for the size of a value alone. -/
inductive Exceeds (room most height : Nat) (short : Prop) : Failure → Prop where
  | tooDeep (h : room < height) : Exceeds room most height short .tooDeep
  | tooManyDigits (h : ¬ short) : Exceeds room most height short (.tooManyDigits most)

namespace Exceeds

variable {room room' most height height' : Nat} {short short' : Prop} {f : Failure}

theorem mono (h : Exceeds room most height short f) (hheight : height ≤ height') (hshort : short' → short) :
    Exceeds room most height' short' f := by
  cases h with
  | tooDeep h => exact .tooDeep (Nat.lt_of_lt_of_le h hheight)
  | tooManyDigits h => exact .tooManyDigits fun hs => h (hshort hs)

theorem less (h : Exceeds room most height short f) (hroom : room' ≤ room) : Exceeds room' most height short f := by
  cases h with
  | tooDeep h => exact .tooDeep (Nat.lt_of_le_of_lt hroom h)
  | tooManyDigits h => exact .tooManyDigits h

theorem inside (h : Exceeds room most height short f) : Exceeds (room + 1) most (height + 1) short f := by
  cases h with
  | tooDeep h => exact .tooDeep (Nat.succ_lt_succ h)
  | tooManyDigits h => exact .tooManyDigits h

end Exceeds

mutual
theorem shown_eq_error {most room : Nat} {f : Failure} : ∀ v : Value, v.shown most room = .error f →
    Exceeds room most v.height (v.Short most) f
  | .null, h | .bool _, h | .number _, h | .text _, h | .bytes _, h | .path _, h | .report _, h | .reportKind, h
  | .thing .., h => by
    rw [shown] at h
    contradiction
  | .int n, h => by
    rw [shown, wholeNumber] at h
    split at h
    · contradiction
    · next hlong =>
      cases h
      exact .tooManyDigits hlong
  | .list xs, h | .set xs, h | .tuple xs, h => by
    rw [shown] at h
    rw [height, Short]
    rcases inside_eq_error h with ⟨rfl, rfl⟩ | ⟨r, rfl, h⟩
    · exact .tooDeep (Nat.succ_pos _)
    · exact (shownItems_eq_error xs (lift_eq_error h)).inside
  | .table es, h => by
    rw [shown] at h
    rw [height, Short]
    rcases inside_eq_error h with ⟨rfl, rfl⟩ | ⟨r, rfl, h⟩
    · exact .tooDeep (Nat.succ_pos _)
    · exact (shownEntries_eq_error es (lift_eq_error h)).inside
theorem shownItems_eq_error {most room : Nat} {f : Failure} : ∀ xs : List Value, shownItems most room xs = .error f →
    Exceeds room most (highest xs) (AllShort most xs) f
  | [], h => by
    rw [shownItems] at h
    contradiction
  | x :: xs, h => by
    rw [shownItems] at h
    rw [highest, AllShort]
    rcases lift₂_eq_error h with hx | hxs
    · exact (shown_eq_error x hx).mono (Nat.le_max_left _ _) And.left
    · exact (shownItems_eq_error xs hxs).mono (Nat.le_max_right _ _) And.right
theorem shownEntries_eq_error {most room : Nat} {f : Failure} : ∀ es : List (Value × Value),
    shownEntries most room es = .error f → Exceeds room most (highestEntry es) (EntriesShort most es) f
  | [], h => by
    rw [shownEntries] at h
    contradiction
  | (k, v) :: es, h => by
    rw [shownEntries] at h
    rw [highestEntry, EntriesShort]
    rcases lift₃_eq_error h with hk | hv | hes
    · exact (shown_eq_error k hk).mono (by omega) fun hs => hs.1.1
    · exact (shown_eq_error v hv).mono (by omega) fun hs => hs.1.2
    · exact (shownEntries_eq_error es hes).mono (Nat.le_max_right _ _) And.right
end

theorem display_eq_error {l : Limits} {v : Value} {f : Failure} (h : v.display l = .error f) :
    Exceeds l.writtenDepth l.digits v.height (v.Short l.digits) f := by
  unfold display at h
  split at h
  · contradiction
  · contradiction
  · contradiction
  · exact shown_eq_error v h

/-! Nor does anything else keep a value from being summed up. -/

mutual
theorem summaryWithin_eq_error {l : Limits} {room : Nat} {f : Failure} : ∀ v : Value, v.summaryWithin l room = .error f →
    Exceeds (min room l.writtenDepth) l.digits v.height (v.Short l.digits) f
  | .null, h | .bool _, h | .int _, h | .number _, h | .text _, h | .bytes _, h | .path _, h | .reportKind, h
  | .thing .., h => by
    simp [summaryWithin, shown, Except.map] at h
  | .list xs, h | .set xs, h | .tuple xs, h => by
    rw [summaryWithin] at h
    rw [height, Short]
    rcases inside_eq_error h with ⟨rfl, rfl⟩ | ⟨r, rfl, h⟩
    · exact .tooDeep (by omega)
    · exact (summaries_eq_error xs (map_eq_error h)).inside.less (by omega)
  | .table es, h => by
    rw [summaryWithin] at h
    rw [height, Short]
    rcases inside_eq_error h with ⟨rfl, rfl⟩ | ⟨r, rfl, h⟩
    · exact .tooDeep (by omega)
    · exact (fieldSummaries_eq_error es (map_eq_error h)).inside.less (by omega)
  | .report r, h => by
    rw [summaryWithin] at h
    rw [height]
    rcases inside_eq_error h with ⟨rfl, rfl⟩ | ⟨_, rfl, hinner⟩
    · exact .tooDeep (by omega)
    rcases inside_eq_error hinner with ⟨rfl, rfl⟩ | ⟨_, -, h⟩
    · exact .tooDeep (by omega)
    · contradiction
theorem summaries_eq_error {l : Limits} {room : Nat} {f : Failure} : ∀ xs : List Value,
    summaries l room xs = .error f → Exceeds (min room l.writtenDepth) l.digits (highest xs) (AllShort l.digits xs) f
  | [], h => by
    rw [summaries] at h
    contradiction
  | x :: xs, h => by
    rw [summaries] at h
    rw [highest, AllShort]
    rcases lift₂_eq_error h with hx | hxs
    · exact (summaryWithin_eq_error x hx).mono (Nat.le_max_left _ _) And.left
    · exact (summaries_eq_error xs hxs).mono (Nat.le_max_right _ _) And.right
theorem fieldSummaries_eq_error {l : Limits} {room : Nat} {f : Failure} : ∀ es : List (Value × Value),
    fieldSummaries l room es = .error f →
      Exceeds (min room l.writtenDepth) l.digits (highestEntry es) (EntriesShort l.digits es) f
  | [], h => by
    rw [fieldSummaries] at h
    contradiction
  | (k, v) :: es, h => by
    rw [fieldSummaries] at h
    rw [highestEntry, EntriesShort]
    rcases lift₃_eq_error h with hk | hv | hes
    · exact ((display_eq_error hk).less (Nat.min_le_right _ _)).mono (by omega) fun hs => hs.1.1
    · exact (summaryWithin_eq_error v hv).mono (by omega) fun hs => hs.1.2
    · exact (fieldSummaries_eq_error es hes).mono (Nat.le_max_right _ _) And.right
end

section
variable {α β : Type} {R : α → β → Prop} {xs : List α} {ys : List β}

theorem exists_of_forall₂ (h : List.Forall₂ R xs ys) {y : β} (hy : y ∈ ys) : ∃ x ∈ xs, R x y := by
  induction h with
  | nil => contradiction
  | cons hxy _ ih =>
    rcases List.mem_cons.1 hy with rfl | hy
    · exact ⟨_, List.mem_cons_self, hxy⟩
    · obtain ⟨x, hx, hR⟩ := ih hy
      exact ⟨x, List.mem_cons_of_mem _ hx, hR⟩

theorem map_eq_of_forall₂ {γ : Type} {f : α → γ} {g : β → γ} (h : List.Forall₂ R xs ys)
    (heq : ∀ x ∈ xs, ∀ y, R x y → f x = g y) : xs.map f = ys.map g := by
  induction h with
  | nil => rfl
  | cons hxy _ ih =>
    obtain ⟨hx, hxs⟩ := List.forall_mem_cons.1 heq
    rw [List.map_cons, List.map_cons, hx _ hxy, ih hxs]

end

/-! Summaries part by part. -/

section
variable {l : Limits} {room : Nat} {j : Json} {xs : List Value} {es : List (Value × Value)}

theorem summaries_eq_ok_iff {ys : List Json} :
    summaries l room xs = .ok ys ↔ List.Forall₂ (fun x y => x.summaryWithin l room = .ok y) xs ys := by
  induction xs generalizing ys with
  | nil => cases ys <;> simp [summaries]
  | cons x xs ih =>
    rw [summaries]
    constructor
    · intro h
      obtain ⟨y, ys', hx, hxs, rfl⟩ := lift₂_eq_ok h
      exact .cons hx (ih.1 hxs)
    · rintro (_ | ⟨hx, hxs⟩)
      rw [hx, ih.2 hxs]
      rfl

def FieldOf (l : Limits) (room : Nat) (e : Value × Value) (f : Text × Json) : Prop :=
  e.1.display l = .ok f.1 ∧ e.2.summaryWithin l room = .ok f.2

theorem fieldSummaries_eq_ok_iff {fs : List (Text × Json)} :
    fieldSummaries l room es = .ok fs ↔ List.Forall₂ (FieldOf l room) es fs := by
  induction es generalizing fs with
  | nil => cases fs <;> simp [fieldSummaries]
  | cons e es ih =>
    rw [fieldSummaries]
    constructor
    · intro h
      obtain ⟨k, v, fs', hk, hv, hes, rfl⟩ := lift₃_eq_ok h
      exact .cons ⟨hk, hv⟩ (ih.1 hes)
    · rintro (_ | ⟨⟨hk, hv⟩, hes⟩)
      rw [hk, hv, ih.2 hes]
      rfl

theorem items_eq_ok (h : (inside .tooDeep room fun room => (summaries l room xs).map Json.array) = .ok j) :
    ∃ r ys, room = r + 1 ∧ j = .array ys ∧ List.Forall₂ (fun x y => x.summaryWithin l r = .ok y) xs ys := by
  obtain ⟨r, rfl, h⟩ := inside_eq_ok h
  obtain ⟨ys, hys, rfl⟩ := map_eq_ok h
  exact ⟨r, ys, rfl, rfl, summaries_eq_ok_iff.1 hys⟩

theorem entries_eq_ok
    (h : (inside .tooDeep room fun room => (fieldSummaries l room es).map (.object <| Table.ofList ·)) = .ok j) :
    ∃ r fs, room = r + 1 ∧ j = .object (Table.ofList fs) ∧ List.Forall₂ (FieldOf l r) es fs := by
  obtain ⟨r, rfl, h⟩ := inside_eq_ok h
  obtain ⟨fs, hfs, rfl⟩ := map_eq_ok h
  exact ⟨r, fs, rfl, rfl, fieldSummaries_eq_ok_iff.1 hfs⟩

end

/-! Documents as values. -/

theorem ofItems_eq_map (xs : List Json) : ofItems xs = xs.map ofJson := by
  induction xs with
  | nil => rfl
  | cons x xs ih => rw [ofItems, ih, List.map_cons]

theorem ofFields_eq_map (fs : List (Text × Json)) : ofFields fs = fs.map fun f => (text f.1, ofJson f.2) := by
  induction fs with
  | nil => rfl
  | cons f fs ih => rw [ofFields, ih, List.map_cons]

theorem isDocument_ofJson {j : Json} (h : j.Proper) : (ofJson j).IsDocument := by
  induction h with
  | null => exact .null
  | bool b => exact .bool b
  | int n => exact .int n
  | number x => exact .number x
  | text s => exact .text s
  | array _ ih =>
    rw [ofJson, ofItems_eq_map]
    exact .list (List.forall_mem_map.2 ih)
  | object hnames _ ih =>
    rw [ofJson, ofFields_eq_map]
    refine .table (List.forall_mem_map.2 fun f _ => ⟨f.1, rfl⟩) ?_ (List.forall_mem_map.2 ih)
    refine List.pairwise_map.2 ((List.pairwise_map.1 hnames).imp fun {f f'} hne => ?_)
    simpa [sameKey] using hne


theorem height_ofArray_le {n : Nat} {xs : List Json} :
    (ofJson (.array xs)).height ≤ n + 1 ↔ ∀ x ∈ xs, (ofJson x).height ≤ n := by
  rw [ofJson, height, Nat.add_le_add_iff_right, highest_le_iff, ofItems_eq_map, List.forall_mem_map]

theorem height_ofObject_le {n : Nat} {fs : List (Text × Json)} :
    (ofJson (.object fs)).height ≤ n + 1 ↔ ∀ f ∈ fs, (ofJson f.2).height ≤ n := by
  rw [ofJson, height, Nat.add_le_add_iff_right, highestEntry_le_iff, ofFields_eq_map, List.forall_mem_map]
  simp [height]

theorem height_fields (r : Report) : (ofJson (.object r.fields)).height ≤ 2 := by
  have hintegers : ∀ t : Table Int, (ofJson (Json.ofIntegers t)).height ≤ 1 := fun t =>
    height_ofObject_le.2 (List.forall_mem_map.2 fun _ _ => Nat.le_refl _)
  have hstrings : ∀ xs : List Text, (ofJson (Json.ofStrings xs)).height ≤ 1 := fun xs =>
    height_ofArray_le.2 (List.forall_mem_map.2 fun _ _ => Nat.le_refl _)
  have hpath : ∀ p : Option Text, (ofJson (Report.optionalText p)).height ≤ 1 := by
    rintro (_ | p) <;> exact Nat.zero_le _
  refine height_ofObject_le.2 ?_
  simp only [Report.fields, List.forall_mem_cons]
  exact ⟨Nat.zero_le _, hpath _, hpath _, Nat.zero_le _, Nat.zero_le _, hintegers _, hintegers _, hstrings _, hstrings _,
    by simp⟩

structure Fits (room : Nat) (j : Json) : Prop where
  proper : j.Proper
  height : (ofJson j).height ≤ room

section
variable {l : Limits} {room : Nat} {v : Value} {j : Json} {items : List Value}

theorem fits_of_items (ih : ∀ x ∈ items, ∀ {room j}, x.summaryWithin l room = .ok j → Fits room j)
    (h : (inside .tooDeep room fun room => (summaries l room items).map Json.array) = .ok j) : Fits room j := by
  obtain ⟨r, ys, rfl, rfl, hys⟩ := items_eq_ok h
  have hfits : ∀ y ∈ ys, Fits r y := fun y hy => by
    obtain ⟨x, hx, hxy⟩ := exists_of_forall₂ hys hy
    exact ih x hx hxy
  exact ⟨.array fun y hy => (hfits y hy).proper, height_ofArray_le.2 fun y hy => (hfits y hy).height⟩

theorem fits_summaryWithin (hv : v.Proper) (h : v.summaryWithin l room = .ok j) : Fits room j := by
  induction hv generalizing room j with
  | null | bool | int | number | text | bytes | path | reportKind | thing =>
    simp only [summaryWithin, shown, Except.map, Except.ok.injEq] at h
    subst h
    exact ⟨by constructor, Nat.zero_le _⟩
  | list _ ih | tuple _ ih | set _ ih => exact fits_of_items ih (by rwa [summaryWithin] at h)
  | table _ ih =>
    rw [summaryWithin] at h
    obtain ⟨r, fs, rfl, rfl, hfs⟩ := entries_eq_ok h
    have hfits : ∀ f ∈ Table.ofList fs, Fits r f.2 := fun f hf => by
      obtain ⟨e, he, -, hef⟩ := exists_of_forall₂ hfs (Table.mem_of_mem_ofList hf)
      exact ih e he hef
    exact ⟨.object (Table.nodup_keys_ofList _) fun f hf => (hfits f hf).proper,
      height_ofObject_le.2 fun f hf => (hfits f hf).height⟩
  | @report r hr =>
    rw [summaryWithin] at h
    obtain ⟨_, rfl, hinner⟩ := inside_eq_ok h
    obtain ⟨_, rfl, hfields⟩ := inside_eq_ok hinner
    cases hfields
    exact ⟨Report.proper_fields hr, (height_fields r).trans (by omega)⟩

theorem summaryWithin_ofJson (h : Fits room j) : (ofJson j).summaryWithin l room = .ok j := by
  obtain ⟨hproper, hroom⟩ := h
  induction hproper generalizing room with
  | null | bool | int | number | text => rfl
  | @array items _ ih =>
    obtain ⟨r, rfl⟩ := Nat.exists_eq_add_of_le' ((Nat.succ_pos _).trans_le hroom)
    have hitems : summaries l r (ofItems items) = .ok items := by
      rw [summaries_eq_ok_iff, ofItems_eq_map, List.forall₂_map_left_iff, List.forall₂_same]
      exact fun x hx => ih x hx (height_ofArray_le.1 hroom x hx)
    rw [ofJson, summaryWithin, inside, hitems]
    rfl
  | @object fields hnames _ ih =>
    obtain ⟨r, rfl⟩ := Nat.exists_eq_add_of_le' ((Nat.succ_pos _).trans_le hroom)
    have hfields : fieldSummaries l r (ofFields fields) = .ok fields := by
      rw [fieldSummaries_eq_ok_iff, ofFields_eq_map, List.forall₂_map_left_iff, List.forall₂_same]
      exact fun f hf => ⟨rfl, ih f hf (height_ofObject_le.1 hroom f hf)⟩
    rw [ofJson, summaryWithin, inside, hfields]
    exact congrArg (Except.ok <| Json.object ·) (Table.ofList_of_nodup hnames)

theorem ofJson_of_summaryWithin (hv : v.IsDocument) (h : v.summaryWithin l room = .ok j) : ofJson j = v := by
  induction hv generalizing room j with
  | null | bool | int | number | text =>
    rw [summaryWithin] at h
    cases h
    rfl
  | @list items _ ih =>
    rw [summaryWithin] at h
    obtain ⟨r, ys, rfl, rfl, hys⟩ := items_eq_ok h
    have hback := map_eq_of_forall₂ (f := id) hys fun x hx y hxy => (ih x hx hxy).symm
    rw [ofJson, ofItems_eq_map, ← hback, List.map_id]
  | @table entries hnames hdistinct _ ih =>
    rw [summaryWithin] at h
    obtain ⟨r, fs, rfl, rfl, hfs⟩ := entries_eq_ok h
    have hfield : ∀ e ∈ entries, ∀ f, FieldOf l r e f → id e = (text f.1, ofJson f.2) := fun e he f hef => by
      obtain ⟨name, hname⟩ := hnames e he
      refine Prod.ext ?_ (ih e he hef.2).symm
      have hdisplay := hef.1
      rw [hname] at hdisplay
      exact hname.trans (congrArg text (Except.ok.inj hdisplay))
    have hback : fs.map (fun f => (text f.1, ofJson f.2)) = entries :=
      (map_eq_of_forall₂ hfs hfield).symm.trans (List.map_id entries)
    have hnodup : (Table.keys fs).Nodup := by
      rw [← hback, Distinct, List.pairwise_map] at hdistinct
      refine List.pairwise_map.2 (hdistinct.imp fun {f f'} hne heq => ?_)
      simp [sameKey, heq] at hne
    rw [Table.ofList_of_nodup hnodup, ofJson, ofFields_eq_map, hback]

end

/-! Writing documents. -/

theorem allShort_iff {most : Nat} (xs : List Value) : AllShort most xs ↔ ∀ x ∈ xs, x.Short most := by
  induction xs with
  | nil => simp [AllShort]
  | cons x xs ih => rw [AllShort, ih, List.forall_mem_cons]

theorem entriesShort_iff {most : Nat} (es : List (Value × Value)) :
    EntriesShort most es ↔ ∀ e ∈ es, e.1.Short most ∧ e.2.Short most := by
  induction es with
  | nil => simp [EntriesShort]
  | cons e es ih => rw [EntriesShort, ih, List.forall_mem_cons]

def Named (e : Keyed) : Prop := ∃ name, e.1 = .text name

theorem orders_named : Sort.Orders (fun a b : Keyed => a.1.sortKey.precedes b.1.sortKey) Named where
  asymm {a b} ha hb h := by
    obtain ⟨s, hs⟩ := ha
    obtain ⟨t, ht⟩ := hb
    simp only [hs, ht, sortKey, SortKey.precedes, decide_eq_true_eq, decide_eq_false_iff_not] at h ⊢
    exact fun h' => List.lt_irrefl _ (List.lt_trans h h')
  trans {a b c} ha hb hc hab hbc := by
    obtain ⟨s, hs⟩ := ha
    obtain ⟨t, ht⟩ := hb
    obtain ⟨u, hu⟩ := hc
    simp only [hs, ht, hu, sortKey, SortKey.precedes, decide_eq_false_iff_not, List.not_lt] at hab hbc ⊢
    exact Text.le_trans hab hbc

theorem haveOrder_named {entries : List Keyed} (h : ∀ e ∈ entries, Named e) :
    haveOrder (entries.map Prod.fst) = true := by
  simp only [haveOrder, Bool.or_eq_true, List.all_eq_true]
  refine .inl (.inr (List.forall_mem_map.2 fun e he => ?_))
  obtain ⟨name, hname⟩ := h e he
  rw [hname]

theorem inOrder_named {entries : List Keyed} (h : ∀ e ∈ entries, Named e) (sort : Bool) :
    ∃ entries' : List Keyed, entries'.Perm entries ∧
      (if sort then entries'.Pairwise (Sort.InOrder (fun a b => a.1.sortKey.precedes b.1.sortKey) Named)
        else entries' = entries) ∧
      inOrder sort entries = (entries'.mapM Prod.snd).map .object := by
  cases sort with
  | false => exact ⟨entries, .refl _, rfl, rfl⟩
  | true =>
    obtain ⟨hperm, hordered⟩ := Sort.sort_spec orders_named h
    refine ⟨_, hperm, hordered, ?_⟩
    rw [inOrder, haveOrder_named h]
    rfl

def Keyed.ofField (f : Text × Json) : Keyed := (text f.1, .ok f)

theorem injective_ofField : Function.Injective Keyed.ofField := fun _ _ h => Except.ok.inj (Prod.ext_iff.1 h).2

theorem mapM_ofField (fs : List (Text × Json)) : (fs.map Keyed.ofField).mapM Prod.snd = .ok fs := by
  refine mapM_of_forall₂ ?_
  rw [List.forall₂_map_left_iff, List.forall₂_same]
  exact fun _ _ => rfl

theorem inOrder_ofField {fs : List (Text × Json)} (hnames : (Table.keys fs).Nodup) (sort : Bool) :
    inOrder sort (fs.map Keyed.ofField) = .ok (.object (if sort then Table.sorted fs else fs)) := by
  have hnamed : ∀ e ∈ fs.map Keyed.ofField, Named e := List.forall_mem_map.2 fun f _ => ⟨f.1, rfl⟩
  obtain ⟨entries, hperm, hsorted, horder⟩ := inOrder_named hnamed sort
  rw [horder]
  cases sort with
  | false =>
    obtain rfl : entries = fs.map Keyed.ofField := hsorted
    rw [mapM_ofField]
    rfl
  | true =>
    have hfields : ∀ e ∈ entries, e ∈ Set.range Keyed.ofField := fun e he => by
      obtain ⟨f, -, hf⟩ := List.mem_map.1 (hperm.mem_iff.1 he)
      exact ⟨f, hf⟩
    obtain ⟨fs', rfl⟩ : entries ∈ Set.range (List.map Keyed.ofField) := by
      rw [Set.range_list_map]
      exact hfields
    have hsame : fs'.Perm fs := (List.map_perm_map_iff injective_ofField).1 hperm
    have hdistinct : fs'.Pairwise fun a b => a.1 ≠ b.1 :=
      List.pairwise_map.1 ((hsame.map Prod.fst).nodup_iff.2 hnames)
    have hnever : fs'.Pairwise fun a b => ¬ b.1 < a.1 :=
      (List.pairwise_map.1 hsorted).imp fun h => of_decide_eq_false h.2.2
    have hrising : fs'.Pairwise fun a b => a.1 < b.1 :=
      (hnever.and hdistinct).imp fun h => Text.lt_of_le_of_ne (List.not_lt.1 h.1) h.2
    rw [mapM_ofField, Table.eq_sorted hsame hrising]
    rfl

def written (sort : Bool) (j : Json) : Json := if sort then j.sorted else j

theorem written_array (sort : Bool) (xs : List Json) : written sort (.array xs) = .array (xs.map (written sort)) := by
  cases sort with
  | false => exact congrArg Json.array (List.map_id' xs).symm
  | true => exact congrArg Json.array (Json.sortedItems_eq_map xs)

theorem written_object (sort : Bool) (fs : List (Text × Json)) :
    let fields := fs.map fun f => (f.1, written sort f.2)
    written sort (.object fs) = .object (if sort then Table.sorted fields else fields) := by
  cases sort with
  | false => exact congrArg Json.object (List.map_id' fs).symm
  | true => exact congrArg (fun fields => Json.object (Table.sorted fields)) (Json.sortedFields_eq_map fs)

section
variable {most room : Nat} {sort : Bool} {j d : Json} {e : NoDocument}

theorem documents_eq_mapM (xs : List Value) :
    documents most sort room xs = xs.mapM fun x => x.documentWithin most sort room := by
  induction xs with
  | nil => rfl
  | cons x xs ih => rw [documents, List.mapM_cons, ih]

def Keyed.writing (most : Nat) (sort : Bool) (room : Nat) (f : Text × Json) : Keyed :=
  (text f.1, ((ofJson f.2).documentWithin most sort room).map (f.1, ·))

theorem keyedDocuments_eq_map (fs : List (Text × Json)) :
    keyedDocuments most sort room (ofFields fs) = fs.map (Keyed.writing most sort room) := by
  induction fs with
  | nil => rfl
  | cons f fs ih =>
    rw [ofFields, keyedDocuments, ih]
    rfl

theorem named_writing (fs : List (Text × Json)) : ∀ e ∈ fs.map (Keyed.writing most sort room), Named e :=
  List.forall_mem_map.2 fun f _ => ⟨f.1, rfl⟩

theorem documentWithin_eq_error (h : j.Proper) (hdoc : (ofJson j).documentWithin most sort room = .error e) :
    Exceeds room most (ofJson j).height ((ofJson j).Short most) e.failure := by
  induction h generalizing room with
  | null | bool | number | text => contradiction
  | int n =>
    have hlong := map_eq_error hdoc
    rw [writtenInt] at hlong
    split at hlong
    · contradiction
    · next hnot =>
      cases hlong
      exact .tooManyDigits hnot
  | @array items _ ih =>
    rw [ofJson, documentWithin] at hdoc
    rw [ofJson, height, Short, ofItems_eq_map]
    rcases inside_eq_error hdoc with ⟨rfl, rfl⟩ | ⟨r, rfl, hitems⟩
    · exact .tooDeep (Nat.succ_pos _)
    rw [documents_eq_mapM, ofItems_eq_map] at hitems
    obtain ⟨_, hmem, hx⟩ := exists_of_mapM_error (map_eq_error hitems)
    obtain ⟨x, hx', rfl⟩ := List.mem_map.1 hmem
    exact ((ih x hx' hx).mono ((highest_le_iff _).1 (Nat.le_refl _) _ hmem) fun hs => (allShort_iff _).1 hs _ hmem).inside
  | @object fields hnames _ ih =>
    rw [ofJson, documentWithin] at hdoc
    rw [ofJson, height, Short, ofFields_eq_map]
    rcases inside_eq_error hdoc with ⟨rfl, rfl⟩ | ⟨r, rfl, hfields⟩
    · exact .tooDeep (Nat.succ_pos _)
    obtain ⟨entries, hperm, -, horder⟩ := inOrder_named (named_writing fields) sort
    rw [keyedDocuments_eq_map, horder] at hfields
    obtain ⟨_, hmem, hentry⟩ := exists_of_mapM_error (map_eq_error hfields)
    obtain ⟨f, hf, rfl⟩ := List.mem_map.1 (hperm.mem_iff.1 hmem)
    have hin : (text f.1, ofJson f.2) ∈ fields.map fun f => (text f.1, ofJson f.2) := List.mem_map_of_mem hf
    exact ((ih f hf (map_eq_error hentry)).mono ((highestEntry_le_iff _).1 (Nat.le_refl _) _ hin).2
      fun hs => ((entriesShort_iff _).1 hs _ hin).2).inside

theorem documentWithin_eq_ok (h : j.Proper) (hdoc : (ofJson j).documentWithin most sort room = .ok d) :
    d = written sort j := by
  induction h generalizing room d with
  | null | bool | number | text =>
    cases hdoc
    cases sort <;> rfl
  | int n =>
    obtain ⟨k, hk, rfl⟩ := map_eq_ok hdoc
    rw [writtenInt] at hk
    split at hk
    · cases hk
      cases sort <;> rfl
    · contradiction
  | @array items _ ih =>
    rw [ofJson, documentWithin] at hdoc
    obtain ⟨r, rfl, hitems⟩ := inside_eq_ok hdoc
    obtain ⟨ds, hds, rfl⟩ := map_eq_ok hitems
    rw [documents_eq_mapM, ofItems_eq_map] at hds
    have hall := map_eq_of_forall₂ (g := id) (List.forall₂_map_left_iff.1 (forall₂_of_mapM hds))
      fun x hx d hd => (ih x hx hd).symm
    rw [written_array, hall, List.map_id]
  | @object fields hnames _ ih =>
    rw [ofJson, documentWithin] at hdoc
    obtain ⟨r, rfl, hfields⟩ := inside_eq_ok hdoc
    rw [keyedDocuments_eq_map] at hfields
    obtain ⟨entries, hperm, -, horder⟩ := inOrder_named (named_writing fields) sort
    obtain ⟨ds, hds, -⟩ := map_eq_ok (horder.symm.trans hfields)
    have hfield : ∀ f ∈ fields, Keyed.writing most sort r f = Keyed.ofField (f.1, written sort f.2) := fun f hf => by
      obtain ⟨_, -, hok⟩ :=
        exists_of_forall₂ (forall₂_of_mapM hds).flip (hperm.mem_iff.2 (List.mem_map_of_mem hf))
      obtain ⟨d', hd', -⟩ := map_eq_ok hok
      rw [Keyed.writing, hd', ih f hf hd']
      rfl
    have hall : fields.map (Keyed.writing most sort r) =
        (fields.map fun f => (f.1, written sort f.2)).map Keyed.ofField := by
      rw [List.map_map]
      exact List.map_congr_left hfield
    have hkeys : Table.keys (fields.map fun f => (f.1, written sort f.2)) = Table.keys fields := List.map_map
    rw [hall, inOrder_ofField (by rwa [hkeys])] at hfields
    rw [written_object]
    exact (Except.ok.inj hfields).symm

end

end Value

/-! Recording summaries. -/

namespace Context

variable {c c' : Context} {w w' : Machine} {f : Failure}

/-- Only the disk can refuse a document, for its text always has bytes. -/
theorem disk_of_writeDocument {p : Path} {j : Json} (h : exec (Host.writeText p j.document) c w = (.error f, c', w')) :
    ∃ e, f = .disk e := by
  rcases Conversion.exec_writeText_error h with ⟨e, hdisk, -⟩ | ⟨g, -, hgap⟩
  · exact ⟨e, hdisk⟩
  · rw [Json.encode_document] at hgap
    contradiction

theorem disk_of_recordSummary {name : Text} {summary : Json}
    (h : exec (recordSummary name summary) c w = (.error f, c', w')) : ∃ e, f = .disk e := by
  rw [exec_recordSummary] at h
  split at h
  · simp at h
  · exact disk_of_writeDocument h

theorem record_eq_error {name : Text} {es : List (Value × Value)} (hes : (Value.table es).Proper)
    (h : exec (record name (.table es)) c w = (.error f, c', w')) :
    (∃ e, f = .disk e) ∨ f = .tooDeep ∨ f = .tooManyDigits c.limits.digits := by
  have hsize : ∀ {room height short}, Value.Exceeds room c.limits.digits height short f →
      f = .tooDeep ∨ f = .tooManyDigits c.limits.digits := by
    rintro _ _ _ (_ | _)
    · exact .inl rfl
    · exact .inr rfl
  rw [record, exec_bind, exec_current] at h
  rcases exec_bind_eq_error h with hsummary | ⟨summary, _, _, hsummary, h⟩
  · rw [exec_fromExcept] at hsummary
    exact .inr (hsize (Value.summaryWithin_eq_error _ (Prod.ext_iff.1 hsummary).1))
  rw [exec_fromExcept, Prod.mk.injEq, Prod.mk.injEq] at hsummary
  obtain ⟨hsummary, rfl, rfl⟩ := hsummary
  have hkeep : exec (keep name summary) (c.noting name summary) w = (.error f, c', w') → ∃ e, f = .disk e :=
    disk_of_recordSummary
  rw [noteDown, exec_bind, exec_change] at h
  change exec (_ >>= _) (c.noting name summary) w = _ at h
  rw [exec_bind, exec_current] at h
  dsimp only at h
  split at h
  · rcases exec_bind_eq_error h with hdoc | ⟨_, _, _, hdoc, h⟩
    · rw [exec_fromExcept, Prod.mk.injEq] at hdoc
      obtain ⟨e, hdocument, rfl⟩ := mapError_eq_error hdoc.1
      exact .inr (hsize (Value.documentWithin_eq_error (Value.fits_summaryWithin hes hsummary).proper hdocument))
    · rw [exec_fromExcept, Prod.mk.injEq, Prod.mk.injEq] at hdoc
      obtain ⟨-, rfl, rfl⟩ := hdoc
      exact .inl (hkeep h)
  · exact .inl (hkeep h)

end Context
namespace Value

/-- The summary of any value is a document whose tables are keyed by texts, and its own summary; a value that is a
document already stays as it is. A summary is written as JSON with its names sorted or not, and recording a mapping
fails only where the disk does. All else that stops a host is a value that goes further down than it follows, or a
whole number that is too long for it to write. -/
theorem summary_isDocument {v : Value} (h : v.Proper) (l : Limits) :
    ((∃ j, v.summary l = .ok j) ∨ ∃ f, v.summary l = .error f ∧
      Exceeds (min l.depth l.writtenDepth) l.digits v.height (v.Short l.digits) f) ∧
    (∀ j, v.summary l = .ok j →
      (ofJson j).IsDocument ∧ (v.IsDocument → ofJson j = v) ∧ (ofJson j).summary l = .ok j ∧
      ∀ sort, (ofJson j).document l sort = .ok (if sort then j.sorted else j) ∨
        ∃ e, (ofJson j).document l sort = .error e ∧
          Exceeds l.writtenDepth l.digits (ofJson j).height ((ofJson j).Short l.digits) e.failure) ∧
    ∀ es, v = table es → v.tableSummary l = v.summary l ∧
      ∀ (name : Text) (c c' : Context) (w w' : Machine) (f : Failure), c.limits = l →
        Context.exec (Context.record name v) c w = (.error f, c', w') →
        (∃ e, f = .disk e) ∨ f = .tooDeep ∨ f = .tooManyDigits l.digits := by
  refine ⟨?_, fun j hj => ?_, ?_⟩
  · cases hsummary : v.summary l with
    | ok j => exact .inl ⟨j, rfl⟩
    | error f => exact .inr ⟨f, rfl, summaryWithin_eq_error v hsummary⟩
  · have hfits := fits_summaryWithin h hj
    refine ⟨isDocument_ofJson hfits.proper, fun hv => ofJson_of_summaryWithin hv hj, summaryWithin_ofJson hfits,
      fun sort => ?_⟩
    cases hdocument : (ofJson j).document l sort with
    | ok d => exact .inl (congrArg Except.ok (documentWithin_eq_ok hfits.proper hdocument))
    | error e => exact .inr ⟨e, rfl, documentWithin_eq_error hfits.proper hdocument⟩
  · rintro es rfl
    refine ⟨rfl, ?_⟩
    rintro name c c' w w' f rfl hf
    exact Context.record_eq_error h hf

/-- Two keys that are displayed alike, and parts of kinds that JSON does not have. -/
def mixed : Value :=
  table [(int 1, list [path (.ofText "a/b"), set [bytes [7]]]), (text "1", tuple [report {}, bytes [7]]),
    (tuple [int 1, text "b"], reportKind)]

theorem proper_mixed : mixed.Proper := by
  have hreport : (report {}).Proper := .report ⟨by decide, by decide⟩
  have hset : (set [bytes [7]]).Proper := .set (by simpa using Proper.bytes [7])
  refine .table ?_
  simp only [List.forall_mem_cons, List.not_mem_nil, false_imp_iff, implies_true, and_true]
  refine ⟨.list ?_, .tuple ?_, .reportKind⟩
  · simpa using ⟨Proper.path _, hset⟩
  · simpa using ⟨hreport, Proper.bytes _⟩

def mixedSummary : Json :=
  .object [("1", .array [.object ({} : Report).fields, .text "b'\\x07'"]),
    ("(1, 'b')", .text "<class 'nodeify.report.NodeifyReport'>")]

/-- Of the keys that are displayed alike the later one counts. -/
theorem summary_mixed : mixed.Proper ∧ mixed.summary .usual = .ok mixedSummary ∧
    (ofJson mixedSummary).IsDocument ∧ (ofJson mixedSummary).summary .usual = .ok mixedSummary ∧
    mixed.tableSummary .usual = .ok mixedSummary := by
  have hsummary : mixed.summary .usual = .ok mixedSummary := rfl
  obtain ⟨-, hall, htable⟩ := summary_isDocument proper_mixed .usual
  obtain ⟨hdocument, -, hsame, -⟩ := hall _ hsummary
  exact ⟨proper_mixed, hsummary, hdocument, hsame, (htable _ rfl).1.trans hsummary⟩

def nested : Nat → Value
  | 0 => int 1
  | n + 1 => list [nested n]

theorem proper_nested (n : Nat) : (nested n).Proper := by
  induction n with
  | zero => exact .int 1
  | succ n ih => exact .list (by simpa using ih)

theorem summaryWithin_nested {l : Limits} {room n : Nat} (h : room < n) :
    (nested n).summaryWithin l room = .error .tooDeep := by
  induction room generalizing n with
  | zero =>
    obtain ⟨k, rfl⟩ := Nat.exists_eq_add_of_le' h
    rfl
  | succ room ih =>
    obtain ⟨k, rfl⟩ := Nat.exists_eq_add_of_le' (Nat.lt_of_le_of_lt (Nat.zero_le _) h)
    rw [nested, summaryWithin, inside, summaries, ih (Nat.lt_of_succ_lt_succ h)]
    rfl

/-- Six hundred lists inside one another are too many. -/
theorem not_every_value_summed : ¬ ∀ v : Value, v.Proper → ∃ j, v.summary .usual = .ok j := by
  intro hall
  obtain ⟨j, hj⟩ := hall (nested 600) (proper_nested 600)
  have hdeep : (nested 600).summary .usual = .error .tooDeep := summaryWithin_nested (by decide)
  rw [hdeep] at hj
  contradiction

end Value
end Rehost
