import Rehost.Text.Basic

/-! Brackets. A text is well bracketed if its brackets pair off in nests; it is read with a stack of the brackets that
are open, from which every closing bracket takes its partner. What a stretch of a text does to the stack is told by the
brackets that have no partner in it. -/
namespace Rehost

inductive Bracket where
  | round
  | square
  | curly
deriving DecidableEq, Repr

namespace Bracket

def opening : Bracket → CodePoint
  | round => '('
  | square => '['
  | curly => '\x7b'

def closing : Bracket → CodePoint
  | round => ')'
  | square => ']'
  | curly => '\x7d'

inductive Role where
  | opens (k : Bracket)
  | closes (k : Bracket)
  | neither
deriving DecidableEq, Repr

def all : List Bracket := [round, square, curly]

def role (c : CodePoint) : Role :=
  match all.find? (·.opening = c) with
  | some k => .opens k
  | none =>
    match all.find? (·.closing = c) with
    | some k => .closes k
    | none => .neither

def marks : List CodePoint := all.map opening ++ all.map closing

@[simp] theorem role_opening (k : Bracket) : role k.opening = .opens k := by cases k <;> decide

@[simp] theorem role_closing (k : Bracket) : role k.closing = .closes k := by cases k <;> decide

theorem role_cases (c : CodePoint) :
    (∃ k, c = opening k) ∨ (∃ k, c = closing k) ∨ role c = .neither ∧ c ∉ marks := by
  unfold role
  cases hopen : all.find? (·.opening = c) with
  | some k => exact .inl ⟨k, by simpa [eq_comm] using List.find?_some hopen⟩
  | none =>
    cases hclose : all.find? (·.closing = c) with
    | some k => exact .inr (.inl ⟨k, by simpa [eq_comm] using List.find?_some hclose⟩)
    | none =>
      have hopen := List.find?_eq_none.1 hopen
      have hclose := List.find?_eq_none.1 hclose
      simp only [decide_eq_true_eq] at hopen hclose
      refine .inr (.inr ⟨rfl, fun hc => ?_⟩)
      rcases List.mem_append.1 hc with hc | hc <;> obtain ⟨k, hk, rfl⟩ := List.mem_map.1 hc
      · exact hopen k hk rfl
      · exact hclose k hk rfl

def step (stack : List Bracket) (c : CodePoint) : Option (List Bracket) :=
  match role c, stack with
  | .opens k, stack => some (k :: stack)
  | .closes k, j :: stack => if j = k then some stack else none
  | .closes _, [] => none
  | .neither, stack => some stack

@[simp] theorem step_opening (stack : List Bracket) (k : Bracket) : step stack k.opening = some (k :: stack) := by
  simp [step]

theorem step_closing_eq_some {stack rest : List Bracket} {k : Bracket} :
    step stack k.closing = some rest ↔ stack = k :: rest := by
  cases stack with
  | nil => simp [step]
  | cons j stack => simp [step]

theorem step_of_neither {c : CodePoint} (h : role c = .neither) (stack : List Bracket) : step stack c = some stack := by
  simp [step, h]

end Bracket

namespace Text
open Rehost.Bracket

inductive Nested : Text → Prop
  | nil : Nested []
  | plain {c : CodePoint} {t : Text} (neither : role c = .neither) (rest : Nested t) : Nested (c :: t)
  | wrap (k : Bracket) {t r : Text} (inside : Nested t) (rest : Nested r) :
    Nested (k.opening :: t ++ k.closing :: r)

def scan (stack : List Bracket) (t : Text) : Option (List Bracket) := t.foldlM step stack

@[simp] theorem scan_nil (stack : List Bracket) : scan stack [] = some stack := rfl

theorem scan_cons (stack : List Bracket) (c : CodePoint) (t : Text) :
    scan stack (c :: t) = (step stack c).bind (scan · t) := rfl

theorem scan_singleton (stack : List Bracket) (c : CodePoint) : scan stack [c] = step stack c := by
  simp [scan_cons]

theorem scan_append (stack : List Bracket) (a b : Text) : scan stack (a ++ b) = (scan stack a).bind (scan · b) :=
  List.foldlM_append

theorem scan_append_eq_some {stack rest : List Bracket} {a b : Text} :
    scan stack (a ++ b) = some rest ↔ ∃ middle, scan stack a = some middle ∧ scan middle b = some rest := by
  rw [scan_append, Option.bind_eq_some_iff]

theorem Nested.scan_eq {t : Text} (h : Nested t) (stack : List Bracket) : scan stack t = some stack := by
  induction h generalizing stack with
  | nil => rfl
  | plain neither _ ih => simp [scan_cons, step_of_neither neither, ih]
  | wrap k _ _ ihinside ihrest =>
    have hclose : step (k :: stack) k.closing = some stack := step_closing_eq_some.2 rfl
    simp [scan_cons, scan_append, ihinside, hclose, ihrest]

/-- A text that closes what is open: well bracketed texts with the closing brackets between them. -/
def Closes : List Bracket → Text → Prop
  | [], t => Nested t
  | k :: stack, t => ∃ a b, t = a ++ k.closing :: b ∧ Nested a ∧ Closes stack b

theorem Closes.prepend {p : Text} (hp : ∀ t, Nested t → Nested (p ++ t)) {stack : List Bracket} {t : Text}
    (h : Closes stack t) : Closes stack (p ++ t) := by
  cases stack with
  | nil => exact hp t h
  | cons k stack =>
    obtain ⟨a, b, rfl, ha, hb⟩ := h
    exact ⟨p ++ a, b, by simp, hp a ha, hb⟩

theorem closes_of_scan {stack : List Bracket} {t : Text} (h : scan stack t = some []) : Closes stack t := by
  induction t generalizing stack with
  | nil =>
    obtain rfl : stack = [] := by simpa using h
    exact Nested.nil
  | cons c t ih =>
    rw [scan_cons] at h
    obtain ⟨middle, hc, ht⟩ := Option.bind_eq_some_iff.1 h
    rcases role_cases c with ⟨k, rfl⟩ | ⟨k, rfl⟩ | ⟨hneither, -⟩
    · obtain rfl : k :: stack = middle := by simpa using hc
      obtain ⟨a, b, rfl, ha, hb⟩ := ih ht
      have hwrap := Closes.prepend (p := k.opening :: a ++ [k.closing])
        (fun t h => by simpa using Nested.wrap k ha h) hb
      simpa using hwrap
    · obtain rfl := step_closing_eq_some.1 hc
      exact ⟨[], t, rfl, Nested.nil, ih ht⟩
    · obtain rfl : stack = middle := by simpa [step_of_neither hneither] using hc
      exact Closes.prepend (p := [c]) (fun t h => Nested.plain hneither h) (ih ht)

theorem nested_iff {t : Text} : Nested t ↔ scan [] t = some [] :=
  ⟨fun h => h.scan_eq [], fun h => closes_of_scan h⟩

instance (t : Text) : Decidable (Nested t) := decidable_of_iff _ nested_iff.symm

/-! The brackets without a partner. -/

/-- The closing brackets without a partner from left to right, and the opening ones from right to left. -/
structure Loose where
  closed : List Bracket
  opened : List Bracket
deriving DecidableEq, Repr

def Loose.step (l : Loose) (c : CodePoint) : Option Loose :=
  match role c, l.opened with
  | .opens k, opened => some ⟨l.closed, k :: opened⟩
  | .closes k, j :: opened => if j = k then some ⟨l.closed, opened⟩ else none
  | .closes k, [] => some ⟨l.closed ++ [k], []⟩
  | .neither, _ => some l

def loose (t : Text) : Option Loose := t.foldlM Loose.step ⟨[], []⟩

/-- Takes from one stack the brackets that are closed and puts those on it that are opened. -/
def Loose.Turns (l : Loose) (stack stack' : List Bracket) : Prop :=
  ∃ rest, stack = l.closed ++ rest ∧ stack' = l.opened ++ rest

theorem Loose.turns_step {l : Loose} {c : CodePoint} {stack stack' : List Bracket} :
    (∃ middle, l.Turns stack middle ∧ Bracket.step middle c = some stack') ↔
      ∃ l', l.step c = some l' ∧ l'.Turns stack stack' := by
  obtain ⟨closed, opened⟩ := l
  rcases role_cases c with ⟨k, rfl⟩ | ⟨k, rfl⟩ | ⟨hneither, -⟩
  · simp only [Turns, Loose.step, role_opening, step_opening, Option.some.injEq]
    constructor
    · rintro ⟨_, ⟨rest, rfl, rfl⟩, rfl⟩
      exact ⟨_, rfl, rest, rfl, rfl⟩
    · rintro ⟨_, rfl, rest, rfl, rfl⟩
      exact ⟨_, ⟨rest, rfl, rfl⟩, rfl⟩
  · simp only [step_closing_eq_some, exists_eq_right]
    cases opened with
    | nil => simp [Turns, Loose.step]
    | cons j opened =>
      by_cases hjk : j = k
      · simp [Turns, Loose.step, hjk]
      · simp [Turns, Loose.step, hjk, Ne.symm hjk]
  · simp [Turns, Loose.step, hneither, step_of_neither hneither, eq_comm]

theorem turns_scan {l : Loose} {t : Text} {stack stack' : List Bracket} :
    (∃ middle, l.Turns stack middle ∧ scan middle t = some stack') ↔
      ∃ l', t.foldlM Loose.step l = some l' ∧ l'.Turns stack stack' := by
  induction t generalizing l with
  | nil => simp
  | cons c t ih =>
    simp only [scan_cons, List.foldlM_cons, Option.bind_eq_bind, Option.bind_eq_some_iff]
    constructor
    · rintro ⟨middle, hl, next, hc, ht⟩
      obtain ⟨l₁, hl₁, hturns⟩ := Loose.turns_step.1 ⟨middle, hl, hc⟩
      obtain ⟨l₂, hl₂, hturns⟩ := ih.1 ⟨next, hturns, ht⟩
      exact ⟨l₂, ⟨l₁, hl₁, hl₂⟩, hturns⟩
    · rintro ⟨l₂, ⟨l₁, hl₁, hl₂⟩, hturns⟩
      obtain ⟨next, hturns, ht⟩ := ih.2 ⟨l₂, hl₂, hturns⟩
      obtain ⟨middle, hl, hc⟩ := Loose.turns_step.2 ⟨l₁, hl₁, hturns⟩
      exact ⟨middle, hl, next, hc, ht⟩

theorem scan_eq_some_iff {t : Text} {stack stack' : List Bracket} :
    scan stack t = some stack' ↔ ∃ l, loose t = some l ∧ l.Turns stack stack' := by
  refine Iff.trans ?_ (turns_scan (l := ⟨[], []⟩))
  simp [Loose.Turns]

theorem closed_unique {t : Text} {stack stack' : List Bracket} (h : scan stack t = some [])
    (h' : scan stack' t = some []) : stack = stack' := by
  obtain ⟨l, hl, rest, rfl, hrest⟩ := scan_eq_some_iff.1 h
  obtain ⟨l', hl', rest', rfl, hrest'⟩ := scan_eq_some_iff.1 h'
  obtain rfl : l = l' := Option.some.inj (hl.symm.trans hl')
  rw [(List.append_eq_nil_iff.1 hrest.symm).2, (List.append_eq_nil_iff.1 hrest'.symm).2]

theorem nested_iff_loose {t : Text} : Nested t ↔ loose t = some ⟨[], []⟩ := by
  rw [nested_iff, scan_eq_some_iff]
  constructor
  · rintro ⟨⟨closed, opened⟩, hl, rest, hclosed, hopened⟩
    obtain ⟨rfl, rfl⟩ := List.append_eq_nil_iff.1 hclosed.symm
    obtain ⟨rfl, -⟩ := List.append_eq_nil_iff.1 hopened.symm
    exact hl
  · exact fun h => ⟨_, h, [], rfl, rfl⟩

/-! Stretches in a well bracketed text. -/

theorem nested_split {a x b : Text} (h : Nested (a ++ x ++ b)) :
    ∃ stack stack', scan [] a = some stack ∧ scan stack x = some stack' ∧ scan stack' b = some [] := by
  obtain ⟨stack', hax, hb⟩ := scan_append_eq_some.1 (nested_iff.1 h)
  obtain ⟨stack, ha, hx⟩ := scan_append_eq_some.1 hax
  exact ⟨stack, stack', ha, hx, hb⟩

/-- What turns every stack like the stretch that it replaces keeps a text as it was bracketed. -/
theorem nested_congr {x y : Text} (h : ∀ stack, scan stack x = scan stack y) (a b : Text) :
    Nested (a ++ x ++ b) ↔ Nested (a ++ y ++ b) := by
  simp only [nested_iff, scan_append, h]

theorem nested_replace_iff {a b y : Text} {stack stack' : List Bracket} (ha : scan [] a = some stack)
    (hb : scan stack' b = some []) : Nested (a ++ y ++ b) ↔ scan stack y = some stack' := by
  rw [nested_iff, scan_append, scan_append, ha]
  constructor
  · intro h
    obtain ⟨middle, hy, hmiddle⟩ := Option.bind_eq_some_iff.1 h
    rw [closed_unique hb hmiddle]
    exact hy
  · intro h
    simp [h, hb]

/-- A bracket in front of a stack that loses and gains others can be told from them only if they are all alike. -/
theorem cons_append_eq_iff {α : Type} {x : α} {l rest rest' : List α} :
    x :: (l ++ rest) = l ++ rest' ↔ (∀ y ∈ l, y = x) ∧ rest' = x :: rest := by
  induction l generalizing x with
  | nil => simp [eq_comm]
  | cons y l ih =>
    rw [List.cons_append, List.cons_append, List.cons.injEq, ← List.cons_append]
    constructor
    · rintro ⟨rfl, h⟩
      obtain ⟨hall, rfl⟩ := ih.1 h
      exact ⟨by simpa using hall, rfl⟩
    · rintro ⟨hall, rfl⟩
      obtain rfl : y = x := hall y (by simp)
      exact ⟨rfl, ih.2 ⟨fun z hz => hall z (by simp [hz]), rfl⟩⟩

def Loose.Only (k : Bracket) (l : Loose) : Prop := ∀ j ∈ l.closed ++ l.opened, j = k

/-- A pair of brackets around a stretch of a well bracketed text fits exactly where what has no partner in the stretch
is of their kind. -/
theorem nested_wrap_iff {a x b : Text} (k : Bracket) (h : Nested (a ++ x ++ b)) :
    ∃ l, loose x = some l ∧ (Nested (a ++ (k.opening :: x ++ [k.closing]) ++ b) ↔ l.Only k) := by
  obtain ⟨stack, stack', ha, hx, hb⟩ := nested_split h
  obtain ⟨l, hl, rest, rfl, rfl⟩ := scan_eq_some_iff.1 hx
  refine ⟨l, hl, ?_⟩
  rw [nested_replace_iff ha hb]
  have hwrap : scan (l.closed ++ rest) (k.opening :: x ++ [k.closing]) = some (l.opened ++ rest) ↔
      scan (k :: (l.closed ++ rest)) x = some (k :: (l.opened ++ rest)) := by
    rw [List.cons_append, scan_cons, step_opening, Option.bind_some, scan_append_eq_some]
    simp [scan_singleton, step_closing_eq_some]
  have hturns : l.Turns (k :: (l.closed ++ rest)) (k :: (l.opened ++ rest)) ↔ l.Only k := by
    simp only [Loose.Turns, cons_append_eq_iff, Loose.Only, List.forall_mem_append]
    constructor
    · rintro ⟨_, ⟨hclosed, rfl⟩, hopened, -⟩
      exact ⟨hclosed, hopened⟩
    · rintro ⟨hclosed, hopened⟩
      exact ⟨_, ⟨hclosed, rfl⟩, hopened, rfl⟩
  rw [hwrap, scan_eq_some_iff, ← hturns]
  simp [hl]

theorem nested_exchange_iff {a x b y : Text} (h : Nested (a ++ x ++ b)) (hy : Nested y) {opened : List Bracket}
    (hx : loose x = some ⟨[], opened⟩) : Nested (a ++ y ++ b) ↔ Nested x := by
  obtain ⟨stack, stack', ha, hscan, hb⟩ := nested_split h
  obtain ⟨l, hl, rest, rfl, rfl⟩ := scan_eq_some_iff.1 hscan
  obtain rfl : l = ⟨[], opened⟩ := Option.some.inj (hl.symm.trans hx)
  rw [nested_replace_iff ha hb, hy.scan_eq, nested_iff_loose, hx]
  simp

theorem nested_insert_iff {x : Text} (hx : Nested x) (a b : Text) : Nested (a ++ x ++ b) ↔ Nested (a ++ b) := by
  simpa using nested_congr (y := []) (fun stack => by rw [hx.scan_eq, scan_nil]) a b

theorem Loose.closed_step {l l' : Loose} {c : CodePoint} (h : l.step c = some l') :
    l'.closed = l.closed ∨ ∃ k, c = k.closing ∧ l'.closed = l.closed ++ [k] := by
  obtain ⟨closed, opened⟩ := l
  rcases role_cases c with ⟨k, rfl⟩ | ⟨k, rfl⟩ | ⟨hneither, -⟩
  · simp only [Loose.step, role_opening, Option.some.injEq] at h
    exact .inl (by rw [← h])
  · cases opened with
    | nil =>
      simp only [Loose.step, role_closing, Option.some.injEq] at h
      exact .inr ⟨k, rfl, by rw [← h]⟩
    | cons j opened =>
      simp only [Loose.step, role_closing, Option.ite_none_right_eq_some, Option.some.injEq] at h
      exact .inl (by rw [← h.2])
  · simp only [Loose.step, hneither, Option.some.injEq] at h
    exact .inl (by rw [← h])

theorem mem_of_closed {t : Text} {k : Bracket} {l l' : Loose} (h : t.foldlM Loose.step l = some l')
    (hk : k ∈ l'.closed) : k ∈ l.closed ∨ k.closing ∈ t := by
  induction t generalizing l with
  | nil =>
    obtain rfl : l = l' := by simpa using h
    exact .inl hk
  | cons c t ih =>
    rw [List.foldlM_cons, Option.bind_eq_bind, Option.bind_eq_some_iff] at h
    obtain ⟨l₁, hc, ht⟩ := h
    rcases ih ht with hk | hk
    · rcases Loose.closed_step hc with hsame | ⟨j, rfl, hmore⟩
      · exact .inl (hsame ▸ hk)
      · rw [hmore, List.mem_append, List.mem_singleton] at hk
        exact hk.imp_right fun hk => by simp [hk]
    · exact .inr (by simp [hk])

theorem loose_wrap {k : Bracket} {v : Text} (hv : k.closing ∉ v) {stack stack' : List Bracket}
    (h : scan stack (k.opening :: v ++ [k.closing]) = some stack') :
    ∃ opened, loose (k.opening :: v ++ [k.closing]) = some ⟨[], opened⟩ := by
  rw [List.cons_append, scan_cons, step_opening, Option.bind_some] at h
  obtain ⟨middle, hscan, hlast⟩ := scan_append_eq_some.1 h
  rw [scan_singleton, step_closing_eq_some] at hlast
  obtain ⟨⟨closed, opened⟩, hl, rest, hclosed, rfl⟩ := scan_eq_some_iff.1 hscan
  obtain rfl : closed = [] := by
    cases closed with
    | nil => rfl
    | cons j closed =>
      obtain ⟨rfl, -⟩ := List.cons.inj hclosed
      exact absurd ((mem_of_closed hl (by simp)).resolve_left (by simp)) hv
  obtain rfl : k :: stack = rest := hclosed
  -- The pair is closed from its own stack as well.
  obtain ⟨left, hleft⟩ : ∃ left, opened ++ [k] = k :: left := by
    cases opened with
    | nil => exact ⟨[], rfl⟩
    | cons j opened =>
      obtain ⟨rfl, -⟩ := List.cons.inj hlast
      exact ⟨opened ++ [j], rfl⟩
  have hown : scan [] (k.opening :: v ++ [k.closing]) = some left := by
    rw [List.cons_append, scan_cons, step_opening, Option.bind_some, scan_append_eq_some]
    exact ⟨opened ++ [k], scan_eq_some_iff.2 ⟨_, hl, [k], rfl, rfl⟩,
      by rw [scan_singleton, step_closing_eq_some, hleft]⟩
  obtain ⟨⟨closed, opened'⟩, hl', rest, hclosed, -⟩ := scan_eq_some_iff.1 hown
  obtain ⟨rfl, -⟩ := List.append_eq_nil_iff.1 hclosed.symm
  exact ⟨opened', hl'⟩

/-! Texts without what is no bracket. -/

def brackets (t : Text) : Text := t.filter (· ∈ marks)

theorem foldlM_brackets {σ : Type} {f : σ → CodePoint → Option σ} (hf : ∀ s c, role c = .neither → f s c = some s)
    (s : σ) (t : Text) : (brackets t).foldlM f s = t.foldlM f s := by
  induction t generalizing s with
  | nil => rfl
  | cons c t ih =>
    have ih : (fun s => List.foldlM f s (t.filter (· ∈ marks))) = fun s => List.foldlM f s t := funext ih
    by_cases hc : c ∈ marks
    · simp [brackets, hc, ih]
    · have hneither : role c = .neither := by
        rcases role_cases c with ⟨k, rfl⟩ | ⟨k, rfl⟩ | ⟨hneither, -⟩
        · exact absurd (by cases k <;> decide) hc
        · exact absurd (by cases k <;> decide) hc
        · exact hneither
      simpa [brackets, hc, hf s c hneither] using congrFun ih s

theorem scan_brackets (stack : List Bracket) (t : Text) : scan stack (brackets t) = scan stack t :=
  foldlM_brackets (fun stack _ h => step_of_neither h stack) stack t

theorem loose_brackets (t : Text) : loose (brackets t) = loose t :=
  foldlM_brackets (fun l c h => by simp [Loose.step, h]) _ t

@[simp] theorem brackets_append (a b : Text) : brackets (a ++ b) = brackets a ++ brackets b := List.filter_append ..

theorem brackets_eq_nil {t : Text} (h : ∀ c ∈ marks, c ∉ t) : brackets t = [] := by
  rw [brackets, List.filter_eq_nil_iff]
  intro c hc hmark
  exact h c (by simpa using hmark) hc

theorem nested_brackets {t : Text} : Nested (brackets t) ↔ Nested t := by
  rw [nested_iff, scan_brackets, nested_iff]

theorem nested_congr_brackets {x y : Text} (h : brackets x = brackets y) (a b : Text) :
    Nested (a ++ x ++ b) ↔ Nested (a ++ y ++ b) :=
  nested_congr (fun stack => by rw [← scan_brackets, h, scan_brackets]) a b

end Text
end Rehost
