import Rehost.Proofs.Sort.Place
import Rehost.Sort.Merge

/-! Merging two runs that are in order. The order needs to be proper among the elements at hand only. What is merged at
any time is in order and goes before all that is left, whichever end merging goes on from; nothing is lost, and as some
element is taken in every step, merging comes to its end. -/
namespace Rehost.Sort

variable {α : Type} {precedes : α → α → Bool} {P : α → Prop} {R : α → α → Prop}

/-- Among elements with `P` at most one of two precedes the other, and not to precede carries over. -/
structure Orders (precedes : α → α → Bool) (P : α → Prop) : Prop where
  asymm : ∀ {a b}, P a → P b → precedes a b = true → precedes b a = false
  trans : ∀ {a b c}, P a → P b → P c → precedes b a = false → precedes c b = false → precedes c a = false

def InOrder (precedes : α → α → Bool) (P : α → Prop) (a b : α) : Prop := P a ∧ P b ∧ precedes b a = false

theorem Orders.inOrder_trans (h : Orders precedes P) {a b c : α} (hab : InOrder precedes P a b)
    (hbc : InOrder precedes P b c) : InOrder precedes P a c :=
  ⟨hab.1, hbc.2.1, h.trans hab.1 hab.2.1 hbc.2.1 hab.2.2 hbc.2.2⟩

theorem Orders.inOrder_of_precedes (h : Orders precedes P) {a b : α} (ha : P a) (hb : P b)
    (hprecedes : precedes a b = true) : InOrder precedes P a b :=
  ⟨ha, hb, h.asymm ha hb hprecedes⟩

/-! Dividing a run by an element. -/

section
variable {run : List α} {next : α} {isBehind : Nat → Bool}

theorem Orders.lasting_after (h : Orders precedes P) (hnext : P next) (hrun : run.Pairwise (InOrder precedes P)) :
    run.Pairwise fun x y => precedes next x = true → precedes next y = true := by
  refine hrun.imp fun {x y} hxy hx => ?_
  cases hy : precedes next y with
  | true => rfl
  | false => exact (h.trans hxy.1 hxy.2.1 hnext hxy.2.2 hy).symm.trans hx

theorem Orders.lasting_from (h : Orders precedes P) (hnext : P next) (hrun : run.Pairwise (InOrder precedes P)) :
    run.Pairwise fun x y => (!precedes x next) = true → (!precedes y next) = true := by
  refine hrun.imp fun {x y} hxy hx => ?_
  rw [Bool.not_eq_true'] at hx ⊢
  exact h.trans hnext hxy.1 hxy.2.1 hx hxy.2.2

theorem Orders.gallop_after (h : Orders precedes P) (hP : ∀ x ∈ run, P x) (hnext : P next)
    (hrun : run.Pairwise (InOrder precedes P)) (htells : Tells isBehind (fun x => precedes next x) run) {hint : Nat}
    (hhint : run ≠ [] → hint < run.length) :
    (∀ x ∈ run.take (gallop isBehind run.length hint), InOrder precedes P x next) ∧
      ∀ x ∈ run.drop (gallop isBehind run.length hint), InOrder precedes P next x := by
  obtain ⟨hbefore, hbehind⟩ := gallop_divides htells (h.lasting_after hnext hrun) hhint
  refine ⟨fun x hx => ⟨hP x (List.mem_of_mem_take hx), hnext, hbefore x hx⟩, fun x hx => ?_⟩
  exact h.inOrder_of_precedes hnext (hP x (List.mem_of_mem_drop hx)) (hbehind x hx)

theorem Orders.gallop_from (h : Orders precedes P) (hP : ∀ x ∈ run, P x) (hnext : P next)
    (hrun : run.Pairwise (InOrder precedes P)) (htells : Tells isBehind (fun x => !precedes x next) run) {hint : Nat}
    (hhint : run ≠ [] → hint < run.length) :
    (∀ x ∈ run.take (gallop isBehind run.length hint), InOrder precedes P x next) ∧
      ∀ x ∈ run.drop (gallop isBehind run.length hint), InOrder precedes P next x := by
  obtain ⟨hbefore, hbehind⟩ := gallop_divides htells (h.lasting_from hnext hrun) hhint
  refine ⟨fun x hx => ?_, fun x hx => ⟨hnext, hP x (List.mem_of_mem_drop hx), ?_⟩⟩
  · exact h.inOrder_of_precedes (hP x (List.mem_of_mem_take hx)) hnext (by simpa using hbefore x hx)
  · simpa using hbehind x hx

theorem tells_any {q : α → Bool} : Tells (fun i => run[i]?.any q) q run := by
  intro i hi
  simp [List.getElem?_eq_getElem hi]

theorem tells_not_any {q : α → Bool} : Tells (fun i => !run[i]?.any q) (fun x => !q x) run := by
  intro i hi
  simp [List.getElem?_eq_getElem hi]

end

/-! The two ends. -/

/-- A side compares by the relation in which it merges, and its wins are what goes first by it. -/
structure Side.Fits (side : Side α) (R : α → α → Prop) (P : α → Prop) : Prop where
  otherFirst : ∀ {held other}, P held → P other → side.otherWins held other = true → R other held
  heldFirst : ∀ {held other}, P held → P other → side.otherWins held other = false → R held other
  heldWins : ∀ {held : List α} {next : α}, (∀ x ∈ held, P x) → P next → held.Pairwise R →
    (∀ x ∈ held.take (side.heldWins held next), R x next) ∧ ∀ x ∈ held.drop (side.heldWins held next), R next x
  othersWin : ∀ {other : List α} {next : α}, (∀ x ∈ other, P x) → P next → other.Pairwise R →
    (∀ x ∈ other.take (side.othersWin other next), R x next) ∧ ∀ x ∈ other.drop (side.othersWin other next), R next x

theorem fits_front (h : Orders precedes P) : (Side.front precedes).Fits (InOrder precedes P) P where
  otherFirst hheld hother hwins := h.inOrder_of_precedes hother hheld hwins
  heldFirst hheld hother hwins := ⟨hheld, hother, hwins⟩
  heldWins hP hnext hrun := h.gallop_after hP hnext hrun tells_any List.length_pos_iff.2
  othersWin hP hnext hrun := h.gallop_from hP hnext hrun tells_not_any List.length_pos_iff.2

theorem forall_reverse {run : List α} {Q Q' : α → Prop} {place : Nat}
    (h : (∀ x ∈ run.reverse.take place, Q x) ∧ ∀ x ∈ run.reverse.drop place, Q' x) :
    (∀ x ∈ run.take (run.reverse.length - place), Q' x) ∧ ∀ x ∈ run.drop (run.reverse.length - place), Q x := by
  rw [List.take_reverse, List.drop_reverse] at h
  simp only [List.mem_reverse] at h
  rw [List.length_reverse]
  exact ⟨h.2, h.1⟩

theorem fits_back (h : Orders precedes P) : (Side.back precedes).Fits (fun a b => InOrder precedes P b a) P where
  otherFirst hheld hother hwins := h.inOrder_of_precedes hheld hother hwins
  heldFirst hheld hother hwins := ⟨hother, hheld, hwins⟩
  heldWins {held next} hP hnext hrun := by
    refine forall_reverse (h.gallop_from (by simpa using hP) hnext (List.pairwise_reverse.2 hrun) tells_not_any ?_)
    intro hne
    exact Nat.sub_lt (List.length_pos_iff.2 hne) Nat.one_pos
  othersWin {other next} hP hnext hrun := by
    refine forall_reverse (h.gallop_after (by simpa using hP) hnext (List.pairwise_reverse.2 hrun) tells_any ?_)
    intro hne
    exact Nat.sub_lt (List.length_pos_iff.2 hne) Nat.one_pos

/-! Merging on. -/

namespace Merging

def all (s : Merging α) : List α := s.done.reverse ++ s.held ++ s.other

def left (s : Merging α) : Nat := s.held.length + s.other.length

/-- What is merged is in order with either run behind it, and the last element that is held may stand behind
everything. -/
structure Going (R : α → α → Prop) (P : α → Prop) (s : Merging α) : Prop where
  within : ∀ x ∈ s.all, P x
  held : (s.done.reverse ++ s.held).Pairwise R
  other : (s.done.reverse ++ s.other).Pairwise R
  last : ∀ x, s.held.getLast? = some x → ∀ y ∈ s.other, R y x

variable {s s' : Merging α} {count : Nat}

theorem all_takeHeld (s : Merging α) (count : Nat) : (s.takeHeld count).all = s.all := by
  simp [all, takeHeld]

theorem all_takeOther (s : Merging α) (count : Nat) : (s.takeOther count).all.Perm s.all := by
  have hall : (s.takeOther count).all =
      s.done.reverse ++ (s.other.take count ++ s.held ++ s.other.drop count) := by simp [all, takeOther]
  have hcut : s.all = s.done.reverse ++ (s.held ++ s.other.take count ++ s.other.drop count) := by simp [all]
  rw [hall, hcut]
  exact List.Perm.append_left _ (List.perm_append_comm.append_right _)

theorem perm_result (s : Merging α) : s.result.Perm s.all := by
  rw [result, all, List.append_assoc]
  refine List.Perm.append_left _ ?_
  split
  · exact List.perm_append_comm
  · exact .refl _

theorem pairwise_between {a b c : List α} (hb : (a ++ b).Pairwise R) (hc : (a ++ c).Pairwise R)
    (hbc : ∀ x ∈ b, ∀ y ∈ c, R x y) : (a ++ (b ++ c)).Pairwise R := by
  rw [List.pairwise_append] at hb hc ⊢
  refine ⟨hb.1, List.pairwise_append.2 ⟨hb.2.1, hc.2.1, hbc⟩, fun x hx y hy => ?_⟩
  exact (List.mem_append.1 hy).elim (hb.2.2 x hx y) (hc.2.2 x hx y)

theorem Going.takeHeld (h : s.Going R P) (hfirst : ∀ x ∈ s.held.take count, ∀ y ∈ s.other, R x y) :
    (s.takeHeld count).Going R P where
  within := by
    rw [all_takeHeld]
    exact h.within
  held := by
    simpa [Merging.takeHeld] using h.held
  other := by
    have hheld := h.held
    rw [← List.take_append_drop count s.held, ← List.append_assoc] at hheld
    have hother := pairwise_between (List.pairwise_append.1 hheld).1 h.other hfirst
    simpa [Merging.takeHeld] using hother
  last x hx := by
    refine h.last x ?_
    rw [Merging.takeHeld, List.getLast?_drop] at hx
    split at hx
    · contradiction
    · exact hx

theorem Going.takeOther (h : s.Going R P) (hfirst : ∀ x ∈ s.other.take count, ∀ y ∈ s.held, R x y) :
    (s.takeOther count).Going R P where
  within x hx := h.within x ((all_takeOther s count).mem_iff.1 hx)
  held := by
    have hother := h.other
    rw [← List.take_append_drop count s.other, ← List.append_assoc] at hother
    have hheld := pairwise_between (List.pairwise_append.1 hother).1 h.held hfirst
    simpa [Merging.takeOther] using hheld
  other := by
    simpa [Merging.takeOther] using h.other
  last x hx y hy := h.last x hx y (List.mem_of_mem_drop hy)

theorem Going.result (h : s.Going R P) (hover : s.isOver = true) : s.result.Pairwise R := by
  obtain ⟨held, other, done, patience⟩ := s
  match held, other with
  | [], other => simpa [Merging.result] using h.other
  | [x], other =>
    have hlast := pairwise_between h.other h.held fun y hy x' hx => by
      obtain rfl := List.mem_singleton.1 hx
      exact h.last x' rfl y hy
    simpa [Merging.result] using hlast
  | x :: x' :: held, [] => simpa [Merging.result] using h.held
  | _ :: _ :: _, _ :: _ => contradiction

theorem isOver_of_held (h : s.held = []) : s.isOver = true := by
  rw [isOver, h]

theorem isOver_of_other (h : s.other = []) : s.isOver = true := by
  rw [isOver, h]
  split
  · contradiction
  · rfl

/-- A step leaves merging going with the same elements, and unless it is over with fewer of them left. -/
structure Steps (R : α → α → Prop) (P : α → Prop) (s s' : Merging α) : Prop where
  going : s'.Going R P
  all : s'.all.Perm s.all
  fewer : s'.isOver = true ∨ s'.left < s.left

theorem Steps.trans {s₁ : Merging α} (h : Steps R P s s₁) (h' : Steps R P s₁ s') (hover : s₁.isOver ≠ true) :
    Steps R P s s' :=
  ⟨h'.going, h'.all.trans h.all, h'.fewer.imp_right fun hfewer => Nat.lt_trans hfewer (h.fewer.resolve_left hover)⟩

structure Ends (R : α → α → Prop) (P : α → Prop) (s s' : Merging α) : Prop where
  going : s'.Going R P
  all : s'.all.Perm s.all
  ended : s'.isOver = true

end Merging

namespace Side
open Merging

variable {side : Side α} {s s' : Merging α}

theorem before_run {next x : α} {rest : List α} (htrans : ∀ {a b c}, R a b → R b c → R a c)
    (hrun : (next :: rest).Pairwise R) (hx : R x next) : ∀ y ∈ next :: rest, R x y :=
  List.forall_mem_cons.2 ⟨hx, fun y hy => htrans hx ((List.pairwise_cons.1 hrun).1 y hy)⟩

theorem steps_lookAtHeld (hfits : side.Fits R P) (htrans : ∀ {a b c}, R a b → R b c → R a c) (h : s.Going R P) :
    Steps R P s (side.lookAtHeld s).2 := by
  unfold lookAtHeld
  split
  · next hother => exact ⟨h, .refl _, .inl (isOver_of_other hother)⟩
  · next next rest hother =>
    have hheld : ∀ x ∈ s.held, P x := fun x hx => h.within x (by simp [all, hx])
    have hnext : P next := h.within next (by simp [all, hother])
    have hrun : (next :: rest).Pairwise R := hother ▸ (List.pairwise_append.1 h.other).2.1
    obtain ⟨hwins, hrest⟩ := hfits.heldWins hheld hnext (List.pairwise_append.1 h.held).2.1
    have htaken : (s.takeHeld (side.heldWins s.held next)).Going R P :=
      h.takeHeld fun x hx => hother ▸ before_run htrans hrun (hwins x hx)
    simp only
    split
    · next hover => exact ⟨htaken, .of_eq (all_takeHeld ..), .inl hover⟩
    · refine ⟨htaken.takeOther fun x hx y hy => ?_, (all_takeOther ..).trans (.of_eq (all_takeHeld ..)), .inr ?_⟩
      · obtain rfl : x = next := by simpa [Merging.takeHeld, hother] using hx
        exact hrest y hy
      · simp only [left, Merging.takeHeld, Merging.takeOther, List.length_drop, hother, List.length_cons]
        omega

theorem steps_lookAtOther (hfits : side.Fits R P) (htrans : ∀ {a b c}, R a b → R b c → R a c) (h : s.Going R P) :
    Steps R P s (side.lookAtOther s).2 := by
  unfold lookAtOther
  split
  · next hheld => exact ⟨h, .refl _, .inl (isOver_of_held hheld)⟩
  · next next rest hheld =>
    have hother : ∀ x ∈ s.other, P x := fun x hx => h.within x (by simp [all, hx])
    have hnext : P next := h.within next (by simp [all, hheld])
    have hrun : (next :: rest).Pairwise R := hheld ▸ (List.pairwise_append.1 h.held).2.1
    obtain ⟨hwins, hrest⟩ := hfits.othersWin hother hnext (List.pairwise_append.1 h.other).2.1
    have htaken : (s.takeOther (side.othersWin s.other next)).Going R P :=
      h.takeOther fun x hx => hheld ▸ before_run htrans hrun (hwins x hx)
    simp only
    split
    · next hover => exact ⟨htaken, all_takeOther .., .inl hover⟩
    · refine ⟨htaken.takeHeld fun x hx y hy => ?_, (List.Perm.of_eq (all_takeHeld ..)).trans (all_takeOther ..), .inr ?_⟩
      · obtain rfl : x = next := by simpa [Merging.takeOther, hheld] using hx
        exact hrest y hy
      · simp only [left, Merging.takeHeld, Merging.takeOther, List.length_drop, hheld, List.length_cons]
        omega

theorem steps_compare (hfits : side.Fits R P) (htrans : ∀ {a b c}, R a b → R b c → R a c) (h : s.Going R P) {x y : α}
    {held other : List α} (hheld : s.held = x :: held) (hother : s.other = y :: other) :
    Steps R P s (if side.otherWins x y then s.takeOther 1 else s.takeHeld 1) := by
  have hx : P x := h.within x (by simp [all, hheld])
  have hy : P y := h.within y (by simp [all, hother])
  have hheldRun : (x :: held).Pairwise R := hheld ▸ (List.pairwise_append.1 h.held).2.1
  have hotherRun : (y :: other).Pairwise R := hother ▸ (List.pairwise_append.1 h.other).2.1
  split
  · next hwins =>
    refine ⟨h.takeOther fun z hz => ?_, all_takeOther .., .inr ?_⟩
    · obtain rfl : z = y := by simpa [hother] using hz
      exact hheld ▸ before_run htrans hheldRun (hfits.otherFirst hx hy hwins)
    · simp only [left, Merging.takeOther, List.length_drop, hother, List.length_cons]
      omega
  · next hwins =>
    refine ⟨h.takeHeld fun z hz => ?_, .of_eq (all_takeHeld ..), .inr ?_⟩
    · obtain rfl : z = x := by simpa [hheld] using hz
      exact hother ▸ before_run htrans hotherRun (hfits.heldFirst hx hy (Bool.eq_false_iff.2 hwins))
    · simp only [left, Merging.takeHeld, List.length_drop, hheld, List.length_cons]
      omega

theorem steps_look (hfits : side.Fits R P) (htrans : ∀ {a b c}, R a b → R b c → R a c) (h : s.Going R P) (b : Bool) :
    Steps R P s (if b then side.lookAtHeld s else side.lookAtOther s).2 ∧
      Steps R P s (if b then side.lookAtOther s else side.lookAtHeld s).2 := by
  have hheld := steps_lookAtHeld hfits htrans h
  have hother := steps_lookAtOther hfits htrans h
  cases b with
  | true => exact ⟨hheld, hother⟩
  | false => exact ⟨hother, hheld⟩

def Finishes (R : α → α → Prop) (P : α → Prop) (side : Side α) (fuel : Nat) : Prop :=
  ∀ (wins : Option (Nat × Nat)) (s : Merging α), s.Going R P → s.left ≤ fuel → Ends R P s (side.advance fuel wins s)

variable {fuel : Nat}

/-- How patient merging is has no part in what it does with the elements. -/
theorem Finishes.goOn (h : Finishes R P side fuel) (hfuel : s.left ≤ fuel + 1) (wins : Option (Nat × Nat))
    (patience : Nat) (hsteps : Steps R P s s') (hover : s'.isOver ≠ true) :
    Ends R P s (side.advance fuel wins { s' with patience }) := by
  have hfewer : s'.left < s.left := hsteps.fewer.resolve_left hover
  have hends := h wins { s' with patience }
    ⟨hsteps.going.within, hsteps.going.held, hsteps.going.other, hsteps.going.last⟩
    (Nat.le_of_lt_succ (Nat.lt_of_lt_of_le hfewer hfuel))
  exact ⟨hends.going, hends.all.trans hsteps.all, hends.ended⟩

theorem Finishes.galloping (h : Finishes R P side fuel) (hfits : side.Fits R P)
    (htrans : ∀ {a b c}, R a b → R b c → R a c) (hs : s.Going R P) (hfuel : s.left ≤ fuel + 1) :
    Ends R P s (side.advance (fuel + 1) none s) := by
  have hfirst := (steps_look hfits htrans hs side.heldFirst).1
  rw [advance]
  rcases hlook : (if side.heldFirst then side.lookAtHeld s else side.lookAtOther s) with ⟨first, s₁⟩
  rw [hlook] at hfirst
  simp only
  split
  · next hover => exact ⟨hfirst.going, hfirst.all, hover⟩
  · next hover₁ =>
    have hsecond := (steps_look hfits htrans hfirst.going side.heldFirst).2
    rcases hlook : (if side.heldFirst then side.lookAtOther s₁ else side.lookAtHeld s₁) with ⟨second, s₂⟩
    rw [hlook] at hsecond
    simp only
    have hboth : Steps R P s s₂ := hfirst.trans hsecond hover₁
    split
    · next hover => exact ⟨hboth.going, hboth.all, hover⟩
    · next hover =>
      split
      · exact h.goOn hfuel none _ hboth hover
      · exact h.goOn hfuel (some (0, 0)) _ hboth hover

theorem Finishes.comparing (h : Finishes R P side fuel) (hfits : side.Fits R P)
    (htrans : ∀ {a b c}, R a b → R b c → R a c) (hs : s.Going R P) (hfuel : s.left ≤ fuel + 1) (held others : Nat) :
    Ends R P s (side.advance (fuel + 1) (some (held, others)) s) := by
  rw [advance]
  split
  · next x x' heldRest y otherRest hheld hother =>
    have hcompare := steps_compare hfits htrans hs hheld hother
    cases hwins : side.otherWins x y with
    | true =>
      rw [if_pos hwins] at hcompare
      simp only [if_true]
      split
      · next hover => exact ⟨hcompare.going, hcompare.all, hover⟩
      · next hover => exact h.goOn hfuel _ _ hcompare hover
    | false =>
      rw [hwins] at hcompare
      simp only [Bool.false_eq_true, if_false] at hcompare ⊢
      split
      · next hover => exact ⟨hcompare.going, hcompare.all, hover⟩
      · next hover => exact h.goOn hfuel _ _ hcompare hover
  · next hnone =>
    refine ⟨hs, .refl _, ?_⟩
    rw [isOver]
    split
    · next hheld hother => exact (hnone _ _ _ _ _ hheld hother).elim
    · rfl

/-- As many steps as there are elements left bring merging to its end. -/
theorem finishes (hfits : side.Fits R P) (htrans : ∀ {a b c}, R a b → R b c → R a c) (fuel : Nat) :
    Finishes R P side fuel := by
  induction fuel with
  | zero =>
    intro wins s hs hfuel
    have hheld : s.held = [] := by
      have hnone : s.held.length + s.other.length ≤ 0 := hfuel
      exact List.length_eq_zero_iff.1 (by omega)
    rw [advance]
    exact ⟨hs, .refl _, isOver_of_held hheld⟩
  | succ fuel ih =>
    rintro (_ | ⟨held, others⟩) s hs hfuel
    · exact ih.galloping hfits htrans hs hfuel
    · exact ih.comparing hfits htrans hs hfuel held others

theorem ends_merge (hfits : side.Fits R P) (htrans : ∀ {a b c}, R a b → R b c → R a c) (h : s.Going R P)
    (hfirst : ∀ x ∈ s.other.take 1, ∀ y ∈ s.held, R x y) : Ends R P s (side.merge s) := by
  have htaken := h.takeOther hfirst
  unfold merge
  simp only
  split
  · next hover => exact ⟨htaken, all_takeOther .., hover⟩
  · have hends := finishes hfits htrans _ (some (0, 0)) _ htaken (Nat.le_refl _)
    exact ⟨hends.going, hends.all.trans (all_takeOther ..), hends.ended⟩

end Side

/-! Two runs. -/

/-- Two runs that are in order, of which the first one ends behind the second one and begins behind it. -/
structure Overlap (R : α → α → Prop) (a b : List α) : Prop where
  left : a.Pairwise R
  right : b.Pairwise R
  last : ∀ x, a.getLast? = some x → ∀ y ∈ b, R y x
  first : ∀ y, b.head? = some y → ∀ x ∈ a, R y x

theorem head?_of_mem_take {x : α} {xs : List α} (h : x ∈ xs.take 1) : xs.head? = some x := by
  cases xs with
  | nil => simp at h
  | cons y xs => simpa [eq_comm] using h

theorem merge_front (h : Orders precedes P) {a b : List α} (hP : ∀ x ∈ a ++ b, P x)
    (hoverlap : Overlap (InOrder precedes P) a b) (patience : Nat) :
    let merged := ((Side.front precedes).merge { held := a, other := b, patience }).result
    merged.Perm (a ++ b) ∧ merged.Pairwise (InOrder precedes P) := by
  have hgoing : Merging.Going (InOrder precedes P) P { held := a, other := b, patience } :=
    ⟨hP, hoverlap.left, hoverlap.right, hoverlap.last⟩
  have hends := Side.ends_merge (fits_front h) h.inOrder_trans hgoing fun x hx =>
    hoverlap.first x (head?_of_mem_take hx)
  exact ⟨(Merging.perm_result _).trans hends.all, hends.going.result hends.ended⟩

theorem merge_back (h : Orders precedes P) {a b : List α} (hP : ∀ x ∈ a ++ b, P x)
    (hoverlap : Overlap (InOrder precedes P) a b) (patience : Nat) :
    let merged := ((Side.back precedes).merge { held := b.reverse, other := a.reverse, patience }).result.reverse
    merged.Perm (a ++ b) ∧ merged.Pairwise (InOrder precedes P) := by
  have hreverse : (b.reverse ++ a.reverse).Perm (a ++ b) := by
    rw [← List.reverse_append]
    exact List.reverse_perm _
  have hgoing : Merging.Going (fun x y => InOrder precedes P y x) P
      { held := b.reverse, other := a.reverse, patience } := by
    refine ⟨fun x hx => hP x (hreverse.mem_iff.1 hx), List.pairwise_reverse.2 hoverlap.right,
      List.pairwise_reverse.2 hoverlap.left, fun x hx y hy => ?_⟩
    exact hoverlap.first x (by simpa using hx) y (List.mem_reverse.1 hy)
  have hends := Side.ends_merge (fits_back h) (fun hab hbc => h.inOrder_trans hbc hab) hgoing fun x hx y hy => by
    have hlast := head?_of_mem_take hx
    rw [List.head?_reverse] at hlast
    exact hoverlap.last x hlast y (List.mem_reverse.1 hy)
  refine ⟨((List.reverse_perm _).trans (Merging.perm_result _)).trans (hends.all.trans hreverse), ?_⟩
  exact List.pairwise_reverse.2 (hends.going.result hends.ended)

theorem eq_or_rel_getLast {x last : α} {run : List α} (hrun : run.Pairwise R) (hlast : run.getLast? = some last)
    (hx : x ∈ run) : x = last ∨ R x last := by
  obtain ⟨init, rfl⟩ := List.getLast?_eq_some_iff.1 hlast
  rcases List.mem_append.1 hx with hx | hx
  · exact .inr ((List.pairwise_append.1 hrun).2.2 x hx last (by simp))
  · exact .inl (List.mem_singleton.1 hx)

/-- Two runs in parts: only the middle parts overlap, the front may stand before the whole second run, and the rest of
that behind the whole first one. -/
structure Parted (R : α → α → Prop) (front a b behind : List α) : Prop where
  left : (front ++ a).Pairwise R
  right : (b ++ behind).Pairwise R
  front : ∀ x ∈ front, ∀ y ∈ b ++ behind, R x y
  behind : ∀ x ∈ a, ∀ y ∈ behind, R x y
  overlap : Overlap R a b

/-- Where galloping parts two runs, their ends are in place already. -/
theorem Orders.parted (h : Orders precedes P) {a rest : List α} {first last : α} {start stop : Nat}
    (haRun : a.Pairwise (InOrder precedes P)) (hbRun : (first :: rest).Pairwise (InOrder precedes P))
    (htake : ∀ x ∈ a.take start, InOrder precedes P x first) (hdrop : ∀ x ∈ a.drop start, InOrder precedes P first x)
    (hlast : (a.drop start).getLast? = some last)
    (hbefore : ∀ y ∈ (first :: rest).take stop, InOrder precedes P y last)
    (hafter : ∀ y ∈ (first :: rest).drop stop, InOrder precedes P last y) :
    Parted (InOrder precedes P) (a.take start) (a.drop start) ((first :: rest).take stop)
      ((first :: rest).drop stop) := by
  have haDrop : (a.drop start).Pairwise (InOrder precedes P) := haRun.drop
  refine ⟨?_, ?_, fun x hx => ?_, fun x hx y hy => ?_, haDrop, hbRun.take, fun x hx => ?_, fun y hy => ?_⟩
  · rwa [List.take_append_drop]
  · rwa [List.take_append_drop]
  · rw [List.take_append_drop]
    exact Side.before_run h.inOrder_trans hbRun (htake x hx)
  · rcases eq_or_rel_getLast haDrop hlast hx with rfl | hxlast
    · exact hafter y hy
    · exact h.inOrder_trans hxlast (hafter y hy)
  · obtain rfl : last = x := Option.some.inj (hlast.symm.trans hx)
    exact hbefore
  · rw [List.head?_take] at hy
    split at hy
    · contradiction
    · obtain rfl : first = y := Option.some.inj hy
      exact hdrop

theorem Parted.around {front a b behind merged : List α} (h : Parted R front a b behind)
    (hmerged : merged.Perm (a ++ b) ∧ merged.Pairwise R) :
    (front ++ merged ++ behind).Perm (front ++ a ++ (b ++ behind)) ∧ (front ++ merged ++ behind).Pairwise R := by
  obtain ⟨hperm, hrun⟩ := hmerged
  have ha := List.pairwise_append.1 h.left
  have hb := List.pairwise_append.1 h.right
  refine ⟨?_, ?_⟩
  · have hmiddle := (hperm.append_left front).append_right behind
    simpa using hmiddle
  · rw [List.append_assoc, List.pairwise_append, List.pairwise_append]
    refine ⟨ha.1, ⟨hrun, hb.2.1, fun x hx y hy => ?_⟩, fun x hx y hy => ?_⟩
    · exact (List.mem_append.1 (hperm.mem_iff.1 hx)).elim (h.behind x · y hy) (hb.2.2 x · y hy)
    · rcases List.mem_append.1 hy with hy | hy
      · exact (List.mem_append.1 (hperm.mem_iff.1 hy)).elim (ha.2.2 x hx y) fun hmem =>
          h.front x hx y (List.mem_append_left _ hmem)
      · exact h.front x hx y (List.mem_append_right _ hy)

theorem Parted.append {front a behind : List α} (h : Parted R front a [] behind) :
    (front ++ a ++ behind).Pairwise R :=
  (h.around ⟨by simp, h.overlap.left⟩).2

theorem mergeRuns_spec (h : Orders precedes P) {a b : List α} (ha : ∀ x ∈ a, P x) (hb : ∀ x ∈ b, P x)
    (haRun : a.Pairwise (InOrder precedes P)) (hbRun : b.Pairwise (InOrder precedes P)) (patience : Nat) :
    let merged := ((mergeRuns precedes a b).run patience).1
    merged.Perm (a ++ b) ∧ merged.Pairwise (InOrder precedes P) := by
  cases b with
  | nil => simpa [mergeRuns, StateT.run] using haRun
  | cons first rest =>
    obtain ⟨htake, hdrop⟩ := h.gallop_after ha (hb first List.mem_cons_self) haRun tells_any List.length_pos_iff.2
    simp only [mergeRuns, StateT.run]
    generalize gallop (fun i => a[i]?.any (precedes first)) a.length 0 = start at *
    have haCut : a.take start ++ a.drop start = a := List.take_append_drop start a
    split
    · next hnone =>
      rw [List.getLast?_eq_none_iff.1 hnone, List.append_nil] at haCut
      rw [haCut] at htake
      exact ⟨.refl _, List.pairwise_append.2 ⟨haRun, hbRun, fun x hx =>
        Side.before_run h.inOrder_trans hbRun (htake x hx)⟩⟩
    · next last hlast =>
      have hlastP : P last := ha last (List.mem_of_mem_drop (List.mem_of_getLast? hlast))
      have hhint : first :: rest ≠ [] → (first :: rest).length - 1 < (first :: rest).length := fun _ => by simp
      obtain ⟨hbefore, hafter⟩ := h.gallop_from hb hlastP hbRun tells_not_any hhint
      generalize gallop (fun i => !(first :: rest)[i]?.any fun x => precedes x last) (first :: rest).length
        ((first :: rest).length - 1) = stop at *
      have hparted := h.parted haRun hbRun htake hdrop hlast hbefore hafter
      have hbCut : (first :: rest).take stop ++ (first :: rest).drop stop = first :: rest := List.take_append_drop ..
      split
      · next hempty =>
        rw [List.isEmpty_iff] at hempty
        rw [hempty] at hparted
        rw [hempty, List.nil_append] at hbCut
        have happend := hparted.append
        rw [haCut, hbCut] at happend
        exact ⟨.refl _, happend⟩
      · have hP : ∀ x ∈ a.drop start ++ (first :: rest).take stop, P x := fun x hx => (List.mem_append.1 hx).elim
          (fun hx => ha x (List.mem_of_mem_drop hx)) fun hx => hb x (List.mem_of_mem_take hx)
        have hmerged := merge_front h hP hparted.overlap patience
        have hmerged' := merge_back h hP hparted.overlap patience
        have haround := hparted.around hmerged
        have haround' := hparted.around hmerged'
        rw [haCut, hbCut] at haround haround'
        split
        · exact haround
        · exact haround'

end Rehost.Sort
