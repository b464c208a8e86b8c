import Mathlib.Data.List.Chain
import Rehost.Proofs.Sort.Merge
import Rehost.Sort.Run

/-! What sorting by runs comes to. Every run is in order from the moment it is cut off, by the way it is cut off and
filled up, and stays so when it is merged with its neighbours, whenever that is. No element is lost, so among elements
that have an order the outcome is the list in order. -/
namespace Rehost.Sort

variable {α : Type} {precedes : α → α → Bool} {P : α → Prop} {xs ys run a b : List α} {x : α}

structure Ordered (precedes : α → α → Bool) (P : α → Prop) (run : List α) : Prop where
  within : ∀ x ∈ run, P x
  order : run.Pairwise (InOrder precedes P)

/-! Cutting a run off. -/

theorem isChain_runLength (goesOn : α → α → Bool) (xs : List α) :
    (xs.take (runLength goesOn xs)).IsChain fun a b => goesOn a b = true := by
  fun_induction runLength goesOn xs with
  | case1 => simp
  | case2 => simp
  | case3 x y xs hgoes ih =>
    rcases hlength : runLength goesOn (y :: xs) with _ | length
    · simp
    · rw [hlength, List.take_succ_cons] at ih
      rw [List.take_succ_cons, List.take_succ_cons]
      exact .cons_cons hgoes ih
  | case4 x y xs hgoes => simp

theorem runLength_pos (goesOn : α → α → Bool) (x : α) (xs : List α) : 0 < runLength goesOn (x :: xs) := by
  cases xs with
  | nil => simp [runLength]
  | cons y xs =>
    rw [runLength]
    split <;> simp

theorem pairwise_runLength {goesOn : α → α → Bool} {R : α → α → Prop} (htrans : ∀ {a b c}, R a b → R b c → R a c)
    (h : ∀ a ∈ xs, ∀ b ∈ xs, goesOn a b = true → R a b) : (xs.take (runLength goesOn xs)).Pairwise R := by
  have : Trans R R R := ⟨htrans⟩
  refine ((isChain_runLength goesOn xs).imp_of_mem_imp fun a b ha hb hgoes => ?_).pairwise
  exact h a (List.mem_of_mem_take ha) b (List.mem_of_mem_take hb) hgoes

theorem perm_insertInto (precedes : α → α → Bool) (run : List α) (x : α) :
    (insertInto precedes run x).Perm (x :: run) := by
  unfold insertInto
  refine List.perm_middle.trans (.cons x ?_)
  rw [List.take_append_drop]

theorem Ordered.insertInto (h : Orders precedes P) (hrun : Ordered precedes P run) (hx : P x) :
    Ordered precedes P (insertInto precedes run x) where
  within y hy := by
    rcases List.mem_cons.1 ((perm_insertInto precedes run x).mem_iff.1 hy) with rfl | hy
    · exact hx
    · exact hrun.within y hy
  order := by
    have hbegins := beginsAt_halve (tells_any.lasting (h.lasting_after hx hrun.order)) (Nat.zero_le run.length)
      (Nat.le_refl _) (fun i hi => absurd hi (Nat.not_lt_zero i)) fun i hi hlt => absurd hlt (Nat.not_lt.2 hi)
    obtain ⟨hbefore, hbehind⟩ := hbegins.divides tells_any
    unfold Sort.insertInto
    generalize halve (fun i => run[i]?.any (precedes x)) 0 run.length = place at *
    have htake : ∀ y ∈ run.take place, InOrder precedes P y x := fun y hy =>
      ⟨hrun.within y (List.mem_of_mem_take hy), hx, hbefore y hy⟩
    have hdrop : ∀ y ∈ run.drop place, InOrder precedes P x y := fun y hy =>
      h.inOrder_of_precedes hx (hrun.within y (List.mem_of_mem_drop hy)) (hbehind y hy)
    refine List.pairwise_append.2 ⟨hrun.order.take, List.pairwise_cons.2 ⟨hdrop, hrun.order.drop⟩, fun y hy z hz => ?_⟩
    rcases List.mem_cons.1 hz with rfl | hz
    · exact htake y hy
    · exact h.inOrder_trans (htake y hy) (hdrop z hz)

theorem Ordered.insertAll (h : Orders precedes P) (hrun : Ordered precedes P run) (hys : ∀ y ∈ ys, P y) :
    Ordered precedes P (ys.foldl (Sort.insertInto precedes) run) ∧
      (ys.foldl (Sort.insertInto precedes) run).Perm (run ++ ys) := by
  induction ys generalizing run with
  | nil => simpa using hrun
  | cons y ys ih =>
    obtain ⟨hy, hys⟩ := List.forall_mem_cons.1 hys
    obtain ⟨hordered, hperm⟩ := ih (hrun.insertInto h hy) hys
    refine ⟨hordered, hperm.trans ?_⟩
    exact ((perm_insertInto precedes run y).append_right ys).trans List.perm_middle.symm

theorem ordered_front (h : Orders precedes P) (hxs : ∀ x ∈ xs, P x) (falls : Bool) :
    Ordered precedes P (if falls then (xs.take (runLength (fun a b => precedes b a == falls) xs)).reverse
      else xs.take (runLength (fun a b => precedes b a == falls) xs)) := by
  cases falls with
  | true =>
    refine ⟨fun x hx => hxs x (List.mem_of_mem_take (List.mem_reverse.1 hx)), List.pairwise_reverse.2 ?_⟩
    refine pairwise_runLength (fun hab hbc => h.inOrder_trans hbc hab) fun a ha b hb hgoes => ?_
    exact h.inOrder_of_precedes (hxs b hb) (hxs a ha) (by simpa using hgoes)
  | false =>
    refine ⟨fun x hx => hxs x (List.mem_of_mem_take hx), pairwise_runLength h.inOrder_trans fun a ha b hb hgoes => ?_⟩
    exact ⟨hxs a ha, hxs b hb, by simpa using hgoes⟩

/-- A run is cut off in order, with as much as there is behind it, and only from nothing it is empty. -/
theorem splitRun_spec (h : Orders precedes P) (hxs : ∀ x ∈ xs, P x) (least : Nat) :
    let cut := splitRun precedes least xs
    Ordered precedes P cut.1 ∧ (cut.1 ++ cut.2).Perm xs ∧ (cut.1 = [] → xs = []) := by
  match xs with
  | [] => exact ⟨⟨hxs, .nil⟩, .refl _, id⟩
  | [x] => exact ⟨⟨hxs, List.pairwise_singleton _ _⟩, .refl _, id⟩
  | x :: y :: xs =>
    simp only [splitRun]
    have hfront := ordered_front h hxs (precedes y x)
    have hpos := runLength_pos (fun a b => precedes b a == precedes y x) x (y :: xs)
    generalize runLength (fun a b => precedes b a == precedes y x) (x :: y :: xs) = length at *
    generalize hall : x :: y :: xs = all at *
    have hfrontPerm : (if precedes y x then (all.take length).reverse else all.take length).Perm (all.take length) := by
      split
      · exact List.reverse_perm _
      · exact .refl _
    generalize (if precedes y x then (all.take length).reverse else all.take length) = front at *
    have hfill : ∀ y ∈ (all.drop length).take (least - length), P y := fun y hy =>
      hxs y (List.mem_of_mem_drop (List.mem_of_mem_take hy))
    obtain ⟨hordered, hperm⟩ := hfront.insertAll h hfill
    refine ⟨hordered, ?_, fun hempty => ?_⟩
    · refine (hperm.append_right _).trans ?_
      rw [List.append_assoc, List.take_append_drop]
      refine (hfrontPerm.append_right _).trans ?_
      rw [List.take_append_drop]
    · have hnone := hperm.length_eq
      have htaken := hfrontPerm.length_eq
      simp only [hempty, List.length_nil, List.length_append, List.length_take] at hnone htaken
      have hlong : 0 < all.length := by simp [← hall]
      omega

/-! Merging runs. -/

theorem Ordered.mergeRuns (h : Orders precedes P) (ha : Ordered precedes P a) (hb : Ordered precedes P b)
    (patience : Nat) :
    let merged := ((mergeRuns precedes a b).run patience).1
    Ordered precedes P merged ∧ merged.Perm (a ++ b) := by
  obtain ⟨hperm, horder⟩ := mergeRuns_spec h ha.within hb.within ha.order hb.order patience
  refine ⟨⟨fun x hx => ?_, horder⟩, hperm⟩
  exact (List.mem_append.1 (hperm.mem_iff.1 hx)).elim (ha.within x) (hb.within x)

theorem perm_flatten_cons (waiting : List (List α)) {p merged : List α} (h : merged.Perm (p ++ run)) :
    (waiting.flatten ++ merged).Perm ((p :: waiting).flatten ++ run) := by
  refine (h.append_left _).trans ?_
  rw [List.flatten_cons, ← List.append_assoc]
  exact List.perm_append_comm.append_right _

theorem collapse_spec (h : Orders precedes P) (place : Nat) {waiting : List (Pending α)}
    (hwaiting : ∀ p ∈ waiting, Ordered precedes P p.run) (hrun : Ordered precedes P run) (patience : Nat) :
    let out := ((collapse precedes place waiting run).run patience).1
    (∀ p ∈ out.1, Ordered precedes P p.run) ∧ Ordered precedes P out.2 ∧
      ((out.1.map (·.run)).flatten ++ out.2).Perm ((waiting.map (·.run)).flatten ++ run) := by
  induction waiting generalizing run patience with
  | nil => exact ⟨hwaiting, hrun, .refl _⟩
  | cons p waiting ih =>
    obtain ⟨hp, hrest⟩ := List.forall_mem_cons.1 hwaiting
    rw [collapse]
    split
    · obtain ⟨hmerged, hperm⟩ := hp.mergeRuns h hrun patience
      obtain ⟨hleft, hout, hall⟩ := ih hrest hmerged ((mergeRuns precedes p.run run).run patience).2
      exact ⟨hleft, hout, hall.trans (perm_flatten_cons _ hperm)⟩
    · exact ⟨hwaiting, hrun, .refl _⟩

theorem finish_spec (h : Orders precedes P) {waiting : List (List α)} (hwaiting : ∀ p ∈ waiting, Ordered precedes P p)
    (hrun : Ordered precedes P run) (patience : Nat) :
    let out := ((finish precedes waiting run).run patience).1
    Ordered precedes P out ∧ out.Perm (waiting.flatten ++ run) := by
  induction waiting, run using finish.induct generalizing patience with
  | case1 run =>
    rw [finish]
    exact ⟨hrun, .refl _⟩
  | case2 p run =>
    rw [finish]
    simpa using (hwaiting p (by simp)).mergeRuns h hrun patience
  | case3 p q waiting run hlt ih =>
    obtain ⟨hp, hq, hrest⟩ : Ordered precedes P p ∧ Ordered precedes P q ∧ ∀ p ∈ waiting, Ordered precedes P p := by
      simpa using hwaiting
    obtain ⟨hmerged, hperm⟩ := hq.mergeRuns h hp patience
    rw [finish, if_pos hlt]
    obtain ⟨hout, hall⟩ := ih _ (List.forall_mem_cons.2 ⟨hmerged, hrest⟩) hrun ((mergeRuns precedes q p).run patience).2
    refine ⟨hout, hall.trans (List.Perm.append_right _ ?_)⟩
    rw [List.flatten_cons, List.flatten_cons, List.flatten_cons, ← List.append_assoc]
    exact (hperm.trans List.perm_append_comm).append_right _
  | case4 p q waiting run hlt ih =>
    obtain ⟨hp, hrest⟩ := List.forall_mem_cons.1 hwaiting
    obtain ⟨hmerged, hperm⟩ := hp.mergeRuns h hrun patience
    rw [finish, if_neg hlt]
    obtain ⟨hout, hall⟩ := ih _ hrest hmerged ((mergeRuns precedes p run).run patience).2
    exact ⟨hout, hall.trans (perm_flatten_cons _ hperm)⟩

theorem sortFrom_spec (h : Orders precedes P) (size least : Nat) {fuel start : Nat} {waiting : List (Pending α)}
    {rest : List α} (hwaiting : ∀ p ∈ waiting, Ordered precedes P p.run) (hrun : Ordered precedes P run)
    (hrest : ∀ x ∈ rest, P x) (hfuel : rest.length ≤ fuel) (patience : Nat) :
    let out := ((sortFrom precedes size least fuel start run waiting rest).run patience).1
    Ordered precedes P out ∧ out.Perm ((waiting.map (·.run)).flatten ++ run ++ rest) := by
  induction fuel generalizing start run waiting rest patience with
  | zero =>
    obtain rfl := List.length_eq_zero_iff.1 (Nat.le_zero.1 hfuel)
    rw [sortFrom, List.append_nil]
    exact finish_spec h (List.forall_mem_map.2 hwaiting) hrun patience
  | succ fuel ih =>
    cases rest with
    | nil =>
      rw [sortFrom, List.append_nil]
      · exact finish_spec h (List.forall_mem_map.2 hwaiting) hrun patience
      · simp
    | cons x rest =>
      obtain ⟨hnext, hcut, hsome⟩ := splitRun_spec h hrest least
      rw [sortFrom]
      · rcases hsplit : splitRun precedes least (x :: rest) with ⟨next, left⟩
        rw [hsplit] at hnext hcut hsome
        have hlength : next.length + left.length = rest.length + 1 := by simpa using hcut.length_eq
        -- the run that was cut off is not empty, so the steps at hand last for what is left
        have hnextLength : next.length ≠ 0 := by simpa using hsome
        have hfewer : left.length ≤ fuel := by
          rw [List.length_cons] at hfuel
          omega
        have hleft : ∀ x ∈ left, P x := fun x hx => hrest x (hcut.mem_iff.1 (List.mem_append_right _ hx))
        obtain ⟨hstill, hmerged, hall⟩ := collapse_spec h (meetingPlace size size (2 * start + run.length)
          (2 * start + run.length + run.length + next.length)) hwaiting hrun patience
        obtain ⟨hout, hperm⟩ := @ih next (start + run.length) (⟨_, _⟩ :: _) left
          (List.forall_mem_cons.2 ⟨hmerged, hstill⟩) hnext hleft hfewer _
        refine ⟨hout, hperm.trans ?_⟩
        rw [List.map_cons, List.flatten_cons, List.append_assoc]
        exact (List.perm_append_comm.trans hall).append hcut
      · simp

/-- Elements that have an order are sorted by it, and none is lost. -/
theorem sort_spec (h : Orders precedes P) (hxs : ∀ x ∈ xs, P x) :
    (sort precedes xs).Perm xs ∧ (sort precedes xs).Pairwise (InOrder precedes P) := by
  obtain ⟨hrun, hcut, -⟩ := splitRun_spec h hxs (leastRun xs.length 0)
  rcases hsplit : splitRun precedes (leastRun xs.length 0) xs with ⟨run, rest⟩
  rw [hsplit] at hrun hcut
  simp only [sort, hsplit]
  have hrest : ∀ x ∈ rest, P x := fun x hx => hxs x (hcut.mem_iff.1 (List.mem_append_right _ hx))
  obtain ⟨hout, hall⟩ := @sortFrom_spec _ _ _ run h xs.length (leastRun xs.length 0) rest.length 0 [] rest (by simp) hrun
    hrest (Nat.le_refl _) leastWins
  exact ⟨hall.trans hcut, hout.order⟩

end Rehost.Sort
