import Rehost.Sort.Place

/-! The place at which a list in order falls in two. Where what lies behind stays behind, halving finds just that place,
and so do growing steps from any hint within the list. -/
namespace Rehost.Sort

/-- Once behind, always behind. -/
def Lasting (isBehind : Nat → Bool) (size : Nat) : Prop :=
  ∀ i j, i ≤ j → j < size → isBehind i = true → isBehind j = true

structure BeginsAt (isBehind : Nat → Bool) (size place : Nat) : Prop where
  le : place ≤ size
  before : ∀ i < place, isBehind i = false
  behind : ∀ i, place ≤ i → i < size → isBehind i = true

variable {isBehind : Nat → Bool} {size : Nat}

theorem Lasting.before (h : Lasting isBehind size) {i j : Nat} (hij : i ≤ j) (hj : j < size)
    (hbefore : isBehind j = false) : isBehind i = false := by
  cases hi : isBehind i with
  | false => rfl
  | true => exact (h i j hij hj hi).symm.trans hbefore

theorem beginsAt_halve (h : Lasting isBehind size) {low high : Nat} (hle : low ≤ high) (hhigh : high ≤ size)
    (hbefore : ∀ i < low, isBehind i = false) (hbehind : ∀ i, high ≤ i → i < size → isBehind i = true) :
    BeginsAt isBehind size (halve isBehind low high) := by
  fun_induction halve isBehind low high with
  | case1 low high hlt middle hmiddle ih =>
    refine ih (by omega) (by omega) hbefore fun i hi hsize => ?_
    exact h middle i hi hsize hmiddle
  | case2 low high hlt middle hmiddle ih =>
    refine ih (by omega) hhigh (fun i hi => ?_) hbehind
    exact h.before (Nat.lt_succ_iff.1 hi) (by omega) (Bool.eq_false_iff.2 hmiddle)
  | case3 low high hlt =>
    obtain rfl : low = high := by omega
    exact ⟨hhigh, hbefore, hbehind⟩

theorem widen_spec {goesOn : Nat → Bool} {limit near far : Nat} (hnear : goesOn near = true) (hlt : near < far)
    (hlimit : near < limit) :
    let (near, far) := widen goesOn limit near far
    goesOn near = true ∧ near < far ∧ far ≤ limit ∧ (far = limit ∨ goesOn far = false) := by
  fun_induction widen goesOn limit near far with
  | case1 near far hfar hgoes ih => exact ih hgoes (by omega) hfar
  | case2 near far hfar hgoes => exact ⟨hnear, hlt, Nat.le_of_lt hfar, .inr (Bool.eq_false_iff.2 hgoes)⟩
  | case3 near far hfar => exact ⟨hnear, hlimit, Nat.le_refl _, .inl rfl⟩

theorem beginsAt_gallop (h : Lasting isBehind size) {hint : Nat} (hhint : hint < size) :
    BeginsAt isBehind size (gallop isBehind size hint) := by
  unfold gallop
  split
  · next hbehind =>
    have hspec := @widen_spec (fun step => isBehind (hint - step)) (hint + 1) 0 1 hbehind (by omega) (by omega)
    rcases hwiden : widen (fun step => isBehind (hint - step)) (hint + 1) 0 1 with ⟨near, far⟩
    rw [hwiden] at hspec
    obtain ⟨hnear, hlt, hfar, hend⟩ := hspec
    refine beginsAt_halve h (by omega) (by omega) (fun i hi => ?_) fun i hi hsize => ?_
    · rcases hend with rfl | hend
      · omega
      · exact h.before (by omega) (by omega) hend
    · exact h _ i hi hsize hnear
  · next hbefore =>
    have hspec := @widen_spec (fun step => !isBehind (hint + step)) (size - hint) 0 1 (by simpa using hbefore)
      (by omega) (by omega)
    rcases hwiden : widen (fun step => !isBehind (hint + step)) (size - hint) 0 1 with ⟨near, far⟩
    rw [hwiden] at hspec
    obtain ⟨hnear, hlt, hfar, hend⟩ := hspec
    refine beginsAt_halve h (by omega) (by omega) (fun i hi => ?_) fun i hi hsize => ?_
    · have hbefore : isBehind (hint + near) = false := by simpa using hnear
      exact h.before (by omega) (by omega) hbefore
    · rcases hend with rfl | hend
      · omega
      · exact h _ i hi hsize (by simpa using hend)

/-! Places in a list. -/

variable {α : Type} {run : List α} {behind : α → Bool}

def Tells (isBehind : Nat → Bool) (behind : α → Bool) (run : List α) : Prop :=
  ∀ i (h : i < run.length), isBehind i = behind run[i]

theorem Tells.lasting (h : Tells isBehind behind run)
    (hrun : run.Pairwise fun x y => behind x = true → behind y = true) : Lasting isBehind run.length := by
  intro i j hij hj hi
  rcases Nat.lt_or_eq_of_le hij with hlt | rfl
  · rw [h i (by omega)] at hi
    rw [h j hj]
    exact List.pairwise_iff_getElem.1 hrun i j (by omega) hj hlt hi
  · exact hi

theorem BeginsAt.divides {place : Nat} (h : BeginsAt isBehind run.length place) (htells : Tells isBehind behind run) :
    (∀ x ∈ run.take place, behind x = false) ∧ ∀ x ∈ run.drop place, behind x = true := by
  constructor
  · intro x hx
    obtain ⟨i, hi, rfl⟩ := List.mem_take_iff_getElem.1 hx
    rw [← htells i (by omega)]
    exact h.before i (by omega)
  · intro x hx
    obtain ⟨i, hi, rfl⟩ := List.mem_drop_iff_getElem.1 hx
    rw [← htells (place + i) (by omega)]
    exact h.behind (place + i) (by omega) (by omega)

theorem gallop_divides (htells : Tells isBehind behind run)
    (hrun : run.Pairwise fun x y => behind x = true → behind y = true) {hint : Nat} (hhint : run ≠ [] → hint < run.length) :
    (∀ x ∈ run.take (gallop isBehind run.length hint), behind x = false) ∧
      ∀ x ∈ run.drop (gallop isBehind run.length hint), behind x = true := by
  cases run with
  | nil => simp
  | cons x run => exact (beginsAt_gallop (htells.lasting hrun) (hhint (by simp))).divides htells

end Rehost.Sort
