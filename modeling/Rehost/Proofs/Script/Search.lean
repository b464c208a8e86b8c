import Rehost.Proofs.Pattern.Scan
import Rehost.Proofs.Script.Wanted

/-! How a landmark is found. The search and the count are measured by the words of the landmark: the search fails
exactly where no word stands, it takes the first place otherwise, and the count goes on from the end of each match. -/
namespace Rehost
open Pattern

namespace Wanted

theorem nonempty (x : Wanted) : ¬ x.landmark.pattern.Denotes [] := by
  intro h
  have htoken : x.token = [] := by simpa using token_infix h
  exact x.token_nonempty (show ([] : Text) = x.token from htoken.symm)

theorem require_eq_error_iff (x : Wanted) (t stage : Text) (role : Absence.Role) :
    (∃ a, x.landmark.require t stage role = .error a) ↔ x.landmark.search? t = none := by
  cases h : x.landmark.search? t <;> simp [Landmark.require, h]

theorem require_eq_ok_iff (x : Wanted) (t stage : Text) (role : Absence.Role) (m : Match) :
    x.landmark.require t stage role = .ok m ↔ x.landmark.search? t = some m := by
  cases h : x.landmark.search? t <;> simp [Landmark.require, h]

/-- A search for a landmark finds nothing exactly where none of its words stands; otherwise it finds a word at the first
place where there is one. A landmark is missed exactly where the search fails. What is counted are the matches one
after another, each the first from the end of the one before, so the first of them is the one that is found, and there
are none exactly where nothing is found. -/
theorem search_leftmost (x : Wanted) (t : Text) :
    (x.landmark.search? t = none ↔ ¬ x.landmark.pattern.standsIn t) ∧
      (∀ m, x.landmark.search? t = some m →
        ∃ a w b, t = a ++ w ++ b ∧ x.landmark.pattern.Denotes w ∧ m.start = ⟨a.reverse, w ++ b⟩ ∧
          m.stop = ⟨(a ++ w).reverse, b⟩ ∧
          ∀ a' w' b', t = a' ++ w' ++ b' → x.landmark.pattern.Denotes w' → a.length ≤ a'.length) ∧
      (∀ stage role, (∃ a, x.landmark.require t stage role = .error a) ↔ x.landmark.search? t = none) ∧
      (∀ stage role m, x.landmark.require t stage role = .ok m ↔ x.landmark.search? t = some m) ∧
      (∃ ms, (∀ ms', x.landmark.pattern.Scan (.start t) ms' ↔ ms' = ms) ∧ x.landmark.count t = ms.length ∧
        ms.head? = x.landmark.search? t) ∧
      (x.landmark.count t = 0 ↔ x.landmark.search? t = none) := by
  have hhead : (x.landmark.pattern.findAll t).head? = x.landmark.search? t := head?_findAll x.landmark.pattern t
  refine ⟨searchFrom?_eq_none_iff x.edgeFree, ?_, fun stage role => x.require_eq_error_iff t stage role,
    fun stage role m => x.require_eq_ok_iff t stage role m,
    ⟨_, fun ms => scan_iff x.edgeFree x.nonempty, rfl, hhead⟩, x.landmark.count_eq_zero_iff t⟩
  intro m hm
  obtain ⟨a, w, b, h⟩ := found_of_search? x.edgeFree hm
  refine ⟨a, w, b, h.whole, h.reads.denotes, h.start_eq, h.stop_eq, fun a' w' b' ht hw => ?_⟩
  exact h.first a' (w' ++ b') (by simp [ht]) ⟨w', b', rfl, hw⟩

end Wanted
end Rehost
