import Mathlib.Data.List.Perm.Basic
import Rehost.Proofs.Rehosting

/-! Rules do not get in each other's way. Where the landmarks lie apart, the rules can run in any order: each makes the
edit that it would have made of the text as it was. -/
namespace Rehost

namespace Wanted

theorem replaced_of_perm {rules : List Rule} (h : rules.Perm Rule.all) :
    ∃ ps : List (Wanted × Rule), ps.Perm replaced ∧ ps.map Prod.snd = rules := by
  have hall : List.Forall₂ (fun r (p : Wanted × Rule) => p.2 = r) Rule.all replaced := by
    simp [Rule.all, replaced]
  obtain ⟨ps, hrules, hperm⟩ := List.perm_comp_forall₂ h hall
  refine ⟨ps, hperm, ?_⟩
  rw [← List.forall₂_eq_eq_eq, List.forall₂_map_left_iff]
  exact hrules.flip

end Wanted

namespace Rule
open Wanted

/-- Where each token stands once, the matches of the landmarks lie apart and the assignment hands over something
visible, the rules come to the same text in any order, and each of them finds its landmark once. -/
theorem applyAll_perm {t origin : Text} {m : Wanted → Match} {rules : List Rule}
    (ho : ∀ x : Wanted, x.rank < 4 → ¬ x.word <:+: origin)
    (honce : ∀ x : Wanted, x.rank < 4 → x.occurrences t = 1)
    (hfound : ∀ x : Wanted, x.rank < 4 → x.landmark.search? t = some (m x))
    (hapart : ∀ x y : Wanted, x.rank < 4 → y.rank < 4 → x ≠ y →
      (m x).stop.index ≤ (m y).start.index ∨ (m y).stop.index ≤ (m x).start.index)
    (hvalue : ∃ c ∈ (m .roomInit).named "value", Text.isBlank c = false) (hrules : rules.Perm all) :
    applyAll origin rules t =
      .ok (Edit.applyAll [deferInit.edit origin (m .roomInit), openSocket.edit origin (m .socket),
          reportSocketError.edit origin (m .socketError), refuseChallenge.edit origin (m .challenge)] t,
        rules.map fun r => (r.name, 1)) := by
  have hs : Separated t m 4 := ⟨honce, hfound, hapart⟩
  have hall : Among Wanted.replaced 4 := fun _ hp => ⟨hp, rank_of_replaced hp⟩
  obtain ⟨ps, hperm, rfl⟩ := replaced_of_perm hrules
  have hps : Among ps 4 := fun _ hp => hall _ (hperm.mem_iff.1 hp)
  have hnodup : (ps.map Prod.fst).Nodup := (hperm.map Prod.fst).nodup_iff.2 (by decide)
  have hsteady : ∀ p ∈ ps.tail, p.1.Steady (m p.1) := by
    intro p _ hinit
    rwa [hinit]
  have hrun := (hs.run_among hps hnodup hsteady fun p hp => ho p.1 (hps p hp).2).1 []
  rw [List.append_nil, applyFrom] at hrun
  have hedits : Edit.applyAll (editsOf origin m ps) t = Edit.applyAll (editsOf origin m Wanted.replaced) t :=
    Edit.applyFrom_perm (hs.edits_disjoint hall) (hperm.map _) 0 t
  rw [hrun, hedits, List.map_map]
  rfl

def apartRewritten : Text :=
  "w(\"noPlayer\",!1);" ++ ("if(a.b)throw c.d(" ++ "\"Can't init twice\");" ++ "a.b=!0;" ++
    ("e.g.onerror=" ++ "function(err)\x7bh.k(!0);" ++ "debug && " ++ "console.error(err)\x7d;" ++ "new WebSocket(u, " ++
      "\x7bheaders:\x7borigin: \"o\"\x7d" ++ ", agent: proxyAgent\x7d);" ++
    ("case \"recaptcha\":" ++ "console.log(new Error(" ++ "\"Invalid Token Provided!\"" ++ "));promiseResolve(f);")))

theorem applyAll_reverse_apartScript :
    applyAll "o" all.reverse Pipeline.apartScript =
      .ok (apartRewritten,
        [("captchaCase", 1), ("socketErrorHandler", 1), ("webSocketConstruction", 1), ("hbInitAssignment", 1)]) := by
  have hvalue : ∃ c ∈ (Pipeline.apartMatch .roomInit).named "value", Text.isBlank c = false := by decide +kernel
  have hedits : Edit.applyAll [deferInit.edit "o" (Pipeline.apartMatch .roomInit),
      openSocket.edit "o" (Pipeline.apartMatch .socket), reportSocketError.edit "o" (Pipeline.apartMatch .socketError),
      refuseChallenge.edit "o" (Pipeline.apartMatch .challenge)] Pipeline.apartScript = apartRewritten := by
    decide +kernel
  have hrun := @applyAll_perm _ "o" _ _ (fun x _ => by cases x <;> decide)
    (fun x _ => Pipeline.occurrences_apartScript x) (fun x _ => Pipeline.search?_apartScript x)
    (fun x y _ _ => Pipeline.apart_apartMatch x y) hvalue (List.reverse_perm all)
  rw [hrun, hedits]
  rfl

/-- A script that hands over a blank. Once the handler behind it has been rewritten, the value runs on to the first
semicolon in the handler. -/
def blankScript : Text :=
  "HBInit= ;e.g.onerror=" ++ "function()\x7bh.k(!0)\x7d" ++ ("\nnew WebSocket(u)\n" ++ "case \"recaptcha\":r(x)")

example : (applyAll "o" all.reverse blankScript).map Prod.fst ≠ (applyAll "o" all blankScript).map Prod.fst := by
  decide +kernel

end Rule
end Rehost
