import Mathlib.Tactic.IntervalCases
import Rehost.Proofs.Pipeline
import Rehost.Proofs.Script.Separated

/-! What a rehosting makes of a script. Where the landmarks lie apart, it edits the script at all of them at once; where
the token of one is missing, it stops, and names that landmark or one that is asked for earlier. -/
namespace Rehost
open Pattern

namespace Wanted

/-- The absence that names a landmark: a rule wants to replace it, the capabilities only want it beside them. -/
def absence (x : Wanted) : Absence :=
  if x.rank < 4 then ⟨.site, x.landmark.name, Rule.stage, some x.landmark.description⟩
  else ⟨.collaborator, x.landmark.name, Capability.stage, some x.landmark.description⟩

theorem rank_injective {x y : Wanted} (h : x.rank = y.rank) : x = y := by
  cases x <;> cases y <;> simp [rank] at h ⊢

namespace Separated

variable {t origin : Text} {m : Wanted → Match} {n k : Nat}

theorem run (ho : CleanOrigin origin) (hs : Separated t m k) (hn : n ≤ 4) (hk : n ≤ k) :
    ∃ counts, Rule.applyAll origin Rule.all t =
        Rule.applyFrom origin counts (Rule.all.drop n) (Edit.applyAll (edits origin m n) t) ∧
      ∀ y : Wanted, n ≤ y.rank → y.occurrences (Edit.applyAll (edits origin m n) t) ≤ y.occurrences t := by
  obtain ⟨hnodup, hinit⟩ : ((replaced.take n).map Prod.fst).Nodup ∧ ∀ p ∈ (replaced.take n).tail, p.1 ≠ roomInit := by
    interval_cases n <;> simp [replaced]
  have hsteady : ∀ p ∈ (replaced.take n).tail, p.1.Steady (m p.1) := fun p hp heq => absurd heq (hinit p hp)
  obtain ⟨hrun, hle⟩ := hs.run_among (among_take hk) hnodup hsteady fun p _ => ho.clean p.1
  have hrules : (replaced.take n).map Prod.snd ++ Rule.all.drop n = Rule.all := by
    rw [List.map_take]
    exact List.take_append_drop n Rule.all
  rw [edits_eq]
  exact ⟨_, hrules ▸ hrun (Rule.all.drop n), fun y hy => hle y (ne_of_take hy) (ho.clean y)⟩

theorem inject (ho : CleanOrigin origin) (hs : Separated t m 6) :
    Capability.inject (Edit.applyAll (edits origin m 4) t) =
      .ok (Edit.applyAll (edits origin m 4 ++ [Capability.edit (m initGuard) (m lookup)]) t) := by
  obtain ⟨counts, -, hle⟩ := hs.run ho (n := 4) (by omega) (by omega)
  rw [edits_eq] at hle ⊢
  have honce : ∀ x : Wanted, 4 ≤ x.rank → x.rank < 6 →
      x.occurrences (Edit.applyAll (editsOf origin m (replaced.take 4)) t) ≤ 1 := by
    intro x hx hlt
    have := hle x hx
    have := hs.once x hlt
    omega
  have hamong : Among (replaced.take 4) 6 := among_take (by decide)
  obtain ⟨a, w, b, hguard⟩ := found_of_search? initGuard.edgeFree (hs.found initGuard (by decide))
  obtain ⟨guard, hsearch, hat, -⟩ :=
    hs.found_edited (by decide) hamong (ne_of_take (by decide)) (steady_take (by decide) _) hguard
      (honce initGuard (by decide) (by decide))
  obtain ⟨a', w', b', hlookup⟩ := found_of_search? lookup.edgeFree (hs.found lookup (by decide))
  obtain ⟨call, hsearch', -, hheld⟩ :=
    hs.found_edited (by decide) hamong (ne_of_take (by decide)) (steady_take (by decide) _) hlookup
      (honce lookup (by decide) (by decide))
  have hname : call.named "name" = (m lookup).named "name" := Match.named_congr hheld "name"
  have hedit : Capability.edit (m initGuard) (m lookup) =
      ⟨a.length, a.length + w.length, w ++ Capability.statements (call.named "name")⟩ := by
    rw [Capability.edit, hguard.start_index, hguard.stop_index, hguard.text_eq, hname]
  have happly := (Edit.applyAll_concat (b := b) (w ++ Capability.statements (call.named "name"))
    (word_ne_nil hguard) (hs.edits_apart origin (by decide) hamong (ne_of_take (by decide)) hguard)).2
  rw [← hguard.whole, ← hedit] at happly
  have hg : Landmark.initGuard.search? (Edit.applyAll (editsOf origin m (replaced.take 4)) t) = some guard := hsearch
  have hl : Landmark.lookup.search? (Edit.applyAll (editsOf origin m (replaced.take 4)) t) = some call := hsearch'
  simp only [Capability.inject, Landmark.require, hg, hl, happly, bind, Except.bind, pure, Except.pure, hat.text_eq,
    hat.splice_eq]

end Separated

/-! A landmark that is missing. -/

theorem inject_of_no_guard {t : Text} (h : Landmark.initGuard.search? t = none) :
    Capability.inject t = .error initGuard.absence := by
  simp [Capability.inject, Landmark.require, h, absence, rank, landmark, bind, Except.bind]

theorem inject_of_no_lookup {t : Text} (h : Landmark.lookup.search? t = none) {guard : Match}
    (hguard : Landmark.initGuard.search? t = some guard) : Capability.inject t = .error lookup.absence := by
  simp [Capability.inject, Landmark.require, hguard, h, absence, rank, landmark, bind, Except.bind]

theorem apply_of_absent {x : Wanted} {r : Rule} (hr : (x, r) ∈ replaced) {t : Text}
    (h : x.landmark.search? t = none) (origin : Text) : r.apply origin t = .error x.absence := by
  have hl := landmark_of_replaced hr
  rw [Rule.apply_of_absent (hl ▸ h), absence, if_pos (rank_of_replaced hr), hl]

theorem applyFrom_of_absent {x : Wanted} (hx : x.rank < 4) {t : Text} (h : x.landmark.search? t = none)
    (origin : Text) (counts : Table Nat) :
    Rule.applyFrom origin counts (Rule.all.drop x.rank) t = .error x.absence := by
  obtain ⟨y, r, hr, hxy, hdrop⟩ := rule_of_rank hx
  obtain rfl := rank_injective hxy
  rw [hdrop, Rule.applyFrom, apply_of_absent hr h]
  rfl

theorem run_absent {origin t : Text} (ho : CleanOrigin origin) {x : Wanted} (hx : x.occurrences t = 0) {n : Nat}
    (hn : n ≤ 4) (hrank : n ≤ x.rank) :
    (∃ y : Wanted, y.rank < n ∧ Rule.applyAll origin Rule.all t = .error y.absence) ∨
      ∃ counts t', Rule.applyAll origin Rule.all t = Rule.applyFrom origin counts (Rule.all.drop n) t' ∧
        x.occurrences t' = 0 := by
  induction n with
  | zero => exact .inr ⟨[], t, rfl, hx⟩
  | succ n ih =>
    rcases ih (by omega) (by omega) with ⟨y, hy, herror⟩ | ⟨counts, t', hrun, hzero⟩
    · exact .inl ⟨y, by omega, herror⟩
    obtain ⟨y, r, hr, rfl, hdrop⟩ := rule_of_rank (n := n) (by omega)
    cases hm : y.landmark.search? t' with
    | none =>
      rw [applyFrom_of_absent (by omega) hm] at hrun
      exact .inl ⟨y, by omega, hrun⟩
    | some m =>
      right
      rw [hdrop, Rule.applyFrom, Rule.apply_of_search? (landmark_of_replaced hr ▸ hm)] at hrun
      refine ⟨_, _, hrun, ?_⟩
      obtain ⟨a, w, b, hfound⟩ := found_of_search? y.edgeFree hm
      have hother : x ≠ y := by
        rintro rfl
        omega
      have hle := occurrences_build hr hother (ho.clean x) hfound.reads a b
      rw [← hfound.whole] at hle
      rw [hfound.splice_eq]
      omega

theorem rewritten_absent {origin t : Text} (ho : CleanOrigin origin) {x : Wanted} (hx : x.occurrences t = 0) :
    ∃ y : Wanted, y.rank ≤ x.rank ∧ Pipeline.rewritten origin t = .error y.absence := by
  by_cases hrank : x.rank < 4
  · rcases run_absent ho hx (n := x.rank) (by omega) (Nat.le_refl _) with ⟨y, hy, herror⟩ | ⟨counts, t', hrun, hzero⟩
    · exact ⟨y, by omega, Pipeline.rewritten_of_error herror⟩
    · rw [applyFrom_of_absent hrank (search?_eq_none hzero)] at hrun
      exact ⟨x, Nat.le_refl _, Pipeline.rewritten_of_error hrun⟩
  rcases run_absent ho hx (n := 4) (Nat.le_refl _) (by omega) with ⟨y, hy, herror⟩ | ⟨counts, t', hrun, hzero⟩
  · exact ⟨y, by omega, Pipeline.rewritten_of_error herror⟩
  rw [Pipeline.rewritten_of_ok hrun]
  have habsent := search?_eq_none hzero
  cases hguard : Landmark.initGuard.search? t' with
  | none => exact ⟨initGuard, Nat.not_lt.1 hrank, inject_of_no_guard hguard⟩
  | some guard =>
    cases x with
    | initGuard => exact absurd (hguard.symm.trans habsent) (by simp)
    | lookup => exact ⟨lookup, Nat.le_refl _, inject_of_no_lookup habsent hguard⟩
    | roomInit | socket | socketError | challenge => exact absurd (by decide) hrank

theorem rewritten_first_absent {origin t : Text} (ho : CleanOrigin origin) {x : Wanted} (hx : x.occurrences t = 0)
    {m : Wanted → Match} (hs : Separated t m x.rank) : Pipeline.rewritten origin t = .error x.absence := by
  by_cases hrank : x.rank < 4
  · obtain ⟨counts, hrun, hle⟩ := hs.run ho (n := x.rank) (by omega) (Nat.le_refl _)
    have hzero : x.occurrences (Edit.applyAll (edits origin m x.rank) t) = 0 := by
      have := hle x (Nat.le_refl _)
      omega
    rw [applyFrom_of_absent hrank (search?_eq_none hzero)] at hrun
    exact Pipeline.rewritten_of_error hrun
  obtain ⟨counts, hrun, hle⟩ := hs.run ho (n := 4) (Nat.le_refl _) (by omega)
  rw [Pipeline.rewritten_of_ok hrun]
  have hzero : x.occurrences (Edit.applyAll (edits origin m 4) t) = 0 := by
    have := hle x (by omega)
    omega
  have habsent := search?_eq_none hzero
  cases x with
  | initGuard => exact inject_of_no_guard habsent
  | lookup =>
    obtain ⟨a, w, b, hfound⟩ := found_of_search? initGuard.edgeFree (hs.found initGuard (by decide))
    have honce : initGuard.occurrences (Edit.applyAll (edits origin m 4) t) ≤ 1 := by
      have := hle initGuard (by decide)
      have := hs.once initGuard (by decide)
      omega
    obtain ⟨guard, hguard, -⟩ := hs.found_edited (x := initGuard) (by decide) (among_take (n := 4) (by decide))
      (ne_of_take (by decide)) (steady_take (by decide) _) hfound honce
    exact inject_of_no_lookup habsent hguard
  | roomInit | socket | socketError | challenge => exact absurd (by decide) hrank

end Wanted

namespace Pipeline
open Wanted

/-- Where each token stands once and the matches of the landmarks lie apart, in whatever order, a rehosting makes the
edits of all rules and of the capabilities at once, each by the match in the stripped script, and changes nothing
else. -/
theorem rehost_apart {source origin : Text} (ho : CleanOrigin origin) {m : Wanted → Match}
    (honce : ∀ x : Wanted, x.occurrences (Browser.strip source) = 1)
    (hfound : ∀ x : Wanted, x.landmark.search? (Browser.strip source) = some (m x))
    (hapart : ∀ x y : Wanted, x ≠ y → (m x).stop.index ≤ (m y).start.index ∨ (m y).stop.index ≤ (m x).start.index) :
    rehost source origin =
      .ok (Envelope.header ++
          Edit.applyAll [Rule.deferInit.edit origin (m .roomInit), Rule.openSocket.edit origin (m .socket),
            Rule.reportSocketError.edit origin (m .socketError), Rule.refuseChallenge.edit origin (m .challenge),
            Capability.edit (m .initGuard) (m .lookup)] (Browser.strip source) ++
          Envelope.footer,
        BuildHash.extract source) := by
  have hs : Separated (Browser.strip source) m 6 := ⟨fun x _ => honce x, fun x _ => hfound x, fun x y _ _ => hapart x y⟩
  obtain ⟨counts, hrun, -⟩ := hs.run ho (n := 4) (by omega) (by omega)
  rw [rehost_eq ho.given, rewritten_of_ok hrun, hs.inject ho]
  rfl

def apartScript : Text :=
  "w(\"noPlayer\",!1);" ++ ("if(a.b)throw c.d(" ++ "\"Can't init twice\");" ++ "a.b=!0;" ++
    ("e.g.onerror=" ++ "function()\x7bh.k(!0)\x7d" ++ "new WebSocket(u);" ++
      ("case \"recaptcha\":" ++ "r(x);HBInit=f;")))

def apartMatch (x : Wanted) : Match := (x.landmark.search? apartScript).getD ⟨⟨[], []⟩, ⟨[], []⟩, []⟩

theorem strip_apartScript : Browser.strip apartScript = apartScript := by decide +kernel

theorem occurrences_apartScript (x : Wanted) : x.occurrences apartScript = 1 := by
  cases x <;> decide +kernel

theorem search?_apartScript (x : Wanted) : x.landmark.search? apartScript = some (apartMatch x) := by
  have hsome : (x.landmark.search? apartScript).isSome = true := by cases x <;> decide +kernel
  obtain ⟨m, hm⟩ := Option.isSome_iff_exists.1 hsome
  simp [apartMatch, hm]

theorem span_apartMatch (x : Wanted) :
    ((apartMatch x).start.index, (apartMatch x).stop.index) =
      match x with
      | .roomInit => (131, 140)
      | .socket => (92, 109)
      | .socketError => (61, 92)
      | .challenge => (109, 130)
      | .initGuard => (17, 61)
      | .lookup => (0, 13) := by
  cases x <;> decide +kernel

theorem apart_apartMatch (x y : Wanted) (hxy : x ≠ y) :
    (apartMatch x).stop.index ≤ (apartMatch y).start.index ∨ (apartMatch y).stop.index ≤ (apartMatch x).start.index := by
  obtain ⟨hx, hx'⟩ := Prod.mk.inj (span_apartMatch x)
  obtain ⟨hy, hy'⟩ := Prod.mk.inj (span_apartMatch y)
  rw [hx, hx', hy, hy']
  cases x <;> cases y <;> simp at hxy ⊢

def apartRehosted : Text :=
  "w(\"noPlayer\",!1);" ++ ("if(a.b)throw c.d(" ++ "\"Can't init twice\");" ++ "a.b=!0;" ++
    ("proxyAgent=" ++ "w(\"proxy\",null)?" ++ "new HttpsProxyAgent(" ++ "url.parse(" ++ "w(\"proxy\",null))" ++
      "):null;debug=" ++ "w(\"debug\",null)==true;" ++
    ("e.g.onerror=" ++ "function(err)\x7bh.k(!0);" ++ "debug && " ++ "console.error(err)\x7d;" ++ "new WebSocket(u, " ++
      "\x7bheaders:\x7borigin: \"o\"\x7d" ++ ", agent: proxyAgent\x7d);" ++
    ("case \"recaptcha\":" ++ "console.log(new Error(" ++ "\"Invalid Token Provided!\"" ++ "));promiseResolve(f);"))))

theorem edits_apartScript :
    Edit.applyAll [Rule.deferInit.edit "o" (apartMatch .roomInit), Rule.openSocket.edit "o" (apartMatch .socket),
      Rule.reportSocketError.edit "o" (apartMatch .socketError), Rule.refuseChallenge.edit "o" (apartMatch .challenge),
      Capability.edit (apartMatch .initGuard) (apartMatch .lookup)] apartScript = apartRehosted := by
  decide +kernel

theorem rehost_apartScript :
    rehost apartScript "o" = .ok (Envelope.header ++ apartRehosted ++ Envelope.footer, "unknown") := by
  have horigin : CleanOrigin "o" := ⟨by decide, fun x => by cases x <;> decide⟩
  have hhash : BuildHash.extract apartScript = "unknown" := by decide +kernel
  have hrun := @rehost_apart apartScript _ horigin apartMatch
    (fun x => by rw [strip_apartScript]; exact occurrences_apartScript x)
    (fun x => by rw [strip_apartScript]; exact search?_apartScript x)
    (fun x y hxy => by
      obtain ⟨hx, hx'⟩ := Prod.mk.inj (span_apartMatch x)
      obtain ⟨hy, hy'⟩ := Prod.mk.inj (span_apartMatch y)
      rw [hx, hx', hy, hy']
      cases x <;> cases y <;> simp at hxy ⊢)
  rw [hrun, strip_apartScript, edits_apartScript, hhash]

/-- Where a token is missing, a rehosting fails and names its landmark or one that is asked for earlier. It names the
first one of which the token is missing, if every token that is there stands once and the matches around them lie
apart. -/
theorem rehost_absent {source origin : Text} (ho : CleanOrigin origin) {x : Wanted}
    (hx : x.occurrences (Browser.strip source) = 0) :
    (∃ y : Wanted, y.rank ≤ x.rank ∧ rehost source origin = .error (.absent y.absence)) ∧
      ∀ m : Wanted → Match,
        (∀ y : Wanted, y.occurrences (Browser.strip source) ≠ 0 → y.occurrences (Browser.strip source) = 1 ∧
          m y ∈ y.landmark.pattern.findAll (Browser.strip source)) →
        (∀ y z : Wanted, y.occurrences (Browser.strip source) ≠ 0 → z.occurrences (Browser.strip source) ≠ 0 → y ≠ z →
          (m y).stop.index ≤ (m z).start.index ∨ (m z).stop.index ≤ (m y).start.index) →
        (∀ y : Wanted, y.rank < x.rank → y.occurrences (Browser.strip source) ≠ 0) →
        rehost source origin = .error (.absent x.absence) := by
  constructor
  · obtain ⟨y, hy, herror⟩ := rewritten_absent ho hx
    refine ⟨y, hy, ?_⟩
    rw [rehost_eq ho.given, herror]
  · intro m honce hapart hfirst
    have hs : Separated (Browser.strip source) m x.rank := by
      refine ⟨fun y hy => (honce y (hfirst y hy)).1, fun y hy => ?_,
        fun y z hy hz => hapart y z (hfirst y hy) (hfirst z hz)⟩
      obtain ⟨hone, hmem⟩ := honce y (hfirst y hy)
      exact search?_of_mem_findAll hmem (by omega)
    rw [rehost_eq ho.given, rewritten_first_absent ho hx hs]

/-- A script without an error handler; what comes later in the order is missing as well. -/
def handlerless : Text := "new WebSocket(u);" ++ "HBInit=f;"

def handlerlessMatch (x : Wanted) : Match := (x.landmark.search? handlerless).getD ⟨⟨[], []⟩, ⟨[], []⟩, []⟩

theorem rehost_handlerless : rehost handlerless "o" = .error (.absent Wanted.socketError.absence) := by
  have horigin : CleanOrigin "o" := ⟨by decide, fun x => by cases x <;> decide⟩
  have hstrip : Browser.strip handlerless = handlerless := by decide +kernel
  have hx : Wanted.socketError.occurrences (Browser.strip handlerless) = 0 := by
    rw [hstrip]
    decide +kernel
  refine (rehost_absent horigin hx).2 handlerlessMatch ?_ ?_ ?_
  · rw [hstrip]
    intro y
    cases y <;> decide +kernel
  · rw [hstrip]
    intro y z
    cases y <;> cases z <;> decide +kernel
  · rw [hstrip]
    intro y
    cases y <;> decide +kernel

end Pipeline
end Rehost
