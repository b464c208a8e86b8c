import Rehost.Proofs.Pattern.Cut
import Rehost.Proofs.Script.Guards
import Rehost.Proofs.Script.Occurrence
import Rehost.Proofs.Script.Search

/-! The wiring of proxy and debug. It goes in right behind the first guard and takes nothing away. A guard does not
reach across its own end, and no call of the look-up function reaches across a semicolon, which is what guards and the
statements that are put in end with; so both are found again as they were. -/
namespace Rehost
open Pattern

namespace Capability

theorem places_statements {p : Pattern} (hp : p.Foreign) (a name b : Text) :
    p.places (a ++ statements name ++ b) =
      p.places (a ++ ("proxyAgent=" ++ name ++ "(" ++ "\"proxy\"")) +
        p.places ("null)?new HttpsProxyAgent(url.parse(" ++ name ++ "(" ++ "\"proxy\"") + p.places "null)))" +
        p.places ("null;debug=" ++ name ++ "(" ++ "\"debug\"") + p.places ("null)==true;" ++ b) := by
  have hcut : a ++ statements name ++ b = a ++ ("proxyAgent=" ++ name ++ "(" ++ "\"proxy\"") ++ Text.mark ',' ++
      ("null)?new HttpsProxyAgent(url.parse(" ++ name ++ "(" ++ "\"proxy\"" ++ Text.mark ',' ++
        ("null)))" ++ Text.mark ':' ++
          ("null;debug=" ++ name ++ "(" ++ "\"debug\"" ++ Text.mark ',' ++ ("null)==true;" ++ b)))) := by
    simp [statements, slots, Text.ofString]
  rw [hcut, hp.places_cut hp.comma, hp.places_cut hp.comma, hp.places_cut hp.colon, hp.places_cut hp.comma]
  omega

end Capability

namespace Landmark

def isNamePart (c : CodePoint) : Bool := Text.isWord c || c = '$'

structure LookupCall (t front name : Text) : Prop where
  whole : ∃ s₁ s₂ s₃ r : Text, t = front ++ (name ++ s₁ ++ "(" ++ s₂ ++ "\"noPlayer\"" ++ s₃ ++ "," ++ r) ∧
    (∀ c ∈ s₁, Text.isBlank c = true) ∧ (∀ c ∈ s₂, Text.isBlank c = true) ∧ ∀ c ∈ s₃, Text.isBlank c = true
  given : name ≠ []
  identifier : ∀ c ∈ name, isNamePart c = true
  full : ∀ c, front.getLast? = some c → isNamePart c = false

theorem LookupCall.opens_at {t front name : Text} (h : LookupCall t front name) :
    ∃ v, t = front ++ v ∧ lookup.pattern.opens v := by
  obtain ⟨s₁, s₂, s₃, r, ht, hs₁, hs₂, hs₃⟩ := h.whole
  refine ⟨_, ht, name ++ (s₁ ++ ("(" ++ (s₂ ++ ("\"noPlayer\"" ++ (s₃ ++ ","))))), r, by simp, ?_⟩
  exact ⟨name, _, rfl, ⟨h.given, h.identifier⟩, s₁, _, rfl, hs₁, "(", _, rfl, rfl, s₂, _, rfl, hs₂,
    "\"noPlayer\"", _, rfl, rfl, s₃, ",", rfl, hs₃, rfl⟩

def FirstLookup (t name : Text) : Prop :=
  ∃ front, LookupCall t front name ∧ ∀ front' name', LookupCall t front' name' → front.length ≤ front'.length

theorem firstLookup_of_search? {t : Text} {m : Match} (h : lookup.search? t = some m) : FirstLookup t (m.named "name") := by
  obtain ⟨a, w, b, hm⟩ := found_of_search? rfl h
  obtain ⟨u, v, rfl, rfl, ⟨hne, hname⟩, hv⟩ := Match.named_of_reads [] "name" (most1 fun c => Text.isWord c || c = '$')
    [blanks, lit "(", blanks, lit "\"noPlayer\"", blanks, lit ","] hm.reads rfl rfl
  obtain ⟨s₁, _, rfl, hs₁, _, _, rfl, rfl, s₂, _, rfl, hs₂, _, _, rfl, rfl, s₃, _, rfl, hs₃, rfl⟩ := hv
  have hfull : ∀ c, a.getLast? = some c → isNamePart c = false := Wanted.begins_of_found (x := .lookup) hm
  refine ⟨a, ⟨⟨s₁, s₂, s₃, b, by simp [hm.whole], hs₁, hs₂, hs₃⟩, hne, hname, hfull⟩, fun front' name' hother => ?_⟩
  obtain ⟨v, hv, hopens⟩ := hother.opens_at
  exact hm.first front' v hv hopens

theorem name_lacks {m : Match} {w : Text} (h : lookup.pattern.Reads w m.held) {c : CodePoint}
    (hc : c = '"' ∨ c = '!' ∨ c = ';') : c ∉ m.named "name" := by
  apply Match.not_mem_named h
  rcases hc with rfl | rfl | rfl <;> decide

/-! The statements hold no call of the look-up function, and no call lies across their borders. -/

theorem token_places_call {x q : Text} (hx : ('"' : CodePoint) ∉ x) (hq : Wanted.lookup.occurrences q = 0) :
    Wanted.lookup.occurrences (x ++ "(" ++ q) = 0 := by
  have hp := Wanted.lookup.foreign_token
  have hquote : ∀ w, (exactly Wanted.lookup.token).Denotes w → ('"' : CodePoint) ∈ w := by
    rintro w rfl
    decide
  have hcut := hp.places_cut (Wanted.lookup.token_lacks (c := '(') (by simp)) x q
  rw [hp.places_unquoted hquote hx, Nat.zero_add] at hcut
  exact hcut.trans hq

theorem token_places_statements {name : Text} (hname : ('"' : CodePoint) ∉ name) :
    Wanted.lookup.occurrences (";" ++ Capability.statements name) = 0 := by
  have hproxy : Wanted.lookup.occurrences (";" ++ ("proxyAgent=" ++ name ++ "(" ++ "\"proxy\"")) = 0 := by
    rw [← List.append_assoc, ← List.append_assoc]
    exact token_places_call (by simpa [hname] using by decide) (by decide)
  have hagent : Wanted.lookup.occurrences ("null)?new HttpsProxyAgent(url.parse(" ++ name ++ "(" ++ "\"proxy\"") = 0 :=
    token_places_call (by simpa [hname] using by decide) (by decide)
  have hnull : Wanted.lookup.occurrences "null)))" = 0 := by decide
  have hdebug : Wanted.lookup.occurrences ("null;debug=" ++ name ++ "(" ++ "\"debug\"") = 0 :=
    token_places_call (by simpa [hname] using by decide) (by decide)
  have htrue : Wanted.lookup.occurrences "null)==true;" = 0 := by decide
  have hsplit := Capability.places_statements Wanted.lookup.foreign_token ";" name []
  rw [List.append_nil, List.append_nil] at hsplit
  unfold Wanted.occurrences at *
  omega

theorem lookup_not_in_statements {name : Text} (hname : ('"' : CodePoint) ∉ name) :
    ¬ lookup.pattern.standsIn (";" ++ Capability.statements name) := by
  rintro ⟨a, w, b, heq, hw⟩
  obtain ⟨u, v, rfl⟩ := Wanted.token_infix (x := .lookup) hw
  have hpos : 0 < Wanted.lookup.occurrences (";" ++ Capability.statements name) :=
    places_pos rfl Wanted.lookup.token_nonempty ⟨a ++ u, _, v ++ b, heq.trans (by simp), rfl⟩
  rw [token_places_statements hname] at hpos
  exact absurd hpos (Nat.lt_irrefl 0)

theorem lookup_held_insert {name w : Text} (hname : ('"' : CodePoint) ∉ name) (hw : w.getLast? = some (';' : CodePoint))
    (a b : Text) : (lookup.pattern.findAll (a ++ w ++ Capability.statements name ++ b)).map Match.held =
      (lookup.pattern.findAll (a ++ w ++ b)).map Match.held := by
  obtain ⟨w, rfl⟩ : ∃ w', w = w' ++ ";" := List.getLast?_eq_some_iff.1 hw
  have hlast : (Capability.statements name).getLast? = some (';' : CodePoint) := by
    rw [Capability.statements]
    exact List.getLast?_append_of_ne_nil _ (by decide)
  obtain ⟨s, hs⟩ : ∃ s, Capability.statements name = s ++ ";" := List.getLast?_eq_some_iff.1 hlast
  have hnone : lookup.pattern.findAll (";" ++ s) = [] := by
    rw [findAll_eq_nil_iff rfl]
    rintro ⟨u, x, v, heq, hx⟩
    exact lookup_not_in_statements hname ⟨u, x, v ++ ";", by rw [hs, ← List.append_assoc, heq]; simp, hx⟩
  have hcut : ∀ u x : Text, (lookup.pattern.findAll (u ++ (";" ++ x))).map Match.held =
      (lookup.pattern.findAll u).map Match.held ++ (lookup.pattern.findAll (";" ++ x)).map Match.held :=
    fun u x => held_append rfl (Wanted.nonempty .lookup) (blocks_cons (by decide) x) u
  have hsplit : (";" : Text) ++ (s ++ (";" ++ b)) = ";" ++ s ++ (";" ++ b) := by simp
  calc (lookup.pattern.findAll (a ++ (w ++ ";") ++ Capability.statements name ++ b)).map Match.held
      = (lookup.pattern.findAll (a ++ w ++ (";" ++ (s ++ (";" ++ b))))).map Match.held := by simp [hs]
    _ = (lookup.pattern.findAll (a ++ w)).map Match.held ++ (lookup.pattern.findAll (";" ++ b)).map Match.held := by
      rw [hcut, hsplit, hcut, hnone, List.map_nil, List.nil_append]
    _ = (lookup.pattern.findAll (a ++ (w ++ ";") ++ b)).map Match.held := by
      rw [← hcut]
      simp

/-! The statements hold no guard either, and none lies across their borders. -/

theorem initGuard_assigns {w : Text} (h : initGuard.pattern.Denotes w) : ('!' : CodePoint) ∈ w := by
  obtain ⟨l, k, rfl, -, hk⟩ := initGuard_denotes h
  obtain ⟨u, v, rfl, -, -⟩ := (denotes_around
    [blanks, lit ")", blanks, lit ";", blanks, member, blanks, lit "=", blanks] "!0" [blanks, lit ";"]).1 hk
  have : ('!' : CodePoint) ∈ ("!0" : Text) := by decide
  simp [this]

theorem initGuard_count_insert {name : Text} (hassign : ('!' : CodePoint) ∉ name) (hend : (';' : CodePoint) ∉ name)
    {w : Text} (hw : initGuard.pattern.Denotes w) (a b : Text) :
    initGuard.count (a ++ w ++ Capability.statements name ++ b) = initGuard.count (a ++ w ++ b) := by
  have hzero : ∀ x : Text, ('!' : CodePoint) ∉ x → initGuard.pattern.places x = 0 := fun x hx =>
    places_eq_zero initGuard_edgeFree (not_standsIn_of_mem (fun w => initGuard_assigns) hx)
  have hborder := places_append initGuard_edgeFree (initGuard_discrete.apart hw a b)
  have hleft : initGuard.pattern.places (a ++ w ++ ("proxyAgent=" ++ name ++ "(" ++ "\"proxy\"")) =
      initGuard.pattern.places (a ++ w) := by
    rw [places_append initGuard_edgeFree (apart_of_last (fun w => initGuard_last) (by simpa [hend] using by decide) _),
      hzero ("proxyAgent=" ++ name ++ "(" ++ "\"proxy\"") (by simpa [hassign] using by decide), Nat.add_zero]
  have hagent := hzero ("null)?new HttpsProxyAgent(url.parse(" ++ name ++ "(" ++ "\"proxy\"")
    (by simpa [hassign] using by decide)
  have hnull := hzero "null)))" (by decide)
  have hdebug := hzero ("null;debug=" ++ name ++ "(" ++ "\"debug\"") (by simpa [hassign] using by decide)
  have hright : initGuard.pattern.places ("null)==true;" ++ b) = initGuard.pattern.places b := by
    rw [places_append initGuard_edgeFree (apart_of_head (fun w => initGuard_head) (by decide) b), hzero _ (by decide),
      Nat.zero_add]
  have hsplit := Capability.places_statements initGuard_foreign (a ++ w) name b
  simp only [count, initGuard_discrete.count_eq_places]
  omega

end Landmark

namespace Capability
open Landmark

/-- Without a guard it is the guard that is missing, and with one it may be the call. Where both are there, the
statements go in right behind the first guard, under the whole name of the first call, and nothing else changes:
guards and calls are found as before. -/
theorem inject_inserts (source : Text) :
    (initGuard.search? source = none →
      inject source = .error ⟨.collaborator, "initGuard", "capabilities", some "initialization guard"⟩) ∧
    (∀ guard, initGuard.search? source = some guard → lookup.search? source = none →
      inject source = .error
        ⟨.collaborator, "configLookupCall", "capabilities", some "room config lookup function"⟩) ∧
    ∀ guard call, initGuard.search? source = some guard → lookup.search? source = some call →
      ∃ behind result, source = guard.front ++ guard.text ++ behind ∧ inject source = .ok result ∧
        result = guard.front ++ guard.text ++ statements (call.named "name") ++ behind ∧
        FirstLookup source (call.named "name") ∧ FirstLookup result (call.named "name") ∧
        initGuard.count result = initGuard.count source ∧ lookup.count result = lookup.count source ∧
        ∃ call', lookup.search? result = some call' ∧ call'.named "name" = call.named "name" := by
  refine ⟨fun hguard => ?_, fun guard hguard hcall => ?_, fun guard call hguard hcall => ?_⟩
  · rw [inject, require, hguard]
    rfl
  · rw [inject, require, hguard, require, hcall]
    rfl
  · obtain ⟨a, w, b, hm⟩ := found_of_search? initGuard_edgeFree hguard
    obtain ⟨u, v, l, hcallFound⟩ := found_of_search? rfl hcall
    have hlacks := fun c => name_lacks (c := c) hcallFound.reads
    have hsplice : guard.splice (guard.text ++ statements (call.named "name")) =
        a ++ w ++ statements (call.named "name") ++ b := by
      rw [hm.splice_eq, hm.text_eq, ← List.append_assoc]
    have hguards := initGuard_count_insert (hlacks '!' (by simp)) (hlacks ';' (by simp)) hm.reads.denotes a b
    have hcalls := lookup_held_insert (hlacks '"' (by simp)) (initGuard_last hm.reads.denotes) a b
    rw [← hm.whole] at hguards hcalls
    obtain ⟨call', hcall', hheld⟩ := search?_of_held hcalls hcall
    have hname := Match.named_congr hheld "name"
    have hfirst' := firstLookup_of_search? hcall'
    rw [hname] at hfirst'
    refine ⟨b, a ++ w ++ statements (call.named "name") ++ b, ?_, ?_, ?_, firstLookup_of_search? hcall, hfirst', hguards,
      count_of_held hcalls, call', hcall', hname⟩
    · rw [hm.front_eq, hm.text_eq, hm.whole]
    · rw [inject, require, hguard, require, hcall, ← hsplice]
      rfl
    · rw [hm.front_eq, hm.text_eq]

/-- The statements under the name by which this script looks up its settings. -/
example : (inject "if(a.b)throw c.d(\"Can't init twice\");a.b=!0;w(\"noPlayer\",!1)").toOption =
    some ("if(a.b)throw c.d(\"Can't init twice\");a.b=!0;" ++
      "proxyAgent=w(\"proxy\",null)?new HttpsProxyAgent(url.parse(w(\"proxy\",null))):null;" ++
      "debug=w(\"debug\",null)==true;" ++ "w(\"noPlayer\",!1)") := by decide +kernel

end Capability
end Rehost
