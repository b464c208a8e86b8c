import Rehost.Proofs.Script.Landmark
import Rehost.Script.Rule

/-! What the rules write, seen by a pattern that is to stand neither in it nor across its borders. The punctuation that
a rule writes around what it has captured splits the text, so the places are counted piece by piece. -/
namespace Rehost

abbrev Text.mark (c : Char) : Text := [(c : CodePoint)]

namespace Pattern

/-- The words hold none of the punctuation by which what the rules write falls into pieces. -/
structure Foreign (p : Pattern) : Prop where
  edgeFree : p.isEdgeFree = true
  nonempty : ¬ p.Denotes []
  colon : p.Lacks ':'
  comma : p.Lacks ','
  opening : p.Lacks '\x7b'
  closing : p.Lacks '\x7d'

namespace Foreign

variable {p : Pattern} (hp : p.Foreign)
include hp

theorem places_cut {c : Char} (hc : p.Lacks c) (a b : Text) :
    p.places (a ++ Text.mark c ++ b) = p.places a + p.places b := by
  rw [List.append_assoc]
  exact hc.places_append_cons hp.edgeFree hp.nonempty a b

theorem places_unquoted (hquote : ∀ w, p.Denotes w → ('"' : CodePoint) ∈ w) {x : Text} (hx : ('"' : CodePoint) ∉ x) :
    p.places x = 0 :=
  places_eq_zero hp.edgeFree (not_standsIn_of_mem hquote hx)

theorem places_handler {d e : CodePoint} (hquote : ∀ w, p.Denotes w → ('"' : CodePoint) ∈ w)
    (hhead : ∀ w, p.Denotes w → w.head? = some d) (hlast : ∀ w, p.Denotes w → w.getLast? = some e) {x y z : Text}
    (hx : ('"' : CodePoint) ∉ x) (hex : e ∉ x) (hy : ('"' : CodePoint) ∉ y) (hz : ('"' : CodePoint) ∉ z) (hdz : d ∉ z)
    (a b : Text) : p.places (a ++ (x ++ "\x7b" ++ (y ++ "\x7d" ++ z)) ++ b) = p.places a + p.places b := by
  have hcut : a ++ (x ++ "\x7b" ++ (y ++ "\x7d" ++ z)) ++ b =
      a ++ x ++ Text.mark '\x7b' ++ (y ++ Text.mark '\x7d' ++ (z ++ b)) := by
    simp [Text.ofString]
  rw [hcut, hp.places_cut hp.opening, hp.places_cut hp.closing, places_append hp.edgeFree (apart_of_last hlast hex a),
    places_append hp.edgeFree (apart_of_head hhead hdz b), hp.places_unquoted hquote hx, hp.places_unquoted hquote hy,
    hp.places_unquoted hquote hz]
  omega

end Foreign
end Pattern

namespace Rule
open Pattern

/-! One rule. -/

structure Replaces (r : Rule) (origin before : Text) (m : Match) (after : Text) : Prop where
  found : r.landmark.search? before = some m
  after_eq : after = m.splice (r.build m origin)

theorem apply_of_search? {r : Rule} {t : Text} {m : Match} (h : r.landmark.search? t = some m) (origin : Text) :
    r.apply origin t = .ok (m.splice (r.build m origin), r.landmark.count t) := by
  simp [apply, Landmark.require, h]

theorem apply_of_absent {r : Rule} {t : Text} (h : r.landmark.search? t = none) (origin : Text) :
    r.apply origin t = .error ⟨.site, r.landmark.name, stage, some r.landmark.description⟩ := by
  simp [apply, Landmark.require, h]

theorem applyFrom_cons_eq_ok {origin : Text} {counts : Table Nat} {r : Rule} {rs : List Rule} {t : Text}
    {result : Text × Table Nat} (h : applyFrom origin counts (r :: rs) t = .ok result) :
    ∃ m t', r.Replaces origin t m t' ∧
      applyFrom origin (counts.put r.name (r.landmark.count t)) rs t' = .ok result := by
  cases hm : r.landmark.search? t with
  | none =>
    rw [applyFrom, apply_of_absent hm] at h
    contradiction
  | some m =>
    rw [applyFrom, apply_of_search? hm] at h
    exact ⟨m, _, ⟨hm, rfl⟩, h⟩

theorem applyAll_eq_ok {origin source result : Text} {counts : Table Nat}
    (h : applyAll origin all source = .ok (result, counts)) :
    ∃ m₀ t₁ m₁ t₂ m₂ t₃ m₃, deferInit.Replaces origin source m₀ t₁ ∧ openSocket.Replaces origin t₁ m₁ t₂ ∧
      reportSocketError.Replaces origin t₂ m₂ t₃ ∧ refuseChallenge.Replaces origin t₃ m₃ result := by
  obtain ⟨m₀, t₁, h₀, h⟩ := applyFrom_cons_eq_ok h
  obtain ⟨m₁, t₂, h₁, h⟩ := applyFrom_cons_eq_ok h
  obtain ⟨m₂, t₃, h₂, h⟩ := applyFrom_cons_eq_ok h
  obtain ⟨m₃, t₄, h₃, h⟩ := applyFrom_cons_eq_ok h
  simp only [applyFrom, Except.ok.injEq, Prod.mk.injEq] at h
  exact ⟨m₀, t₁, m₁, t₂, m₂, t₃, m₃, h₀, h₁, h₂, h.1 ▸ h₃⟩

theorem Replaces.split {r : Rule} (he : r.landmark.pattern.isEdgeFree = true) {origin before after : Text} {m : Match}
    (h : r.Replaces origin before m after) :
    ∃ a w b, r.landmark.pattern.Found before m a w b ∧ after = a ++ r.build m origin ++ b := by
  obtain ⟨a, w, b, hm⟩ := found_of_search? he h.found
  exact ⟨a, w, b, hm, by rw [h.after_eq, hm.splice_eq]⟩

/-! What single rules write. -/

def optionPieces : List Text := [" ", "headers", "origin", " agent", " proxyAgent"]

theorem places_socketOptions {p : Pattern} (hp : p.Foreign) (hpieces : ∀ x ∈ optionPieces, p.places x = 0)
    (origin b : Text) :
    p.places (" " ++ socketOptions origin ++ b) = p.places (" \"" ++ origin ++ "\"") + p.places b := by
  have hcut : " " ++ socketOptions origin ++ b = " " ++ Text.mark '\x7b' ++ ("headers" ++ Text.mark ':' ++
      (([] : Text) ++ Text.mark '\x7b' ++ ("origin" ++ Text.mark ':' ++ (" \"" ++ origin ++ "\"" ++
      Text.mark '\x7d' ++ (([] : Text) ++ Text.mark ',' ++ (" agent" ++ Text.mark ':' ++
      (" proxyAgent" ++ Text.mark '\x7d' ++ b))))))) := by
    simp [socketOptions, slots, Text.ofString]
  rw [hcut, hp.places_cut hp.opening, hp.places_cut hp.colon, hp.places_cut hp.opening, hp.places_cut hp.colon,
    hp.places_cut hp.closing, hp.places_cut hp.comma, hp.places_cut hp.colon, hp.places_cut hp.closing]
  have hnil : p.places [] = 0 := rfl
  have hspace := hpieces " " (by decide)
  have hheaders := hpieces "headers" (by decide)
  have horigin := hpieces "origin" (by decide)
  have hagent := hpieces " agent" (by decide)
  have hproxy := hpieces " proxyAgent" (by decide)
  omega

theorem places_openSocket {p : Pattern} (hp : p.Foreign) (hpieces : ∀ x ∈ optionPieces, p.places x = 0) (m : Match)
    (origin a b : Text) :
    p.places (a ++ openSocket.build m origin ++ b) = p.places (a ++ ("new WebSocket(" ++ m.named "args")) +
      p.places (" \"" ++ origin ++ "\"") + p.places (")" ++ (m.named "tail" ++ b)) := by
  have hcut : a ++ openSocket.build m origin ++ b = a ++ ("new WebSocket(" ++ m.named "args") ++ Text.mark ',' ++
      (" " ++ socketOptions origin ++ (")" ++ (m.named "tail" ++ b))) := by
    simp [openSocket, Text.ofString]
  rw [hcut, hp.places_cut hp.comma, places_socketOptions hp hpieces]
  omega

theorem build_reportSocketError (m : Match) (origin : Text) :
    reportSocketError.build m origin =
      m.named "obj" ++ "." ++ m.named "prop" ++ ".onerror=function(err)" ++ "\x7b" ++
        (m.named "method_obj" ++ "." ++ m.named "method" ++ "(" ++ m.named "truthy" ++
          ");debug && console.error(err)" ++ "\x7d" ++ ";") := by
  simp [reportSocketError, slots, Text.ofString]

theorem not_mem_handlerNames {m : Match} {w : Text} (h : Landmark.socketError.pattern.Reads w m.held) (name : Text)
    (hname : name ∈ (["obj", "prop", "method_obj", "method", "truthy"] : List Text)) {c : CodePoint}
    (hc : c = '"' ∨ c = ';') : c ∉ m.named name := by
  apply Match.not_mem_named h
  simp only [List.mem_cons, List.not_mem_nil, or_false] at hname
  rcases hname with rfl | rfl | rfl | rfl | rfl <;> rcases hc with rfl | rfl <;> decide

theorem places_reportSocketError {p : Pattern} (hp : p.Foreign) {d e : CodePoint}
    (hquote : ∀ w, p.Denotes w → ('"' : CodePoint) ∈ w) (hhead : ∀ w, p.Denotes w → w.head? = some d)
    (hlast : ∀ w, p.Denotes w → w.getLast? = some e) (hd : d ≠ ';') (he : e = '"' ∨ e = ';') {m : Match} {w : Text}
    (h : Landmark.socketError.pattern.Reads w m.held) (origin a b : Text) :
    p.places (a ++ reportSocketError.build m origin ++ b) = p.places a + p.places b := by
  have hout : ∀ c : CodePoint, c = '"' ∨ c = ';' →
      c ∉ m.named "obj" ++ "." ++ m.named "prop" ++ ".onerror=function(err)" := by
    intro c hc
    have hobj := not_mem_handlerNames h "obj" (by decide) hc
    have hprop := not_mem_handlerNames h "prop" (by decide) hc
    have hlit : c ∉ (".onerror=function(err)" : Text) ∧ c ∉ ("." : Text) := by
      rcases hc with rfl | rfl <;> decide
    simp [hobj, hprop, hlit]
  rw [build_reportSocketError]
  apply hp.places_handler hquote hhead hlast (hout _ (.inl rfl)) (hout e he)
  · have hobj := not_mem_handlerNames h "method_obj" (by decide) (.inl rfl)
    have hmethod := not_mem_handlerNames h "method" (by decide) (.inl rfl)
    have htruthy := not_mem_handlerNames h "truthy" (by decide) (.inl rfl)
    have hlit : ('"' : CodePoint) ∉ (");debug && console.error(err)" : Text) ∧ ('"' : CodePoint) ∉ ("." : Text) ∧
        ('"' : CodePoint) ∉ ("(" : Text) := by decide
    simp [hobj, hmethod, htruthy, hlit]
  · decide
  · simpa [Text.ofString] using hd

def challengeArm : Text := "case \"recaptcha\":console.log(new Error(\"" ++ challengeNotice ++ "\"))"

def noticeCall : Text := "console.log(new Error(\"Invalid Token Provided!\"))"

theorem build_refuseChallenge (m : Match) (origin : Text) :
    refuseChallenge.build m origin = "case \"recaptcha\"" ++ Text.mark ':' ++ noticeCall := by
  simp [refuseChallenge, challengeNotice, noticeCall, Text.ofString]

theorem places_refuseChallenge {p : Pattern} (hp : p.Foreign) {a b : Text} (hleft : p.Apart a "case \"recaptcha\"")
    (hcase : p.places "case \"recaptcha\"" = 0) (hright : p.Apart noticeCall b) (hcall : p.places noticeCall = 0)
    (m : Match) (origin : Text) : p.places (a ++ refuseChallenge.build m origin ++ b) = p.places a + p.places b := by
  have hcut : a ++ refuseChallenge.build m origin ++ b =
      a ++ "case \"recaptcha\"" ++ Text.mark ':' ++ (noticeCall ++ b) := by
    simp [build_refuseChallenge]
  rw [hcut, hp.places_cut hp.colon, places_append hp.edgeFree hleft, places_append hp.edgeFree hright, hcase, hcall]
  omega

end Rule
end Rehost
