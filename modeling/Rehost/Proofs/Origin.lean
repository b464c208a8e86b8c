import Rehost.Proofs.Pipeline
import Rehost.Proofs.Script.Draft

/-! What a run makes of the origin. The origin comes into the text with the transport and is searched through from there
on, and no plain one changes what is found: two runs that differ in it only fail alike or give the same module but for
the origin itself. -/
namespace Rehost
open Pattern

/-- Fails in the same way for every plain origin, or gives one draft filled with it. -/
def Uniform (f : Text → Except Absence Text) : Prop :=
  (∃ a, ∀ origin, PlainOrigin origin → f origin = .error a) ∨
    ∃ d : Draft, ∀ origin, PlainOrigin origin → f origin = .ok (d.fill origin)

theorem Uniform.bind {f : Text → Except Absence Text} {g : Text → Text → Except Absence Text} (hf : Uniform f)
    (hg : ∀ d : Draft, Uniform fun origin => g origin (d.fill origin)) :
    Uniform fun origin => f origin >>= g origin := by
  rcases hf with ⟨a, hf⟩ | ⟨d, hf⟩
  · exact .inl ⟨a, fun origin ho => by simp [hf origin ho, Bind.bind, Except.bind]⟩
  · rcases hg d with ⟨a, hg⟩ | ⟨d', hg⟩
    · exact .inl ⟨a, fun origin ho => by simp [hf origin ho, Bind.bind, Except.bind, hg origin ho]⟩
    · exact .inr ⟨d', fun origin ho => by simp [hf origin ho, Bind.bind, Except.bind, hg origin ho]⟩

theorem plainOrigin_letter : PlainOrigin "o" := ⟨by decide, by decide, by decide, by decide⟩

namespace Rule

def replaced (r : Rule) (origin source : Text) : Except Absence Text := (r.apply origin source).map Prod.fst

theorem replaced_of_search? {r : Rule} {t : Text} {m : Match} (h : r.landmark.search? t = some m) (origin : Text) :
    r.replaced origin t = .ok (m.splice (r.build m origin)) := by
  simp [replaced, apply_of_search? h, Except.map]

theorem replaced_of_absent {r : Rule} {t : Text} (h : r.landmark.search? t = none) (origin : Text) :
    r.replaced origin t = .error ⟨.site, r.landmark.name, stage, some r.landmark.description⟩ := by
  simp [replaced, apply_of_absent h, Except.map]

theorem map_applyFrom (origin : Text) (counts : Table Nat) (rs : List Rule) (t : Text) :
    (applyFrom origin counts rs t).map Prod.fst = rs.foldlM (fun t r => r.replaced origin t) t := by
  induction rs generalizing counts t with
  | nil => rfl
  | cons r rs ih =>
    rw [List.foldlM_cons]
    cases h : r.apply origin t with
    | error a => simp [applyFrom, replaced, h, Bind.bind, Except.bind, Except.map]
    | ok result =>
      have hreplaced : r.replaced origin t = .ok result.1 := by simp [replaced, h, Except.map]
      rw [hreplaced]
      have happly : applyFrom origin counts (r :: rs) t =
          applyFrom origin (counts.put r.name result.2) rs result.1 := by
        simp [applyFrom, h, Bind.bind, Except.bind]
      rw [happly]
      exact ih (counts.put r.name result.2) result.1

/-- The transport is opened in a text that no origin has come into yet. -/
theorem uniform_openSocket (t : Text) : Uniform fun origin => openSocket.replaced origin t := by
  cases h : openSocket.landmark.search? t with
  | none => exact .inl ⟨_, fun origin _ => replaced_of_absent h origin⟩
  | some m =>
    refine .inr ⟨.around (m.front ++ ("new WebSocket(" ++ m.named "args" ++ ", ")) (")" ++ m.named "tail" ++ m.rest),
      fun origin _ => (replaced_of_search? h origin).trans ?_⟩
    simp [Match.splice_eq, openSocket, Draft.fill]

theorem uniform_of_held {r : Rule} {x : Wanted} (hr : r.landmark = x.landmark) (hx : x.ComesLater)
    (hbuild : ∀ {m m' : Match} {origin origin' : Text}, m.held = m'.held → r.build m origin = r.build m' origin')
    (d : Draft) : Uniform fun origin => r.replaced origin (d.fill origin) := by
  rcases Wanted.search?_fill hx d with hnone | ⟨a, w, b, g, hparts, -, hsome⟩
  · exact .inl ⟨_, fun origin ho => replaced_of_absent (hr ▸ hnone origin ho) origin⟩
  · obtain ⟨m₀, -, -, hg⟩ := hsome _ plainOrigin_letter
    obtain ⟨d', hd'⟩ := hparts.replace (r.build m₀ [])
    refine .inr ⟨d', fun origin ho => ?_⟩
    obtain ⟨m, hm, hat, hheld⟩ := hsome origin ho
    have hbuild : r.build m origin = r.build m₀ [] := hbuild (hheld.trans hg.symm)
    refine (replaced_of_search? (hr ▸ hm) origin).trans ?_
    rw [hat.splice_eq, hbuild, hd']

end Rule

theorem Capability.uniform_inject (d : Draft) : Uniform fun origin => inject (d.fill origin) := by
  rcases Wanted.search?_fill (x := .initGuard) ⟨by decide, by decide⟩ d with hguard | ⟨a, w, b, g, hparts, hw, hguard⟩
  · refine .inl ⟨⟨.collaborator, Landmark.initGuard.name, stage, some Landmark.initGuard.description⟩,
      fun origin ho => ?_⟩
    have hnone : Landmark.initGuard.search? (d.fill origin) = none := hguard origin ho
    simp [inject, Landmark.require, hnone, Bind.bind, Except.bind]
  obtain ⟨t, rfl⟩ : ∃ t, w = .fixed t := hw.resolve_right (by decide)
  rcases Wanted.search?_fill (x := .lookup) ⟨by decide, by decide⟩ d with hlookup | ⟨_, _, _, g', -, -, hlookup⟩
  · refine .inl ⟨⟨.collaborator, Landmark.lookup.name, stage, some Landmark.lookup.description⟩, fun origin ho => ?_⟩
    obtain ⟨m, hm, -, -⟩ := hguard origin ho
    have hsome : Landmark.initGuard.search? (d.fill origin) = some m := hm
    have hnone : Landmark.lookup.search? (d.fill origin) = none := hlookup origin ho
    simp [inject, Landmark.require, hsome, hnone, Bind.bind, Except.bind]
  · obtain ⟨l₀, -, -, hg'⟩ := hlookup _ plainOrigin_letter
    obtain ⟨d', hd'⟩ := hparts.replace (t ++ statements (l₀.named "name"))
    refine .inr ⟨d', fun origin ho => ?_⟩
    obtain ⟨m, hm, hat, -⟩ := hguard origin ho
    obtain ⟨l, hl, -, hheld⟩ := hlookup origin ho
    have hguard : Landmark.initGuard.search? (d.fill origin) = some m := hm
    have hlookup : Landmark.lookup.search? (d.fill origin) = some l := hl
    have hname := Match.named_congr (hheld.trans hg'.symm) "name"
    have htext : m.text = t := hat.text_eq
    rw [← hd']
    simp [inject, Landmark.require, hguard, hlookup, Bind.bind, Except.bind, Pure.pure, Except.pure, hat.splice_eq,
      htext, hname]

namespace Pipeline

theorem rewritten_eq (origin stripped : Text) :
    rewritten origin stripped =
      (Rule.all.foldlM (fun t r => r.replaced origin t) stripped >>= Capability.inject) := by
  rw [← Rule.map_applyFrom origin [] Rule.all, rewritten]
  cases h : Rule.applyAll origin Rule.all stripped with
  | error a =>
    have h : Rule.applyFrom origin [] Rule.all stripped = .error a := h
    simp [h, Bind.bind, Except.bind, Except.map]
  | ok result =>
    have h : Rule.applyFrom origin [] Rule.all stripped = .ok result := h
    simp [h, Bind.bind, Except.bind, Except.map]

theorem uniform_rewritten (stripped : Text) : Uniform fun origin => rewritten origin stripped := by
  simp only [rewritten_eq, Rule.all, List.foldlM_cons, List.foldlM_nil, bind_assoc, pure_bind]
  cases h : Rule.deferInit.landmark.search? stripped with
  | none =>
    refine .inl ⟨⟨.site, Landmark.roomInit.name, Rule.stage, some Landmark.roomInit.description⟩, fun origin _ => ?_⟩
    simp only [Rule.replaced_of_absent h, Bind.bind, Except.bind]
    rfl
  | some m =>
    have hdefer : ∀ origin, Rule.deferInit.replaced origin stripped = .ok (m.splice (Rule.deferInit.build m [])) :=
      fun origin => Rule.replaced_of_search? h origin
    simp only [hdefer]
    change Uniform fun origin => Rule.openSocket.replaced origin _ >>= fun t => _
    refine Uniform.bind (Rule.uniform_openSocket _) fun opened => ?_
    refine Uniform.bind (Rule.uniform_of_held (x := .socketError) rfl ⟨by decide, by decide⟩ ?_ opened)
      fun reported => ?_
    · intro m m' origin origin' hheld
      simp only [Rule.reportSocketError, Match.named_congr hheld]
    exact Uniform.bind (Rule.uniform_of_held (x := .challenge) rfl ⟨by decide, by decide⟩ (fun _ => rfl) reported)
      Capability.uniform_inject

/-! What becomes of a script under all plain origins. -/

def FailsAlike (source : Text) : Prop :=
  ∃ a, ∀ origin, PlainOrigin origin → rehost source origin = .error (.absent a)

def CarriesOrigin (source : Text) : Prop :=
  ∃ front behind hash, ∀ origin, PlainOrigin origin → rehost source origin = .ok (front ++ origin ++ behind, hash)

def DropsOrigin (source : Text) : Prop :=
  ∃ output hash, ∀ origin, PlainOrigin origin → rehost source origin = .ok (output, hash)

def CarriesOptions (source : Text) : Prop :=
  ∃ front behind hash, ∀ origin, PlainOrigin origin →
    rehost source origin = .ok (front ++ Rule.socketOptions origin ++ behind, hash)

theorem carriesOrigin_of_options {source : Text} (h : CarriesOptions source) : CarriesOrigin source := by
  obtain ⟨front, behind, hash, h⟩ := h
  refine ⟨front ++ Rule.optionsFront, Rule.optionsBehind ++ behind, hash, fun origin ho => ?_⟩
  rw [h origin ho, Rule.socketOptions_eq]
  simp

theorem fails_or_carries_or_drops (source : Text) :
    FailsAlike source ∨ CarriesOptions source ∨ DropsOrigin source := by
  rcases uniform_rewritten (Browser.strip source) with ⟨a, h⟩ | ⟨d, h⟩
  · refine .inl ⟨a, fun origin ho => ?_⟩
    rw [rehost_eq ho.given, show rewritten origin _ = _ from h origin ho]
  right
  cases d with
  | fixed t =>
    refine .inr ⟨Envelope.header ++ t ++ Envelope.footer, BuildHash.extract source, fun origin ho => ?_⟩
    rw [rehost_eq ho.given, show rewritten origin _ = _ from h origin ho]
    rfl
  | around a b =>
    refine .inl ⟨Envelope.header ++ a, b ++ Envelope.footer, BuildHash.extract source, fun origin ho => ?_⟩
    rw [rehost_eq ho.given, show rewritten origin _ = _ from h origin ho]
    simp [Draft.fill]

theorem not_carries_and_drops {source : Text} (hcarries : CarriesOrigin source) : ¬ DropsOrigin source := by
  rintro ⟨output, hash, hdrops⟩
  obtain ⟨front, behind, hash', hcarries⟩ := hcarries
  have hlength : ∀ origin, PlainOrigin origin → (front ++ origin ++ behind).length = output.length := by
    intro origin ho
    have h := (hcarries origin ho).symm.trans (hdrops origin ho)
    simp only [Except.ok.injEq, Prod.mk.injEq] at h
    rw [h.1]
  have hone := hlength "o" plainOrigin_letter
  have htwo := hlength "oo" ⟨by decide, by decide, by decide, by decide⟩
  simp only [List.length_append, Text.ofString] at hone htwo
  have : ("o".toList.map CodePoint.ofChar).length = 1 ∧ ("oo".toList.map CodePoint.ofChar).length = 2 := by decide
  omega

/-- Under all plain origins a script fails with the same absence, or becomes the same module but for the origin, which
stands in the options of the transport, or becomes the same module altogether, and never two of these. -/
theorem rehost_plainOrigin (source : Text) :
    (FailsAlike source ∨ CarriesOrigin source ∨ DropsOrigin source) ∧
      ¬ (FailsAlike source ∧ CarriesOrigin source) ∧ ¬ (FailsAlike source ∧ DropsOrigin source) ∧
      ¬ (CarriesOrigin source ∧ DropsOrigin source) ∧ (CarriesOrigin source → CarriesOptions source) := by
  have hall := fails_or_carries_or_drops source
  have hfails : FailsAlike source → ¬ CarriesOrigin source ∧ ¬ DropsOrigin source := by
    rintro ⟨a, hfails⟩
    have h := hfails _ plainOrigin_letter
    constructor
    · rintro ⟨front, behind, hash, hcarries⟩
      rw [hcarries _ plainOrigin_letter] at h
      contradiction
    · rintro ⟨output, hash, hdrops⟩
      rw [hdrops _ plainOrigin_letter] at h
      contradiction
  refine ⟨hall.imp_right (.imp_left carriesOrigin_of_options), fun h => (hfails h.1).1 h.2, fun h => (hfails h.1).2 h.2,
    fun h => not_carries_and_drops h.1 h.2, fun h => ?_⟩
  rcases hall with hfail | hoptions | hdrops
  · exact absurd h (hfails hfail).1
  · exact hoptions
  · exact absurd hdrops (not_carries_and_drops h)

end Pipeline
end Rehost
