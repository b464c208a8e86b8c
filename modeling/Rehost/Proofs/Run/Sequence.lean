import Rehost.Proofs.Run.Passes
import Rehost.Proofs.Script.Wanted
import Rehost.Proofs.Table

/-! Passes in any order and as often as wanted, each on the context that the one before it leaves. A pass that fails
leaves its context as it was, so what a single pass keeps is kept by every sequence of them, whichever of them fail. -/
namespace Rehost
open Context

namespace Rule

theorem keys_applyFrom {origin source result : Text} {counts counts' : Table Nat} {rs : List Rule}
    (h : applyFrom origin counts rs source = .ok (result, counts')) :
    ∀ name ∈ counts'.keys, name ∈ counts.keys ∨ ∃ r ∈ rs, name = r.name := by
  induction rs generalizing counts source with
  | nil =>
    simp only [applyFrom, Except.ok.injEq, Prod.mk.injEq] at h
    obtain ⟨-, rfl⟩ := h
    exact fun name hname => .inl hname
  | cons r rs ih =>
    obtain ⟨m, t, -, hrest⟩ := applyFrom_cons_eq_ok h
    intro name hname
    rcases ih hrest name hname with hold | ⟨r', hr', hname'⟩
    · rcases Table.mem_keys_put.1 hold with hold | hself
      · exact .inl hold
      · exact .inr ⟨r, List.mem_cons_self, hself⟩
    · exact .inr ⟨r', List.mem_cons_of_mem _ hr', hname'⟩

theorem keys_applyAll {origin source result : Text} {counts : Table Nat}
    (h : applyAll origin all source = .ok (result, counts)) :
    ∀ name ∈ counts.keys, ∃ x : Wanted, name = x.landmark.name := by
  intro name hname
  rcases keys_applyFrom h name hname with hnone | ⟨r, hr, hself⟩
  · simp [Table.keys] at hnone
  · simp only [all, List.mem_cons, List.not_mem_nil, or_false] at hr
    rcases hr with rfl | rfl | rfl | rfl
    · exact ⟨.roomInit, hself⟩
    · exact ⟨.socket, hself⟩
    · exact ⟨.socketError, hself⟩
    · exact ⟨.challenge, hself⟩

end Rule

namespace Pass

section
variable {m : Type → Type} [Monad m] [Host m]

/-- Performs passes one after another, whether or not those before have failed, and tells what came of each. -/
def performEach : List Pass → StateT Context m (List (Except Failure Json))
  | [] => return []
  | p :: ps => do
    let result ← (p.perform : Step m Json).run
    return result :: (← performEach ps)

end

def left (ps : List Pass) (c : Context) (w : Machine) : Context :=
  (((performEach ps : StateT Context (StateM Machine) (List (Except Failure Json))).run c).run w).1.2

variable {p : Pass} {ps : List Pass} {c c₁ c' : Context} {w : Machine}

theorem exec_perform_machine (p : Pass) (c : Context) (w : Machine) : (exec p.perform c w).2.2 = w := by
  rw [exec_perform_outcome]

theorem left_cons (p : Pass) (ps : List Pass) (c : Context) (w : Machine) :
    left (p :: ps) c w = left ps (exec p.perform c w).2.1 w := by
  have h : left (p :: ps) c w = left ps (exec p.perform c w).2.1 (exec p.perform c w).2.2 := rfl
  rw [h, exec_perform_machine]

theorem left_append (ps qs : List Pass) (c : Context) (w : Machine) :
    left (ps ++ qs) c w = left qs (left ps c w) w := by
  induction ps generalizing c with
  | nil => rfl
  | cons p ps ih => rw [List.cons_append, left_cons, left_cons, ih]

theorem exec_perform_error {f : Failure} (h : (exec p.perform c w).1 = .error f) : (exec p.perform c w).2 = (c, w) := by
  rw [exec_perform_outcome] at h ⊢
  rw [outcome_error h]

/-- What a sequence of passes keeps of a context, and what it makes sure of. -/
structure Upkeep (ps : List Pass) (c c' : Context) : Prop where
  rawInput : c'.rawInput = c.rawInput := by rfl
  notes : c'.notes = c.notes := by rfl
  options : c'.options = c.options := by rfl
  inputLength : c'.report.inputLength = c.report.inputLength := by rfl
  hash : .buildHash ∈ ps ∨ c.hash = c.report.sourceHash → c'.hash = c'.report.sourceHash := by
    exact fun h => h.resolve_left (by simp)
  output : .envelope ∉ ps → c'.output = c.output ∧ c'.report.outputLength = c.report.outputLength := by
    exact fun _ => ⟨rfl, rfl⟩
  /-- No landmark is forgotten, and those that a rehosting asks for are the only new ones. -/
  landmarks : ∃ new, c'.report.landmarks.keys = c.report.landmarks.keys ++ new ∧
    ∀ name ∈ new, ∃ x : Wanted, name = x.landmark.name := by exact ⟨[], (List.append_nil _).symm, by simp⟩
  warnings : c.report.warnings <+: c'.report.warnings := by exact List.prefix_refl _
  stripped : .browser ∈ ps ∨ (∀ e ∈ c.report.stripped, 0 < e.2) → ∀ e ∈ c'.report.stripped, 0 < e.2 := by
    exact fun h => h.resolve_left (by simp)

namespace Upkeep

theorem refl (c : Context) : Upkeep [] c c := {}

theorem cons (h : Upkeep [p] c c₁) (h' : Upkeep ps c₁ c') : Upkeep (p :: ps) c c' where
  rawInput := h'.rawInput.trans h.rawInput
  notes := h'.notes.trans h.notes
  options := h'.options.trans h.options
  inputLength := h'.inputLength.trans h.inputLength
  hash hhash := by
    refine h'.hash ?_
    rcases hhash with hmem | hsame
    · rcases List.mem_cons.1 hmem with rfl | hmem
      · exact .inr (h.hash (.inl List.mem_cons_self))
      · exact .inl hmem
    · exact .inr (h.hash (.inr hsame))
  output hnot := by
    have hp : .envelope ∉ [p] := fun hmem => hnot (by simpa using .inl (List.mem_singleton.1 hmem))
    have hps : .envelope ∉ ps := fun hmem => hnot (List.mem_cons_of_mem _ hmem)
    exact ⟨(h'.output hps).1.trans (h.output hp).1, (h'.output hps).2.trans (h.output hp).2⟩
  landmarks := by
    obtain ⟨new, hkeys, hnew⟩ := h.landmarks
    obtain ⟨new', hkeys', hnew'⟩ := h'.landmarks
    refine ⟨new ++ new', by rw [hkeys', hkeys, List.append_assoc], fun name hname => ?_⟩
    exact (List.mem_append.1 hname).elim (hnew name) (hnew' name)
  warnings := h.warnings.trans h'.warnings
  stripped hstripped := by
    refine h'.stripped ?_
    rcases hstripped with hmem | hpositive
    · rcases List.mem_cons.1 hmem with rfl | hmem
      · exact .inr (h.stripped (.inl List.mem_cons_self))
      · exact .inl hmem
    · exact .inr (h.stripped (.inr hpositive))

end Upkeep

/-! One pass, where it succeeds. -/

theorem keys_counted {counts : Table Nat} (h : ∀ name ∈ counts.keys, ∃ x : Wanted, name = x.landmark.name)
    (r : Report) :
    ∃ new, (counted counts r).landmarks.keys = r.landmarks.keys ++ new ∧
      ∀ name ∈ new, ∃ x : Wanted, name = x.landmark.name := by
  obtain ⟨new, hkeys, hnew⟩ := Table.keys_putAll (Report.integers counts) r.landmarks
  refine ⟨new, hkeys, fun name hname => h name ?_⟩
  simpa [Report.integers, Table.keys] using hnew name hname

theorem stripped_pos (t : Text) : ∀ e ∈ Report.integers ((Browser.counts t).filter (·.2 ≠ 0)), 0 < e.2 := by
  intro e he
  obtain ⟨e', he', rfl⟩ := List.mem_map.1 he
  have hne : e'.2 ≠ 0 := by simpa using (List.mem_filter.1 he').2
  exact Int.natCast_pos.2 (Nat.pos_of_ne_zero hne)

theorem upkeep_rules {noticed : Json} (h : rules.apply c = .ok (noticed, c')) : Upkeep [.rules] c c' := by
  obtain ⟨origin, replaced, counts, -, hrun, -, rfl⟩ := apply_rules_eq_ok h
  exact {
    landmarks := keys_counted (Rule.keys_applyAll hrun) c.report
    warnings := List.prefix_append _ _ }

theorem upkeep_capabilities {noticed : Json} (h : capabilities.apply c = .ok (noticed, c')) :
    Upkeep [.capabilities] c c' := by
  obtain ⟨injected, -, -, rfl⟩ := apply_capabilities_eq_ok h
  exact {
    landmarks := by
      refine keys_counted (fun name hname => ?_) c.report
      simp only [Table.keys, List.map_cons, List.map_nil, List.mem_cons, List.not_mem_nil, or_false] at hname
      rcases hname with rfl | rfl
      · exact ⟨.initGuard, rfl⟩
      · exact ⟨.lookup, rfl⟩
    warnings := List.prefix_append _ _ }

theorem upkeep_apply {noticed : Json} (h : p.apply c = .ok (noticed, c')) : Upkeep [p] c c' := by
  cases p with
  | buildHash =>
    obtain ⟨-, rfl⟩ := Prod.mk.inj (Except.ok.inj h)
    exact { hash := fun _ => rfl }
  | browser =>
    obtain ⟨-, rfl⟩ := Prod.mk.inj (Except.ok.inj h)
    exact { stripped := fun _ => stripped_pos c.stageText }
  | rules => exact upkeep_rules h
  | capabilities => exact upkeep_capabilities h
  | envelope =>
    obtain ⟨-, rfl⟩ := Prod.mk.inj (Except.ok.inj h)
    exact { output := fun hnot => absurd List.mem_cons_self hnot }

/-! Any pass, and a sequence of them. -/

theorem upkeep_perform (p : Pass) (c : Context) (w : Machine) : Upkeep [p] c (exec p.perform c w).2.1 := by
  rw [exec_perform]
  cases happly : p.apply c with
  | error f =>
    cases p with
    | buildHash | browser | envelope => contradiction
    | rules | capabilities => exact {}
  | ok result => exact upkeep_apply happly

theorem upkeep_left (ps : List Pass) (c : Context) (w : Machine) : Upkeep ps c (left ps c w) := by
  induction ps generalizing c with
  | nil => exact .refl c
  | cons p ps ih =>
    rw [left_cons]
    exact (upkeep_perform p c w).cons (ih _)

theorem output_left (before : List Pass) {behind : List Pass} (h : .envelope ∉ behind) (c : Context) (w : Machine) :
    (left (before ++ .envelope :: behind) c w).output = Envelope.wrap (left before c w).stageText ∧
      (left (before ++ .envelope :: behind) c w).report.outputLength =
        (Envelope.wrap (left before c w).stageText).length := by
  rw [left_append, left_cons]
  exact (upkeep_left behind _ w).output h

/-- Over any sequence of passes, in whatever order and whichever of them fail: a pass that fails leaves the whole
context as it was; the input, the notes, the options and the length of the input stay; the hash is the one that is
reported once it has been looked for; only wrapping changes the output, which from then on is a text in its envelope;
landmarks and warnings are only added; and what is reported as stripped was there. -/
theorem performEach_upkeep (ps : List Pass) (c : Context) (w : Machine) :
    (∀ p f, (exec p.perform (left ps c w) w).1 = .error f → left (ps ++ [p]) c w = left ps c w) ∧
      Upkeep ps c (left ps c w) ∧
      ∀ before behind, ps = before ++ .envelope :: behind → .envelope ∉ behind →
        (left ps c w).output = Envelope.header ++ (left before c w).stageText ++ Envelope.footer ∧
          (left ps c w).report.outputLength = (left ps c w).output.length := by
  refine ⟨fun p f hfails => ?_, upkeep_left ps c w, ?_⟩
  · rw [left_append, left_cons, exec_perform_error hfails]
    rfl
  · rintro before behind rfl hlast
    obtain ⟨houtput, hlength⟩ := output_left before hlast c w
    rw [hlength, houtput]
    exact ⟨rfl, rfl⟩

end Pass
end Rehost
