import Rehost.Proofs.Pipeline
import Rehost.Proofs.Run.Registry

/-! The passes of a run on a machine. Each does to the text in hand what it does in memory, whatever it records on the
way, so a run comes to what the passes come to without any record of them. -/
namespace Rehost
open Context

namespace Context

def NamesOrigin (c : Context) : Prop := ∃ origin, Pass.origin c = .ok origin

theorem NamesOrigin.of_core {c k : Context} (h : c.NamesOrigin) (hck : c.core = k.core) : k.NamesOrigin := by
  obtain ⟨origin, horigin⟩ := h
  have hsame : Pass.origin c.core = Pass.origin k.core := congrArg Pass.origin hck
  exact ⟨origin, hsame.symm.trans horigin⟩

end Context

namespace Pass

/-- A pass looks at what the passes work on, and at nothing that was noted down. -/
theorem apply_core (p : Pass) (c : Context) : (p.apply c).map (·.2.core) = (p.apply c.core).map (·.2.core) := by
  cases p with
  | buildHash | browser | envelope => rfl
  | rules =>
    cases horigin : origin c with
    | error f =>
      have hcore : origin c.core = .error f := horigin
      simp only [apply, outcome_rules, horigin, hcore]
      rfl
    | ok origin =>
      have hcore : Pass.origin c.core = .ok origin := horigin
      cases hrun : Rule.applyAll origin Rule.all c.stageText with
      | error a => rw [apply_rules_of_error horigin hrun, apply_rules_of_error hcore hrun]
      | ok result =>
        rw [apply_rules_of_ok horigin hrun, apply_rules_of_ok hcore hrun]
        rfl
  | capabilities =>
    cases hrun : Capability.inject c.stageText with
    | error a =>
      have hcore : Capability.inject c.core.stageText = .error a := hrun
      rw [apply_capabilities_of_error hrun, apply_capabilities_of_error hcore]
    | ok injected =>
      have hcore : Capability.inject c.core.stageText = .ok injected := hrun
      rw [apply_capabilities_of_ok hrun, apply_capabilities_of_ok hcore]
      rfl

theorem apply_eq_ok {p : Pass} {c c' : Context} {noticed : Json} (h : p.apply c = .ok (noticed, c')) :
    c'.artifacts = c.artifacts ∧ c'.trace = c.trace ∧ c'.options = c.options ∧ c'.limits = c.limits ∧
      c'.report.errors = c.report.errors := by
  cases p with
  | buildHash | browser | envelope =>
    obtain ⟨-, rfl⟩ := Prod.mk.inj (Except.ok.inj h)
    exact ⟨rfl, rfl, rfl, rfl, rfl⟩
  | rules =>
    obtain ⟨_, _, _, -, -, -, rfl⟩ := apply_rules_eq_ok h
    exact ⟨rfl, rfl, rfl, rfl, rfl⟩
  | capabilities =>
    obtain ⟨_, -, -, rfl⟩ := apply_capabilities_eq_ok h
    exact ⟨rfl, rfl, rfl, rfl, rfl⟩

theorem namesOrigin_of_apply {p : Pass} {c c' : Context} {noticed : Json} (h : p.apply c = .ok (noticed, c'))
    (hc : c.NamesOrigin) : c'.NamesOrigin := by
  obtain ⟨-, -, hoptions, hlimits, -⟩ := apply_eq_ok h
  obtain ⟨origin, horigin⟩ := hc
  refine ⟨origin, ?_⟩
  rw [← horigin, Pass.origin, Pass.origin, hoptions, hlimits]

theorem apply_eq_error {p : Pass} {c : Context} {f : Failure} (hc : c.NamesOrigin) (h : p.apply c = .error f) :
    ∃ a, f = .absent a := by
  obtain ⟨origin, horigin⟩ := hc
  cases p with
  | buildHash | browser | envelope => contradiction
  | rules =>
    cases hrun : Rule.applyAll origin Rule.all c.stageText with
    | error a => exact ⟨a, (Except.error.inj ((apply_rules_of_error horigin hrun).symm.trans h)).symm⟩
    | ok result => simp [apply_rules_of_ok horigin hrun] at h
  | capabilities =>
    cases hrun : Capability.inject c.stageText with
    | error a => exact ⟨a, (Except.error.inj ((apply_capabilities_of_error hrun).symm.trans h)).symm⟩
    | ok injected => simp [apply_capabilities_of_ok hrun] at h

/-! One pass with all its records. -/

variable {o : Place} {c : Context} {w : Machine}

theorem exec_perform_outcome (p : Pass) (c : Context) (w : Machine) :
    exec p.perform c w = ((p.outcome c).1, (p.outcome c).2, w) := by
  unfold exec
  rw [run_perform]
  rfl

theorem exec_perform (p : Pass) (c : Context) (w : Machine) :
    exec p.perform c w =
      match p.apply c with
      | .error f => (.error f, c, w)
      | .ok (noticed, c') => (.ok noticed, c', w) := by
  rw [exec_perform_outcome]
  cases h : (p.outcome c).1 with
  | error f =>
    have happly : p.apply c = .error f := by simp [apply, h, Except.map]
    rw [happly, outcome_error h]
  | ok noticed =>
    have happly : p.apply c = .ok (noticed, (p.outcome c).2) := by simp [apply, h, Except.map]
    rw [happly]

theorem exec_step_of_error {p : Pass} {f : Failure} (happly : p.apply c = .error f) :
    exec p.step c w = (.error f, c, w) := by
  rw [step, exec_bind, exec_perform, happly]

theorem exec_step_of_plain {p : Pass} {c' : Context} {noticed : Json} (hplain : c.artifacts = none)
    (happly : p.apply c = .ok (noticed, c')) :
    exec p.step c w = (.ok (), c'.noting p.name noticed, c'.traced p.name noticed w) := by
  have hplain' : c'.artifacts = none := (apply_eq_ok happly).1.trans hplain
  have hnoted : (c'.noting p.name noticed).artifacts = none := hplain'
  rw [step, exec_bind, exec_perform, happly]
  simp only
  rw [exec_bind, exec_recordSummary, hplain']
  simp only
  rw [exec_bind, exec_current]
  simp only
  rw [exec_writeArtifact, hnoted]

/-- A pass that fails has changed nothing; one that succeeds has only its records to keep behind what it does. -/
theorem exec_step (h : Clear o c.artifacts c.trace w) (p : Pass) :
    (∃ f, p.apply c = .error f ∧ exec p.step c w = (.error f, c, w)) ∨
      ∃ noticed c', p.apply c = .ok (noticed, c') ∧ OnlyRecords o c' w (exec p.step c w) := by
  cases happly : p.apply c with
  | error f =>
    exact .inl ⟨f, rfl, exec_step_of_error happly⟩
  | ok result =>
    obtain ⟨noticed, c'⟩ := result
    refine .inr ⟨noticed, c', rfl, ?_⟩
    obtain ⟨hartifacts, htrace, -⟩ := apply_eq_ok happly
    have h' : Clear o c'.artifacts c'.trace w := by rwa [hartifacts, htrace]
    rw [step, exec_bind, exec_perform, happly]
    simp only
    refine OnlyRecords.bind (onlyRecords_recordSummary h' ?_ ?_ noticed) fun _ c₁ w₁ hc₁ hw₁ => ?_
    · cases p <;> decide
    · cases p <;> decide
    rw [exec_bind, exec_current]
    simp only
    refine onlyRecords_writeArtifact (h'.of_same hc₁ hw₁) ?_ ?_ _
    · cases p <;> simp only [artifact] <;> decide
    · cases p <;> simp only [artifact] <;> decide

end Pass

namespace Registry

variable {m : Type → Type} [Monad m] [Host m]

theorem blame_absent (name : Text) (finished : List (Text × Binary64)) (a : Absence) :
    blame name finished (.absent a) = .absent a := rfl

theorem blame_ofWriting {f : Failure} (h : f.ofWriting = true) (name : Text) (finished : List (Text × Binary64)) :
    (blame name finished f).ofWriting = true := by
  unfold blame
  split
  · exact h
  · exact h

end Registry

namespace Pipeline

def stepsOf (ps : List Pass) : List (Text × Step (StateM Machine) Unit) := ps.map fun p => (p.name, p.step)

section
variable {p : Pass} {c c₁ : Context} {w w₁ : Machine}

theorem exec_runFrom_ok (h : exec p.step c w = (.ok (), c₁, w₁)) (finished : List (Text × Binary64)) (ps : List Pass) :
    exec (Registry.runFrom finished (stepsOf (p :: ps))) c w =
      exec (Registry.runFrom (finished ++ [(p.name, w₁.pace)]) (stepsOf ps)) c₁
        (w₁.record (Registry.completion p.name c₁ w₁)) :=
  Registry.exec_runFrom_ok h finished _

theorem exec_runFrom_error {f : Failure} (h : exec p.step c w = (.error f, c₁, w₁))
    (finished : List (Text × Binary64)) (ps : List Pass) :
    exec (Registry.runFrom finished (stepsOf (p :: ps))) c w = (.error (Registry.blame p.name finished f), c₁, w₁) :=
  Registry.exec_runFrom_error h finished _

end

theorem registry_selected {m : Type → Type} [Monad m] [Host m] :
    (registry : Registry m).selected = Pass.all.map fun p => (p.name, p.step) := by
  have hentries : (registry : Registry m).entries = orders.map fun e => (e.1.name, e.2, e.1.step) := rfl
  rw [Registry.selected, hentries, List.mergeSort_of_pairwise]
  · rfl
  · simp [orders, Registry.precedes]

theorem applyAll_core {c k : Context} (h : c.core = k.core) (ps : List Pass) :
    (applyAll ps c).map Context.core = (applyAll ps k).map Context.core := by
  induction ps generalizing c k with
  | nil => exact congrArg Except.ok h
  | cons p ps ih =>
    have hp : (p.apply c).map (·.2.core) = (p.apply k).map (·.2.core) := by
      rw [p.apply_core c, p.apply_core k, h]
    cases hc : p.apply c with
    | error f =>
      cases hk : p.apply k with
      | error g => simpa [applyAll, hc, hk, bind, Except.bind, Except.map] using hp
      | ok y => simp [hc, hk, Except.map] at hp
    | ok x =>
      cases hk : p.apply k with
      | error g => simp [hc, hk, Except.map] at hp
      | ok y =>
        have hxy : x.2.core = y.2.core := by simpa [hc, hk, Except.map] using hp
        simpa [applyAll, hc, hk, bind, Except.bind] using ih hxy

/-- What a run of passes came to: what they come to in memory, unless something could not be written. -/
structure AsInMemory (o : Place) (ps : List Pass) (c : Context) (w : Machine)
    (out : Except Failure α × Context × Machine) : Prop where
  keeps : w.Keeps o out.2.2
  result : out.1.map (fun _ => out.2.1.core) = (applyAll ps c).map Context.core ∨ Refused out

variable {o : Place} {c : Context} {w : Machine}

theorem asInMemory_runFrom (h : Clear o c.artifacts c.trace w) (hc : c.NamesOrigin) (finished : List (Text × Binary64))
    (ps : List Pass) : AsInMemory o ps c w (exec (Registry.runFrom finished (stepsOf ps)) c w) := by
  induction ps generalizing c w finished with
  | nil => exact ⟨.refl w, .inl rfl⟩
  | cons p ps ih =>
    rcases Pass.exec_step h p with ⟨f, happly, hstep⟩ | ⟨noticed, c', happly, honly⟩
    · obtain ⟨a, rfl⟩ := Pass.apply_eq_error hc happly
      rw [exec_runFrom_error hstep]
      refine ⟨.refl w, .inl ?_⟩
      simp [applyAll, happly, Registry.blame_absent, bind, Except.bind, Except.map]
    rcases hstep : exec p.step c w with ⟨result, c₁, w₁⟩
    rw [hstep] at honly
    cases result with
    | error f =>
      rw [exec_runFrom_error hstep]
      exact ⟨honly.keeps, .inr ⟨_, rfl, Registry.blame_ofWriting (honly.failure f rfl) ..⟩⟩
    | ok _ =>
      obtain ⟨hartifacts, htrace, -⟩ := Pass.apply_eq_ok happly
      have h' : Clear o c'.artifacts c'.trace w := by rwa [hartifacts, htrace]
      have h₁ := h'.of_same honly.same honly.keeps
      have hc₁ : c₁.NamesOrigin := (Pass.namesOrigin_of_apply happly hc).of_core honly.same.core.symm
      have hnote := Machine.keeps_record h₁.journal (Registry.completion p.name c₁ w₁)
      have hrest := ih (h₁.of_keeps hnote) hc₁ (finished ++ [(p.name, w₁.pace)])
      rw [exec_runFrom_ok hstep]
      refine ⟨honly.keeps.trans (hnote.trans hrest.keeps), ?_⟩
      have happlyAll : (applyAll (p :: ps) c).map Context.core = (applyAll ps c₁).map Context.core := by
        rw [← applyAll_core honly.same.core.symm ps]
        simp [applyAll, happly, bind, Except.bind]
      rw [happlyAll]
      exact hrest.result

theorem asInMemory_run (h : Clear o c.artifacts c.trace w) (hc : c.NamesOrigin) (k : Context) :
    AsInMemory o Pass.all c.prepared w (exec (start c >>= fun _ => registry.run) k w) := by
  have honly := onlyRecords_start h k
  rw [exec_bind]
  rcases hstart : exec (start c) k w with ⟨result, c₁, w₁⟩
  rw [hstart] at honly
  cases result with
  | error f => exact ⟨honly.keeps, .inr ⟨f, rfl, honly.failure f rfl⟩⟩
  | ok _ =>
    have h₁ : Clear o c₁.artifacts c₁.trace w₁ := Clear.of_same (c := c.prepared) h honly.same honly.keeps
    have hrun := asInMemory_runFrom h₁ (NamesOrigin.of_core (c := c.prepared) hc honly.same.core.symm) [] Pass.all
    rw [stepsOf, ← registry_selected] at hrun
    refine ⟨honly.keeps.trans hrun.keeps, ?_⟩
    rw [applyAll_core honly.same.core.symm]
    exact hrun.result

end Pipeline
end Rehost
