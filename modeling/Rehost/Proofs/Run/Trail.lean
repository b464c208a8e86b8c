import Rehost.Proofs.Run.Conversion

/-! What a run of passes hands on. Each pass takes up the context that the one before it leaves with its summary noted
down in it; whatever else is kept of a pass changes no context, and where nothing can be written no pass goes on. -/
namespace Rehost
open Context

structure Stage where
  pass : Pass
  noticed : Json
  context : Context

/-- Stages one after another, each on what the one before it hands on. -/
inductive Trail : Context → List Stage → Context → Prop where
  | nil (c : Context) : Trail c [] c
  | cons {p : Pass} {noticed : Json} {c c₁ c' : Context} {stages : List Stage} :
      p.apply c = .ok (noticed, c₁) → Trail (c₁.noting p.name noticed) stages c' →
      Trail c (⟨p, noticed, c₁.noting p.name noticed⟩ :: stages) c'

inductive Failure.Unwritten : Failure → Prop where
  | disk (e : DiskError) : Unwritten (.disk e)
  | unencodable (g : Utf8.Gap) : Unwritten (.unencodable g)

theorem Failure.Unwritten.ofWriting {f : Failure} (h : f.Unwritten) : f.ofWriting = true := by
  cases h <;> rfl

namespace Context

variable {c c' : Context} {w w' : Machine} {f : Failure}

theorem unwritten_of_writeText {p : Path} {t : Text} (h : exec (Host.writeText p t) c w = (.error f, c', w')) :
    f.Unwritten := by
  rcases Conversion.exec_writeText_error h with ⟨e, rfl, -⟩ | ⟨g, rfl, -⟩
  · exact .disk e
  · exact .unencodable g

theorem context_of_writeText {p : Path} {t : Text} (h : exec (Host.writeText p t) c w = (.ok (), c', w')) :
    c' = c := by
  rcases Conversion.exec_writeText p t c w with ⟨f, hf, -⟩ | ⟨d, r, hrun, -⟩
  · simp [h] at hf
  · rw [h] at hrun
    exact congrArg (·.2.1) hrun

theorem recordSummary_eq_error {name : Text} {summary : Json}
    (h : exec (recordSummary name summary) c w = (.error f, c', w')) : f.Unwritten := by
  rw [exec_recordSummary] at h
  split at h
  · simp at h
  · exact unwritten_of_writeText h

theorem recordSummary_eq_ok {name : Text} {summary : Json}
    (h : exec (recordSummary name summary) c w = (.ok (), c', w')) : c' = c.noting name summary := by
  rw [exec_recordSummary] at h
  split at h
  · simp only [Prod.mk.injEq] at h
    exact h.2.1.symm
  · exact context_of_writeText h

theorem writeArtifact_eq_error {name content : Text} (h : exec (writeArtifact name content) c w = (.error f, c', w')) :
    f.Unwritten := by
  rw [exec_writeArtifact] at h
  split at h
  · simp at h
  split at h
  · simp at h
  · exact unwritten_of_writeText h

theorem writeArtifact_eq_ok {name content : Text} (h : exec (writeArtifact name content) c w = (.ok (), c', w')) :
    c' = c := by
  rw [exec_writeArtifact] at h
  split at h
  · simp only [Prod.mk.injEq] at h
    exact h.2.1.symm
  split at h
  · simp only [Prod.mk.injEq] at h
    exact h.2.1.symm
  · exact context_of_writeText h

end Context

namespace Pass

variable {p : Pass} {c c' : Context} {w w' : Machine}

theorem step_eq_ok (h : exec p.step c w = (.ok (), c', w')) :
    ∃ noticed c₁ w₁, p.apply c = .ok (noticed, c₁) ∧ c' = c₁.noting p.name noticed ∧
      exec (recordSummary p.name noticed) c₁ w = (.ok (), c', w₁) ∧
      exec (writeArtifact (p.artifact c').1 (p.artifact c').2) c' w₁ = (.ok (), c', w') := by
  rw [step, exec_bind, exec_perform] at h
  cases happly : p.apply c with
  | error f => simp [happly] at h
  | ok result =>
    obtain ⟨noticed, c₁⟩ := result
    simp only [happly] at h
    rw [exec_bind] at h
    rcases hrecord : exec (recordSummary p.name noticed) c₁ w with ⟨f | _, c₂, w₁⟩
    · simp [hrecord] at h
    rw [hrecord] at h
    simp only at h
    rw [exec_bind, exec_current] at h
    obtain rfl := writeArtifact_eq_ok h
    exact ⟨noticed, c₁, w₁, rfl, recordSummary_eq_ok hrecord, hrecord, h⟩

theorem step_eq_error {f : Failure} (h : exec p.step c w = (.error f, c', w')) :
    p.apply c = .error f ∧ c' = c ∧ w' = w ∨ f.Unwritten := by
  rw [step, exec_bind, exec_perform] at h
  cases happly : p.apply c with
  | error g =>
    simp only [happly, Prod.mk.injEq, Except.error.injEq] at h
    obtain ⟨rfl, rfl, rfl⟩ := h
    exact .inl ⟨rfl, rfl, rfl⟩
  | ok result =>
    obtain ⟨noticed, c₁⟩ := result
    simp only [happly] at h
    right
    rcases exec_bind_eq_error h with hrecord | ⟨_, c₂, w₂, -, h⟩
    · exact recordSummary_eq_error hrecord
    rw [exec_bind, exec_current] at h
    exact writeArtifact_eq_error h

end Pass

namespace Registry

theorem eq_absent_of_blame {name : Text} {finished : List (Text × Binary64)} {f : Failure} {a : Absence}
    (h : blame name finished f = .absent a) : f = .absent a := by
  unfold blame at h
  split at h
  · exact h
  · contradiction

end Registry

namespace Pipeline

theorem succeeds_cons {p : Pass} {ps : List Pass} {c c' : Context} {w w' : Machine}
    (h : Registry.Succeeds (stepsOf (p :: ps)) c w c' w') :
    ∃ c₁ w₁, exec p.step c w = (.ok (), c₁, w₁) ∧
      Registry.Succeeds (stepsOf ps) c₁ (w₁.record (Registry.completion p.name c₁ w₁)) c' w' := by
  cases h with
  | cons hstep hrest => exact ⟨_, _, hstep, hrest⟩

theorem exec_registry_run (c : Context) (w : Machine) :
    (∃ times c' w', Registry.Succeeds (stepsOf Pass.all) c w c' w' ∧ exec registry.run c w = (.ok times, c', w')) ∨
      ∃ done p rest times c₁ w₁ f c' w', Pass.all = done ++ p :: rest ∧ Registry.Succeeds (stepsOf done) c w c₁ w₁ ∧
        exec p.step c₁ w₁ = (.error f, c', w') ∧
        exec registry.run c w = (.error (Registry.blame p.name times f), c', w') := by
  rw [Registry.run, registry_selected]
  rcases Registry.exec_runFrom [] (stepsOf Pass.all) c w with
    ⟨times, c', w', hsucceeds, -, hrun⟩ |
      ⟨done, name, step, rest, times, c₁, w₁, f, c', w', hsteps, hsucceeds, -, hfails, hrun⟩
  · exact .inl ⟨times, c', w', hsucceeds, hrun⟩
  · obtain ⟨ps, qs, hall, rfl, hrest⟩ := List.map_eq_append_iff.1 hsteps
    obtain ⟨p, rest', rfl, hstep, -⟩ := List.map_eq_cons_iff.1 hrest
    obtain ⟨rfl, rfl⟩ := Prod.mk.inj hstep
    exact .inr ⟨ps, p, rest', times, c₁, w₁, f, c', w', hall, hsucceeds, hfails, hrun⟩

/-- Passes that succeed with all their records leave the context to which they come in memory, with their summaries. -/
theorem trail_of_succeeds {ps : List Pass} {c c' : Context} {w w' : Machine}
    (h : Registry.Succeeds (stepsOf ps) c w c' w') : ∃ stages, stages.map Stage.pass = ps ∧ Trail c stages c' := by
  induction ps generalizing c w with
  | nil =>
    cases h
    exact ⟨[], rfl, .nil _⟩
  | cons p ps ih =>
    obtain ⟨c₁, w₁, hstep, hrest⟩ := succeeds_cons h
    obtain ⟨noticed, c₀, -, happly, rfl, -⟩ := Pass.step_eq_ok hstep
    obtain ⟨stages, rfl, htrail⟩ := ih hrest
    exact ⟨_ :: stages, rfl, .cons happly htrail⟩

end Pipeline
end Rehost
