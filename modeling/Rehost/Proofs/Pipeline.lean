import Rehost.Pipeline

/-! What the passes come to in memory: the rules and the capabilities work on the stripped script, one after the other,
and the first absence ends the run. -/
namespace Rehost

@[simp] theorem mapError_ok (f : ε → ε') (x : α) : (Except.ok x : Except ε α).mapError f = .ok x := rfl

@[simp] theorem mapError_error (f : ε → ε') (e : ε) : (Except.error e : Except ε α).mapError f = .error (f e) := rfl

namespace Context

/-! Steps that ask nothing of the host come to the same on every host. -/

section
variable {m : Type → Type} [Monad m] {α β : Type}

theorem run_bind (a : Step m α) (f : α → Step m β) (c : Context) :
    (a >>= f).run.run c = a.run.run c >>= fun out =>
      match out with
      | (.ok x, c') => (f x).run.run c'
      | (.error e, c') => pure (.error e, c') := by
  rw [ExceptT.run_bind, StateT.run_bind]
  congr 1
  funext out
  obtain ⟨_ | x, c'⟩ := out <;> rfl

theorem run_pure (x : α) (c : Context) : (pure x : Step m α).run.run c = pure (.ok x, c) := rfl

theorem run_fromExcept (x : Except Failure α) (c : Context) : (fromExcept x : Step m α).run.run c = pure (x, c) := rfl

variable [LawfulMonad m]

theorem run_current (c : Context) : (current : Step m Context).run.run c = pure (.ok c, c) :=
  pure_bind ..

theorem run_change (f : Context → Context) (c : Context) : (change f : Step m Unit).run.run c = pure (.ok (), f c) :=
  pure_bind ..

theorem run_amend (f : Report → Report) (c : Context) :
    (amend f : Step m Unit).run.run c = pure (.ok (), { c with report := f c.report }) := run_change ..

end

end Context

namespace Pass
open Context

def counted (counts : Table Nat) (r : Report) : Report :=
  { r with landmarks := (Report.integers counts).foldl (fun t e => t.put e.1 e.2) r.landmarks }

def warned (warnings : List Text) (r : Report) : Report := { r with warnings := r.warnings ++ warnings }

def repeatWarnings (counts : Table Nat) : List Text :=
  (counts.filter fun e => 1 < e.2).map fun e => onlyFirstChanged e.1 e.2

theorem repeatWarnings_cons (name : Text) (count : Nat) (rest : Table Nat) :
    repeatWarnings ((name, count) :: rest) = repeated name count ++ repeatWarnings rest := by
  by_cases h : 1 < count <;> simp [repeatWarnings, repeated, h]

theorem repeatWarnings_single (name : Text) (count : Nat) : repeatWarnings [(name, count)] = repeated name count := by
  rw [repeatWarnings_cons]
  exact List.append_nil _

def rulesNoticed (t replaced origin : Text) (counts : Table Nat) : Json :=
  .object [("input_length", .nat t.length), ("output_length", .nat replaced.length),
    ("matches", .ofCounts counts), ("origin", .text origin), ("warnings", .ofStrings (repeatWarnings counts))]

def capabilitiesNoticed (t injected : Text) : Json :=
  .object [("input_length", .nat t.length), ("output_length", .nat injected.length),
    ("config_lookup", Report.optionalText ((Landmark.lookup.search? t).bind (·.named? "name")))]

def wiringReported (t : Text) (r : Report) : Report :=
  warned (repeatWarnings [(Landmark.initGuard.name, Landmark.initGuard.count t)])
    (counted [(Landmark.initGuard.name, Landmark.initGuard.count t), (Landmark.lookup.name, Landmark.lookup.count t)] r)

section
variable {m : Type → Type} [Monad m] [LawfulMonad m]

theorem run_noteCounts (counts : Table Nat) (c : Context) :
    (noteCounts counts : Step m (List Text)).run.run c =
      pure (.ok (repeatWarnings counts), { c with report := counted counts c.report }) := by
  induction counts generalizing c with
  | nil => rfl
  | cons e rest ih =>
    obtain ⟨name, count⟩ := e
    simp only [noteCounts, noteCount, run_bind, run_amend, pure_bind, ih, run_pure, repeatWarnings_cons]
    rfl

/-- The origin is looked up and every rule is tried before anything changes. -/
theorem run_applyRules (c : Context) :
    (applyRules : Step m Json).run.run c = pure (
      match origin c with
      | .error f => (.error f, c)
      | .ok origin =>
        match Rule.applyAll origin Rule.all c.stageText with
        | .error a => (.error (.absent a), c)
        | .ok (replaced, counts) => (.ok (rulesNoticed c.stageText replaced origin counts),
            { c with stageText := replaced, report := warned (repeatWarnings counts) (counted counts c.report) })) := by
  simp only [applyRules, warn, run_bind, run_current, run_fromExcept, pure_bind]
  cases origin c with
  | error f => rfl
  | ok origin =>
    simp only
    cases Rule.applyAll origin Rule.all c.stageText with
    | error a => rfl
    | ok result =>
      simp only [mapError_ok, run_change, run_amend, run_noteCounts, run_pure, pure_bind]
      rfl

theorem run_addCapabilities (c : Context) :
    (addCapabilities : Step m Json).run.run c = pure (
      match Capability.inject c.stageText with
      | .error a => (.error (.absent a), c)
      | .ok injected => (.ok (capabilitiesNoticed c.stageText injected),
          { c with stageText := injected, report := wiringReported c.stageText c.report })) := by
  simp only [addCapabilities, noteCount, warn, run_bind, run_current, run_fromExcept, pure_bind]
  cases Capability.inject c.stageText with
  | error a => rfl
  | ok injected =>
    simp only [mapError_ok, run_change, run_amend, run_pure, pure_bind, wiringReported, repeatWarnings_single]
    rfl

/-- A pass asks nothing of the host. -/
theorem run_perform (p : Pass) (c : Context) : (p.perform : Step m Json).run.run c = pure (p.outcome c) := by
  unfold outcome
  cases p with
  | buildHash =>
    simp only [perform, extractHash, run_bind, run_current, run_change, run_amend, run_pure, pure_bind]
    rfl
  | browser =>
    simp only [perform, stripBrowser, run_bind, run_current, run_change, run_amend, run_pure, pure_bind]
    rfl
  | rules => simp only [perform, run_applyRules, Id.run_pure]
  | capabilities => simp only [perform, run_addCapabilities, Id.run_pure]
  | envelope =>
    simp only [perform, wrap, run_bind, run_current, run_change, run_amend, run_pure, pure_bind]
    rfl

end

theorem outcome_rules (c : Context) : rules.outcome c =
    match origin c with
    | .error f => (.error f, c)
    | .ok origin =>
      match Rule.applyAll origin Rule.all c.stageText with
      | .error a => (.error (.absent a), c)
      | .ok (replaced, counts) => (.ok (rulesNoticed c.stageText replaced origin counts),
          { c with stageText := replaced, report := warned (repeatWarnings counts) (counted counts c.report) }) :=
  congrArg Id.run (run_applyRules c)

theorem outcome_capabilities (c : Context) : capabilities.outcome c =
    match Capability.inject c.stageText with
    | .error a => (.error (.absent a), c)
    | .ok injected => (.ok (capabilitiesNoticed c.stageText injected),
        { c with stageText := injected, report := wiringReported c.stageText c.report }) :=
  congrArg Id.run (run_addCapabilities c)

/-- A pass that fails has changed nothing: whatever can fail in it comes before its first change. -/
theorem outcome_error {p : Pass} {c : Context} {f : Failure} (h : (p.outcome c).1 = .error f) : (p.outcome c).2 = c := by
  cases p with
  | buildHash | browser | envelope => contradiction
  | rules =>
    rw [outcome_rules] at h ⊢
    cases horigin : origin c with
    | error g => rfl
    | ok origin =>
      cases hrun : Rule.applyAll origin Rule.all c.stageText with
      | error a => simp only [hrun]
      | ok result => simp [horigin, hrun] at h
  | capabilities =>
    rw [outcome_capabilities] at h ⊢
    cases hrun : Capability.inject c.stageText with
    | error a => rfl
    | ok injected => simp [hrun] at h

variable {c c' : Context} {noticed : Json}

theorem apply_rules_of_error {a : Absence} {origin : Text} (hc : Pass.origin c = .ok origin)
    (h : Rule.applyAll origin Rule.all c.stageText = .error a) : rules.apply c = .error (.absent a) := by
  simp only [apply, outcome_rules, hc, h]
  rfl

theorem apply_rules_of_ok {origin replaced : Text} {counts : Table Nat} (hc : Pass.origin c = .ok origin)
    (h : Rule.applyAll origin Rule.all c.stageText = .ok (replaced, counts)) :
    rules.apply c = .ok (rulesNoticed c.stageText replaced origin counts,
      { c with stageText := replaced, report := warned (repeatWarnings counts) (counted counts c.report) }) := by
  simp only [apply, outcome_rules, hc, h]
  rfl

theorem apply_rules_eq_ok (h : rules.apply c = .ok (noticed, c')) :
    ∃ origin replaced counts, Pass.origin c = .ok origin ∧
      Rule.applyAll origin Rule.all c.stageText = .ok (replaced, counts) ∧
      noticed = rulesNoticed c.stageText replaced origin counts ∧
      c' = { c with
        stageText := replaced
        report := warned (repeatWarnings counts) (counted counts c.report) } := by
  simp only [apply, outcome_rules] at h
  cases horigin : origin c with
  | error f => simp [horigin, Except.map] at h
  | ok origin =>
    cases hrun : Rule.applyAll origin Rule.all c.stageText with
    | error a => simp [horigin, hrun, Except.map] at h
    | ok result =>
      simp only [horigin, hrun] at h
      obtain ⟨rfl, rfl⟩ := Prod.mk.inj (Except.ok.inj h)
      exact ⟨origin, _, _, rfl, hrun, rfl, rfl⟩

theorem apply_capabilities_of_error {a : Absence} (h : Capability.inject c.stageText = .error a) :
    capabilities.apply c = .error (.absent a) := by
  simp only [apply, outcome_capabilities, h]
  rfl

theorem apply_capabilities_of_ok {injected : Text} (h : Capability.inject c.stageText = .ok injected) :
    capabilities.apply c = .ok (capabilitiesNoticed c.stageText injected,
      { c with stageText := injected, report := wiringReported c.stageText c.report }) := by
  simp only [apply, outcome_capabilities, h]
  rfl

theorem apply_capabilities_eq_ok (h : capabilities.apply c = .ok (noticed, c')) :
    ∃ injected, Capability.inject c.stageText = .ok injected ∧ noticed = capabilitiesNoticed c.stageText injected ∧
      c' = { c with stageText := injected, report := wiringReported c.stageText c.report } := by
  simp only [apply, outcome_capabilities] at h
  cases hrun : Capability.inject c.stageText with
  | error a => simp [hrun, Except.map] at h
  | ok injected =>
    simp only [hrun] at h
    obtain ⟨rfl, rfl⟩ := Prod.mk.inj (Except.ok.inj h)
    exact ⟨injected, rfl, rfl, rfl⟩

end Pass

namespace Capability

theorem search?_of_inject {t injected : Text} (h : inject t = .ok injected) :
    (∃ guard, Landmark.initGuard.search? t = some guard) ∧ ∃ lookup, Landmark.lookup.search? t = some lookup := by
  cases hguard : Landmark.initGuard.search? t with
  | none => simp [inject, Landmark.require, hguard, bind, Except.bind] at h
  | some guard =>
    cases hlookup : Landmark.lookup.search? t with
    | none => simp [inject, Landmark.require, hguard, hlookup, bind, Except.bind] at h
    | some lookup => exact ⟨⟨guard, rfl⟩, lookup, rfl⟩

end Capability

namespace Pipeline

def rewritten (origin stripped : Text) : Except Absence Text := do
  let (replaced, _) ← Rule.applyAll origin Rule.all stripped
  Capability.inject replaced

theorem rewritten_of_ok {origin stripped t : Text} {counts : Table Nat}
    (h : Rule.applyAll origin Rule.all stripped = .ok (t, counts)) :
    rewritten origin stripped = Capability.inject t := by
  simp [rewritten, h, bind, Except.bind]

theorem rewritten_of_error {origin stripped : Text} {a : Absence}
    (h : Rule.applyAll origin Rule.all stripped = .error a) : rewritten origin stripped = .error a := by
  simp [rewritten, h, bind, Except.bind]

theorem origin_of_table {origin : Text} (h : origin ≠ []) {c : Context}
    (hc : c.options = .table [(.text "origin", .text origin)]) : Pass.origin c = .ok origin := by
  cases origin with
  | nil => contradiction
  | cons d origin => simp [Pass.origin, hc, Value.field?, Value.isGiven, Value.display]

/-- A rehosting is the rewriting of the stripped script in its envelope, or the absence that the rewriting names. -/
theorem rehost_eq {source origin : Text} (h : origin ≠ []) :
    rehost source origin =
      match rewritten origin (Browser.strip source) with
      | .error a => .error (.absent a)
      | .ok body => .ok (Envelope.header ++ body ++ Envelope.footer, BuildHash.extract source) := by
  obtain ⟨c, hstart, hstage, hhash, hoptions⟩ : ∃ c : Context, applyAll Pass.all (contextOf source origin) =
        applyAll [.rules, .capabilities, .envelope] c ∧
      c.stageText = Browser.strip source ∧ c.hash = BuildHash.extract source ∧
      c.options = .table [(.text "origin", .text origin)] := ⟨_, rfl, rfl, rfl, rfl⟩
  unfold rehost rewritten
  rw [hstart, ← hstage]
  have horigin := origin_of_table h hoptions
  cases hrun : Rule.applyAll origin Rule.all c.stageText with
  | error a => simp [applyAll, Pass.apply_rules_of_error horigin hrun, bind, Except.bind]
  | ok result =>
    obtain ⟨noticed, c', hpass, hstage', hhash'⟩ : ∃ noticed c', Pass.rules.apply c = .ok (noticed, c') ∧
        c'.stageText = result.1 ∧ c'.hash = c.hash := ⟨_, _, Pass.apply_rules_of_ok horigin hrun, rfl, rfl⟩
    simp only [applyAll, hpass, ← hstage', bind, Except.bind]
    cases hinject : Capability.inject c'.stageText with
    | error a => simp only [Pass.apply_capabilities_of_error hinject]
    | ok body =>
      simp only [Pass.apply_capabilities_of_ok hinject]
      exact congrArg (fun hash => Except.ok (Envelope.wrap body, hash)) (hhash'.trans hhash)

end Pipeline
end Rehost
