import Rehost.Proofs.Run.Trail
import Rehost.Proofs.Script.Replacement
import Rehost.Proofs.Table

/-! What a run says of itself. The rules count landmarks, a later pass counts two more, each pass notes the lengths of
the texts that it takes up and leaves, and the report gathers counts, warnings and a length of its own. After a run that
succeeds all of them agree with each other and with the texts that were handed on. -/
namespace Rehost
open Context

theorem Landmark.count_pos {l : Landmark} {t : Text} {m : Match} (h : l.search? t = some m) : 1 ≤ l.count t := by
  rw [Nat.one_le_iff_ne_zero, Ne, count_eq_zero_iff, h]
  exact Option.some_ne_none m

namespace Rule

theorem counts_applyFrom {origin source result : Text} {counts counts' : Table Nat} {rs : List Rule}
    (h : applyFrom origin counts rs source = .ok (result, counts')) (hnames : (counts.keys ++ rs.map name).Nodup) :
    ∃ found, counts' = counts ++ found ∧ found.keys = rs.map name ∧ (∀ e ∈ found, 1 ≤ e.2) ∧
      ∀ before r behind, rs = before ++ r :: behind →
        ∃ t n, applyFrom origin counts before source = .ok (t, n) ∧ (r.name, r.landmark.count t) ∈ found := by
  induction rs generalizing counts source with
  | nil =>
    simp only [applyFrom, Except.ok.injEq, Prod.mk.injEq] at h
    exact ⟨[], by simp [h.2], rfl, by simp, by simp⟩
  | cons r rs ih =>
    obtain ⟨m, t, hreplaces, hrest⟩ := applyFrom_cons_eq_ok h
    have hnew : r.name ∉ counts.keys := by
      intro hmem
      rw [List.nodup_append] at hnames
      exact hnames.2.2 _ hmem _ (by simp) rfl
    rw [Table.put_of_not_mem hnew] at hrest
    obtain ⟨found, rfl, hkeys, hpositive, hcounts⟩ := ih hrest (by simpa [Table.keys] using hnames)
    refine ⟨(r.name, r.landmark.count source) :: found, by simp, by simp [Table.keys, ← hkeys], ?_, ?_⟩
    · exact List.forall_mem_cons.2 ⟨Landmark.count_pos hreplaces.found, hpositive⟩
    · intro before r' behind hsplit
      cases before with
      | nil =>
        obtain ⟨rfl, rfl⟩ := List.cons.inj hsplit
        exact ⟨source, counts, rfl, List.mem_cons_self⟩
      | cons r'' before =>
        obtain ⟨rfl, rfl⟩ := List.cons.inj hsplit
        obtain ⟨t', n, hrun, hmem⟩ := hcounts before r' behind rfl
        refine ⟨t', n, ?_, List.mem_cons_of_mem _ hmem⟩
        rw [applyFrom, apply_of_search? hreplaces.found, ← hreplaces.after_eq]
        simpa only [bind, Except.bind, Table.put_of_not_mem hnew] using hrun

theorem names_nodup : (all.map name).Nodup := by decide

end Rule

namespace Pass

theorem name_inj {p q : Pass} : p.name = q.name ↔ p = q := by
  cases p <;> cases q <;> decide

def noted? (notes : Table Value) (p : Pass) (key : Text) : Option Value :=
  match notes.get? p.name with
  | some (.table entries) => Value.field? key entries
  | _ => none

theorem field?_ofFields (key : Text) (fields : Table Json) :
    Value.field? key (Value.ofFields fields) = (fields.get? key).map Value.ofJson := by
  induction fields with
  | nil => rfl
  | cons e fields ih =>
    obtain ⟨k, v⟩ := e
    simp only [Value.ofFields, Value.field?, Table.get?, ih]
    split <;> rfl

theorem noted?_put (notes : Table Value) (p q : Pass) (fields : Table Json) (key : Text) :
    noted? (notes.put q.name (Value.ofJson (.object fields))) p key =
      if q = p then (fields.get? key).map Value.ofJson else noted? notes p key := by
  by_cases hqp : q = p
  · simp [noted?, hqp, Value.ofJson, field?_ofFields]
  · simp [noted?, hqp, name_inj]

@[simp] theorem keys_integers (counts : Table Nat) : (Report.integers counts).keys = counts.keys := by
  simp [Report.integers, Table.keys]

theorem counted_append (counts counts' : Table Nat) (r : Report) :
    counted counts' (counted counts r) = counted (counts ++ counts') r := by
  simp [counted, Report.integers]

theorem landmarks_counted {counts : Table Nat} {r : Report} (hnone : r.landmarks = []) (h : counts.keys.Nodup) :
    (counted counts r).landmarks = Report.integers counts := by
  rw [← keys_integers] at h
  rw [counted, hnone]
  exact Table.putAll_of_nodup h

theorem repeatWarnings_eq {counts : Table Nat} {name : Text} (h : name ∉ counts.keys) :
    repeatWarnings counts = ((Report.integers counts).filter fun e => e.1 ≠ name ∧ 1 < e.2).map
      fun e => onlyFirstChanged e.1 e.2.toNat := by
  rw [repeatWarnings, Report.integers, List.filter_map, List.map_map]
  have hfilter : counts.filter (fun e => decide (1 < e.2)) =
      counts.filter ((fun e : Text × Int => decide (e.1 ≠ name ∧ 1 < e.2)) ∘ fun e => (e.1, (e.2 : Int))) := by
    refine List.filter_congr fun e he => ?_
    have hname : e.1 ≠ name := fun heq => h (heq ▸ List.mem_map_of_mem he)
    simp only [Function.comp_apply, ne_eq, hname, not_false_eq_true, true_and, decide_eq_decide]
    omega
  rw [hfilter]
  rfl

end Pass

namespace Pipeline
open Pass

def countedNames : List Text :=
  ["hbInitAssignment", "webSocketConstruction", "socketErrorHandler", "captchaCase", "initGuard", "configLookupCall"]

/-- The passes that hand a text on, each with the one that takes it up. -/
def handovers : List (Pass × Pass) := [(.browser, .rules), (.rules, .capabilities), (.capabilities, .envelope)]

/-- The counts, the warnings and the lengths that a run from `c` to `c'` leaves, where its rules announce `origin` and
make `replaced` of the stripped script. -/
structure Agreement (origin replaced : Text) (c c' : Context) : Prop where
  names : c'.report.landmarks.keys = countedNames
  positive : ∀ e ∈ c'.report.landmarks, 1 ≤ e.2
  rules : ∀ before r behind, Rule.all = before ++ r :: behind →
    ∃ t n, Rule.applyAll origin before (Browser.strip c.stageText) = .ok (t, n) ∧
      c'.report.landmarks.get? r.name = some (r.landmark.count t)
  others : ∀ l ∈ [Landmark.initGuard, Landmark.lookup], c'.report.landmarks.get? l.name = some (l.count replaced)
  warnings : c'.report.warnings = (c'.report.landmarks.filter fun e => e.1 ≠ Landmark.lookup.name ∧ 1 < e.2).map
    fun e => onlyFirstChanged e.1 e.2.toNat
  taken : noted? c'.notes .browser "input_length" = some (.int c.stageText.length)
  handed : ∀ e ∈ handovers, ∃ n : Nat, noted? c'.notes e.1 "output_length" = some (.int n) ∧
    noted? c'.notes e.2 "input_length" = some (.int n)
  wrapped : ∃ header inside footer : Nat, noted? c'.notes .envelope "header_length" = some (.int header) ∧
    noted? c'.notes .envelope "input_length" = some (.int inside) ∧
    noted? c'.notes .envelope "footer_length" = some (.int footer) ∧
    noted? c'.notes .envelope "output_length" = some (.int c'.output.length) ∧
    header + inside + footer = c'.output.length ∧ c'.report.outputLength = c'.output.length

theorem trail_cons {c c' : Context} {stages : List Stage} {p : Pass} {ps : List Pass} (h : Trail c stages c')
    (hps : stages.map Stage.pass = p :: ps) :
    ∃ noticed c₁ rest, p.apply c = .ok (noticed, c₁) ∧ Trail (c₁.noting p.name noticed) rest c' ∧
      rest.map Stage.pass = ps := by
  cases h with
  | nil => simp at hps
  | cons happly hrest =>
    obtain ⟨rfl, hrest'⟩ := List.cons.inj hps
    exact ⟨_, _, _, happly, hrest, hrest'⟩

def summary (taken left : Text) (more : Table Json) : Json :=
  .object (("input_length", .nat taken.length) :: ("output_length", .nat left.length) :: more)

def otherCounts (replaced : Text) : Table Nat :=
  [(Landmark.initGuard.name, Landmark.initGuard.count replaced), (Landmark.lookup.name, Landmark.lookup.count replaced)]

theorem leaves_of_trail {c c' : Context} {stages : List Stage} (h : Trail c stages c')
    (hps : stages.map Stage.pass = Pass.all) :
    ∃ origin replaced counts injected guard lookup first more₁ more₂ more₃, Pass.origin c = .ok origin ∧
      Rule.applyAll origin Rule.all (Browser.strip c.stageText) = .ok (replaced, counts) ∧
      Landmark.initGuard.search? replaced = some guard ∧ Landmark.lookup.search? replaced = some lookup ∧
      c'.notes = ((((c.notes.put buildHash.name first).put browser.name
        (Value.ofJson (summary c.stageText (Browser.strip c.stageText) more₁))).put rules.name
        (Value.ofJson (summary (Browser.strip c.stageText) replaced more₂))).put capabilities.name
        (Value.ofJson (summary replaced injected more₃))).put envelope.name
        (Value.ofJson (summary injected c'.output [("header_length", .nat Envelope.header.length),
          ("footer_length", .nat Envelope.footer.length)])) ∧
      c'.output = Envelope.wrap injected ∧ c'.report.outputLength = c'.output.length ∧
      c'.report.landmarks = (counted (otherCounts replaced) (counted counts c.report)).landmarks ∧
      c'.report.warnings = c.report.warnings ++ repeatWarnings counts ++
        repeatWarnings [(Landmark.initGuard.name, Landmark.initGuard.count replaced)] := by
  obtain ⟨_, _, _, happly, h, hps⟩ := trail_cons h hps
  obtain ⟨rfl, rfl⟩ := Prod.mk.inj (Except.ok.inj happly)
  obtain ⟨_, _, _, happly, h, hps⟩ := trail_cons h hps
  obtain ⟨rfl, rfl⟩ := Prod.mk.inj (Except.ok.inj happly)
  obtain ⟨_, _, _, happly, h, hps⟩ := trail_cons h hps
  obtain ⟨origin, replaced, counts, horigin, hrules, rfl, rfl⟩ := apply_rules_eq_ok happly
  obtain ⟨_, _, _, happly, h, hps⟩ := trail_cons h hps
  obtain ⟨injected, hinject, rfl, rfl⟩ := apply_capabilities_eq_ok happly
  obtain ⟨⟨guard, hguard⟩, lookup, hlookup⟩ := Capability.search?_of_inject hinject
  obtain ⟨_, _, _, happly, h, hps⟩ := trail_cons h hps
  obtain ⟨rfl, rfl⟩ := Prod.mk.inj (Except.ok.inj happly)
  obtain rfl := List.map_eq_nil_iff.1 hps
  cases h
  exact ⟨origin, replaced, counts, injected, guard, lookup, _, _, _, _, horigin, hrules, hguard, hlookup, rfl, rfl, rfl,
    rfl, rfl⟩

theorem countedNames_nodup : countedNames.Nodup := by decide

theorem keys_counts {counts : Table Nat} (hkeys : counts.keys = Rule.all.map Rule.name) (replaced : Text) :
    (counts ++ otherCounts replaced).keys = countedNames := by
  rw [Table.keys, List.map_append]
  exact congrArg (· ++ [Landmark.initGuard.name, Landmark.lookup.name]) hkeys

/-- The counts of the rules and of the guard are warned of, that of the look-up calls is not. -/
theorem warnings_counts {counts : Table Nat} (hkeys : counts.keys = Rule.all.map Rule.name) (replaced : Text) :
    repeatWarnings counts ++ repeatWarnings [(Landmark.initGuard.name, Landmark.initGuard.count replaced)] =
      ((Report.integers (counts ++ otherCounts replaced)).filter fun e => e.1 ≠ Landmark.lookup.name ∧ 1 < e.2).map
        fun e => onlyFirstChanged e.1 e.2.toNat := by
  have hrules : Landmark.lookup.name ∉ counts.keys := by
    rw [hkeys]
    decide
  have hguard : Landmark.lookup.name ∉ Table.keys [(Landmark.initGuard.name, Landmark.initGuard.count replaced)] := by
    change Landmark.lookup.name ∉ [Landmark.initGuard.name]
    decide
  have hsplit : Report.integers (counts ++ otherCounts replaced) = Report.integers counts ++
      Report.integers [(Landmark.initGuard.name, Landmark.initGuard.count replaced)] ++
      [(Landmark.lookup.name, (Landmark.lookup.count replaced : Int))] := by
    simp [Report.integers, otherCounts]
  rw [repeatWarnings_eq hrules, repeatWarnings_eq hguard, hsplit, List.filter_append, List.filter_append,
    List.map_append, List.map_append, List.filter_singleton]
  simp

theorem positive_counts {counts : Table Nat} {replaced : Text} {guard lookup : Match}
    (hrules : ∀ e ∈ counts, 1 ≤ e.2) (hguard : Landmark.initGuard.search? replaced = some guard)
    (hlookup : Landmark.lookup.search? replaced = some lookup) : ∀ e ∈ counts ++ otherCounts replaced, 1 ≤ e.2 := by
  refine List.forall_mem_append.2 ⟨hrules, ?_⟩
  simp only [otherCounts, List.forall_mem_cons]
  exact ⟨Landmark.count_pos hguard, Landmark.count_pos hlookup, by simp⟩

theorem agreement_of_trail {c c' : Context} {stages : List Stage} (h : Trail c stages c')
    (hps : stages.map Stage.pass = Pass.all) (hlandmarks : c.report.landmarks = []) (hwarnings : c.report.warnings = []) :
    ∃ origin replaced counts, Pass.origin c = .ok origin ∧
      Rule.applyAll origin Rule.all (Browser.strip c.stageText) = .ok (replaced, counts) ∧
      Agreement origin replaced c c' := by
  obtain ⟨origin, replaced, counts, injected, guard, lookup, first, more₁, more₂, more₃, horigin, hrules, hguard,
    hlookup, hnotes, houtput, hlength, hreport, hwarned⟩ := leaves_of_trail h hps
  obtain ⟨found, heq, hkeys, hpositive, hcounts⟩ := Rule.counts_applyFrom hrules Rule.names_nodup
  obtain rfl : counts = found := heq
  refine ⟨origin, replaced, counts, horigin, hrules, ?_⟩
  have hnames := keys_counts hkeys replaced
  have hnodup : (counts ++ otherCounts replaced).keys.Nodup := hnames ▸ countedNames_nodup
  have hall : c'.report.landmarks = Report.integers (counts ++ otherCounts replaced) := by
    rw [hreport, counted_append, landmarks_counted hlandmarks hnodup]
  have hget : ∀ name n, (name, n) ∈ counts ++ otherCounts replaced → c'.report.landmarks.get? name = some (n : Int) := by
    intro name n hmem
    rw [hall, ← Table.mem_iff_get? (by rwa [keys_integers])]
    exact List.mem_map_of_mem hmem
  exact {
    names := by rw [hall, keys_integers, hnames]
    positive := by
      intro e he
      rw [hall] at he
      obtain ⟨e', he', rfl⟩ := List.mem_map.1 he
      exact Int.ofNat_le.2 (positive_counts hpositive hguard hlookup e' he')
    rules := by
      intro before r behind hsplit
      obtain ⟨t, n, hrun, hmem⟩ := hcounts before r behind hsplit
      exact ⟨t, n, hrun, hget _ _ (List.mem_append_left _ hmem)⟩
    others := by
      intro l hl
      simp only [List.mem_cons, List.not_mem_nil, or_false] at hl
      rcases hl with rfl | rfl
      · exact hget _ _ (by simp [otherCounts])
      · exact hget _ _ (by simp [otherCounts])
    warnings := by rw [hwarned, hwarnings, List.nil_append, warnings_counts hkeys, hall]
    taken := by
      simp only [hnotes, summary, noted?_put]
      rfl
    handed := by
      simp only [hnotes, summary, noted?_put]
      intro e he
      simp only [handovers, List.mem_cons, List.not_mem_nil, or_false] at he
      rcases he with rfl | rfl | rfl
      · exact ⟨_, rfl, rfl⟩
      · exact ⟨_, rfl, rfl⟩
      · exact ⟨_, rfl, rfl⟩
    wrapped := by
      simp only [hnotes, summary, noted?_put]
      refine ⟨_, _, _, rfl, rfl, rfl, rfl, ?_, hlength⟩
      rw [houtput, Envelope.length_wrap] }

/-- A run of all passes that succeeds on an empty report agrees with itself: it counts the six landmarks, each at least
once and each in the text in which it was looked for; it warns of every landmark that stands more than once, but for
look-up calls; each pass notes the length that the one before it has noted; and the length of the output is that of the
envelope around the last text, in the notes and in the report. -/
theorem run_agrees {c c' : Context} {w w' : Machine} {times : List (Text × Binary64)} (hlandmarks : c.report.landmarks = [])
    (hwarnings : c.report.warnings = []) (hrun : exec registry.run c w = (.ok times, c', w')) :
    ∃ origin replaced counts, Pass.origin c = .ok origin ∧
      Rule.applyAll origin Rule.all (Browser.strip c.stageText) = .ok (replaced, counts) ∧
      Agreement origin replaced c c' := by
  rcases exec_registry_run c w with ⟨times', k, w₁, hsucceeds, hall⟩ | ⟨_, _, _, _, _, _, _, _, _, -, -, -, hfails⟩
  · obtain ⟨-, rfl, rfl⟩ : times' = times ∧ k = c' ∧ w₁ = w' := by simpa [hall] using hrun
    obtain ⟨stages, hps, htrail⟩ := trail_of_succeeds hsucceeds
    exact agreement_of_trail htrail hps hlandmarks hwarnings
  · simp [hfails] at hrun

/-- A script with every landmark, one of them twice. -/
def repeatingScript : Text := Conversion.fullScript ++ "new WebSocket(v);"

def emptyMachine : Machine := { disk := ⟨[], []⟩, room := 0 }

def repeatingContext : Context := contextOf repeatingScript Rule.defaultOrigin

theorem run_repeatingContext : ∃ times c' w',
    exec registry.run repeatingContext emptyMachine = (.ok times, c', w') ∧
      c'.report.warnings = ["webSocketConstruction matched 2 times; only the first occurrence was rewritten"] ∧
      ∃ origin replaced counts, Pass.origin repeatingContext = .ok origin ∧
        Rule.applyAll origin Rule.all (Browser.strip repeatingScript) = .ok (replaced, counts) ∧
        Agreement origin replaced repeatingContext c' := by
  have hok : (exec registry.run repeatingContext emptyMachine).1.isOk = true ∧
      (exec registry.run repeatingContext emptyMachine).2.1.report.warnings =
        ["webSocketConstruction matched 2 times; only the first occurrence was rewritten"] := by
    rw [Registry.run, registry_selected]
    decide +kernel
  rcases hrun : exec registry.run repeatingContext emptyMachine with ⟨f | times, c', w'⟩
  · rw [hrun] at hok
    simp [Except.isOk, Except.toBool] at hok
  · rw [hrun] at hok
    exact ⟨times, c', w', rfl, hok.2, run_agrees rfl rfl hrun⟩

end Pipeline
end Rehost
