import Mathlib.Data.List.Nodup
import Rehost.Proofs.Run.Step
import Rehost.Proofs.Table
import Rehost.Proofs.Text.Order
import Rehost.Registry

/-! A registry after any registrations. The latest registration of a name decides on its order and its step, however the
registrations of different names alternate. A run performs each step once, in order, on what the one before it leaves,
and ends with the first step that fails. -/
namespace Rehost.Registry
open Context

section
variable {m : Type → Type}

def registerAll (rs : List (Text × Int × Step m Unit)) : Registry m :=
  rs.foldl (fun r e => r.register e.1 e.2.2 e.2.1) {}

theorem entries_registerAll (rs : List (Text × Int × Step m Unit)) : (registerAll rs).entries = Table.ofList rs := by
  induction rs using List.reverseRecOn with
  | nil => rfl
  | append_singleton rs e ih =>
    rw [Table.ofList_concat, ← ih]
    simp [registerAll, register]

/-! By order and then by name. -/

variable {α : Type} {a b c : Text × Int × α}

theorem precedes_iff : precedes a b = true ↔ a.2.1 < b.2.1 ∨ a.2.1 = b.2.1 ∧ a.1 ≤ b.1 := by
  simp [precedes]

theorem precedes_trans (h : precedes a b = true) (h' : precedes b c = true) : precedes a c = true := by
  rw [precedes_iff] at *
  rcases h with h | ⟨h, hname⟩
  · exact .inl (by omega)
  rcases h' with h' | ⟨h', hname'⟩
  · exact .inl (by omega)
  · exact .inr ⟨h.trans h', Text.le_trans hname hname'⟩

theorem precedes_total (a b : Text × Int × α) : (precedes a b || precedes b a) = true := by
  rw [Bool.or_eq_true, precedes_iff, precedes_iff]
  rcases Int.lt_trichotomy a.2.1 b.2.1 with hlt | heq | hgt
  · exact .inl (.inl hlt)
  · exact (Text.le_total a.1 b.1).imp (fun hle => .inr ⟨heq, hle⟩) fun hle => .inr ⟨heq.symm, hle⟩
  · exact .inr (.inl hgt)

/-- Entries that precede each other have one name, so they are one entry. -/
theorem name_eq_of_precedes (h : precedes a b = true) (h' : precedes b a = true) : a.1 = b.1 := by
  rw [precedes_iff] at h h'
  have hnames : a.1 ≤ b.1 ∧ b.1 ≤ a.1 := by
    rcases h with h | ⟨h, hname⟩ <;> rcases h' with h' | ⟨h', hname'⟩
    · omega
    · omega
    · omega
    · exact ⟨hname, hname'⟩
  exact List.le_antisymm hnames.1 hnames.2

/-! The entries in order. -/

def inOrder (rs : List (Text × Int × α)) : List (Text × Int × α) := (Table.ofList rs).mergeSort precedes

theorem selected_registerAll (rs : List (Text × Int × Step m Unit)) :
    (registerAll rs).selected = (inOrder rs).map fun e => (e.1, e.2.2) := by
  rw [selected, entries_registerAll, inOrder]

theorem names_registerAll (rs : List (Text × Int × Step m Unit)) :
    (registerAll rs).names = (inOrder rs).map Prod.fst := by
  rw [names, selected_registerAll, List.map_map]
  rfl

variable {rs rs' : List (Text × Int × α)}

theorem inOrder_perm (rs : List (Text × Int × α)) : (inOrder rs).Perm (Table.ofList rs) := List.mergeSort_perm _ _

theorem inOrder_pairwise (rs : List (Text × Int × α)) : (inOrder rs).Pairwise fun a b => precedes a b = true :=
  @List.pairwise_mergeSort _ precedes (fun _ _ _ => precedes_trans) precedes_total (Table.ofList rs)

theorem nodup_inOrder (rs : List (Text × Int × α)) : ((inOrder rs).map Prod.fst).Nodup :=
  ((inOrder_perm rs).map Prod.fst).nodup_iff.2 (Table.nodup_keys_ofList rs)

theorem mem_inOrder {name : Text} {x : Int × α} : (name, x) ∈ inOrder rs ↔ Table.latest? name rs = some x := by
  rw [(inOrder_perm rs).mem_iff, Table.mem_iff_get? (Table.nodup_keys_ofList rs), Table.get?_ofList]

theorem mem_names_inOrder {name : Text} : name ∈ (inOrder rs).map Prod.fst ↔ ∃ e ∈ rs, e.1 = name := by
  rw [((inOrder_perm rs).map Prod.fst).mem_iff]
  exact Table.mem_keys_ofList

theorem inOrder_congr (h : ∀ name, rs'.filter (·.1 = name) = rs.filter (·.1 = name)) : inOrder rs' = inOrder rs := by
  have hmem : ∀ e, e ∈ inOrder rs' ↔ e ∈ inOrder rs := by
    rintro ⟨name, x⟩
    rw [mem_inOrder, mem_inOrder, Table.latest?, Table.latest?, h]
  have hnodup : ∀ rs : List (Text × Int × α), (inOrder rs).Nodup := fun rs => List.Nodup.of_map _ (nodup_inOrder rs)
  have hperm : (inOrder rs').Perm (inOrder rs) := (List.perm_ext_iff_of_nodup (hnodup rs') (hnodup rs)).2 hmem
  refine hperm.eq_of_pairwise (fun a b ha hb hab hba => ?_) (inOrder_pairwise rs') (inOrder_pairwise rs)
  have hname := name_eq_of_precedes hab hba
  have ha' := mem_inOrder.1 ((hmem a).1 ha)
  have hb' := mem_inOrder.1 hb
  rw [hname] at ha'
  exact Prod.ext hname (Option.some.inj (ha'.symm.trans hb'))

theorem names_pairwise (rs : List (Text × Int × α)) : ((inOrder rs).map Prod.fst).Pairwise fun a b =>
    ∀ x y, Table.latest? a rs = some x → Table.latest? b rs = some y → x.1 < y.1 ∨ x.1 = y.1 ∧ a < b := by
  have hdistinct : (inOrder rs).Pairwise fun a b => a.1 ≠ b.1 := List.pairwise_map.1 (nodup_inOrder rs)
  rw [List.pairwise_map]
  refine ((inOrder_pairwise rs).and hdistinct).imp_of_mem ?_
  rintro ⟨a, x'⟩ ⟨b, y'⟩ ha hb ⟨hprecedes, hne⟩ x y hx hy
  obtain rfl := Option.some.inj ((mem_inOrder.1 ha).symm.trans hx)
  obtain rfl := Option.some.inj ((mem_inOrder.1 hb).symm.trans hy)
  exact (precedes_iff.1 hprecedes).imp_right fun h => ⟨h.1, Text.lt_of_le_of_ne h.2 hne⟩

end

/-! A run. -/

def completion (name : Text) (c : Context) (w : Machine) : Record :=
  ⟨speaker, .info, completed name w.pace (c.notes.get? name)⟩

/-- Steps that succeed one after another, each on what the one before it leaves. -/
inductive Succeeds : List (Text × Step (StateM Machine) Unit) → Context → Machine → Context → Machine → Prop where
  | nil (c : Context) (w : Machine) : Succeeds [] c w c w
  | cons {name : Text} {step : Step (StateM Machine) Unit} {rest : List (Text × Step (StateM Machine) Unit)}
      {c c₁ c' : Context} {w w₁ w' : Machine} :
      exec step c w = (.ok (), c₁, w₁) → Succeeds rest c₁ (w₁.record (completion name c₁ w₁)) c' w' →
      Succeeds ((name, step) :: rest) c w c' w'

variable {name : Text} {step : Step (StateM Machine) Unit} {steps : List (Text × Step (StateM Machine) Unit)}
  {c c₁ : Context} {w w₁ : Machine}

theorem exec_runFrom_ok (h : exec step c w = (.ok (), c₁, w₁)) (finished : List (Text × Binary64))
    (rest : List (Text × Step (StateM Machine) Unit)) :
    exec (runFrom finished ((name, step) :: rest)) c w =
      exec (runFrom (finished ++ [(name, w₁.pace)]) rest) c₁ (w₁.record (completion name c₁ w₁)) := by
  rw [runFrom, exec_bind, exec_timed, h]
  rfl

theorem exec_runFrom_error {f : Failure} (h : exec step c w = (.error f, c₁, w₁)) (finished : List (Text × Binary64))
    (rest : List (Text × Step (StateM Machine) Unit)) :
    exec (runFrom finished ((name, step) :: rest)) c w = (.error (blame name finished f), c₁, w₁) := by
  rw [runFrom, exec_bind, exec_timed, h]
  rfl

theorem exec_runFrom (finished : List (Text × Binary64)) (steps : List (Text × Step (StateM Machine) Unit))
    (c : Context) (w : Machine) :
    (∃ times c' w', Succeeds steps c w c' w' ∧ times.map Prod.fst = steps.map Prod.fst ∧
        exec (runFrom finished steps) c w = (.ok (finished ++ times), c', w')) ∨
      ∃ done name step rest times c₁ w₁ f c' w', steps = done ++ (name, step) :: rest ∧ Succeeds done c w c₁ w₁ ∧
        times.map Prod.fst = done.map Prod.fst ∧ exec step c₁ w₁ = (.error f, c', w') ∧
        exec (runFrom finished steps) c w = (.error (blame name (finished ++ times) f), c', w') := by
  induction steps generalizing finished c w with
  | nil => exact .inl ⟨[], c, w, .nil c w, rfl, by simp [runFrom]⟩
  | cons e rest ih =>
    obtain ⟨name, step⟩ := e
    rcases hstep : exec step c w with ⟨result, c₁, w₁⟩
    cases result with
    | error f =>
      refine .inr ⟨[], name, step, rest, [], c, w, f, c₁, w₁, rfl, .nil c w, rfl, hstep, ?_⟩
      rw [exec_runFrom_error hstep, List.append_nil]
    | ok _ =>
      rw [exec_runFrom_ok hstep]
      rcases ih (finished ++ [(name, w₁.pace)]) c₁ (w₁.record (completion name c₁ w₁)) with
        ⟨times, c', w', hdone, htimes, hrun⟩ |
        ⟨done, name', step', rest', times, c₂, w₂, f, c', w', rfl, hdone, htimes, hfails, hrun⟩
      · refine .inl ⟨(name, w₁.pace) :: times, c', w', .cons hstep hdone, by simp [htimes], ?_⟩
        rw [hrun, List.append_assoc, List.singleton_append]
      · refine .inr ⟨(name, step) :: done, name', step', rest', (name, w₁.pace) :: times, c₂, w₂, f, c', w', rfl,
          .cons hstep hdone, by simp [htimes], hfails, ?_⟩
        rw [hrun, List.append_assoc, List.singleton_append]

/-- After any registrations each name is listed once, by its latest order and then by its text, and its latest step is
the one that is run; how registrations of different names alternate does not matter. A run performs these steps in
that order, each on what the one before it leaves, and tells a time for each. With the first step that fails it ends:
nothing behind that step is performed, a failure of the library's own kind goes on as it is, and so does one that is
to end the program; any other one is wrapped with the name of its step and the times of those before it. -/
theorem run_registerAll (rs : List (Text × Int × Step (StateM Machine) Unit)) (c : Context) (w : Machine) :
    ((registerAll rs).names.Nodup ∧ (∀ name, name ∈ (registerAll rs).names ↔ ∃ e ∈ rs, e.1 = name) ∧
        (registerAll rs).names.Pairwise fun a b => ∀ x y, Table.latest? a rs = some x → Table.latest? b rs = some y →
          x.1 < y.1 ∨ x.1 = y.1 ∧ a < b) ∧
      (∀ rs' : List (Text × Int × Step (StateM Machine) Unit),
        (∀ name, rs'.filter (·.1 = name) = rs.filter (·.1 = name)) →
        (registerAll rs').selected = (registerAll rs).selected) ∧
      (∀ name step, (name, step) ∈ (registerAll rs).selected ↔ ∃ order, Table.latest? name rs = some (order, step)) ∧
      ((∃ times c' w', Succeeds (registerAll rs).selected c w c' w' ∧ times.map Prod.fst = (registerAll rs).names ∧
          exec (registerAll rs).run c w = (.ok times, c', w')) ∨
        ∃ done name step rest c₁ w₁ f g c' w', (registerAll rs).selected = done ++ (name, step) :: rest ∧
          Succeeds done c w c₁ w₁ ∧ exec step c₁ w₁ = (.error f, c', w') ∧
          exec (registerAll rs).run c w = (.error g, c', w') ∧ (f.isOwn = true ∨ f.isInterrupt = true → g = f) ∧
          (f.isOwn = false → f.isInterrupt = false →
            ∃ times, g = .passFailed name f times ∧ times.map Prod.fst = done.map Prod.fst)) := by
  refine ⟨?_, ?_, ?_, ?_⟩
  · rw [names_registerAll]
    exact ⟨nodup_inOrder rs, fun name => mem_names_inOrder, names_pairwise rs⟩
  · intro rs' hrs'
    rw [selected_registerAll, selected_registerAll, inOrder_congr hrs']
  · intro name step
    simp only [selected_registerAll, List.mem_map, Prod.mk.injEq, ← mem_inOrder]
    constructor
    · rintro ⟨⟨name', order, step'⟩, hmem, rfl, rfl⟩
      exact ⟨order, hmem⟩
    · rintro ⟨order, hmem⟩
      exact ⟨(name, order, step), hmem, rfl, rfl⟩
  · rcases exec_runFrom [] (registerAll rs).selected c w with
      ⟨times, c', w', hdone, htimes, hrun⟩ | ⟨done, name, step, rest, times, c₁, w₁, f, c', w', hsteps, hdone, htimes,
        hfails, hrun⟩
    · exact .inl ⟨times, c', w', hdone, htimes, hrun⟩
    · refine .inr ⟨done, name, step, rest, c₁, w₁, f, _, c', w', hsteps, hdone, hfails, hrun, fun hpasses => ?_,
        fun hforeign hcaught => ⟨times, ?_, htimes⟩⟩
      · simp [blame, Bool.or_eq_true, hpasses]
      · simp [blame, hforeign, hcaught]

/-- A step that is told to end the program is not blamed for it. -/
theorem not_every_failure_wrapped : ¬ ∀ (rs : List (Text × Int × Step (StateM Machine) Unit)) (c c₁ c' : Context)
    (w w₁ w' : Machine) (done rest : List (Text × Step (StateM Machine) Unit)) (name : Text)
    (step : Step (StateM Machine) Unit) (f g : Failure), (registerAll rs).selected = done ++ (name, step) :: rest →
    Succeeds done c w c₁ w₁ → exec step c₁ w₁ = (.error f, c', w') →
    exec (registerAll rs).run c w = (.error g, c', w') → f.isOwn = false →
    ∃ times, g = .passFailed name f times ∧ times.map Prod.fst = done.map Prod.fst := by
  intro h
  let w : Machine := { disk := ⟨[], []⟩, room := 0 }
  let f : Failure := .interrupt "KeyboardInterrupt" ""
  let step : Step (StateM Machine) Unit := throw f
  let rs : List (Text × Int × Step (StateM Machine) Unit) := [("a", 1, step)]
  have hselected : (registerAll rs).selected = [(("a" : Text), step)] := by
    simp [selected_registerAll, inOrder, rs, Table.ofList, Table.put]
  have hrun : exec (registerAll rs).run {} w = (.error f, {}, w) := by
    rw [run, hselected, exec_runFrom_error rfl]
    rfl
  obtain ⟨times, hwrapped, -⟩ := h rs {} {} {} w w w [] [] "a" step f f hselected (.nil {} w) rfl hrun rfl
  simp [f] at hwrapped

end Rehost.Registry
