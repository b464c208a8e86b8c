import Rehost.Proofs.Run.Conversion
import Rehost.Run.Command

/-! What a run says on the way. Until it ends it prints nothing: all that shows are its records, where the run log is
shown on the terminal, and what a log did not get. A log file stays where it was opened, and no step finds fault with
the run by itself. -/
namespace Rehost

namespace Complaint

def record? : Complaint → Option Record
  | shown r => some r
  | _ => none

def isSaid : Complaint → Bool
  | said _ => true
  | _ => false

end Complaint

/-- What shows of records by itself: each of them where the run log is shown, and beside that what a log did not get. -/
structure Journal.Shows (j : Journal) (rs : List Record) (noise : List Complaint) : Prop where
  records : noise.filterMap Complaint.record? = if j.verbose then rs else []
  unsaid : ∀ x ∈ noise, x.isSaid = false

namespace Journal.Shows

variable {j : Journal} {rs rs' : List Record} {noise noise' : List Complaint}

theorem nil (j : Journal) : j.Shows [] [] := ⟨by simp, by simp⟩

theorem append (h : j.Shows rs noise) (h' : j.Shows rs' noise') : j.Shows (rs ++ rs') (noise ++ noise') where
  records := by
    rw [List.filterMap_append, h.records, h'.records]
    split <;> rfl
  unsaid := List.forall_mem_append.2 ⟨h.unsaid, h'.unsaid⟩

theorem unlogged (j : Journal) (fs : List Failure) : j.Shows [] (fs.map .unlogged) where
  records := by
    simp [List.filterMap_map, Function.comp_def, Complaint.record?]
  unsaid := by simp [Complaint.isSaid]

end Journal.Shows

namespace Machine

/-- A change of a machine that shows nothing but records, and leaves the logs where they are. -/
structure Logged (w w' : Machine) : Prop where
  home : w'.disk.home = w.disk.home := by rfl
  journal : w'.journal = w.journal := by rfl
  refuses : w'.refuses = w.refuses := by rfl
  places : w.logs.map LogFile.place <+: w'.logs.map LogFile.place := by exact List.prefix_refl _
  output : w'.output = w.output := by rfl
  records : ∃ rs noise, w'.records = w.records ++ rs ∧ w'.complaints = w.complaints ++ noise ∧
    w.journal.Shows rs noise := by exact ⟨[], [], (List.append_nil _).symm, (List.append_nil _).symm, .nil _⟩

/-- The run log has no file at the place, nor gets one as further logs are opened. -/
def JournalElsewhere (o : Place) (w : Machine) : Prop :=
  ∀ id, w.journal.file = some id → ∃ place, (w.logs.map LogFile.place)[id]? = some place ∧ place ≠ o

variable {o : Place} {w w' w'' : Machine}

theorem Logged.refl (w : Machine) : Logged w w := {}

theorem Logged.trans (h : Logged w w') (h' : Logged w' w'') : Logged w w'' where
  home := h'.home.trans h.home
  journal := h'.journal.trans h.journal
  refuses := h'.refuses.trans h.refuses
  places := h.places.trans h'.places
  output := h'.output.trans h.output
  records := by
    obtain ⟨rs, noise, hrecords, hcomplaints, hshows⟩ := h.records
    obtain ⟨rs', noise', hrecords', hcomplaints', hshows'⟩ := h'.records
    refine ⟨rs ++ rs', noise ++ noise', ?_, ?_, hshows.append (h.journal ▸ hshows')⟩
    · rw [hrecords', hrecords, List.append_assoc]
    · rw [hcomplaints', hcomplaints, List.append_assoc]

theorem JournalElsewhere.of_logged (h : JournalElsewhere o w) (hw : Logged w w') : JournalElsewhere o w' := by
  intro id hid
  obtain ⟨place, hplace, hne⟩ := h id (hw.journal ▸ hid)
  obtain ⟨later, hlater⟩ := hw.places
  refine ⟨place, ?_, hne⟩
  rw [← hlater, List.getElem?_append_left (List.getElem?_eq_some_iff.1 hplace).1]
  exact hplace

theorem JournalElsewhere.apart (h : JournalElsewhere o w) : JournalApart o w := by
  intro id hid hself
  obtain ⟨place, hplace, hne⟩ := h id hid
  exact hne (Option.some.inj (hplace.symm.trans hself))

theorem logged_append (w : Machine) (id : LogId) (bytes : Bytes) : Logged w (w.append id bytes).2 := by
  have hplaces : w.logs.map LogFile.place <+: (w.append id bytes).2.logs.map LogFile.place :=
    (w.steady_append id bytes).logs ▸ List.prefix_refl _
  rcases w.append_cases id bytes with ⟨-, h⟩ | ⟨log, -, ⟨f, -, h⟩ | ⟨-, h⟩⟩
  · rw [h]
    exact .refl w
  · rw [h] at hplaces ⊢
    exact { places := hplaces }
  · rw [h] at hplaces ⊢
    exact { places := hplaces }

theorem logged_lost (w : Machine) (f : Failure) : Logged w (w.complain (.unlogged f)) where
  records := ⟨[], [.unlogged f], by simp [complain], rfl, .unlogged _ [f]⟩

theorem logged_logLine (w : Machine) (id : LogId) (line : Text) : Logged w (w.logLine id line) :=
  of_logLine w id line (.refl w) (w.logged_append id) fun w' f h => h.trans (w'.logged_lost f)

theorem logged_closeLog (w : Machine) (id : LogId) : Logged w (w.closeLog id).2 :=
  of_closeLog w id (.refl w) (fun w' h => h.trans (w'.logged_append id []))
    fun w' h => h.trans { places := (places_modify w'.logs id).symm ▸ List.prefix_refl _ }

theorem logged_tick (w : Machine) : Logged w w.tick := {}

theorem logged_write (w : Machine) (p : Path) (bytes : Bytes) : Logged w (w.write p bytes).2 := by
  unfold write
  split
  · exact w.logged_tick
  · split
    · exact w.logged_tick
    · next d hd =>
      obtain ⟨rfl, -⟩ := Disk.write_eq_ok hd
      exact {}

theorem logged_makeDirectories (w : Machine) (p : Path) : Logged w (w.makeDirectories p).2 := by
  obtain ⟨d, hd, hhome⟩ := w.makeDirectories_eq p
  rw [hd]
  exact { home := hhome }

theorem logLine_shows (w : Machine) (id : LogId) (line : Text) : (w.logLine id line).records = w.records ∧
    ∃ lost : List Failure, (w.logLine id line).complaints = w.complaints ++ lost.map .unlogged := by
  refine of_logLine (P := fun w' => w'.records = w.records ∧
    ∃ lost : List Failure, w'.complaints = w.complaints ++ lost.map .unlogged) w id line ?_ (fun bytes => ?_) ?_
  · exact ⟨rfl, [], (List.append_nil _).symm⟩
  · rcases w.append_cases id bytes with ⟨-, h⟩ | ⟨log, -, ⟨f, -, h⟩ | ⟨-, h⟩⟩ <;>
      exact h ▸ ⟨rfl, [], (List.append_nil _).symm⟩
  · rintro w' f ⟨hrecords, lost, hlost⟩
    exact ⟨hrecords, lost ++ [f], by simp [complain, hlost]⟩

theorem logged_shown {filed : Machine} {r : Record} (h : Logged { w with records := w.records ++ [r] } filed)
    (hrecords : filed.records = w.records ++ [r])
    (hlost : ∃ lost : List Failure, filed.complaints = w.complaints ++ lost.map .unlogged) :
    Logged w (if filed.journal.verbose then filed.complain (.shown r) else filed) := by
  obtain ⟨lost, hlost⟩ := hlost
  have hunlogged := Journal.Shows.unlogged w.journal lost
  have hjournal : filed.journal = w.journal := h.journal
  cases hverbose : w.journal.verbose with
  | true =>
    have hshown : w.journal.Shows [r] [.shown r] := ⟨by simp [hverbose, Complaint.record?], by simp [Complaint.isSaid]⟩
    have hboth : w.journal.Shows [r] (lost.map .unlogged ++ [.shown r]) := hunlogged.append hshown
    rw [hjournal, hverbose, if_pos rfl]
    exact ⟨h.home, h.journal, h.refuses, h.places, h.output, [r], _, hrecords, by simp [complain, hlost], hboth⟩
  | false =>
    rw [hjournal, hverbose, if_neg Bool.false_ne_true]
    refine ⟨h.home, h.journal, h.refuses, h.places, h.output, [r], lost.map .unlogged, hrecords, hlost, ?_,
      hunlogged.unsaid⟩
    rw [hunlogged.records, hverbose]
    rfl

@[simp] theorem records_record (w : Machine) (r : Record) : (w.record r).records = w.records ++ [r] :=
  of_record (P := fun w' => w'.records = w.records ++ [r]) w r rfl
    (fun id _ => (logLine_shows { w with records := w.records ++ [r] } id _).1) fun _ _ h => h

theorem logged_record (w : Machine) (r : Record) : Logged w (w.record r) := by
  let recorded : Machine := { w with records := w.records ++ [r] }
  cases haccepts : w.journal.accepts r with
  | false =>
    have hquiet : w.journal.verbose = false := (Bool.or_eq_false_iff.1 haccepts).1
    have hrecord : w.record r = recorded := by simp [record, recorded, haccepts]
    rw [hrecord]
    exact { records := ⟨[r], [], rfl, (List.append_nil _).symm, by simp [hquiet], by simp⟩ }
  | true =>
    have hrecord : w.record r = recorded.file r := by simp [record, recorded, haccepts]
    rw [hrecord, file]
    cases hfile : w.journal.file with
    | none =>
      simp only
      exact logged_shown (.refl recorded) rfl ⟨[], (List.append_nil _).symm⟩
    | some id =>
      obtain ⟨hrecords, hlost⟩ := recorded.logLine_shows id (r.fileLine recorded.stamp)
      simp only
      exact logged_shown (recorded.logged_logLine id _) hrecords hlost

end Machine

open Context

structure Step.OnlyLogs {α : Type} (a : Step (StateM Machine) α) : Prop where
  logged : ∀ c (w : Machine), w.Logged (exec a c w).2.2
  errors : ∀ c (w : Machine), (exec a c w).2.1.report.errors = c.report.errors

namespace Step

variable {α β : Type}

theorem onlyLogs_iff {a : Step (StateM Machine) α} : OnlyLogs a ↔ ∀ c (w : Machine),
    w.Logged (exec a c w).2.2 ∧ (exec a c w).2.1.report.errors = c.report.errors :=
  ⟨fun h c w => ⟨h.logged c w, h.errors c w⟩, fun h => ⟨fun c w => (h c w).1, fun c w => (h c w).2⟩⟩

theorem OnlyLogs.bind {a : Step (StateM Machine) α} {f : α → Step (StateM Machine) β} (ha : OnlyLogs a)
    (hf : ∀ x, OnlyLogs (f x)) : OnlyLogs (a >>= f) := by
  refine onlyLogs_iff.2 fun c w => ?_
  have hlogged := ha.logged c w
  have herrors := ha.errors c w
  rw [exec_bind]
  rcases h : exec a c w with ⟨result, c₁, w₁⟩
  rw [h] at hlogged herrors
  cases result with
  | error f => exact ⟨hlogged, herrors⟩
  | ok x => exact ⟨hlogged.trans ((hf x).logged c₁ w₁), ((hf x).errors c₁ w₁).trans herrors⟩

theorem onlyLogs_pure (x : α) : OnlyLogs (pure x) := ⟨fun _ w => .refl w, fun _ _ => rfl⟩

theorem onlyLogs_throw (f : Failure) : OnlyLogs (throw f : Step (StateM Machine) α) :=
  ⟨fun _ w => .refl w, fun _ _ => rfl⟩

theorem onlyLogs_current : OnlyLogs (current : Step (StateM Machine) Context) := ⟨fun _ w => .refl w, fun _ _ => rfl⟩

theorem onlyLogs_note (speaker : Text) (level : Level) (message : Text) : OnlyLogs (Host.note speaker level message) :=
  ⟨fun _ w => w.logged_record _, fun _ _ => rfl⟩

theorem onlyLogs_logLine (id : LogId) (line : Text) :
    OnlyLogs (liftM (Host.logLine id line : StateT Context (StateM Machine) Unit)) :=
  ⟨fun _ w => w.logged_logLine id line, fun _ _ => rfl⟩

theorem onlyLogs_makeDirectories (p : Path) : OnlyLogs (Host.attempt (Host.makeDirectories p)) :=
  ⟨fun _ w => w.logged_makeDirectories p, fun _ _ => rfl⟩

theorem onlyLogs_write (p : Path) (bytes : Bytes) : OnlyLogs (Host.attempt (Host.write p bytes)) :=
  ⟨fun _ w => w.logged_write p bytes, fun _ _ => rfl⟩

theorem onlyLogs_writeText (p : Path) (t : Text) : OnlyLogs (Host.writeText p t) := by
  refine (onlyLogs_makeDirectories p.parent).bind fun _ => OnlyLogs.bind ?_ fun _ => onlyLogs_note ..
  unfold Host.putText
  cases Utf8.encode t with
  | ok bytes => exact onlyLogs_write p bytes
  | error g => exact (onlyLogs_write p []).bind fun _ => onlyLogs_throw _

theorem onlyLogs_readSource (p : Path) : OnlyLogs (Host.readSource p) := by
  have hread : OnlyLogs (Host.attempt (Host.read p)) := by
    refine ⟨fun _ w => ?_, fun _ _ => rfl⟩
    change w.Logged (w.read p).2
    rw [Machine.read_snd]
    exact w.logged_tick
  refine OnlyLogs.bind (hread.bind fun bytes => ?_) fun t => (onlyLogs_note ..).bind fun _ => onlyLogs_pure t
  cases Utf8.decode bytes with
  | error f => exact onlyLogs_throw _
  | ok t => exact onlyLogs_pure _

theorem onlyLogs_recordSummary (name : Text) (summary : Json) : OnlyLogs (recordSummary name summary) := by
  have hnote : OnlyLogs (noteDown name summary) := ⟨fun _ w => .refl w, fun _ _ => rfl⟩
  refine hnote.bind fun _ => onlyLogs_current.bind fun c => ?_
  cases c.trace with
  | none =>
    cases c.artifacts with
    | none => exact onlyLogs_pure _
    | some dir => exact onlyLogs_writeText ..
  | some id =>
    refine (onlyLogs_logLine id _).bind fun _ => ?_
    cases c.artifacts with
    | none => exact onlyLogs_pure _
    | some dir => exact onlyLogs_writeText ..

theorem onlyLogs_writeArtifact (name content extension : Text) : OnlyLogs (writeArtifact name content extension) := by
  refine onlyLogs_current.bind fun c => ?_
  cases c.artifacts with
  | none => exact onlyLogs_pure _
  | some dir =>
    cases content with
    | nil => exact onlyLogs_pure _
    | cons x t => exact onlyLogs_writeText ..

/-- Putting a context in place for passes leaves the errors that the report holds. -/
theorem onlyLogs_start (f : Report → Context) (hf : ∀ r, (f r).report = r) :
    OnlyLogs (current >>= fun c => start (f c.report)) := by
  refine onlyLogs_iff.2 fun c w => ?_
  have hprepared : (f c.report).prepared.report.errors = c.report.errors := by
    change (f c.report).report.errors = _
    rw [hf]
  rw [exec_bind, exec_current]
  simp only [start]
  rw [exec_bind, exec_change]
  simp only
  cases (f c.report).artifacts with
  | none => exact ⟨.refl w, hprepared⟩
  | some dir => exact ⟨w.logged_makeDirectories dir, hprepared⟩

theorem onlyLogs_timed {a : Step (StateM Machine) α} (h : OnlyLogs a) :
    OnlyLogs (liftM (Host.timed a.run : StateT Context (StateM Machine) _)) :=
  ⟨h.logged, h.errors⟩

theorem onlyLogs_perform (p : Pass) : OnlyLogs p.perform := by
  refine onlyLogs_iff.2 fun c w => ?_
  rw [Pass.exec_perform]
  cases happly : p.apply c with
  | error f => exact ⟨.refl w, rfl⟩
  | ok result => exact ⟨.refl w, (Pass.apply_eq_ok happly).2.2.2.2⟩

theorem onlyLogs_pass (p : Pass) : OnlyLogs p.step := by
  refine (onlyLogs_perform p).bind fun noticed => (onlyLogs_recordSummary _ _).bind fun _ => ?_
  exact onlyLogs_current.bind fun c => onlyLogs_writeArtifact _ _ _

theorem onlyLogs_runFrom {steps : List (Text × Step (StateM Machine) Unit)} (h : ∀ e ∈ steps, OnlyLogs e.2)
    (finished : List (Text × Binary64)) : OnlyLogs (Registry.runFrom finished steps) := by
  induction steps generalizing finished with
  | nil => exact onlyLogs_pure _
  | cons e rest ih =>
    refine (onlyLogs_timed (h e List.mem_cons_self)).bind fun result => ?_
    obtain ⟨result, seconds⟩ := result
    cases result with
    | error f => exact onlyLogs_throw _
    | ok _ =>
      refine onlyLogs_current.bind fun c => (onlyLogs_note ..).bind fun _ => ?_
      exact ih (fun e' he' => h e' (List.mem_cons_of_mem _ he')) _

theorem onlyLogs_registry : OnlyLogs (Pipeline.registry : Registry (StateM Machine)).run := by
  rw [Registry.run, Pipeline.registry_selected]
  refine onlyLogs_runFrom (fun e he => ?_) _
  obtain ⟨p, -, rfl⟩ := List.mem_map.1 he
  exact onlyLogs_pass p

theorem onlyLogs_deliver (s : Settings) (dryRun : Bool) : OnlyLogs (Conversion.deliver s dryRun) := by
  refine onlyLogs_current.bind fun c => ?_
  cases dryRun with
  | true => exact onlyLogs_note ..
  | false => exact (onlyLogs_writeText ..).bind fun _ => onlyLogs_note ..

theorem onlyLogs_conversion (s : Settings) (dryRun : Bool) (trace : Option LogId) :
    OnlyLogs (Conversion.run s dryRun trace) := by
  refine (onlyLogs_readSource s.inputPath).bind fun source => ?_
  have hrest := (onlyLogs_start (Conversion.contextOf s trace source) fun _ => rfl).bind fun _ =>
    onlyLogs_registry.bind fun times => (onlyLogs_deliver s dryRun).bind fun _ => onlyLogs_pure times
  rw [bind_assoc] at hrest
  exact hrest

end Step
end Rehost
