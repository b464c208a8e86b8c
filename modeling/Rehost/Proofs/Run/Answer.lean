import Rehost.Proofs.Run.Course
import Rehost.Proofs.Run.Messages
import Rehost.Proofs.Settings.Layer

/-! How a run of the command line answers. A run whose log can be opened says in one line how it ended, unless it meets
a failure that is not reported. -/
namespace Rehost

namespace Command
open CommandLine Context

variable {a : Arguments} {s : Settings} {c c' : Context} {w w' : Machine} {f : Failure}

theorem onlyLogs_convert (a : Arguments) (s : Settings) : Step.OnlyLogs (convert a s : Step (StateM Machine) _) := by
  refine Step.onlyLogs_iff.2 fun c w => of_convert (P := fun out => w.Logged out.2.2 ∧
    out.2.1.report.errors = c.report.errors) a s c w (fun _ => ?_) (fun name e w' _ hopen => ?_)
    fun name id w' _ hopen => ?_
  · exact Step.onlyLogs_iff.1 (Step.onlyLogs_conversion s a.dryRun none) c w
  · have hlogged := (Machine.opens_openLogIn w (.ofText name)).logged
    rw [hopen] at hlogged
    exact ⟨hlogged, rfl⟩
  · have hlogged := (Machine.opens_openLogIn w (.ofText name)).logged
    rw [hopen] at hlogged
    obtain ⟨hrun, herrors⟩ := Step.onlyLogs_iff.1 (Step.onlyLogs_conversion s a.dryRun (some id)) c w'
    rw [TraceLog.closing_snd]
    exact ⟨(hlogged.trans hrun).trans (Machine.logged_closeLog _ id), herrors⟩

theorem oneLine_of_convert (h : (exec (convert a s) c w).1 = .error f) : f.message.OneLine := by
  revert h
  refine of_convert (P := fun out => out.1 = .error f → f.message.OneLine) a s c w (fun _ h => ?_)
    (fun name e w' _ _ h => ?_) fun name id w' _ _ h => ?_
  · exact Conversion.oneLine_of_run (Prod.ext h rfl)
  · obtain rfl := Except.error.inj h
    exact e.oneLine_message
  · rcases TraceLog.closing_eq_error h with ⟨e, rfl, -⟩ | h
    · exact e.oneLine_message
    · exact Conversion.oneLine_of_run (Prod.ext h rfl)

theorem oneLine_hash_of_convert {times : List (Text × Binary64)} (h : (exec (convert a s) c w).1 = .ok times) :
    (exec (convert a s) c w).2.1.hash.OneLine := by
  revert h
  refine of_convert (P := fun out => out.1 = .ok times → out.2.1.hash.OneLine) a s c w (fun _ h => ?_)
    (fun name e w' _ _ h => ?_) fun name id w' _ _ h => ?_
  · exact Conversion.oneLine_hash_of_run (Prod.ext h rfl)
  · contradiction
  · rw [TraceLog.closing_snd]
    exact Conversion.oneLine_hash_of_run (Prod.ext (TraceLog.closing_eq_ok h) rfl)

/-! What keeps settings from being had is a fault of the settings, or said on one line. -/

theorem readText_eq_error {p : Path} (h : (w.exec (Host.readText p)).1 = .error f) : f.message.OneLine := by
  unfold Host.readText at h
  rw [Machine.exec_bind] at h
  have hread : w.exec (Host.attempt (Host.read p)) = ((w.read p).1.mapError .disk, (w.read p).2) := rfl
  rw [hread] at h
  cases hbytes : (w.read p).1 with
  | error e =>
    simp only [hbytes, mapError_error] at h
    obtain rfl : Failure.disk e = f := Except.error.inj h
    exact e.oneLine_message
  | ok bytes =>
    simp only [hbytes, mapError_ok] at h
    cases hdecode : Utf8.decode bytes with
    | error g =>
      obtain rfl : Failure.undecodable g = f := by simpa [hdecode] using h
      exact g.oneLine_message
    | ok t => simp [hdecode] at h

theorem documentOf_eq_error {p : Path} (h : documentOf w p = .error f) (hf : f.isReported = true) :
    (∃ e, f = .settings e) ∨ f.message.OneLine := by
  rcases bind_eq_error h with hread | ⟨t, -, hdocument⟩
  · exact .inr (readText_eq_error hread)
  · obtain ⟨u, -, rfl⟩ := mapError_eq_error hdocument
    cases u with
    | malformed detail => exact .inl ⟨_, rfl⟩
    | failed kind message => contradiction

theorem ofDocument_eq_error {file : Text} {d : Settings.Document} (h : Settings.ofDocument file d = .error f) :
    f = .mixedKeys ∨ ∃ e, f = .settings e := by
  cases d with
  | nothing => contradiction
  | other => exact .inr ⟨_, (Except.error.inj h).symm⟩
  | mapping entries => exact Settings.override_eq_error h

theorem load_eq_error {p : Path} (h : (w.exec (Settings.load p)).1 = .error f) (hf : f.isReported = true) :
    (∃ e, f = .settings e) ∨ f.message.OneLine := by
  rw [exec_load] at h
  cases hdocument : documentOf w p with
  | error g =>
    simp only [hdocument] at h
    obtain rfl := Except.error.inj h
    exact documentOf_eq_error hdocument hf
  | ok d =>
    simp only [hdocument] at h
    rcases ofDocument_eq_error h with rfl | hsettings
    · contradiction
    · exact .inl hsettings

theorem settingsOf_eq_error (h : (w.exec (settingsOf a)).1 = .error f) (hf : f.isReported = true) :
    (∃ e, f = .settings e) ∨ f.message.OneLine := by
  have hmerged : ∀ base : Settings, base.merged a.overrides = .error f → (∃ e, f = .settings e) ∨ f.message.OneLine :=
    fun base hbase => by
      rcases Settings.override_eq_error hbase with rfl | hsettings
      · contradiction
      · exact .inl hsettings
  cases hname : a.config.nonempty? with
  | none =>
    unfold settingsOf at h
    simp only [hname] at h
    exact hmerged {} h
  | some name =>
    rcases hload : w.exec (Settings.load (.ofText name)) with ⟨loaded, w₁⟩
    rw [exec_settingsOf_file hname hload] at h
    rcases bind_eq_error h with hloaded | ⟨base, -, hbase⟩
    · exact load_eq_error (by rw [hload, hloaded]) hf
    · exact hmerged base hbase

/-! What a run says. -/

def work (a : Arguments) : Attempt (StateM Machine) (Text × List (Text × Binary64)) := do
  openJournal a
  let s ← settingsOf a
  let (result, c) ← liftM ((convert a s).run.run { report := initialReport s } : StateM Machine _)
  ExceptT.mk (pure (result.map (c.hash, ·)))

def Settles (a : Arguments) (w : Machine) (s : Settings) : Prop :=
  (w.exec (openJournal a >>= fun _ => settingsOf a)).1 = .ok s

theorem settles_iff {w₁ : Machine} (hopen : w.exec (openJournal a) = (.ok (), w₁)) :
    Settles a w s ↔ (w₁.exec (settingsOf a)).1 = .ok s := by
  rw [Settles, Machine.exec_bind_ok hopen]

/-- What shows of a run: its output, and its lines beside the output, behind the records that are shown there and what a
log did not get. -/
structure Says (a : Arguments) (output : Text) (lines : List Text) (w w' : Machine) : Prop where
  output : w'.output = w.output ++ output
  complaints : ∃ rs noise, w'.records = w.records ++ rs ∧ w'.complaints = w.complaints ++ noise ++ lines.map .said ∧
    Journal.Shows { verbose := a.verbose } rs noise

theorem says_of_logged {w₁ : Machine} (hopened : Opened a w w₁) (hlogged : w₁.Logged w') (output : Text)
    (lines : List Text) : Says a output lines w ((w'.say lines).print output) := by
  obtain ⟨-, -, hrecords₁, houtput₁, hcomplaints₁⟩ := hopened.silent
  obtain ⟨rs, noise, hrecords, hcomplaints, hshows⟩ := hlogged.records
  refine ⟨?_, rs, noise, ?_, ?_, ?_, hshows.unsaid⟩
  · change w'.output ++ output = _
    rw [hlogged.output, houtput₁]
  · change w'.records = _
    rw [hrecords, hrecords₁]
  · change w'.complaints ++ lines.map .said = _
    rw [hcomplaints, hcomplaints₁]
  · rw [hshows.records, hopened.verbose]

theorem print_nil (w : Machine) : w.print [] = w := by simp [Machine.print]

theorem exec_work_unsettled {w₁ w₂ : Machine} (hopen : w.exec (openJournal a) = (.ok (), w₁))
    (hsettings : w₁.exec (settingsOf a) = (.error f, w₂)) : (w.exec (work a)).1 = .error f := by
  rw [work, Machine.exec_bind_ok hopen, Machine.exec_bind_error hsettings]

theorem exec_work {w₁ w₂ w₃ : Machine} {result : Except Failure (List (Text × Binary64))}
    (hopen : w.exec (openJournal a) = (.ok (), w₁)) (hsettings : w₁.exec (settingsOf a) = (.ok s, w₂))
    (hconvert : exec (convert a s) { report := initialReport s } w₂ = (result, c, w₃)) :
    (w.exec (work a)).1 = result.map (c.hash, ·) := by
  rw [work, Machine.exec_bind_ok hopen, Machine.exec_bind_ok hsettings, Machine.exec_bind, Machine.exec_step, hconvert]
  rfl

theorem logged_convert {w₁ : Machine} {result : Except Failure (List (Text × Binary64))}
    (hsettings : w₁.exec (settingsOf a) = (.ok s, w)) (hconvert : exec (convert a s) c w = (result, c', w')) :
    w₁.Logged w' := by
  have hlogged := (onlyLogs_convert a s).logged c w
  rw [hconvert] at hlogged
  exact (logged_settingsOf hsettings).trans hlogged

theorem says_error {w₁ : Machine} (hopened : Opened a w w₁) (hlogged : w₁.Logged w') (f : Failure) :
    Says a [] ["ERROR:" ++ f.message ++ "\n"] w (w'.say [errorLine f]) := by
  have hsays := says_of_logged hopened hlogged [] [errorLine f]
  rwa [print_nil] at hsays

theorem answers_of_course {out : Except Failure Nat × Machine} (hcourse : Course a w out) :
    (out.1 = .ok 0 ∧ ∃ hash times, (w.exec (work a)).1 = .ok (hash, times) ∧ hash.OneLine ∧
        Says a ("SUCCESS:" ++ hash ++ "\n") (profileLines a times) w out.2) ∨
      (out.1 = .ok 1 ∧ ∃ f, (w.exec (work a)).1 = .error f ∧ f.isReported = true ∧
        ((∃ e, f = .settings e) ∨ f.message.OneLine) ∧ Says a [] ["ERROR:" ++ f.message ++ "\n"] w out.2) ∨
      ∃ f, out.1 = .error f ∧ ((w.exec (openJournal a)).1 = .error f ∨
        f.isReported = false ∧ ((w.exec (work a)).1 = .error f ∨ ∃ s, Settles a w s ∧ s.reportPath ≠ none)) := by
  cases hcourse with
  | unopened hopen => exact .inr (.inr ⟨_, rfl, .inl (by rw [hopen])⟩)
  | escapedSettings hopen hsettings hf =>
    exact .inr (.inr ⟨_, rfl, .inr ⟨hf, .inl (exec_work_unsettled hopen hsettings)⟩⟩)
  | escaped hopen hsettings hconvert hf =>
    exact .inr (.inr ⟨_, rfl, .inr ⟨hf, .inl (exec_work hopen hsettings hconvert)⟩⟩)
  | escapedReport hopen hsettings hpath hf =>
    exact .inr (.inr ⟨_, rfl, .inr ⟨hf, .inr ⟨_, (settles_iff hopen).2 (by rw [hsettings]), hpath⟩⟩⟩)
  | unsettled hopen hsettings hf =>
    have hline := settingsOf_eq_error (by rw [hsettings]) hf
    refine .inr (.inl ⟨rfl, _, exec_work_unsettled hopen hsettings, hf, hline, ?_⟩)
    exact says_error (opened_openJournal hopen) ((logged_settingsOf hsettings).trans (Machine.logged_record ..)) _
  | failed hopen hsettings hconvert hf hsummarised =>
    have hline := oneLine_of_convert (congrArg Prod.fst hconvert)
    refine .inr (.inl ⟨rfl, _, exec_work hopen hsettings hconvert, hf, .inr hline, ?_⟩)
    refine says_error (opened_openJournal hopen) ((logged_convert hsettings hconvert).trans ?_) _
    exact (Machine.logged_record ..).trans hsummarised.logged
  | succeeded hopen hsettings hconvert hwarned hsummarised =>
    have hline := oneLine_hash_of_convert (congrArg Prod.fst hconvert)
    rw [hconvert] at hline
    refine .inl ⟨rfl, _, _, exec_work hopen hsettings hconvert, hline, ?_⟩
    refine says_of_logged (opened_openJournal hopen) ((logged_convert hsettings hconvert).trans ?_) _ _
    exact hwarned.trans hsummarised.logged

theorem course_run {words : List Text} (h : Arguments.parse words = .ok a) (w : Machine) :
    Course a w (w.exec (run words)) := by
  unfold run
  rw [h]
  exact course_runArguments a w

/-- A machine with an output from before, and no script. -/
def staleMachine : Machine where
  disk := ⟨[([Utf8.nameBytes "src"], .directory),
    ([Utf8.nameBytes "src", Utf8.nameBytes "build.js"], .file (Utf8.bytes "old"))], []⟩
  room := 1

def reportArguments : Arguments := { reportPath := .text "r.json" }

theorem eq_ok_of_toOption {ε α : Type} {x : Except ε α} {y : α} (h : x.toOption = some y) : x = .ok y := by
  cases x with
  | error e => contradiction
  | ok z => exact congrArg Except.ok (Option.some.inj h)

theorem parse_reportArguments : Arguments.parse ["--report", "r.json"] = .ok reportArguments := by rfl

theorem code_staleMachine : (staleMachine.exec (run ["--report", "r.json"])).1 = .ok 1 :=
  eq_ok_of_toOption (by decide +kernel)

theorem message_staleMachine : (staleMachine.exec (work reportArguments)).1.mapError Failure.message =
    .error "[Errno 2] No such file or directory: 'scripts/headless-min.js'" := by
  decide +kernel

def loglessMachine : Machine where
  disk := ⟨[([Utf8.nameBytes "in.js"], .file (Utf8.bytes "x")), ([Utf8.nameBytes "logs"], .directory)], []⟩
  room := 1

end Command
end Rehost
