import Rehost.Proofs.Run.Answer

/-! What a run of the command line leaves. A run that says it failed has left its output as it was, and its report says
the same as its last line. -/
namespace Rehost

namespace Conversion
open Context

variable {o : Place} {c c' : Context} {w w' : Machine} {s : Settings} {f : Failure}

theorem keeps_readSource (h : w.JournalApart o) (p : Path) : w.Keeps o (exec (Host.readSource p) c w).2.2 := by
  have hattempt : exec (Host.attempt (Host.read p)) c w = ((w.read p).1.mapError .disk, c, w.tick) := by
    rw [← Machine.read_snd w p]
    rfl
  have htick : w.Keeps o w.tick := w.keeps_tick
  unfold Host.readSource Host.readText
  simp only [exec_bind, hattempt]
  cases (w.read p).1.mapError Failure.disk with
  | error f => exact htick
  | ok bytes =>
    simp only
    cases Utf8.decode bytes with
    | error g => exact htick
    | ok t => exact htick.trans (Machine.keeps_record (h.of_keeps htick) _)

/-- A failure that is reported is met before the module is written. -/
theorem kept_deliver {dryRun : Bool} (hway : ¬ w.disk.OnWay s.outputPath.parent o)
    (h : exec (deliver s dryRun) c w = (.error f, c', w')) (hf : f.isReported = true) : w.Keeps o w' := by
  unfold deliver at h
  rw [exec_bind, exec_current] at h
  cases dryRun with
  | true => simp at h
  | false =>
    simp only [Bool.false_eq_true, if_false] at h
    rcases exec_bind_eq_error h with hwrite | ⟨_, c₁, w₁, -, hnote⟩
    · have hmade : w.Keeps o (w.makeDirectories s.outputPath.parent).2 := Machine.keeps_makeDirectories hway
      rcases exec_writeText_error hwrite with ⟨e, -, rfl | rfl⟩ | ⟨g, rfl, -⟩
      · exact hmade
      · exact hmade.trans (Machine.keeps_tick _)
      · contradiction
    · simp at hnote

theorem kept_run {dryRun : Bool} {trace : Option LogId} (hclear : Clear o s.artifacts trace w)
    (hway : ¬ w.disk.OnWay s.outputPath.parent o) (h : exec (run s dryRun trace) c w = (.error f, c', w'))
    (hf : f.isReported = true) : w.Keeps o w' := by
  have hsource := keeps_readSource (c := c) hclear.journal s.inputPath
  rcases exec_bind_eq_error h with hread | ⟨source, c₁, w₁, hread, h⟩
  · rwa [hread] at hsource
  rw [hread] at hsource
  rw [exec_bind, exec_current] at h
  simp only at h
  rw [← bind_assoc] at h
  obtain ⟨hpasses, -⟩ := passes_refine (c := c₁) (hclear.of_keeps hsource) source c₁.report
  rcases exec_bind_eq_error h with hpass | ⟨times, c₂, w₂, hpass, h⟩
  · rw [hpass] at hpasses
    exact hsource.trans hpasses
  rw [hpass] at hpasses
  have hkept : w.Keeps o w₂ := hsource.trans hpasses
  rcases exec_bind_eq_error h with hdeliver | ⟨_, c₃, w₃, -, hpure⟩
  · exact hkept.trans (kept_deliver (by rwa [Disk.onWay_congr hkept.disk.home]) hdeliver hf)
  · simp at hpure

end Conversion

structure Settings.Apart (s : Settings) (d : Disk) (o : Place) : Prop where
  output : d.placeOf s.outputPath = o
  outputDirectory : ¬ d.OnWay s.outputPath.parent o
  directory : ∀ dir, s.artifacts = some dir → ¬ d.OnWay dir o
  files : ∀ dir, s.artifacts = some dir → ∀ name, d.placeOf dir ++ [name] ≠ o
  report : ∀ p, s.reportPath = some p → d.placeOf p ≠ o ∧ ¬ d.OnWay p.parent o

theorem Settings.Apart.of_home {s : Settings} {d d' : Disk} {o : Place} (h : s.Apart d o) (hhome : d'.home = d.home) :
    s.Apart d' o where
  output := by
    rw [Disk.placeOf_congr hhome]
    exact h.output
  outputDirectory := by
    rw [Disk.onWay_congr hhome]
    exact h.outputDirectory
  directory dir hdir := by
    rw [Disk.onWay_congr hhome]
    exact h.directory dir hdir
  files dir hdir name := by
    rw [Disk.placeOf_congr hhome]
    exact h.files dir hdir name
  report p hp := by
    rw [Disk.placeOf_congr hhome, Disk.onWay_congr hhome]
    exact h.report p hp

namespace Command
open CommandLine Context

variable {a : Arguments} {s : Settings} {c c' : Context} {o : Place} {w w' : Machine} {f : Failure}

/-- The failure is that the trace log did not take what it still had to be given when it was closed. -/
def LosesTrace (a : Arguments) (w : Machine) (f : Failure) : Prop :=
  ∃ name n fault, a.debugLog.nonempty? = some name ∧
    w.refuses n (.append (w.logPlace (.ofText name))) = some fault ∧
    f = .disk ⟨fault, Machine.pathTo (w.logPlace (.ofText name))⟩

theorem LosesTrace.of_home {w' : Machine} (h : LosesTrace a w' f) (hhome : w'.disk.home = w.disk.home)
    (hrefuses : w'.refuses = w.refuses) : LosesTrace a w f := by
  obtain ⟨name, n, fault, hname, hfault, rfl⟩ := h
  rw [Machine.logPlace_congr hhome] at hfault ⊢
  exact ⟨name, n, fault, hname, hrefuses ▸ hfault, rfl⟩

theorem kept_closing {id : LogId} {name : Text} {w₁ : Machine} (hs : s.Apart w.disk o)
    (hjournal : w.JournalElsewhere o) (hname : a.debugLog.nonempty? = some name) (htrace : w.LogClear (.ofText name) o)
    (hopen : w.openLogIn (.ofText name) = (.ok id, w₁))
    (h : TraceLog.closing id (exec (Conversion.run s a.dryRun (some id)) c w₁) = (.error f, c', w'))
    (hf : f.isReported = true) : w'.disk.entryAt o = w.disk.entryAt o ∨ LosesTrace a w f := by
  have hopens := Machine.opens_openLogIn w (.ofText name)
  rw [hopen] at hopens
  have hplace := hopens.place id rfl
  have hlogged := (Step.onlyLogs_conversion s a.dryRun (some id)).logged c w₁
  rcases hrun : exec (Conversion.run s a.dryRun (some id)) c w₁ with ⟨result, c₂, w₂⟩
  rw [hrun] at h hlogged
  have hlast : (w₂.closeLog id).2 = w' := by
    have hsnd := congrArg Prod.snd h
    rw [TraceLog.closing_snd] at hsnd
    exact congrArg Prod.snd hsnd
  rcases TraceLog.closing_eq_error (congrArg Prod.fst h) with ⟨e, rfl, hclose⟩ | herror
  · -- The log lies where it was opened, and it is refused there.
    obtain ⟨place, n, fault, hid, hfault, rfl⟩ := Machine.closeLog_eq_error hclose
    have hsame : place = w.logPlace (.ofText name) := by
      obtain ⟨later, hlater⟩ := hlogged.places
      rw [← hlater, List.getElem?_append_left (List.getElem?_eq_some_iff.1 hplace).1, hplace] at hid
      exact (Option.some.inj hid).symm
    rw [hlogged.refuses, hopens.silent.refuses, hsame] at hfault
    exact .inr ⟨name, n, fault, hname, hfault, by rw [hsame]⟩
  · left
    have hs₁ := hs.of_home hopens.silent.home
    have hapart : w₁.LogApart o id := by
      rw [Machine.LogApart, hplace]
      exact fun hself => htrace.place (Option.some.inj hself)
    have hclear : Clear o s.artifacts (some id) w₁ := by
      refine ⟨hs₁.directory, hs₁.files, fun id' hid => ?_, (hjournal.of_logged hopens.logged).apart⟩
      obtain rfl : id = id' := Option.some.inj hid
      exact hapart
    obtain rfl : result = .error f := herror
    have hkept := Conversion.kept_run hclear hs₁.outputDirectory hrun hf
    rw [← hlast, (Machine.keeps_closeLog (hapart.of_keeps hkept)).disk.entry, hkept.disk.entry]
    exact hopens.keeps o htrace

theorem kept_convert (hs : s.Apart w.disk o) (hjournal : w.JournalElsewhere o)
    (htrace : ∀ name, a.debugLog.nonempty? = some name → w.LogClear (.ofText name) o)
    (h : exec (convert a s) c w = (.error f, c', w')) (hf : f.isReported = true) :
    w'.disk.entryAt o = w.disk.entryAt o ∨ LosesTrace a w f := by
  revert h
  refine of_convert (P := fun out => out = (.error f, c', w') → _) a s c w (fun _ h => ?_)
    (fun name e w₁ hname hopen h => ?_) fun name id w₁ hname hopen h => ?_
  · have hclear : Clear o s.artifacts none w := ⟨hs.directory, hs.files, by simp, hjournal.apart⟩
    exact .inl (Conversion.kept_run hclear hs.outputDirectory h hf).disk.entry
  · have hopens := Machine.opens_openLogIn w (.ofText name)
    rw [hopen] at hopens
    obtain ⟨-, -, rfl⟩ : _ ∧ _ ∧ w₁ = w' := by simpa using h
    exact .inl (hopens.keeps o (htrace name hname))
  · exact kept_closing hs hjournal hname (htrace name hname) hopen h hf

/-- What a run opens and writes leaves the output's place alone, and what it logs leaves the report's place alone. -/
structure Apart (a : Arguments) (w : Machine) (o : Place) : Prop where
  log : ∀ name, a.logFile.nonempty? = some name → w.LogClear (.ofText name) o
  trace : ∀ name, a.debugLog.nonempty? = some name → w.LogClear (.ofText name) o
  settings : ∀ s, Settles a w s → s.Apart w.disk o
  report : ∀ s p name, Settles a w s → s.reportPath = some p → a.logFile.nonempty? = some name →
    w.logPlace (.ofText name) ≠ w.disk.placeOf p

/-- The place holds a report as a document, which says whether the run succeeded, and with which errors it ended. -/
def Told (d : Disk) (place : Place) (succeeded : Bool) (errors : List Text) : Prop :=
  ∃ fields : Table Json, Conversion.Holds d place (Json.object fields).document ∧
    fields.get? "succeeded" = some (.bool succeeded) ∧ fields.get? "errors" = some (.ofStrings errors)

theorem told_of_holds {d : Disk} {place : Place} {r : Report} (h : Conversion.Holds d place r.toJson.document) :
    Told d place r.succeeded r.errors :=
  ⟨_, h, rfl, rfl⟩

/-- What is left alone until there are settings: the output's place, which the run log keeps away from, and what decides
on faults. -/
structure Untouched (o : Place) (w w' : Machine) : Prop where
  entry : w'.disk.entryAt o = w.disk.entryAt o
  elsewhere : w'.JournalElsewhere o
  home : w'.disk.home = w.disk.home
  refuses : w'.refuses = w.refuses

theorem untouched_of_settings {w₁ : Machine} {result : Except Failure Settings}
    (hopen : w.exec (openJournal a) = (.ok (), w₁)) (hsettings : w₁.exec (settingsOf a) = (result, w'))
    (hlog : ∀ name, a.logFile.nonempty? = some name → w.LogClear (.ofText name) o) : Untouched o w w' := by
  have hopened := opened_openJournal hopen
  have helsewhere := hopened.elsewhere o fun name hname => (hlog name hname).place
  have hlogged := logged_settingsOf hsettings
  have hentry := (keeps_settingsOf hsettings helsewhere.apart).disk.entry
  exact ⟨hentry.trans (hopened.keeps o hlog), helsewhere.of_logged hlogged, hlogged.home.trans hopened.silent.home,
    hlogged.refuses.trans hopened.silent.refuses⟩

theorem kept_of_course (hcourse : Course a w (.ok 1, w')) (hapart : Apart a w o) :
    w'.disk.entryAt o = w.disk.entryAt o ∨ ∃ f, (w.exec (work a)).1 = .error f ∧ LosesTrace a w f := by
  cases hcourse with
  | @unsettled f w₁ w₂ hopen hsettings hf =>
    have huntouched := untouched_of_settings hopen hsettings hapart.log
    exact .inl ((Machine.keeps_record huntouched.elsewhere.apart (failure f)).disk.entry.trans huntouched.entry)
  | @failed f s c w₁ w₂ w₃ w₄ hopen hsettings hconvert hf hsummarised =>
    have huntouched := untouched_of_settings hopen hsettings hapart.log
    have hs := (hapart.settings s ((settles_iff hopen).2 (by rw [hsettings]))).of_home huntouched.home
    have htrace := fun name hname => (hapart.trace name hname).of_home huntouched.home
    rcases kept_convert hs huntouched.elsewhere htrace hconvert hf with hconverted | hloses
    · left
      -- Behind the conversion there are only records and the report.
      have hlogged := (onlyLogs_convert a s).logged { report := initialReport s } w₂
      rw [hconvert] at hlogged
      have helsewhere₃ : w₃.JournalElsewhere o := huntouched.elsewhere.of_logged hlogged
      have hnoted := w₃.logged_record (failure f)
      have hkept := hsummarised.keeps o (helsewhere₃.of_logged hnoted)
        (hs.of_home (hnoted.home.trans hlogged.home)).report
      change w₄.disk.entryAt o = _
      rw [hkept, (Machine.keeps_record helsewhere₃.apart _).disk.entry, hconverted, huntouched.entry]
    · exact .inr ⟨f, exec_work hopen hsettings hconvert, hloses.of_home huntouched.home huntouched.refuses⟩

theorem told_of_summarised {w₁ w₂ : Machine} {r : Report} (hopened : Opened a w w₁) (hlogged : w₁.Logged w₂)
    (hsummarised : Summarised s r w₂ w') {p : Path} (hp : s.reportPath = some p)
    (hlog : ∀ name, a.logFile.nonempty? = some name → w.logPlace (.ofText name) ≠ w.disk.placeOf p) :
    Untaken p w w' ∨ Told w'.disk (w.disk.placeOf p) r.succeeded r.errors := by
  have hplace : w₂.disk.placeOf p = w.disk.placeOf p :=
    Disk.placeOf_congr (hlogged.home.trans hopened.silent.home) p
  have helsewhere := (hopened.elsewhere (w.disk.placeOf p) hlog).of_logged hlogged
  rcases hsummarised.report p hp (by rwa [hplace]) with hholds | huntaken
  · rw [hplace] at hholds
    exact .inr (told_of_holds hholds)
  · obtain ⟨rs, -, hrecords, -⟩ := hlogged.records
    exact .inl (huntaken.of_records rs (by rw [hrecords, hopened.silent.records]))

theorem errors_convert {w₁ : Machine} {result : Except Failure (List (Text × Binary64))}
    (h : exec (convert a s) { report := initialReport s } w = (result, c, w₁)) : c.report.errors = [] := by
  have herrors := (onlyLogs_convert a s).errors { report := initialReport s } w
  rwa [h] at herrors

theorem told_of_failed (hcourse : Course a w (.ok 1, w')) (hsettles : Settles a w s) {p : Path}
    (hp : s.reportPath = some p)
    (hlog : ∀ name, a.logFile.nonempty? = some name → w.logPlace (.ofText name) ≠ w.disk.placeOf p) :
    Untaken p w w' ∨ ∃ f, (w.exec (work a)).1 = .error f ∧ Told w'.disk (w.disk.placeOf p) false [f.message] := by
  cases hcourse with
  | unsettled hopen hsettings hf => simp [settles_iff hopen, hsettings] at hsettles
  | @failed f s' c w₁ w₂ w₃ w₄ hopen hsettings hconvert hf hsummarised =>
    obtain rfl : s' = s := by simpa [settles_iff hopen, hsettings] using hsettles
    have hlogged := (logged_convert hsettings hconvert).trans (w₃.logged_record (failure f))
    have herrors : (reportOf f c.report).errors = [f.message] := by simp [reportOf, errors_convert hconvert]
    have htold := told_of_summarised (opened_openJournal hopen) hlogged hsummarised hp hlog
    rw [Report.succeeded, herrors] at htold
    exact htold.imp_right fun htold => ⟨f, exec_work hopen hsettings hconvert, htold⟩

theorem told_of_succeeded (hcourse : Course a w (.ok 0, w')) (hsettles : Settles a w s) {p : Path}
    (hp : s.reportPath = some p)
    (hlog : ∀ name, a.logFile.nonempty? = some name → w.logPlace (.ofText name) ≠ w.disk.placeOf p) :
    Untaken p w w' ∨ Told w'.disk (w.disk.placeOf p) true [] := by
  cases hcourse with
  | @succeeded s' times c w₁ w₂ w₃ w₄ w₅ hopen hsettings hconvert hwarned hsummarised =>
    obtain rfl : s' = s := by simpa [settles_iff hopen, hsettings] using hsettles
    have hlogged := (logged_convert hsettings hconvert).trans hwarned
    have htold := told_of_summarised (opened_openJournal hopen) hlogged hsummarised hp hlog
    rwa [Report.succeeded, errors_convert hconvert] at htold

def reportSettings : Settings := { reportPath := some (.ofText "r.json") }

def builtPlace : Place := [Utf8.nameBytes "src", Utf8.nameBytes "build.js"]

theorem settles_staleMachine : Settles reportArguments staleMachine reportSettings :=
  eq_ok_of_toOption (by decide +kernel)

theorem apart_staleMachine : Apart reportArguments staleMachine builtPlace where
  log name hname := by
    obtain rfl : "nodeify.log" = name := Option.some.inj hname
    exact ⟨by decide, by decide⟩
  trace name hname := by contradiction
  settings s hs := by
    obtain rfl : reportSettings = s := Except.ok.inj (settles_staleMachine.symm.trans hs)
    refine ⟨by decide, by decide, by simp [reportSettings], by simp [reportSettings], fun p hp => ?_⟩
    obtain rfl : .ofText "r.json" = p := Option.some.inj hp
    exact ⟨by decide, by decide⟩
  report s p name hs hp hname := by
    obtain rfl : reportSettings = s := Except.ok.inj (settles_staleMachine.symm.trans hs)
    obtain rfl : .ofText "r.json" = p := Option.some.inj hp
    obtain rfl : "nodeify.log" = name := Option.some.inj hname
    decide

theorem taken_staleMachine :
    ¬ Untaken (.ofText "r.json") staleMachine (staleMachine.exec (run ["--report", "r.json"])).2 := by
  rintro ⟨-, -, -, e, -, -, -, rs, hrecords⟩
  have hspeaker : (staleMachine.exec (run ["--report", "r.json"])).2.records.getLast?.map Record.speaker =
      some Host.fileSpeaker := by decide +kernel
  rw [hrecords, List.getLast?_concat] at hspeaker
  have hself : speaker = Host.fileSpeaker := Option.some.inj hspeaker
  exact absurd hself (by decide)

theorem run_escapes {words : List Text} {e : DiskError} {w₁ w₂ : Machine} (h : Arguments.parse words = .ok a)
    (hopen : w.exec (openJournal a) = (.ok (), w₁)) (hsettings : w₁.exec (settingsOf a) = (.ok s, w₂))
    (htrace : a.debugLog.nonempty? = none) (hread : (w₂.read s.inputPath).1 = .error e)
    (hfault : e.fault.isOfSystem = false) : w.exec (run words) = (.error (.disk e), w₂.tick) := by
  have hsource : ∀ c, exec (Host.readSource s.inputPath) c w₂ = (.error (.disk e), c, w₂.tick) := by
    intro c
    have hattempt : exec (Host.attempt (Host.read s.inputPath)) c w₂ = (.error (.disk e), c, w₂.tick) := by
      change ((w₂.read s.inputPath).1.mapError Failure.disk, c, (w₂.read s.inputPath).2) = _
      rw [hread, Machine.read_snd]
      rfl
    unfold Host.readSource Host.readText
    simp only [exec_bind, hattempt]
  have hconvert : ∀ c, exec (convert a s) c w₂ = (.error (.disk e), c, w₂.tick) := by
    intro c
    rw [exec_convert, htrace]
    simp only [Conversion.run, exec_bind, hsource]
  have hrun : w.exec (run words) = w.exec (runArguments a) := by
    simp only [run, h]
  rw [hrun, runArguments, Machine.exec_bind_ok hopen, Machine.exec_bind, Machine.exec_result, hsettings]
  simp only [Machine.exec_bind, Machine.exec_step, hconvert]
  exact exec_fail_unreported (by simpa [Failure.isReported] using hfault) _ _

def namelessMachine : Machine where
  disk := ⟨[([Utf8.nameBytes "c.yaml"], .file (Utf8.bytes "input_path: \"a\\0b\"\n"))], []⟩
  room := 0
  documents t :=
    if t = "input_path: \"a\\0b\"\n" then .ok (.mapping [(.text "input_path", .text "a\x00b")])
    else .error (.malformed "")

def namelessArguments : Arguments := { config := .text "c.yaml", reportPath := .text "r.json", logFile := .text "" }

def namelessSettings : Settings := { inputPath := .ofText "a\x00b", reportPath := some (.ofText "r.json") }

theorem exec_settingsOf_nameless :
    namelessMachine.exec (settingsOf namelessArguments) = (.ok namelessSettings, namelessMachine.tick) := by
  have hdocument : documentOf namelessMachine (.ofText "c.yaml") =
      .ok (.mapping [(.text "input_path", .text "a\x00b")]) := by rfl
  have hsettings : Settings.ofDocument (Path.ofText "c.yaml").toText
      (.mapping [(.text "input_path", .text "a\x00b")]) = .ok { inputPath := .ofText "a\x00b" } :=
    eq_ok_of_toOption (by decide +kernel)
  have hmerged : Settings.merged { inputPath := .ofText "a\x00b" } namelessArguments.overrides = .ok namelessSettings :=
    eq_ok_of_toOption (by decide +kernel)
  have hload : namelessMachine.exec (Settings.load (.ofText "c.yaml")) =
      (.ok { inputPath := .ofText "a\x00b" }, namelessMachine.tick) := by
    rw [exec_load, hdocument, ← hsettings]
    rfl
  have hname : namelessArguments.config.nonempty? = some ("c.yaml" : Text) := by rfl
  rw [exec_settingsOf_file hname hload, ← hmerged]
  rfl

theorem openJournal_nameless : namelessMachine.exec (openJournal namelessArguments) = (.ok (), namelessMachine) := by
  rfl

theorem settles_nameless : Settles namelessArguments namelessMachine namelessSettings := by
  rw [settles_iff openJournal_nameless, exec_settingsOf_nameless]

theorem apart_nameless : Apart namelessArguments namelessMachine builtPlace where
  log name hname := (Option.some_ne_none name hname.symm).elim
  trace name hname := (Option.some_ne_none name hname.symm).elim
  settings s hs := by
    obtain rfl : namelessSettings = s := Except.ok.inj (settles_nameless.symm.trans hs)
    refine ⟨by decide, by decide, by simp [namelessSettings], by simp [namelessSettings], fun p hp => ?_⟩
    obtain rfl : .ofText "r.json" = p := Option.some.inj hp
    exact ⟨by decide, by decide⟩
  report _ _ name _ _ hname := (Option.some_ne_none name hname.symm).elim

end Command
end Rehost
