import Rehost.Proofs.Json
import Rehost.Proofs.Run.Passes
import Rehost.Run.Conversion

/-! A conversion on a machine comes to the rehosting of its script, whatever it records on the way. Its output is then
that module; where it fails or only tries, the output stays what it was. -/
namespace Rehost

namespace Machine

theorem makeDirectories_eq (w : Machine) (p : Path) :
    ∃ d, (w.makeDirectories p).2 = { w.tick with disk := d } ∧ d.home = w.disk.home := by
  unfold makeDirectories
  split
  · exact ⟨w.disk, rfl, rfl⟩
  · exact ⟨_, rfl, Disk.makeDirectories_home w.disk w.room p⟩

theorem write_eq_ok {w : Machine} {p : Path} {bytes : Bytes} (h : (w.write p bytes).1 = .ok ()) :
    ∃ d, w.write p bytes = (.ok (), { w.tick with disk := d }) ∧
      d.entryAt (w.disk.placeOf p) = some (.file bytes) := by
  unfold write at h ⊢
  split at h
  · contradiction
  split at h
  · contradiction
  · next d hd =>
    obtain ⟨rfl, hplace⟩ := Disk.write_eq_ok hd
    exact ⟨_, rfl, Disk.entryAt_set_self w.disk _ _ hplace⟩

theorem write_eq_error {w : Machine} {p : Path} {bytes : Bytes} {e : DiskError} (h : (w.write p bytes).1 = .error e) :
    (w.write p bytes).2 = w.tick := by
  unfold write at h ⊢
  split at h
  · rfl
  split at h
  · rfl
  · contradiction

end Machine

namespace Conversion
open Context

variable {α : Type} {o : Place} {c : Context} {w : Machine}

def outcome (out : Except Failure α × Context × Machine) : Except Failure (Text × Text) :=
  out.1.map fun _ => (out.2.1.output, out.2.1.hash)

def Holds (d : Disk) (o : Place) (t : Text) : Prop :=
  ∃ bytes, Utf8.encode t = .ok bytes ∧ d.entryAt o = some (.file bytes)

/-- What a conversion leaves at the place of its output, by what it comes to. -/
structure Leaves (o : Place) (dryRun : Bool) (d d' : Disk) (result : Except Failure (Text × Text)) : Prop where
  written : ∀ module hash, result = .ok (module, hash) → dryRun = false → Holds d' o module
  kept : dryRun = true ∨ result.isOk = false → d'.entryAt o = d.entryAt o

theorem exec_readSource {p : Path} {bytes : Bytes} {t : Text} (hread : (w.read p).1 = .ok bytes)
    (hdecode : Utf8.decode bytes = .ok t) :
    ∃ r, exec (Host.readSource p) c w = (.ok (Text.unifyNewlines t), c, w.tick.record r) := by
  have hattempt : exec (Host.attempt (Host.read p)) c w = (.ok bytes, c, w.tick) := by
    change ((w.read p).1.mapError Failure.disk, c, (w.read p).2) = _
    rw [hread, Machine.read_snd]
    rfl
  unfold Host.readSource Host.readText
  simp only [exec_bind, hattempt, hdecode, exec_pure, exec_note]
  exact ⟨_, rfl⟩

theorem namesOrigin_contextOf (s : Settings) (trace : Option LogId) (source : Text) (r : Report) :
    (contextOf s trace source r).NamesOrigin := by
  unfold NamesOrigin Pass.origin
  by_cases hgiven : (Value.text s.origin).isGiven = true <;> simp [contextOf, Value.field?, hgiven, Value.display]

theorem passes_refine {s : Settings} {trace : Option LogId} (h : Clear o s.artifacts trace w) (source : Text)
    (r : Report) :
    let out := exec (start (contextOf s trace source r) >>= fun _ => Pipeline.registry.run) c w
    w.Keeps o out.2.2 ∧ (outcome out = Pipeline.rehost source s.origin ∨ Refused out) := by
  intro out
  have hrun := Pipeline.asInMemory_run (c := contextOf s trace source r) h (namesOrigin_contextOf s trace source r) c
  have hcore : (contextOf s trace source r).prepared.core = (Pipeline.contextOf source s.origin).core := rfl
  refine ⟨hrun.keeps, hrun.result.imp_left fun hresult => ?_⟩
  rw [Pipeline.applyAll_core hcore] at hresult
  have hrehost : Pipeline.rehost source s.origin =
      ((Pipeline.applyAll Pass.all (Pipeline.contextOf source s.origin)).map core).map fun c => (c.output, c.hash) := by
    unfold Pipeline.rehost
    cases Pipeline.applyAll Pass.all (Pipeline.contextOf source s.origin) <;> rfl
  rw [hrehost, ← hresult, outcome]
  change _ = (out.1.map _).map _
  cases out.1 <;> rfl

theorem exec_putText (p : Path) (t : Text) (c : Context) (w : Machine) :
    Refused (exec (Host.putText p t) c w) ∨
      ∃ d, exec (Host.putText p t) c w = (.ok (), c, { w.tick with disk := d }) ∧ Holds d (w.disk.placeOf p) t := by
  unfold Host.putText
  cases hencode : Utf8.encode t with
  | error g =>
    left
    simp only [exec_bind, exec_write]
    cases (w.write p []).1 with
    | error e => exact ⟨_, rfl, rfl⟩
    | ok _ => exact ⟨_, rfl, rfl⟩
  | ok bytes =>
    simp only [exec_write]
    cases hwrite : (w.write p bytes).1 with
    | error e => exact .inl ⟨_, rfl, rfl⟩
    | ok _ =>
      obtain ⟨d, heq, hentry⟩ := Machine.write_eq_ok hwrite
      rw [heq]
      exact .inr ⟨d, rfl, bytes, hencode, hentry⟩

theorem exec_writeText (p : Path) (t : Text) (c : Context) (w : Machine) :
    Refused (exec (Host.writeText p t) c w) ∨
      ∃ d r, exec (Host.writeText p t) c w = (.ok (), c, ({ w.tick.tick with disk := d } : Machine).record r) ∧
        Holds d (w.disk.placeOf p) t := by
  obtain ⟨made, hmade, hhome⟩ := w.makeDirectories_eq p.parent
  unfold Host.writeText
  rw [exec_bind, exec_makeDirectories, hmade]
  cases (w.makeDirectories p.parent).1 with
  | error e => exact .inl ⟨_, rfl, rfl⟩
  | ok _ =>
    let directed : Machine := { w.tick with disk := made }
    change Refused (exec (Host.putText p t >>= _) c directed) ∨ ∃ d r,
      exec (Host.putText p t >>= _) c directed = (.ok (), c, ({ w.tick.tick with disk := d } : Machine).record r) ∧ _
    refine (exec_putText p t c directed).imp (fun hrefused => hrefused.bind _) ?_
    rintro ⟨d, hput, hholds⟩
    rw [Disk.placeOf_congr hhome] at hholds
    rw [exec_bind, hput]
    exact ⟨d, _, rfl, hholds⟩

/-- The disk refuses a text only as long as it is not written; a text without bytes is refused behind that. -/
theorem exec_putText_error {p : Path} {t : Text} {c c' : Context} {w w' : Machine} {f : Failure}
    (h : exec (Host.putText p t) c w = (.error f, c', w')) :
    (∃ e, f = .disk e ∧ w' = w.tick) ∨ ∃ g, f = .unencodable g ∧ Utf8.encode t = .error g := by
  have hwrite : ∀ {bytes : Bytes}, exec (Host.attempt (Host.write p bytes)) c w = (.error f, c', w') →
      ∃ e, f = .disk e ∧ w' = w.tick := by
    intro bytes hrefused
    rw [exec_write] at hrefused
    cases hput : (w.write p bytes).1 with
    | error e =>
      rw [hput, Machine.write_eq_error hput] at hrefused
      obtain ⟨rfl, -, rfl⟩ : .disk e = f ∧ _ ∧ w.tick = w' := by simpa using hrefused
      exact ⟨e, rfl, rfl⟩
    | ok _ => simp [hput] at hrefused
  unfold Host.putText at h
  cases hencode : Utf8.encode t with
  | ok bytes =>
    simp only [hencode] at h
    exact .inl (hwrite h)
  | error g =>
    simp only [hencode] at h
    rcases exec_bind_eq_error h with hrefused | ⟨_, c₁, w₁, -, hthrow⟩
    · exact .inl (hwrite hrefused)
    · obtain ⟨rfl, -⟩ : .unencodable g = f ∧ _ := by simpa using hthrow
      exact .inr ⟨g, rfl, rfl⟩

theorem exec_writeText_error {p : Path} {t : Text} {c c' : Context} {w w' : Machine} {f : Failure}
    (h : exec (Host.writeText p t) c w = (.error f, c', w')) :
    (∃ e, f = .disk e ∧ (w' = (w.makeDirectories p.parent).2 ∨ w' = (w.makeDirectories p.parent).2.tick)) ∨
      ∃ g, f = .unencodable g ∧ Utf8.encode t = .error g := by
  unfold Host.writeText at h
  rcases exec_bind_eq_error h with hmake | ⟨_, c₁, w₁, hmake, h⟩
  · rw [exec_makeDirectories] at hmake
    obtain ⟨hfailure, hrest⟩ := Prod.mk.inj hmake
    obtain ⟨-, rfl⟩ := Prod.mk.inj hrest
    obtain ⟨e, -, rfl⟩ := mapError_eq_error hfailure
    exact .inl ⟨e, rfl, .inl rfl⟩
  rw [exec_makeDirectories] at hmake
  obtain ⟨-, -, rfl⟩ : _ ∧ c = c₁ ∧ (w.makeDirectories p.parent).2 = w₁ := by simpa using hmake
  rcases exec_bind_eq_error h with hput | ⟨_, c₂, w₂, -, hnote⟩
  · exact (exec_putText_error hput).imp_left fun ⟨e, hf, hw⟩ => ⟨e, hf, .inr hw⟩
  · simp at hnote

theorem Holds.of_keeps {o : Place} {d d' : Disk} {t : Text} (h : Holds d o t) (hd : Disk.Keeps o d d') :
    Holds d' o t := by
  obtain ⟨bytes, hencode, hentry⟩ := h
  exact ⟨bytes, hencode, hd.entry.trans hentry⟩

/-- What is recorded behind a write goes to the run log, which leaves what was written. -/
theorem holds_writeText {p : Path} {t : Text} {c : Context} {w : Machine}
    (h : (exec (Host.writeText p t) c w).1 = .ok ()) (hjournal : w.JournalApart (w.disk.placeOf p)) :
    Holds (exec (Host.writeText p t) c w).2.2.disk (w.disk.placeOf p) t := by
  rcases exec_writeText p t c w with ⟨f, hf, -⟩ | ⟨d, r, hrun, hholds⟩
  · simp [hf] at h
  · rw [hrun]
    have hwritten : Machine.JournalApart (w.disk.placeOf p) { w.tick.tick with disk := d } := hjournal
    exact hholds.of_keeps (Machine.keeps_record hwritten r).disk

theorem exec_deliver {s : Settings} (ho : o = w.disk.placeOf s.outputPath) (hjournal : w.JournalApart o) (c : Context)
    (dryRun : Bool) :
    Refused (exec (deliver s dryRun) c w) ∨
      ∃ w', exec (deliver s dryRun) c w = (.ok (), c, w') ∧
        if dryRun then w'.disk.entryAt o = w.disk.entryAt o else Holds w'.disk o c.output := by
  unfold deliver
  rw [exec_bind, exec_current]
  cases dryRun with
  | true => exact .inr ⟨_, rfl, (Machine.keeps_record hjournal _).disk.entry⟩
  | false =>
    simp only [Bool.false_eq_true, if_false]
    refine (exec_writeText s.outputPath c.output c w).imp (fun hrefused => hrefused.bind _) ?_
    rintro ⟨d, r, hwrite, bytes, hencode, hentry⟩
    -- What is recorded behind the write goes to the run log, which lies apart.
    let written : Machine := { w.tick.tick with disk := d }
    have hwritten : written.JournalApart o := hjournal
    have hfirst : written.Keeps o (written.record r) := Machine.keeps_record hwritten r
    rw [exec_bind, hwrite]
    refine ⟨_, rfl, bytes, hencode, ?_⟩
    rw [(Machine.keeps_record (hwritten.of_keeps hfirst) _).disk.entry, hfirst.disk.entry, ho]
    exact hentry

theorem exec_run {s : Settings} {bytes : Bytes} {t : Text} (hread : (w.read s.inputPath).1 = .ok bytes)
    (hdecode : Utf8.decode bytes = .ok t) (trace : Option LogId) (c : Context) (dryRun : Bool) :
    ∃ r, exec (run s dryRun trace) c w =
      exec ((start (contextOf s trace (Text.unifyNewlines t) c.report) >>= fun _ => Pipeline.registry.run) >>=
        fun times => deliver s dryRun >>= fun _ => pure times) c (w.tick.record r) := by
  obtain ⟨r, hsource⟩ := exec_readSource (c := c) hread hdecode
  refine ⟨r, ?_⟩
  rw [run, exec_bind, hsource]
  simp only
  rw [exec_bind, exec_current, bind_assoc]

theorem outcome_and_output {s : Settings} {trace : Option LogId} {bytes : Bytes} {t : Text}
    (hread : (w.read s.inputPath).1 = .ok bytes) (hdecode : Utf8.decode bytes = .ok t)
    (hclear : Clear (w.disk.placeOf s.outputPath) s.artifacts trace w) (c : Context) (dryRun : Bool)
    (hwritten : ¬ Refused (exec (run s dryRun trace) c w)) :
    outcome (exec (run s dryRun trace) c w) = Pipeline.rehost (Text.unifyNewlines t) s.origin ∧
      Leaves (w.disk.placeOf s.outputPath) dryRun w.disk (exec (run s dryRun trace) c w).2.2.disk
        (outcome (exec (run s dryRun trace) c w)) := by
  let o := w.disk.placeOf s.outputPath
  obtain ⟨r, hrun⟩ := exec_run hread hdecode trace c dryRun
  have htick : w.Keeps o w.tick := Machine.keeps_tick w
  have hrecord : w.Keeps o (w.tick.record r) := htick.trans (Machine.keeps_record (hclear.journal.of_keeps htick) r)
  obtain ⟨hkeeps, hpasses⟩ := passes_refine (c := c) (hclear.of_keeps hrecord) (Text.unifyNewlines t) c.report
  rw [hrun] at hwritten ⊢
  have houtcome := hpasses.resolve_right fun hrefused => hwritten (hrefused.bind _)
  rw [exec_bind] at hwritten ⊢
  rcases hmiddle : exec (start (contextOf s trace (Text.unifyNewlines t) c.report) >>= fun _ => Pipeline.registry.run) c
    (w.tick.record r) with ⟨result, c₁, w₁⟩
  rw [hmiddle] at hkeeps houtcome hwritten
  have hkept : w.Keeps o w₁ := hrecord.trans hkeeps
  cases result with
  | error f => exact ⟨houtcome, by simp [outcome, Except.map], fun _ => hkept.disk.entry⟩
  | ok times =>
    have ho : o = w₁.disk.placeOf s.outputPath := (Disk.placeOf_congr hkept.disk.home _).symm
    simp only at hwritten ⊢
    obtain ⟨w₂, hdeliver, hleaves⟩ := (exec_deliver ho (hclear.journal.of_keeps hkept) c₁ dryRun).resolve_left
      fun hrefused => hwritten (hrefused.bind _)
    rw [exec_bind, hdeliver]
    refine ⟨houtcome, fun module hash hresult hdry => ?_, fun hstays => ?_⟩
    · obtain ⟨rfl, rfl⟩ := Prod.mk.inj (Except.ok.inj hresult)
      simpa [hdry] using hleaves
    · have hdry : dryRun = true := hstays.resolve_right (by simp [outcome, Except.map, Except.isOk, Except.toBool])
      rw [hkept.disk.entry] at hleaves
      simpa [hdry] using hleaves

/-- A conversion of a script that can be read, as far as everything can be written: it comes to the rehosting of that
script, and its output is then the module, or what was there before if the rehosting fails or nothing is to be written.
So it comes to the same with other artifacts, another trace log, another report, and as a dry run. -/
theorem run_refines {s : Settings} {trace : Option LogId} {bytes : Bytes} {t : Text}
    (hread : (w.read s.inputPath).1 = .ok bytes) (hdecode : Utf8.decode bytes = .ok t)
    (hclear : Clear (w.disk.placeOf s.outputPath) s.artifacts trace w) (c : Context) (dryRun : Bool)
    (hwritten : ¬ Refused (exec (run s dryRun trace) c w)) :
    outcome (exec (run s dryRun trace) c w) = Pipeline.rehost (Text.unifyNewlines t) s.origin ∧
      Leaves (w.disk.placeOf s.outputPath) dryRun w.disk (exec (run s dryRun trace) c w).2.2.disk
        (Pipeline.rehost (Text.unifyNewlines t) s.origin) ∧
      ∀ (artifacts : Option Path) (trace' : Option LogId) (c' : Context) (dryRun' : Bool),
        Clear (w.disk.placeOf s.outputPath) artifacts trace' w →
        ¬ Refused (exec (run { s with artifacts } dryRun' trace') c' w) →
        outcome (exec (run { s with artifacts } dryRun' trace') c' w) = outcome (exec (run s dryRun trace) c w) := by
  obtain ⟨houtcome, hleaves⟩ := outcome_and_output hread hdecode hclear c dryRun hwritten
  refine ⟨houtcome, houtcome ▸ hleaves, fun artifacts trace' c' dryRun' hclear' hwritten' => ?_⟩
  let s' : Settings := { s with artifacts }
  have hread' : (w.read s'.inputPath).1 = .ok bytes := hread
  rw [houtcome]
  exact (outcome_and_output hread' hdecode hclear' c' dryRun' hwritten').1

def fullScript : Text :=
  "HBInit=f;" ++ ("new WebSocket(u);" ++ "e.g.onerror=" ++ "function()\x7bh.k(!0)\x7d;" ++
    ("case \"recaptcha\":r(x);" ++ "if(a.b)throw c.d(" ++ "\"Can't init twice\");" ++ "a.b=!0;" ++
      "w(\"noPlayer\",!1)"))

def plainSettings : Settings := { inputPath := .ofText "in.js", outputPath := .ofText "out.js" }

def fullMachine : Machine where
  disk := ⟨[([Utf8.nameBytes "in.js"], .file (Utf8.bytes fullScript)), ([Utf8.nameBytes "log"], .file [])], []⟩
  room := 0
  logs := [⟨[Utf8.nameBytes "log"], 0, []⟩]

theorem read_fullMachine : (fullMachine.read plainSettings.inputPath).1 = .ok (Utf8.bytes fullScript) := rfl

set_option maxRecDepth 4000 in
theorem decode_fullScript : Utf8.decode (Utf8.bytes fullScript) = .ok fullScript := by rfl

theorem clear_fullMachine (trace : Option LogId) (htrace : trace = none ∨ trace = some 0) :
    Clear (fullMachine.disk.placeOf plainSettings.outputPath) none trace fullMachine where
  directory := by simp
  files := by simp
  trace id hid := by
    obtain rfl : id = 0 := by
      rw [hid] at htrace
      simpa using htrace
    simp [Machine.LogApart, fullMachine]
    decide
  journal id hid := by simp [fullMachine] at hid

theorem not_refused_of_isOk {out : Except Failure α × Context × Machine} (h : out.1.isOk = true) : ¬ Refused out := by
  rintro ⟨f, herror, -⟩
  rw [herror] at h
  contradiction

theorem isOk_fullMachine : (exec (run plainSettings false none) {} fullMachine).1.isOk = true := by
  rw [run, Registry.run, Pipeline.registry_selected]
  decide +kernel

theorem isOk_dry_fullMachine : (exec (run plainSettings true (some 0)) {} fullMachine).1.isOk = true := by
  rw [run, Registry.run, Pipeline.registry_selected]
  decide +kernel

theorem run_fullMachine :
    outcome (exec (run plainSettings false none) {} fullMachine) =
        Pipeline.rehost (Text.unifyNewlines fullScript) plainSettings.origin ∧
      Leaves (fullMachine.disk.placeOf plainSettings.outputPath) false fullMachine.disk
        (exec (run plainSettings false none) {} fullMachine).2.2.disk
        (Pipeline.rehost (Text.unifyNewlines fullScript) plainSettings.origin) ∧
      outcome (exec (run plainSettings true (some 0)) {} fullMachine) =
        outcome (exec (run plainSettings false none) {} fullMachine) := by
  obtain ⟨houtcome, hleaves, hsame⟩ := run_refines read_fullMachine decode_fullScript
    (clear_fullMachine none (.inl rfl)) {} false (not_refused_of_isOk isOk_fullMachine)
  have hsettings : ({ plainSettings with artifacts := none } : Settings) = plainSettings := rfl
  have hdry := hsame none (some 0) {} true (clear_fullMachine (some 0) (.inr rfl))
  rw [hsettings] at hdry
  exact ⟨houtcome, hleaves, hdry (not_refused_of_isOk isOk_dry_fullMachine)⟩

/-! A trace log that lies where the module is to go gets the lines of the passes there, though nothing is delivered. -/

def tracedMachine : Machine where
  disk := ⟨[([Utf8.nameBytes "in.js"], .file (Utf8.bytes "x")), ([Utf8.nameBytes "out.js"], .file [])], []⟩
  room := 0
  logs := [⟨[Utf8.nameBytes "out.js"], 0, []⟩]

/-- Two passes leave a line each before the first rule fails. -/
theorem exec_passes_traced (c : Context) (w : Machine) : ∃ a c' s₁ r₁ s₂ r₂,
    exec (start (contextOf plainSettings (some 0) "x" {}) >>= fun _ => Pipeline.registry.run) c w =
      (.error (.absent a), c', (((w.logLine 0 (traceLine "hash_extract" s₁)).record r₁).logLine 0
        (traceLine "environment" s₂)).record r₂) := by
  obtain ⟨s₁, c₁, h₁, s₂, c₂, h₂, a, h₃⟩ : ∃ s₁ c₁,
      Pass.buildHash.apply (contextOf plainSettings (some 0) "x" {}).prepared = .ok (s₁, c₁) ∧
        ∃ s₂ c₂, Pass.browser.apply (c₁.noting "hash_extract" s₁) = .ok (s₂, c₂) ∧
          ∃ a, Pass.rules.apply (c₂.noting "environment" s₂) = .error (.absent a) :=
    ⟨_, _, rfl, _, _, rfl, _, rfl⟩
  have hplain₁ : (c₁.noting "hash_extract" s₁).artifacts = none := (Pass.apply_eq_ok h₁).1
  have htrace₁ : c₁.trace = some 0 := (Pass.apply_eq_ok h₁).2.1
  have htrace₂ : c₂.trace = some 0 := (Pass.apply_eq_ok h₂).2.1.trans htrace₁
  have hstart : exec (start (contextOf plainSettings (some 0) "x" {}) >>= fun _ => Pipeline.registry.run) c w =
      exec (Registry.runFrom [] (Pipeline.stepsOf Pass.all)) (contextOf plainSettings (some 0) "x" {}).prepared w := by
    rw [exec_bind, exec_start_of_plain rfl, Registry.run, Pipeline.registry_selected, Pipeline.stepsOf]
  have hrun := (Pipeline.exec_runFrom_ok (Pass.exec_step_of_plain (w := w) rfl h₁) [] _).trans
    ((Pipeline.exec_runFrom_ok (Pass.exec_step_of_plain hplain₁ h₂) _ _).trans
      (Pipeline.exec_runFrom_error (Pass.exec_step_of_error h₃) _ [.capabilities, .envelope]))
  simp only [traced, htrace₁, htrace₂] at hrun
  exact ⟨a, _, s₁, _, s₂, _, hstart.trans hrun⟩

theorem exec_tracedMachine : ∃ a s r, ∃ w : Machine, tracedMachine.Steady w ∧
    (exec (run plainSettings true (some 0)) {} tracedMachine).1 = .error (.absent a) ∧
      (exec (run plainSettings true (some 0)) {} tracedMachine).2.2 =
        (w.logLine 0 (traceLine "environment" s)).record r := by
  have hread : (tracedMachine.read plainSettings.inputPath).1 = .ok (Utf8.bytes "x") := rfl
  obtain ⟨r₀, hrun⟩ := exec_run (t := "x") hread rfl (some 0) {} true
  obtain ⟨a, c', s₁, r₁, s₂, r₂, hpasses⟩ := exec_passes_traced {} (tracedMachine.tick.record r₀)
  have hunified : Text.unifyNewlines "x" = "x" := rfl
  rw [hunified, exec_bind, hpasses] at hrun
  rw [hrun]
  refine ⟨a, s₂, r₂, _, ?_, rfl, rfl⟩
  exact (Machine.steady_tick _).trans ((Machine.steady_record _ r₀).trans
    ((Machine.steady_logLine _ 0 _).trans (Machine.steady_record _ r₁)))

theorem encode_traceLine {name : Text} (h : name.Visible) (summary : Json) :
    Utf8.encode (traceLine name summary) = .ok (Utf8.bytes (traceLine name summary)) :=
  Text.Visible.encode_line ((h.append (by decide)).append (Json.visible_line _))

/-- Without the condition on the trace log the output may change where it should stay. -/
theorem not_always_refines : ¬ ∀ (s : Settings) (trace : Option LogId) (c : Context) (w : Machine) (dryRun : Bool)
    (bytes : Bytes) (t : Text), (w.read s.inputPath).1 = .ok bytes → Utf8.decode bytes = .ok t →
    (∀ dir, s.artifacts = some dir → ¬ w.disk.OnWay dir (w.disk.placeOf s.outputPath) ∧
      ∀ name, w.disk.placeOf dir ++ [name] ≠ w.disk.placeOf s.outputPath) →
    ¬ Refused (exec (run s dryRun trace) c w) →
    outcome (exec (run s dryRun trace) c w) = Pipeline.rehost (Text.unifyNewlines t) s.origin ∧
      Leaves (w.disk.placeOf s.outputPath) dryRun w.disk (exec (run s dryRun trace) c w).2.2.disk
        (Pipeline.rehost (Text.unifyNewlines t) s.origin) := by
  intro h
  obtain ⟨a, s, r, w, hsteady, herror, hlast⟩ := exec_tracedMachine
  have hleaves := (h plainSettings (some 0) {} tracedMachine true (Utf8.bytes "x") "x" rfl rfl
    (by simp [plainSettings]) (by
      rintro ⟨f, hf, hwriting⟩
      obtain rfl : Failure.absent a = f := Except.error.inj (herror.symm.trans hf)
      contradiction)).2
  have hkept : (exec (run plainSettings true (some 0)) {} tracedMachine).2.2.disk.entryAt [Utf8.nameBytes "out.js"] =
      some (.file []) := hleaves.kept (.inl rfl)
  have hplace : (w.logs.map LogFile.place)[0]? = some [Utf8.nameBytes "out.js"] := by rw [hsteady.logs]; rfl
  have htaken : w.refuses w.accesses (.append [Utf8.nameBytes "out.js"]) = none := by rw [hsteady.refuses]; rfl
  have hjournal : (w.logLine 0 (traceLine "environment" s)).journal.file = none := by
    rw [(Machine.steady_logLine w 0 _).journal, hsteady.journal]
    rfl
  have hname : Text.Visible "environment" := by decide
  have hbytes : Utf8.bytes (traceLine "environment" s) ≠ [] := List.cons_ne_nil _ _
  refine Machine.bytesAt_logLine_ne_nil hplace (by simp) htaken (encode_traceLine hname s) hbytes ?_
  rw [← Machine.disk_record_of_none hjournal r, ← hlast, Machine.bytesAt, hkept]

end Conversion
end Rehost
