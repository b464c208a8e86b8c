import Rehost.Proofs.Run.Logged

/-! The courses that a run of the command line can take on a machine, from the opening of its log to its last line. -/
namespace Rehost

namespace Machine

def exec {α : Type} (w : Machine) (a : Attempt (StateM Machine) α) : Except Failure α × Machine := a.run.run w

variable {α β : Type} {o : Place} {w w' : Machine}

theorem exec_bind (w : Machine) (a : Attempt (StateM Machine) α) (f : α → Attempt (StateM Machine) β) :
    w.exec (a >>= f) =
      match w.exec a with
      | (.ok x, w') => w'.exec (f x)
      | (.error e, w') => (.error e, w') := by
  unfold exec
  rw [ExceptT.run_bind, StateT.run_bind]
  generalize a.run.run w = out
  obtain ⟨_ | x, w'⟩ := out
  · rfl
  · rfl

theorem exec_bind_ok {a : Attempt (StateM Machine) α} {x : α} (h : w.exec a = (.ok x, w'))
    (f : α → Attempt (StateM Machine) β) : w.exec (a >>= f) = w'.exec (f x) := by
  rw [exec_bind, h]

theorem exec_bind_error {a : Attempt (StateM Machine) α} {e : Failure} (h : w.exec a = (.error e, w'))
    (f : α → Attempt (StateM Machine) β) : w.exec (a >>= f) = (.error e, w') := by
  rw [exec_bind, h]

@[simp] theorem exec_pure (w : Machine) (x : α) : w.exec (pure x) = (.ok x, w) := rfl

@[simp] theorem exec_throw (w : Machine) (f : Failure) :
    w.exec (throw f : Attempt (StateM Machine) α) = (.error f, w) := rfl

@[simp] theorem exec_note (w : Machine) (speaker : Text) (level : Level) (message : Text) :
    w.exec (Host.note speaker level message) = (.ok (), w.record ⟨speaker, level, message⟩) := rfl

@[simp] theorem exec_setJournal (w : Machine) (journal : Journal) :
    w.exec (liftM (Host.setJournal journal : StateM Machine Unit)) = (.ok (), { w with journal }) := rfl

@[simp] theorem exec_makeDirectories (w : Machine) (p : Path) :
    w.exec (Host.attempt (Host.makeDirectories p)) =
      ((w.makeDirectories p).1.mapError .disk, (w.makeDirectories p).2) := rfl

@[simp] theorem exec_write (w : Machine) (p : Path) (bytes : Bytes) :
    w.exec (Host.attempt (Host.write p bytes)) = ((w.write p bytes).1.mapError .disk, (w.write p bytes).2) := rfl

@[simp] theorem exec_openLogAt (w : Machine) (p : Path) :
    w.exec (Host.openLogAt p) =
      ((w.openLog (Path.absolute w.workingDirectory p)).1.mapError .disk,
        (w.openLog (Path.absolute w.workingDirectory p)).2) := rfl

/-- Lines beside the output, all else unchanged. -/
def say (lines : List Text) (w : Machine) : Machine := { w with complaints := w.complaints ++ lines.map .said }

@[simp] theorem exec_result (w : Machine) (a : Attempt (StateM Machine) α) :
    w.exec (liftM (a.run : StateM Machine (Except Failure α))) = (.ok (w.exec a).1, (w.exec a).2) := rfl

@[simp] theorem exec_step (w : Machine) (a : Step (StateM Machine) α) (c : Context) :
    w.exec (liftM (a.run.run c : StateM Machine (Except Failure α × Context))) =
      (.ok ((Context.exec a c w).1, (Context.exec a c w).2.1), (Context.exec a c w).2.2) := rfl

theorem exec_writeText (w : Machine) (p : Path) (t : Text) (c : Context) :
    w.exec (Host.writeText p t) =
      ((Context.exec (Host.writeText p t) c w).1, (Context.exec (Host.writeText p t) c w).2.2) := by
  unfold Host.writeText Host.putText
  simp only [Context.exec_bind, exec_bind, Context.exec_makeDirectories, exec_makeDirectories]
  cases (w.makeDirectories p.parent).1 with
  | error e => rfl
  | ok _ =>
    simp only [mapError_ok]
    cases Utf8.encode t with
    | ok bytes =>
      simp only [Context.exec_write, exec_write]
      cases ((w.makeDirectories p.parent).2.write p bytes).1 <;> rfl
    | error g =>
      simp only [Context.exec_bind, exec_bind, Context.exec_write, exec_write]
      cases ((w.makeDirectories p.parent).2.write p []).1 <;> rfl

def openLogIn (p : Path) (w : Machine) : Except DiskError LogId × Machine :=
  match w.makeDirectories p.parent with
  | (.error e, w') => (.error e, w')
  | (.ok (), w') => w'.openLog (Path.absolute w'.workingDirectory p)

theorem exec_openJournal (a : CommandLine.Arguments) (w : Machine) :
    w.exec (Command.openJournal a) =
      match a.logFile.nonempty? with
      | none => (.ok (), { w with journal := { verbose := a.verbose } })
      | some name =>
        match openLogIn (.ofText name) { w with journal := {} } with
        | (.error e, w') => (.error (.disk e), w')
        | (.ok id, w') => (.ok (), { w' with journal := { file := some id, verbose := a.verbose } }) := by
  unfold Command.openJournal openLogIn
  cases a.logFile.nonempty? with
  | none => rfl
  | some name =>
    simp only [exec_bind, exec_setJournal, exec_makeDirectories, map_eq_pure_bind, exec_openLogAt]
    rcases makeDirectories (Path.ofText name).parent { w with journal := {} } with ⟨_ | _, w₁⟩
    · rfl
    · simp only [mapError_ok]
      rcases w₁.openLog (Path.absolute w₁.workingDirectory (.ofText name)) with ⟨_ | id, w₂⟩
      · rfl
      · rfl

end Machine

namespace TraceLog

def exec {α : Type} (a : Attempt (StateT TraceLog (StateT Context (StateM Machine))) α) (t : TraceLog) (c : Context)
    (w : Machine) : Except Failure α × TraceLog × Context × Machine :=
  let (((result, t), c), w) := ((a.run.run t).run c).run w
  (result, t, c, w)

variable {α β : Type}

theorem exec_bind (a : Attempt (StateT TraceLog (StateT Context (StateM Machine))) α)
    (f : α → Attempt (StateT TraceLog (StateT Context (StateM Machine))) β) (t : TraceLog) (c : Context) (w : Machine) :
    exec (a >>= f) t c w =
      match exec a t c w with
      | (.ok x, t', c', w') => exec (f x) t' c' w'
      | (.error e, t', c', w') => (.error e, t', c', w') := by
  unfold exec
  rw [ExceptT.run_bind, StateT.run_bind, StateT.run_bind, StateT.run_bind]
  generalize ((a.run.run t).run c).run w = out
  obtain ⟨⟨⟨_ | x, t'⟩, c'⟩, w'⟩ := out
  · rfl
  · rfl

theorem exec_makeDirectories (p : Path) (t : TraceLog) (c : Context) (w : Machine) :
    exec (Host.attempt (Host.makeDirectories p)) t c w =
      ((w.makeDirectories p).1.mapError .disk, t, c, (w.makeDirectories p).2) := rfl

theorem exec_openLogAt (p : Path) (t : TraceLog) (c : Context) (w : Machine) :
    exec (Host.openLogAt p) t c w =
      ((w.openLog (Path.absolute w.workingDirectory p)).1.mapError .disk, t, c,
        (w.openLog (Path.absolute w.workingDirectory p)).2) := rfl

theorem exec_current (t : TraceLog) (c : Context) (w : Machine) : exec current t c w = (.ok t, t, c, w) := rfl

theorem exec_change (f : TraceLog → TraceLog) (t : TraceLog) (c : Context) (w : Machine) :
    exec (change f) t c w = (.ok (), f t, c, w) := rfl

theorem exec_closeLog (id : LogId) (t : TraceLog) (c : Context) (w : Machine) :
    exec (Host.attempt (Host.closeLog id)) t c w =
      ((w.closeLog id).1.mapError .disk, t, c, (w.closeLog id).2) := rfl

theorem exec_close_of_nil {t : TraceLog} (h : t.receivers = []) (c : Context) (w : Machine) :
    exec close t c w = (.ok (), t, c, w) := by
  rw [close, exec_bind, exec_current]
  simp only [h]
  rfl

theorem exec_close_of_file {t : TraceLog} {id : LogId} (h : t.receivers = [⟨.file id, true⟩]) (c : Context)
    (w : Machine) : exec close t c w =
      ((w.closeLog id).1.mapError .disk, t.remove ⟨.file id, true⟩, c, (w.closeLog id).2) := by
  rw [close, exec_bind, exec_current]
  simp only [h, closeEach, if_true, closeTarget, exec_bind, exec_change, exec_closeLog]
  cases (w.closeLog id).1 <;> rfl

/-- What an action comes to behind which its trace log is closed. If that fails, the action fails with it. -/
def closing (id : LogId) (out : Except Failure α × Context × Machine) : Except Failure α × Context × Machine :=
  match out.2.2.closeLog id with
  | (.error e, w) => (.error (.disk e), out.2.1, w)
  | (.ok (), w) => (out.1, out.2.1, w)

section
variable {id : LogId} {out : Except Failure α × Context × Machine}

theorem closing_snd (id : LogId) (out : Except Failure α × Context × Machine) :
    (closing id out).2 = (out.2.1, (out.2.2.closeLog id).2) := by
  unfold closing
  rcases out.2.2.closeLog id with ⟨e | _, w⟩
  · rfl
  · rfl

theorem closing_eq_ok {x : α} (h : (closing id out).1 = .ok x) : out.1 = .ok x := by
  unfold closing at h
  split at h
  · contradiction
  · exact h

theorem closing_eq_error {f : Failure} (h : (closing id out).1 = .error f) :
    (∃ e, f = .disk e ∧ (out.2.2.closeLog id).1 = .error e) ∨ out.1 = .error f := by
  unfold closing at h
  split at h
  · next e w hclose => exact .inl ⟨e, (Except.error.inj h).symm, by rw [hclose]⟩
  · exact .inr h

end

def fresh (id : LogId) : TraceLog where
  receivers := [⟨.file id, true⟩]
  level := .debug
  propagates := false

variable {p : Path} {w w' : Machine}

theorem exec_open_error {e : DiskError} (h : w.openLogIn p = (.error e, w')) (c : Context) :
    ∃ t, exec (TraceLog.open p) {} c w = (.error (.disk e), t, c, w') := by
  unfold Machine.openLogIn at h
  simp only [TraceLog.open, exec_bind, exec_makeDirectories]
  rcases hmade : w.makeDirectories p.parent with ⟨_ | _, w₁⟩
  · simp only [hmade] at h
    obtain ⟨rfl, rfl⟩ : _ = e ∧ w₁ = w' := by simpa using h
    exact ⟨_, rfl⟩
  · simp only [hmade] at h
    simp only [mapError_ok, exec_close_of_nil, exec_change, exec_openLogAt, h, mapError_error]
    exact ⟨_, rfl⟩

theorem exec_open_ok {id : LogId} (h : w.openLogIn p = (.ok id, w')) (c : Context) :
    exec (TraceLog.open p) {} c w = (.ok id, fresh id, c, w') := by
  unfold Machine.openLogIn at h
  simp only [TraceLog.open, exec_bind, exec_makeDirectories]
  rcases hmade : w.makeDirectories p.parent with ⟨_ | _, w₁⟩
  · simp [hmade] at h
  · simp only [hmade] at h
    simp only [mapError_ok, exec_close_of_nil, exec_change, exec_openLogAt, h]
    rfl

theorem exec_leave_fresh (id : LogId) (out : Except Failure α × Context × Machine) :
    ∃ t, exec (leave (some p) out.1) (fresh id) out.2.1 out.2.2 = ((closing id out).1, t, (closing id out).2) := by
  have hclose := exec_close_of_file (t := fresh id) rfl out.2.1 out.2.2
  unfold leave closing
  simp only [Option.isSome_some, if_true]
  rw [exec_bind, hclose]
  rcases out.2.2.closeLog id with ⟨e | _, w₁⟩
  · exact ⟨_, rfl⟩
  · exact ⟨_, rfl⟩

/-- The trace log is opened by its path from the root, and the action is told which one it is; whatever the action comes
to, the log is closed behind it. -/
theorem exec_during (p : Path) (action : Option LogId → Step (StateM Machine) α) (c : Context) (w : Machine) : ∃ t,
    exec (during (some p) action) {} c w =
      match w.openLogIn p with
      | (.error e, w') => (.error (.disk e), t, c, w')
      | (.ok id, w') =>
        let out := closing id (Context.exec (action (some id)) c w')
        (out.1, t, out.2) := by
  unfold during around enter
  simp only [exec_bind, map_eq_pure_bind]
  rcases hopen : w.openLogIn p with ⟨e | id, w₁⟩
  · obtain ⟨t, h⟩ := exec_open_error hopen c
    exact ⟨t, by rw [h]⟩
  · rw [exec_open_ok hopen]
    exact exec_leave_fresh id (Context.exec (action (some id)) c w₁)

end TraceLog

open Context

theorem exec_convert (a : CommandLine.Arguments) (s : Settings) (c : Context) (w : Machine) :
    exec (Command.convert a s) c w =
      match a.debugLog.nonempty? with
      | none => exec (Conversion.run s a.dryRun none) c w
      | some name =>
        match w.openLogIn (.ofText name) with
        | (.error e, w') => (.error (.disk e), c, w')
        | (.ok id, w') => TraceLog.closing id (exec (Conversion.run s a.dryRun (some id)) c w') := by
  cases hpath : a.debugLog.nonempty? with
  | none =>
    simp only [Command.convert, hpath]
    rfl
  | some name =>
    obtain ⟨t, hduring⟩ := TraceLog.exec_during (.ofText name) (Conversion.run s a.dryRun) c w
    have hconvert : exec (Command.convert a s) c w =
        let out := TraceLog.exec (TraceLog.during (some (.ofText name)) (Conversion.run s a.dryRun)) {} c w
        (out.1, out.2.2) := by
      simp only [Command.convert, hpath]
      rfl
    rw [hconvert, hduring]
    simp only
    rcases w.openLogIn (.ofText name) with ⟨_ | id, w₁⟩
    · rfl
    · rfl

/-- A conversion has no trace log, or one that cannot be opened, or one that is closed behind it. -/
theorem of_convert {P : Except Failure (List (Text × Binary64)) × Context × Machine → Prop} (a : CommandLine.Arguments)
    (s : Settings) (c : Context) (w : Machine)
    (hplain : a.debugLog.nonempty? = none → P (exec (Conversion.run s a.dryRun none) c w))
    (hunopened : ∀ name e w', a.debugLog.nonempty? = some name → w.openLogIn (.ofText name) = (.error e, w') →
      P (.error (.disk e), c, w'))
    (hclosing : ∀ name id w', a.debugLog.nonempty? = some name → w.openLogIn (.ofText name) = (.ok id, w') →
      P (TraceLog.closing id (exec (Conversion.run s a.dryRun (some id)) c w'))) : P (exec (Command.convert a s) c w) := by
  rw [exec_convert]
  cases hname : a.debugLog.nonempty? with
  | none => exact hplain hname
  | some name =>
    simp only
    rcases hopen : w.openLogIn (.ofText name) with ⟨e | id, w₁⟩
    · exact hunopened name e w₁ hname hopen
    · exact hclosing name id w₁ hname hopen

namespace Machine

def logPlace (w : Machine) (p : Path) : Place := w.disk.placeOf (Path.absolute w.workingDirectory p)

/-- A log file by the path leaves the place alone: it lies elsewhere, and the place is not above it. -/
structure LogClear (w : Machine) (p : Path) (o : Place) : Prop where
  place : w.logPlace p ≠ o
  directory : ¬ w.disk.OnWay p.parent o

theorem logPlace_congr {w w' : Machine} (h : w'.disk.home = w.disk.home) (p : Path) : w'.logPlace p = w.logPlace p := by
  rw [logPlace, logPlace, workingDirectory, workingDirectory, h, Disk.placeOf_congr h]

theorem LogClear.of_home {w w' : Machine} {p : Path} {o : Place} (h : w.LogClear p o)
    (hhome : w'.disk.home = w.disk.home) : w'.LogClear p o where
  place := by
    rw [logPlace_congr hhome]
    exact h.place
  directory := by
    rw [Disk.onWay_congr hhome]
    exact h.directory

structure ShowsNothing (w w' : Machine) : Prop where
  home : w'.disk.home = w.disk.home
  refuses : w'.refuses = w.refuses
  records : w'.records = w.records
  output : w'.output = w.output
  complaints : w'.complaints = w.complaints

structure Opens (w : Machine) (p : Path) (out : Except DiskError LogId × Machine) : Prop where
  silent : w.ShowsNothing out.2
  journal : out.2.journal = w.journal
  places : w.logs.map LogFile.place <+: out.2.logs.map LogFile.place
  keeps : ∀ o, w.LogClear p o → out.2.disk.entryAt o = w.disk.entryAt o
  place : ∀ id, out.1 = .ok id → (out.2.logs.map LogFile.place)[id]? = some (w.logPlace p)

theorem opens_openLogIn (w : Machine) (p : Path) : Opens w p (w.openLogIn p) := by
  obtain ⟨d, hmade, hhome⟩ := w.makeDirectories_eq p.parent
  have hkeeps : ∀ o, w.LogClear p o → d.entryAt o = w.disk.entryAt o := fun o ho => by
    have hdisk := (keeps_makeDirectories ho.directory).disk.entry
    rwa [hmade] at hdisk
  unfold openLogIn
  rcases hdirectory : w.makeDirectories p.parent with ⟨_ | _, w₁⟩
  · obtain rfl : w₁ = { w.tick with disk := d } := by rw [← hmade, hdirectory]
    exact ⟨⟨hhome, rfl, rfl, rfl, rfl⟩, rfl, List.prefix_refl _, hkeeps, by simp⟩
  obtain rfl : w₁ = { w.tick with disk := d } := by rw [← hmade, hdirectory]
  simp only [openLog]
  split
  · exact ⟨⟨hhome, rfl, rfl, rfl, rfl⟩, rfl, List.prefix_refl _, hkeeps, by simp⟩
  split
  · exact ⟨⟨hhome, rfl, rfl, rfl, rfl⟩, rfl, List.prefix_refl _, hkeeps, by simp⟩
  next place hplace =>
  obtain ⟨rfl, -⟩ := Disk.writable_eq_ok hplace
  have hlog : logPlace { w.tick with disk := d } p = w.logPlace p := logPlace_congr hhome p
  refine ⟨⟨hhome, rfl, rfl, rfl, rfl⟩, rfl, by simp [tick], fun o ho => ?_, fun id hid => ?_⟩
  · have hne : o ≠ logPlace { w.tick with disk := d } p := by
      rw [hlog]
      exact ho.place.symm
    exact (Disk.entryAt_set_of_ne d _ hne).trans (hkeeps o ho)
  · obtain rfl : w.logs.length = id := Except.ok.inj hid
    rw [← hlog]
    simp [logPlace, tick]

theorem Opens.logged {w : Machine} {p : Path} {out : Except DiskError LogId × Machine} (h : Opens w p out) :
    w.Logged out.2 where
  home := h.silent.home
  journal := h.journal
  refuses := h.silent.refuses
  places := h.places
  output := h.silent.output
  records := ⟨[], [], by simp [h.silent.records], by simp [h.silent.complaints], .nil _⟩

end Machine

namespace Command
open CommandLine

variable {a : Arguments} {s : Settings} {o : Place} {w w' : Machine}

structure Opened (a : Arguments) (w w' : Machine) : Prop where
  silent : w.ShowsNothing w'
  verbose : w'.journal.verbose = a.verbose
  keeps : ∀ o, (∀ name, a.logFile.nonempty? = some name → w.LogClear (.ofText name) o) →
    w'.disk.entryAt o = w.disk.entryAt o
  elsewhere : ∀ o, (∀ name, a.logFile.nonempty? = some name → w.logPlace (.ofText name) ≠ o) → w'.JournalElsewhere o

theorem opened_openJournal (h : w.exec (openJournal a) = (.ok (), w')) : Opened a w w' := by
  rw [Machine.exec_openJournal] at h
  cases hname : a.logFile.nonempty? with
  | none =>
    simp only [hname, Prod.mk.injEq, true_and] at h
    subst h
    exact ⟨⟨rfl, rfl, rfl, rfl, rfl⟩, rfl, fun _ _ => rfl, fun _ _ id hid => by simp at hid⟩
  | some name =>
    simp only [hname] at h
    have hopens := Machine.opens_openLogIn { w with journal := {} } (.ofText name)
    rcases hlog : Machine.openLogIn (.ofText name) { w with journal := {} } with ⟨_ | id, w₁⟩
    · simp [hlog] at h
    rw [hlog] at h hopens
    simp only [Prod.mk.injEq, true_and] at h
    subst h
    obtain ⟨hhome, hrefuses, hrecords, houtput, hcomplaints⟩ := hopens.silent
    refine ⟨⟨hhome, hrefuses, hrecords, houtput, hcomplaints⟩, rfl, fun o ho => ?_, fun o ho id' hid => ?_⟩
    · obtain ⟨hplace, hdirectory⟩ := ho name hname
      exact hopens.keeps o ⟨hplace, hdirectory⟩
    · obtain rfl : id = id' := Option.some.inj hid
      exact ⟨_, hopens.place id rfl, ho name hname⟩

theorem exec_readText (p : Path) (w : Machine) : ∃ result, w.exec (Host.readText p) = (result, w.tick) := by
  have hread : w.exec (Host.attempt (Host.read p)) = ((w.read p).1.mapError .disk, w.tick) := by
    rw [← Machine.read_snd w p]
    rfl
  unfold Host.readText
  rw [Machine.exec_bind, hread]
  cases (w.read p).1.mapError Failure.disk with
  | error f => exact ⟨_, rfl⟩
  | ok bytes =>
    simp only
    cases Utf8.decode bytes with
    | error f => exact ⟨_, rfl⟩
    | ok t => exact ⟨_, rfl⟩

theorem exec_liftExcept {α : Type} (w : Machine) (x : Except Failure α) :
    w.exec (Settings.load.liftExcept x : Attempt (StateM Machine) α) = (x, w) := rfl

def documentOf (w : Machine) (p : Path) : Except Failure Settings.Document := do
  let t ← (w.exec (Host.readText p)).1
  (w.documents t).mapError (Settings.faultOf p.toText)

/-- Loading reads the file once; that an empty one leaves the defaults is recorded. -/
theorem exec_load (p : Path) (w : Machine) : w.exec (Settings.load p) =
    match documentOf w p with
    | .error f => (.error f, w.tick)
    | .ok d =>
      (Settings.ofDocument p.toText d, if d = .nothing then
        w.tick.record ⟨Settings.speaker, .debug, "config " ++ p.toText ++ " is empty; using defaults"⟩ else w.tick) := by
  obtain ⟨result, hread⟩ := exec_readText p w
  have hdocument : ∀ t, w.tick.exec (liftM (Host.readDocument t : StateM Machine _)) = (.ok (w.documents t), w.tick) :=
    fun _ => rfl
  unfold Settings.load documentOf
  rw [Machine.exec_bind, hread]
  cases result with
  | error f => rfl
  | ok t =>
    simp only
    rw [Machine.exec_bind_ok (hdocument t), Machine.exec_bind, exec_liftExcept]
    change _ = match (w.documents t).mapError (Settings.faultOf p.toText) with
      | .error f => _
      | .ok d => _
    cases (w.documents t).mapError (Settings.faultOf p.toText) with
    | error f => rfl
    | ok d => by_cases hd : d = .nothing <;> simp [hd, Machine.exec_bind, exec_liftExcept]

theorem exec_settingsOf_file {name : Text} (hname : a.config.nonempty? = some name)
    {loaded : Except Failure Settings} (hload : w.exec (Settings.load (.ofText name)) = (loaded, w')) :
    w.exec (settingsOf a) = (loaded >>= fun base => base.merged a.overrides, w') := by
  unfold settingsOf
  simp only [hname]
  rw [Machine.exec_bind, hload]
  cases loaded <;> rfl

theorem exec_settingsOf {result : Except Failure Settings} (h : w.exec (settingsOf a) = (result, w')) :
    w' = w ∨ w' = w.tick ∨ ∃ r, w' = w.tick.record r := by
  cases hname : a.config.nonempty? with
  | none =>
    unfold settingsOf at h
    simp only [hname] at h
    exact .inl (Prod.mk.inj h).2.symm
  | some name =>
    rcases hload : w.exec (Settings.load (.ofText name)) with ⟨loaded, w₁⟩
    rw [exec_settingsOf_file hname hload] at h
    obtain rfl : w₁ = w' := (Prod.mk.inj h).2
    rw [exec_load] at hload
    split at hload
    · exact .inr (.inl (Prod.mk.inj hload).2.symm)
    · obtain ⟨-, rfl⟩ := Prod.mk.inj hload
      split
      · exact .inr (.inr ⟨_, rfl⟩)
      · exact .inr (.inl rfl)

theorem logged_settingsOf {result : Except Failure Settings} (h : w.exec (settingsOf a) = (result, w')) :
    w.Logged w' := by
  rcases exec_settingsOf h with rfl | rfl | ⟨r, rfl⟩
  · exact .refl w'
  · exact w.logged_tick
  · exact w.logged_tick.trans (w.tick.logged_record r)

theorem keeps_settingsOf {result : Except Failure Settings} (h : w.exec (settingsOf a) = (result, w'))
    (hjournal : w.JournalApart o) : w.Keeps o w' := by
  rcases exec_settingsOf h with rfl | rfl | ⟨r, rfl⟩
  · exact .refl w'
  · exact w.keeps_tick
  · exact w.keeps_tick.trans (Machine.keeps_record (hjournal.of_keeps w.keeps_tick) r)

/-! The report. -/

def unwritten (p : Path) (e : DiskError) : Record :=
  ⟨speaker, .error, "failed writing report to " ++ p.toText ++ ": " ++ e.message⟩

/-- The disk refused a report, which is the last thing that was recorded, and nothing was written behind that. -/
def Untaken (p : Path) (w w' : Machine) : Prop :=
  ∃ (r : Report) (w₁ w₂ : Machine) (e : DiskError),
    w₁.exec (Host.writeText p r.toJson.document) = (.error (.disk e), w₂) ∧ e.fault.isOfSystem = true ∧
      w'.disk = (w₂.record (unwritten p e)).disk ∧ ∃ rs, w'.records = w.records ++ rs ++ [unwritten p e]

theorem Untaken.of_records {p : Path} {w₀ : Machine} (h : Untaken p w w') (rs : List Record)
    (hrecords : w.records = w₀.records ++ rs) : Untaken p w₀ w' := by
  obtain ⟨r, w₁, w₂, e, hwrite, hsystem, hdisk, rs', hlast⟩ := h
  refine ⟨r, w₁, w₂, e, hwrite, hsystem, hdisk, rs ++ rs', ?_⟩
  rw [hlast, hrecords, List.append_assoc w₀.records]

structure Summarised (s : Settings) (r : Report) (w w' : Machine) : Prop where
  logged : w.Logged w'
  keeps : ∀ o, w.JournalElsewhere o →
    (∀ p, s.reportPath = some p → w.disk.placeOf p ≠ o ∧ ¬ w.disk.OnWay p.parent o) →
    w'.disk.entryAt o = w.disk.entryAt o
  report : ∀ p, s.reportPath = some p → w.JournalElsewhere (w.disk.placeOf p) →
    Conversion.Holds w'.disk (w.disk.placeOf p) r.toJson.document ∨ Untaken p w w'

theorem exec_writeReport (p : Path) (r : Report) (w : Machine) :
    let out := exec (Host.writeText p r.toJson.document) {} w
    (out.1 = .ok () ∧ w.exec (writeReport (some p) r) = (.ok (), out.2.2)) ∨
      (∃ e : DiskError, out.1 = .error (.disk e) ∧ e.fault.isOfSystem = true ∧
        w.exec (writeReport (some p) r) = (.ok (), out.2.2.record (unwritten p e))) ∨
      ∃ f, f.isReported = false ∧ w.exec (writeReport (some p) r) = (.error f, out.2.2) := by
  intro out
  have hrun : w.exec (liftM ((Host.writeText p r.toJson.document : Attempt (StateM Machine) Unit).run)) =
      (.ok out.1, out.2.2) := by
    rw [Machine.exec_result, Machine.exec_writeText w p _ {}]
  unfold writeReport
  simp only [Machine.exec_bind_ok hrun]
  rcases hout : out with ⟨_ | _, c₁, w₁⟩
  · next f =>
    rcases Conversion.exec_writeText_error hout with ⟨e, rfl, -⟩ | ⟨g, rfl, -⟩
    · cases hfault : e.fault.isOfSystem with
      | false =>
        refine .inr (.inr ⟨.disk e, hfault, ?_⟩)
        simp [Failure.isReported, hfault]
      | true =>
        refine .inr (.inl ⟨e, rfl, hfault, ?_⟩)
        simp only [Failure.isReported, hfault, if_true, Machine.exec_note]
        rfl
    · exact .inr (.inr ⟨_, rfl, rfl⟩)
  · exact .inl ⟨rfl, rfl⟩

theorem keeps_summed {p : Path} {summary : Record} (helsewhere : w.JournalElsewhere o)
    (hplace : w.disk.placeOf p ≠ o) (hway : ¬ w.disk.OnWay p.parent o) (t : Text) (c : Context) :
    w.Keeps o (exec (Host.writeText p t) c (w.record summary)).2.2 := by
  have hsummed : w.Keeps o (w.record summary) := Machine.keeps_record helsewhere.apart summary
  refine hsummed.trans (onlyRecords_writeText ?_ ?_ (helsewhere.of_logged (w.logged_record summary)).apart t).keeps
  · rwa [Disk.onWay_congr hsummed.disk.home]
  · rw [Disk.placeOf_congr hsummed.disk.home]
    exact hplace.symm

theorem exec_summarise (s : Settings) (r : Report) (w : Machine) :
    (∃ w', w.exec (summarise s r) = (.ok (), w') ∧ Summarised s r w w') ∨
      ∃ f w', w.exec (summarise s r) = (.error f, w') ∧ f.isReported = false ∧ s.reportPath ≠ none := by
  let summed := w.record ⟨speaker, .info, "run summary:\n" ++ r.text⟩
  have hsummed : w.Logged summed := w.logged_record _
  have hrun : w.exec (summarise s r) = summed.exec (writeReport s.reportPath r) := rfl
  rw [hrun]
  cases hpath : s.reportPath with
  | none =>
    refine .inl ⟨summed, rfl, hsummed, fun o ho _ => (Machine.keeps_record ho.apart _).disk.entry, ?_⟩
    simp [hpath]
  | some p =>
    let out := exec (Host.writeText p r.toJson.document) {} summed
    have hlogged : w.Logged out.2.2 := hsummed.trans ((Step.onlyLogs_writeText p _).logged {} summed)
    have hkeeps : ∀ o, w.JournalElsewhere o →
        (∀ p, s.reportPath = some p → w.disk.placeOf p ≠ o ∧ ¬ w.disk.OnWay p.parent o) → w.Keeps o out.2.2 :=
      fun o ho hreport => keeps_summed ho (hreport p hpath).1 (hreport p hpath).2 _ _
    rcases exec_writeReport p r summed with ⟨hok, hwrite⟩ | ⟨e, hrefused, hsystem, hwrite⟩ | ⟨f, hf, hwrite⟩
    · refine .inl ⟨out.2.2, hwrite, hlogged, fun o ho hreport => (hkeeps o ho hreport).disk.entry,
        fun p' hp' helsewhere => .inl ?_⟩
      obtain rfl : p = p' := Option.some.inj (hpath.symm.trans hp')
      have hplace : summed.disk.placeOf p = w.disk.placeOf p := Disk.placeOf_congr hsummed.home p
      rw [← hplace] at helsewhere ⊢
      exact Conversion.holds_writeText hok (helsewhere.of_logged hsummed).apart
    · refine .inl ⟨_, hwrite, hlogged.trans (Machine.logged_record ..), fun o ho hreport => ?_,
        fun p' hp' _ => .inr ?_⟩
      · have hrecorded := Machine.keeps_record (ho.of_logged hlogged).apart (unwritten p e)
        exact ((hkeeps o ho hreport).trans hrecorded).disk.entry
      · obtain rfl : p = p' := Option.some.inj (hpath.symm.trans hp')
        have hwritten : summed.exec (Host.writeText p r.toJson.document) = (.error (.disk e), out.2.2) := by
          rw [Machine.exec_writeText summed p _ {}, hrefused]
        obtain ⟨rs, -, hrecords, -⟩ := hlogged.records
        exact ⟨r, summed, out.2.2, e, hwritten, hsystem, rfl, rs, by rw [Machine.records_record, hrecords]⟩
    · exact .inr ⟨f, _, hwrite, hf, by simp⟩

/-! The end of a run. -/

def failure (f : Failure) : Record := ⟨speaker, .error, "nodeify failed: " ++ f.message⟩

def errorLine (f : Failure) : Text := "ERROR:" ++ f.message ++ "\n"

def successLine (hash : Text) : Text := "SUCCESS:" ++ hash ++ "\n"

def profileLines (a : Arguments) (times : List (Text × Binary64)) : List Text :=
  if a.profile then [Registry.timeTable times ++ "\n"] else []

def reportOf (f : Failure) (r : Report) : Report := { r with errors := r.errors ++ [f.message] }

theorem exec_fail_unreported {f : Failure} (h : f.isReported = false) (known : Option (Settings × Report))
    (w : Machine) : w.exec (fail f known) = (.error f, w) := by
  simp [fail, h]

theorem exec_fail_unsettled {f : Failure} (h : f.isReported = true) (w : Machine) :
    w.exec (fail f none) = (.ok 1, (w.record (failure f)).say [errorLine f]) := by
  simp only [fail, h]
  rfl

theorem exec_fail {f : Failure} (h : f.isReported = true) (s : Settings) (r : Report) (w : Machine) :
    (∃ w', w.exec (fail f (some (s, r))) = (.ok 1, w'.say [errorLine f]) ∧
        Summarised s (reportOf f r) (w.record (failure f)) w') ∨
      ∃ g w', w.exec (fail f (some (s, r))) = (.error g, w') ∧ g.isReported = false ∧ s.reportPath ≠ none := by
  have hrun : w.exec (fail f (some (s, r))) =
      (w.record (failure f)).exec (summarise s (reportOf f r) >>= fun _ => do
        liftM (Host.complain (errorLine f) : StateM Machine Unit)
        return 1) := by
    simp only [fail, h]
    rfl
  rw [hrun]
  rcases exec_summarise s (reportOf f r) (w.record (failure f)) with ⟨w', hsum, hsummarised⟩ | ⟨g, w', hsum, hg⟩
  · rw [Machine.exec_bind_ok hsum]
    exact .inl ⟨w', rfl, hsummarised⟩
  · rw [Machine.exec_bind_error hsum]
    exact .inr ⟨g, w', rfl, hg⟩

theorem exec_noteWarnings (ws : List Text) (w : Machine) :
    ∃ w', w.exec (noteWarnings ws) = (.ok (), w') ∧ w.Logged w' := by
  induction ws generalizing w with
  | nil => exact ⟨w, rfl, .refl w⟩
  | cons t ws ih =>
    obtain ⟨w', hrest, hlogged⟩ := ih (w.record ⟨speaker, .warning, t⟩)
    exact ⟨w', hrest, (w.logged_record _).trans hlogged⟩

theorem exec_succeed (a : Arguments) (s : Settings) (c : Context) (times : List (Text × Binary64)) (w : Machine) :
    (∃ w₁ w', w.exec (succeed a s c times) =
          (.ok 0, (w'.say (profileLines a times)).print (successLine c.hash)) ∧
        w.Logged w₁ ∧ Summarised s c.report w₁ w') ∨
      ∃ f w', w.exec (succeed a s c times) = (.error f, w') ∧ f.isReported = false ∧ s.reportPath ≠ none := by
  obtain ⟨w₁, hwarned, hlogged⟩ := exec_noteWarnings c.report.warnings w
  unfold succeed
  rw [Machine.exec_bind_ok hwarned]
  rcases exec_summarise s c.report w₁ with ⟨w', hsum, hsummarised⟩ | ⟨f, w', hsum, hf⟩
  · refine .inl ⟨w₁, w', ?_, hlogged, hsummarised⟩
    rw [Machine.exec_bind_ok hsum]
    cases hprofile : a.profile with
    | false =>
      have hnone : w'.say (profileLines a times) = w' := by simp [Machine.say, profileLines, hprofile]
      rw [hnone]
      simp only [Bool.false_eq_true, if_false]
      rfl
    | true =>
      simp only [profileLines, hprofile, if_true]
      rfl
  · rw [Machine.exec_bind_error hsum]
    exact .inr ⟨f, w', rfl, hf⟩

inductive Course (a : Arguments) (w : Machine) : Except Failure Nat × Machine → Prop where
  /-- The run log cannot be opened. -/
  | unopened {f : Failure} {w' : Machine} : w.exec (openJournal a) = (.error f, w') → Course a w (.error f, w')
  /-- There are no settings. -/
  | unsettled {f : Failure} {w₁ w₂ : Machine} :
      w.exec (openJournal a) = (.ok (), w₁) → w₁.exec (settingsOf a) = (.error f, w₂) → f.isReported = true →
      Course a w (.ok 1, (w₂.record (failure f)).say [errorLine f])
  | failed {f : Failure} {s : Settings} {c : Context} {w₁ w₂ w₃ w₄ : Machine} :
      w.exec (openJournal a) = (.ok (), w₁) → w₁.exec (settingsOf a) = (.ok s, w₂) →
      exec (convert a s) { report := initialReport s } w₂ = (.error f, c, w₃) → f.isReported = true →
      Summarised s (reportOf f c.report) (w₃.record (failure f)) w₄ → Course a w (.ok 1, w₄.say [errorLine f])
  | succeeded {s : Settings} {times : List (Text × Binary64)} {c : Context} {w₁ w₂ w₃ w₄ w₅ : Machine} :
      w.exec (openJournal a) = (.ok (), w₁) → w₁.exec (settingsOf a) = (.ok s, w₂) →
      exec (convert a s) { report := initialReport s } w₂ = (.ok times, c, w₃) → w₃.Logged w₄ →
      Summarised s c.report w₄ w₅ →
      Course a w (.ok 0, (w₅.say (profileLines a times)).print (successLine c.hash))
  /-- A failure that is not reported ends the run where it is met. -/
  | escapedSettings {f : Failure} {w₁ w₂ : Machine} :
      w.exec (openJournal a) = (.ok (), w₁) → w₁.exec (settingsOf a) = (.error f, w₂) → f.isReported = false →
      Course a w (.error f, w₂)
  | escaped {f : Failure} {s : Settings} {c : Context} {w₁ w₂ w₃ : Machine} :
      w.exec (openJournal a) = (.ok (), w₁) → w₁.exec (settingsOf a) = (.ok s, w₂) →
      exec (convert a s) { report := initialReport s } w₂ = (.error f, c, w₃) → f.isReported = false →
      Course a w (.error f, w₃)
  /-- The report cannot be written, and that is not reported. -/
  | escapedReport {f : Failure} {s : Settings} {w₁ w₂ w₃ : Machine} :
      w.exec (openJournal a) = (.ok (), w₁) → w₁.exec (settingsOf a) = (.ok s, w₂) → s.reportPath ≠ none →
      f.isReported = false → Course a w (.error f, w₃)

theorem course_runArguments (a : Arguments) (w : Machine) : Course a w (w.exec (runArguments a)) := by
  unfold runArguments
  rcases hopen : w.exec (openJournal a) with ⟨_ | _, w₁⟩
  · next f =>
    rw [Machine.exec_bind_error hopen]
    exact .unopened hopen
  rw [Machine.exec_bind_ok hopen, Machine.exec_bind, Machine.exec_result]
  rcases hsettings : w₁.exec (settingsOf a) with ⟨_ | s, w₂⟩
  · next f =>
    simp only
    cases hf : f.isReported with
    | false =>
      rw [exec_fail_unreported hf]
      exact .escapedSettings hopen hsettings hf
    | true =>
      rw [exec_fail_unsettled hf]
      exact .unsettled hopen hsettings hf
  simp only [Machine.exec_bind, Machine.exec_step]
  rcases hconvert : exec (convert a s) { report := initialReport s } w₂ with ⟨_ | times, c, w₃⟩
  · next f =>
    simp only
    cases hf : f.isReported with
    | false =>
      rw [exec_fail_unreported hf]
      exact .escaped hopen hsettings hconvert hf
    | true =>
      rcases exec_fail hf s c.report w₃ with ⟨w₄, hrun, hsummarised⟩ | ⟨g, w₄, hrun, hg, hpath⟩
      · rw [hrun]
        exact .failed hopen hsettings hconvert hf hsummarised
      · rw [hrun]
        exact .escapedReport hopen hsettings hpath hg
  · simp only
    rcases exec_succeed a s c times w₃ with ⟨w₄, w₅, hrun, hlogged, hsummarised⟩ | ⟨g, w₄, hrun, hg, hpath⟩
    · rw [hrun]
      exact .succeeded hopen hsettings hconvert hlogged hsummarised
    · rw [hrun]
      exact .escapedReport hopen hsettings hpath hg

end Command
end Rehost
