import Rehost.Context
import Rehost.Proofs.Disk
import Rehost.Proofs.Except
import Rehost.Run.Machine

/-! Steps on a machine in memory. A step that only keeps records changes neither the text in hand nor a place that lies
apart from the artifacts and the log files, and it can fail only where something cannot be written. -/
namespace Rehost

/-- The failures of writing, also as a pass has met them. -/
def Failure.ofWriting : Failure → Bool
  | disk _ | unencodable _ => true
  | passFailed _ cause _ => cause.ofWriting
  | _ => false

namespace Context

def core (c : Context) : Context :=
  { c with inputPath := none, notes := [], artifacts := none, trace := none, report := {} }

/-- A change of a context that leaves what the passes work on, and where records go. -/
structure Same (c c' : Context) : Prop where
  core : c'.core = c.core
  artifacts : c'.artifacts = c.artifacts
  trace : c'.trace = c.trace

theorem Same.refl (c : Context) : Same c c := ⟨rfl, rfl, rfl⟩

theorem Same.trans {c c' c'' : Context} (h : Same c c') (h' : Same c' c'') : Same c c'' :=
  ⟨h'.core.trans h.core, h'.artifacts.trans h.artifacts, h'.trace.trans h.trace⟩

end Context

namespace Machine

/-- A change of a machine that leaves its logs where they are, and what decides on records and faults. -/
structure Steady (w w' : Machine) : Prop where
  journal : w'.journal = w.journal
  logs : w'.logs.map LogFile.place = w.logs.map LogFile.place
  refuses : w'.refuses = w.refuses

structure Keeps (o : Place) (w w' : Machine) : Prop extends Steady w w' where
  disk : Disk.Keeps o w.disk w'.disk

def LogApart (o : Place) (w : Machine) (id : LogId) : Prop := (w.logs.map LogFile.place)[id]? ≠ some o

def JournalApart (o : Place) (w : Machine) : Prop := ∀ id, w.journal.file = some id → w.LogApart o id

variable {o : Place} {w w' w'' : Machine}

theorem Steady.refl (w : Machine) : Steady w w := ⟨rfl, rfl, rfl⟩

theorem Steady.trans (h : Steady w w') (h' : Steady w' w'') : Steady w w'' :=
  ⟨h'.journal.trans h.journal, h'.logs.trans h.logs, h'.refuses.trans h.refuses⟩

theorem Steady.keeps (h : Steady w w') (hdisk : w'.disk = w.disk) : Keeps o w w' :=
  ⟨h, by rw [hdisk]; exact Disk.Keeps.refl _⟩

theorem Keeps.refl (w : Machine) : Keeps o w w := (Steady.refl w).keeps rfl

theorem Keeps.trans (h : Keeps o w w') (h' : Keeps o w' w'') : Keeps o w w'' :=
  ⟨h.toSteady.trans h'.toSteady, h.disk.trans h'.disk⟩

theorem LogApart.of_keeps {id : LogId} (h : LogApart o w id) (hw : Keeps o w w') : LogApart o w' id := by
  rw [LogApart, hw.logs]
  exact h

theorem JournalApart.of_keeps (h : JournalApart o w) (hw : Keeps o w w') : JournalApart o w' :=
  fun id hid => (h id (hw.journal ▸ hid)).of_keeps hw

/-! Writing to a log. -/

theorem places_set {logs : List LogFile} {id : LogId} {log log' : LogFile} (h : logs[id]? = some log)
    (hplace : log'.place = log.place) : (logs.set id log').map LogFile.place = logs.map LogFile.place := by
  refine List.ext_getElem? fun i => ?_
  simp only [List.getElem?_map, List.getElem?_set]
  split
  · next hi =>
    subst hi
    obtain ⟨hlt, rfl⟩ := List.getElem?_eq_some_iff.1 h
    simp [hlt, hplace]
  · rfl

/-- What writing to a log does: nothing without that log; else it is refused and waits, or it is written. -/
theorem append_cases (w : Machine) (id : LogId) (bytes : Bytes) :
    (w.logs[id]? = none ∧ w.append id bytes = (.ok (), w)) ∨
      ∃ log, w.logs[id]? = some log ∧
        ((∃ f, w.refuses w.accesses (.append log.place) = some f ∧
          w.append id bytes = (.error ⟨f, pathTo log.place⟩,
            { w.tick with logs := w.logs.set id { log with waiting := log.waiting ++ bytes } })) ∨
          (w.refuses w.accesses (.append log.place) = none ∧
            w.append id bytes = (.ok (), { w.tick with
              disk := w.disk.set log.place
                (.file (Disk.writeAt log.offset (log.waiting ++ bytes) (bytesAt w.disk log.place)))
              logs := w.logs.set id ⟨log.place, log.offset + (log.waiting ++ bytes).length, []⟩ }))) := by
  cases hlog : w.logs[id]? with
  | none => exact .inl ⟨rfl, by simp only [append, hlog]⟩
  | some log =>
    refine .inr ⟨log, rfl, ?_⟩
    cases hfault : w.fault? (.append log.place) with
    | some f => exact .inl ⟨f, hfault, by simp only [append, hlog, hfault]⟩
    | none => exact .inr ⟨hfault, by simp only [append, hlog, hfault]⟩

theorem steady_append (w : Machine) (id : LogId) (bytes : Bytes) : Steady w (w.append id bytes).2 := by
  rcases w.append_cases id bytes with ⟨-, h⟩ | ⟨log, hlog, ⟨f, -, h⟩ | ⟨-, h⟩⟩
  · rw [h]
    exact .refl w
  · rw [h]
    exact ⟨rfl, places_set hlog rfl, rfl⟩
  · rw [h]
    exact ⟨rfl, places_set hlog rfl, rfl⟩

theorem keeps_append {id : LogId} (h : LogApart o w id) (bytes : Bytes) : Keeps o w (w.append id bytes).2 := by
  refine ⟨w.steady_append id bytes, ?_⟩
  rcases w.append_cases id bytes with ⟨-, h'⟩ | ⟨log, hlog, ⟨f, -, h'⟩ | ⟨-, h'⟩⟩
  · rw [h']
    exact Disk.Keeps.refl _
  · rw [h']
    exact Disk.Keeps.refl _
  · have hne : o ≠ log.place := by
      rintro rfl
      exact h (by simp [hlog])
    rw [h']
    exact Disk.keeps_set hne _

theorem append_at_end {id : LogId} {held : Bytes} (hlog : w.logs[id]? = some ⟨o, held.length, []⟩)
    (htaken : w.refuses w.accesses (.append o) = none) (hentry : w.disk.entryAt o = some (.file held)) (bytes : Bytes) :
    w.append id bytes = (.ok (), { w.tick with
      disk := w.disk.set o (.file (held ++ bytes))
      logs := w.logs.set id ⟨o, (held ++ bytes).length, []⟩ }) := by
  rcases w.append_cases id bytes with ⟨hnone, -⟩ | ⟨log, hsome, hcases⟩
  · simp [hlog] at hnone
  obtain rfl : ⟨o, held.length, []⟩ = log := by simpa [hlog] using hsome
  rcases hcases with ⟨f, hfault, -⟩ | ⟨-, h⟩
  · simp [htaken] at hfault
  · simp only [h, bytesAt, hentry, List.nil_append, Disk.writeAt_length, List.length_append]

theorem logLine_cases (w : Machine) (id : LogId) (line : Text) :
    (∃ f, w.logLine id line = w.complain (.unlogged f)) ∨
      ∃ bytes, Utf8.encode line = .ok bytes ∧
        ((w.append id bytes).1 = .ok () ∧ w.logLine id line = (w.append id bytes).2 ∨
          ∃ e, (w.append id bytes).1 = .error e ∧
            w.logLine id line = (w.append id bytes).2.complain (.unlogged (.disk e))) := by
  unfold logLine
  cases Utf8.encode line with
  | error g => exact .inl ⟨_, rfl⟩
  | ok bytes =>
    refine .inr ⟨bytes, rfl, ?_⟩
    simp only
    rcases w.append id bytes with ⟨e | _, w'⟩
    · exact .inr ⟨e, rfl, rfl⟩
    · exact .inl ⟨rfl, rfl⟩

theorem steady_complain (w : Machine) (x : Complaint) : Steady w (w.complain x) := ⟨rfl, rfl, rfl⟩

theorem keeps_complain (w : Machine) (x : Complaint) : Keeps o w (w.complain x) := (w.steady_complain x).keeps rfl

theorem of_logLine {P : Machine → Prop} (w : Machine) (id : LogId) (line : Text) (hsame : P w)
    (happend : ∀ bytes, P (w.append id bytes).2) (hlost : ∀ w' f, P w' → P (w'.complain (.unlogged f))) :
    P (w.logLine id line) := by
  rcases w.logLine_cases id line with ⟨f, h⟩ | ⟨bytes, -, ⟨-, h⟩ | ⟨e, -, h⟩⟩
  · rw [h]
    exact hlost w f hsame
  · rw [h]
    exact happend bytes
  · rw [h]
    exact hlost _ _ (happend bytes)

theorem steady_logLine (w : Machine) (id : LogId) (line : Text) : Steady w (w.logLine id line) :=
  of_logLine w id line (.refl w) (w.steady_append id) fun w' _ h => h.trans (w'.steady_complain _)

theorem bytesAt_logLine_ne_nil {id : LogId} {line : Text} {bytes : Bytes}
    (hid : (w.logs.map LogFile.place)[id]? = some o) (ho : o ≠ []) (htaken : w.refuses w.accesses (.append o) = none)
    (hencode : Utf8.encode line = .ok bytes) (hbytes : bytes ≠ []) : bytesAt (w.logLine id line).disk o ≠ [] := by
  obtain ⟨log, hlog, rfl⟩ : ∃ log, w.logs[id]? = some log ∧ log.place = o := by simpa using hid
  rcases w.append_cases id bytes with ⟨hnone, -⟩ | ⟨log', hsome, ⟨f, hfault, -⟩ | ⟨-, h⟩⟩
  · simp [hlog] at hnone
  · obtain rfl : log = log' := by simpa [hlog] using hsome
    simp [htaken] at hfault
  · obtain rfl : log = log' := by simpa [hlog] using hsome
    have hne : log.waiting ++ bytes ≠ [] := by simp [hbytes]
    simp only [logLine, hencode, h, bytesAt, Disk.entryAt_set_self _ _ _ ho]
    exact Disk.writeAt_ne_nil (.inl hne) _

theorem keeps_logLine {id : LogId} (h : LogApart o w id) (line : Text) : Keeps o w (w.logLine id line) :=
  of_logLine w id line (.refl w) (keeps_append h) fun w' _ h' => h'.trans (keeps_complain w' _)

/-- Closing a log does no more than to write what waits, and to drop it. -/
theorem of_closeLog {P : Machine → Prop} (w : Machine) (id : LogId) (hsame : P w)
    (happend : ∀ w', P w' → P (w'.append id []).2)
    (hdrop : ∀ w', P w' → P { w' with logs := w'.logs.modify id ({ · with waiting := [] }) }) : P (w.closeLog id).2 := by
  unfold closeLog
  split
  · exact hsame
  split
  · exact hsame
  have hfirst := happend w hsame
  generalize w.append id [] = out at hfirst ⊢
  obtain ⟨e | _, w₁⟩ := out
  · have hsecond := happend w₁ hfirst
    simp only
    generalize w₁.append id [] = out at hsecond ⊢
    obtain ⟨e | _, w₂⟩ := out
    · exact hdrop w₂ hsecond
    · exact hsecond
  · exact hfirst

theorem append_eq_error {id : LogId} {bytes : Bytes} {e : DiskError} (h : (w.append id bytes).1 = .error e) :
    ∃ place n f, (w.logs.map LogFile.place)[id]? = some place ∧ w.refuses n (.append place) = some f ∧
      e = ⟨f, pathTo place⟩ := by
  rcases w.append_cases id bytes with ⟨-, hnone⟩ | ⟨log, hlog, ⟨f, hfault, hrefused⟩ | ⟨-, hwritten⟩⟩
  · simp [hnone] at h
  · rw [hrefused] at h
    exact ⟨log.place, w.accesses, f, by simp [hlog], hfault, (Except.error.inj h).symm⟩
  · simp [hwritten] at h

theorem closeLog_eq_error {id : LogId} {e : DiskError} (h : (w.closeLog id).1 = .error e) :
    ∃ place n f, (w.logs.map LogFile.place)[id]? = some place ∧ w.refuses n (.append place) = some f ∧
      e = ⟨f, pathTo place⟩ := by
  unfold closeLog at h
  split at h
  · contradiction
  split at h
  · contradiction
  have hsteady := w.steady_append id []
  have hfirst : ∀ e, (w.append id []).1 = .error e → _ := fun e => append_eq_error
  generalize w.append id [] = out at h hsteady hfirst
  obtain ⟨e₁ | _, w₁⟩ := out
  · simp only at h hsteady
    have hsecond : ∀ e, (w₁.append id []).1 = .error e → _ := fun e => append_eq_error
    generalize w₁.append id [] = out at h hsecond
    obtain ⟨e₂ | _, w₂⟩ := out
    · rw [hsteady.logs, hsteady.refuses] at hsecond
      exact hsecond e h
    · exact hfirst e h
  · contradiction

theorem places_modify (logs : List LogFile) (id : LogId) :
    (logs.modify id ({ · with waiting := [] })).map LogFile.place = logs.map LogFile.place := by
  refine List.ext_getElem? fun i => ?_
  simp only [List.getElem?_map, List.getElem?_modify]
  cases logs[i]? with
  | none => rfl
  | some log => by_cases hi : id = i <;> simp [hi]

theorem steady_closeLog (w : Machine) (id : LogId) : Steady w (w.closeLog id).2 :=
  of_closeLog w id (.refl w) (fun w' h => h.trans (w'.steady_append id []))
    fun _ h => h.trans ⟨rfl, places_modify _ id, rfl⟩

theorem keeps_closeLog {id : LogId} (h : LogApart o w id) : Keeps o w (w.closeLog id).2 :=
  of_closeLog w id (.refl w) (fun _ h' => h'.trans (keeps_append (h.of_keeps h') []))
    fun _ h' => h'.trans (Steady.keeps ⟨rfl, places_modify _ id, rfl⟩ rfl)

theorem of_record {P : Machine → Prop} (w : Machine) (r : Record) (hrecorded : P { w with records := w.records ++ [r] })
    (hfiled : ∀ id, w.journal.file = some id →
      P (Machine.logLine id (r.fileLine w.stamp) { w with records := w.records ++ [r] }))
    (hcomplain : ∀ w' x, P w' → P (w'.complain x)) : P (w.record r) := by
  have hshown : ∀ filed : Machine, P filed →
      P (if filed.journal.verbose then filed.complain (.shown r) else filed) := by
    intro filed hfiled
    split
    · exact hcomplain filed _ hfiled
    · exact hfiled
  unfold record file
  simp only
  split
  · cases hid : w.journal.file with
    | none => exact hshown _ hrecorded
    | some id => exact hshown _ (hfiled id hid)
  · exact hrecorded

theorem steady_record (w : Machine) (r : Record) : Steady w (w.record r) := by
  have hrecorded : Steady w { w with records := w.records ++ [r] } := ⟨rfl, rfl, rfl⟩
  exact of_record w r hrecorded (fun id _ => hrecorded.trans (steady_logLine _ id _))
    fun w' x h => h.trans (w'.steady_complain x)

theorem disk_record_of_none (h : w.journal.file = none) (r : Record) : (w.record r).disk = w.disk :=
  of_record (P := fun w' => w'.disk = w.disk) w r rfl (fun id hid => by simp [h] at hid) fun _ _ h' => h'

theorem keeps_record (h : JournalApart o w) (r : Record) : Keeps o w (w.record r) := by
  have hrecorded : Keeps o w { w with records := w.records ++ [r] } := Steady.keeps ⟨rfl, rfl, rfl⟩ rfl
  exact of_record w r hrecorded (fun id hid => hrecorded.trans (keeps_logLine ((h id hid).of_keeps hrecorded) _))
    fun w' x h' => h'.trans (keeps_complain w' x)

/-! Reading and writing files. -/

theorem steady_tick (w : Machine) : Steady w w.tick := ⟨rfl, rfl, rfl⟩

theorem keeps_tick (w : Machine) : Keeps o w w.tick := (w.steady_tick).keeps rfl

@[simp] theorem read_snd (w : Machine) (p : Path) : (w.read p).2 = w.tick := by
  unfold read
  split <;> rfl

theorem keeps_write {p : Path} (h : o ≠ w.disk.placeOf p) (bytes : Bytes) : Keeps o w (w.write p bytes).2 := by
  unfold write
  split
  · exact keeps_tick w
  · split
    · exact keeps_tick w
    · next d hd => exact ⟨⟨rfl, rfl, rfl⟩, Disk.keeps_write hd h⟩

theorem keeps_makeDirectories {p : Path} (h : ¬ w.disk.OnWay p o) : Keeps o w (w.makeDirectories p).2 := by
  unfold makeDirectories
  split
  · exact keeps_tick w
  · exact ⟨⟨rfl, rfl, rfl⟩, Disk.keeps_makeDirectories h⟩

end Machine

namespace Context

def exec {α : Type} (a : Step (StateM Machine) α) (c : Context) (w : Machine) : Except Failure α × Context × Machine :=
  let ((result, c), w) := (a.run.run c).run w
  (result, c, w)

variable {α β : Type}

theorem exec_bind (a : Step (StateM Machine) α) (f : α → Step (StateM Machine) β) (c : Context) (w : Machine) :
    exec (a >>= f) c w =
      match exec a c w with
      | (.ok x, c', w') => exec (f x) c' w'
      | (.error e, c', w') => (.error e, c', w') := by
  unfold exec
  rw [ExceptT.run_bind, StateT.run_bind, StateT.run_bind]
  generalize (a.run.run c).run w = out
  obtain ⟨⟨_ | x, c'⟩, w'⟩ := out
  · rfl
  · rfl

theorem exec_bind_eq_ok {a : Step (StateM Machine) α} {f : α → Step (StateM Machine) β} {c c' : Context}
    {w w' : Machine} {y : β} (h : exec (a >>= f) c w = (.ok y, c', w')) :
    ∃ x c₁ w₁, exec a c w = (.ok x, c₁, w₁) ∧ exec (f x) c₁ w₁ = (.ok y, c', w') := by
  rw [exec_bind] at h
  rcases hrun : exec a c w with ⟨g | x, c₁, w₁⟩
  · simp [hrun] at h
  · rw [hrun] at h
    exact ⟨x, c₁, w₁, rfl, h⟩

theorem exec_bind_eq_error {a : Step (StateM Machine) α} {f : α → Step (StateM Machine) β}
    {c c' : Context} {w w' : Machine} {e : Failure} (h : exec (a >>= f) c w = (.error e, c', w')) :
    exec a c w = (.error e, c', w') ∨
      ∃ x c₁ w₁, exec a c w = (.ok x, c₁, w₁) ∧ exec (f x) c₁ w₁ = (.error e, c', w') := by
  rw [exec_bind] at h
  rcases hrun : exec a c w with ⟨g | x, c₁, w₁⟩
  · rw [hrun] at h
    obtain ⟨rfl, rfl, rfl⟩ : g = e ∧ c₁ = c' ∧ w₁ = w' := by simpa using h
    exact .inl rfl
  · rw [hrun] at h
    exact .inr ⟨x, c₁, w₁, rfl, h⟩

@[simp] theorem exec_pure (x : α) (c : Context) (w : Machine) : exec (pure x) c w = (.ok x, c, w) := rfl

@[simp] theorem exec_throw (f : Failure) (c : Context) (w : Machine) :
    exec (throw f : Step (StateM Machine) α) c w = (.error f, c, w) := rfl

@[simp] theorem exec_current (c : Context) (w : Machine) : exec current c w = (.ok c, c, w) := rfl

@[simp] theorem exec_change (f : Context → Context) (c : Context) (w : Machine) :
    exec (change f) c w = (.ok (), f c, w) := rfl

@[simp] theorem exec_note (speaker : Text) (level : Level) (message : Text) (c : Context) (w : Machine) :
    exec (Host.note speaker level message) c w = (.ok (), c, w.record ⟨speaker, level, message⟩) := rfl

@[simp] theorem exec_logLine (id : LogId) (line : Text) (c : Context) (w : Machine) :
    exec (liftM (Host.logLine id line : StateT Context (StateM Machine) Unit)) c w = (.ok (), c, w.logLine id line) :=
  rfl

@[simp] theorem exec_fromExcept (x : Except Failure α) (c : Context) (w : Machine) :
    exec (fromExcept x) c w = (x, c, w) := rfl

@[simp] theorem exec_write (p : Path) (bytes : Bytes) (c : Context) (w : Machine) :
    exec (Host.attempt (Host.write p bytes)) c w = ((w.write p bytes).1.mapError .disk, c, (w.write p bytes).2) := rfl

@[simp] theorem exec_makeDirectories (p : Path) (c : Context) (w : Machine) :
    exec (Host.attempt (Host.makeDirectories p)) c w =
      ((w.makeDirectories p).1.mapError .disk, c, (w.makeDirectories p).2) := rfl

@[simp] theorem exec_timed (a : Step (StateM Machine) α) (c : Context) (w : Machine) :
    exec (liftM (Host.timed a.run : StateT Context (StateM Machine) _)) c w =
      (.ok ((exec a c w).1, (exec a c w).2.2.pace), (exec a c w).2) := rfl

def noting (c : Context) (name : Text) (summary : Json) : Context :=
  { c with notes := c.notes.put name (Value.ofJson summary) }

def traced (c : Context) (name : Text) (summary : Json) (w : Machine) : Machine :=
  match c.trace with
  | none => w
  | some id => w.logLine id (traceLine name summary)

theorem exec_recordSummary (name : Text) (summary : Json) (c : Context) (w : Machine) :
    exec (recordSummary name summary) c w =
      match c.artifacts with
      | none => (.ok (), c.noting name summary, c.traced name summary w)
      | some dir => exec (Host.writeText (dir.child (name ++ ".json")) summary.sorted.document) (c.noting name summary)
          (c.traced name summary w) := by
  have htrace : (c.noting name summary).trace = c.trace := rfl
  have hdir : (c.noting name summary).artifacts = c.artifacts := rfl
  rw [recordSummary, noteDown, exec_bind, exec_change]
  change exec (keep name summary) (c.noting name summary) w = _
  rw [keep, exec_bind, exec_current]
  simp only
  rw [htrace, hdir, traced]
  cases c.trace with
  | none => cases c.artifacts <;> rfl
  | some id =>
    simp only
    rw [exec_bind, exec_logLine]
    cases c.artifacts <;> rfl

theorem exec_writeArtifact (name content : Text) (c : Context) (w : Machine) :
    exec (writeArtifact name content) c w =
      match c.artifacts with
      | none => (.ok (), c, w)
      | some dir =>
        if content.isEmpty then (.ok (), c, w)
        else exec (Host.writeText (dir.child (Text.replace " " "_" name ++ ".js")) content) c w := by
  unfold writeArtifact
  rw [exec_bind, exec_current]
  simp only
  cases c.artifacts with
  | none => rfl
  | some dir => cases content <;> rfl

def Refused (out : Except Failure α × Context × Machine) : Prop := ∃ f, out.1 = .error f ∧ f.ofWriting = true

theorem Refused.bind {a : Step (StateM Machine) α} {c : Context} {w : Machine} (h : Refused (exec a c w))
    (f : α → Step (StateM Machine) β) : Refused (exec (a >>= f) c w) := by
  obtain ⟨g, herror, hg⟩ := h
  rw [exec_bind]
  rcases hrun : exec a c w with ⟨result, c', w'⟩
  obtain rfl : result = .error g := by rw [← herror, hrun]
  exact ⟨g, rfl, hg⟩

/-! Keeping records. -/

/-- The artifacts and the log files lie apart from the place. -/
structure Clear (o : Place) (artifacts : Option Path) (trace : Option LogId) (w : Machine) : Prop where
  directory : ∀ dir, artifacts = some dir → ¬ w.disk.OnWay dir o
  files : ∀ dir, artifacts = some dir → ∀ name, w.disk.placeOf dir ++ [name] ≠ o
  trace : ∀ id, trace = some id → w.LogApart o id
  journal : w.JournalApart o

variable {o : Place} {artifacts : Option Path} {trace : Option LogId} {c c' : Context} {w w' : Machine}

theorem Clear.of_keeps (h : Clear o artifacts trace w) (hw : w.Keeps o w') : Clear o artifacts trace w' where
  directory dir hdir := by
    rw [Disk.onWay_congr hw.disk.home]
    exact h.directory dir hdir
  files dir hdir name := by
    rw [Disk.placeOf_congr hw.disk.home]
    exact h.files dir hdir name
  trace id hid := (h.trace id hid).of_keeps hw
  journal := h.journal.of_keeps hw

theorem Clear.of_same (h : Clear o c.artifacts c.trace w) (hc : Same c c') (hw : w.Keeps o w') :
    Clear o c'.artifacts c'.trace w' := by
  rw [hc.artifacts, hc.trace]
  exact h.of_keeps hw

structure OnlyRecords (o : Place) (c : Context) (w : Machine) (out : Except Failure α × Context × Machine) : Prop where
  same : Same c out.2.1
  keeps : w.Keeps o out.2.2
  failure : ∀ f, out.1 = .error f → f.ofWriting = true

theorem OnlyRecords.bind {a : Step (StateM Machine) α} {f : α → Step (StateM Machine) β}
    (ha : OnlyRecords o c w (exec a c w))
    (hf : ∀ x c' w', Same c c' → w.Keeps o w' → OnlyRecords o c' w' (exec (f x) c' w')) :
    OnlyRecords o c w (exec (a >>= f) c w) := by
  rw [exec_bind]
  rcases h : exec a c w with ⟨result, c', w'⟩
  rw [h] at ha
  cases result with
  | error e => exact ⟨ha.same, ha.keeps, fun f hf => ha.failure f (by simpa using hf)⟩
  | ok x =>
    have hx := hf x c' w' ha.same ha.keeps
    exact ⟨ha.same.trans hx.same, ha.keeps.trans hx.keeps, hx.failure⟩

theorem onlyRecords_pure (x : α) (c : Context) (w : Machine) : OnlyRecords o c w (exec (pure x) c w) :=
  ⟨.refl c, .refl w, by simp⟩

theorem onlyRecords_note (h : w.JournalApart o) (speaker : Text) (level : Level) (message : Text) :
    OnlyRecords o c w (exec (Host.note speaker level message) c w) :=
  ⟨.refl c, Machine.keeps_record h _, by simp⟩

theorem ofWriting_of_disk {x : Except DiskError α} {f : Failure} (h : x.mapError .disk = .error f) :
    f.ofWriting = true := by
  obtain ⟨e, -, rfl⟩ := mapError_eq_error h
  rfl

theorem onlyRecords_write {p : Path} (h : o ≠ w.disk.placeOf p) (bytes : Bytes) :
    OnlyRecords o c w (exec (Host.attempt (Host.write p bytes)) c w) :=
  ⟨.refl c, Machine.keeps_write h bytes, fun _ => ofWriting_of_disk⟩

theorem onlyRecords_makeDirectories {p : Path} (h : ¬ w.disk.OnWay p o) :
    OnlyRecords o c w (exec (Host.attempt (Host.makeDirectories p)) c w) :=
  ⟨.refl c, Machine.keeps_makeDirectories h, fun _ => ofWriting_of_disk⟩

theorem onlyRecords_putText {p : Path} (h : o ≠ w.disk.placeOf p) (t : Text) :
    OnlyRecords o c w (exec (Host.putText p t) c w) := by
  unfold Host.putText
  cases Utf8.encode t with
  | ok bytes => exact onlyRecords_write h bytes
  | error g =>
    refine (onlyRecords_write h []).bind fun _ c' w' _ _ => ⟨.refl c', .refl w', ?_⟩
    rintro f hf
    obtain rfl : Failure.unencodable g = f := by simpa using hf
    rfl

theorem onlyRecords_writeText {p : Path} (hway : ¬ w.disk.OnWay p.parent o) (hplace : o ≠ w.disk.placeOf p)
    (hjournal : w.JournalApart o) (t : Text) : OnlyRecords o c w (exec (Host.writeText p t) c w) := by
  refine (onlyRecords_makeDirectories hway).bind fun _ c₁ w₁ _ hw₁ => ?_
  refine (onlyRecords_putText (by rwa [Disk.placeOf_congr hw₁.disk.home]) t).bind fun _ c₂ w₂ _ hw₂ => ?_
  exact onlyRecords_note (hjournal.of_keeps (hw₁.trans hw₂)) ..

theorem onlyRecords_start (h : Clear o c.artifacts c.trace w) (k : Context) :
    OnlyRecords o c.prepared w (exec (start c) k w) := by
  unfold start
  rw [exec_bind, exec_change]
  simp only
  cases hdir : c.artifacts with
  | none => exact onlyRecords_pure () c.prepared w
  | some dir => exact onlyRecords_makeDirectories (h.directory dir hdir)

theorem exec_start_of_plain (h : c.artifacts = none) (k : Context) (w : Machine) :
    exec (start c) k w = (.ok (), c.prepared, w) := by
  rw [start, exec_bind, exec_change, h]
  rfl

theorem onlyRecords_writeArtifactFile (h : Clear o c.artifacts c.trace w) {dir : Path} (hdir : c.artifacts = some dir)
    {name : Text} (hname : Path.ofText name = ⟨0, [name]⟩) (hdots : name ≠ "..") (t : Text) :
    OnlyRecords o c w (exec (Host.writeText (dir.child name) t) c w) := by
  have hchild : dir.child name = ⟨dir.slashes, dir.parts ++ [name]⟩ := by
    simp [Path.child, Path.append, hname, Path.isAbsolute]
  have hparent : (dir.child name).parent = dir := by simp [hchild, Path.parent]
  refine onlyRecords_writeText (by rw [hparent]; exact h.directory dir hdir) (fun heq => ?_) h.journal t
  refine h.files dir hdir (Utf8.nameBytes name) ?_
  rw [heq, hchild, Disk.placeOf_concat, Disk.next, if_neg hdots]

theorem onlyRecords_recordSummary (h : Clear o c.artifacts c.trace w) {name : Text}
    (hname : Path.ofText (name ++ ".json") = ⟨0, [name ++ ".json"]⟩) (hdots : name ++ ".json" ≠ "..") (summary : Json) :
    OnlyRecords o c w (exec (recordSummary name summary) c w) := by
  have hsame : Same c (c.noting name summary) := ⟨rfl, rfl, rfl⟩
  have htraced : w.Keeps o (c.traced name summary w) := by
    unfold traced
    cases hid : c.trace with
    | none => exact .refl w
    | some id => exact Machine.keeps_logLine (h.trace id hid) _
  rw [exec_recordSummary]
  cases hdir : c.artifacts with
  | none => exact ⟨hsame, htraced, by simp⟩
  | some dir =>
    have hwritten := onlyRecords_writeArtifactFile (h.of_same hsame htraced) hdir hname hdots summary.sorted.document
    exact ⟨hsame.trans hwritten.same, htraced.trans hwritten.keeps, hwritten.failure⟩

theorem onlyRecords_writeArtifact (h : Clear o c.artifacts c.trace w) {name : Text}
    (hname : Path.ofText (Text.replace " " "_" name ++ ".js") = ⟨0, [Text.replace " " "_" name ++ ".js"]⟩)
    (hdots : Text.replace " " "_" name ++ ".js" ≠ "..") (content : Text) :
    OnlyRecords o c w (exec (writeArtifact name content) c w) := by
  rw [exec_writeArtifact]
  cases hdir : c.artifacts with
  | none => exact onlyRecords_pure () c w
  | some dir =>
    simp only
    split
    · exact onlyRecords_pure () c w
    · exact onlyRecords_writeArtifactFile h hdir hname hdots content

end Context
end Rehost
