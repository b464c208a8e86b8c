import Rehost.Proofs.Run.Step

/-! Machines that only gain. Writing to files and logs takes nothing off a disk: directories stay directories, files
stay files, and every log goes on standing on a file. -/
namespace Rehost.Machine

def Grounded (w : Machine) : Prop := ∀ log ∈ w.logs, ∃ bytes, w.disk.entryAt log.place = some (.file bytes)

/-- A change of a machine that leaves directories and files what they are, and logs where they are. -/
structure Grows (w w' : Machine) : Prop extends Steady w w' where
  home : w'.disk.home = w.disk.home
  directories : ∀ o, w.disk.entryAt o = some .directory → w'.disk.entryAt o = some .directory
  files : ∀ o bytes, w.disk.entryAt o = some (.file bytes) → ∃ bytes', w'.disk.entryAt o = some (.file bytes')

variable {o : Place} {w w' w'' : Machine} {id : LogId} {log : LogFile}

theorem Steady.grows (h : Steady w w') (hdisk : w'.disk = w.disk) : Grows w w' :=
  ⟨h, by rw [hdisk], fun o ho => by rwa [hdisk], fun o bytes ho => ⟨bytes, by rwa [hdisk]⟩⟩

theorem Grows.trans (h : Grows w w') (h' : Grows w' w'') : Grows w w'' where
  toSteady := h.toSteady.trans h'.toSteady
  home := h'.home.trans h.home
  directories o ho := h'.directories o (h.directories o ho)
  files o bytes ho := by
    obtain ⟨bytes', ho'⟩ := h.files o bytes ho
    exact h'.files o bytes' ho'

theorem grows_set {place : Place} (h : w.disk.entryAt place ≠ some .directory) (bytes : Bytes)
    (hdisk : w'.disk = w.disk.set place (.file bytes)) (hsteady : Steady w w') : Grows w w' := by
  have hroot : place ≠ [] := Disk.ne_root h
  have hother : ∀ o, o ≠ place → w'.disk.entryAt o = w.disk.entryAt o := fun o ho => by
    rw [hdisk, Disk.entryAt_set_of_ne w.disk _ ho]
  refine ⟨hsteady, by rw [hdisk]; rfl, fun o ho => ?_, fun o old ho => ?_⟩
  · rwa [hother o fun heq => h (heq ▸ ho)]
  · by_cases heq : o = place
    · exact ⟨bytes, by rw [hdisk, heq, Disk.entryAt_set_self w.disk place _ hroot]⟩
    · exact ⟨old, by rwa [hother o heq]⟩

theorem Grounded.of_grows (h : w.Grounded) (hw : Grows w w') : w'.Grounded := by
  intro log hlog
  have hplace : log.place ∈ w.logs.map LogFile.place := hw.logs ▸ List.mem_map_of_mem hlog
  obtain ⟨log', hlog', heq⟩ := List.mem_map.1 hplace
  obtain ⟨bytes, hentry⟩ := h log' hlog'
  rw [heq] at hentry
  exact hw.files _ bytes hentry

theorem JournalApart.of_grows (h : w.JournalApart o) (hw : Grows w w') : w'.JournalApart o := by
  intro id hid
  rw [LogApart, hw.logs]
  exact h id (hw.journal ▸ hid)

theorem grows_append (h : w.Grounded) (id : LogId) (bytes : Bytes) : Grows w (w.append id bytes).2 := by
  have hsteady := w.steady_append id bytes
  rcases w.append_cases id bytes with ⟨-, h'⟩ | ⟨log, hlog, ⟨f, -, h'⟩ | ⟨-, h'⟩⟩
  · exact hsteady.grows (by rw [h'])
  · exact hsteady.grows (by rw [h']; rfl)
  · obtain ⟨old, hentry⟩ := h log (List.mem_of_getElem? hlog)
    have hfile : w.disk.entryAt log.place ≠ some .directory := by simp [hentry]
    exact grows_set hfile _ (by rw [h']) hsteady

theorem grows_logLine (h : w.Grounded) (id : LogId) (line : Text) : Grows w (w.logLine id line) :=
  of_logLine w id line ((Steady.refl w).grows rfl) (grows_append h id)
    fun w' _ h' => h'.trans ((w'.steady_complain _).grows rfl)

theorem grows_record (h : w.Grounded) (r : Record) : Grows w (w.record r) := by
  have hrecorded : Grows w { w with records := w.records ++ [r] } := Steady.grows ⟨rfl, rfl, rfl⟩ rfl
  exact of_record w r hrecorded (fun id _ => hrecorded.trans (grows_logLine (h.of_grows hrecorded) id _))
    fun w' x h' => h'.trans ((w'.steady_complain x).grows rfl)

theorem logs_logLine {id' : LogId} (hne : id' ≠ id) (hlog : w.logs[id]? = some log) (line : Text) :
    (w.logLine id' line).logs[id]? = some log := by
  refine of_logLine (P := fun w' => w'.logs[id]? = some log) w id' line hlog (fun bytes => ?_) fun w' x h => h
  rcases w.append_cases id' bytes with ⟨-, h'⟩ | ⟨log', -, ⟨f, -, h'⟩ | ⟨-, h'⟩⟩
  · rwa [h']
  · simpa [h', List.getElem?_set, hne] using hlog
  · simpa [h', List.getElem?_set, hne] using hlog

theorem logs_record (h : w.JournalApart log.place) (hlog : w.logs[id]? = some log) (r : Record) :
    (w.record r).logs[id]? = some log := by
  refine of_record (P := fun w' => w'.logs[id]? = some log) w r hlog (fun id' hfile => ?_) fun w' x h => h
  refine logs_logLine ?_ (w := { w with records := w.records ++ [r] }) hlog _
  rintro rfl
  exact h id' hfile (by simp [hlog])

end Rehost.Machine
