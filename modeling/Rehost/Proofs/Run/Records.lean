import Rehost.Proofs.Json
import Rehost.Proofs.Run.Growth
import Rehost.Proofs.Run.Trail

/-! What is kept of a run: the files in the directory for artifacts and the lines of the trace log. Each pass that
succeeds adds its own to them, so behind the last one they are the record of just the passes that have succeeded. -/
namespace Rehost
open Context

namespace Machine

theorem write_eq_set {w : Machine} {p : Path} {bytes : Bytes} (h : (w.write p bytes).1 = .ok ()) :
    (w.write p bytes).2 = { w.tick with disk := w.disk.set (w.disk.placeOf p) (.file bytes) } ∧
      w.disk.entryAt (w.disk.placeOf p) ≠ some .directory := by
  unfold write at h ⊢
  split at h
  · contradiction
  split at h
  · contradiction
  · next d hd =>
    obtain ⟨rfl, -⟩ := Disk.write_eq_ok hd
    cases hwritable : w.disk.writable p with
    | error f => simp [Disk.write, hwritable, Except.map] at hd
    | ok place =>
      obtain ⟨rfl, hentry⟩ := Disk.writable_eq_ok hwritable
      exact ⟨rfl, hentry⟩

theorem makeDirectories_of_located {w : Machine} {p : Path} {place : Place} (hlocate : w.disk.locate p = .ok place)
    (hentry : w.disk.entryAt place = some .directory) : (w.makeDirectories p).2 = w.tick := by
  unfold makeDirectories
  split
  · rfl
  · simp [Disk.makeDirectories_of_located hlocate hentry, tick]

end Machine

namespace Context

variable {c c' : Context} {w w' : Machine} {p : Path} {t : Text} {D : Place}

theorem writeText_eq_ok (hlocate : w.disk.locate p.parent = .ok D) (hentry : w.disk.entryAt D = some .directory)
    (h : exec (Host.writeText p t) c w = (.ok (), c', w')) :
    ∃ bytes r, Utf8.encode t = .ok bytes ∧ w.disk.entryAt (w.disk.placeOf p) ≠ some .directory ∧
      w' = ({ w.tick.tick with disk := w.disk.set (w.disk.placeOf p) (.file bytes) } : Machine).record r := by
  unfold Host.writeText at h
  rw [exec_bind, exec_makeDirectories, Machine.makeDirectories_of_located hlocate hentry] at h
  cases hmake : (w.makeDirectories p.parent).1 with
  | error e => simp [hmake] at h
  | ok _ =>
    simp only [hmake, mapError_ok] at h
    unfold Host.putText at h
    cases hencode : Utf8.encode t with
    | error g =>
      simp only [hencode, exec_bind, exec_write] at h
      cases hwrite : (w.tick.write p []).1 <;> simp [hwrite] at h
    | ok bytes =>
      simp only [hencode, exec_bind, exec_write] at h
      cases hwrite : (w.tick.write p bytes).1 with
      | error e => simp [hwrite] at h
      | ok _ =>
        obtain ⟨hset, hplace⟩ := Machine.write_eq_set hwrite
        simp only [hwrite, hset, mapError_ok, exec_note, Prod.mk.injEq] at h
        exact ⟨bytes, _, rfl, hplace, h.2.2.symm⟩

end Context

def fileIn (D : Place) (name : Text) : Place := D ++ [Utf8.nameBytes name]

/-- The directory at `D` holds just `files` and the file of a log at `T` holds just `lines`. The run log writes to
neither of them. -/
structure Filed (dir : Path) (D : Place) (id : LogId) (T : Place) (files : Table Text) (lines : List Text)
    (w : Machine) : Prop where
  grounded : w.Grounded
  located : w.disk.locate dir = .ok D
  directory : w.disk.entryAt D = some .directory
  holds : ∀ e ∈ files, Conversion.Holds w.disk (fileIn D e.1) e.2
  nothingElse : ∀ rest, rest ≠ [] → w.disk.entryAt (D ++ rest) ≠ none → ∃ e ∈ files, rest = [Utf8.nameBytes e.1]
  log : w.logs[id]? = some ⟨T, (Utf8.bytes (Text.ofLines lines)).length, []⟩
  taken : ∀ n, w.refuses n (.append T) = none
  logged : w.disk.entryAt T = some (.file (Utf8.bytes (Text.ofLines lines)))
  apart : ∀ rest, T ≠ D ++ rest
  journal : w.JournalApart T
  journalOutside : ∀ rest, rest ≠ [] → w.JournalApart (D ++ rest)

namespace Filed

variable {dir : Path} {D T : Place} {id : LogId} {files : Table Text} {lines : List Text} {w w' : Machine}

theorem holds_congr {d d' : Disk} {o : Place} {t : Text} (h : Conversion.Holds d o t) (ho : d'.entryAt o = d.entryAt o) :
    Conversion.Holds d' o t := by
  obtain ⟨bytes, hencode, hentry⟩ := h
  exact ⟨bytes, hencode, ho.trans hentry⟩

theorem of_grows (h : Filed dir D id T files lines w) (hw : w.Grows w') {files' : Table Text} {lines' : List Text}
    (hholds : ∀ e ∈ files', Conversion.Holds w'.disk (fileIn D e.1) e.2)
    (hnothing : ∀ rest, rest ≠ [] → w'.disk.entryAt (D ++ rest) ≠ none → ∃ e ∈ files', rest = [Utf8.nameBytes e.1])
    (hlog : w'.logs[id]? = some ⟨T, (Utf8.bytes (Text.ofLines lines')).length, []⟩)
    (hlogged : w'.disk.entryAt T = some (.file (Utf8.bytes (Text.ofLines lines')))) :
    Filed dir D id T files' lines' w' where
  grounded := h.grounded.of_grows hw
  located := Disk.locate_of_directories hw.home hw.directories h.located
  directory := hw.directories _ h.directory
  holds := hholds
  nothingElse := hnothing
  log := hlog
  taken n := by rw [hw.refuses, h.taken]
  logged := hlogged
  apart := h.apart
  journal := h.journal.of_grows hw
  journalOutside rest hrest := (h.journalOutside rest hrest).of_grows hw

theorem append (h : Filed dir D id T files lines w) {line : Text} (hline : line.Visible) :
    Filed dir D id T files (lines ++ [line]) (w.logLine id (line ++ "\n")) := by
  have hroot : T ≠ [] := Disk.ne_root (d := w.disk) (by simp [h.logged])
  have happend : w.logLine id (line ++ "\n") = { w.tick with
      disk := w.disk.set T (.file (Utf8.bytes (Text.ofLines (lines ++ [line]))))
      logs := w.logs.set id ⟨T, (Utf8.bytes (Text.ofLines (lines ++ [line]))).length, []⟩ } := by
    rw [Machine.logLine, hline.encode_line]
    simp only
    rw [Machine.append_at_end h.log (h.taken _) h.logged, Text.bytes_ofLines_concat]
  have hinside : ∀ rest, (w.logLine id (line ++ "\n")).disk.entryAt (D ++ rest) = w.disk.entryAt (D ++ rest) := by
    intro rest
    rw [happend]
    exact Disk.entryAt_set_of_ne w.disk _ fun heq => h.apart rest heq.symm
  refine h.of_grows (Machine.grows_logLine h.grounded id _) (fun e he => holds_congr (h.holds e he) (hinside _))
    (fun rest hrest hentry => h.nothingElse rest hrest (by rwa [hinside] at hentry)) ?_ ?_
  · rw [happend]
    exact List.getElem?_set_self (List.getElem?_eq_some_iff.1 h.log).1
  · rw [happend]
    exact Disk.entryAt_set_self w.disk T _ hroot

theorem record (h : Filed dir D id T files lines w) (r : Record) : Filed dir D id T files lines (w.record r) := by
  have hinside : ∀ rest, rest ≠ [] → (w.record r).disk.entryAt (D ++ rest) = w.disk.entryAt (D ++ rest) :=
    fun rest hrest => (Machine.keeps_record (h.journalOutside rest hrest) r).disk.entry
  exact h.of_grows (Machine.grows_record h.grounded r) (fun e he => holds_congr (h.holds e he) (hinside _ (by simp)))
    (fun rest hrest hentry => h.nothingElse rest hrest (by rwa [hinside rest hrest] at hentry))
    (Machine.logs_record h.journal h.log r) ((Machine.keeps_record h.journal r).disk.entry.trans h.logged)

theorem set (h : Filed dir D id T files lines w) {name t : Text} {bytes : Bytes} (hencode : Utf8.encode t = .ok bytes)
    (hname : ∀ e ∈ files, Utf8.nameBytes e.1 ≠ Utf8.nameBytes name) (hsteady : w.Steady w')
    (hdisk : w'.disk = w.disk.set (fileIn D name) (.file bytes)) (hlogs : w'.logs = w.logs) :
    Filed dir D id T (files ++ [(name, t)]) lines w' := by
  have hnone : w.disk.entryAt (fileIn D name) = none := by
    by_contra hentry
    obtain ⟨e, he, heq⟩ := h.nothingElse _ (by simp) hentry
    exact hname e he (List.cons.inj heq).1.symm
  have hother : ∀ o, o ≠ fileIn D name → w'.disk.entryAt o = w.disk.entryAt o := fun o ho => by
    rw [hdisk, Disk.entryAt_set_of_ne w.disk _ ho]
  refine h.of_grows (Machine.grows_set (by simp [hnone]) bytes hdisk hsteady) (fun e he => ?_)
    (fun rest hrest hentry => ?_) (hlogs ▸ h.log) ((hother T (h.apart _)).trans h.logged)
  · rcases List.mem_append.1 he with hold | hnew
    · refine holds_congr (h.holds e hold) (hother _ fun heq => hname e hold ?_)
      simpa [fileIn] using heq
    · obtain rfl := List.mem_singleton.1 hnew
      exact ⟨bytes, hencode, by rw [hdisk, Disk.entryAt_set_self w.disk _ _ (by simp [fileIn])]⟩
  · by_cases heq : D ++ rest = fileIn D name
    · exact ⟨(name, t), by simp, List.append_cancel_left heq⟩
    · obtain ⟨e, he, hrest'⟩ := h.nothingElse rest hrest (by rwa [hother _ heq] at hentry)
      exact ⟨e, List.mem_append_left _ he, hrest'⟩

theorem writeText (h : Filed dir D id T files lines w) {name t : Text} (hfile : Path.ofText name = ⟨0, [name]⟩)
    (hdots : name ≠ "..") (hname : ∀ e ∈ files, Utf8.nameBytes e.1 ≠ Utf8.nameBytes name) {c c' : Context}
    (hwrite : exec (Host.writeText (dir.child name) t) c w = (.ok (), c', w')) :
    Filed dir D id T (files ++ [(name, t)]) lines w' := by
  have hchild : dir.child name = ⟨dir.slashes, dir.parts ++ [name]⟩ := by
    simp [Path.child, Path.append, hfile, Path.isAbsolute]
  have hparent : (dir.child name).parent = dir := by simp [hchild, Path.parent]
  have hplace : w.disk.placeOf (dir.child name) = fileIn D name := by
    rw [hchild, Disk.placeOf_concat, Disk.next, if_neg hdots, Disk.locate_eq_ok h.located]
    rfl
  obtain ⟨bytes, r, hencode, -, rfl⟩ := writeText_eq_ok (by rw [hparent]; exact h.located) h.directory hwrite
  have hsteady : w.Steady { w.tick.tick with disk := w.disk.set (w.disk.placeOf (dir.child name)) (.file bytes) } :=
    ⟨rfl, rfl, rfl⟩
  exact (h.set hencode hname hsteady (by rw [hplace]) rfl).record r

end Filed

namespace Pass

def summaryFile (p : Pass) : Text := p.name ++ ".json"

def textFile : Pass → Text
  | buildHash => "raw_input.js"
  | p => p.name ++ ".js"

theorem files_apart (p q : Pass) : Utf8.nameBytes p.summaryFile ≠ Utf8.nameBytes q.textFile ∧
    (p ≠ q → Utf8.nameBytes p.summaryFile ≠ Utf8.nameBytes q.summaryFile ∧
      Utf8.nameBytes p.textFile ≠ Utf8.nameBytes q.textFile) := by
  cases p <;> cases q <;> decide

end Pass

namespace Stage

def content (s : Stage) : Text := (s.pass.artifact s.context).2

def files (s : Stage) : Table Text :=
  (s.pass.summaryFile, s.noticed.sorted.document) :: if s.content.isEmpty then [] else [(s.pass.textFile, s.content)]

theorem mem_files {s : Stage} {e : Text × Text} :
    e ∈ s.files ↔
      e = (s.pass.summaryFile, s.noticed.sorted.document) ∨ s.content ≠ [] ∧ e = (s.pass.textFile, s.content) := by
  unfold files
  cases hcontent : s.content <;> simp

def line (s : Stage) : Text := s.pass.name ++ " " ++ s.noticed.sorted.line

theorem visible_line (s : Stage) : s.line.Visible := by
  have hname : Text.Visible (s.pass.name ++ " ") := by cases s.pass <;> decide
  exact hname.append (Json.visible_line _)

end Stage

namespace Filed

variable {dir : Path} {D T : Place} {id : LogId} {files : Table Text} {lines : List Text} {w w' : Machine} {c c' : Context}

theorem step {p : Pass} (h : Filed dir D id T files lines w) (hdir : c.artifacts = some dir) (hid : c.trace = some id)
    (hfresh : ∀ e ∈ files, Utf8.nameBytes e.1 ≠ Utf8.nameBytes p.summaryFile ∧
      Utf8.nameBytes e.1 ≠ Utf8.nameBytes p.textFile)
    (hstep : exec p.step c w = (.ok (), c', w')) :
    ∃ noticed c₁, p.apply c = .ok (noticed, c₁) ∧ c' = c₁.noting p.name noticed ∧
      Filed dir D id T (files ++ Stage.files ⟨p, noticed, c'⟩) (lines ++ [Stage.line ⟨p, noticed, c'⟩]) w' := by
  obtain ⟨noticed, c₁, w₁, happly, hc', hrecord, hartifact⟩ := Pass.step_eq_ok hstep
  obtain ⟨hartifacts, htrace, -⟩ := Pass.apply_eq_ok happly
  refine ⟨noticed, c₁, happly, hc', ?_⟩
  have htraced := h.append (Stage.visible_line ⟨p, noticed, c'⟩)
  have hline : c₁.traced p.name noticed w = w.logLine id (Stage.line ⟨p, noticed, c'⟩ ++ "\n") := by
    simp [traced, htrace, hid, Stage.line, traceLine]
  rw [exec_recordSummary, hartifacts, hdir, hline] at hrecord
  have hsummary := htraced.writeText (by cases p <;> decide) (by cases p <;> decide) (fun e he => (hfresh e he).1) hrecord
  have hkept : c'.artifacts = some dir := by rw [hc', ← hdir, ← hartifacts]; rfl
  have hname : Text.replace " " "_" (p.artifact c').1 ++ ".js" = p.textFile := by cases p <;> rfl
  rw [exec_writeArtifact, hkept, hname] at hartifact
  simp only at hartifact
  split at hartifact
  · next hempty =>
    obtain rfl : w₁ = w' := by simpa using hartifact
    simpa [Stage.files, Stage.content, hempty] using hsummary
  · next hnonempty =>
    have htext := hsummary.writeText (by cases p <;> decide) (by cases p <;> decide) (fun e he => ?_) hartifact
    · simpa [Stage.files, Stage.content, hnonempty] using htext
    · rcases List.mem_append.1 he with hold | hnew
      · exact (hfresh e hold).2
      · obtain rfl := List.mem_singleton.1 hnew
        exact (Pass.files_apart p p).1

theorem run {ps : List Pass} (h : Filed dir D id T files lines w) (hdir : c.artifacts = some dir) (hid : c.trace = some id)
    (hps : ps.Nodup) (hfresh : ∀ p ∈ ps, ∀ e ∈ files, Utf8.nameBytes e.1 ≠ Utf8.nameBytes p.summaryFile ∧
      Utf8.nameBytes e.1 ≠ Utf8.nameBytes p.textFile)
    (hsucceeds : Registry.Succeeds (Pipeline.stepsOf ps) c w c' w') :
    ∃ stages, stages.map Stage.pass = ps ∧ Trail c stages c' ∧
      Filed dir D id T (files ++ stages.flatMap Stage.files) (lines ++ stages.map Stage.line) w' := by
  induction ps generalizing c w files lines with
  | nil =>
    cases hsucceeds
    exact ⟨[], rfl, .nil _, by simpa using h⟩
  | cons p ps ih =>
    obtain ⟨hp, hps⟩ := List.nodup_cons.1 hps
    obtain ⟨hfresh₁, hfresh⟩ := List.forall_mem_cons.1 hfresh
    obtain ⟨c₂, w₂, hstep, hrest⟩ := Pipeline.succeeds_cons hsucceeds
    obtain ⟨noticed, c₁, happly, rfl, hfiled⟩ := h.step hdir hid hfresh₁ hstep
    obtain ⟨hartifacts, htrace, -⟩ := Pass.apply_eq_ok happly
    -- The files of the pass at hand belong to no pass behind it.
    have hfresh' : ∀ q ∈ ps, ∀ e ∈ files ++ Stage.files ⟨p, noticed, c₁.noting p.name noticed⟩,
        Utf8.nameBytes e.1 ≠ Utf8.nameBytes q.summaryFile ∧ Utf8.nameBytes e.1 ≠ Utf8.nameBytes q.textFile := by
      intro q hq e he
      have hne : p ≠ q := fun heq => hp (heq ▸ hq)
      rcases List.mem_append.1 he with hold | hnew
      · exact hfresh q hq e hold
      · obtain ⟨hsummaries, htexts⟩ := (Pass.files_apart p q).2 hne
        rcases Stage.mem_files.1 hnew with rfl | ⟨-, rfl⟩
        · exact ⟨hsummaries, (Pass.files_apart p q).1⟩
        · exact ⟨(Pass.files_apart q p).1.symm, htexts⟩
    obtain ⟨stages, rfl, htrail, hfiled'⟩ := ih (c := c₁.noting p.name noticed) (hfiled.record _) (hartifacts.trans hdir)
      (htrace.trans hid) hps hfresh' hrest
    refine ⟨⟨p, noticed, c₁.noting p.name noticed⟩ :: stages, rfl, .cons happly htrail, ?_⟩
    simpa using hfiled'

end Filed

/-! What a trail tells of its stages. -/

theorem Pass.apply_keeps {p : Pass} {c c' : Context} {noticed : Json} (h : p.apply c = .ok (noticed, c')) :
    c'.rawInput = c.rawInput ∧ ∃ fields, noticed = .object fields := by
  cases p with
  | buildHash | browser | envelope =>
    obtain ⟨rfl, rfl⟩ := Prod.mk.inj (Except.ok.inj h)
    exact ⟨rfl, _, rfl⟩
  | rules =>
    obtain ⟨_, _, _, -, -, rfl, rfl⟩ := apply_rules_eq_ok h
    exact ⟨rfl, _, rfl⟩
  | capabilities =>
    obtain ⟨_, -, rfl, rfl⟩ := apply_capabilities_eq_ok h
    exact ⟨rfl, _, rfl⟩

namespace Trail

variable {c c' : Context} {stages : List Stage}

theorem keeps (h : Trail c stages c') :
    ∀ s ∈ stages, s.context.rawInput = c.rawInput ∧ ∃ fields, s.noticed = .object fields := by
  induction h with
  | nil c => simp
  | cons happly _ ih =>
    obtain ⟨hraw, hobject⟩ := Pass.apply_keeps happly
    refine List.forall_mem_cons.2 ⟨⟨hraw, hobject⟩, fun s hs => ?_⟩
    exact ⟨(ih s hs).1.trans hraw, (ih s hs).2⟩

theorem last {s : Stage} (h : Trail c (stages ++ [s]) c') :
    ∃ k c₁, s.pass.apply k = .ok (s.noticed, c₁) ∧ s.context = c₁.noting s.pass.name s.noticed ∧ c' = s.context := by
  induction stages generalizing c with
  | nil =>
    cases h with
    | cons happly hrest =>
      cases hrest
      exact ⟨_, _, happly, rfl, rfl⟩
  | cons s' stages ih =>
    cases h with
    | cons _ hrest => exact ih hrest

end Trail

/-- A place holds just this text, or nothing if the text is empty. -/
def HoldsText (d : Disk) (o : Place) (t : Text) : Prop :=
  t = [] ∧ d.entryAt o = none ∨ t ≠ [] ∧ Conversion.Holds d o t

/-- The directory at `D` and the file at `T` are the record of stages that lead from `c` to `c'`. -/
structure Recorded (c c' : Context) (stages : List Stage) (D T : Place) (d : Disk) : Prop where
  summaries : ∀ s ∈ stages, Conversion.Holds d (fileIn D (s.pass.name ++ ".json")) s.noticed.sorted.document
  input : .buildHash ∈ stages.map Stage.pass → HoldsText d (fileIn D "raw_input.js") c.rawInput
  texts : ∀ s ∈ stages, s.pass ≠ .buildHash → HoldsText d (fileIn D (s.pass.name ++ ".js")) s.context.stageText
  output : .envelope ∈ stages.map Stage.pass → HoldsText d (fileIn D "wrap.js") c'.output
  nothingElse : ∀ rest, rest ≠ [] → d.entryAt (D ++ rest) ≠ none →
    ∃ s ∈ stages, rest = [Utf8.nameBytes s.pass.summaryFile] ∨ rest = [Utf8.nameBytes s.pass.textFile]
  /-- A line for each stage, and nothing else. -/
  trace : ∃ text, Conversion.Holds d T text ∧ Text.splitAt '\n' text = stages.map Stage.line ++ [[]]
  visible : ∀ s ∈ stages, s.line.Visible
  objects : ∀ s ∈ stages, ∃ fields, s.noticed.sorted = .object fields

namespace Filed

variable {dir : Path} {D T : Place} {id : LogId} {w : Machine} {c c' : Context} {stages : List Stage}

theorem holds_content (h : Filed dir D id T (stages.flatMap Stage.files) (stages.map Stage.line) w)
    (hstages : (stages.map Stage.pass).Nodup) {s : Stage} (hs : s ∈ stages) :
    HoldsText w.disk (fileIn D s.pass.textFile) s.content := by
  by_cases hempty : s.content = []
  · refine .inl ⟨hempty, ?_⟩
    by_contra hentry
    obtain ⟨e, he, heq⟩ := h.nothingElse _ (by simp) hentry
    obtain ⟨s', hs', he⟩ := List.mem_flatMap.1 he
    rcases Stage.mem_files.1 he with rfl | ⟨hnonempty, rfl⟩
    · exact (Pass.files_apart s'.pass s.pass).1 (List.cons.inj heq).1.symm
    · have hpass : s'.pass = s.pass := by
        by_contra hne
        exact ((Pass.files_apart s'.pass s.pass).2 hne).2 (List.cons.inj heq).1.symm
      rw [List.inj_on_of_nodup_map hstages hs' hs hpass] at hnonempty
      exact hnonempty hempty
  · have hfile : (s.pass.textFile, s.content) ∈ s.files := Stage.mem_files.2 (.inr ⟨hempty, rfl⟩)
    exact .inr ⟨hempty, h.holds _ (List.mem_flatMap.2 ⟨s, hs, hfile⟩)⟩

theorem holds_stageText (h : Filed dir D id T (stages.flatMap Stage.files) (stages.map Stage.line) w)
    (hstages : (stages.map Stage.pass).Nodup) {s : Stage} (hs : s ∈ stages) (hpass : s.pass ≠ .buildHash) :
    HoldsText w.disk (fileIn D (s.pass.name ++ ".js")) s.context.stageText := by
  have hcontent := h.holds_content hstages hs
  rw [Stage.content] at hcontent
  cases hp : s.pass with
  | buildHash => exact absurd hp hpass
  | browser | rules | capabilities | envelope => rwa [hp] at hcontent

/-- The envelope comes last, so the text that it leaves is the output at the end. -/
theorem holds_output (h : Filed dir D id T (stages.flatMap Stage.files) (stages.map Stage.line) w)
    (htrail : Trail c stages c') (hbegins : stages.map Stage.pass <+: Pass.all)
    (hmem : .envelope ∈ stages.map Stage.pass) : HoldsText w.disk (fileIn D "wrap.js") c'.output := by
  have hall : stages.map Stage.pass = [.buildHash, .browser, .rules, .capabilities] ++ [.envelope] := by
    obtain ⟨behind, hall⟩ := hbegins
    cases behind with
    | nil => exact (List.append_nil _).symm.trans hall
    | cons p behind =>
      have hlast : .envelope ∈ p :: behind := by
        have hend : (stages.map Stage.pass ++ p :: behind).getLast? = some .envelope := by rw [hall]; rfl
        rw [List.getLast?_append_cons] at hend
        exact List.mem_of_getLast? hend
      have hnodup : (stages.map Stage.pass ++ p :: behind).Nodup := hall ▸ by decide
      exact absurd rfl ((List.nodup_append.1 hnodup).2.2 _ hmem _ hlast)
  obtain ⟨before, last, rfl, -, hlast⟩ := List.map_eq_append_iff.1 hall
  obtain ⟨s, rfl, hs⟩ := List.map_eq_singleton_iff.1 hlast
  obtain ⟨k, c₁, happly, hcontext, rfl⟩ := htrail.last
  have htext := h.holds_stageText (hbegins.sublist.nodup (by decide)) (by simp) (s := s) (by simp [hs])
  rw [hs] at happly htext
  obtain ⟨-, rfl⟩ := Prod.mk.inj (Except.ok.inj happly)
  have houtput : s.context.output = s.context.stageText := by
    rw [hcontext]
    rfl
  rwa [houtput]

theorem recorded (h : Filed dir D id T (stages.flatMap Stage.files) (stages.map Stage.line) w)
    (htrail : Trail c stages c') (hbegins : stages.map Stage.pass <+: Pass.all) :
    Recorded c c' stages D T w.disk where
  summaries s hs :=
    have hfile : (s.pass.summaryFile, s.noticed.sorted.document) ∈ s.files := Stage.mem_files.2 (.inl rfl)
    h.holds _ (List.mem_flatMap.2 ⟨s, hs, hfile⟩)
  input hmem := by
    obtain ⟨s, hs, hpass⟩ := List.mem_map.1 hmem
    have hcontent := h.holds_content (hbegins.sublist.nodup (by decide)) hs
    rw [Stage.content, hpass] at hcontent
    rwa [← (htrail.keeps s hs).1]
  texts s hs hpass := h.holds_stageText (hbegins.sublist.nodup (by decide)) hs hpass
  output hmem := h.holds_output htrail hbegins hmem
  nothingElse rest hrest hentry := by
    obtain ⟨e, he, hname⟩ := h.nothingElse rest hrest hentry
    obtain ⟨s, hs, he⟩ := List.mem_flatMap.1 he
    refine ⟨s, hs, ?_⟩
    rcases Stage.mem_files.1 he with rfl | ⟨-, rfl⟩
    · exact .inl hname
    · exact .inr hname
  trace := by
    have hvisible : ∀ t ∈ stages.map Stage.line, t.Visible := by
      intro t ht
      obtain ⟨s, -, rfl⟩ := List.mem_map.1 ht
      exact s.visible_line
    exact ⟨_, ⟨_, Text.encode_ofLines hvisible, h.logged⟩, Text.splitAt_ofLines hvisible⟩
  visible s _ := s.visible_line
  objects s hs := by
    obtain ⟨fields, heq⟩ := (htrail.keeps s hs).2
    rw [heq]
    exact ⟨_, rfl⟩

end Filed

/-- A directory that is there and empty, and a log that is open on an empty file and takes every line. -/
structure Ready (dir : Path) (D : Place) (id : LogId) (T : Place) (w : Machine) : Prop where
  grounded : w.Grounded
  located : w.disk.locate dir = .ok D
  directory : w.disk.entryAt D = some .directory
  empty : ∀ rest, rest ≠ [] → w.disk.entryAt (D ++ rest) = none
  log : w.logs[id]? = some ⟨T, 0, []⟩
  taken : ∀ n, w.refuses n (.append T) = none
  logged : w.disk.entryAt T = some (.file [])

theorem Ready.filed {dir : Path} {D T : Place} {id : LogId} {w : Machine} (h : Ready dir D id T w)
    (hjournal : w.JournalApart T) : Filed dir D id T [] [] w where
  grounded := h.grounded
  located := h.located
  directory := h.directory
  holds := by simp
  nothingElse rest hrest hentry := absurd (h.empty rest hrest) hentry
  log := h.log
  taken := h.taken
  logged := h.logged
  apart := by
    rintro rest rfl
    cases rest with
    | nil => simpa [h.directory] using h.logged
    | cons name rest => simpa [h.empty (name :: rest) (by simp)] using h.logged
  journal := hjournal
  journalOutside := by
    intro rest hrest id' hid' hplace
    obtain ⟨log, hlog, heq⟩ := List.mem_map.1 (List.mem_of_getElem? hplace)
    obtain ⟨bytes, hentry⟩ := h.grounded log hlog
    rw [heq, h.empty rest hrest] at hentry
    contradiction

namespace Pipeline

/-- How a run ends behind stages: with the last pass, or with one that misses a landmark. -/
inductive Ended (stages : List Stage) (c' : Context) : Except Failure (List (Text × Binary64)) → Prop where
  | ok {times : List (Text × Binary64)} : stages.map Stage.pass = Pass.all → Ended stages c' (.ok times)
  | absent {a : Absence} {p : Pass} {behind : List Pass} : Pass.all = stages.map Stage.pass ++ p :: behind →
      p.apply c' = .error (.absent a) → Ended stages c' (.error (.absent a))

/-- A run of all passes into an empty directory and an empty trace log, as far as everything can be written: if it
succeeds, or if a pass misses a landmark, then the files and the lines are the record of just the passes that have
succeeded. Each of them has taken up what the one before it handed on. -/
theorem run_recorded {c c' : Context} {w w' : Machine} {dir : Path} {D T : Place} {id : LogId}
    {result : Except Failure (List (Text × Binary64))} (hdir : c.artifacts = some dir) (hid : c.trace = some id)
    (hready : Ready dir D id T w) (hjournal : w.JournalApart T) (hrun : exec registry.run c w = (result, c', w'))
    (hends : (∃ times, result = .ok times) ∨ ∃ a, result = .error (.absent a)) :
    ∃ stages, Trail c stages c' ∧ Recorded c c' stages D T w'.disk ∧ Ended stages c' result := by
  have hall : Pass.all.Nodup := by decide
  have hfiled := hready.filed hjournal
  rcases exec_registry_run c w with
    ⟨times, k, w₁, hsucceeds, hok⟩ | ⟨done, p, behind, times, c₁, w₁, f, k, w₂, hsplit, hsucceeds, hfails, herror⟩
  · obtain ⟨rfl, rfl, rfl⟩ : .ok times = result ∧ k = c' ∧ w₁ = w' := by simpa [hok] using hrun
    obtain ⟨stages, hpasses, htrail, hrecord⟩ := hfiled.run hdir hid hall (by simp) hsucceeds
    exact ⟨stages, htrail, hrecord.recorded htrail (hpasses ▸ List.prefix_refl _), .ok hpasses⟩
  · obtain ⟨rfl, rfl, rfl⟩ : .error (Registry.blame p.name times f) = result ∧ k = c' ∧ w₂ = w' := by
      simpa [herror] using hrun
    obtain ⟨a, habsent⟩ : ∃ a, Registry.blame p.name times f = .absent a := by
      simpa using hends
    obtain rfl := Registry.eq_absent_of_blame habsent
    obtain ⟨happly, rfl, rfl⟩ | hunwritten := Pass.step_eq_error hfails
    · have hdone : done.Nodup := (List.nodup_append.1 (hsplit ▸ hall)).1
      obtain ⟨stages, rfl, htrail, hrecord⟩ := hfiled.run hdir hid hdone (by simp) hsucceeds
      exact ⟨stages, htrail, hrecord.recorded htrail ⟨_, hsplit.symm⟩, .absent hsplit happly⟩
    · cases hunwritten

open Pass

/-! Two passes on a script without landmarks, with their summaries in sorted form so that the run can be evaluated. -/

def recordSorted (name : Text) (summary sorted : Json) : Step (StateM Machine) Unit := do
  noteDown name summary
  let c ← current
  if let some id := c.trace then
    liftM (Host.logLine id (name ++ " " ++ sorted.line ++ "\n") : StateT Context (StateM Machine) Unit)
  if let some directory := c.artifacts then
    Host.writeText (directory.child (name ++ ".json")) sorted.document

def keepSorted (p : Pass) (summary sorted : Json) : Step (StateM Machine) Unit := do
  recordSorted p.name summary sorted
  let (name, content) := p.artifact (← current)
  writeArtifact name content

theorem exec_step_sorted {p : Pass} {c c₁ : Context} {noticed sorted : Json} (houtcome : p.outcome c = (.ok noticed, c₁))
    (hsorted : noticed.sorted = sorted) {w : Machine} (hok : (exec (keepSorted p noticed sorted) c₁ w).1.isOk = true) :
    exec p.step c w = (.ok (), c₁.noting p.name noticed, (exec (keepSorted p noticed sorted) c₁ w).2.2) := by
  have happly : p.apply c = .ok (noticed, c₁) := by rw [Pass.apply, houtcome]; rfl
  have hstep : exec p.step c w = exec (keepSorted p noticed sorted) c₁ w := by
    rw [step, exec_bind, exec_perform, happly, ← hsorted]
    rfl
  rcases hkeep : exec (keepSorted p noticed sorted) c₁ w with ⟨f | _, c', w'⟩
  · simp [hkeep, Except.isOk, Except.toBool] at hok
  rw [hkeep] at hstep
  obtain ⟨_, _, _, happly', rfl, -⟩ := step_eq_ok hstep
  obtain ⟨rfl, rfl⟩ := Prod.mk.inj (Except.ok.inj (happly.symm.trans happly'))
  exact hstep

def loggingMachine (runLog : Place) : Machine where
  disk := ⟨[([Utf8.nameBytes "a"], .directory), ([Utf8.nameBytes "t"], .file []), ([Utf8.nameBytes "l"], .file [])], []⟩
  room := 0
  logs := [⟨runLog, 0, []⟩, ⟨[Utf8.nameBytes "t"], 0, []⟩]
  journal := { file := some 0 }

def recordedContext : Context := { contextOf "x" Rule.defaultOrigin with artifacts := some (.ofText "a"), trace := some 1 }

def hashSummary : Json := .object [("hash", .text "unknown"), ("found", .bool false)]

def hashSorted : Json := .object [("found", .bool false), ("hash", .text "unknown")]

def stripSummary : Json :=
  .object [("input_length", .nat 1), ("output_length", .nat 1),
    ("replacements", .object [("window.", .nat 0), ("parent.", .nat 0), ("document.", .nat 0), (".innerHTML", .nat 0),
      ("getElementById(\"roomlink\")", .nat 0), ("getElementById(\"recaptcha\")", .nat 0)]),
    ("changed", .bool false)]

def stripSorted : Json :=
  .object [("changed", .bool false), ("input_length", .nat 1), ("output_length", .nat 1),
    ("replacements", .object [(".innerHTML", .nat 0), ("document.", .nat 0), ("getElementById(\"recaptcha\")", .nat 0),
      ("getElementById(\"roomlink\")", .nat 0), ("parent.", .nat 0), ("window.", .nat 0)])]

theorem hashSummary_sorted : hashSummary.sorted = hashSorted := by
  simp +decide [hashSummary, hashSorted, Json.sorted, Json.sortedFields, Table.sorted, List.mergeSort]

theorem stripSummary_sorted : stripSummary.sorted = stripSorted := by
  simp +decide [stripSummary, stripSorted, Json.sorted, Json.sortedFields, Table.sorted, List.mergeSort, Json.nat]

/-! What the first two passes hand on. -/

def hashedContext : Context := (Pass.buildHash.outcome recordedContext).2.noting Pass.buildHash.name hashSummary

def strippedContext : Context := (Pass.browser.outcome hashedContext).2.noting Pass.browser.name stripSummary

def afterHash (runLog : Place) : Except Failure Unit × Context × Machine :=
  exec (keepSorted .buildHash hashSummary hashSorted) (Pass.buildHash.outcome recordedContext).2 (loggingMachine runLog)

def hashedMachine (runLog : Place) : Machine :=
  (afterHash runLog).2.2.record (Registry.completion Pass.buildHash.name hashedContext (afterHash runLog).2.2)

def afterStrip (runLog : Place) : Except Failure Unit × Context × Machine :=
  exec (keepSorted .browser stripSummary stripSorted) (Pass.browser.outcome hashedContext).2 (hashedMachine runLog)

def strippedMachine (runLog : Place) : Machine :=
  (afterStrip runLog).2.2.record (Registry.completion Pass.browser.name strippedContext (afterStrip runLog).2.2)

theorem exec_loggingMachine (runLog : Place) (hfirst : (afterHash runLog).1.isOk = true)
    (hsecond : (afterStrip runLog).1.isOk = true) :
    ∃ a, exec registry.run recordedContext (loggingMachine runLog) =
      (.error (.absent a), strippedContext, strippedMachine runLog) := by
  have hhash : exec Pass.buildHash.step recordedContext (loggingMachine runLog) =
      (.ok (), hashedContext, (afterHash runLog).2.2) := exec_step_sorted rfl hashSummary_sorted hfirst
  have hnoticed : Pass.browser.outcome hashedContext = (.ok stripSummary, (Pass.browser.outcome hashedContext).2) :=
    Prod.ext rfl rfl
  have hkept := exec_step_sorted hnoticed stripSummary_sorted hsecond
  have hstrip : exec Pass.browser.step hashedContext (hashedMachine runLog) =
      (.ok (), strippedContext, (afterStrip runLog).2.2) := by
    rw [strippedContext, afterStrip]
    exact hkept
  obtain ⟨a, hrules⟩ : ∃ a, Pass.rules.apply strippedContext = .error (.absent a) := ⟨_, rfl⟩
  have hmiss : exec Pass.rules.step strippedContext (strippedMachine runLog) =
      (.error (.absent a), strippedContext, strippedMachine runLog) := Pass.exec_step_of_error hrules
  refine ⟨a, ?_⟩
  rw [Registry.run, registry_selected]
  change exec (Registry.runFrom [] (stepsOf Pass.all)) _ _ = _
  rw [Pass.all, exec_runFrom_ok hhash]
  change exec (Registry.runFrom _ (stepsOf (Pass.browser :: _))) hashedContext (hashedMachine runLog) = _
  rw [exec_runFrom_ok hstrip]
  change exec (Registry.runFrom _ (stepsOf (Pass.rules :: _))) strippedContext (strippedMachine runLog) = _
  rw [exec_runFrom_error hmiss]
  rfl

theorem ready_loggingMachine {runLog : Place} (h : (loggingMachine runLog).disk.entryAt runLog = some (.file [])) :
    Ready (.ofText "a") [Utf8.nameBytes "a"] 1 [Utf8.nameBytes "t"] (loggingMachine runLog) where
  grounded log hlog := by
    rcases List.mem_cons.1 hlog with rfl | hlog
    · exact ⟨[], h⟩
    · obtain rfl := List.mem_singleton.1 hlog
      exact ⟨[], rfl⟩
  located := rfl
  directory := rfl
  empty rest hrest := by
    simp [loggingMachine, Disk.entryAt, Disk.entryIn, hrest]
  log := rfl
  taken _ := rfl
  logged := rfl

theorem run_recorded_loggingMachine : ∃ a stages, exec registry.run recordedContext (loggingMachine [Utf8.nameBytes "l"]) =
      (.error (.absent a), strippedContext, strippedMachine [Utf8.nameBytes "l"]) ∧
    Trail recordedContext stages strippedContext ∧
    Recorded recordedContext strippedContext stages [Utf8.nameBytes "a"] [Utf8.nameBytes "t"]
      (strippedMachine [Utf8.nameBytes "l"]).disk := by
  obtain ⟨a, hrun⟩ := exec_loggingMachine [Utf8.nameBytes "l"] (by decide +kernel) (by decide +kernel)
  have hjournal : (loggingMachine [Utf8.nameBytes "l"]).JournalApart [Utf8.nameBytes "t"] := by
    intro id hid
    obtain rfl : 0 = id := by simpa [loggingMachine] using hid
    simp [Machine.LogApart, loggingMachine]
    decide
  obtain ⟨stages, htrail, hrecorded, -⟩ := run_recorded rfl rfl (ready_loggingMachine rfl) hjournal hrun (.inr ⟨a, rfl⟩)
  exact ⟨a, stages, hrun, htrail, hrecorded⟩

/-- A run log in the file of the trace log writes over its first line. -/
theorem head_strippedMachine : (Machine.bytesAt (strippedMachine [Utf8.nameBytes "t"]).disk [Utf8.nameBytes "t"]).head? =
    some 50 := by decide +kernel

/-- Without the condition on the run log the file of the trace log may hold something else than its lines. -/
theorem not_always_recorded : ¬ ∀ (c c' : Context) (w w' : Machine) (dir : Path) (D T : Place) (id : LogId)
    (result : Except Failure (List (Text × Binary64))), c.artifacts = some dir → c.trace = some id →
    Ready dir D id T w → exec registry.run c w = (result, c', w') →
    ((∃ times, result = .ok times) ∨ ∃ a, result = .error (.absent a)) →
    ∃ stages, Trail c stages c' ∧ Recorded c c' stages D T w'.disk ∧ Ended stages c' result := by
  intro h
  obtain ⟨a, hrun⟩ := exec_loggingMachine [Utf8.nameBytes "t"] (by decide +kernel) (by decide +kernel)
  obtain ⟨stages, -, hrecorded, hended⟩ :=
    h _ _ _ _ _ _ _ _ _ rfl rfl (ready_loggingMachine rfl) hrun (.inr ⟨a, rfl⟩)
  rcases hended with _ | ⟨hall, -⟩
  obtain ⟨text, ⟨bytes, hencode, hentry⟩, hlines⟩ := hrecorded.trace
  have hhead := head_strippedMachine
  rw [Machine.bytesAt, hentry] at hhead
  have htext := Text.join_splitAt '\n' text
  rw [hlines] at htext
  cases stages with
  | nil =>
    obtain rfl : [] = text := htext
    obtain rfl : [] = bytes := Except.ok.inj hencode
    simp at hhead
  | cons s stages =>
    have hpass : s.pass = .buildHash := (List.cons.inj hall).1.symm
    obtain ⟨t, rfl⟩ : ∃ t, text = "hash_extract" ++ t := by
      rw [← htext, List.map_cons, Stage.line, hpass]
      cases stages <;> exact ⟨_, by simp [Text.join, name]; rfl⟩
    unfold Utf8.encode at hencode
    split at hencode
    · obtain rfl := Except.ok.inj hencode
      obtain ⟨_, hbytes⟩ : ∃ rest, Utf8.bytes ("hash_extract" ++ t) = 104 :: rest := ⟨_, rfl⟩
      simp [hbytes] at hhead
    · cases hencode

end Pipeline
end Rehost
