import Mathlib.Logic.Function.Basic
import Rehost.Proofs.Run.Course

/-! What becomes of a trace log, whatever is done to it and in whatever order. A ledger says which file the messages go
to and which messages each file is to have; receivers and disk agree with it after every move. -/
namespace Rehost

namespace Machine

/-- Whatever else meets a fault, log files that are open take what they are given. -/
def LogsTake (w : Machine) : Prop := ∀ n place, w.refuses n (.append place) = none

/-- A log file and what there is of its text: what it holds, and behind that what it waits for. -/
structure Writes (w : Machine) (id : LogId) (place : Place) (held rest : Bytes) : Prop where
  log : w.logs[id]? = some ⟨place, held.length, rest⟩
  entry : w.disk.entryAt place = some (.file held)

/-- What has become of a log file: it holds the front of a text, all of it if no log is refused, and no other file has
changed. -/
structure Wrote (w : Machine) (place : Place) (text : Bytes) (w' : Machine) (held rest : Bytes) : Prop where
  entry : w'.disk.entryAt place = some (.file held)
  front : held ++ rest = text
  taken : w.LogsTake → rest = []
  others : ∀ o, o ≠ place → w'.disk.entryAt o = w.disk.entryAt o

variable {w w' : Machine} {id : LogId} {place : Place} {held rest : Bytes}

theorem LogsTake.of_steady (h : w.LogsTake) (hw : w.Steady w') : w'.LogsTake := fun n place => by
  rw [hw.refuses]
  exact h n place

theorem closeLog_of_logsTake (h : w.LogsTake) (id : LogId) : (w.closeLog id).1 = .ok () := by
  cases hclose : (w.closeLog id).1 with
  | ok _ => rfl
  | error e =>
    obtain ⟨place, n, f, -, hfault, -⟩ := closeLog_eq_error hclose
    simp [h n place] at hfault

/-- A log that is given bytes holds them behind what it held and waited for, or goes on waiting. -/
theorem Writes.append (h : w.Writes id place held rest) (bytes : Bytes) : ∃ held' rest',
    (w.append id bytes).2.Writes id place held' rest' ∧
      Wrote w place (held ++ rest ++ bytes) (w.append id bytes).2 held' rest' := by
  have hlt : id < w.logs.length := (List.getElem?_eq_some_iff.1 h.log).1
  rcases w.append_cases id bytes with ⟨hnone, -⟩ | ⟨log, hlog, hcases⟩
  · simp [h.log] at hnone
  obtain rfl : ⟨place, held.length, rest⟩ = log := Option.some.inj (h.log.symm.trans hlog)
  rcases hcases with ⟨f, hfault, hrefused⟩ | ⟨-, hwritten⟩
  · have hnot : ¬ w.LogsTake := fun htake => by simp [htake w.accesses place] at hfault
    rw [hrefused]
    exact ⟨held, rest ++ bytes, ⟨by simp [hlt], h.entry⟩, h.entry, (List.append_assoc ..).symm,
      fun htake => absurd htake hnot,
      fun _ _ => rfl⟩
  · have hroot : place ≠ [] := Disk.ne_root (d := w.disk) (by simp [h.entry])
    have hbytes : bytesAt w.disk place = held := by rw [bytesAt, h.entry]
    have hentry := Disk.entryAt_set_self w.disk place (.file (held ++ (rest ++ bytes))) hroot
    simp only [hbytes, Disk.writeAt_length] at hwritten
    rw [hwritten]
    exact ⟨held ++ (rest ++ bytes), [], ⟨by simp [hlt], hentry⟩, hentry, by simp, fun _ => rfl,
      fun o ho => Disk.entryAt_set_of_ne w.disk _ ho⟩

theorem Wrote.trans {w₁ w₂ : Machine} {text held₁ rest₁ : Bytes} (h : Wrote w place text w₁ held₁ rest₁)
    (hsteady : w.Steady w₁) (h' : Wrote w₁ place (held₁ ++ rest₁) w₂ held rest) : Wrote w place text w₂ held rest where
  entry := h'.entry
  front := h'.front.trans h.front
  taken htake := h'.taken (htake.of_steady hsteady)
  others o ho := (h'.others o ho).trans (h.others o ho)

theorem Writes.close (h : w.Writes id place held rest) :
    ∃ held' rest', Wrote w place (held ++ rest) (w.closeLog id).2 held' rest' := by
  cases hempty : rest.isEmpty with
  | true =>
    obtain rfl := List.isEmpty_iff.1 hempty
    refine ⟨held, [], ?_⟩
    simp only [closeLog, h.log, List.isEmpty_nil, if_true]
    exact ⟨h.entry, rfl, fun _ => rfl, fun _ _ => rfl⟩
  | false =>
    obtain ⟨held₁, rest₁, hwrites₁, hwrote₁⟩ := h.append []
    have hsteady := w.steady_append id []
    rw [List.append_nil] at hwrote₁
    simp only [closeLog, h.log, hempty, Bool.false_eq_true, if_false]
    rcases hfirst : w.append id [] with ⟨e | _, w₁⟩
    · rw [hfirst] at hwrites₁ hwrote₁ hsteady
      obtain ⟨held₂, rest₂, -, hwrote₂⟩ := hwrites₁.append []
      rw [List.append_nil] at hwrote₂
      simp only
      rcases hsecond : w₁.append id [] with ⟨e | _, w₂⟩
      · rw [hsecond] at hwrote₂
        exact ⟨held₂, rest₂, hwrote₁.trans hsteady ⟨hwrote₂.entry, hwrote₂.front, hwrote₂.taken, hwrote₂.others⟩⟩
      · rw [hsecond] at hwrote₂
        exact ⟨held₂, rest₂, hwrote₁.trans hsteady hwrote₂⟩
    · rw [hfirst] at hwrote₁
      exact ⟨held₁, rest₁, hwrote₁⟩

theorem sameFiles_makeDirectories (w : Machine) (p : Path) : Disk.SameFiles w.disk (w.makeDirectories p).2.disk := by
  unfold makeDirectories
  split
  · exact Disk.SameFiles.refl _
  · exact Disk.sameFiles_makeDirectories w.disk w.room p

theorem openLog_cases (w : Machine) (p : Path) : (∃ e, w.openLog p = (.error e, w.tick)) ∨
    ∃ id w', w.openLog p = (.ok id, w') ∧ w'.Writes id (w.disk.placeOf p) [] [] ∧ w'.refuses = w.refuses ∧
      ∀ o, o ≠ w.disk.placeOf p → w'.disk.entryAt o = w.disk.entryAt o := by
  unfold openLog
  split
  · exact .inl ⟨_, rfl⟩
  split
  · exact .inl ⟨_, rfl⟩
  · next place hplace =>
    obtain ⟨rfl, hentry⟩ := Disk.writable_eq_ok hplace
    refine .inr ⟨_, _, rfl, ⟨by simp, ?_⟩, rfl, fun o ho => Disk.entryAt_set_of_ne w.disk _ ho⟩
    exact Disk.entryAt_set_self w.disk _ _ (Disk.ne_root hentry)

end Machine

namespace TraceLog

def own (t : TraceLog) : List Receiver := t.receivers.filter (·.marked)

def foreign (t : TraceLog) : List Receiver := t.receivers.filter (!·.marked)

section
variable {t : TraceLog} {r : Receiver}

theorem own_eq_singleton (h : t.own = [r]) : ∃ before behind, t.receivers = before ++ r :: behind ∧ r.marked = true ∧
    (∀ x ∈ before, x.marked = false) ∧ ∀ x ∈ behind, x.marked = false := by
  obtain ⟨before, behind, hreceivers, hbefore, hmarked, hbehind⟩ := List.filter_eq_cons_iff.1 h
  exact ⟨before, behind, hreceivers, hmarked, by simpa using hbefore, by simpa using hbehind⟩

theorem receivers_remove (h : t.own = [r]) : (t.remove r).own = [] ∧ (t.remove r).foreign = t.foreign := by
  obtain ⟨before, behind, hreceivers, hmarked, hbefore, hbehind⟩ := own_eq_singleton h
  have hnot : r ∉ before := fun hr => by simp [hbefore r hr] at hmarked
  have herase : (t.remove r).receivers = before ++ behind := by
    change t.receivers.erase r = _
    rw [hreceivers, List.erase_append_right _ hnot, List.erase_cons_head]
  rw [own, foreign, foreign, herase, hreceivers]
  constructor
  · simpa using ⟨hbefore, hbehind⟩
  · simp [hmarked]

theorem own_add (t : TraceLog) (hmarked : r.marked = true) : (t.add r).own = t.own ++ [r] := by
  simp [own, add, hmarked]

theorem foreign_add (t : TraceLog) (hmarked : r.marked = true) : (t.add r).foreign = t.foreign := by
  simp [foreign, add, hmarked]

def listener (name : Text) : Receiver := ⟨.other name, false⟩

theorem own_listen (t : TraceLog) (name : Text) : (t.listen name).own = t.own := by
  unfold listen
  simp only
  split
  · rfl
  · simp [own, add]

theorem foreign_listen (t : TraceLog) (name : Text) :
    (t.listen name).foreign = if listener name ∈ t.foreign then t.foreign else t.foreign ++ [listener name] := by
  have hmem : listener name ∈ t.foreign ↔ ⟨.other name, false⟩ ∈ t.receivers := by simp [foreign, listener]
  unfold listen
  simp only [hmem]
  split
  · rfl
  · simp [foreign, add, listener]

theorem listen_level (t : TraceLog) (name : Text) :
    (t.listen name).level = t.level ∧ (t.listen name).propagates = t.propagates := by
  unfold listen
  simp only
  split <;> exact ⟨rfl, rfl⟩

end

structure Session where
  log : TraceLog
  machine : Machine

/-- What can be done to a trace log. A block is left with what it came to, be it a failure. -/
inductive Move where
  | open (p : Path)
  | close
  | enter (p : Option Path)
  | leave (p : Option Path) (result : Except Failure Unit)
  | listen (name : Text)
  | log (level : Level) (message : Text)

def Move.action : Move → Attempt (StateT TraceLog (StateM Machine)) Unit
  | .open p => do let _ ← TraceLog.open p
  | .close => TraceLog.close
  | .enter p => do let _ ← TraceLog.enter p
  | .leave p result => TraceLog.leave p result
  | .listen name => change (TraceLog.listen name)
  | .log level message => liftM (TraceLog.log level message : StateT TraceLog (StateM Machine) Unit)

def Move.ends : Move → Bool
  | .close => true
  | .leave p _ => p.isSome
  | _ => false

namespace Session

def exec {α : Type} (s : Session) (a : Attempt (StateT TraceLog (StateM Machine)) α) : Except Failure α × Session :=
  let ((result, log), machine) := (a.run.run s.log).run s.machine
  (result, ⟨log, machine⟩)

def after (s : Session) (move : Move) : Session := (s.exec move.action).2

def play (s : Session) (moves : List Move) : Session := moves.foldl after s

variable {α β : Type} {s : Session}

theorem play_concat (s : Session) (moves : List Move) (move : Move) :
    s.play (moves ++ [move]) = (s.play moves).after move := by
  simp [play]

theorem exec_bind (s : Session) (a : Attempt (StateT TraceLog (StateM Machine)) α)
    (f : α → Attempt (StateT TraceLog (StateM Machine)) β) :
    s.exec (a >>= f) =
      match s.exec a with
      | (.ok x, s') => s'.exec (f x)
      | (.error e, s') => (.error e, s') := by
  unfold exec
  rw [ExceptT.run_bind, StateT.run_bind, StateT.run_bind]
  generalize (a.run.run s.log).run s.machine = out
  obtain ⟨⟨_ | x, log⟩, w⟩ := out
  · rfl
  · rfl

theorem exec_makeDirectories (s : Session) (p : Path) :
    s.exec (Host.attempt (Host.makeDirectories p)) =
      ((s.machine.makeDirectories p).1.mapError .disk, { s with machine := (s.machine.makeDirectories p).2 }) := rfl

theorem exec_openLogAt (s : Session) (p : Path) :
    s.exec (Host.openLogAt p) =
      ((s.machine.openLog (Path.absolute s.machine.workingDirectory p)).1.mapError .disk,
        { s with machine := (s.machine.openLog (Path.absolute s.machine.workingDirectory p)).2 }) := rfl

theorem exec_current (s : Session) : s.exec current = (.ok s.log, s) := rfl

theorem exec_change (s : Session) (f : TraceLog → TraceLog) : s.exec (change f) = (.ok (), { s with log := f s.log }) :=
  rfl

theorem exec_closeTarget (s : Session) (id : LogId) : s.exec (closeTarget (.file id)) =
    ((s.machine.closeLog id).1.mapError .disk, { s with machine := (s.machine.closeLog id).2 }) := rfl

/-! Closing takes the log's own receivers off, and no other one. -/

theorem exec_closeEach_of_foreign {rs : List Receiver} (h : ∀ r ∈ rs, r.marked = false) (s : Session) :
    s.exec (closeEach rs) = (.ok (), s) := by
  induction rs with
  | nil => rfl
  | cons r rs ih =>
    obtain ⟨hr, hrs⟩ := List.forall_mem_cons.1 h
    simp only [closeEach, hr, Bool.false_eq_true, if_false]
    exact ih hrs

theorem exec_closeEach_of_single {before behind : List Receiver} {r : Receiver} (hmarked : r.marked = true)
    (hbefore : ∀ x ∈ before, x.marked = false) (hbehind : ∀ x ∈ behind, x.marked = false) (s : Session) :
    s.exec (closeEach (before ++ r :: behind)) =
      Session.exec { s with log := s.log.remove r } (closeTarget r.target) := by
  induction before with
  | nil =>
    simp only [List.nil_append, closeEach, hmarked, if_true, exec_bind, exec_change]
    rcases Session.exec { s with log := s.log.remove r } (closeTarget r.target) with ⟨_ | _, s'⟩
    · rfl
    · exact exec_closeEach_of_foreign hbehind s'
  | cons x before ih =>
    obtain ⟨hx, hbefore⟩ := List.forall_mem_cons.1 hbefore
    simp only [List.cons_append, closeEach, hx, Bool.false_eq_true, if_false]
    exact ih hbefore

theorem exec_close_of_nil (h : s.log.own = []) : s.exec TraceLog.close = (.ok (), s) := by
  rw [TraceLog.close, exec_bind, exec_current]
  exact exec_closeEach_of_foreign (by simpa [own] using h) s

theorem exec_close_of_single {r : Receiver} (h : s.log.own = [r]) :
    s.exec TraceLog.close = Session.exec { s with log := s.log.remove r } (closeTarget r.target) := by
  obtain ⟨before, behind, hreceivers, hmarked, hbefore, hbehind⟩ := own_eq_singleton h
  rw [TraceLog.close, exec_bind, exec_current]
  simp only [hreceivers]
  exact exec_closeEach_of_single hmarked hbefore hbehind s

theorem log_closeTarget (s : Session) (target : Target) : (s.exec (closeTarget target)).2.log = s.log := by
  cases target <;> rfl

/-- Whatever closing comes to, a single own receiver is off behind it. -/
theorem own_close (h : s.log.own.length ≤ 1) : (s.exec TraceLog.close).2.log.own = [] := by
  rcases hown : s.log.own with _ | ⟨r, _ | ⟨r', rs⟩⟩
  · rw [exec_close_of_nil hown, hown]
  · rw [exec_close_of_single hown, log_closeTarget]
    exact (receivers_remove hown).1
  · simp [hown] at h

/-! Opening makes the directory first, and then closes what there is. -/

theorem exec_open (s : Session) (p : Path) :
    s.exec (TraceLog.open p) =
      match s.machine.makeDirectories p.parent with
      | (.error e, w) => (.error (.disk e), { s with machine := w })
      | (.ok (), w) =>
        match Session.exec { s with machine := w } TraceLog.close with
        | (.error e, s') => (.error e, s')
        | (.ok (), s') =>
          let log := { s'.log with level := .debug, propagates := false }
          match s'.machine.openLog (Path.absolute s'.machine.workingDirectory p) with
          | (.error e, w') => (.error (.disk e), ⟨log, w'⟩)
          | (.ok id, w') => (.ok id, ⟨log.add ⟨.file id, true⟩, w'⟩) := by
  unfold TraceLog.open
  rw [exec_bind, exec_makeDirectories]
  rcases s.machine.makeDirectories p.parent with ⟨_ | _, w₁⟩
  · rfl
  simp only [mapError_ok, exec_bind]
  rcases Session.exec { s with machine := w₁ } TraceLog.close with ⟨_ | _, s₁⟩
  · rfl
  simp only [exec_change, exec_openLogAt]
  rcases s₁.machine.openLog (Path.absolute s₁.machine.workingDirectory p) with ⟨_ | id, w₂⟩
  · rfl
  · rfl

theorem after_open (s : Session) (p : Path) : s.after (.open p) = (s.exec (TraceLog.open p)).2 := by
  simp only [after, Move.action, exec_bind]
  rcases s.exec (TraceLog.open p) with ⟨_ | _, s'⟩
  · rfl
  · rfl

theorem exec_enter_some (s : Session) (p : Path) :
    s.exec (TraceLog.enter (some p)) = ((s.exec (TraceLog.open p)).1.map some, (s.exec (TraceLog.open p)).2) := by
  simp only [TraceLog.enter, map_eq_pure_bind, exec_bind]
  rcases s.exec (TraceLog.open p) with ⟨_ | _, s'⟩
  · rfl
  · rfl

theorem after_enter (s : Session) (p : Option Path) : s.after (.enter p) = (s.exec (TraceLog.enter p)).2 := by
  simp only [after, Move.action, exec_bind]
  rcases s.exec (TraceLog.enter p) with ⟨_ | _, s'⟩
  · rfl
  · rfl

theorem exec_leave_some (s : Session) (p : Path) (result : Except Failure α) :
    s.exec (TraceLog.leave (some p) result) =
      ((s.exec TraceLog.close).1 >>= fun _ => result, (s.exec TraceLog.close).2) := by
  simp only [TraceLog.leave, Option.isSome_some, if_true, exec_bind]
  rcases s.exec TraceLog.close with ⟨_ | _, s'⟩
  · rfl
  · rfl

/-- Leaving a block is the last thing that is done in it, whatever its action comes to. -/
theorem exec_around (s : Session) (p : Option Path)
    (action : Option LogId → Attempt (StateT TraceLog (StateM Machine)) α) :
    s.exec (TraceLog.around p action) =
      match s.exec (TraceLog.enter p) with
      | (.error e, s') => (.error e, s')
      | (.ok id, s') => (s'.exec (action id)).2.exec (TraceLog.leave p (s'.exec (action id)).1) := by
  rw [TraceLog.around, exec_bind]
  rcases s.exec (TraceLog.enter p) with ⟨_ | id, s'⟩
  · rfl
  · rfl

/-! A message is told to each receiver. -/

theorem tell_of_other {rs : List Receiver} (h : ∀ r ∈ rs, ∃ name, r.target = .other name) (message : Text)
    (t : TraceLog) (w : Machine) :
    ((tell message rs : StateT TraceLog (StateM Machine) Unit).run t).run w = (((), t), w) := by
  induction rs with
  | nil => rfl
  | cons r rs ih =>
    obtain ⟨⟨name, hname⟩, hrs⟩ := List.forall_mem_cons.1 h
    simp only [tell, hname]
    exact ih hrs

theorem tell_of_single {before behind : List Receiver} (id : LogId) (marked : Bool)
    (hbefore : ∀ r ∈ before, ∃ name, r.target = .other name) (hbehind : ∀ r ∈ behind, ∃ name, r.target = .other name)
    (message : Text) (t : TraceLog) (w : Machine) :
    ((tell message (before ++ ⟨.file id, marked⟩ :: behind) : StateT TraceLog (StateM Machine) Unit).run t).run w =
      (((), t), w.logLine id (message ++ "\n")) := by
  induction before with
  | nil => exact tell_of_other hbehind message t (w.logLine id (message ++ "\n"))
  | cons r before ih =>
    obtain ⟨⟨name, hname⟩, hbefore⟩ := List.forall_mem_cons.1 hbefore
    simp only [List.cons_append, tell, hname]
    exact ih hbefore

theorem after_log {level : Level} {message : Text} {w : Machine}
    (h : ((tell message s.log.receivers : StateT TraceLog (StateM Machine) Unit).run s.log).run s.machine =
      (((), s.log), w)) : s.after (.log level message) = if s.log.accepts level then { s with machine := w } else s := by
  have hlog : s.after (.log level message) =
      let out := ((TraceLog.log level message : StateT TraceLog (StateM Machine) Unit).run s.log).run s.machine
      ⟨out.1.2, out.2⟩ := rfl
  rw [hlog]
  cases haccepts : s.log.accepts level with
  | true =>
    have hrun : ((TraceLog.log level message : StateT TraceLog (StateM Machine) Unit).run s.log).run s.machine =
        ((tell message s.log.receivers : StateT TraceLog (StateM Machine) Unit).run s.log).run s.machine := by
      simp only [TraceLog.log, StateT.run_bind, StateT.run_get, pure_bind, haccepts, if_true]
    rw [hrun, h]
    rfl
  | false =>
    simp only [TraceLog.log, StateT.run_bind, StateT.run_get, pure_bind, haccepts, Bool.false_eq_true, if_false]
    rfl

end Session

/-- What ought to have become of a trace log. -/
structure Ledger where
  /-- The file that messages go to: that of the last opening that went well, unless it was closed since. -/
  current : Option Place := none
  /-- Whether some opening got past making the directory. -/
  passed : Bool := false
  /-- The receivers that others have added, each of them once. -/
  listeners : List Text := []
  /-- The messages for each file that was opened, since it was opened last. -/
  messages : Place → Option (List Text) := fun _ => none

namespace Ledger

/-- A message with lone halves has no bytes and is left out. -/
def noted (messages : List Text) (message : Text) : List Text :=
  if ∀ c ∈ message, c.isHalf = false then messages ++ [message] else messages

def opening (s : Session) (p : Path) (l : Ledger) : Ledger :=
  match (s.machine.makeDirectories p.parent).1, (s.exec (TraceLog.open p)).1 with
  | .error _, _ => l
  | .ok _, .error _ => { l with current := none, passed := true }
  | .ok _, .ok _ =>
    { l with
      current := some (s.machine.logPlace p)
      passed := true
      messages := Function.update l.messages (s.machine.logPlace p) (some []) }

def after (s : Session) (l : Ledger) : Move → Ledger
  | .open p | .enter (some p) => l.opening s p
  | .close | .leave (some _) _ => { l with current := none }
  | .enter none | .leave none _ => l
  | .listen name => if name ∈ l.listeners then l else { l with listeners := l.listeners ++ [name] }
  | .log _ message =>
    match l.current with
    | none => l
    | some place => { l with messages := Function.update l.messages place ((l.messages place).map (noted · message)) }

def along (l : Ledger) (s : Session) : List Move → Ledger
  | [] => l
  | move :: moves => (l.after s move).along (s.after move) moves

/-- A file that messages were meant for: it holds the front of them, all of them if no log is refused. The current one
is the one that gets what comes next. -/
structure Stocked (l : Ledger) (w : Machine) (s : Session) (place : Place) (messages : List Text) (held rest : Bytes) :
    Prop where
  entry : s.machine.disk.entryAt place = some (.file held)
  front : held ++ rest = Utf8.bytes (Text.ofLines messages)
  taken : w.LogsTake → rest = []
  current : l.current = some place → ∃ id, s.log.own = [⟨.file id, true⟩] ∧ s.machine.Writes id place held rest

/-- A session that stands as the ledger says, where all files but those of the ledger are those of the machine at the
beginning. -/
structure Stands (l : Ledger) (w : Machine) (s : Session) : Prop where
  idle : l.current = none → s.log.own = []
  busy : ∀ place, l.current = some place → l.passed = true ∧ s.log.level = .debug ∧
    ∃ messages, l.messages place = some messages
  propagates : s.log.propagates = !l.passed
  foreign : s.log.foreign = l.listeners.map listener
  files : ∀ place messages, l.messages place = some messages → ∃ held rest, Stocked l w s place messages held rest
  whole : ∀ place messages, l.messages place = some messages → ∀ m ∈ messages, ∀ c ∈ m, c.isHalf = false
  others : ∀ place, l.messages place = none → ∀ bytes,
    s.machine.disk.entryAt place = some (.file bytes) ↔ w.disk.entryAt place = some (.file bytes)
  refuses : s.machine.refuses = w.refuses

variable {l : Ledger} {w : Machine} {s : Session}

theorem stands_start (w : Machine) : Stands {} w ⟨{}, w⟩ where
  idle _ := rfl
  busy := by simp
  propagates := rfl
  foreign := rfl
  files := by simp
  whole := by simp
  others _ _ _ := Iff.rfl
  refuses := rfl

theorem Stands.logsTake (h : l.Stands w s) (htake : w.LogsTake) : s.machine.LogsTake := fun n place => by
  rw [h.refuses]
  exact htake n place

theorem Stands.of_sameFiles (h : l.Stands w s) {w' : Machine} (hfiles : Disk.SameFiles s.machine.disk w'.disk)
    (hlogs : w'.logs = s.machine.logs) (hrefuses : w'.refuses = s.machine.refuses) :
    l.Stands w { s with machine := w' } where
  idle := h.idle
  busy := h.busy
  propagates := h.propagates
  foreign := h.foreign
  files place messages hmessages := by
    obtain ⟨held, rest, hstocked⟩ := h.files place messages hmessages
    have hentry := (hfiles place held).2 hstocked.entry
    refine ⟨held, rest, hentry, hstocked.front, hstocked.taken, fun hcurrent => ?_⟩
    obtain ⟨id, hid, hwrites⟩ := hstocked.current hcurrent
    exact ⟨id, hid, by rw [hlogs]; exact hwrites.log, hentry⟩
  whole := h.whole
  others place hplace bytes := (hfiles _ _).trans (h.others place hplace bytes)
  refuses := hrefuses.trans h.refuses

theorem Stands.stop (h : l.Stands w s) (hidle : l.current = none) {passed : Bool} {t : TraceLog}
    (hown : t.own = s.log.own) (hforeign : t.foreign = s.log.foreign) (hpropagates : t.propagates = !passed) :
    Stands { l with passed } w { s with log := t } where
  idle hnone := by
    rw [hown]
    exact h.idle hnone
  busy place hplace := by simp [hidle] at hplace
  propagates := hpropagates
  foreign := hforeign.trans h.foreign
  files place messages hmessages := by
    obtain ⟨held, rest, hstocked⟩ := h.files place messages hmessages
    exact ⟨held, rest, hstocked.entry, hstocked.front, hstocked.taken, fun hcurrent => by simp [hidle] at hcurrent⟩
  whole := h.whole
  others := h.others
  refuses := h.refuses

theorem Stands.close_cases (h : l.Stands w s) : (l.current = none ∧ s.exec TraceLog.close = (.ok (), s)) ∨
    ∃ place messages id held rest, l.current = some place ∧ l.messages place = some messages ∧
      Stocked l w s place messages held rest ∧ s.log.own = [⟨.file id, true⟩] ∧ s.machine.Writes id place held rest ∧
      s.exec TraceLog.close = ((s.machine.closeLog id).1.mapError .disk,
        ⟨s.log.remove ⟨.file id, true⟩, (s.machine.closeLog id).2⟩) := by
  cases hcurrent : l.current with
  | none => exact .inl ⟨rfl, Session.exec_close_of_nil (h.idle hcurrent)⟩
  | some place =>
    obtain ⟨-, -, messages, hmessages⟩ := h.busy place hcurrent
    obtain ⟨held, rest, hstocked⟩ := h.files place messages hmessages
    obtain ⟨id, hown, hwrites⟩ := hstocked.current hcurrent
    refine .inr ⟨place, messages, id, held, rest, rfl, hmessages, hstocked, hown, hwrites, ?_⟩
    rw [Session.exec_close_of_single hown, Session.exec_closeTarget]

theorem Stands.close (h : l.Stands w s) : Stands { l with current := none } w (s.exec TraceLog.close).2 := by
  rcases h.close_cases with ⟨hidle, hclose⟩ | ⟨place, messages, id, held, rest, hcurrent, hmessages, hstocked, hown,
    hwrites, hclose⟩
  · have hsame : { l with current := none } = l := by rw [← hidle]
    rw [hclose, hsame]
    exact h
  obtain ⟨hgone, hforeign⟩ := receivers_remove hown
  obtain ⟨held', rest', hwrote⟩ := hwrites.close
  rw [hclose]
  refine ⟨fun _ => hgone, by simp, h.propagates, hforeign.trans h.foreign, fun o ms hms => ?_, h.whole,
    fun o ho bytes => ?_, ?_⟩
  · by_cases ho : o = place
    · subst ho
      obtain rfl := Option.some.inj (hms.symm.trans hmessages)
      exact ⟨held', rest', hwrote.entry, hwrote.front.trans hstocked.front, fun htake => hwrote.taken (h.logsTake htake),
        by simp⟩
    · obtain ⟨held₀, rest₀, hstocked₀⟩ := h.files o ms hms
      exact ⟨held₀, rest₀, (hwrote.others o ho).trans hstocked₀.entry, hstocked₀.front, hstocked₀.taken, by simp⟩
  · have hne : o ≠ place := by
      rintro rfl
      simp [hmessages] at ho
    change (s.machine.closeLog id).2.disk.entryAt o = _ ↔ _
    rw [hwrote.others o hne]
    exact h.others o ho bytes
  · exact (s.machine.steady_closeLog id).refuses.trans h.refuses

theorem Stands.close_eq_error (h : l.Stands w s) {f : Failure} (hclose : (s.exec TraceLog.close).1 = .error f) :
    l.passed = true ∧ ¬ w.LogsTake := by
  rcases h.close_cases with ⟨-, hnothing⟩ | ⟨place, messages, id, held, rest, hcurrent, -, -, -, -, hfile⟩
  · simp [hnothing] at hclose
  · refine ⟨(h.busy place hcurrent).1, fun htake => ?_⟩
    simp [hfile, Machine.closeLog_of_logsTake (h.logsTake htake)] at hclose

theorem home_close (h : l.Stands w s) : (s.exec TraceLog.close).2.machine.disk.home = s.machine.disk.home := by
  rcases h.close_cases with ⟨-, hclose⟩ | ⟨_, _, id, _, _, -, -, -, -, -, hclose⟩
  · rw [hclose]
  · rw [hclose]
    exact (s.machine.logged_closeLog id).home

theorem Stands.start (h : l.Stands w s) (hidle : l.current = none) {place : Place} {id : LogId} {w' : Machine}
    (hwrites : w'.Writes id place [] []) (hrefuses : w'.refuses = s.machine.refuses)
    (hothers : ∀ o, o ≠ place → w'.disk.entryAt o = s.machine.disk.entryAt o) :
    Stands { l with current := some place, passed := true, messages := Function.update l.messages place (some []) } w
      ⟨TraceLog.add ⟨.file id, true⟩ { s.log with level := .debug, propagates := false }, w'⟩ where
  idle hnone := by simp at hnone
  busy o ho := by
    obtain rfl : place = o := Option.some.inj ho
    exact ⟨rfl, rfl, [], Function.update_self ..⟩
  propagates := rfl
  foreign := (foreign_add _ rfl).trans h.foreign
  files o ms hms := by
    simp only [Function.update_apply] at hms
    split at hms
    · next heq =>
      subst heq
      obtain rfl := Option.some.inj hms
      refine ⟨[], [], hwrites.entry, rfl, fun _ => rfl, fun _ => ⟨id, ?_, hwrites⟩⟩
      have hown : TraceLog.own { s.log with level := .debug, propagates := false } = [] := h.idle hidle
      rw [own_add _ rfl, hown, List.nil_append]
    · next hne =>
      obtain ⟨held, rest, hstocked⟩ := h.files o ms hms
      refine ⟨held, rest, (hothers o hne).trans hstocked.entry, hstocked.front, hstocked.taken, fun hcurrent => ?_⟩
      exact absurd (Option.some.inj hcurrent).symm hne
  whole o ms hms := by
    simp only [Function.update_apply] at hms
    split at hms
    · obtain rfl := Option.some.inj hms
      simp
    · exact h.whole o ms hms
  others o ho bytes := by
    simp only [Function.update_apply] at ho
    split at ho
    · contradiction
    · next hne =>
      change w'.disk.entryAt o = _ ↔ _
      rw [hothers o hne]
      exact h.others o ho bytes
  refuses := hrefuses.trans h.refuses

theorem Stands.directed (h : l.Stands w s) (p : Path) :
    l.Stands w { s with machine := (s.machine.makeDirectories p).2 } := by
  have hfiles := s.machine.sameFiles_makeDirectories p
  obtain ⟨d, hd, -⟩ := s.machine.makeDirectories_eq p
  rw [hd] at hfiles ⊢
  exact h.of_sameFiles hfiles rfl rfl

theorem Stands.open (h : l.Stands w s) (p : Path) : (l.opening s p).Stands w (s.exec (TraceLog.open p)).2 := by
  have hdirected := h.directed p.parent
  have hhome := (s.machine.logged_makeDirectories p.parent).home
  have hopen := s.exec_open p
  rcases hmade : s.machine.makeDirectories p.parent with ⟨e | _, w₁⟩
  · -- without its directory no file is opened, so the old one stays
    rw [hmade] at hdirected hopen
    simp only [opening, hmade, hopen]
    exact hdirected
  rw [hmade] at hdirected hopen hhome
  have hclosed := hdirected.close
  have hfails := fun f => hdirected.close_eq_error (f := f)
  have hplace := (home_close hdirected).trans hhome
  rcases hclose : Session.exec { s with machine := w₁ } TraceLog.close with ⟨f | _, s₂⟩
  · rw [hclose] at hclosed hfails
    have hpassed : { l with current := none, passed := true } = { l with current := none } := by
      rw [← (hfails f rfl).1]
    simp only [hclose] at hopen
    simp only [opening, hmade, hopen, hpassed]
    exact hclosed
  rw [hclose] at hclosed hplace
  have hlog : s₂.machine.disk.placeOf (Path.absolute s₂.machine.workingDirectory p) = s.machine.logPlace p :=
    Machine.logPlace_congr hplace p
  simp only [hclose] at hopen
  rcases s₂.machine.openLog_cases (Path.absolute s₂.machine.workingDirectory p) with
    ⟨e, hrefused⟩ | ⟨id, w', hstarted, hwrites, hrefuses, hothers⟩
  · simp only [hrefused] at hopen
    simp only [opening, hmade, hopen]
    have hstopped : Stands { l with current := none, passed := true } w
        { s₂ with log := { s₂.log with level := .debug, propagates := false } } := hclosed.stop rfl rfl rfl rfl
    exact hstopped.of_sameFiles (Disk.SameFiles.refl _) rfl rfl
  · simp only [hstarted] at hopen
    simp only [opening, hmade, hopen]
    rw [hlog] at hwrites hothers
    exact hclosed.start rfl hwrites hrefuses hothers

theorem noted_of_whole (messages : List Text) {message : Text} (h : ∀ c ∈ message, c.isHalf = false) :
    noted messages message = messages ++ [message] := if_pos h

theorem noted_of_half (messages : List Text) {message : Text} (h : ∃ c ∈ message, c.isHalf = true) :
    noted messages message = messages := if_neg (by simpa using h)

theorem whole_noted {messages : List Text} (h : ∀ m ∈ messages, ∀ c ∈ m, c.isHalf = false) (message : Text) :
    ∀ m ∈ noted messages message, ∀ c ∈ m, c.isHalf = false := by
  unfold noted
  split
  · next hwhole => exact List.forall_mem_append.2 ⟨h, by simpa using hwhole⟩
  · exact h

theorem logLine_stocked {place : Place} {id : LogId} {held rest : Bytes} {messages : List Text} {v : Machine}
    (hwrites : v.Writes id place held rest) (hfront : held ++ rest = Utf8.bytes (Text.ofLines messages))
    (message : Text) (htaken : v.LogsTake → rest = []) : ∃ held' rest',
      (v.logLine id (message ++ "\n")).Writes id place held' rest' ∧
      Machine.Wrote v place (Utf8.bytes (Text.ofLines (noted messages message))) (v.logLine id (message ++ "\n")) held'
        rest' := by
  by_cases hwhole : ∀ c ∈ message, c.isHalf = false
  · have hline : ∀ c ∈ message ++ ("\n" : Text), c.isHalf = false := List.forall_mem_append.2 ⟨hwhole, by decide⟩
    have hencode := Text.encode_of_whole hline
    obtain ⟨held', rest', hwrites', hwrote⟩ := hwrites.append (Utf8.bytes (message ++ "\n"))
    rw [hfront, ← Text.bytes_ofLines_concat, ← noted_of_whole messages hwhole] at hwrote
    refine ⟨held', rest', ?_⟩
    simp only [Machine.logLine, hencode]
    rcases hrun : v.append id (Utf8.bytes (message ++ "\n")) with ⟨e | _, v'⟩
    · rw [hrun] at hwrites' hwrote
      exact ⟨⟨hwrites'.log, hwrites'.entry⟩, ⟨hwrote.entry, hwrote.front, hwrote.taken, hwrote.others⟩⟩
    · rw [hrun] at hwrites' hwrote
      exact ⟨hwrites', hwrote⟩
  · have hhalf : ∃ c ∈ message, c.isHalf = true := by simpa using hwhole
    obtain ⟨g, hg⟩ : ∃ g, Utf8.encode (message ++ "\n") = .error g := by
      obtain ⟨c, hc, hhalf⟩ := hhalf
      exact Text.encode_of_half ⟨c, List.mem_append_left _ hc, hhalf⟩
    rw [noted_of_half messages hhalf]
    refine ⟨held, rest, ?_⟩
    simp only [Machine.logLine, hg]
    exact ⟨⟨hwrites.log, hwrites.entry⟩, ⟨hwrites.entry, hfront, htaken, fun _ _ => rfl⟩⟩

theorem Stands.target_of_foreign (h : l.Stands w s) : ∀ r ∈ s.log.receivers, r.marked = false →
    ∃ name, r.target = .other name := by
  intro r hr hmarked
  have hforeign : r ∈ s.log.foreign := List.mem_filter.2 ⟨hr, by simp [hmarked]⟩
  rw [h.foreign] at hforeign
  obtain ⟨name, -, rfl⟩ := List.mem_map.1 hforeign
  exact ⟨name, rfl⟩

theorem Stands.after_log_idle (h : l.Stands w s) (hidle : l.current = none) (level : Level) (message : Text) :
    s.after (.log level message) = s := by
  have hnone : ∀ r ∈ s.log.receivers, r.marked = false := by simpa [own] using h.idle hidle
  rw [Session.after_log (Session.tell_of_other (fun r hr => h.target_of_foreign r hr (hnone r hr)) message _ _)]
  split <;> rfl

theorem Stands.after_log_busy (h : l.Stands w s) {place : Place} (hcurrent : l.current = some place) {id : LogId}
    (hown : s.log.own = [⟨.file id, true⟩]) (level : Level) (message : Text) :
    s.after (.log level message) = { s with machine := s.machine.logLine id (message ++ "\n") } := by
  obtain ⟨before, behind, hreceivers, -, hbefore, hbehind⟩ := own_eq_singleton hown
  have htarget := h.target_of_foreign
  rw [hreceivers] at htarget
  have haccepts : s.log.accepts level = true := by
    rw [accepts, (h.busy place hcurrent).2.1]
    cases level <;> rfl
  have htell := Session.tell_of_single id true (fun r hr => htarget r (List.mem_append_left _ hr) (hbefore r hr))
    (fun r hr => htarget r (List.mem_append_right _ (List.mem_cons_of_mem _ hr)) (hbehind r hr)) message s.log s.machine
  rw [← hreceivers] at htell
  rw [Session.after_log htell, if_pos haccepts]

theorem Stands.written (h : l.Stands w s) {place : Place} (hcurrent : l.current = some place) {id : LogId}
    (hown : s.log.own = [⟨.file id, true⟩]) {messages : List Text} {held rest : Bytes} {w' : Machine}
    (hwhole : ∀ m ∈ messages, ∀ c ∈ m, c.isHalf = false) (hwrites : w'.Writes id place held rest)
    (hwrote : Machine.Wrote s.machine place (Utf8.bytes (Text.ofLines messages)) w' held rest)
    (hrefuses : w'.refuses = s.machine.refuses) :
    Stands { l with messages := Function.update l.messages place (some messages) } w { s with machine := w' } where
  idle := h.idle
  busy o ho := by
    obtain rfl : place = o := Option.some.inj (hcurrent.symm.trans ho)
    obtain ⟨hpassed, hlevel, -⟩ := h.busy place hcurrent
    exact ⟨hpassed, hlevel, messages, Function.update_self ..⟩
  propagates := h.propagates
  foreign := h.foreign
  files o ms hms := by
    simp only [Function.update_apply] at hms
    split at hms
    · next heq =>
      subst heq
      obtain rfl := Option.some.inj hms
      exact ⟨held, rest, hwrote.entry, hwrote.front, fun htake => hwrote.taken (h.logsTake htake),
        fun _ => ⟨id, hown, hwrites⟩⟩
    · next hne =>
      obtain ⟨held₀, rest₀, hstocked⟩ := h.files o ms hms
      refine ⟨held₀, rest₀, (hwrote.others o hne).trans hstocked.entry, hstocked.front, hstocked.taken, fun ho => ?_⟩
      exact absurd (Option.some.inj (hcurrent.symm.trans ho)).symm hne
  whole o ms hms := by
    simp only [Function.update_apply] at hms
    split at hms
    · obtain rfl := Option.some.inj hms
      exact hwhole
    · exact h.whole o ms hms
  others o ho bytes := by
    simp only [Function.update_apply] at ho
    split at ho
    · contradiction
    · next hne =>
      change w'.disk.entryAt o = _ ↔ _
      rw [hwrote.others o hne]
      exact h.others o ho bytes
  refuses := hrefuses.trans h.refuses

theorem Stands.log (h : l.Stands w s) (level : Level) (message : Text) :
    (l.after s (.log level message)).Stands w (s.after (.log level message)) := by
  unfold Ledger.after
  cases hcurrent : l.current with
  | none =>
    rw [h.after_log_idle hcurrent]
    exact h
  | some place =>
    obtain ⟨-, -, messages, hmessages⟩ := h.busy place hcurrent
    obtain ⟨held, rest, hstocked⟩ := h.files place messages hmessages
    obtain ⟨id, hown, hwrites⟩ := hstocked.current hcurrent
    have htaken : s.machine.LogsTake → rest = [] := fun htake => hstocked.taken fun n o => h.refuses ▸ htake n o
    obtain ⟨held', rest', hwrites', hwrote⟩ := logLine_stocked hwrites hstocked.front message htaken
    rw [h.after_log_busy hcurrent hown]
    simp only [hmessages, Option.map_some, ← hcurrent]
    exact h.written hcurrent hown (whole_noted (h.whole place messages hmessages) message) hwrites' hwrote
      (s.machine.steady_logLine id _).refuses

theorem Stands.joined (h : l.Stands w s) {t : TraceLog} {listeners : List Text} (hown : t.own = s.log.own)
    (hlevel : t.level = s.log.level) (hpropagates : t.propagates = s.log.propagates)
    (hforeign : t.foreign = listeners.map listener) : Stands { l with listeners } w { s with log := t } where
  idle hnone := by
    rw [hown]
    exact h.idle hnone
  busy place hplace := by
    rw [hlevel]
    exact h.busy place hplace
  propagates := hpropagates.trans h.propagates
  foreign := hforeign
  files place messages hmessages := by
    obtain ⟨held, rest, hstocked⟩ := h.files place messages hmessages
    refine ⟨held, rest, hstocked.entry, hstocked.front, hstocked.taken, fun hcurrent => ?_⟩
    rw [hown]
    exact hstocked.current hcurrent
  whole := h.whole
  others := h.others
  refuses := h.refuses

theorem Stands.listen (h : l.Stands w s) (name : Text) :
    (l.after s (.listen name)).Stands w (s.after (.listen name)) := by
  have hlisten : s.after (.listen name) = { s with log := s.log.listen name } := rfl
  obtain ⟨hlevel, hpropagates⟩ := s.log.listen_level name
  have hown := s.log.own_listen name
  have hforeign := s.log.foreign_listen name
  have hmem : listener name ∈ l.listeners.map listener ↔ name ∈ l.listeners := by simp [listener]
  rw [h.foreign] at hforeign
  simp only [hmem] at hforeign
  rw [hlisten, Ledger.after]
  split
  · next hname =>
    rw [if_pos hname] at hforeign
    exact h.joined hown hlevel hpropagates hforeign
  · next hname =>
    rw [if_neg hname] at hforeign
    exact h.joined hown hlevel hpropagates (by simpa using hforeign)

theorem Stands.after (h : l.Stands w s) (move : Move) : (l.after s move).Stands w (s.after move) := by
  cases move with
  | «open» p =>
    rw [Session.after_open]
    exact h.open p
  | close => exact h.close
  | enter p =>
    rw [Session.after_enter]
    cases p with
    | none => exact h
    | some p =>
      rw [Session.exec_enter_some]
      exact h.open p
  | leave p result =>
    cases p with
    | none => exact h
    | some p =>
      have hleave : s.after (.leave (some p) result) = (s.exec TraceLog.close).2 :=
        congrArg (·.2) (s.exec_leave_some p result)
      rw [hleave]
      exact h.close
  | listen name => exact h.listen name
  | log level message => exact h.log level message

theorem Stands.play (h : l.Stands w s) (moves : List Move) : (l.along s moves).Stands w (s.play moves) := by
  induction moves generalizing l s with
  | nil => exact h
  | cons move moves ih => exact ih (h.after move)

end Ledger
/-- The receivers of a trace log after moves that began with a new one. -/
structure OneOwnReceiver (moves : List Move) (l : Ledger) (s : Session) : Prop where
  single : s.log.own.length ≤ 1
  ended : ∀ before move, moves = before ++ [move] → move.ends = true → s.log.own = []
  idle : l.current = none ↔ s.log.own = []
  foreign : s.log.foreign = l.listeners.map listener
  listeners : ∀ name, name ∈ l.listeners ↔ .listen name ∈ moves
  propagates : s.log.propagates = !l.passed

/-- The files of a trace log after moves that began with a new one on some machine. Whatever is refused, a file gets
nothing but the messages that were meant for it, in order; where no open log is refused it gets all of them. -/
structure FilesGetMessages (w : Machine) (l : Ledger) (s : Session) : Prop where
  current : ∀ place, l.current = some place → ∃ id messages, s.log.own = [⟨.file id, true⟩] ∧
    (s.machine.logs.map LogFile.place)[id]? = some place ∧ l.messages place = some messages
  front : ∀ place messages, l.messages place = some messages → ∃ held rest,
    s.machine.disk.entryAt place = some (.file held) ∧ held ++ rest = Utf8.bytes (Text.ofLines messages)
  whole : w.LogsTake → ∀ place messages, l.messages place = some messages →
    Conversion.Holds s.machine.disk place (Text.ofLines messages)
  others : ∀ place, l.messages place = none → ∀ bytes,
    s.machine.disk.entryAt place = some (.file bytes) ↔ w.disk.entryAt place = some (.file bytes)

/-- A block that is entered does what its action does, and is left in any case with what that comes to; one that
cannot be entered does nothing, and one without a path is its action. -/
structure BlocksAreLeft (s : Session) : Prop where
  plain : ∀ action : Option LogId → Attempt (StateT TraceLog (StateM Machine)) Unit,
    s.exec (TraceLog.around none action) = s.exec (action none)
  entered : ∀ (p : Option Path) (action : Option LogId → Attempt (StateT TraceLog (StateM Machine)) Unit) id s',
    s.exec (TraceLog.enter p) = (.ok id, s') → s.exec (TraceLog.around p action) =
      (s'.exec (action id)).2.exec (Move.action (.leave p (s'.exec (action id)).1))
  left : ∀ (p : Path) (action : Option LogId → Attempt (StateT TraceLog (StateM Machine)) Unit) id s',
    s.exec (TraceLog.enter (some p)) = (.ok id, s') → (s'.exec (action id)).2.log.own.length ≤ 1 →
    (s.exec (TraceLog.around (some p) action)).2.log.own = []
  barred : ∀ (p : Option Path) (action : Option LogId → Attempt (StateT TraceLog (StateM Machine)) Unit) f s',
    s.exec (TraceLog.enter p) = (.error f, s') → s.exec (TraceLog.around p action) = (.error f, s')

theorem listeners_after (l : Ledger) (s : Session) (move : Move) (name : Text) :
    name ∈ (l.after s move).listeners ↔ name ∈ l.listeners ∨ .listen name = move := by
  have hopening : ∀ p, (l.opening s p).listeners = l.listeners := by
    intro p
    unfold Ledger.opening
    split <;> rfl
  cases move with
  | «open» p => simp [Ledger.after, hopening]
  | close => simp [Ledger.after]
  | enter p => cases p <;> simp [Ledger.after, hopening]
  | leave p result => cases p <;> simp [Ledger.after]
  | listen other =>
    by_cases hother : other ∈ l.listeners
    · simp only [Ledger.after, hother, if_true, Move.listen.injEq]
      exact ⟨.inl, fun h => h.elim id fun heq => heq ▸ hother⟩
    · simp [Ledger.after, hother]
  | log level message =>
    unfold Ledger.after
    cases l.current <;> simp

theorem listeners_along (l : Ledger) (s : Session) (moves : List Move) (name : Text) :
    name ∈ (l.along s moves).listeners ↔ name ∈ l.listeners ∨ .listen name ∈ moves := by
  induction moves generalizing l s with
  | nil => simp [Ledger.along]
  | cons move moves ih =>
    rw [Ledger.along, ih, listeners_after, List.mem_cons, or_assoc]

namespace Ledger

variable {l : Ledger} {w : Machine} {s : Session}

theorem Stands.own_of_current (h : l.Stands w s) {place : Place} (hcurrent : l.current = some place) :
    ∃ id messages held rest, s.log.own = [⟨.file id, true⟩] ∧ l.messages place = some messages ∧
      s.machine.Writes id place held rest := by
  obtain ⟨-, -, messages, hmessages⟩ := h.busy place hcurrent
  obtain ⟨held, rest, hstocked⟩ := h.files place messages hmessages
  obtain ⟨id, hown, hwrites⟩ := hstocked.current hcurrent
  exact ⟨id, messages, held, rest, hown, hmessages, hwrites⟩

theorem Stands.single (h : l.Stands w s) : s.log.own.length ≤ 1 := by
  cases hcurrent : l.current with
  | none => simp [h.idle hcurrent]
  | some place =>
    obtain ⟨id, -, -, -, hown, -⟩ := h.own_of_current hcurrent
    simp [hown]

theorem Stands.filesGetMessages (h : l.Stands w s) : FilesGetMessages w l s where
  current place hcurrent := by
    obtain ⟨id, messages, held, rest, hown, hmessages, hwrites⟩ := h.own_of_current hcurrent
    exact ⟨id, messages, hown, by simp [hwrites.log], hmessages⟩
  front place messages hmessages := by
    obtain ⟨held, rest, hstocked⟩ := h.files place messages hmessages
    exact ⟨held, rest, hstocked.entry, hstocked.front⟩
  whole htake place messages hmessages := by
    obtain ⟨held, rest, hstocked⟩ := h.files place messages hmessages
    obtain rfl := hstocked.taken htake
    refine ⟨_, Text.encode_of_whole (Text.whole_ofLines (h.whole place messages hmessages)), ?_⟩
    rw [← hstocked.front, List.append_nil]
    exact hstocked.entry
  others := h.others

end Ledger

theorem own_after_ends {s : Session} (hsingle : s.log.own.length ≤ 1) {move : Move} (h : move.ends = true) :
    (s.after move).log.own = [] := by
  cases move with
  | close => exact Session.own_close hsingle
  | leave p result =>
    obtain ⟨p, rfl⟩ := Option.isSome_iff_exists.1 h
    have hleave : s.after (.leave (some p) result) = (s.exec TraceLog.close).2 := congrArg (·.2) (s.exec_leave_some p result)
    rw [hleave]
    exact Session.own_close hsingle
  | _ => simp [Move.ends] at h

theorem blocksAreLeft (s : Session) : BlocksAreLeft s where
  plain action := by
    rw [Session.exec_around]
    rfl
  entered p action id s' henter := by
    rw [Session.exec_around, henter]
    rfl
  left p action id s' henter hsingle := by
    rw [Session.exec_around, henter]
    simp only [Session.exec_leave_some]
    exact Session.own_close hsingle
  barred p action f s' henter := by rw [Session.exec_around, henter]

/-- Whatever is done to a trace log, it has at most one receiver of its own, and each file gets the messages of its
time; a block is its entering and its leaving, with whatever is done in between. -/
theorem play_accounted (w : Machine) (moves : List Move) :
    OneOwnReceiver moves (Ledger.along {} ⟨{}, w⟩ moves) (Session.play ⟨{}, w⟩ moves) ∧
      FilesGetMessages w (Ledger.along {} ⟨{}, w⟩ moves) (Session.play ⟨{}, w⟩ moves) ∧
      BlocksAreLeft (Session.play ⟨{}, w⟩ moves) := by
  have hstands := (Ledger.stands_start w).play moves
  refine ⟨⟨hstands.single, ?_, ⟨hstands.idle, fun hown => ?_⟩, hstands.foreign,
    fun name => by simp [listeners_along], hstands.propagates⟩, hstands.filesGetMessages, blocksAreLeft _⟩
  · rintro before move rfl hends
    rw [Session.play_concat]
    exact own_after_ends ((Ledger.stands_start w).play before).single hends
  · cases hcurrent : (Ledger.along {} ⟨{}, w⟩ moves).current with
    | none => rfl
    | some place =>
      obtain ⟨id, _, _, _, hid, -⟩ := hstands.own_of_current hcurrent
      simp [hid] at hown

def bareMachine : Machine where
  disk := ⟨[], []⟩
  room := 0

def nestedMoves : List Move :=
  [.open (Path.ofText "t"), .listen "x", .log .debug "one", .enter (some (Path.ofText "u")), .log .info "two",
    .leave (some (Path.ofText "u")) (.ok ()), .log .error "three"]

theorem play_accounted_nestedMoves :
    let s := Session.play ⟨{}, bareMachine⟩ nestedMoves
    s.log.own = [] ∧ s.log.foreign = [listener "x"] ∧ s.log.propagates = false ∧
      Conversion.Holds s.machine.disk [Utf8.nameBytes "t"] "one\n" ∧
      Conversion.Holds s.machine.disk [Utf8.nameBytes "u"] "two\n" := by
  intro s
  obtain ⟨hreceivers, hfiles, -⟩ := play_accounted bareMachine nestedMoves
  have htake : bareMachine.LogsTake := fun _ _ => rfl
  refine ⟨hreceivers.idle.1 (by decide +kernel), hreceivers.foreign.trans (by decide +kernel),
    hreceivers.propagates.trans (by decide +kernel), ?_, ?_⟩
  · exact hfiles.whole htake _ ["one"] (by decide +kernel)
  · exact hfiles.whole htake _ ["two"] (by decide +kernel)

/-- A message that is a lone half gets into no file, though a file is open for it. -/
theorem not_every_message_kept : ¬ ∀ (w : Machine) (moves : List Move) (level : Level) (message : Text) (place : Place),
    (Ledger.along {} ⟨{}, w⟩ moves).current = some place → w.LogsTake → ∃ line, line ≠ [] ∧
      Machine.bytesAt (Session.play ⟨{}, w⟩ (moves ++ [.log level message])).machine.disk place =
        Machine.bytesAt (Session.play ⟨{}, w⟩ moves).machine.disk place ++ line := by
  intro h
  obtain ⟨line, hline, happend⟩ := h bareMachine [.open (Path.ofText "t")] .debug [.ofNat 0xd800] [Utf8.nameBytes "t"]
    (by decide +kernel) fun _ _ => rfl
  have hbefore : Machine.bytesAt (Session.play ⟨{}, bareMachine⟩ [.open (Path.ofText "t")]).machine.disk
      [Utf8.nameBytes "t"] = [] := by decide +kernel
  have hafter : Machine.bytesAt (Session.play ⟨{}, bareMachine⟩
      ([.open (Path.ofText "t")] ++ [.log .debug [.ofNat 0xd800]])).machine.disk [Utf8.nameBytes "t"] = [] := by
    decide +kernel
  rw [hbefore, hafter] at happend
  exact hline happend.symm

end TraceLog
end Rehost
