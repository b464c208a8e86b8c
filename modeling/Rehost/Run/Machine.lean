import Rehost.Run.Host

/-! A machine in memory: a disk, the log files that are open, and what was printed. Any access to a file can meet a
fault, and faults come and go as a run goes on, so that a statement about every machine covers every fault at any
time. -/
namespace Rehost

inductive Access where
  | read (p : Path)
  | write (p : Path)
  | makeDirectories (p : Path)
  | openLog (p : Path)
  /-- Writes to a log file that is open at the place. -/
  | append (place : Place)
deriving DecidableEq, Repr

/-- An open log file: its place, where the next write goes, and what it has not taken yet. -/
structure LogFile where
  place : Place
  offset : Nat
  waiting : Bytes := []
deriving DecidableEq, Repr

inductive Complaint where
  | said (t : Text)
  /-- A record that the run log shows. -/
  | shown (r : Record)
  /-- A line that a log file did not get. -/
  | unlogged (f : Failure)
deriving Repr

/-- The wording of what keeps a line from a log is the host's. -/
def Complaint.text (unlogged : Failure → Text) : Complaint → Text
  | said t => t
  | shown r => r.terminalLine
  | .unlogged f => unlogged f

structure Machine where
  disk : Disk
  /-- How many missing directories are made for one path. -/
  room : Nat
  logs : List LogFile := []
  journal : Journal := {}
  /-- Everything that was recorded, whether or not the journal kept it. -/
  records : List Record := []
  output : Text := ""
  complaints : List Complaint := []
  /-- The time that log lines show. -/
  stamp : Text := "2000-01-01 00:00:00"
  /-- How long any action takes. -/
  pace : Binary64 := .zero
  /-- The document that a text is. -/
  documents : Text → Except Settings.Unreadable Settings.Document := fun _ => .error (.malformed "")
  /-- How often files were accessed. -/
  accesses : Nat := 0
  /-- The fault that an access meets whatever is on the disk, by how many accesses there were before. -/
  refuses : Nat → Access → Option DiskFault := fun _ _ => none

namespace Machine

def pathTo (place : Place) : Path := ⟨1, place.map Utf8.nameText⟩

def workingDirectory (s : Machine) : Path := pathTo s.disk.home

def fault? (a : Access) (s : Machine) : Option DiskFault := s.refuses s.accesses a

def tick (s : Machine) : Machine := { s with accesses := s.accesses + 1 }

def read (p : Path) (s : Machine) : Except DiskError Bytes × Machine :=
  match s.fault? (.read p) with
  | some f => (.error ⟨f, p⟩, s.tick)
  | none => ((s.disk.read p).mapError (⟨·, p⟩), s.tick)

def write (p : Path) (bytes : Bytes) (s : Machine) : Except DiskError Unit × Machine :=
  match s.fault? (.write p) with
  | some f => (.error ⟨f, p⟩, s.tick)
  | none =>
    match s.disk.write p bytes with
    | .error f => (.error ⟨f, p⟩, s.tick)
    | .ok disk => (.ok (), { s.tick with disk })

def makeDirectories (p : Path) (s : Machine) : Except DiskError Unit × Machine :=
  match s.fault? (.makeDirectories p) with
  | some f => (.error ⟨f, p⟩, s.tick)
  | none => ((s.disk.makeDirectories s.room p).2, { s.tick with disk := (s.disk.makeDirectories s.room p).1 })

def openLog (p : Path) (s : Machine) : Except DiskError LogId × Machine :=
  match s.fault? (.openLog p) with
  | some f => (.error ⟨f, p⟩, s.tick)
  | none =>
    match s.disk.writable p with
    | .error f => (.error ⟨f, p⟩, s.tick)
    | .ok place =>
      (.ok s.logs.length, { s.tick with disk := s.disk.set place (.file []), logs := s.logs ++ [⟨place, 0, []⟩] })

def bytesAt (d : Disk) (place : Place) : Bytes :=
  match d.entryAt place with
  | some (.file bytes) => bytes
  | _ => []

/-- Writes to a log, behind what it has not taken yet. What is refused waits for the next time. -/
def append (id : LogId) (bytes : Bytes) (s : Machine) : Except DiskError Unit × Machine :=
  match s.logs[id]? with
  | none => (.ok (), s)
  | some log =>
    let bytes := log.waiting ++ bytes
    match s.fault? (.append log.place) with
    | some f => (.error ⟨f, pathTo log.place⟩, { s.tick with logs := s.logs.set id { log with waiting := bytes } })
    | none =>
      (.ok (), { s.tick with
        disk := s.disk.set log.place (.file (Disk.writeAt log.offset bytes (bytesAt s.disk log.place)))
        logs := s.logs.set id ⟨log.place, log.offset + bytes.length, []⟩ })

/-- Closing a log that waits for something tries to write it, and once more behind a failure, which stays one. What the
log has not taken then is lost. -/
def closeLog (id : LogId) (s : Machine) : Except DiskError Unit × Machine :=
  match s.logs[id]? with
  | none => (.ok (), s)
  | some log =>
    if log.waiting.isEmpty then (.ok (), s)
    else
      match s.append id [] with
      | (.ok (), s) => (.ok (), s)
      | (.error e, s) =>
        match s.append id [] with
        | (.ok (), s) => (.error e, s)
        | (.error e, s) => (.error e, { s with logs := s.logs.modify id ({ · with waiting := [] }) })

def print (text : Text) (s : Machine) : Machine := { s with output := s.output ++ text }

def complain (x : Complaint) (s : Machine) : Machine := { s with complaints := s.complaints ++ [x] }

def logLine (id : LogId) (line : Text) (s : Machine) : Machine :=
  match Utf8.encode line with
  | .error g => s.complain (.unlogged (.unencodable g))
  | .ok bytes =>
    match s.append id bytes with
    | (.error e, s) => s.complain (.unlogged (.disk e))
    | (.ok (), s) => s

def file (r : Record) (s : Machine) : Machine :=
  let s := match s.journal.file with
    | some id => s.logLine id (r.fileLine s.stamp)
    | none => s
  if s.journal.verbose then s.complain (.shown r) else s

def record (r : Record) (s : Machine) : Machine :=
  let s := { s with records := s.records ++ [r] }
  if s.journal.accepts r then s.file r else s

instance : Host (StateM Machine) where
  read := read
  write := write
  makeDirectories := makeDirectories
  workingDirectory s := (s.workingDirectory, s)
  openLog := openLog
  logLine id line s := ((), s.logLine id line)
  closeLog := closeLog
  readDocument t s := (s.documents t, s)
  setJournal journal s := ((), { s with journal })
  record r s := ((), s.record r)
  print text s := ((), s.print text)
  complain text s := ((), s.complain (.said text))
  timed action s := let (a, s) := action s; ((a, s.pace), s)

end Machine
end Rehost
