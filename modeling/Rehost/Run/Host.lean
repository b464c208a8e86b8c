import Rehost.Failure
import Rehost.Run.Journal
import Rehost.Settings.Document
import Rehost.Text.Newline

/-! What a run asks of the machine it runs on. Actions on files answer with an error instead of failing, so that it is
the run that decides what an error stops. -/
namespace Rehost

class Host (m : Type → Type) where
  read : Path → m (Except DiskError Bytes)
  /-- Makes the file hold just these bytes. -/
  write : Path → Bytes → m (Except DiskError Unit)
  /-- Makes a directory and its parents; one that is there already is no error. -/
  makeDirectories : Path → m (Except DiskError Unit)
  workingDirectory : m Path
  /-- Empties the file and keeps it open; each log file has its own place to write on. -/
  openLog : Path → m (Except DiskError LogId)
  /-- Writes a line to a log file. One that cannot be written is complained of and stops nothing. -/
  logLine : LogId → Text → m Unit
  /-- Closes a log file. What it has not taken yet is written now, if it can be. -/
  closeLog : LogId → m (Except DiskError Unit)
  readDocument : Text → m (Except Settings.Unreadable Settings.Document)
  setJournal : Journal → m Unit
  /-- Writes a record to where the journal says. -/
  record : Record → m Unit
  print : Text → m Unit
  complain : Text → m Unit
  /-- The action's result and how long it took, in seconds. -/
  timed {α : Type} (action : m α) : m (α × Binary64)

/-- A host stays one when a state is threaded through. -/
instance [Monad m] [Host m] : Host (StateT σ m) where
  read p := StateT.lift (Host.read p)
  write p bytes := StateT.lift (Host.write p bytes)
  makeDirectories p := StateT.lift (Host.makeDirectories p)
  workingDirectory := StateT.lift Host.workingDirectory
  openLog p := StateT.lift (Host.openLog p)
  logLine id line := StateT.lift (Host.logLine id line)
  closeLog id := StateT.lift (Host.closeLog id)
  readDocument t := StateT.lift (Host.readDocument t)
  setJournal j := StateT.lift (Host.setJournal j)
  record r := StateT.lift (Host.record r)
  print s := StateT.lift (Host.print s)
  complain s := StateT.lift (Host.complain s)
  timed action := fun s => do
    let ((a, s), seconds) ← Host.timed (action s)
    return ((a, seconds), s)

namespace Host

variable {m : Type → Type} [Monad m] [Host m]

def attempt (action : m (Except DiskError α)) : Attempt m α :=
  ExceptT.mk do return (← action).mapError .disk

def fileSpeaker : Text := "nodeify.utils"

def note (speaker : Text) (level : Level) (message : Text) : Attempt m Unit :=
  liftM (Host.record ⟨speaker, level, message⟩ : m Unit)

def readText (p : Path) : Attempt m Text := do
  match Utf8.decode (← attempt (Host.read p)) with
  | .error f => throw (.undecodable f)
  | .ok t => return Text.unifyNewlines t

def readSource (p : Path) : Attempt m Text := do
  let t ← readText p
  note fileSpeaker .debug ("read " ++ p.toText ++ " (" ++ toString t.length ++ " chars)")
  return t

/-- Makes the file hold just this text. A text that has no bytes leaves the file empty. -/
def putText (p : Path) (t : Text) : Attempt m Unit := do
  match Utf8.encode t with
  | .ok bytes => attempt (Host.write p bytes)
  | .error g => do
    attempt (Host.write p [])
    throw (.unencodable g)

def writeText (p : Path) (t : Text) : Attempt m Unit := do
  attempt (Host.makeDirectories p.parent)
  putText p t
  note fileSpeaker .debug ("wrote " ++ p.toText ++ " (" ++ toString t.length ++ " chars)")

def openLogAt (p : Path) : Attempt m LogId := do
  attempt (Host.openLog (Path.absolute (← liftM (Host.workingDirectory : m Path)) p))

end Host
end Rehost
