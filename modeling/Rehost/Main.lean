import Rehost.Run.Command
import Rehost.Yaml.Document
import Std.Time.Format

/-! The program: a run on the machine itself. Each action of a host is one action of the system, and its errors keep
their numbers. -/
namespace Rehost

structure Session where
  logs : Array IO.FS.Handle := #[]
  journal : Journal := {}

abbrev Console := StateT Session IO

namespace Console

def numbered : IO.Error → Nat × String
  | .alreadyExists _ n text | .noFileOrDirectory _ n text | .permissionDenied _ n text | .invalidArgument _ n text
  | .resourceExhausted _ n text | .inappropriateType _ n text | .noSuchThing _ n text | .interrupted _ n text
  | .otherError n text | .resourceBusy n text | .resourceVanished n text | .unsupportedOperation n text
  | .hardwareFault n text | .unsatisfiedConstraints n text | .illegalOperation n text | .protocolError n text
  | .timeExpired n text => (n.toNat, text)
  | .unexpectedEof => (5, "Input/output error")
  | .userError text => (5, text)

def reasonOf (text : Text) : Reason := ⟨text.filter (· ≠ '\n'), by simp⟩

def faultOf (e : IO.Error) : DiskFault :=
  match numbered e with
  | (2, _) => .notFound
  | (17, _) => .alreadyThere
  | (20, _) => .notDirectory
  | (21, _) => .isDirectory
  | (28, _) => .unwritten 28 { text := "No space left on device" }
  | (n, text) => .other n (reasonOf text)

/-- An action on the file of a path, if a file can have that name and the name is text throughout. -/
def attempt (p : Path) (action : String → IO α) : IO (Except DiskFault α) := do
  if let some f := Disk.nameFault? p then return .error f
  if p.toText.any CodePoint.isHalf then
    return .error (.other 84 { text := "Invalid or incomplete multibyte or wide character" })
  return (← (action p.toText.toString).toBaseIO).mapError faultOf

def isDirectory (p : Path) : IO Bool := do
  return (← attempt p fun name => IO.FS.Handle.mk (name ++ "/.") .read).isOk

def makeOrKeep (p : Path) : IO (Except DiskFault Unit) := do
  match ← attempt p fun name => IO.FS.createDir name with
  | .ok () => return .ok ()
  | .error f => if f ≠ .notFound ∧ (← isDirectory p) then return .ok () else return .error f

/-- Makes a directory after its parents, at most `room` of them; the names come last one first. -/
def makeFrom (slashes room : Nat) : List Text → IO (Except DiskError Unit)
  | [] => return (← makeOrKeep ⟨slashes, []⟩).mapError (⟨·, ⟨slashes, []⟩⟩)
  | name :: names => do
    let p : Path := ⟨slashes, (name :: names).reverse⟩
    match ← makeOrKeep p with
    | .ok () => return .ok ()
    | .error .notFound =>
      if room = 0 then return .error ⟨.tooDeep, p⟩
      match ← makeFrom slashes (room - 1) names with
      | .error e => return .error e
      | .ok () => return (← makeOrKeep p).mapError (⟨·, p⟩)
    | .error f => return .error ⟨f, p⟩

def openLog (p : Path) : Console (Except DiskError LogId) := do
  match ← attempt p fun name => IO.FS.Handle.mk name .write with
  | .error f => return .error ⟨f, p⟩
  | .ok h =>
    let id := (← get).logs.size
    modify fun s => { s with logs := s.logs.push h }
    return .ok id

def complain (t : Text) : Console Unit := do
  let stream ← IO.getStderr
  stream.putStr t.toString
  stream.flush

def print (t : Text) : Console Unit := do
  let stream ← IO.getStdout
  stream.putStr t.toString
  stream.flush

def onLog (id : LogId) (action : IO.FS.Handle → IO Unit) : Console (Except DiskError Unit) := do
  let some h := (← get).logs[id]? | return .ok ()
  return (← (action h).toBaseIO).mapError (⟨faultOf ·, ⟨0, []⟩⟩)

def logLine (id : LogId) (line : Text) : Console Unit := do
  let result ← match Utf8.encode line with
    | .error g => pure (.error (Failure.unencodable g))
    | .ok bytes => do
      let result ← onLog id fun h => do
        h.write ⟨bytes.toArray⟩
        h.flush
      pure (result.mapError .disk)
  if let .error f := result then complain ("--- Logging error ---\n" ++ f.message ++ "\n")

def record (r : Record) : Console Unit := do
  let journal := (← get).journal
  if journal.accepts r then
    if let some id := journal.file then
      let stamp := (← Std.Time.PlainDateTime.now).format "uuuu-MM-dd HH:mm:ss"
      logLine id (r.fileLine stamp)
    if journal.verbose then complain r.terminalLine

/-- How many missing directories are made for one path. -/
def mostMissing : Nat := 985

/-- How far down settings are read. -/
def yamlRoom : Yaml.Room := ⟨491, 989⟩

def nanosecond : Float := 1e-9

instance : Host Console where
  read p := do
    let bytes ← attempt p fun name => do (← IO.FS.Handle.mk name .read).readBinToEnd
    return (bytes.map fun b => b.toList).mapError (⟨·, p⟩)
  write p bytes := do
    return (← attempt p fun name => IO.FS.writeBinFile name ⟨bytes.toArray⟩).mapError (⟨·, p⟩)
  makeDirectories p := makeFrom p.slashes mostMissing p.parts.reverse
  workingDirectory := return .ofText (toString (← IO.currentDir))
  openLog := openLog
  logLine := logLine
  closeLog id := onLog id fun h => h.flush
  readDocument t := return Yaml.read yamlRoom t
  setJournal journal := modify fun s => { s with journal }
  record := record
  print := print
  complain := complain
  timed action := do
    let start ← IO.monoNanosNow
    let a ← action
    let stop ← IO.monoNanosNow
    return (a, .ofFloat ((stop - start).toFloat * nanosecond))

end Console
end Rehost

def main (words : List String) : IO UInt32 := do
  let action : Rehost.Attempt Rehost.Console Nat := Rehost.Command.run (words.map Rehost.Text.ofString)
  let (result, _) ← action.run.run {}
  match result with
  | .ok code => return code.toUInt32
  | .error f =>
    (← IO.getStderr).putStrLn f.message.toString
    return 1
