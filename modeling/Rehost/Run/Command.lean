import Rehost.CommandLine.Usage
import Rehost.Run.Conversion
import Rehost.Run.TraceLog

/-! A run from the command line. Settings come from the defaults, a file and the options, each on top of the one before.
A run ends with one line that says whether it succeeded; a failure that is not reported in that way ends the program. -/
namespace Rehost

namespace CommandLine

open Settings (Given)

def Supplied.given : Supplied → Given
  | absent => .null
  | text s => .text s
  | voided => .other "list"

def Arguments.overrides (a : Arguments) : List (Given × Given) :=
  [(Settings.Field.inputPath, a.input), (.outputPath, a.output), (.origin, a.origin), (.artifacts, a.artifacts),
    (.reportPath, a.reportPath)].map fun e => (.text e.1.name, e.2.given)

end CommandLine

namespace Command

open CommandLine

variable {m : Type → Type} [Monad m] [Host m]

def speaker : Text := Conversion.speaker

def openJournal (a : Arguments) : Attempt m Unit := do
  liftM (Host.setJournal {} : m Unit)
  let file ← match a.logFile.nonempty? with
    | none => pure none
    | some name => do
      let p := Path.ofText name
      Host.attempt (Host.makeDirectories p.parent)
      some <$> Host.openLogAt p
  liftM (Host.setJournal { file, verbose := a.verbose } : m Unit)

def settingsOf (a : Arguments) : Attempt m Settings := do
  let base ← match a.config.nonempty? with
    | none => pure {}
    | some name => Settings.load (.ofText name)
  ExceptT.mk (pure (base.merged a.overrides))

def initialReport (s : Settings) : Report :=
  { inputPath := some s.inputPath.toText, outputPath := some s.outputPath.toText }

/-- Writes the report if it has a place. A disk that does not take it is noted and stops nothing. -/
def writeReport (p : Option Path) (r : Report) : Attempt m Unit := do
  let some p := p | return
  match ← liftM (Host.writeText p r.toJson.document : Attempt m Unit).run with
  | .ok () => pure ()
  | .error f =>
    match f with
    | .disk e =>
      if f.isReported then Host.note speaker .error ("failed writing report to " ++ p.toText ++ ": " ++ e.message)
      else throw f
    | f => throw f

def summarise (s : Settings) (r : Report) : Attempt m Unit := do
  Host.note speaker .info ("run summary:\n" ++ r.text)
  writeReport s.reportPath r

/-- The end of a run that failed; with settings there is a report too. -/
def fail (f : Failure) (known : Option (Settings × Report)) : Attempt m Nat := do
  if !f.isReported then throw f
  Host.note speaker .error ("nodeify failed: " ++ f.message)
  if let some (s, r) := known then summarise s { r with errors := r.errors ++ [f.message] }
  liftM (Host.complain ("ERROR:" ++ f.message ++ "\n") : m Unit)
  return 1

def noteWarnings : List Text → Attempt m Unit
  | [] => pure ()
  | w :: ws => do
    Host.note speaker .warning w
    noteWarnings ws

def succeed (a : Arguments) (s : Settings) (c : Context) (times : List (Text × Binary64)) : Attempt m Nat := do
  noteWarnings c.report.warnings
  summarise s c.report
  if a.profile then liftM (Host.complain (Registry.timeTable times ++ "\n") : m Unit)
  liftM (Host.print ("SUCCESS:" ++ c.hash ++ "\n") : m Unit)
  return 0

def convert (a : Arguments) (s : Settings) : Step m (List (Text × Binary64)) :=
  let path := a.debugLog.nonempty?.map Path.ofText
  ExceptT.mk (Prod.fst <$> (TraceLog.during path (Conversion.run s a.dryRun)).run.run {})

def runArguments (a : Arguments) : Attempt m Nat := do
  openJournal a
  match ← liftM (settingsOf a : Attempt m Settings).run with
  | .error f => fail f none
  | .ok s =>
    let (result, c) ← liftM ((convert a s).run.run { report := initialReport s } : m _)
    match result with
    | .error f => fail f (some (s, c.report))
    | .ok times => succeed a s c times

def run (words : List Text) : Attempt m Nat := do
  match Arguments.parse words with
  | .ok a => runArguments a
  | .error stop =>
    let (code, output, complaint) := stop.report
    liftM (Host.print output : m Unit)
    liftM (Host.complain complaint : m Unit)
    return code

end Command
end Rehost
