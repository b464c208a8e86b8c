import Rehost.Run.Host
import Rehost.Script.BuildHash
import Rehost.Value.Document
import Rehost.Value.Summary

/-! The context of a run: the one text that the passes hand on, and everything that is noted down on the way. -/
namespace Rehost

structure Context where
  rawInput : Text := []
  inputPath : Option Path := none
  /-- The text that the next pass takes up. -/
  stageText : Text := []
  output : Text := []
  hash : Text := BuildHash.unknown
  /-- Named values; anything but a table of them is of no use. -/
  options : Value := .table []
  notes : Table Value := []
  artifacts : Option Path := none
  trace : Option LogId := none
  report : Report := {}
  limits : Value.Limits := .usual
deriving Inhabited

/-- A step of a run changes the context; where it fails, what it changed before stays changed. -/
abbrev Step (m : Type → Type) := Attempt (StateT Context m)

namespace Context

/-- The first stage is the input, unless a stage is given. -/
def prepared (c : Context) : Context :=
  { c with
    stageText := if c.stageText.isEmpty then c.rawInput else c.stageText
    report := { c.report with
      inputLength := c.rawInput.length
      inputPath := c.report.inputPath <|> c.inputPath.map Path.toText } }

section
variable {m : Type → Type} [Monad m]

def change (f : Context → Context) : Step m Unit := liftM (modify f : StateT Context m Unit)

def current : Step m Context := liftM (get : StateT Context m Context)

def amend (f : Report → Report) : Step m Unit := change fun c => { c with report := f c.report }

def fromExcept (x : Except Failure α) : Step m α := ExceptT.mk (pure x)

end

variable {m : Type → Type} [Monad m] [Host m]

def start (c : Context) : Step m Unit := do
  change fun _ => c.prepared
  if let some directory := c.artifacts then Host.attempt (Host.makeDirectories directory)

def traceLine (name : Text) (summary : Json) : Text := name ++ " " ++ summary.sorted.line ++ "\n"

def keep (name : Text) (summary : Json) : Step m Unit := do
  let c ← current
  if let some id := c.trace then
    liftM (Host.logLine id (traceLine name summary) : StateT Context m Unit)
  if let some directory := c.artifacts then
    Host.writeText (directory.child (name ++ ".json")) summary.sorted.document

def noteDown (name : Text) (summary : Json) : Step m Unit :=
  change fun c => { c with notes := c.notes.put name (Value.ofJson summary) }

def recordSummary (name : Text) (summary : Json) : Step m Unit := do
  noteDown name summary
  keep name summary

/-- Records a summary of any table. It is noted down even where it cannot be written out. -/
def record (name : Text) (metadata : Value) : Step m Unit := do
  let summary ← fromExcept (metadata.tableSummary (← current).limits)
  noteDown name summary
  let c ← current
  if c.trace.isSome || c.artifacts.isSome then
    let _ ← fromExcept (((Value.ofJson summary).document c.limits true).mapError Value.NoDocument.failure)
  keep name summary

def writeArtifact (name : Text) (content : Text) (extension : Text := ".js") : Step m Unit := do
  let c ← current
  if let some directory := c.artifacts then
    unless content.isEmpty do
      let safeName := Text.replace " " "_" name
      Host.writeText (directory.child (safeName ++ extension)) content

end Context
end Rehost
