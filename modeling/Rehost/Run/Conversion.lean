import Rehost.Pipeline
import Rehost.Settings.File

/-! A conversion: one script is read, goes through all passes, and is written as a module. Nothing is written unless
every pass succeeds. -/
namespace Rehost.Conversion

variable {m : Type → Type} [Monad m] [Host m]

def speaker : Text := "nodeify.main"

def contextOf (s : Settings) (trace : Option LogId) (source : Text) (r : Report) : Context where
  rawInput := source
  inputPath := some s.inputPath
  options := .table [(.text "origin", .text s.origin)]
  artifacts := s.artifacts
  trace := trace
  report := r

def deliver (s : Settings) (dryRun : Bool) : Step m Unit := do
  let output := (← Context.current).output
  if dryRun then Host.note speaker .info ("dry run: skipping write to " ++ s.outputPath.toText)
  else
    Host.writeText s.outputPath output
    Host.note speaker .info ("wrote " ++ s.outputPath.toText ++ " (" ++ toString output.length ++ " chars)")

/-- Converts, and tells how long each pass took. The report of the context at hand is filled in on the way, so a failure
leaves it as far as it got. -/
def run (s : Settings) (dryRun : Bool) (trace : Option LogId) : Step m (List (Text × Binary64)) := do
  let source ← Host.readSource s.inputPath
  Context.start (contextOf s trace source (← Context.current).report)
  let times ← Pipeline.registry.run
  deliver s dryRun
  return times

end Rehost.Conversion
