import Rehost.Context
import Rehost.Script.Browser
import Rehost.Script.Capability
import Rehost.Script.Envelope

/-! The five passes. Each takes up the stage text, leaves its own result there, notes in the report what it met, and
answers with what it noticed. -/
namespace Rehost

inductive Pass where
  | buildHash
  | browser
  | rules
  | capabilities
  | envelope
deriving DecidableEq, Repr

namespace Pass
open Context

def name : Pass → Text
  | buildHash => "hash_extract"
  | browser => "environment"
  | rules => "rewrite"
  | capabilities => "capabilities"
  | envelope => "wrap"

def all : List Pass := [buildHash, browser, rules, capabilities, envelope]

def named? (name : Text) : Option Pass := all.find? (·.name = name)

def origin (c : Context) : Except Failure Text :=
  match c.options with
  | .table options =>
    match Value.field? "origin" options with
    | some v => if v.isGiven then v.display c.limits else .ok Rule.defaultOrigin
    | none => .ok Rule.defaultOrigin
  | v => .error (.notATable v.kindName "get")

section
variable {m : Type → Type} [Monad m]

def extractHash : Step m Json := do
  let token := BuildHash.extract (← current).stageText
  change fun c => { c with hash := token }
  amend fun r => { r with sourceHash := token }
  return .object [("hash", .text token), ("found", .bool (token ≠ BuildHash.unknown))]

def stripBrowser : Step m Json := do
  let t := (← current).stageText
  let counts := Browser.counts t
  let stripped := Browser.strip t
  change fun c => { c with stageText := stripped }
  amend fun r => { r with stripped := Report.integers (counts.filter (·.2 ≠ 0)) }
  return .object [("input_length", .nat t.length), ("output_length", .nat stripped.length),
    ("replacements", .ofCounts counts), ("changed", .bool (stripped ≠ t))]

def noteCount (name : Text) (count : Nat) : Step m Unit :=
  amend fun r => { r with landmarks := r.landmarks.put name count }

def repeated (name : Text) (count : Nat) : List Text := if 1 < count then [onlyFirstChanged name count] else []

def noteCounts : Table Nat → Step m (List Text)
  | [] => return []
  | (name, count) :: rest => do
    noteCount name count
    return repeated name count ++ (← noteCounts rest)

def warn (warnings : List Text) : Step m Unit := amend fun r => { r with warnings := r.warnings ++ warnings }

def applyRules : Step m Json := do
  let t := (← current).stageText
  let origin ← fromExcept (origin (← current))
  let (replaced, counts) ← fromExcept ((Rule.applyAll origin Rule.all t).mapError .absent)
  change fun c => { c with stageText := replaced }
  let warnings ← noteCounts counts
  warn warnings
  return .object [("input_length", .nat t.length), ("output_length", .nat replaced.length),
    ("matches", .ofCounts counts), ("origin", .text origin), ("warnings", .ofStrings warnings)]

/-- Look-up calls are commonly repeated, a guard is not. -/
def addCapabilities : Step m Json := do
  let t := (← current).stageText
  let injected ← fromExcept ((Capability.inject t).mapError .absent)
  change fun c => { c with stageText := injected }
  let lookup := (Landmark.lookup.search? t).bind (·.named? "name")
  noteCount Landmark.initGuard.name (Landmark.initGuard.count t)
  noteCount Landmark.lookup.name (Landmark.lookup.count t)
  warn (repeated Landmark.initGuard.name (Landmark.initGuard.count t))
  return .object [("input_length", .nat t.length), ("output_length", .nat injected.length),
    ("config_lookup", Report.optionalText lookup)]

def wrap : Step m Json := do
  let t := (← current).stageText
  let wrapped := Envelope.wrap t
  change fun c => { c with stageText := wrapped }
  change fun c => { c with output := wrapped }
  amend fun r => { r with outputLength := wrapped.length }
  return .object [("input_length", .nat t.length), ("output_length", .nat wrapped.length),
    ("header_length", .nat Envelope.header.length), ("footer_length", .nat Envelope.footer.length)]

def perform : Pass → Step m Json
  | buildHash => extractHash
  | browser => stripBrowser
  | rules => applyRules
  | capabilities => addCapabilities
  | envelope => wrap

end

/-- The pass in memory: what it noticed or why it failed, and the context behind it. -/
def outcome (p : Pass) (c : Context) : Except Failure Json × Context := ((p.perform : Step Id Json).run.run c).run

/-- What the pass noticed and the context it leaves, where it does not fail. -/
def apply (p : Pass) (c : Context) : Except Failure (Json × Context) := (p.outcome c).1.map (·, (p.outcome c).2)

variable {m : Type → Type} [Monad m] [Host m]

/-- The text that a pass leaves as an artifact: the raw input stands for the pass that changes no text. -/
def artifact (p : Pass) (c : Context) : Text × Text :=
  match p with
  | buildHash => ("raw_input", c.rawInput)
  | p => (p.name, c.stageText)

def step (p : Pass) : Step m Unit := do
  let noticed ← p.perform
  Context.recordSummary p.name noticed
  let (name, content) := p.artifact (← Context.current)
  Context.writeArtifact name content

end Pass
end Rehost
