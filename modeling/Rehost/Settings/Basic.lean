import Rehost.Failure
import Rehost.Script.Rule
import Rehost.Settings.Document
import Rehost.Table
import Rehost.Value.Display

/-! Settings of a run: where it reads and writes, and the origin that the transport announces. They come in layers, and
each layer may set any of them; a key that no setting has is refused, whatever is written under it. -/
namespace Rehost

structure Settings where
  inputPath : Path := .ofText "scripts/headless-min.js"
  outputPath : Path := .ofText "src/build.js"
  origin : Text := Rule.defaultOrigin
  artifacts : Option Path := none
  reportPath : Option Path := none
deriving DecidableEq, Repr, Inhabited

namespace Settings

/-- What a layer gives, as far as settings tell values apart. -/
inductive Given where
  | null
  | text (s : Text)
  | path (p : Path)
  /-- Anything else, by the name of its kind. -/
  | other (kind : Text)
deriving DecidableEq, Repr

def Given.ofDatum : Datum → Given
  | .null => null
  | .text s => text s
  | .other kind => other kind

def Given.ofValue : Value → Given
  | .null => null
  | .text s => text s
  | .path p => path p
  | v => other v.kindName

inductive Field where
  | inputPath
  | outputPath
  | origin
  | artifacts
  | reportPath
deriving DecidableEq, Repr

namespace Field

def name : Field → Text
  | inputPath => "input_path"
  | outputPath => "output_path"
  | origin => "origin"
  | artifacts => "artifacts"
  | reportPath => "report_path"

def all : List Field := [inputPath, outputPath, origin, artifacts, reportPath]

def named? (key : Text) : Option Field := all.find? (·.name = key)

@[simp] theorem named?_name (f : Field) : named? f.name = some f := by cases f <;> rfl

def path (f : Field) : Given → Except SettingsError Path
  | .null => .error (.nullPath f.name)
  | .text s => if s.isEmpty then .error (.emptyPath f.name) else .ok (.ofText s)
  | .path p => .ok p
  | .other kind => .error (.notAPath f.name kind)

def path? (f : Field) : Given → Except SettingsError (Option Path)
  | .null => .ok none
  | g => (f.path g).map some

end Field

def originOf : Given → Except SettingsError Text
  | .text s => if s.isEmpty then .error .badOrigin else .ok s
  | _ => .error .badOrigin

def set (s : Settings) (g : Given) : Field → Except SettingsError Settings
  | .inputPath => (Field.inputPath.path g).map ({ s with inputPath := · })
  | .outputPath => (Field.outputPath.path g).map ({ s with outputPath := · })
  | .origin => (originOf g).map ({ s with origin := · })
  | .artifacts => (Field.artifacts.path? g).map ({ s with artifacts := · })
  | .reportPath => (Field.reportPath.path? g).map ({ s with reportPath := · })

/-- The entries by the texts that their keys are; a key of another kind is refused. -/
def keyed : List (Given × Given) → Except Failure (List (Text × Given))
  | [] => .ok []
  | (.text key, g) :: es => (keyed es).map ((key, g) :: ·)
  | _ :: _ => .error .mixedKeys

def unknownKeys (t : Table Given) : List Text :=
  (t.keys.filter fun key => (Field.named? key).isNone).mergeSort fun a b => decide (a ≤ b)

def setAll (s : Settings) : Table Given → Except SettingsError Settings
  | [] => .ok s
  | (key, g) :: t =>
    match Field.named? key with
    | none => setAll s t
    | some f =>
      match s.set g f with
      | .error e => .error e
      | .ok s => setAll s t

/-- A layer on top of settings. Of two entries with one key the later counts. -/
def override (s : Settings) (entries : List (Given × Given)) : Except Failure Settings := do
  let t := Table.ofList (← keyed entries)
  match unknownKeys t with
  | [] => (s.setAll t).mapError .settings
  | names => throw (.settings (.unknownKeys names))

/-- A layer in which nothing means that the setting stays as it is. -/
def merged (s : Settings) (entries : List (Given × Given)) : Except Failure Settings :=
  s.override (entries.filter fun e => e.2 ≠ .null)

def mergedValue (s : Settings) : Value → Except Failure Settings
  | .table entries => s.merged (entries.map fun e => (.ofValue e.1, .ofValue e.2))
  | v => .error (.notATable v.kindName "items")

def ofDocument (file : Text) : Document → Except Failure Settings
  | .nothing => .ok {}
  | .other => .error (.settings (.notAMapping file))
  | .mapping entries => override {} (entries.map fun e => (.ofDatum e.1, .ofDatum e.2))

end Settings
end Rehost
